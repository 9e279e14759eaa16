import Statechart.History
import Statechart.Text

/-!
# Charts

A chart is the tree of states of a machine, laid out in document order: a state is known
by its position, every state stands before the states below it, and what lies below a
state is an unbroken run of positions.  This module holds the tree and the walks on it;
what states do stands elsewhere.
-/

namespace Statechart

/-- What a history state remembers of its parent. -/
inductive HistoryKind where
  /-- The active children. -/
  | shallow
  /-- The active leaves below. -/
  | deep
  deriving DecidableEq

/-- The kinds of states. -/
inductive NodeKind where
  | atomic
  /-- Exactly one child is active, at first this one. -/
  | compound (initial : StateId)
  /-- All regions are active together. -/
  | parallel
  | final
  /-- Never active: stands for what its parent held last, or at first for the defaults. -/
  | history (kind : HistoryKind) (defaults : List StateId)
  deriving DecidableEq

instance : Inhabited NodeKind := ⟨.atomic⟩

/-- A state of a chart. -/
structure StateNode where
  /-- Position in document order. -/
  index : StateId
  /-- Name inside the parent. -/
  key : String
  /-- Name inside the chart: given, or the keys from the root joined by points. -/
  id : String
  /-- Keys from the root, which is left out, down to this state. -/
  path : List String
  kind : NodeKind
  parent : Option StateId
  /-- Children in document order, history states among them. -/
  children : List StateId
  depth : Nat
  tags : List String
  description : Option String
  deriving DecidableEq, Inhabited

/-- The states of a machine in document order. -/
structure Chart where
  nodes : List StateNode
  deriving DecidableEq, Inhabited

namespace Chart

def root : StateId := 0

def size (chart : Chart) : Nat := chart.nodes.length

def node? (chart : Chart) (state : StateId) : Option StateNode :=
  chart.nodes[state]?

def kind (chart : Chart) (state : StateId) : NodeKind :=
  ((chart.node? state).map StateNode.kind).getD .atomic

def id (chart : Chart) (state : StateId) : String :=
  ((chart.node? state).map StateNode.id).getD ""

def key (chart : Chart) (state : StateId) : String :=
  ((chart.node? state).map StateNode.key).getD ""

def ids (chart : Chart) (states : List StateId) : List String :=
  states.map chart.id

/-- The state that a state lies directly in. -/
def parent? (chart : Chart) (state : StateId) : Option StateId :=
  (chart.node? state).bind StateNode.parent

def children (chart : Chart) (state : StateId) : List StateId :=
  ((chart.node? state).map StateNode.children).getD []

/-- How far a state lies below the root. -/
def depth (chart : Chart) (state : StateId) : Nat :=
  ((chart.node? state).map StateNode.depth).getD 0

def isHistory (chart : Chart) (state : StateId) : Bool :=
  match chart.kind state with
  | .history _ _ => true
  | _ => false

def isFinal (chart : Chart) (state : StateId) : Bool :=
  chart.kind state = .final

def isParallel (chart : Chart) (state : StateId) : Bool :=
  chart.kind state = .parallel

def isCompound (chart : Chart) (state : StateId) : Bool :=
  match chart.kind state with
  | .compound _ => true
  | _ => false

/-- Can the state be active without an active child? -/
def isLeaf (chart : Chart) (state : StateId) : Bool :=
  match chart.kind state with
  | .atomic | .final => true
  | _ => false

/-- The children that can be active. -/
def regions (chart : Chart) (state : StateId) : List StateId :=
  (chart.children state).filter fun child => !chart.isHistory child

/-- The states that a state lies in, the nearest first, at most `fuel` of them. -/
def ancestorsUpTo (chart : Chart) : Nat → StateId → List StateId
  | 0, _ => []
  | fuel + 1, state =>
      match chart.parent? state with
      | none => []
      | some parent => parent :: ancestorsUpTo chart fuel parent

/-- The states that a state lies in, the nearest first. -/
def ancestors (chart : Chart) (state : StateId) : List StateId :=
  chart.ancestorsUpTo chart.size state

/-- Does `state` lie strictly inside `ancestor`? -/
def isInside (chart : Chart) (state ancestor : StateId) : Bool :=
  ancestor < state && (chart.ancestors state).contains ancestor

/-- The states strictly between a state and one that it lies in, the nearest first. -/
def between (chart : Chart) (state outer : StateId) : List StateId :=
  (chart.ancestors state).takeWhile fun ancestor => ancestor ≠ outer

def bearer? (chart : Chart) (id : String) : Option StateId :=
  (chart.nodes.reverse.find? fun node => node.id = id).map StateNode.index

def descend (chart : Chart) (start : StateId) : List String → Option StateId
  | [] => some start
  | key :: keys =>
      match (chart.children start).find? fun child => chart.key child = key with
      | some child => chart.descend child keys
      | none => none

/-- A reference without the mark that may stand before it. -/
def unmarked : List Char → List Char
  | '#' :: rest => rest
  | letters => letters

/-- The state that a reference names: an id, or an id followed by keys, each after a
point.  An id that holds more of the reference goes before one that holds less. -/
def find? (chart : Chart) (reference : String) : Option StateId :=
  let letters := unmarked reference.toList
  match chart.bearer? (String.ofList letters) with
  | some state => some state
  | none =>
      let bases := (Text.splitsFromRight letters).filterMap fun (front, back) =>
        (chart.bearer? (String.ofList front)).map fun base => (base, back)
      match bases with
      | [] => none
      | (base, back) :: _ => chart.descend base ((Text.cut back).map String.ofList)

end Chart

end Statechart
