import Statechart.Chart.Basic
import Statechart.StateValue

/-!
# Configurations

A configuration is the set of active states.  It is valid when the root is active, every
active state has an active parent, an active compound state has exactly one active child,
an active parallel state has all its regions active, and no history state is active.
`Chart.check` names the first fault it meets in document order.
-/

namespace Statechart

/-- A set of states in increasing order. -/
abbrev StateSet := List StateId

namespace StateSet

def insert (state : StateId) : StateSet → StateSet
  | [] => [state]
  | first :: rest =>
      if state < first then state :: first :: rest
      else if state = first then first :: rest
      else first :: insert state rest

def insertAll (states : List StateId) (set : StateSet) : StateSet :=
  states.foldl (fun set state => StateSet.insert state set) set

/-- The set of the states in a list. -/
def ofList (states : List StateId) : StateSet :=
  insertAll states []

def remove (set : StateSet) (state : StateId) : StateSet :=
  set.filter fun other => other ≠ state

def removeAll (set : StateSet) (states : List StateId) : StateSet :=
  set.filter fun other => !states.contains other

/-- Have the two sets no state in common? -/
def disjoint (left right : StateSet) : Bool :=
  left.all fun state => !right.contains state

end StateSet

/-- The active states. -/
abbrev Configuration := StateSet

/-- Why a set of states is no configuration. -/
inductive ConfigurationFault where
  | rootInactive
  | outOfRange (state : StateId)
  | orphan (id : String)
  | childCount (id : String) (count : Nat)
  | inactiveRegion (id : String)
  | activeHistory (id : String)
  deriving DecidableEq

namespace ConfigurationFault

def message : ConfigurationFault → String
  | .rootInactive => "root state is not active"
  | .outOfRange state => "state index " ++ toString state ++ " is out of range"
  | .orphan id => "'" ++ id ++ "' is active without its parent"
  | .childCount id count =>
      "compound state '" ++ id ++ "' has " ++ toString count ++ " active children"
  | .inactiveRegion id => "parallel state '" ++ id ++ "' has inactive regions"
  | .activeHistory id => "history state '" ++ id ++ "' cannot be active"

end ConfigurationFault

namespace Chart

/-- The regions of a state that are active. -/
def activeRegions (chart : Chart) (active : Configuration) (state : StateId) :
    List StateId :=
  (chart.regions state).filter active.contains

/-- Is the parent of a state, if it has one, active? -/
def parentActive (chart : Chart) (active : Configuration) (state : StateId) : Bool :=
  match chart.parent? state with
  | none => true
  | some parent => active.contains parent

/-- What the kind of an active state demands of its children. -/
def childFault? (chart : Chart) (active : Configuration) (state : StateId) :
    Option ConfigurationFault :=
  let count := (chart.activeRegions active state).length
  match chart.kind state with
  | .compound _ => if count ≠ 1 then some (.childCount (chart.id state) count) else none
  | .parallel =>
      if count ≠ (chart.regions state).length then some (.inactiveRegion (chart.id state))
      else none
  | .history _ _ => some (.activeHistory (chart.id state))
  | .atomic | .final => none

def stateFault? (chart : Chart) (active : Configuration) (state : StateId) :
    Option ConfigurationFault :=
  if chart.size ≤ state then some (.outOfRange state)
  else if !chart.parentActive active state then some (.orphan (chart.id state))
  else chart.childFault? active state

/-- The first fault of a set of states, if it is no configuration. -/
def check (chart : Chart) (active : Configuration) : Option ConfigurationFault :=
  if !active.contains root then some .rootInactive
  else active.findSome? (chart.stateFault? active)

def leaves (chart : Chart) (active : Configuration) : List StateId :=
  active.filter chart.isLeaf

/-- The tags of the active states, without repetition and in order. -/
def tags (chart : Chart) (active : Configuration) : List String :=
  let all := active.flatMap fun state =>
    ((chart.node? state).map StateNode.tags).getD []
  Table.keys (Table.ofList (all.map fun tag => (tag, ())))

/-- Has a state completed?  `fuel` bounds the levels looked at. -/
def completedWithin (chart : Chart) (active : Configuration) : Nat → StateId → Bool
  | 0, _ => false
  | fuel + 1, state =>
      match chart.kind state with
      | .compound _ =>
          (chart.children state).any fun child =>
            active.contains child && chart.isFinal child
      | .parallel => (chart.regions state).all (completedWithin chart active fuel)
      | .final => true
      | .atomic | .history _ _ => false

/-- Has a state completed?  A compound state has when an active child is final, a parallel
state when all its regions have. -/
def hasCompleted (chart : Chart) (active : Configuration) (state : StateId) : Bool :=
  chart.completedWithin active (chart.size + 1) state

/-- The value of a state; `fuel` bounds the levels looked at. -/
def valueWithin (chart : Chart) (active : Configuration) : Nat → StateId → StateValue
  | 0, _ => .branch []
  | fuel + 1, state =>
      let below := (chart.children state).filter active.contains
      let value := fun child =>
        if chart.isLeaf child then .branch [] else valueWithin chart active fuel child
      if chart.isParallel state then
        .branch (Table.ofList (below.map fun child => (chart.key child, value child)))
      else
        match below with
        | [child] =>
            if chart.isLeaf child then .leaf (chart.key child)
            else .branch [(chart.key child, value child)]
        | _ => .branch []

/-- The active states seen as a tree of keys. -/
def stateValue (chart : Chart) (active : Configuration) : StateValue :=
  chart.valueWithin active (chart.size + 1) root

end Chart

end Statechart
