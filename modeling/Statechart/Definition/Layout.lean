import Statechart.Definition.Error
import Statechart.Definition.Spec

/-!
# Laying a description out

The described states take their positions in document order: a state, then all below its
first child, then all below its second.  `StateSpec.layOut` gives the chart, in which
kinds are not decided yet, and `StateSpec.heads` the descriptions in the same order.
Faults of keys and ids are found on the laid-out chart.
-/

namespace Statechart

namespace StateSpec

variable {L : Type}

mutual

def count : StateSpec L → Nat
  | .mk _ children => 1 + countAll children

def countAll : List (StateSpec L) → Nat
  | [] => 0
  | spec :: specs => spec.count + countAll specs

end

mutual

/-- The descriptions of the states in document order. -/
def heads : StateSpec L → List (StateHead L)
  | .mk head children => head :: headsOf children

def headsOf : List (StateSpec L) → List (StateHead L)
  | [] => []
  | spec :: specs => spec.heads ++ headsOf specs

end

/-- The positions of siblings, the first one being at `start`. -/
def positions (start : StateId) : List (StateSpec L) → List StateId
  | [] => []
  | spec :: specs => start :: positions (start + spec.count) specs

def placeRoot (head : StateHead L) (children : List (StateSpec L)) : StateNode :=
  { index := Chart.root
    key := head.key
    id := head.id.getD head.key
    path := []
    kind := .atomic
    parent := none
    children := positions (Chart.root + 1) children
    depth := 0
    tags := head.tags
    description := head.description }

def placeChild (parent : StateNode) (index : StateId) (head : StateHead L)
    (children : List (StateSpec L)) : StateNode :=
  { index
    key := head.key
    id := head.id.getD (parent.id ++ "." ++ head.key)
    path := parent.path ++ [head.key]
    kind := .atomic
    parent := some parent.index
    children := positions (index + 1) children
    depth := parent.depth + 1
    tags := head.tags
    description := head.description }

mutual

/-- A state below `parent` and all below it, from a position on. -/
def layOutBelow (parent : StateNode) (index : StateId) : StateSpec L → List StateNode
  | .mk head children =>
      let node := placeChild parent index head children
      node :: layOutAll node (index + 1) children

def layOutAll (parent : StateNode) (index : StateId) : List (StateSpec L) → List StateNode
  | [] => []
  | spec :: specs =>
      layOutBelow parent index spec ++ layOutAll parent (index + spec.count) specs

end

/-- The chart of a described root; kinds are not decided yet. -/
def layOut (spec : StateSpec L) : Chart :=
  let node := placeRoot spec.head spec.children
  { nodes := node :: layOutAll node (Chart.root + 1) spec.children }

end StateSpec

/-- May the text be the key of a state? -/
def validKey (key : String) : Bool :=
  key ≠ "" && !Text.holds key '.' && !Text.holds key '#'

namespace Chart

/-- Faults of the key of a state below `parent`. -/
def keyErrors (chart : Chart) (parent : StateId) (node : StateNode) :
    List DefinitionError :=
  let before := (chart.children parent).takeWhile fun sibling => sibling ≠ node.index
  (if before.any fun sibling => chart.key sibling = node.key then
      [.duplicateKey (chart.id parent) node.key]
    else []) ++
    if validKey node.key then [] else [.invalidKey (chart.id parent) node.key]

/-- Faults of the names of a state; of several states with one id all but the first are
at fault. -/
def nameErrors (chart : Chart) (node : StateNode) : List DefinitionError :=
  (match node.parent with
    | none => []
    | some parent => chart.keyErrors parent node) ++
    if (chart.nodes.take node.index).any fun other => other.id = node.id then
      [.duplicateId node.id]
    else []

/-- Faults of all names, in document order. -/
def layoutErrors (chart : Chart) : List DefinitionError :=
  chart.nodes.flatMap chart.nameErrors

end Chart

end Statechart
