import Statechart.Machine

/-!
# Machine descriptions

A machine is described as a tree of states whose transitions name their targets by
references.  A description may be wrong in many ways; whether it is, and which machine it
describes if it is not, is decided elsewhere.
-/

namespace Statechart

/-- A described transition: targets are references. -/
structure TransitionSpec (L : Type) where
  targets : List String := []
  guard : Option Guard := none
  actions : List (Action L) := []
  reenter : Bool := false

namespace TransitionSpec

/-- A transition to one target and nothing more. -/
def toTarget {L : Type} (target : String) : TransitionSpec L :=
  { targets := [target] }

end TransitionSpec

/-- What a described transition waits for. -/
inductive Cue where
  /-- An event that the text of a descriptor matches. -/
  | on (descriptor : String)
  | always
  /-- The completion of the state itself. -/
  | done
  deriving DecidableEq

/-- A described invocation; without an id it gets one from its state. -/
structure InvokeSpec (L : Type) where
  logic : L
  id : Option String := none
  input : Option (Json → Event → Json) := none
  onDone : List (TransitionSpec L) := []
  onError : List (TransitionSpec L) := []

/-- The kind of state a description asks for. -/
inductive KindSpec where
  /-- Compound if there are children and atomic otherwise. -/
  | regular
  | parallel
  | final
  | history (kind : HistoryKind)
  deriving DecidableEq

/-- A described state without its children. -/
structure StateHead (L : Type) where
  key : String
  id : Option String := none
  kind : KindSpec := .regular
  initial : Option String := none
  historyTarget : Option String := none
  transitions : List (Cue × TransitionSpec L) := []
  after : List (Duration × TransitionSpec L) := []
  entry : List (Action L) := []
  exit : List (Action L) := []
  invokes : List (InvokeSpec L) := []
  output : Option (Json → Event → Json) := none
  tags : List String := []
  description : Option String := none

/-- A described state and the states below it. -/
inductive StateSpec (L : Type) where
  | mk (head : StateHead L) (children : List (StateSpec L))

namespace StateSpec

variable {L : Type}

def head : StateSpec L → StateHead L
  | .mk head _ => head

def children : StateSpec L → List (StateSpec L)
  | .mk _ children => children

end StateSpec

/-- A described machine: its root, whose id is its key, and its first context. -/
structure MachineSpec (L : Type) where
  root : StateSpec L
  context : Option (Json → Json)

end Statechart
