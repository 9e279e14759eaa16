import Statechart.Interpreter.Status
import Statechart.Resolution

/-!
# The state of an interpreter

A step state is what one step changes and what a failed step leaves unchanged.  A
snapshot is what an interpreter shows of itself.
-/

namespace Statechart

/-- What a step works on. -/
structure StepState where
  active : Configuration := []
  context : Json
  history : HistoryRecords := []
  /-- Raised events, which come before all mail. -/
  raised : List Event := []
  done : Bool := false
  output : Option Json := none
  deriving DecidableEq, Inhabited

namespace StepState

def raise (state : StepState) (event : Event) : StepState :=
  { state with raised := state.raised ++ [event] }

end StepState

/-- What an interpreter shows of itself. -/
structure Snapshot where
  active : Configuration
  context : Json
  history : HistoryRecords
  status : Status
  lastEvent : Option Event
  output : Option Json
  failure : Option Failure
  deriving DecidableEq

namespace Snapshot

def ofState (state : StepState) (status : Status) (lastEvent : Option Event) : Snapshot :=
  { active := state.active
    context := state.context
    history := state.history
    status
    lastEvent
    output := state.output
    failure := none }

/-- Does a dotted path lead into the value of the active states? -/
def hasPath (snapshot : Snapshot) (chart : Chart) (path : String) : Bool :=
  !snapshot.active.isEmpty && (chart.stateValue snapshot.active).hasPath path

/-- Is the state that a reference names active? -/
def isActive (snapshot : Snapshot) (chart : Chart) (reference : String) : Bool :=
  match chart.find? reference with
  | some state => snapshot.active.contains state
  | none => false

def hasTag (snapshot : Snapshot) (chart : Chart) (tag : String) : Bool :=
  (chart.tags snapshot.active).contains tag

/-- Would an event be taken up by a transition? -/
def can {L : Type} (snapshot : Snapshot) (machine : Machine L) (event : Event) : Bool :=
  snapshot.status = .running &&
    match machine.resolve snapshot.active snapshot.history snapshot.context event with
    | .ok resolution => !resolution.chosen.isEmpty
    | .error _ => false

end Snapshot

end Statechart
