import Statechart.Action
import Statechart.Event.Descriptor
import Statechart.Guard

/-!
# Machines

A machine is a chart together with what its states do: the transitions they take, the
actions they run, the actors they invoke and the delays they keep.
-/

namespace Statechart

/-- One way to take a transition: open when its guard holds. -/
structure Candidate (L : Type) where
  guard : Option Guard
  targets : List StateId
  actions : List (Action L)
  /-- Leave and enter the source again even if all targets lie in it. -/
  reenter : Bool

/-- The candidates of a state for one descriptor, the first open one being taken. -/
structure Transition (L : Type) where
  descriptor : Descriptor
  candidates : List (Candidate L)

/-- An actor that runs while a state is active. -/
structure Invocation (L : Type) where
  id : String
  logic : L
  input : Option (Json → Event → Json)

/-- A delay that starts when a state is entered, and the type of the event that ends it. -/
structure Timeout where
  delay : Duration
  event : String
  deriving DecidableEq

/-- What a state does. -/
structure Conduct (L : Type) where
  transitions : List (Transition L)
  entry : List (Action L)
  exit : List (Action L)
  invocations : List (Invocation L)
  timeouts : List Timeout
  output : Option (Json → Event → Json)

namespace Conduct

def idle {L : Type} : Conduct L :=
  { transitions := [], entry := [], exit := [], invocations := [], timeouts := []
    output := none }

end Conduct

/-- A chart and the conduct of its states, in the same order. -/
structure Machine (L : Type) where
  chart : Chart
  conducts : List (Conduct L)
  /-- The first context for an input. -/
  initialContext : Json → Json

/-- Where a candidate stands in a machine. -/
structure TransitionRef where
  source : StateId
  transition : Nat
  candidate : Nat
  deriving DecidableEq, Inhabited

namespace Machine

variable {L : Type}

/-- The name of a machine is that of its root. -/
def id (machine : Machine L) : String := machine.chart.id Chart.root

def conduct (machine : Machine L) (state : StateId) : Conduct L :=
  machine.conducts[state]?.getD Conduct.idle

def candidate? (machine : Machine L) (ref : TransitionRef) : Option (Candidate L) := do
  let transition ← (machine.conduct ref.source).transitions[ref.transition]?
  transition.candidates[ref.candidate]?

end Machine

end Statechart
