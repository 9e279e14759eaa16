import Statechart.Actor.Basic
import Statechart.Machine

/-!
# Actor logic

What an actor does.  A callback, a custom actor and the two kinds of tasks are given by
what they ask for at each point of their lives; a machine is itself a logic, since its
actions may start further machines.
-/

namespace Statechart

/-- What an actor asks for. -/
inductive ActorCommand where
  /-- Send an event to the interpreter that started the actor. -/
  | send (event : Event)
  /-- Send an event after a delay; it is not called off when the actor ends. -/
  | later (delay : Duration) (event : Event)
  /-- Report the result and end. -/
  | complete (output : Json)
  /-- Report a failure and end. -/
  | fail (message : String)
  /-- Make something known to the outside. -/
  | note (text : String)
  deriving DecidableEq

/-- What an actor asks for at one point of its life, and why it cannot go on, if it
cannot. -/
structure Response where
  commands : List ActorCommand := []
  failure : Option ActorError := none

/-- What a callback sets up at its start.  What it does later may depend on the events that
it has been given before, the first one first. -/
structure CallbackSetup where
  commands : List ActorCommand := []
  /-- What it does with events; without this it ignores them. -/
  receiver : Option (List Event → Event → List ActorCommand) := none
  /-- What it does when it is stopped. -/
  cleanup : List Event → List ActorCommand := fun _ => []
  failure : Option String := none

/-- An actor of its own kind.  What it does depends on its input and, after its start, on the
events that it has been given before, the first one first. -/
structure CustomLogic where
  start : Json → Response
  receive : Json → List Event → Event → Response
  /-- What it does when it is stopped. -/
  stop : Json → List Event → List ActorCommand
  snapshot : Json → List Event → Option Json

/-- How a promise ends, and how long that takes. -/
structure PromisePlan where
  delay : Option Duration
  /-- The result or a reason; a promise may also be kept waiting for ever. -/
  result : Option (Except String Json)

/-- An item of a stream, and how long it takes to come. -/
structure StreamItem where
  delay : Option Duration
  /-- An event, or the reason why the stream ends here. -/
  item : Except String Event

/-- What an actor does. -/
inductive ActorLogic where
  | machine (machine : Machine ActorLogic)
  | callback (setup : Json → CallbackSetup)
  | custom (logic : CustomLogic)
  | promise (plan : Json → PromisePlan)
  | stream (items : Json → List StreamItem)

namespace ActorLogic

/-- The kind of actor that runs a logic. -/
def kind : ActorLogic → ActorKind
  | .machine _ => .machine
  | .callback _ => .callback
  | .custom _ => .custom
  | .promise _ => .promise
  | .stream _ => .stream

end ActorLogic

namespace Action

def summary (action : Action ActorLogic) : String :=
  action.label fun logic => logic.kind.text

end Action

end Statechart
