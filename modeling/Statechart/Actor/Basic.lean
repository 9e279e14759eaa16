/-!
# Actors

An actor runs beside an interpreter, which starts it, sends it events and stops it.
This module holds the kinds of actors, the stages of their lives and the ways in which
they fail.
-/

namespace Statechart

/-- What runs as an actor. -/
inductive ActorKind where
  /-- Another machine. -/
  | machine
  /-- A computation with one result. -/
  | promise
  /-- A process wired up once, at its start. -/
  | callback
  /-- A source of events. -/
  | stream
  /-- A delay. -/
  | timer
  | custom
  deriving DecidableEq

namespace ActorKind

def text : ActorKind → String
  | .machine => "machine"
  | .promise => "promise"
  | .callback => "callback"
  | .stream => "stream"
  | .timer => "timer"
  | .custom => "custom"

end ActorKind

/-- How far an actor has come. -/
inductive ActorStatus where
  | active
  | done
  | error
  | stopped
  deriving DecidableEq

namespace ActorStatus

def text : ActorStatus → String
  | .active => "Active"
  | .done => "Done"
  | .error => "Error"
  | .stopped => "Stopped"

end ActorStatus

/-- Why an actor cannot go on. -/
inductive ActorError where
  /-- It needs a scheduler of tasks and there is none. -/
  | noRuntime
  | start (reason : String)
  | receive (event reason : String)
  | failed (reason : String)
  deriving DecidableEq

namespace ActorError

def message : ActorError → String
  | .noRuntime => "No tokio runtime is available to drive the actor"
  | .start reason => "Actor failed to start: " ++ reason
  | .receive event reason => "Actor rejected event '" ++ event ++ "': " ++ reason
  | .failed reason => "Actor failed: " ++ reason

end ActorError

end Statechart
