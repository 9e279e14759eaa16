import Statechart.Event.Basic

/-!
# Actions

Actions are data: each describes one effect of entering or leaving a state or of taking a
transition.  They are parametrised by the kind of logic a spawned actor runs, so that a
machine may in turn be such a logic.
-/

namespace Statechart

/-- An update or effect that failed. -/
structure ActionError where
  action : String
  reason : String
  deriving DecidableEq

namespace ActionError

def message (error : ActionError) : String :=
  "Action '" ++ error.action ++ "' failed: " ++ error.reason

end ActionError

/-- Whom a sent event is for. -/
inductive Recipient where
  /-- The interpreter itself, after the events already waiting. -/
  | self
  /-- The interpreter that this one is a child of. -/
  | parent
  /-- A child actor. -/
  | child (id : String)
  deriving DecidableEq

/-- What a custom effect asks for, besides what it does on its own. -/
inductive Command where
  | raise (event : Event)
  | send (recipient : Recipient) (event : Event)
  deriving DecidableEq

/-- What a custom effect does: what it makes known to the outside, what it asks for, and
why it failed, if it did.  The commands of a failed effect are not carried out. -/
structure EffectReport where
  notes : List Json
  commands : List Command
  failure : Option String

/-- One effect of a step; `L` is the kind of logic that spawned actors run. -/
inductive Action (L : Type) where
  /-- Replace the context. -/
  | assign (name : String) (update : Json → Event → Except String Json)
  /-- Put an event on the internal queue, or deliver it to the interpreter after a delay. -/
  | raise (event : Json → Event → Event) (delay : Option Duration) (id : Option String)
  /-- Send an event, at once or after a delay. -/
  | send (recipient : Recipient) (event : Json → Event → Event) (delay : Option Duration)
      (id : Option String)
  /-- Call off a delayed event. -/
  | cancel (id : String)
  | log (label : Option String) (text : Json → Event → String)
  /-- Start a child actor. -/
  | spawn (id : Option String) (logic : L) (input : Option (Json → Event → Json))
  | stopChild (id : String)
  | effect (name : String) (run : Json → Event → EffectReport)

namespace Action

variable {L : Type}

/-- Name an update or effect, or label a log line. -/
def named (name : String) : Action L → Action L
  | .assign _ update => .assign name update
  | .log _ text => .log (some name) text
  | .effect _ run => .effect name run
  | action => action

def delayed (span : Duration) : Action L → Action L
  | .raise event _ id => .raise event (some span) id
  | .send recipient event _ id => .send recipient event (some span) id
  | action => action

/-- Give a delayed event or a spawned actor its id. -/
def withId (id : String) : Action L → Action L
  | .raise event delay _ => .raise event delay (some id)
  | .send recipient event delay _ => .send recipient event delay (some id)
  | .spawn _ logic input => .spawn (some id) logic input
  | action => action

def withInput (input : Json → Event → Json) : Action L → Action L
  | .spawn id logic _ => .spawn id logic (some input)
  | action => action

/-- A short text that names the action; `kindOf` names the kind of an actor. -/
def label (kindOf : L → String) : Action L → String
  | .assign name _ => name
  | .raise _ _ _ => "raise"
  | .send .self _ _ _ => "send(self)"
  | .send .parent _ _ _ => "send(parent)"
  | .send (.child id) _ _ _ => "send(" ++ id ++ ")"
  | .cancel id => "cancel(" ++ id ++ ")"
  | .log none _ => "log"
  | .log (some label) _ => "log(" ++ label ++ ")"
  | .spawn (some id) _ _ => "spawn(" ++ id ++ ")"
  | .spawn none logic _ => "spawn(" ++ kindOf logic ++ ")"
  | .stopChild id => "stop(" ++ id ++ ")"
  | .effect name _ => name

end Action

end Statechart
