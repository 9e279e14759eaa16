import Statechart.Actor.Registry
import Statechart.Interpreter.Emission

/-!
# Interpreters

An interpreter runs a machine.  It holds the state between steps, the snapshot that it
shows, its observers, and a supervisor: mailbox, actors and what has come out.  A child
machine is itself run by an interpreter, which the supervisor holds as an actor; so a
whole tree of interpreters is one value.
-/

namespace Statechart

/-- The mailbox and the actors of an interpreter, and what has come out of it. -/
structure Supervisor (ι : Type) where
  /-- Who the interpreter is to the one that it is a child of. -/
  link : Option Origin
  registry : Registry ι
  inbox : List Envelope
  outbox : List Emission

namespace Supervisor

variable {ι : Type}

def idle (link : Option Origin) : Supervisor ι :=
  { link, registry := Registry.empty, inbox := [], outbox := [] }

def emit (supervisor : Supervisor ι) (emission : Emission) : Supervisor ι :=
  { supervisor with outbox := supervisor.outbox ++ [emission] }

def reveal (supervisor : Supervisor ι) (activity : Activity) : Supervisor ι :=
  supervisor.emit (.activity [] activity)

/-- Put an envelope into the mailbox without telling anyone. -/
def keep (supervisor : Supervisor ι) (envelope : Envelope) : Supervisor ι :=
  { supervisor with inbox := supervisor.inbox ++ [envelope] }

/-- Put an envelope into the mailbox and tell the interpreter above that there is mail. -/
def post (supervisor : Supervisor ι) (envelope : Envelope) : Supervisor ι :=
  let supervisor := supervisor.keep envelope
  match supervisor.link with
  | none => supervisor
  | some self => supervisor.emit (.upward (.wake self.id))

/-- Send an event to the interpreter above, if there is one. -/
def sendUp (supervisor : Supervisor ι) (event : Event) : Supervisor ι :=
  match supervisor.link with
  | none => supervisor
  | some self => supervisor.emit (.upward (.sent self event))

end Supervisor

/-- What becomes of events that are sent before the start. -/
inductive PreStart where
  /-- They wait for the start. -/
  | defer
  | drop
  deriving DecidableEq

/-- The choices made when an interpreter is created. -/
structure Settings where
  id : Option String := none
  input : Json := .null
  maxMicrosteps : Nat := 1000
  preStart : PreStart := .defer

/-- A running machine. -/
structure Interpreter where
  machine : Machine ActorLogic
  settings : Settings
  status : Status
  state : StepState
  snapshot : Snapshot
  supervisor : Supervisor Interpreter
  /-- Events sent before the start. -/
  deferred : List Event
  board : Board
  /-- Does the start take up a state that was restored? -/
  restored : Bool

namespace Interpreter

def assemble (machine : Machine ActorLogic) (settings : Settings) (link : Option Origin) :
    Interpreter :=
  let state : StepState := { context := machine.initialContext settings.input }
  { machine
    settings
    status := .notStarted
    state
    snapshot := Snapshot.ofState state .notStarted none
    supervisor := Supervisor.idle link
    deferred := []
    board := {}
    restored := false }

def create (machine : Machine ActorLogic) (settings : Settings) : Interpreter :=
  assemble machine settings none

/-- An interpreter that is the actor of this origin. -/
def child (machine : Machine ActorLogic) (self : Origin) (input : Json) : Interpreter :=
  assemble machine { id := some self.id, input } (some self)

/-- The name of an interpreter: its own, or that of its machine. -/
def id (interpreter : Interpreter) : String :=
  interpreter.settings.id.getD interpreter.machine.id

/-- What a parent is shown of a child machine. -/
def report (interpreter : Interpreter) : Json :=
  let snapshot := interpreter.snapshot
  Json.ofFields
    [("value", (interpreter.machine.chart.stateValue snapshot.active).toJson),
     ("status", .str snapshot.status.text),
     ("output", snapshot.output.getD .null)]

/-- What is shown of the actor that bears an id, if it shows anything. -/
def childReport? (interpreter : Interpreter) (id : String) : Option Json :=
  match interpreter.supervisor.registry.actor? id with
  | some { process := .machine child _, .. } => some child.report
  | some { process := .custom logic input heard, .. } => logic.snapshot input heard
  | _ => none

/-- The same interpreter after its emissions have been taken out. -/
def drained (interpreter : Interpreter) : Interpreter :=
  { interpreter with supervisor := { interpreter.supervisor with outbox := [] } }

end Interpreter

/-- An operation on an interpreter; a failed one keeps the changes made so far. -/
abbrev Handling (α : Type) := EStateM Failure Interpreter α

/-- What the surroundings offer. -/
structure Facilities where
  /-- Are tasks run? -/
  runtime : Bool
  /-- Does the clock move only when told to?  Otherwise its timers are tasks. -/
  simulated : Bool
  /-- How many envelopes are taken from a mailbox in one go, and how many turns are given to
  what is ready, before that counts as endless.  Only what would go on for ever, or nearly
  so, depends on it. -/
  patience : Nat

namespace Facilities

def keepsTime (facilities : Facilities) : Bool :=
  facilities.simulated || facilities.runtime

end Facilities

/-- What an interpreter does with its child machines. -/
structure Nursery where
  start : Handling Unit
  /-- Give a child an event. -/
  receive : Event → Handling Unit
  /-- Let a child look into its mailbox. -/
  wake : Handling Unit
  stop : Handling Unit

end Statechart
