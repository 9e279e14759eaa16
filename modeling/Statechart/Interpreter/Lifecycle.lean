import Statechart.Actor.Generations
import Statechart.Interpreter.Step

/-!
# The life of an interpreter, step by step

Starting, sending, reading the mailbox and stopping.  One envelope is dealt with at a
time; whatever is sent meanwhile waits behind it.  A child machine is dealt with in the
same way, on an occasion that its parent gives it, so the operations come in levels: at
each level those for child machines are the ones of the level below.
-/

namespace Statechart

namespace Interpreter

def engine (interpreter : Interpreter) (facilities : Facilities) (nursery : Nursery) :
    Engine :=
  { machine := interpreter.machine
    facilities
    nursery
    limit := interpreter.settings.maxMicrosteps }

def onSupervisor (change : Supervisor Interpreter → Supervisor Interpreter)
    (interpreter : Interpreter) : Interpreter :=
  { interpreter with supervisor := change interpreter.supervisor }

def reveal (activity : Activity) (interpreter : Interpreter) : Interpreter :=
  interpreter.onSupervisor fun supervisor => supervisor.reveal activity

/-- Show the present state; the last event stays. -/
def refresh (interpreter : Interpreter) : Interpreter :=
  { interpreter with
    snapshot :=
      Snapshot.ofState interpreter.state interpreter.status interpreter.snapshot.lastEvent }

def withLastEvent (event : Event) (interpreter : Interpreter) : Interpreter :=
  { interpreter with snapshot := { interpreter.snapshot with lastEvent := some event } }

/-- Do what an observer does about a snapshot. -/
def react (ticket : Nat) (interpreter : Interpreter) : Reaction → Interpreter
  | .unsubscribe => { interpreter with board := interpreter.board.cancel ticket }
  | .post event => interpreter.onSupervisor fun supervisor => supervisor.post (.plain event)

/-- Show the snapshot to one observer, unless it has turned away. -/
def present (interpreter : Interpreter) (observer : Observer) : Interpreter :=
  if interpreter.board.isActive observer.ticket then
    let snapshot := interpreter.snapshot
    (observer.react snapshot).foldl (react observer.ticket)
      (interpreter.reveal (.published observer.listener snapshot))
  else interpreter

def publish (interpreter : Interpreter) : Interpreter :=
  let interpreter := interpreter.board.observers.foldl present interpreter
  { interpreter with board := interpreter.board.prune }

/-- Tell the observers that want to hear it, and have not turned away, about the end. -/
def tellEnd (tell : Listener → Activity) (interpreter : Interpreter) : Interpreter :=
  interpreter.board.observers.foldl (fun interpreter observer =>
    if interpreter.board.isActive observer.ticket && observer.listener.hearsEnd then
      interpreter.reveal (tell observer.listener)
    else interpreter) interpreter

/-- Tell the observers that nothing more will come, and let them go. -/
def complete (interpreter : Interpreter) : Interpreter :=
  let interpreter := interpreter.tellEnd .completed
  { interpreter with board := interpreter.board.clear }

def bench (interpreter : Interpreter) : Workbench :=
  { state := interpreter.state, supervisor := interpreter.supervisor, conflicts := [] }

/-- Keep what a step did to the mailbox and the actors. -/
def keepSupervisor (bench : Workbench) (interpreter : Interpreter) : Interpreter :=
  { interpreter with supervisor := bench.supervisor }

def commit (bench : Workbench) (interpreter : Interpreter) : Interpreter :=
  { interpreter with supervisor := bench.supervisor, state := bench.state }

/-- Report something to the listener that an interpreter has unless it is a child. -/
def diagnose (activity : Activity) (interpreter : Interpreter) : Interpreter :=
  match interpreter.supervisor.link with
  | none => interpreter.reveal activity
  | some _ => interpreter

def diagnoseConflicts (conflicts : List Conflict) (interpreter : Interpreter) :
    Interpreter :=
  conflicts.foldl (fun interpreter conflict => interpreter.diagnose (.conflict conflict))
    interpreter

/-- Report an event that no transition took up. -/
def diagnoseUnhandled (event : Event) (interpreter : Interpreter) : Interpreter :=
  interpreter.diagnose
    (.unhandled event.type
      (interpreter.machine.chart.ids interpreter.snapshot.active))

/-- End with a status: all exit actions, then the last snapshot. -/
def conclude (facilities : Facilities) (nursery : Nursery) (event : Event)
    (status : Status) (interpreter : Interpreter) : Option Failure × Interpreter :=
  let (failure, bench) :=
    (interpreter.engine facilities nursery).exitAll event interpreter.bench
  (failure, { interpreter.commit bench with status }.refresh.publish.complete)

/-- End because a step failed: all actors stop, and the state stays as it was. -/
def fail (nursery : Nursery) (failure : Failure) (interpreter : Interpreter) :
    Interpreter :=
  let interpreter := interpreter.onSupervisor fun supervisor => supervisor.stopAll nursery
  let interpreter := { interpreter with status := .error }.refresh
  let interpreter :=
    { interpreter with snapshot := { interpreter.snapshot with failure := some failure } }
  (interpreter.publish.tellEnd fun listener => .failed listener failure).complete

/-- Take a step that went well into the interpreter. -/
def settle (facilities : Facilities) (nursery : Nursery) (event : Event) (handled : Bool)
    (bench : Workbench) (interpreter : Interpreter) : Interpreter :=
  let interpreter :=
    (interpreter.keepSupervisor bench).diagnoseConflicts bench.conflicts
  let interpreter :=
    if handled then interpreter else interpreter.diagnoseUnhandled event
  let interpreter := { interpreter with state := bench.state }.withLastEvent event
  if bench.state.done then (interpreter.conclude facilities nursery event .done).2
  else interpreter.refresh.publish

/-- Take a step that failed into the interpreter. -/
def abandon (nursery : Nursery) (event : Event) (failure : Failure) (bench : Workbench)
    (interpreter : Interpreter) : Interpreter :=
  let interpreter :=
    (interpreter.keepSupervisor bench).diagnoseConflicts bench.conflicts
  (interpreter.withLastEvent event).fail nursery failure

def run (facilities : Facilities) (nursery : Nursery) (event : Event)
    (step : Engine → Event → StepM Bool) : Handling Unit := do
  let interpreter ← get
  match (step (interpreter.engine facilities nursery) event).run interpreter.bench with
  | .ok handled bench => set (interpreter.settle facilities nursery event handled bench)
  | .error failure bench => do
      set (interpreter.abandon nursery event failure bench)
      throw failure

/-- Take the step for an event from the mailbox. -/
def process (facilities : Facilities) (nursery : Nursery) (event : Event) :
    Handling Unit :=
  run facilities nursery event Engine.macrostep

/-- Go on after an actor was given something to do: if it cannot go on it is removed, and
the failure is dealt with as an event. -/
def afterwards (facilities : Facilities) (nursery : Nursery) (child : String) :
    Option ActorError → Handling Unit
  | none => pure ()
  | some error => do
      modify (onSupervisor fun supervisor => supervisor.dismiss nursery .error child)
      process facilities nursery (Event.errorActor child error.message)

def forward (facilities : Facilities) (nursery : Nursery) (child : String)
    (event : Event) : Handling Unit := do
  let interpreter ← get
  let (error, supervisor) := interpreter.supervisor.deliver nursery child event
  set { interpreter with supervisor }
  afterwards facilities nursery child error

/-- Let a child machine look into its mailbox. -/
def wakeChild (facilities : Facilities) (nursery : Nursery) (child : String) :
    Handling Unit := do
  let interpreter ← get
  let (error, supervisor) := interpreter.supervisor.wake nursery child
  set { interpreter with supervisor }
  afterwards facilities nursery child error

/-- Remove the actor that signed with this origin; does it still run? -/
def finishActor (nursery : Nursery) (origin : Origin) (status : ActorStatus) :
    Handling Bool := do
  let interpreter ← get
  let (found, supervisor) := interpreter.supervisor.finish nursery origin status
  set { interpreter with supervisor }
  return found

def makeDelivery (facilities : Facilities) (nursery : Nursery) :
    Delivery → Handling Unit
  | .event event => process facilities nursery event
  | .forward child event => forward facilities nursery child event
  | .parent event => modify (onSupervisor fun supervisor => supervisor.sendUp event)

/-- The status of an actor whose last event this is. -/
def closingStatus (event : Event) : ActorStatus :=
  if event.isActorError then .error else .done

/-- Stop a running interpreter; the exit actions are carried out even if some fail, and
the first failure is reported. -/
def stopRunning (facilities : Facilities) (nursery : Nursery) : Handling Unit := do
  let (failure, interpreter) := (← get).conclude facilities nursery Event.stop .stopped
  set interpreter
  match failure with
  | some failure => throw failure
  | none => pure ()

/-- Stop an interpreter.  One that has not been started forgets what was sent to it. -/
def stop (facilities : Facilities) (nursery : Nursery) : Handling Unit := do
  match (← get).status with
  | .running => stopRunning facilities nursery
  | .notStarted =>
      modify fun interpreter =>
        { interpreter with deferred := [], status := .stopped }.refresh.complete
  | .stopped | .done | .error => pure ()

/-- Deal with an event from the mailbox: one from an actor that has been removed is
dropped, and the last event of an actor removes it. -/
def dispatchEvent (facilities : Facilities) (nursery : Nursery) (sender : Option Origin)
    (event : Event) (terminal : Bool) : Handling Unit := do
  match sender with
  | none => process facilities nursery event
  | some origin =>
      if (← get).supervisor.registry.accepts origin then
        if terminal then
          let _ ← finishActor nursery origin (closingStatus event)
        process facilities nursery event
      else pure ()

def dispatch (facilities : Facilities) (nursery : Nursery) : Envelope → Handling Unit
  | .event sender event terminal =>
      dispatchEvent facilities nursery sender event terminal
  | .forward child event => forward facilities nursery child event
  | .wake child => wakeChild facilities nursery child
  | .timerFired timer delivery => do
      if ← finishActor nursery timer .done then makeDelivery facilities nursery delivery
      else pure ()
  | .stop => stop facilities nursery

/-- Take the first envelope out of the mailbox. -/
def nextEnvelope? (interpreter : Interpreter) : Option (Envelope × Interpreter) :=
  match interpreter.supervisor.inbox with
  | [] => none
  | envelope :: rest =>
      some (envelope, interpreter.onSupervisor fun supervisor =>
        { supervisor with inbox := rest })

def clearInbox (interpreter : Interpreter) : Interpreter :=
  interpreter.onSupervisor fun supervisor => { supervisor with inbox := [] }

/-- Deal with the mail, and with what comes in meanwhile; an interpreter that has ended
throws its mail away.  Answers how many envelopes were dealt with.

Nothing limits this work: when `patience` envelopes have been dealt with and there is still
mail, the operation stalls, which is told apart from every way in which a step fails. -/
def drain (facilities : Facilities) (nursery : Nursery) : Nat → Nat → Handling Nat
  | patience, handled => do
      let interpreter ← get
      if interpreter.status.isTerminal then
        set interpreter.clearInbox
        return handled
      else
        match interpreter.nextEnvelope? with
        | none => return handled
        | some (envelope, interpreter) =>
            match patience with
            | 0 => throw (.stalled .mailbox)
            | patience + 1 => do
                set interpreter
                dispatch facilities nursery envelope
                drain facilities nursery patience (handled + 1)

/-- Deal with all mail, unless the interpreter has not been started. -/
def flush (facilities : Facilities) (nursery : Nursery) : Handling Nat := do
  if (← get).status = .notStarted then return 0
  else drain facilities nursery facilities.patience 0

/-- Take up a restored state: its actors start, but no entry action is carried out. -/
def resume (facilities : Facilities) (nursery : Nursery) (event : Event)
    (interpreter : Interpreter) : Interpreter :=
  if interpreter.state.done then
    { interpreter with status := .done }.refresh.publish.complete
  else
    let bench := (interpreter.engine facilities nursery).resume event interpreter.bench
    ((interpreter.commit bench).withLastEvent event).refresh.publish

/-- Put the events sent before the start into the mailbox. -/
def recallDeferred (interpreter : Interpreter) : Interpreter :=
  let supervisor := interpreter.deferred.foldl (fun supervisor event =>
    supervisor.keep (.plain event)) interpreter.supervisor
  { interpreter with supervisor, deferred := [] }

/-- Start an interpreter that has not been started. -/
def start (facilities : Facilities) (nursery : Nursery) : Handling Unit := do
  let interpreter ← get
  if interpreter.status = .notStarted then
    let event := Event.init interpreter.settings.input
    let interpreter := { interpreter with status := .running }
    set interpreter
    if interpreter.restored then
      set (interpreter.resume facilities nursery event)
    else run facilities nursery event Engine.firstStep
    modify recallDeferred
    let _ ← flush facilities nursery
  else pure ()

/-- Send an event: a running interpreter deals with it and with all mail, one that has
not been started lets it wait if it is set to do so, and one that has ended drops it. -/
def send (facilities : Facilities) (nursery : Nursery) (event : Event) :
    Handling Unit := do
  let interpreter ← get
  match interpreter.status, interpreter.settings.preStart with
  | .notStarted, .defer =>
      set { interpreter with deferred := interpreter.deferred ++ [event] }
  | .notStarted, .drop => pure ()
  | .running, _ => do
      set (interpreter.onSupervisor fun supervisor => supervisor.keep (.plain event))
      let _ ← flush facilities nursery
  | .stopped, _ => pure ()
  | .done, _ => pure ()
  | .error, _ => pure ()

/-- What has come of looking at the mailbox once. -/
inductive Tick where
  /-- Mail was dealt with. -/
  | worked
  /-- The interpreter does not run. -/
  | idle
  /-- There is no mail. -/
  | pending
  deriving DecidableEq

/-- Look at the mailbox once: deal with all mail if there is some. -/
def tick (facilities : Facilities) (nursery : Nursery) : Handling Tick := do
  let interpreter ← get
  if interpreter.status = .running then
    match interpreter.nextEnvelope? with
    | none => return .pending
    | some (envelope, interpreter) => do
        set interpreter
        dispatch facilities nursery envelope
        let _ ← flush facilities nursery
        return .worked
  else
    let _ ← flush facilities nursery
    return .idle

end Interpreter

namespace Nursery

/-- No machine has child machines deeper than its generations, so this is never asked. -/
def closed : Nursery :=
  { start := throw (.stalled .mailbox)
    receive := fun _ => throw (.stalled .mailbox)
    wake := throw (.stalled .mailbox)
    stop := throw (.stalled .mailbox) }

/-- What is done with child machines that have this many levels of machines. -/
def ofGenerations (facilities : Facilities) : Nat → Nursery
  | 0 => closed
  | generations + 1 =>
      { start := Interpreter.start facilities (ofGenerations facilities generations)
        receive := Interpreter.send facilities (ofGenerations facilities generations)
        wake := do
          let _ ← Interpreter.flush facilities (ofGenerations facilities generations)
          return ()
        stop := Interpreter.stop facilities (ofGenerations facilities generations) }

end Nursery

end Statechart
