import Statechart.Simulation.Tasks

/-!
# Worlds

A world is an interpreter with its surroundings: the clock, the tasks, and what has been
seen so far.  Whatever comes out of the interpreter is attended to as soon as an operation
on it is over; nothing of it can come back before.

The interpreter is driven from outside, or it is a task of its own that deals with its
mail whenever there is some.
-/

namespace Statechart

/-- Who drives the interpreter. -/
inductive Stage where
  /-- Whoever holds it. -/
  | driven
  /-- A task that has its turn to come for the first time. -/
  | launched
  /-- A task that has its turn to come. -/
  | queued
  /-- A task that waits for mail. -/
  | waiting
  /-- The task has ended with the last snapshot or a failure. -/
  | ended (result : Except Failure Snapshot)
  /-- The task was told to end before its next turn. -/
  | aborting
  /-- The task ended because it was told to. -/
  | aborted

namespace Stage

def isOver : Stage → Bool
  | .ended _ => true
  | .aborted => true
  | _ => false

end Stage

/-- Something that was seen of the interpreter at a path of child machines. -/
structure Sighting where
  path : List Origin
  activity : Activity
  deriving DecidableEq

/-- An interpreter and its surroundings. -/
structure World where
  facilities : Facilities
  interpreter : Interpreter
  /-- Interpreters that were replaced, the first one first. -/
  retired : List Interpreter := []
  stage : Stage := .driven
  /-- What the handle of the interpreter's task shows. -/
  shown : Snapshot
  clock : Clock Posting := {}
  tasks : Tasks := {}
  log : List Sighting := []

namespace World

def around (facilities : Facilities) (interpreter : Interpreter) : World :=
  { facilities, interpreter, shown := interpreter.snapshot }

def nursery (world : World) : Nursery :=
  Nursery.ofGenerations world.facilities world.interpreter.machine.generations

/-- Note what was seen; a snapshot for the handle is shown there instead. -/
def observe (world : World) (path : List Origin) : Activity → World
  | .published .handle snapshot => { world with shown := snapshot }
  | activity => { world with log := world.log ++ [{ path, activity }] }

/-- Take up an errand.  Without a clock and without tasks there are no delays. -/
def commission (world : World) (path : List Origin) (holder : Option Origin) :
    Errand → World
  | .alarm delay envelope =>
      if world.facilities.simulated then
        { world with
          clock := world.clock.schedule delay (.report { path, holder, envelope }) }
      else if world.facilities.runtime then
        let task : Task := { path, holder, steps := [(some delay, envelope)] }
        { world with tasks := world.tasks.enqueue (.task task false) }
      else world
  | .script steps =>
      { world with tasks := world.tasks.enqueue (.task { path, holder, steps } false) }

/-- Attend to something that came out of the interpreter. -/
def attend (world : World) : Emission → World
  | .activity path activity => world.observe path activity
  | .upward _ => world
  | .commission path holder errand => world.commission path holder errand
  | .revoke path holder =>
      { world with
        clock := world.clock.cancelWhere fun posting => posting.isHeldBy path holder
        tasks := world.tasks.revoke path holder }

/-- Take up the interpreter after an operation, and attend to what came out of it. -/
def takeUp (world : World) (interpreter : Interpreter) : World :=
  interpreter.supervisor.outbox.foldl attend
    { world with interpreter := interpreter.drained }

def perform {α : Type} (world : World) (operation : Facilities → Nursery → Handling α) :
    Except Failure α × World :=
  match (operation world.facilities world.nursery).run world.interpreter with
  | .ok answer interpreter => (.ok answer, world.takeUp interpreter)
  | .error failure interpreter => (.error failure, world.takeUp interpreter)

/-- Give the interpreter's task a turn if it waits for mail. -/
def rouse (world : World) : World :=
  match world.stage with
  | .waiting =>
      { world with stage := .queued, tasks := world.tasks.enqueue .interpreter }
  | _ => world

/-- Deliver a posting; it is lost if its addressee is gone. -/
def deliver (world : World) (posting : Posting) : World :=
  if world.stage.isOver then world
  else
    match Interpreter.accept? posting.envelope posting.path world.interpreter with
    | some interpreter => { world with interpreter }.rouse
    | none => world

/-- Put an envelope into the mailbox from outside; does anyone read it? -/
def post (world : World) (envelope : Envelope) : Bool × World :=
  if world.stage.isOver then (false, world)
  else (true, world.deliver { path := [], holder := none, envelope })

/-- Move the simulated clock; what is due is delivered, and nothing else happens. -/
def advance (world : World) (span : Duration) : World :=
  let (fired, clock) := world.clock.advance span
  fired.foldl (fun world entry => world.deliver entry.2) { world with clock }

/-- Let the interpreter deal with its mail for as long as there is some, and note how its
task goes on. -/
def serveMail : Nat → World → World
  | 0, world => { world with stage := .ended (.error (.stalled .mailbox)) }
  | patience + 1, world =>
      if world.interpreter.status.isTerminal then
        { world with stage := .ended (.ok world.interpreter.snapshot) }
      else
        match world.perform Interpreter.tick with
        | (.error failure, world) => { world with stage := .ended (.error failure) }
        | (.ok .idle, world) =>
            { world with stage := .ended (.ok world.interpreter.snapshot) }
        | (.ok .pending, world) => { world with stage := .waiting }
        | (.ok .worked, world) => serveMail patience world

def withHandle (world : World) : World :=
  let board := world.interpreter.board.subscribe .handle fun _ => []
  { world with interpreter := { world.interpreter with board } }

def takeTurn (world : World) : World :=
  match world.stage with
  | .launched =>
      match world.withHandle.perform Interpreter.start with
      | (.error failure, world) => { world with stage := .ended (.error failure) }
      | (.ok _, world) => world.serveMail world.facilities.patience
  | .queued => world.serveMail world.facilities.patience
  | .aborting => { world with stage := .aborted }
  | _ => world

/-- Let the first that is ready have its turn. -/
def runFirst? (world : World) : Option World :=
  match world.tasks.ready with
  | [] => none
  | turn :: ready =>
      let world := { world with tasks := { world.tasks with ready } }
      match turn with
      | .task task resumed =>
          let (postings, tasks) := world.tasks.proceed task task.steps resumed
          some (postings.foldl deliver { world with tasks })
      | .interpreter => some world.takeTurn

/-- Let all that is ready run, and what becomes ready meanwhile. -/
def runReadyWithin : Nat → World → World
  | 0, world => world
  | patience + 1, world =>
      match world.runFirst? with
      | none => world
      | some world => runReadyWithin patience world

/-- Let all that is ready run, and what becomes ready meanwhile. -/
def runReady (world : World) : World :=
  world.runReadyWithin world.facilities.patience

def passTo (world : World) (target : Duration) : World :=
  { world with tasks := world.tasks.passTo target }

/-- Let time pass until `target`, and let run what becomes ready, each at its time. -/
def sleepUntilWithin (target : Duration) : Nat → World → World
  | 0, world => world
  | patience + 1, world =>
      let world := world.runReady
      match world.tasks.nextEnd? with
      | some next =>
          if next.nanos ≤ target.nanos then
            sleepUntilWithin target patience (world.passTo next)
          else world.passTo target
      | none => world.passTo target

/-- The time after a span that begins now, at a whole millisecond. -/
def after (world : World) (span : Duration) : Duration :=
  world.tasks.pauseEnd span

/-- Let time pass, and let run what becomes ready. -/
def sleep (world : World) (span : Duration) : World :=
  (sleepUntilWithin (world.after span) world.facilities.patience world).runReady

/-- Let run what is ready and deal with the mail, until there is none; answers with the
failure that put an end to this, if one did. -/
def settleWithin : Nat → World → Option Failure × World
  | 0, world => (some (.stalled .mailbox), world)
  | patience + 1, world =>
      match world.runReady.perform Interpreter.flush with
      | (.error failure, world) => (some failure, world)
      | (.ok handled, world) =>
          if handled = 0 then (none, world) else settleWithin patience world

/-- Let run what is ready and deal with the mail, until there is none. -/
def settle (world : World) : Option Failure × World :=
  settleWithin world.facilities.patience world

/-- Wait until `look` finds an answer.  While it finds none, all that is ready runs; when
nothing is ready, time passes to the next end of a pause; at `limit` the wait is given
up. -/
def awaitWithin {α : Type} (look : World → Option α × World) (limit : Duration) :
    Nat → World → Option α × World
  | 0, world => (none, world)
  | patience + 1, world =>
      match look world with
      | (some answer, world) => (some answer, world)
      | (none, world) =>
          if !world.tasks.ready.isEmpty then
            awaitWithin look limit patience world.runReady
          else
            match world.tasks.nextEnd? with
            | some next =>
                if next.nanos < limit.nanos then
                  awaitWithin look limit patience (world.passTo next).runReady
                else (none, world.passTo limit)
            | none => (none, world.passTo limit)

/-- Wait until `look` finds an answer, for `span` at most. -/
def await {α : Type} (world : World) (span : Duration) (look : World → Option α × World) :
    Option α × World :=
  awaitWithin look (world.after span) world.facilities.patience world

/-- Does a path lead into the value that the interpreter shows? -/
def hasPath (world : World) (path : String) : Bool :=
  world.interpreter.snapshot.hasPath world.interpreter.machine.chart path

/-- Deal with mail until a path leads into the value or the interpreter no longer runs;
no answer if there is no mail before that. -/
def lookFor (path : String) : Nat → World → Option (Except Failure Bool) × World
  | 0, world => (some (.error (.stalled .mailbox)), world)
  | patience + 1, world =>
      if world.hasPath path then (some (.ok true), world)
      else
        match world.perform Interpreter.tick with
        | (.error failure, world) => (some (.error failure), world)
        | (.ok .idle, world) => (some (.ok (world.hasPath path)), world)
        | (.ok .pending, world) => (none, world)
        | (.ok .worked, world) => lookFor path patience world

/-- Wait until a path leads into the value of the interpreter; answers whether it does,
or nothing if the wait is given up. -/
def waitFor (world : World) (span : Duration) (path : String) :
    Option (Except Failure Bool) × World :=
  world.await span (lookFor path world.facilities.patience)

/-- Make the interpreter a task of its own. -/
def launch (world : World) : World :=
  { world with
    stage := .launched
    shown := world.interpreter.snapshot
    tasks := world.tasks.enqueue .interpreter }

def abort (world : World) : World :=
  match world.stage with
  | .launched => { world with stage := .aborting }
  | .queued => { world with stage := .aborting }
  | .waiting =>
      { world with stage := .aborting, tasks := world.tasks.enqueue .interpreter }
  | _ => world

/-- Does a path lead into the value that the handle shows?  No answer while it does not
and the task goes on. -/
def lookShown (path : String) (world : World) : Option (Option Snapshot) × World :=
  if world.shown.hasPath world.interpreter.machine.chart path then
    (some (some world.shown), world)
  else if world.stage.isOver then (some none, world)
  else (none, world)

/-- Wait until a path leads into the value that the handle shows; answers with what is
shown, or with nothing shown if the task ends before. -/
def waitForShown (world : World) (span : Duration) (path : String) :
    Option (Option Snapshot) × World :=
  world.await span (lookShown path)

/-- How the interpreter's task ended. -/
inductive Ending where
  | finished (snapshot : Snapshot)
  | failed (failure : Failure)
  | aborted

def Ending.message? : Ending → Option String
  | .finished _ => none
  | .failed failure => some ("Interpreter error: " ++ failure.message)
  | .aborted => none

/-- How the interpreter's task ended, if it has. -/
def ending (world : World) : Option Ending × World :=
  match world.stage with
  | .ended (.ok snapshot) => (some (.finished snapshot), world)
  | .ended (.error failure) => (some (.failed failure), world)
  | .aborted => (some .aborted, world)
  | _ => (none, world)

def join (world : World) (span : Duration) : Option Ending × World :=
  world.await span ending

/-- Put another interpreter in the place of this one, which is dropped as it is: its
timers and tasks have nobody left to post to. -/
def replace (world : World) (interpreter : Interpreter) : World :=
  { world with
    interpreter
    retired := world.retired ++ [world.interpreter]
    clock := {}
    tasks := { ready := [], pauses := { world.tasks.pauses with pending := [] } } }

end World

end Statechart
