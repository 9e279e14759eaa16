import Statechart.Proofs.BetweenSteps
import Statechart.Proofs.FaithfulCheckpoints

/-!
# Restored interpreters

What is checkpointed of a running interpreter whose machine acts alone, and that has no mail
left, is all that it rests in.  An interpreter restored from there starts without carrying out
any action, and is a twin of the first from then on: whatever is asked of the two, one request
after another, they answer alike.
-/

namespace Statechart

/-- What is asked of an interpreter that has been started. -/
inductive Request where
  | send (event : Event)
  | stop
  deriving DecidableEq

def Request.operation : Request → Facilities → Nursery → Handling Unit
  | .send event => fun facilities nursery => Interpreter.send facilities nursery event
  | .stop => Interpreter.stop

/-- What comes of a request: how it ended, what is shown after it but for the last event, and
the deeds that were told of meanwhile. -/
structure Answer where
  result : Except Failure Unit
  shown : Snapshot
  deeds : List Activity

namespace Interpreter

theorem Abreast.drained
    {left right : Interpreter}
    (abreast : left.Abreast right) :
    left.drained.Abreast right.drained := by
  cases abreast with
  | running twins =>
      obtain ⟨leftAlone, rightAlone, inbox, _⟩ := twins.supervisor
      exact .running
        { twins with
          supervisor :=
            { leftAlone := leftAlone.withMail _ _
              rightAlone := rightAlone.withMail _ _
              inbox
              deeds := rfl } }
  | ended terminal same =>
      exact .ended terminal ⟨same.machine, same.status, same.shown, rfl⟩

section Starting

variable {facilities : Facilities} {nursery : Nursery} {interpreter : Interpreter}

theorem flush_idle
    (running : interpreter.status = .running)
    (idle : interpreter.supervisor.inbox = []) :
    (flush facilities nursery).run interpreter = .ok 0 interpreter := by
  have none : interpreter.nextEnvelope? = none := by
    unfold nextEnvelope?
    rw [idle]
  unfold flush
  rw [run_get_bind, if_neg (by rw [running]; decide)]
  cases facilities.patience <;>
  · rw [drain, run_get_bind, if_neg (by rw [running]; decide), none]
    rfl

/-- A restored interpreter that acts alone takes up its state as it is: it carries out no action,
and nothing comes out of it. -/
theorem start_restored
    (solitary : interpreter.machine.Solitary)
    (unstarted : interpreter.status = .notStarted)
    (restored : interpreter.restored = true)
    (undone : interpreter.state.done = false)
    (undeferred : interpreter.deferred = [])
    (unobserved : interpreter.board = {})
    (idle : interpreter.supervisor = Supervisor.idle none) :
    (start facilities nursery).run interpreter =
      .ok () (({ interpreter with status := .running } : Interpreter).withLastEvent
        (Event.init interpreter.settings.input)).refresh := by
  obtain ⟨machine, settings, status, state, snapshot, supervisor, deferred, board, restored⟩ :=
    interpreter
  cases unstarted
  cases restored
  cases undeferred
  cases unobserved
  cases idle
  let copy : Interpreter :=
    { machine, settings, status := .running, state, snapshot, supervisor := Supervisor.idle none
      deferred := [], board := {}, restored := true }
  have resumed : copy.resume facilities nursery (Event.init settings.input) =
      (copy.withLastEvent (Event.init settings.input)).refresh := by
    unfold resume
    rw [if_neg (Bool.eq_false_iff.mp undone), Engine.resume_eq _ solitary]
    rfl
  have begun : (start facilities nursery).run { copy with status := .notStarted } =
      (flush facilities nursery >>= fun _ => pure ()).run
        (copy.resume facilities nursery (Event.init settings.input)).recallDeferred := rfl
  have flushed : (flush facilities nursery).run
      (copy.withLastEvent (Event.init settings.input)).refresh = .ok 0 _ :=
    flush_idle rfl rfl
  rw [resumed] at begun
  exact begun.trans (run_bind_of_ok flushed _)

end Starting

end Interpreter

namespace World

/-- The deeds of the interpreter that have been seen. -/
def deeds (world : World) : List Activity :=
  world.seen.filter Activity.isDeed

def ask (world : World) (request : Request) : Answer × World :=
  let (result, after) := world.perform request.operation
  ({ result
     shown := after.interpreter.snapshot.undated
     deeds := after.deeds.drop world.deeds.length }, after)

/-- The answers to several requests, one after another. -/
def askAll : List Request → World → List Answer
  | [], _ => []
  | request :: requests, world =>
      let (answer, after) := world.ask request
      answer :: askAll requests after

/-- Both interpreters are abreast, and the surroundings offer the same. -/
structure Abreast (left right : World) : Prop where
  facilities : left.facilities = right.facilities
  interpreters : left.interpreter.Abreast right.interpreter

theorem deeds_takeUp
    (world : World) (interpreter : Interpreter) :
    (world.takeUp interpreter).deeds = world.deeds ++ interpreter.supervisor.deeds := by
  have seen : (world.takeUp interpreter).seen =
      world.seen ++ interpreter.supervisor.outbox.filterMap Emission.seen? :=
    attendAll_seen { world with interpreter := interpreter.drained } _
  unfold deeds
  rw [seen, List.filter_append]
  rfl

section Asking

variable {left right : World}

theorem answer_takeUp
    {leftAfter rightAfter : Interpreter}
    (interpreters : leftAfter.Abreast rightAfter)
    (result : Except Failure Unit) :
    ({ result
       shown := (left.takeUp leftAfter).interpreter.snapshot.undated
       deeds := (left.takeUp leftAfter).deeds.drop left.deeds.length } : Answer) =
      { result
        shown := (right.takeUp rightAfter).interpreter.snapshot.undated
        deeds := (right.takeUp rightAfter).deeds.drop right.deeds.length } := by
  obtain ⟨_, _, shown, deeds⟩ := interpreters.matches
  rw [takeUp_interpreter, takeUp_interpreter, deeds_takeUp, deeds_takeUp, List.drop_left,
    List.drop_left, deeds]
  exact congrArg (Answer.mk result · _) shown

variable (abreast : left.Abreast right)

include abreast

theorem Abreast.takeUp
    {leftAfter rightAfter : Interpreter}
    (interpreters : leftAfter.Abreast rightAfter) :
    (left.takeUp leftAfter).Abreast (right.takeUp rightAfter) where
  facilities := by
    have leftKept : (left.takeUp leftAfter).facilities = left.facilities :=
      (attendAll_passes { left with interpreter := leftAfter.drained } _).facilities
    have rightKept : (right.takeUp rightAfter).facilities = right.facilities :=
      (attendAll_passes { right with interpreter := rightAfter.drained } _).facilities
    rw [leftKept, rightKept, abreast.facilities]
  interpreters := by
    rw [takeUp_interpreter, takeUp_interpreter]
    exact interpreters.drained

theorem Abreast.nursery :
    left.nursery = right.nursery := by
  unfold World.nursery
  rw [abreast.facilities, abreast.interpreters.matches.machine]

theorem Abreast.ask
    (request : Request) :
    (left.ask request).1 = (right.ask request).1 ∧
      (left.ask request).2.Abreast (right.ask request).2 := by
  have agree : Interpreter.Agree (request.operation right.facilities right.nursery)
      left.interpreter right.interpreter := by
    cases request with
    | send event => exact abreast.interpreters.send event
    | stop => exact abreast.interpreters.stop
  unfold World.ask perform
  rw [abreast.facilities, abreast.nursery]
  cases agree with
  | @well _ leftAfter rightAfter leftRan rightRan stillAbreast =>
      rw [leftRan, rightRan]
      exact ⟨answer_takeUp stillAbreast _, abreast.takeUp stillAbreast⟩
  | @ill _ leftAfter rightAfter leftRan rightRan stillAbreast =>
      rw [leftRan, rightRan]
      exact ⟨answer_takeUp stillAbreast _, abreast.takeUp stillAbreast⟩

theorem Abreast.askAll
    (requests : List Request) :
    askAll requests left = askAll requests right := by
  induction requests generalizing left right with
  | nil => rfl
  | cons request requests ih =>
      obtain ⟨answer, onward⟩ := abreast.ask request
      exact congrArg₂ List.cons answer (ih onward)

end Asking

end World

namespace Interpreter

theorem restore_captured
    {machine : Machine ActorLogic} {original : Interpreter} {id : Uuid} {createdAt : Timestamp}
    {settings : Settings}
    (composed : original.Composed machine)
    (running : original.status = .running)
    (faithful : (Checkpoint.capture machine.chart original.snapshot id createdAt).resolve
      machine.chart = .ok (original.snapshot.active, original.snapshot.history)) :
    restore machine (Checkpoint.capture machine.chart original.snapshot id createdAt) settings =
      .ok (restoredTo machine settings original.state) := by
  have undone : (Checkpoint.capture machine.chart original.snapshot id createdAt).status ≠
      .done := by
    change original.snapshot.status ≠ .done
    rw [(composed.shows running).2]
    exact fun done => by cases done
  unfold restore restoredTo
  rw [faithful, composed.state_eq running]
  dsimp only
  rw [decide_eq_false undone]
  rfl

/-- A running interpreter whose machine acts alone is checkpointed when its mail has been dealt
with.  If the checkpoint resolves to what was shown, what is restored from it has the same
state, starts without carrying out any action, and from then on it answers whatever requests
are made as the first interpreter does, with the same observers or with any that send nothing
where those of the first send nothing. -/
theorem restored_answers_alike
    {machine : Machine ActorLogic} {start : Interpreter} {world : World}
    {checkpoint : Checkpoint}
    (solitary : machine.Solitary)
    (begins : Begins machine start)
    (facilities : Facilities) (operations : List Operation)
    (ran : (World.around facilities start).run operations = world)
    (running : world.interpreter.status = .running)
    (idle : world.interpreter.supervisor.inbox = [])
    (id : Uuid) (createdAt : Timestamp)
    (captured : Checkpoint.capture machine.chart world.interpreter.snapshot id createdAt =
      checkpoint)
    (faithful : checkpoint.resolve machine.chart =
      .ok (world.interpreter.snapshot.active, world.interpreter.snapshot.history))
    (settings : Settings)
    (limit : settings.maxMicrosteps = world.interpreter.settings.maxMicrosteps) :
    ∃ copy, restore machine checkpoint settings = .ok copy ∧
      copy.state = world.interpreter.state ∧
      let started : Interpreter :=
        { copy with
          status := .running
          snapshot :=
            { world.interpreter.snapshot with
              lastEvent := some (Event.init settings.input) } }
      (World.around facilities copy).perform Interpreter.start =
          (.ok (), { World.around facilities copy with interpreter := started }) ∧
        ∀ board : Board, board.Echoes world.interpreter.board → ∀ requests : List Request,
          World.askAll requests
              { World.around facilities copy with interpreter := { started with board } } =
            World.askAll requests world := by
  have becomes : (World.around facilities start).Becomes world := by
    rw [← ran]
    exact World.becomes_run operations _
  have composed : world.interpreter.Composed machine :=
    becomes.composed solitary begins.composed
  obtain ⟨undone, shown⟩ := composed.shows running
  rw [← captured] at faithful ⊢
  refine ⟨_, restore_captured composed running faithful, rfl, ?_, ?_⟩
  · let copy := restoredTo machine settings world.interpreter.state
    have begun : (Interpreter.start facilities (World.around facilities copy).nursery).run copy =
        .ok () _ :=
      start_restored solitary rfl rfl undone rfl rfl rfl
    have performed : (World.around facilities copy).perform Interpreter.start =
        (.ok (), (World.around facilities copy).takeUp _) :=
      World.perform_of_run begun
    rw [shown]
    exact performed
  · intro board echoes requests
    refine World.Abreast.askAll ⟨(becomes.lives facilities begins).1.symm, .running ?_⟩ requests
    have deeds : world.interpreter.supervisor.deeds = [] := by
      unfold Supervisor.deeds
      rw [(becomes.follows begins.quiet).quiet]
      rfl
    exact
      { machine := composed.runs.symm
        solitary := composed.runs ▸ solitary
        limit := limit
        leftRuns := rfl
        rightRuns := running
        state := rfl
        shown := rfl
        supervisor :=
          { leftAlone := ⟨rfl, rfl⟩
            rightAlone := composed.alone
            inbox := idle.symm
            deeds := deeds.symm }
        board := echoes }

end Interpreter

open Interpreter in
/-- The shelf is left for the table, and is returned to from a checkpoint as it would have been
without. -/
theorem MachineSpec.restored_answers_alike_bookshelf :
    let machine : Machine ActorLogic := bookshelf.machine fun _ => .null
    let facilities : Facilities := ⟨false, true, 1000⟩
    let world := (World.around facilities (create machine {})).run
      [.start, .send (Event.named "NEXT"), .send (Event.named "LEAVE")]
    let checkpoint := Checkpoint.capture machine.chart world.interpreter.snapshot ⟨1⟩ ⟨0, 0⟩
    bookshelf.build = .ok machine ∧
      ∃ copy, restore machine checkpoint {} = .ok copy ∧
        ((World.around facilities copy).perform Interpreter.start).2.interpreter.snapshot.active =
          [0, 5] ∧
        ∀ requests, World.askAll requests
            ((World.around facilities copy).perform Interpreter.start).2 =
          World.askAll requests world := by
  intro machine facilities world checkpoint
  have solitary : machine.Solitary := by decide +kernel
  have unobserved : world.interpreter.board.observers.isEmpty = true := by decide +kernel
  have heedless : world.interpreter.board.Heedless := by
    intro observer member
    rw [List.isEmpty_iff.mp unobserved] at member
    cases member
  obtain ⟨copy, restored, _, begun, alike⟩ := restored_answers_alike solitary
    ⟨{}, .inl rfl⟩ facilities _ (Eq.refl world) (by decide +kernel) (by decide +kernel)
    ⟨1⟩ ⟨0, 0⟩ rfl (by decide +kernel) {} (by decide +kernel)
  refine ⟨build_of_faultless (by decide +kernel) rfl, copy, restored, ?_, fun requests => ?_⟩
  · rw [begun]
    have active : world.interpreter.snapshot.active = [0, 5] := by decide +kernel
    exact active
  · obtain ⟨_, _, _, board⟩ := Begins.idle ⟨{}, .inr ⟨checkpoint, restored⟩⟩
    rw [begun]
    refine alike copy.board (.inr ⟨?_, heedless⟩) requests
    rw [board]
    exact Board.heedless_empty

end Statechart
