import Statechart.Checkpoint.Basic
import Statechart.Proofs.Changes
import Statechart.Proofs.ChildMachines

/-!
# Runs are courses

Whatever is done with a world, its interpreter goes through the course of its life: the
clock, the tasks and the handles do nothing to it but put mail into mailboxes and let it
deal with mail.
-/

namespace Statechart

namespace Interpreter

/-- A new interpreter of a machine, or one that is restored from a checkpoint. -/
def Begins (machine : Machine ActorLogic) (start : Interpreter) : Prop :=
  ∃ settings, start = create machine settings ∨
    ∃ checkpoint, restore machine checkpoint settings = .ok start

theorem Begins.of_create
    (machine : Machine ActorLogic) (settings : Settings) :
    Begins machine (create machine settings) :=
  ⟨settings, .inl rfl⟩

/-- New or restored, an interpreter begins without actors and mail, and unobserved. -/
theorem Begins.idle
    {machine : Machine ActorLogic} {start : Interpreter}
    (begins : Begins machine start) :
    start.machine = machine ∧ start.status = .notStarted ∧
      start.supervisor = Supervisor.idle none ∧ start.board = {} := by
  obtain ⟨settings, rfl | ⟨checkpoint, restored⟩⟩ := begins
  · exact ⟨rfl, rfl, rfl, rfl⟩
  · unfold restore at restored
    split at restored
    · cases restored
    · obtain rfl := Except.ok.inj restored
      exact ⟨rfl, rfl, rfl, rfl⟩

theorem Begins.fresh
    {machine : Machine ActorLogic} {start : Interpreter}
    (begins : Begins machine start) :
    start.Fresh := by
  obtain ⟨_, status, supervisor, _⟩ := begins.idle
  exact ⟨status, congrArg Supervisor.registry supervisor, congrArg Supervisor.inbox supervisor⟩

theorem Begins.quiet
    {machine : Machine ActorLogic} {start : Interpreter}
    (begins : Begins machine start) :
    start.supervisor.outbox = [] := by
  obtain ⟨_, _, supervisor, _⟩ := begins.idle
  rw [supervisor]
  rfl

theorem Asked.coursing
    {answer : Type} {operation : Facilities → Nursery → Handling answer}
    (asked : Asked operation)
    (facilities : Facilities) (nursery : Nursery) :
    Coursing facilities nursery (operation facilities nursery) := by
  cases asked with
  | start => exact start_coursing
  | send event => exact send_coursing event
  | flush => exact flush_coursing
  | tick => exact tick_coursing
  | stop => exact stop_coursing

end Interpreter

namespace World

/-- The interpreter of the right world comes from that of the left one in the course of its
life. -/
structure Passes (before after : World) : Prop where
  facilities : after.facilities = before.facilities
  course : Interpreter.Passes before.facilities before.nursery before.interpreter
    after.interpreter

section Passing

variable {world before middle after : World}

theorem Passes.refl (world : World) : world.Passes world :=
  ⟨rfl, .refl _⟩

theorem Passes.nursery
    (passes : before.Passes after) :
    after.nursery = before.nursery := by
  obtain ⟨dealings, course⟩ := passes.course
  unfold World.nursery
  rw [passes.facilities, course.lasts.machine]

theorem Passes.trans
    (earlier : before.Passes middle)
    (later : middle.Passes after) :
    before.Passes after := by
  refine ⟨later.facilities.trans earlier.facilities, earlier.course.trans ?_⟩
  have onward := later.course
  rwa [earlier.nursery, earlier.facilities] at onward

theorem passes_around
    (facilities : after.facilities = before.facilities)
    (interpreter : after.interpreter = before.interpreter) :
    before.Passes after :=
  ⟨facilities, interpreter ▸ .refl _⟩

theorem passes_interlude
    (facilities : after.facilities = before.facilities)
    (interlude : Interpreter.Interlude before.facilities before.nursery before.interpreter
      after.interpreter) :
    before.Passes after :=
  ⟨facilities, interlude.passes⟩

theorem attendAll_passes
    (world : World) (emissions : List Emission) :
    world.Passes (emissions.foldl attend world) := by
  induction emissions generalizing world with
  | nil => exact .refl world
  | cons emission emissions ih =>
      have attended : world.Passes (world.attend emission) :=
        passes_around (attend_facilities world emission) (attend_interpreter world emission)
      exact attended.trans (ih _)

theorem takeUp_passes
    {interpreter : Interpreter}
    (course : Interpreter.Passes world.facilities world.nursery world.interpreter interpreter) :
    world.Passes (world.takeUp interpreter) := by
  have drained : world.Passes { world with interpreter := interpreter.drained } :=
    ⟨rfl, course.trans (Interpreter.passes_drained interpreter)⟩
  exact drained.trans (attendAll_passes _ _)

theorem perform_advances
    {answer : Type} {operation : Facilities → Nursery → Handling answer}
    (asked : Interpreter.Asked operation) (world : World) :
    Interpreter.Advances world.facilities world.nursery world.interpreter
      (leftBy (operation world.facilities world.nursery) world.interpreter) :=
  (asked.coursing world.facilities world.nursery world.interpreter).leftBy

theorem perform_passes
    {answer : Type} {operation : Facilities → Nursery → Handling answer}
    (asked : Interpreter.Asked operation) (world : World) :
    world.Passes (world.perform operation).2 := by
  rw [perform_leaves]
  exact takeUp_passes (perform_advances asked world).passes

theorem Change.passes
    (change : Change before after) :
    before.Passes after := by
  rcases change_cases change with
    ⟨_, _, asked, rfl⟩ | ⟨envelope, path, _, accepted, rfl⟩ | ⟨board, _, rfl⟩ | around
  · exact perform_passes asked before
  · exact passes_interlude rfl (.accept envelope path accepted)
  · exact passes_interlude rfl (.watch before.interpreter board)
  · exact passes_around around.1 around.2.1

end Passing

section Beginning

variable {machine : Machine ActorLogic} {start : Interpreter} {world : World}

/-- However much happens to a new or restored interpreter, it lives, and so do all machines
below it. -/
theorem Becomes.lives
    (facilities : Facilities)
    (begins : Interpreter.Begins machine start)
    (becomes : (World.around facilities start).Becomes world) :
    world.facilities = facilities ∧ world.interpreter.machine = machine ∧
      Interpreter.Passes facilities (Nursery.ofGenerations facilities machine.generations) start
        world.interpreter ∧
      Interpreter.Reared facilities machine.generations world.interpreter := by
  obtain ⟨same, _⟩ := begins.idle
  have passes := fulfils_of_steps Passes.refl Passes.trans Change.passes becomes
  obtain ⟨dealings, course⟩ := passes.course
  have onward : Interpreter.Passes facilities
      (Nursery.ofGenerations facilities machine.generations) start world.interpreter :=
    same ▸ passes.course
  have reared : Interpreter.Reared facilities machine.generations start := .of_fresh begins.fresh
  exact ⟨passes.facilities, course.lasts.machine.trans same, onward,
    reared.course (Interpreter.Reared.raises facilities machine.generations) onward⟩

theorem Becomes.onward
    {facilities : Facilities} {first second : World}
    (begins : Interpreter.Begins machine start)
    (earlier : (World.around facilities start).Becomes first)
    (later : first.Becomes second) :
    Interpreter.Passes facilities (Nursery.ofGenerations facilities machine.generations)
      first.interpreter second.interpreter := by
  obtain ⟨same, sameMachine, _⟩ := earlier.lives facilities begins
  have passes := (fulfils_of_steps Passes.refl Passes.trans Change.passes later).course
  unfold World.nursery at passes
  rwa [same, sameMachine] at passes

/-- What is done with a world later on is part of the life of its interpreter. -/
theorem run_course
    (facilities : Facilities) (begins : Interpreter.Begins machine start)
    (before after : List Operation)
    (begun : world = (World.around facilities start).run before) :
    Interpreter.Passes facilities (Nursery.ofGenerations facilities machine.generations)
      world.interpreter (world.run after).interpreter := by
  have earlier := becomes_run before (World.around facilities start)
  rw [← begun] at earlier
  exact earlier.onward begins (becomes_run after world)

/-- Whatever is done with the world around a new or restored interpreter, the interpreter and
all machines below it go through the course of their lives. -/
theorem run_reared
    (facilities : Facilities) (begins : Interpreter.Begins machine start)
    (operations : List Operation) :
    Interpreter.Reared facilities machine.generations
      ((World.around facilities start).run operations).interpreter := by
  obtain ⟨_, _, _, reared⟩ :=
    (becomes_run operations (World.around facilities start)).lives facilities begins
  exact reared

end Beginning

end World

end Statechart
