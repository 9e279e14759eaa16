import Statechart.Proofs.FreshIds
import Statechart.Proofs.RemovedActors

/-!
# Whom a handle addresses

A handle is of one actor, but what is sent through it bears the id of this actor only, and
whoever bears the id when the mail is read gets the event.  That is another actor exactly if
the id has been used again meanwhile, which happens to no id that is made up, but may happen
to every id that the machine declares.
-/

namespace Statechart

namespace Registry

variable {ι : Type} {registry first second : Registry ι} {origin other : Origin}

/-- Nobody but the actor of this origin bears its id. -/
def KeepsFor (registry : Registry ι) (origin : Origin) : Prop :=
  ∀ other, registry.origin? origin.id = some other → other = origin

theorem Ages.successor
    (ages : first.Ages second)
    (accepted : first.accepts origin = true)
    (found : second.origin? origin.id = some other)
    (different : other ≠ origin) :
    first.nextSerial ≤ other.serial ∧ second.HasClosed origin := by
  obtain ⟨same, runs⟩ := origin?_eq_some found
  constructor
  · by_contra old
    have ran := ages.newcomer other runs (not_le.mp old)
    exact different (eq_of_accepts ran accepted same)
  · rcases ages.leaves origin accepted with goesOn | closed
    · exact absurd (eq_of_accepts runs goesOn same) different
    · exact closed

theorem Ages.keepsFor_iff
    (ages : first.Ages second)
    (balanced : first.Balanced)
    (accepted : first.accepts origin = true) :
    second.KeepsFor origin ↔
      ∀ other, second.origin? origin.id = some other → other.serial < first.nextSerial := by
  constructor
  · intro keeps other found
    rw [keeps other found]
    exact balanced.serial_lt (serial_mem_of_accepts accepted)
  · intro old other found
    by_contra different
    exact absurd (ages.successor accepted found different).1 (not_le.mpr (old other found))

end Registry

namespace Machine

variable {machine : Machine ActorLogic} {first second : Registry Interpreter}
variable {origin : Origin}

/-- An id that the machine does not declare has been made up, and is not made up again. -/
theorem Staffed.keepsFor
    (staffed : machine.Staffed first)
    (shifts : machine.Shifts first second)
    (accepted : first.accepts origin = true)
    (undeclared : origin.id ∉ machine.declaredIds) :
    second.KeepsFor origin := by
  intro other found
  by_contra different
  obtain ⟨young, _⟩ := shifts.ages.successor accepted found different
  obtain ⟨actor, bears, _⟩ := Registry.accepts_iff.mp accepted
  obtain ⟨successor, inherits, rfl⟩ := Option.map_eq_some_iff.mp found
  have former := (Shifts.lists Registry.balanced_empty staffed).listed _
    (Table.mem_of_get? bears) (Nat.zero_le _)
  have latter := (shifts.lists staffed.balanced).listed _ (Table.mem_of_get? inherits) young
  obtain ⟨stem, count, _, counted, named⟩ := former.resolve_left undeclared
  obtain ⟨_, number, recent, _, renamed⟩ := latter.resolve_left undeclared
  obtain ⟨_, rfl⟩ := Registry.madeUp_inj.mp (named.symm.trans renamed)
  omega

theorem exists_successor
    (balanced : first.Balanced)
    (accepted : first.accepts origin = true)
    (declared : origin.id ∈ machine.declaredIds) :
    ∃ second, machine.Shift first second ∧ ¬ second.KeepsFor origin := by
  obtain ⟨owner, depth, process, shift⟩ := exists_bearer declared first
  refine ⟨_, shift, fun keeps => ?_⟩
  have inherits : (first.staffed origin.id owner depth process).origin? origin.id =
      some ⟨origin.id, first.nextSerial⟩ := by
    unfold Registry.origin?
    rw [Registry.actor?_staffed, if_pos rfl]
    rfl
  have old := balanced.serial_lt (Registry.serial_mem_of_accepts accepted)
  exact absurd (congrArg Origin.serial (keeps _ inherits)) old.ne'

/-- In all that can come of what the machine has started an id is kept for whoever bears it
exactly if the machine does not declare it. -/
theorem keepsFor_iff_undeclared
    (id : String) :
    (∀ first second serial, machine.Staffed first → first.accepts ⟨id, serial⟩ = true →
      machine.Shifts first second → second.KeepsFor ⟨id, serial⟩) ↔
        id ∉ machine.declaredIds := by
  constructor
  · intro keeps declared
    obtain ⟨owner, depth, process, shift⟩ := exists_bearer declared Registry.empty
    have staffed : machine.Staffed _ := .single shift
    have accepted : (Registry.staffed (Registry.empty : Registry Interpreter) id owner depth
        process).accepts ⟨id, 0⟩ = true := by
      rw [Registry.accepts_iff, Registry.actor?_staffed, if_pos rfl]
      exact ⟨_, rfl, rfl⟩
    obtain ⟨second, next, lost⟩ := exists_successor staffed.balanced accepted declared
    exact lost (keeps _ second 0 staffed accepted (.single next))
  · intro undeclared first second serial staffed accepted shifts
    exact staffed.keepsFor shifts accepted undeclared

end Machine

namespace Interpreter

section Giving

variable (facilities : Facilities) (nursery : Nursery)

/-- Give an event to the actor of an origin; it is dropped if the actor no longer runs. -/
def giveTo (origin : Origin) (event : Event) : Handling Unit := do
  if (← get).supervisor.registry.accepts origin then
    forward facilities nursery origin.id event
  else pure ()

variable {interpreter : Interpreter} {id : String} {origin : Origin}

theorem forward_run_of_vacant
    (vacant : interpreter.supervisor.registry.origin? id = none) (event : Event) :
    (forward facilities nursery id event).run interpreter = .ok () interpreter := by
  have nobody : interpreter.supervisor.registry.actor? id = none :=
    Option.map_eq_none_iff.mp vacant
  have dropped : interpreter.supervisor.deliver nursery id event =
      (none, interpreter.supervisor) := by
    unfold Supervisor.deliver
    rw [nobody]
  rw [forward_run, receiveForward, dropped]
  cases interpreter
  rfl

theorem giveTo_run
    (origin : Origin) (event : Event) :
    (giveTo facilities nursery origin event).run interpreter =
      if interpreter.supervisor.registry.accepts origin then
        (forward facilities nursery origin.id event).run interpreter
      else .ok () interpreter := by
  unfold giveTo
  rw [run_get_bind]
  split <;> rfl

theorem dispatch_run_of_borne
    (found : interpreter.supervisor.registry.origin? id = some origin) (event : Event) :
    (dispatch facilities nursery (.forward id event)).run interpreter =
      (giveTo facilities nursery origin event).run interpreter := by
  obtain ⟨rfl, accepted⟩ := Registry.origin?_eq_some found
  rw [giveTo_run, if_pos accepted]
  rfl

theorem dispatch_run_of_keepsFor
    (keeps : interpreter.supervisor.registry.KeepsFor origin) (event : Event) :
    (dispatch facilities nursery (.forward origin.id event)).run interpreter =
      (giveTo facilities nursery origin event).run interpreter := by
  cases found : interpreter.supervisor.registry.origin? origin.id with
  | some other =>
      rw [dispatch_run_of_borne facilities nursery found, keeps other found]
  | none =>
      have gone : ¬ interpreter.supervisor.registry.accepts origin = true := by
        intro accepted
        rw [Registry.origin?_of_accepts accepted] at found
        cases found
      rw [giveTo_run, if_neg gone]
      exact forward_run_of_vacant facilities nursery found event

end Giving

section Coursing

variable {facilities : Facilities} {nursery : Nursery} {start after : Interpreter}
variable {dealings : List Dealing}

theorem Course.shifts_to
    {dealing : Dealing}
    (course : Course facilities nursery start dealings after)
    (member : dealing ∈ dealings) :
    start.machine.Shifts start.supervisor.registry dealing.interpreter.supervisor.registry := by
  obtain ⟨earlier, later, rfl⟩ := List.append_of_mem member
  obtain ⟨before, walked, _, found, _⟩ := course.split
  rw [(nextEnvelope?_eq found).2]
  exact walked.restaffs.shifts

end Coursing

end Interpreter

namespace World

variable {world : World} {id : String} {ref : ActorRef}

theorem reference?_eq_some
    (found : world.reference? id = some ref) :
    ref.origin.id = id ∧ ref.incarnation = world.incarnation ∧
      world.interpreter.supervisor.registry.accepts ref.origin = true := by
  obtain ⟨actor, bears, rfl⟩ := Option.map_eq_some_iff.mp found
  exact ⟨rfl, rfl, Registry.accepts_iff.mpr ⟨actor, bears, rfl⟩⟩

theorem rouse_interpreter
    (world : World) :
    world.rouse.interpreter = world.interpreter := by
  unfold rouse
  split <;> rfl

theorem sendTo_interpreter
    (world : World) (ref : ActorRef) (event : Event) :
    (world.sendTo ref event).2.interpreter =
      if (world.sendTo ref event).1 then
        world.interpreter.onSupervisor fun supervisor =>
          supervisor.keep (.forward ref.origin.id event)
      else world.interpreter := by
  unfold sendTo post deliver
  split
  · split
    · rfl
    · rename_i unended
      simp only [if_true, Interpreter.accept?]
      exact rouse_interpreter _
  · rfl

end World

namespace Machine

open Interpreter in
/-- Whoever bears the id of a handle when an event sent through it is read gets the event.
That is the actor of the handle, or nobody, exactly if no younger actor bears the id by then;
one that does has taken over the id after the other was removed.  It never happens to an id
that was made up, and it may happen to every id that the machine declares.  All of this holds
at every moment of every life, and every run of a new or restored interpreter is such a life,
whatever is done between the sending and the reading. -/
theorem handle_addresses_iff
    (machine : Machine ActorLogic) (facilities : Facilities) :
    (∀ (nursery : Nursery) (interpreter : Interpreter) (id : String) (event : Event),
      (∀ origin, interpreter.supervisor.registry.origin? id = some origin →
        (dispatch facilities nursery (.forward id event)).run interpreter =
          (giveTo facilities nursery origin event).run interpreter) ∧
      (interpreter.supervisor.registry.origin? id = none →
        (dispatch facilities nursery (.forward id event)).run interpreter =
          .ok () interpreter)) ∧
    (∀ (nursery : Nursery) (start first second : Interpreter) (lived later : List Dealing)
        (origin : Origin) (event : Event) (dealing : Dealing),
      start.Fresh → start.machine = machine → Course facilities nursery start lived first →
      first.supervisor.registry.accepts origin = true →
      Course facilities nursery first later second →
      dealing ∈ later → dealing.envelope = .forward origin.id event →
        let registry := dealing.interpreter.supervisor.registry
        (registry.KeepsFor origin →
          (dispatch facilities nursery dealing.envelope).run dealing.interpreter =
            (giveTo facilities nursery origin event).run dealing.interpreter) ∧
        (registry.KeepsFor origin ↔ ∀ other, registry.origin? origin.id = some other →
          other.serial < first.supervisor.registry.nextSerial) ∧
        (¬ registry.KeepsFor origin → registry.HasClosed origin) ∧
        (origin.id ∉ machine.declaredIds → registry.KeepsFor origin)) ∧
    (∀ id, (∀ first second serial, machine.Staffed first →
        first.accepts ⟨id, serial⟩ = true → machine.Shifts first second →
          second.KeepsFor ⟨id, serial⟩) ↔ id ∉ machine.declaredIds) ∧
    (∀ (start : Interpreter) (before after : List Operation) (first second : World)
        (id : String) (ref : ActorRef) (event : Event),
      Begins machine start → first = (World.around facilities start).run before →
      second = first.run after → first.reference? id = some ref →
        (ref.origin.id = id ∧ first.interpreter.supervisor.registry.accepts ref.origin = true) ∧
        ((second.sendTo ref event).2.interpreter =
          if (second.sendTo ref event).1 then
            second.interpreter.onSupervisor fun supervisor =>
              supervisor.keep (.forward ref.origin.id event)
          else second.interpreter) ∧
        Passes facilities (Nursery.ofGenerations facilities machine.generations)
          start first.interpreter ∧
        Passes facilities (Nursery.ofGenerations facilities machine.generations)
          first.interpreter second.interpreter ∧
        Reared facilities machine.generations second.interpreter) := by
  refine ⟨?_, ?_, keepsFor_iff_undeclared, ?_⟩
  · intro nursery interpreter id event
    exact ⟨fun origin found => dispatch_run_of_borne facilities nursery found event,
      fun vacant => forward_run_of_vacant facilities nursery vacant event⟩
  · rintro nursery start first second lived later origin event dealing fresh rfl begun accepted
      onward member same registry
    have staffed := begun.staffed fresh
    have shifts : start.machine.Shifts first.supervisor.registry registry :=
      begun.lasts.machine ▸ onward.shifts_to member
    refine ⟨?_, shifts.ages.keepsFor_iff staffed.balanced accepted, ?_,
      staffed.keepsFor shifts accepted⟩
    · intro keeps
      rw [same]
      exact dispatch_run_of_keepsFor facilities nursery keeps event
    · intro lost
      unfold Registry.KeepsFor at lost
      push Not at lost
      obtain ⟨other, found, different⟩ := lost
      exact (shifts.ages.successor accepted found different).2
  · rintro start before after first second id ref event begins rfl rfl found
    obtain ⟨named, _, accepted⟩ := World.reference?_eq_some found
    refine ⟨⟨named, accepted⟩, World.sendTo_interpreter _ ref event,
      World.run_course facilities begins [] before rfl,
      World.run_course facilities begins before after rfl, ?_⟩
    rw [← World.run_append]
    exact World.run_reared facilities begins (before ++ after)

end Machine

namespace MachineSpec

/-- Makes known of which events it hears. -/
def listening : ActorLogic :=
  .callback fun _ => { receiver := some fun _ event => [.note event.type] }

/-- A root that starts a listener without an id, and one more in its place when told to. -/
def relay : MachineSpec ActorLogic :=
  { root := .mk
      { key := "m"
        entry := [.spawn none listening none]
        transitions := [(.on "AGAIN",
          { actions := [.stopChild "m:spawn[1]", .spawn none listening none] })] }
      []
    context := some fun _ => .null }

open Interpreter in
/-- The listener is replaced before the event is sent through its handle; nobody hears of
it. -/
theorem handle_addresses_relay :
    let machine : Machine ActorLogic := relay.machine fun _ => .null
    let facilities : Facilities := ⟨false, true, 1000⟩
    let nursery := Nursery.ofGenerations facilities machine.generations
    let first := (World.around facilities (create machine {})).run [.start]
    let ref : ActorRef := ⟨0, ⟨"m:spawn[1]", 0⟩, .callback⟩
    let second := first.run [.send (Event.named "AGAIN"), .sendTo ref (Event.named "PING")]
    let third := second.run [.flush]
    first.reference? "m:spawn[1]" = some ref ∧ second.statusOf ref = .stopped ∧
      Table.keys second.interpreter.supervisor.registry.actors = ["m:spawn[2]"] ∧
      third.log = first.log ∧
      ∃ later, Course facilities nursery first.interpreter later third.interpreter ∧
        ∃ dealing ∈ later, dealing.envelope = .forward "m:spawn[1]" (Event.named "PING") ∧
          dealing.interpreter.supervisor.registry.KeepsFor ref.origin ∧
          (dispatch facilities nursery dealing.envelope).run dealing.interpreter =
            (giveTo facilities nursery ref.origin (Event.named "PING")).run
              dealing.interpreter := by
  intro machine facilities nursery first ref second third
  have held : first.reference? "m:spawn[1]" = some ref := by decide +kernel
  have waiting : .forward "m:spawn[1]" (Event.named "PING") ∈
      second.interpreter.supervisor.inbox := by decide +kernel
  have read : .forward "m:spawn[1]" (Event.named "PING") ∉
      third.interpreter.supervisor.inbox := by decide +kernel
  have unended : third.interpreter.status.isTerminal = false := by decide +kernel
  have begins : Begins machine (create machine {}) := .of_create machine {}
  obtain ⟨_, addresses, _, runs⟩ := Machine.handle_addresses_iff machine facilities
  obtain ⟨⟨_, accepted⟩, _, ⟨lived, begun⟩, ⟨earlier, onward⟩, _⟩ :=
    runs _ [.start] _ first second _ ref (Event.named "PING") begins rfl rfl held
  obtain ⟨later, further⟩ := World.run_course facilities begins ([.start] ++ [_, _]) [.flush]
    (World.run_append _ [.start] _).symm
  obtain ⟨dealing, member, same⟩ := further.dealt unended waiting read
  have course := onward.trans further
  have among := List.mem_append_right earlier member
  obtain ⟨given, _, _, kept⟩ := addresses nursery _ _ _ lived _ ref.origin
    (Event.named "PING") dealing (fresh_create machine {}) rfl begun accepted course among same
  have keeps := kept (by decide +kernel)
  exact ⟨held, by decide +kernel, by decide +kernel, by decide +kernel, _, course, dealing,
    among, same, keeps, given keeps⟩

/-- A root that starts a listener under an id, and one more under this id when told to. -/
def relief : MachineSpec ActorLogic :=
  { root := .mk
      { key := "m"
        entry := [.spawn (some "w") listening none]
        transitions := [(.on "AGAIN",
          { actions := [.stopChild "w", .spawn (some "w") listening none] })] }
      []
    context := some fun _ => .null }

open Interpreter in
/-- The listener is stopped before the event is sent through its handle; the one that has
taken over its id hears of the event. -/
theorem handle_addresses_successor_relief :
    let machine : Machine ActorLogic := relief.machine fun _ => .null
    let facilities : Facilities := ⟨false, true, 1000⟩
    let nursery := Nursery.ofGenerations facilities machine.generations
    let first := (World.around facilities (create machine {})).run [.start]
    let ref : ActorRef := ⟨0, ⟨"w", 0⟩, .callback⟩
    let second := first.run [.send (Event.named "AGAIN"), .sendTo ref (Event.named "PING")]
    let third := second.run [.flush]
    relief.build = .ok machine ∧ first.reference? "w" = some ref ∧
      second.statusOf ref = .stopped ∧ second.log = first.log ∧
      third.log = first.log ++ [⟨[], .actor "w" "PING"⟩] ∧
      ∃ later after, Course facilities nursery first.interpreter later after ∧
        ∃ dealing ∈ later, dealing.envelope = .forward ref.origin.id (Event.named "PING") ∧
          dealing.interpreter.supervisor.registry.origin? "w" = some ⟨"w", 1⟩ ∧
          (dispatch facilities nursery dealing.envelope).run dealing.interpreter ≠
            (giveTo facilities nursery ref.origin (Event.named "PING")).run
              dealing.interpreter := by
  intro machine facilities nursery first ref second third
  let taken := second.interpreter.onSupervisor fun supervisor => { supervisor with inbox := [] }
  have running : second.interpreter.status = .running := by decide +kernel
  have inbox : second.interpreter.supervisor.inbox = [.forward "w" (Event.named "PING")] := by
    decide +kernel
  obtain ⟨earlier, onward⟩ :=
    World.run_course facilities (.of_create machine {}) [.start] [_, _] rfl
  have course := onward.trans (.deal .rest running (nextEnvelope?_of_inbox inbox))
  refine ⟨build_of_faultless (by decide +kernel) rfl, by decide +kernel, by decide +kernel,
    by decide +kernel, by decide +kernel, _, _, course, ⟨taken, _⟩,
    List.mem_append_right _ List.mem_cons_self, rfl, by decide +kernel, fun same => ?_⟩
  have heard : (leftBy (dispatch facilities nursery (.forward "w" (Event.named "PING")))
      taken).supervisor.outbox ≠ (leftBy (giveTo facilities nursery ref.origin
        (Event.named "PING")) taken).supervisor.outbox := by decide +kernel
  refine heard ?_
  unfold leftBy
  rw [same]

end MachineSpec

end Statechart
