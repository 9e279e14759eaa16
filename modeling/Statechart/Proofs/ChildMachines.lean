import Statechart.Proofs.Courses

/-!
# Child machines

A child machine is an interpreter like any other: whatever its parent does with it, it goes
through the course of its own life, with the nursery of the generation below.  So what
holds of all courses holds of every machine in a tree of machines.
-/

namespace Statechart

namespace Process

/-- The child machine of the process, if there is one, is good. -/
def Fosters (good : Interpreter → Prop) (process : Process Interpreter) : Prop :=
  ∀ child reported, process = .machine child reported → good child

theorem fosters_of_noMachine
    {good : Interpreter → Prop} {process : Process Interpreter}
    (noMachine : process.kind ≠ .machine) :
    process.Fosters good := by
  rintro child reported rfl
  exact absurd rfl noMachine

end Process

namespace Registry

/-- All child machines are good. -/
def Fosters (good : Interpreter → Prop) (registry : Registry Interpreter) : Prop :=
  ∀ entry ∈ registry.actors, entry.2.process.Fosters good

theorem childMachine?_eq_some
    {registry : Registry Interpreter} {origin : Origin} {child : Interpreter}
    {reported : Bool} :
    registry.childMachine? origin = some (child, reported) ↔
      ∃ actor, registry.actor? origin.id = some actor ∧ actor.serial = origin.serial ∧
        actor.process = .machine child reported := by
  unfold childMachine?
  constructor
  · intro found
    split at found
    · rename_i serial owner depth held told bears
      split at found
      · rename_i same
        obtain ⟨rfl, rfl⟩ := Prod.mk.inj (Option.some.inj found)
        exact ⟨_, bears, same, rfl⟩
      · cases found
    · cases found
  · intro bears
    obtain ⟨⟨serial, owner, depth, process⟩, found, same, holds⟩ := bears
    obtain rfl : process = .machine child reported := holds
    rw [found]
    exact if_pos same

section Fostering

variable {good : Interpreter → Prop} {registry : Registry Interpreter}

theorem fosters_dismissed
    (fosters : registry.Fosters good)
    (status : ActorStatus) (id : String) :
    (registry.dismissed status id).Fosters good := by
  unfold dismissed
  cases registry.actor? id with
  | none => exact fosters
  | some actor => exact fun entry member => fosters entry (Table.mem_erase.mp member).1

theorem fosters_staffed
    (fosters : registry.Fosters good)
    (id : String) (owner : Option StateId) (depth : Nat) {process : Process Interpreter}
    (reared : process.Fosters good) :
    (registry.staffed id owner depth process).Fosters good := by
  intro entry member
  rcases Table.mem_of_mem_insert member with rfl | earlier
  · exact reared
  · exact fosters_dismissed fosters .stopped id entry earlier

theorem fosters_update
    (fosters : registry.Fosters good)
    (id : String) {process : Process Interpreter}
    (reared : process.Fosters good) :
    (registry.update id process).Fosters good := by
  intro entry member
  obtain ⟨earlier, isMember, rfl⟩ := List.mem_map.mp member
  split
  · exact reared
  · exact fosters earlier isMember

theorem fosters_child
    {origin : Origin} {child : Interpreter} {reported : Bool}
    (fosters : registry.Fosters good)
    (found : registry.childMachine? origin = some (child, reported)) :
    good child := by
  obtain ⟨actor, bears, _, process⟩ := childMachine?_eq_some.mp found
  exact fosters _ (Table.mem_of_get? bears) child reported process

end Fostering

end Registry

/-- The operation leaves the interpreter good, once what came out of it has been taken
away. -/
def Leaves (good : Interpreter → Prop) (operation : Handling Unit) (child : Interpreter) :
    Prop :=
  Ends operation child (fun _ after => good after.drained) (fun _ after => good after.drained)

/-- Whatever the nursery does with a child machine, a good one stays good, and new ones are
good. -/
structure Nursery.Raises (nursery : Nursery) (good : Interpreter → Prop) : Prop where
  newborn : ∀ machine self input, good (Interpreter.child machine self input)
  start : ∀ child, good child → Leaves good nursery.start child
  receive : ∀ event child, good child → Leaves good (nursery.receive event) child
  wake : ∀ child, good child → Leaves good nursery.wake child
  stop : ∀ child, good child → Leaves good nursery.stop child
  accept : ∀ envelope path child grown, good child →
    Interpreter.accept? envelope path child = some grown → good grown

namespace Supervisor

variable {good : Interpreter → Prop} {nursery : Nursery} (raises : nursery.Raises good)
variable (supervisor : Supervisor Interpreter) (facilities : Facilities)

include raises

omit raises in
theorem attend_good
    {child : Interpreter} {task : Handling Unit} (self : Origin)
    (leaves : Leaves good task child) :
    good (supervisor.attend self child task).2.1 := by
  unfold Leaves Ends at leaves
  unfold attend
  cases outcome : task.run child with
  | ok _ after =>
      rw [outcome] at leaves
      exact leaves
  | error _ after =>
      rw [outcome] at leaves
      exact leaves

omit raises in
theorem reportEnd_fosters
    {child : Interpreter} (self : Origin) (reported : Bool)
    (isGood : good child) :
    (supervisor.reportEnd self child reported).1.Fosters good := by
  obtain ⟨told, same⟩ := reportEnd_process supervisor self child reported
  rw [same]
  rintro _ _ ⟨⟩
  exact isGood

theorem launchMachine_fosters
    (self : Origin) (machine : Machine ActorLogic) (input : Json) :
    (launchMachine nursery supervisor self machine input).1.process.Fosters good := by
  have attended := attend_good supervisor self
    (raises.start _ (raises.newborn machine self input))
  unfold launchMachine
  split
  · rename_i started
    rw [started] at attended
    rintro _ _ ⟨⟩
    exact attended
  · rename_i child attending started
    rw [started] at attended
    exact reportEnd_fosters attending self false attended

theorem launch_fosters
    (self : Origin) (input : Json) (job : Job) :
    (launch facilities nursery supervisor self input job).1.process.Fosters good := by
  cases job with
  | timer delay delivery =>
      simp only [launch]
      split
      · rintro _ _ ⟨⟩
      · rintro _ _ ⟨⟩
  | logic logic =>
      cases logic with
      | machine machine => exact launchMachine_fosters raises supervisor self machine input
      | callback setup => rintro _ _ ⟨⟩
      | custom logic => rintro _ _ ⟨⟩
      | promise plan =>
          simp only [launch, launchTask]
          split <;> rintro _ _ ⟨⟩
      | stream items =>
          simp only [launch, launchTask]
          split <;> rintro _ _ ⟨⟩

omit raises in
theorem tend_fosters
    {child : Interpreter} {task : Handling Unit}
    (self : Origin) (reported : Bool) (blame : Failure → ActorError)
    (fosters : supervisor.registry.Fosters good)
    (leaves : Leaves good task child) :
    (supervisor.tend self child reported task blame).2.registry.Fosters good := by
  have attended := attend_good supervisor self leaves
  have heard := hears_attend supervisor self child task
  unfold tend
  split
  · rename_i grown attending tended
    rw [tended] at attended heard
    refine Registry.fosters_update (heard.registry.symm ▸ fosters) self.id ?_
    rintro _ _ ⟨⟩
    exact attended
  · rename_i grown attending tended
    rw [tended] at attended heard
    have told := (hears_reportEnd attending self grown reported).registry.trans heard.registry
    exact Registry.fosters_update (told.symm ▸ fosters) self.id
      (reportEnd_fosters attending self reported attended)

theorem Deed.fosters
    {before after : Supervisor Interpreter}
    (deed : Deed facilities nursery before after)
    (fosters : before.registry.Fosters good) :
    after.registry.Fosters good := by
  cases deed with
  | keep envelope => exact fosters
  | post envelope => exact (hears_post before envelope).registry ▸ fosters
  | sendUp event => exact (hears_sendUp before event).registry ▸ fosters
  | reveal activity => exact fosters
  | name stem => exact fosters
  | dismiss id ended =>
      exact (dismiss_turns before nursery _ id).registry ▸
        Registry.fosters_dismissed fosters _ id
  | spawn order =>
      exact (spawn_turns before facilities nursery order).registry ▸
        Registry.fosters_staffed fosters order.id order.owner order.depth
          (launch_fosters raises _ facilities _ order.input order.job)
  | deliver id event =>
      cases found : before.registry.actor? id with
      | none =>
          unfold Supervisor.deliver
          rw [found]
          exact fosters
      | some actor =>
          rcases actor.process.machine_or_not with ⟨child, reported, isMachine⟩ | noMachine
          · have isGood : good child := fosters _ (Table.mem_of_get? found) _ _ isMachine
            rw [deliver_machine found isMachine]
            exact tend_fosters before _ reported _ fosters (raises.receive event child isGood)
          · rw [deliver_of_noMachine found noMachine]
            exact Registry.fosters_update ((hears_obeyAll before _ _).registry ▸ fosters) id
              (Process.fosters_of_noMachine ((Process.hear_kind event _).trans_ne noMachine))
  | wake id =>
      unfold Supervisor.wake
      split
      · rename_i serial owner depth child reported found
        have isGood : good child := fosters _ (Table.mem_of_get? found) _ _ rfl
        exact tend_fosters before _ reported _ fosters (raises.wake child isGood)
      · exact fosters

theorem Works.fosters
    {before after : Supervisor Interpreter}
    (works : Works facilities nursery before after)
    (fosters : before.registry.Fosters good) :
    after.registry.Fosters good :=
  fulfils_of_steps (fun _ fosters => fosters)
    (fun earlier later fosters => later (earlier fosters))
    (fun deed => deed.fosters raises) works fosters

end Supervisor

namespace Interpreter

variable {facilities : Facilities} {nursery : Nursery} {good : Interpreter → Prop}

/-- The interpreter has come to where it is in the course of its life. -/
def Lived (facilities : Facilities) (nursery : Nursery) (interpreter : Interpreter) : Prop :=
  ∃ start, start.Fresh ∧ Passes facilities nursery start interpreter

theorem Lived.passes
    {before after : Interpreter}
    (lived : Lived facilities nursery before)
    (passes : Passes facilities nursery before after) :
    Lived facilities nursery after := by
  obtain ⟨start, fresh, earlier⟩ := lived
  exact ⟨start, fresh, earlier.trans passes⟩

theorem Fresh.lived
    {interpreter : Interpreter}
    (fresh : interpreter.Fresh) :
    Lived facilities nursery interpreter :=
  ⟨interpreter, fresh, .refl interpreter⟩

theorem fresh_create
    (machine : Machine ActorLogic) (settings : Settings) :
    (create machine settings).Fresh :=
  ⟨rfl, rfl, rfl⟩

theorem fresh_child
    (machine : Machine ActorLogic) (self : Origin) (input : Json) :
    (Interpreter.child machine self input).Fresh :=
  ⟨rfl, rfl, rfl⟩

/-- A new interpreter of the machine, made by itself or as a child. -/
inductive Born (machine : Machine ActorLogic) : Interpreter → Prop where
  | alone (settings : Settings) : Born machine (create machine settings)
  | child (self : Origin) (input : Json) : Born machine (Interpreter.child machine self input)

section Raising

variable (raises : nursery.Raises good)

include raises

theorem Interlude.fosters
    {before after : Interpreter}
    (interlude : Interlude facilities nursery before after)
    (fosters : before.supervisor.registry.Fosters good) :
    after.supervisor.registry.Fosters good := by
  have worked : Supervisor.Works facilities nursery before.supervisor after.supervisor →
      after.supervisor.registry.Fosters good :=
    fun works => works.fosters raises facilities fosters
  cases interlude with
  | begin => exact worked (firstStep_works _ { before with status := .running }).works
  | resume => exact worked (resume_works _ { before with status := .running }).works
  | redeem => exact worked (recallDeferred_works before).works
  | defer event => exact fosters
  | accept envelope path accepted =>
      cases path with
      | nil =>
          obtain rfl := Option.some.inj accepted
          exact fosters
      | cons origin path =>
          obtain ⟨child, reported, grown, found, grew, rfl⟩ := accept?_cons.mp accepted
          refine Registry.fosters_update fosters origin.id ?_
          rintro _ _ ⟨⟩
          exact raises.accept envelope path child grown (Registry.fosters_child fosters found) grew
  | stop => exact worked (stop_works before).leftBy.works
  | clear => exact fosters
  | watch board => exact fosters

/-- In the course of its life an interpreter leaves all its child machines good. -/
theorem Course.fosters
    {start after : Interpreter} {dealings : List Dealing}
    (course : Course facilities nursery start dealings after)
    (fosters : start.supervisor.registry.Fosters good) :
    after.supervisor.registry.Fosters good := by
  induction course with
  | rest => exact fosters
  | @deal _ _ taken envelope _ _ found ih =>
      have works : Works facilities nursery taken _ := dispatch_works taken envelope
      refine works.works.fosters raises facilities ?_
      rw [(nextEnvelope?_eq found).2]
      exact ih
  | pause _ interlude ih => exact interlude.fosters raises ih
  | unload _ ih => exact ih

end Raising

/-- A child machine while nothing is done with it: all that came out of it has been taken
away, and if there is no nursery for it, it has no actors. -/
structure Waits (generations : Nat) (child : Interpreter) : Prop where
  quiet : child.supervisor.outbox = []
  vacant : generations = 0 → child.supervisor.registry.actors = []

theorem Waits.accept
    {generations : Nat} {envelope : Envelope} {path : List Origin} {child grown : Interpreter}
    (waits : child.Waits generations)
    (accepted : accept? envelope path child = some grown) :
    grown.Waits generations := by
  cases path with
  | nil =>
      obtain rfl := Option.some.inj accepted
      exact ⟨waits.quiet, waits.vacant⟩
  | cons origin path =>
      obtain ⟨below, reported, grown, _, _, rfl⟩ := accept?_cons.mp accepted
      exact ⟨waits.quiet, fun none => List.map_eq_nil_iff.mpr (waits.vacant none)⟩

/-- The interpreter and the machines that it holds, down to the last generation, have all
come to where they are in the course of their lives. -/
inductive Reared (facilities : Facilities) : Nat → Interpreter → Prop where
  | intro {generations : Nat} {interpreter : Interpreter} :
      Lived facilities (Nursery.ofGenerations facilities generations) interpreter →
      (∀ entry ∈ interpreter.supervisor.registry.actors, ∀ child reported,
        entry.2.process = .machine child reported → child.Waits generations) →
      (∀ entry ∈ interpreter.supervisor.registry.actors, ∀ child reported,
        entry.2.process = .machine child reported →
          Reared facilities (generations - 1) child) →
      Reared facilities generations interpreter

/-- A child machine that was reared and waits. -/
structure Fostered (facilities : Facilities) (generations : Nat) (child : Interpreter) :
    Prop extends child.Waits generations where
  reared : Reared facilities (generations - 1) child

namespace Reared

variable {generations : Nat} {before after : Interpreter}

theorem of_fosters
    (lived : Lived facilities (Nursery.ofGenerations facilities generations) after)
    (fosters : after.supervisor.registry.Fosters (Fostered facilities generations)) :
    Reared facilities generations after :=
  .intro lived
    (fun entry member child reported holds => (fosters entry member child reported holds).toWaits)
    (fun entry member child reported holds => (fosters entry member child reported holds).reared)

theorem lived
    (reared : Reared facilities generations before) :
    Lived facilities (Nursery.ofGenerations facilities generations) before := by
  cases reared with
  | intro lived _ _ => exact lived

theorem fosters
    (reared : Reared facilities generations before) :
    before.supervisor.registry.Fosters (Fostered facilities generations) := by
  cases reared with
  | intro _ waits reared =>
      exact fun entry member child reported holds =>
        ⟨waits entry member child reported holds, reared entry member child reported holds⟩

theorem of_fresh
    (fresh : before.Fresh) :
    Reared facilities generations before := by
  apply of_fosters fresh.lived
  rw [fresh.unstaffed]
  exact fun _ member => by cases member

theorem drain
    (reared : Reared facilities generations before) :
    Reared facilities generations before.drained :=
  .of_fosters (reared.lived.passes (passes_drained before)) reared.fosters

/-- Mail for a machine at any depth leaves all machines on the way in the course of their
lives. -/
theorem accept
    {envelope : Envelope} {path : List Origin}
    (reared : Reared facilities generations before)
    (accepted : accept? envelope path before = some after) :
    Reared facilities generations after := by
  have lived := reared.lived.passes (Interlude.passes (.accept envelope path accepted))
  induction path generalizing generations before after with
  | nil =>
      obtain rfl := Option.some.inj accepted
      exact .of_fosters lived reared.fosters
  | cons origin path ih =>
      apply of_fosters lived
      obtain ⟨child, reported, grown, found, grew, rfl⟩ := accept?_cons.mp accepted
      refine Registry.fosters_update reared.fosters origin.id ?_
      rintro _ _ ⟨⟩
      have fostered := Registry.fosters_child reared.fosters found
      exact
        { fostered.toWaits.accept grew with
          reared := ih fostered.reared grew
            (fostered.reared.lived.passes (Interlude.passes (.accept _ path grew))) }

theorem course
    (raises : (Nursery.ofGenerations facilities generations).Raises
      (Fostered facilities generations))
    (reared : Reared facilities generations before)
    (passes : Passes facilities (Nursery.ofGenerations facilities generations) before after) :
    Reared facilities generations after := by
  obtain ⟨dealings, course⟩ := passes
  exact .of_fosters (reared.lived.passes ⟨dealings, course⟩)
    (course.fosters raises reared.fosters)

/-- What an interpreter does with its child machines is the course of their lives, in each
generation. -/
theorem raises
    (facilities : Facilities) (generations : Nat) :
    (Nursery.ofGenerations facilities generations).Raises
      (Fostered facilities generations) := by
  have newborn : ∀ generations machine self input,
      Fostered facilities generations (Interpreter.child machine self input) :=
    fun _ machine self input => ⟨⟨rfl, fun _ => rfl⟩, of_fresh (fresh_child machine self input)⟩
  have accept : ∀ generations envelope path child grown,
      Fostered facilities generations child →
        accept? envelope path child = some grown → Fostered facilities generations grown :=
    fun _ _ _ _ _ fostered grew => ⟨fostered.toWaits.accept grew, fostered.reared.accept grew⟩
  induction generations with
  | zero =>
      have keeps : ∀ child, Fostered facilities 0 child → Fostered facilities 0 child.drained :=
        fun _ fostered => ⟨⟨rfl, fostered.vacant⟩, fostered.reared.drain⟩
      exact
        { newborn := newborn 0
          start := keeps
          receive := fun _ => keeps
          wake := keeps
          stop := keeps
          accept := accept 0 }
  | succ generations ih =>
      have keeps : ∀ {answer : Type} {operation : Handling answer},
          Coursing facilities (Nursery.ofGenerations facilities generations) operation →
            ∀ child, Fostered facilities (generations + 1) child →
              Ends operation child
                (fun _ after => Fostered facilities (generations + 1) after.drained)
                (fun _ after => Fostered facilities (generations + 1) after.drained) := by
        intro answer operation coursing child fostered
        have left : ∀ {after : Interpreter},
            Advances facilities (Nursery.ofGenerations facilities generations) child after →
              Fostered facilities (generations + 1) after.drained := by
          intro after advances
          have vacant : generations + 1 = 0 → after.supervisor.registry.actors = [] :=
            fun none => absurd none (Nat.succ_ne_zero generations)
          exact ⟨⟨rfl, vacant⟩, (fostered.reared.course ih advances.passes).drain⟩
        exact (coursing child).mono (fun _ _ advances => left advances)
          (fun _ _ advances => left advances)
      refine
        { newborn := newborn (generations + 1)
          start := keeps start_coursing
          receive := fun event => keeps (send_coursing event)
          wake := ?_
          stop := keeps stop_coursing
          accept := accept (generations + 1) }
      intro child fostered
      simp only [Leaves, Nursery.ofGenerations, ends_bind, ends_pure]
      exact keeps flush_coursing child fostered

end Reared

end Interpreter

end Statechart
