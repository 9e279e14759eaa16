import Statechart.Proofs.Clocks
import Statechart.Proofs.HolderPreservation
import Statechart.Proofs.IdleInterpreters
import Statechart.Proofs.WorldCourses

/-!
# Timers and tasks end with their actors

In every run, a timer that is set for an actor, and a task that is run for one, belongs to
an actor that runs, at any depth of the tree of machines.  So an interpreter that does not
run has left none behind.
-/

namespace Statechart

namespace Interpreter

section Living

variable {facilities : Facilities} {nursery : Nursery} {good : Interpreter → Prop}
variable {before after : Interpreter} {held : Holding → Prop}

theorem accept_hasHolder
    {envelope : Envelope} {path : List Origin}
    (accepted : accept? envelope path before = some after)
    {holding : Holding}
    (found : before.supervisor.registry.HasHolder holding.path holding.holder) :
    after.supervisor.registry.HasHolder holding.path holding.holder := by
  induction path generalizing before after holding with
  | nil =>
      obtain rfl := Option.some.inj accepted
      exact found
  | cons origin path ih =>
      obtain ⟨child, reported, grown, bears, grew, rfl⟩ := accept?_cons.mp accepted
      obtain ⟨actor, isActor, serial, process⟩ := Registry.childMachine?_eq_some.mp bears
      obtain ⟨other, isOther, otherSerial, upholds⟩ := Registry.hasHolder_iff.mp found
      have updated : (before.supervisor.registry.update origin.id
          (.machine grown reported)).actor? holding.top.id = _ :=
        Registry.actor?_update origin.id holding.top.id (.machine grown reported)
      rw [isOther] at updated
      refine Registry.hasHolder_iff.mpr ⟨_, updated, ?_, ?_⟩
      · split <;> exact otherSerial
      · split
        · rename_i sameId
          rw [sameId] at isOther
          obtain rfl := Option.some.inj (isActor.symm.trans isOther)
          rw [process] at upholds
          obtain ⟨route, holder⟩ := holding
          cases route with
          | nil => cases (upholds : false = true)
          | cons first route =>
              obtain ⟨machine, told, isMachine, below⟩ := upholds
              obtain ⟨rfl, rfl⟩ := Process.machine.inj isMachine
              let inner : Holding := ⟨route, holder⟩
              have still : grown.supervisor.registry.HasHolder inner.path inner.holder :=
                ih grew below
              exact ⟨grown, reported, rfl, still⟩
        · exact upholds

theorem accept_covers
    {envelope : Envelope} {path : List Origin}
    (accepted : accept? envelope path before = some after)
    (covers : before.supervisor.Covers held) :
    after.supervisor.Covers held := by
  intro holding isHeld
  rw [(accept_outbox accepted).1] at isHeld
  exact accept_hasHolder accepted (covers holding isHeld)

variable (minds : nursery.Minds good)

include minds

theorem Interlude.covers
    (interlude : Interlude facilities nursery before after)
    (covers : before.supervisor.Covers held)
    (fosters : before.supervisor.registry.Fosters good) :
    after.supervisor.Covers held := by
  have worked : Supervisor.Works facilities nursery before.supervisor after.supervisor →
      after.supervisor.Covers held :=
    fun works => works.covers minds covers fosters
  cases interlude with
  | begin => exact worked (firstStep_works _ { before with status := .running }).works
  | resume => exact worked (resume_works _ { before with status := .running }).works
  | redeem => exact worked (recallDeferred_works before).works
  | defer event => exact covers
  | accept envelope path accepted => exact accept_covers accepted covers
  | stop => exact worked (stop_works before).leftBy.works
  | clear => exact covers
  | watch board => exact covers

theorem Advances.covers
    (advances : Advances facilities nursery before after)
    (covers : before.supervisor.Covers held)
    (fosters : before.supervisor.registry.Fosters good) :
    after.supervisor.Covers held := by
  induction advances with
  | refl => exact covers
  | tail earlier last ih =>
      obtain ⟨dealings, course⟩ := Advances.passes earlier
      have stillFosters := course.fosters minds.toRaises fosters
      cases last with
      | @deal taken envelope running found =>
          have works : Works facilities nursery taken _ := dispatch_works taken envelope
          obtain ⟨_, same⟩ := nextEnvelope?_eq found
          apply works.works.covers minds
          · rw [same]
            exact ih
          · rw [same]
            exact stillFosters
      | pursue pursuit => exact pursuit.interlude.covers minds ih stillFosters

end Living

section Generations

variable {facilities : Facilities} {nursery : Nursery} {generations : Nat}
variable {interpreter : Interpreter}

theorem Lived.balanced
    (lived : Lived facilities nursery interpreter) :
    interpreter.supervisor.registry.Balanced := by
  obtain ⟨start, fresh, dealings, course⟩ := lived
  exact course.lasts.balanced fresh.balanced

theorem Lived.settled
    (lived : Lived facilities nursery interpreter) :
    interpreter.Settled := by
  obtain ⟨start, fresh, dealings, course⟩ := lived
  exact course.settled fresh.settled fresh.balanced

/-- At each level, whatever is done with a child machine leaves a holder to each errand that
is held there. -/
theorem fostered_minds
    (facilities : Facilities) (generations : Nat) :
    (Nursery.ofGenerations facilities generations).Minds (Fostered facilities generations) := by
  induction generations with
  | zero =>
      exact
        { Reared.raises facilities 0 with
          quiet := fun _ fostered => fostered.quiet
          startCovers := fun _ _ _ covers => covers
          receiveCovers := fun _ _ _ _ covers => covers
          wakeCovers := fun _ _ _ covers => covers
          stopCovers := fun _ _ _ covers => covers
          empties := fun _ fostered => fostered.vacant rfl }
  | succ generations ih =>
      have keeps : ∀ {answer : Type} {operation : Handling answer},
          Coursing facilities (Nursery.ofGenerations facilities generations) operation →
            ∀ child held, Fostered facilities (generations + 1) child →
              child.supervisor.Covers held →
                Ends operation child (fun _ after => after.supervisor.Covers held)
                  (fun _ after => after.supervisor.Covers held) := by
        intro answer operation coursing child held fostered covers
        exact (coursing child).mono
          (fun _ _ advances => advances.covers ih covers fostered.reared.fosters)
          (fun _ _ advances => advances.covers ih covers fostered.reared.fosters)
      refine
        { Reared.raises facilities (generations + 1) with
          quiet := fun _ fostered => fostered.quiet
          startCovers := fun child held fostered covers =>
            (keeps start_coursing child held fostered covers).leftBy
          receiveCovers := fun event child held fostered covers =>
            (keeps (send_coursing event) child held fostered covers).leftBy
          wakeCovers := ?_
          stopCovers := fun child held fostered covers =>
            (keeps stop_coursing child held fostered covers).leftBy
          empties := fun child fostered =>
            stop_empties facilities _ fostered.reared.lived.settled
              fostered.reared.lived.balanced }
      intro child held fostered covers
      have woken : Ends (Nursery.ofGenerations facilities (generations + 1)).wake child
          (fun _ after => after.supervisor.Covers held)
          (fun _ after => after.supervisor.Covers held) := by
        simp only [Nursery.ofGenerations, ends_bind, ends_pure]
        exact keeps flush_coursing child held fostered covers
      exact woken.leftBy

end Generations

end Interpreter

namespace World

/-- The clock or a task still works on an errand of the actor. -/
def Awaits (world : World) (holding : Holding) : Prop :=
  (∃ timer ∈ world.clock.pending,
      timer.alarm.payload.isHeldBy holding.path holding.holder = true) ∨
    world.tasks.HasHeld holding.path holding.holder

/-- No timer of the clock or of the tasks will set another. -/
structure Plain (world : World) : Prop where
  clock : world.clock.Plain
  pauses : world.tasks.pauses.Plain

section Attending

variable {world : World}

theorem commission_awaits
    (path : List Origin) (holder : Option Origin) (errand : Errand) {holding : Holding}
    (awaits : (world.commission path holder errand).Awaits holding) :
    world.Awaits holding ∨ holding.path = path ∧ some holding.holder = holder := by
  have tasked : ∀ steps, ({ world with
      tasks := world.tasks.enqueue (.task { path, holder, steps } false) } : World).Awaits
        holding →
      world.Awaits holding ∨ holding.path = path ∧ some holding.holder = holder := by
    intro steps awaits
    rcases awaits with onClock | inTasks
    · exact .inl (.inl onClock)
    · rcases Tasks.hasHeld_enqueue.mp inTasks with new | earlier
      · obtain ⟨samePath, sameHolder⟩ := Bool.and_eq_true_iff.mp new
        exact .inr ⟨(of_decide_eq_true samePath).symm, (of_decide_eq_true sameHolder).symm⟩
      · exact .inl (.inr earlier)
  cases errand with
  | alarm delay envelope =>
      unfold commission at awaits
      dsimp only at awaits
      split_ifs at awaits
      · rcases awaits with ⟨timer, member, isHeld⟩ | inTasks
        · rcases Clock.mem_schedule.mp member with rfl | earlier
          · obtain ⟨samePath, sameHolder⟩ := Bool.and_eq_true_iff.mp isHeld
            exact .inr ⟨(of_decide_eq_true samePath).symm, (of_decide_eq_true sameHolder).symm⟩
          · exact .inl (.inl ⟨timer, earlier, isHeld⟩)
        · exact .inl (.inr inTasks)
      · exact tasked _ awaits
      · exact .inl awaits
  | script steps => exact tasked steps awaits

theorem attend_awaits
    (emission : Emission) {holding : Holding}
    (awaits : (world.attend emission).Awaits holding) :
    emission.held world.Awaits holding := by
  cases emission with
  | activity path activity =>
      change (world.observe path activity).Awaits holding at awaits
      unfold observe at awaits
      split at awaits
      · exact awaits
      · exact awaits
  | upward envelope => exact awaits
  | commission path holder errand =>
      rcases commission_awaits path holder errand awaits with earlier | ⟨samePath, sameHolder⟩
      · cases holder with
        | none => exact earlier
        | some holder => exact .inl earlier
      · subst samePath
        subst sameHolder
        exact .inr rfl
  | revoke path holder =>
      rcases awaits with ⟨timer, member, isHeld⟩ | inTasks
      · obtain ⟨earlier, spared⟩ := List.mem_filter.mp member
        refine ⟨.inl ⟨timer, earlier, isHeld⟩, ?_⟩
        rintro rfl
        simp [isHeld] at spared
      · obtain ⟨earlier, spared⟩ := Tasks.hasHeld_revoke inTasks
        refine ⟨.inr earlier, ?_⟩
        rintro rfl
        exact spared ⟨rfl, rfl⟩

theorem attend_plain
    (plain : world.Plain) (emission : Emission) :
    (world.attend emission).Plain := by
  cases emission with
  | activity path activity =>
      change (world.observe path activity).Plain
      unfold observe
      split
      · exact ⟨plain.clock, plain.pauses⟩
      · exact ⟨plain.clock, plain.pauses⟩
  | upward envelope => exact plain
  | commission path holder errand =>
      change (world.commission path holder errand).Plain
      unfold commission
      split
      · split_ifs
        · exact ⟨plain.clock.schedule rfl _, plain.pauses⟩
        · exact ⟨plain.clock, plain.pauses⟩
        · exact plain
      · exact ⟨plain.clock, plain.pauses⟩
  | revoke path holder =>
      exact ⟨plain.clock.cancelWhere _, plain.pauses.cancelWhere _⟩

theorem attendAll_awaits
    (emissions : List Emission) {held : Holding → Prop}
    (awaited : ∀ holding, world.Awaits holding → held holding) {holding : Holding}
    (awaits : (emissions.foldl attend world).Awaits holding) :
    Emission.heldAfter held emissions holding := by
  induction emissions generalizing world held with
  | nil => exact awaited holding awaits
  | cons emission emissions ih =>
      refine ih ?_ awaits
      intro other isAwaited
      exact Emission.held_mono awaited emission (attend_awaits emission isAwaited)

theorem attendAll_plain
    (plain : world.Plain) (emissions : List Emission) :
    (emissions.foldl attend world).Plain := by
  induction emissions generalizing world with
  | nil => exact plain
  | cons emission emissions ih => exact ih (attend_plain plain emission)

end Attending

/-- All that the clock and the tasks work on is held by actors that run, and the interpreter
and its machines live. -/
structure Tended (world : World) : Prop extends world.Plain where
  reared : Interpreter.Reared world.facilities world.interpreter.machine.generations
    world.interpreter
  quiet : world.interpreter.supervisor.outbox = []
  holders : ∀ holding, world.Awaits holding →
    world.interpreter.supervisor.registry.HasHolder holding.path holding.holder

section Tending

variable {before after : World}

theorem Tended.passes
    (tended : before.Tended)
    (passes : before.Passes after)
    (plain : after.Plain)
    (quiet : after.interpreter.supervisor.outbox = [])
    (holders : ∀ holding, after.Awaits holding →
      after.interpreter.supervisor.registry.HasHolder holding.path holding.holder) :
    after.Tended := by
  refine { toPlain := plain, reared := ?_, quiet, holders }
  have reared := tended.reared.course (Interpreter.Reared.raises _ _) passes.course
  obtain ⟨dealings, course⟩ := passes.course
  rwa [passes.facilities, course.lasts.machine]

theorem Tended.around
    (tended : before.Tended)
    (facilities : after.facilities = before.facilities)
    (interpreter : after.interpreter = before.interpreter)
    (plain : after.Plain)
    (awaits : ∀ holding, after.Awaits holding → before.Awaits holding) :
    after.Tended := by
  apply tended.passes (passes_around facilities interpreter) plain
  · rw [interpreter]
    exact tended.quiet
  · intro holding isAwaited
    rw [interpreter]
    exact tended.holders holding (awaits holding isAwaited)

theorem perform_tended
    {answer : Type} {operation : Facilities → Nursery → Handling answer}
    (asked : Interpreter.Asked operation)
    (tended : before.Tended) :
    (before.perform operation).2.Tended := by
  have advances := perform_advances asked before
  have passes := perform_passes asked before
  rw [perform_leaves] at passes ⊢
  generalize leftBy (operation before.facilities before.nursery) before.interpreter = interpreter
    at advances passes ⊢
  let emptied : World := { before with interpreter := interpreter.drained }
  have same := takeUp_interpreter before interpreter
  have begun : before.interpreter.supervisor.Covers before.Awaits := by
    intro holding isHeld
    rw [tended.quiet] at isHeld
    exact tended.holders holding isHeld
  have covers := advances.covers
    (Interpreter.fostered_minds before.facilities before.interpreter.machine.generations) begun
    tended.reared.fosters
  apply tended.passes passes
  · have plain : emptied.Plain := ⟨tended.clock, tended.pauses⟩
    exact attendAll_plain plain _
  · rw [same]
    rfl
  · intro holding awaits
    rw [same]
    have awaited : ∀ holding, emptied.Awaits holding → before.Awaits holding :=
      fun _ isAwaited => isAwaited
    exact covers holding (attendAll_awaits _ awaited awaits)

theorem Change.tended
    (change : Change before after)
    (tended : before.Tended) :
    after.Tended := by
  -- Whatever becomes of what is ready, the tasks that pause are the same.
  have turned : ∀ {ready : List Turn} {stage : Stage},
      (∀ turn ∈ ready, turn = .interpreter ∨ turn ∈ before.tasks.ready) →
        World.Tended { before with stage, tasks := { before.tasks with ready } } := by
    intro ready stage known
    refine tended.around rfl rfl ⟨tended.clock, tended.pauses⟩ fun holding awaits => ?_
    rcases awaits with onClock | ⟨turn, member, isHeld⟩ | pausing
    · exact .inl onClock
    · rcases known turn member with rfl | earlier
      · cases isHeld
      · exact .inr (.inl ⟨turn, earlier, isHeld⟩)
    · exact .inr (.inr pausing)
  cases change with
  | start => exact perform_tended .start tended
  | send event => exact perform_tended (.send event) tended
  | flush => exact perform_tended .flush tended
  | tick => exact perform_tended .tick tended
  | stop => exact perform_tended .stop tended
  | accept envelope path accepted =>
      refine tended.passes (passes_interlude rfl (.accept envelope path accepted))
        ⟨tended.clock, tended.pauses⟩ ?_ ?_
      · exact (Interpreter.accept_outbox accepted).1.trans tended.quiet
      · exact fun holding awaits =>
          Interpreter.accept_hasHolder accepted (tended.holders holding awaits)
  | watch =>
      exact tended.passes (passes_interlude rfl (.watch before.interpreter _))
        ⟨tended.clock, tended.pauses⟩ tended.quiet tended.holders
  | elapse span =>
      have plain := tended.clock.advanced span
      refine tended.around rfl rfl ⟨plain, tended.pauses⟩ fun holding awaits => ?_
      rcases awaits with ⟨timer, member, isHeld⟩ | inTasks
      · exact .inl ⟨timer, (tended.clock.advance span).subset member, isHeld⟩
      · exact .inr inTasks
  | pass target =>
      have plain : (before.tasks.passTo target).pauses.Plain := tended.pauses.advanced _
      refine tended.around rfl rfl ⟨tended.clock, plain⟩ fun holding awaits => ?_
      exact awaits.imp_right (Tasks.hasHeld_passTo tended.pauses)
  | @proceed task resumed ready first =>
      let others : Tasks := { before.tasks with ready }
      have stillPlain : others.pauses.Plain := tended.pauses
      have plain := Tasks.plain_proceed stillPlain task task.steps resumed
      refine tended.around rfl rfl ⟨tended.clock, plain⟩ fun holding awaits => ?_
      rcases awaits with onClock | inTasks
      · exact .inl onClock
      · right
        rcases Tasks.hasHeld_proceed inTasks with isHeld | ⟨turn, member, isHeld⟩ | pausing
        · exact .inl ⟨.task task resumed, by rw [first]; exact List.mem_cons_self, isHeld⟩
        · exact .inl ⟨turn, by rw [first]; exact List.mem_cons_of_mem _ member, isHeld⟩
        · exact .inr pausing
  | call first =>
      exact turned fun turn member => .inr (by rw [first]; exact List.mem_cons_of_mem _ member)
  | summon stage =>
      apply turned
      intro turn member
      rcases List.mem_append.mp member with earlier | last
      · exact .inr earlier
      · exact .inl (List.mem_singleton.mp last)
  | stage stage => exact turned fun turn member => .inr member
  | display shown =>
      exact tended.around rfl rfl ⟨tended.clock, tended.pauses⟩ fun _ awaits => awaits
  | forget retired =>
      exact tended.around rfl rfl ⟨tended.clock, tended.pauses⟩ fun _ awaits => awaits

theorem tended_around
    (facilities : Facilities) {start : Interpreter}
    (fresh : start.Fresh)
    (quiet : start.supervisor.outbox = []) :
    (World.around facilities start).Tended := by
  constructor
  · constructor
    · exact fun _ member => by cases member
    · exact fun _ member => by cases member
  · exact .of_fresh fresh
  · exact quiet
  · intro holding awaits
    rcases awaits with ⟨_, member, _⟩ | ⟨_, member, _⟩ | ⟨_, member, _⟩
    · cases member
    · cases member
    · cases member

/-- An interpreter that does not run has left no timers and tasks behind. -/
theorem Tended.rests
    {world : World}
    (tended : world.Tended)
    (rests : world.interpreter.status ≠ .running) (holding : Holding) :
    ¬ world.Awaits holding := by
  intro awaits
  have vacant := tended.reared.lived.settled.rests rests
  exact Registry.not_hasHolder_of_vacant vacant holding (tended.holders holding awaits)

end Tending

end World

end Statechart
