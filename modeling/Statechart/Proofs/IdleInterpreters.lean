import Statechart.Proofs.Courses
import Statechart.Proofs.Runs

/-!
# Interpreters that do not run

An interpreter that does not run has no actors.  One that has ended stays as it is,
whatever is done with it: mail may still come, but it is thrown away.
-/

namespace Statechart

namespace Supervisor

theorem stopAll_empties
    {nursery : Nursery} {supervisor : Supervisor Interpreter}
    (balanced : supervisor.registry.Balanced) :
    (supervisor.stopAll nursery).registry.actors = [] := by
  apply List.eq_nil_iff_forall_not_mem.mpr
  intro entry member
  have spared := ((mem_stopWhere balanced.distinct).mp member).2
  cases spared

end Supervisor

namespace Engine

/-- Carrying out all exit actions leaves no actors, though these may start some. -/
theorem exitAll_empties
    (engine : Engine) (event : Event) {bench : Workbench}
    (balanced : bench.supervisor.registry.Balanced) :
    (engine.exitAll event bench).2.supervisor.registry.actors = [] := by
  let cleared := bench.onSupervisor fun supervisor => supervisor.stopAll engine.nursery
  have works : Supervisor.Works engine.facilities engine.nursery bench.supervisor
      (engine.exitEach event bench.state.active.reverse none cleared).2.supervisor :=
    (Supervisor.works_stopWhere bench.supervisor fun _ => true).trans
      (toils_exitEach engine event bench.state.active.reverse none cleared).chores.works
  exact Supervisor.stopAll_empties (works.proceeds.balanced balanced)

end Engine

namespace Interpreter

/-- The two differ at most in their mail, their observers and what has come out. -/
structure Stays (before after : Interpreter) : Prop extends before.Alike after where
  registry : after.supervisor.registry = before.supervisor.registry

theorem Stays.refl (interpreter : Interpreter) : interpreter.Stays interpreter :=
  ⟨.refl interpreter, rfl⟩

theorem Stays.trans
    {first second third : Interpreter}
    (earlier : first.Stays second)
    (later : second.Stays third) :
    first.Stays third :=
  ⟨earlier.toAlike.trans later.toAlike, later.registry.trans earlier.registry⟩

section Staying

variable (interpreter : Interpreter)

theorem Tells.stays
    {kind : Activity → Prop} {before after : Interpreter}
    (tells : Tells kind before after) :
    before.Stays after := by
  cases tells with
  | reveal isOfKind => exact ⟨⟨rfl, rfl, rfl, rfl, rfl⟩, rfl⟩
  | react ticket reaction =>
      cases reaction with
      | unsubscribe => exact ⟨⟨rfl, rfl, rfl, rfl, rfl⟩, rfl⟩
      | post event =>
          exact ⟨⟨rfl, rfl, rfl, rfl, rfl⟩,
            (Supervisor.hears_post before.supervisor (.plain event)).registry⟩
  | prune => exact ⟨⟨rfl, rfl, rfl, rfl, rfl⟩, rfl⟩

theorem Tellings.stays
    {kind : Activity → Prop} {before after : Interpreter}
    (tellings : Tellings kind before after) :
    before.Stays after :=
  fulfils_of_steps Stays.refl Stays.trans Tells.stays tellings

theorem stays_publish : interpreter.Stays interpreter.publish :=
  (tellings_publish interpreter).stays

theorem stays_tellEnd
    (tell : Listener → Activity) :
    interpreter.Stays (interpreter.tellEnd tell) :=
  (tellings_tellEnd interpreter tell).stays

theorem stays_complete : interpreter.Stays interpreter.complete :=
  (stays_tellEnd interpreter _).trans ⟨⟨rfl, rfl, rfl, rfl, rfl⟩, rfl⟩

theorem stays_reported
    (event : Event) (handled : Bool) (bench : Workbench) :
    (interpreter.keepSupervisor bench).Stays (interpreter.reported event handled bench) :=
  (tellings_reported interpreter event handled bench).stays

theorem stays_recallDeferred : interpreter.Stays interpreter.recallDeferred := by
  rw [recallDeferred_eq]
  exact ⟨⟨rfl, rfl, rfl, rfl, rfl⟩, rfl⟩

theorem stays_drained : interpreter.Stays interpreter.drained :=
  ⟨⟨rfl, rfl, rfl, rfl, rfl⟩, rfl⟩

/-- Mail cannot go further down than to an interpreter without actors. -/
theorem accept_vacant
    {before after : Interpreter} {envelope : Envelope} {path : List Origin}
    (empty : before.supervisor.registry.actors = [])
    (accepted : accept? envelope path before = some after) :
    after = before.onSupervisor fun supervisor => supervisor.keep envelope := by
  cases path with
  | nil => exact (Option.some.inj accepted).symm
  | cons origin path =>
      obtain ⟨_, _, _, found, _⟩ := accept?_cons.mp accepted
      have vacant : before.supervisor.registry.actor? origin.id = none := by
        unfold Registry.actor? Table.get?
        rw [empty]
        rfl
      simp [Registry.childMachine?, vacant] at found

theorem accept_stays
    {before after : Interpreter} {envelope : Envelope} {path : List Origin}
    (empty : before.supervisor.registry.actors = [])
    (accepted : accept? envelope path before = some after) :
    before.Stays after := by
  rw [accept_vacant empty accepted]
  exact ⟨⟨rfl, rfl, rfl, rfl, rfl⟩, rfl⟩

end Staying

/-- An interpreter that does not run has no actors, and one that has failed shows the state
that it has kept, and the failure. -/
structure Settled (interpreter : Interpreter) : Prop where
  rests : interpreter.status ≠ .running → interpreter.supervisor.registry.actors = []
  failed : interpreter.status = .error → ∃ failure, interpreter.snapshot =
    { Snapshot.ofState interpreter.state .error interpreter.snapshot.lastEvent with
      failure := some failure }

theorem settled_of_running
    {interpreter : Interpreter}
    (running : interpreter.status = .running) :
    interpreter.Settled :=
  ⟨fun rests => absurd running rests,
    fun failed => absurd (running.symm.trans failed) (by decide)⟩

theorem settled_of_ended
    {interpreter : Interpreter}
    (empty : interpreter.supervisor.registry.actors = [])
    (unfailed : interpreter.status ≠ .error) :
    interpreter.Settled :=
  ⟨fun _ => empty, fun failed => absurd failed unfailed⟩

theorem Settled.vacant
    {interpreter : Interpreter}
    (settled : interpreter.Settled)
    (ended : interpreter.status.isTerminal = true) :
    interpreter.supervisor.registry.actors = [] :=
  settled.rests (Status.rests_of_terminal ended)

theorem Settled.stays
    {before after : Interpreter}
    (settled : before.Settled)
    (stays : before.Stays after) :
    after.Settled := by
  constructor
  · intro status
    rw [stays.registry]
    exact settled.rests (stays.status ▸ status)
  · intro status
    rw [stays.snapshot, stays.state]
    exact settled.failed (stays.status ▸ status)

section Settling

variable (facilities : Facilities) (nursery : Nursery) {interpreter : Interpreter}

theorem conclude_ends
    (balanced : interpreter.supervisor.registry.Balanced)
    (event : Event) (status : Status) :
    (interpreter.conclude facilities nursery event status).2.status = status ∧
      (interpreter.conclude facilities nursery event status).2.supervisor.registry.actors =
        [] := by
  have told := (stays_publish ({ interpreter.commit ((interpreter.engine facilities
    nursery).exitAll event interpreter.bench).2 with status } : Interpreter).refresh).trans
      (stays_complete _)
  refine ⟨told.status, ?_⟩
  exact (congrArg Registry.actors told.registry).trans
    ((interpreter.engine facilities nursery).exitAll_empties event balanced)

/-- What a failure leaves: the state that was there, no actors, and a snapshot that carries
the failure. -/
theorem fail_ends
    (balanced : interpreter.supervisor.registry.Balanced)
    (failure : Failure) :
    let after := interpreter.fail nursery failure
    after.state = interpreter.state ∧ after.status = .error ∧
      after.snapshot = { Snapshot.ofState interpreter.state .error
        interpreter.snapshot.lastEvent with failure := some failure } ∧
      after.supervisor.registry.actors = [] := by
  let cleared := interpreter.onSupervisor fun supervisor => supervisor.stopAll nursery
  let refreshed := ({ cleared with status := .error } : Interpreter).refresh
  let failed := { refreshed with snapshot := { refreshed.snapshot with
    failure := some failure } }
  have told : failed.Stays (interpreter.fail nursery failure) :=
    ((stays_publish failed).trans (stays_tellEnd _ fun listener => .failed listener failure)).trans
      (stays_complete _)
  exact ⟨told.state, told.status, told.snapshot,
    (congrArg Registry.actors told.registry).trans (Supervisor.stopAll_empties balanced)⟩

/-- What a failed step leaves: the state that was there before, no actors, and a snapshot
that carries the event and the failure. -/
theorem abandon_ends
    (interpreter : Interpreter) {bench : Workbench}
    (balanced : bench.supervisor.registry.Balanced)
    (event : Event) (failure : Failure) :
    let after := interpreter.abandon nursery event failure bench
    after.state = interpreter.state ∧ after.status = .error ∧
      after.snapshot = { Snapshot.ofState interpreter.state .error (some event) with
        failure := some failure } ∧
      after.supervisor.registry.actors = [] := by
  have diagnosed := stays_reported interpreter event true bench
  rw [abandon_eq]
  generalize interpreter.reported event true bench = reported at diagnosed ⊢
  have state : (reported.withLastEvent event).state = interpreter.state := diagnosed.state
  have stillBalanced : (reported.withLastEvent event).supervisor.registry.Balanced :=
    diagnosed.registry.symm ▸ balanced
  have failed := fail_ends nursery stillBalanced failure
  rw [state] at failed
  exact failed

/-- What a step that went well leaves: the new state and the actors that the step left, or,
if the machine is done, no actors. -/
theorem settle_ends
    (interpreter : Interpreter) {bench : Workbench}
    (balanced : bench.supervisor.registry.Balanced)
    (event : Event) (handled : Bool) :
    let after := interpreter.settle facilities nursery event handled bench
    after.status = .done ∧ after.supervisor.registry.actors = [] ∨
      after.status = interpreter.status ∧ after.state = bench.state ∧
        after.supervisor.registry = bench.supervisor.registry := by
  have told := stays_reported interpreter event handled bench
  rw [settle_eq]
  split
  · have stillBalanced : (interpreter.steppedTo event handled
        bench).supervisor.registry.Balanced :=
      told.registry.symm ▸ balanced
    exact .inl (conclude_ends facilities nursery stillBalanced event .done)
  · have shown := stays_publish (interpreter.steppedTo event handled bench).refresh
    exact .inr ⟨shown.status.trans told.status, shown.state, shown.registry.trans told.registry⟩

theorem run_settled
    {step : Engine → Event → StepM Bool}
    (running : interpreter.status = .running)
    (balanced : interpreter.supervisor.registry.Balanced)
    (event : Event)
    (diligent : Diligent facilities nursery
      (step (interpreter.engine facilities nursery) event)) :
    (leftBy (run facilities nursery event step) interpreter).Settled := by
  apply Ends.leftBy
  have stepped := diligent interpreter.bench
  rw [ends_iff_run] at stepped
  simp only [run, ends_bind, ends_get]
  split
  · rename_i handled bench ran
    have works : Supervisor.Works facilities nursery interpreter.supervisor bench.supervisor :=
      stepped.1 handled bench ran
    rcases settle_ends facilities nursery interpreter (works.proceeds.balanced balanced) event
        handled with ⟨status, empty⟩ | ⟨status, _⟩
    · exact settled_of_ended empty (by rw [status]; decide)
    · exact settled_of_running (status.trans running)
  · rename_i failure bench ran
    have works : Supervisor.Works facilities nursery interpreter.supervisor bench.supervisor :=
      stepped.2 failure bench ran
    obtain ⟨state, status, snapshot, empty⟩ :=
      abandon_ends nursery interpreter (works.proceeds.balanced balanced) event failure
    refine ⟨fun _ => empty, fun _ => ⟨failure, ?_⟩⟩
    rw [state, snapshot]
    rfl

theorem stop_settled
    (settled : interpreter.Settled)
    (balanced : interpreter.supervisor.registry.Balanced) :
    (leftBy (stop facilities nursery) interpreter).Settled := by
  refine Ends.leftBy ?_
  simp only [stop, ends_bind, ends_get]
  split
  · obtain ⟨status, empty⟩ := conclude_ends facilities nursery balanced Event.stop .stopped
    have concluded := settled_of_ended empty (by rw [status]; decide)
    simp only [stopRunning, ends_bind, ends_get, ends_set]
    split <;> exact concluded
  · rename_i unstarted
    have empty := settled.rests (by rw [unstarted]; decide)
    refine Settled.stays (settled_of_ended ?_ ?_) (stays_complete _)
    · exact empty
    · exact (by decide : Status.stopped ≠ .error)
  all_goals exact settled

theorem stop_empties
    (settled : interpreter.Settled)
    (balanced : interpreter.supervisor.registry.Balanced) :
    (leftBy (stop facilities nursery) interpreter).supervisor.registry.actors = [] := by
  have ends : Ends (stop facilities nursery) interpreter
      (fun _ after => after.supervisor.registry.actors = [])
      (fun _ after => after.supervisor.registry.actors = []) := by
    simp only [stop, ends_bind, ends_get]
    split
    · have empty := (conclude_ends facilities nursery balanced Event.stop .stopped).2
      simp only [stopRunning, ends_bind, ends_get, ends_set]
      split <;> exact empty
    · rename_i unstarted
      have empty := settled.rests (by rw [unstarted]; decide)
      exact (congrArg Registry.actors (stays_complete _).registry).trans empty
    all_goals
      rename_i ended
      exact settled.rests (by rw [ended]; decide)
  exact ends.leftBy

theorem resume_settled
    (running : interpreter.status = .running)
    (empty : interpreter.supervisor.registry.actors = [])
    (event : Event) :
    (interpreter.resume facilities nursery event).Settled := by
  unfold resume
  split
  · refine Settled.stays (settled_of_ended ?_ ?_)
      ((stays_publish _).trans (stays_complete _))
    · exact empty
    · exact (by decide : Status.done ≠ .error)
  · exact settled_of_running ((stays_publish _).status.trans running)

end Settling

/-- Before any step is taken an envelope does nothing to the interpreter but what it does to
the actors. -/
theorem receive_alike
    (nursery : Nursery) (interpreter : Interpreter) (envelope : Envelope) :
    interpreter.Alike (interpreter.receive nursery envelope).readied := by
  have handles : Handles nursery fun after => interpreter.Alike after :=
    { dismiss := fun _ _ _ _ alike => alike.trans ⟨rfl, rfl, rfl, rfl, rfl⟩
      deliver := fun _ _ _ alike => alike.trans ⟨rfl, rfl, rfl, rfl, rfl⟩
      wake := fun _ _ alike => alike.trans ⟨rfl, rfl, rfl, rfl, rfl⟩
      sendUp := fun _ _ alike => alike.trans ⟨rfl, rfl, rfl, rfl, rfl⟩ }
  exact handles.receive (.refl interpreter) envelope

section Living

variable {facilities : Facilities} {nursery : Nursery} {start before after : Interpreter}
variable {dealings : List Dealing}

theorem dispatch_settled
    {taken : Interpreter}
    (running : taken.status = .running)
    (balanced : taken.supervisor.registry.Balanced)
    (envelope : Envelope) :
    (leftBy (dispatch facilities nursery envelope) taken).Settled := by
  by_cases stops : envelope = .stop
  · subst stops
    exact stop_settled facilities nursery (settled_of_running running) balanced
  · have received : Works facilities nursery taken
        (taken.receive nursery envelope).readied := receive_works taken envelope
    have stillRunning := (receive_alike nursery taken envelope).status.trans running
    rw [leftBy_dispatch taken stops]
    cases (taken.receive nursery envelope).heard with
    | none => exact settled_of_running stillRunning
    | some event =>
        exact run_settled facilities nursery stillRunning (received.proceeds.balanced balanced)
          event (Engine.macrostep_dutiful _ event).diligent

theorem Interlude.settled
    (interlude : Interlude facilities nursery before after)
    (settled : before.Settled)
    (balanced : before.supervisor.registry.Balanced) :
    after.Settled := by
  have vacant : before.status = .notStarted → before.supervisor.registry.actors = [] :=
    fun unstarted => settled.rests (by rw [unstarted]; decide)
  cases interlude with
  | begin =>
      have running : ({ before with status := .running } : Interpreter).status = .running := rfl
      exact run_settled facilities nursery running balanced _
        (Engine.firstStep_dutiful _ _).diligent
  | resume unstarted =>
      have running : ({ before with status := .running } : Interpreter).status = .running := rfl
      exact resume_settled facilities nursery running (vacant unstarted) _
  | redeem => exact settled.stays (stays_recallDeferred before)
  | defer event => exact settled.stays ⟨⟨rfl, rfl, rfl, rfl, rfl⟩, rfl⟩
  | accept envelope path accepted =>
      by_cases running : after.status = .running
      · exact settled_of_running running
      · have status := (accept_turns accepted).2.1
        exact settled.stays (accept_stays (settled.rests (status ▸ running)) accepted)
  | stop => exact stop_settled facilities nursery settled balanced
  | clear => exact settled.stays ⟨⟨rfl, rfl, rfl, rfl, rfl⟩, rfl⟩
  | watch board => exact settled.stays ⟨⟨rfl, rfl, rfl, rfl, rfl⟩, rfl⟩

/-- In the course of its life an interpreter has actors only while it runs. -/
theorem Course.settled
    (course : Course facilities nursery start dealings after)
    (settled : start.Settled)
    (balanced : start.supervisor.registry.Balanced) :
    after.Settled := by
  induction course with
  | rest => exact settled
  | @deal _ before taken envelope lived running found ih =>
      have toTaken := (nextEnvelope?_elapses found)
      exact dispatch_settled (toTaken.2.trans running)
        (toTaken.1.balanced (lived.lasts.balanced balanced)) envelope
  | pause lived interlude ih => exact interlude.settled ih (lived.lasts.balanced balanced)
  | unload _ ih => exact ih.stays (stays_drained _)

theorem Fresh.settled
    (fresh : start.Fresh) :
    start.Settled where
  rests := fun _ => by rw [fresh.unstaffed]; rfl
  failed := fun failed => absurd (fresh.unstarted.symm.trans failed) (by decide)

/-- Nothing brings an interpreter that has ended back to life. -/
theorem Interlude.stays
    (interlude : Interlude facilities nursery before after)
    (ended : before.status.isTerminal = true)
    (empty : before.supervisor.registry.actors = []) :
    before.Stays after := by
  have begun : before.status ≠ .notStarted := fun unstarted => by
    simp [unstarted, Status.isTerminal] at ended
  cases interlude with
  | begin unstarted => exact absurd unstarted begun
  | resume unstarted => exact absurd unstarted begun
  | redeem => exact stays_recallDeferred before
  | defer event unstarted => exact absurd unstarted begun
  | accept envelope path accepted => exact accept_stays empty accepted
  | stop =>
      rw [stop_of_terminal ended]
      exact .refl before
  | clear => exact ⟨⟨rfl, rfl, rfl, rfl, rfl⟩, rfl⟩
  | watch board => exact ⟨⟨rfl, rfl, rfl, rfl, rfl⟩, rfl⟩

/-- From its end on an interpreter deals with nothing and stays as it is. -/
theorem Course.stays
    (course : Course facilities nursery start dealings after)
    (ended : start.status.isTerminal = true)
    (empty : start.supervisor.registry.actors = []) :
    dealings = [] ∧ start.Stays after := by
  induction course with
  | rest => exact ⟨rfl, .refl start⟩
  | deal _ running _ ih =>
      rw [← ih.2.status, running] at ended
      exact absurd ended (by decide)
  | pause _ interlude ih =>
      obtain ⟨nothing, stays⟩ := ih
      exact ⟨nothing, stays.trans (interlude.stays (stays.status.symm ▸ ended)
        ((congrArg Registry.actors stays.registry).trans empty))⟩
  | unload _ ih => exact ⟨ih.1, ih.2.trans (stays_drained _)⟩

end Living

end Interpreter

end Statechart
