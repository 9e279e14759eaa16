import Statechart.Proofs.FailedSteps
import Statechart.Proofs.RecordInvariants

/-!
# Standings

What is asked of the state of an interpreter may depend on its status: one that runs may
have to be calm, one that is done complete.  A machine upholds this if each of its steps
that go well leads from a state of which it holds to such a state.  Then it holds in the
whole course of the life of an interpreter, and an interpreter that runs always shows the
state that it has.
-/

namespace Statechart

/-- What is asked of the state of an interpreter, given its status. -/
abbrev Standard := Status → StepState → Prop

/-- The state that a step leaves meets the standard: if the machine is done, whatever the
exit actions that follow do, and otherwise as the state of one that runs on. -/
structure Standard.Met (asks : Standard) (state : StepState) : Prop where
  done : state.done = true → ∀ last : StepState, last.active = state.active → asks .done last
  undone : state.done = false → asks .running state

/-- Every step of the machine that goes well, from a state that meets the standard, leads to
such a state, and so does taking up a restored state if there is one.  Of interpreters that
were stopped or have failed nothing is asked. -/
structure Machine.Upholds (machine : Machine ActorLogic) (asks : Standard) (restored : Bool) :
    Prop where
  excused : ∀ status state, status = .stopped ∨ status = .error → asks status state
  firstStep : ∀ {engine : Engine} (event : Event) {bench : Workbench},
    engine.machine = machine → asks .notStarted bench.state →
      Ends (engine.firstStep event) bench (fun _ after => asks.Met after.state)
        (fun _ _ => True)
  macrostep : ∀ {engine : Engine} (event : Event) {bench : Workbench},
    engine.machine = machine → asks .running bench.state →
      Ends (engine.macrostep event) bench (fun _ after => asks.Met after.state)
        (fun _ _ => True)
  resume : restored = true → ∀ {state : StepState}, asks .notStarted state → asks.Met state

namespace Interpreter

/-- The state of the interpreter, restored or not, meets the standard, and it is shown while
the interpreter runs. -/
structure Stands (machine : Machine ActorLogic) (asks : Standard) (restored : Bool)
    (interpreter : Interpreter) : Prop where
  runs : interpreter.machine = machine
  origin : interpreter.restored = restored
  meets : asks interpreter.status interpreter.state
  shows : interpreter.status = .running → interpreter.snapshot =
    Snapshot.ofState interpreter.state .running interpreter.snapshot.lastEvent

section Standing

variable {machine : Machine ActorLogic} {asks : Standard} {restored : Bool}
variable {facilities : Facilities} {nursery : Nursery}
variable {before after start interpreter : Interpreter}

theorem Stands.alike
    (stands : before.Stands machine asks restored)
    (alike : before.Alike after) :
    after.Stands machine asks restored where
  runs := alike.machine.trans stands.runs
  origin := alike.restored.trans stands.origin
  meets := by
    rw [alike.status, alike.state]
    exact stands.meets
  shows running := by
    rw [alike.snapshot, alike.state]
    exact stands.shows (alike.status ▸ running)

theorem stands_refresh
    (runs : interpreter.machine = machine)
    (origin : interpreter.restored = restored)
    (meets : asks interpreter.status interpreter.state) :
    interpreter.refresh.Stands machine asks restored where
  runs := runs
  origin := origin
  meets := meets
  shows running := by
    change Snapshot.ofState interpreter.state interpreter.status _ = _
    rw [show interpreter.status = .running from running]
    rfl

/-- A new interpreter has a first context, and nothing else. -/
theorem Born.stands
    (born : Born machine start)
    (meets : ∀ context, asks .notStarted { context }) :
    start.Stands machine asks false := by
  cases born with
  | alone settings => exact ⟨rfl, rfl, meets _, fun running => by cases running⟩
  | child self input => exact ⟨rfl, rfl, meets _, fun running => by cases running⟩

theorem nextEnvelope?_alike
    {envelope : Envelope}
    (found : before.nextEnvelope? = some (envelope, after)) :
    before.Alike after := by
  rw [(nextEnvelope?_eq found).2]
  exact ⟨rfl, rfl, rfl, rfl, rfl⟩

/-- A run that went well has settled what its step came to. -/
theorem run_eq_ok
    {step : Engine → Event → StepM Bool} {event : Event}
    (ran : (run facilities nursery event step).run before = .ok () after) :
    ∃ handled bench, (step (before.engine facilities nursery) event).run before.bench =
        .ok handled bench ∧
      after = before.settle facilities nursery event handled bench := by
  unfold run at ran
  rw [run_get_bind] at ran
  cases stepped : (step (before.engine facilities nursery) event).run before.bench with
  | ok handled bench =>
      rw [stepped] at ran
      cases ran
      exact ⟨handled, bench, rfl, rfl⟩
  | error failure bench =>
      rw [stepped] at ran
      cases ran

theorem conclude_stands
    (facilities : Facilities) (nursery : Nursery) {status : Status}
    (runs : interpreter.machine = machine)
    (origin : interpreter.restored = restored)
    (ended : ∀ last : StepState, last.active = interpreter.state.active → asks status last)
    (event : Event) :
    (interpreter.conclude facilities nursery event status).2.Stands machine asks restored ∧
      (interpreter.conclude facilities nursery event status).2.status = status ∧
      (interpreter.conclude facilities nursery event status).2.state.active =
        interpreter.state.active := by
  let bench := ((interpreter.engine facilities nursery).exitAll event interpreter.bench).2
  obtain ⟨active, _⟩ := Engine.exitAll_ends (interpreter.engine facilities nursery) event
    interpreter.bench
  have refreshed : ({ interpreter.commit bench with status } : Interpreter).refresh.Stands
      machine asks restored :=
    stands_refresh runs origin (ended bench.state active)
  have told : ({ interpreter.commit bench with status } : Interpreter).refresh.Alike
      (interpreter.conclude facilities nursery event status).2 :=
    ((stays_publish _).trans (stays_complete _)).toAlike
  exact ⟨refreshed.alike told, told.status, told.state ▸ active⟩

/-- What becomes of a running interpreter by a step that goes well: it is done if the machine
is, and otherwise runs on with the state of the step; in both cases the active states are
those of the step. -/
theorem settle_stands
    {bench : Workbench}
    (runs : interpreter.machine = machine)
    (origin : interpreter.restored = restored)
    (running : interpreter.status = .running)
    (met : asks.Met bench.state)
    (event : Event) (handled : Bool) :
    let after := interpreter.settle facilities nursery event handled bench
    after.Stands machine asks restored ∧ after.state.active = bench.state.active ∧
      (bench.state.done = true ∧ after.status = .done ∨
        bench.state.done = false ∧ after.status = .running ∧ after.state = bench.state) := by
  have told := stays_reported interpreter event handled bench
  let stepped := interpreter.steppedTo event handled bench
  have steppedRuns : stepped.machine = machine := told.machine.trans runs
  have steppedStatus : stepped.status = .running := told.status.trans running
  have steppedOrigin : stepped.restored = restored := told.restored.trans origin
  rw [settle_eq]
  split
  · rename_i done
    obtain ⟨stands, status, active⟩ :=
      conclude_stands facilities nursery steppedRuns steppedOrigin (met.done done) event
    exact ⟨stands, active, .inl ⟨done, status⟩⟩
  · rename_i undone
    have undone := Bool.eq_false_iff.mpr undone
    have meets : asks stepped.status stepped.state := by
      rw [steppedStatus]
      exact met.undone undone
    have shown := stays_publish stepped.refresh
    exact ⟨(stands_refresh steppedRuns steppedOrigin meets).alike shown.toAlike,
      congrArg StepState.active shown.state,
      .inr ⟨undone, shown.status.trans steppedStatus, shown.state⟩⟩

variable (upheld : machine.Upholds asks restored)

include upheld

theorem fail_stands
    (runs : interpreter.machine = machine)
    (origin : interpreter.restored = restored)
    (failure : Failure) :
    (interpreter.fail nursery failure).Stands machine asks restored := by
  unfold fail
  refine Stands.alike ?_
    (((stays_publish _).trans (stays_tellEnd _ _)).trans (stays_complete _)).toAlike
  refine ⟨runs, origin, upheld.excused _ _ (.inr rfl), ?_⟩
  rintro ⟨⟩

theorem run_stands
    {step : Engine → Event → StepM Bool}
    (runs : interpreter.machine = machine)
    (origin : interpreter.restored = restored)
    (running : interpreter.status = .running)
    (event : Event)
    (met : Ends (step (interpreter.engine facilities nursery) event) interpreter.bench
      (fun _ after => asks.Met after.state) (fun _ _ => True)) :
    (leftBy (run facilities nursery event step) interpreter).Stands machine asks restored := by
  apply Ends.leftBy
  rw [ends_iff_run] at met
  simp only [run, ends_bind, ends_get]
  split
  · rename_i handled bench ran
    exact (settle_stands runs origin running (met.1 handled bench ran) event handled).1
  · rename_i failure bench ran
    let stepped := (interpreter.reported event true bench).withLastEvent event
    have told := stays_reported interpreter event true bench
    have steppedRuns : stepped.machine = machine := told.machine.trans runs
    have steppedOrigin : stepped.restored = restored := told.restored.trans origin
    rw [ends_bind, ends_set, ends_throw, abandon_eq]
    exact fail_stands upheld steppedRuns steppedOrigin failure

theorem stop_stands
    (stands : interpreter.Stands machine asks restored) :
    (leftBy (stop facilities nursery) interpreter).Stands machine asks restored := by
  have stopped : ∀ last : StepState, asks .stopped last :=
    fun last => upheld.excused _ last (.inl rfl)
  refine Ends.leftBy ?_
  simp only [stop, ends_bind, ends_get]
  split
  · obtain ⟨concluded, _⟩ := conclude_stands facilities nursery stands.runs stands.origin
      (fun last _ => stopped last) Event.stop
    simp only [stopRunning, ends_bind, ends_get, ends_set]
    split <;> exact concluded
  · refine Stands.alike ?_ (stays_complete _).toAlike
    refine ⟨stands.runs, stands.origin, stopped _, ?_⟩
    rintro ⟨⟩
  all_goals exact stands

theorem resume_stands
    (stands : interpreter.Stands machine asks restored)
    (unstarted : interpreter.status = .notStarted)
    (isRestored : interpreter.restored = true)
    (event : Event) :
    (({ interpreter with status := .running } : Interpreter).resume facilities nursery
      event).Stands machine asks restored := by
  let begun : Interpreter := { interpreter with status := .running }
  have meets := stands.meets
  rw [unstarted] at meets
  have met := upheld.resume (stands.origin.symm.trans isRestored) meets
  unfold resume
  split
  · rename_i done
    have refreshed : ({ interpreter with status := .done } : Interpreter).refresh.Stands
        machine asks restored :=
      stands_refresh stands.runs stands.origin (met.done done _ rfl)
    exact refreshed.alike ((stays_publish _).trans (stays_complete _)).toAlike
  · rename_i undone
    let bench := (begun.engine facilities nursery).resume event begun.bench
    have same : bench.state = interpreter.state :=
      Engine.state_resume (begun.engine facilities nursery) event begun.bench
    have meets : asks .running bench.state := by
      rw [same]
      exact met.undone (Bool.eq_false_iff.mpr undone)
    have refreshed : ((begun.commit bench).withLastEvent event).refresh.Stands machine asks
        restored :=
      stands_refresh stands.runs stands.origin meets
    exact refreshed.alike (stays_publish _).toAlike

theorem Stands.process
    (stands : interpreter.Stands machine asks restored)
    (running : interpreter.status = .running)
    (event : Event) :
    (leftBy (process facilities nursery event) interpreter).Stands machine asks restored := by
  have meets := stands.meets
  rw [running] at meets
  exact run_stands upheld stands.runs stands.origin running event
    (upheld.macrostep event stands.runs meets)

theorem Stands.first
    (stands : interpreter.Stands machine asks restored)
    (unstarted : interpreter.status = .notStarted)
    (event : Event) :
    (leftBy (run facilities nursery event Engine.firstStep)
      { interpreter with status := .running }).Stands machine asks restored := by
  let begun : Interpreter := { interpreter with status := .running }
  have runs : begun.machine = machine := stands.runs
  have meets := stands.meets
  rw [unstarted] at meets
  exact run_stands upheld runs stands.origin rfl event (upheld.firstStep event runs meets)

theorem Stands.dispatch
    (stands : interpreter.Stands machine asks restored)
    (running : interpreter.status = .running)
    (envelope : Envelope) :
    (leftBy (dispatch facilities nursery envelope) interpreter).Stands machine asks restored := by
  by_cases stops : envelope = .stop
  · subst stops
    exact stop_stands upheld stands
  · have alike := receive_alike nursery interpreter envelope
    rw [leftBy_dispatch interpreter stops]
    cases (interpreter.receive nursery envelope).heard with
    | none => exact stands.alike alike
    | some event => exact (stands.alike alike).process upheld (alike.status.trans running) event

theorem Interlude.stands
    (interlude : Interlude facilities nursery before after)
    (stands : before.Stands machine asks restored) :
    after.Stands machine asks restored := by
  cases interlude with
  | begin unstarted _ => exact stands.first upheld unstarted _
  | resume unstarted isRestored => exact resume_stands upheld stands unstarted isRestored _
  | redeem => exact stands.alike (stays_recallDeferred _).toAlike
  | defer event => exact stands.alike ⟨rfl, rfl, rfl, rfl, rfl⟩
  | accept envelope path accepted => exact stands.alike (World.accept_silent accepted).toAlike
  | stop => exact stop_stands upheld stands
  | clear => exact stands.alike ⟨rfl, rfl, rfl, rfl, rfl⟩
  | watch board => exact stands.alike ⟨rfl, rfl, rfl, rfl, rfl⟩

/-- In the course of its life an interpreter keeps to what its machine upholds. -/
theorem Passes.stands
    (passes : Passes facilities nursery before after)
    (stands : before.Stands machine asks restored) :
    after.Stands machine asks restored := by
  obtain ⟨dealings, course⟩ := passes
  induction course with
  | rest => exact stands
  | @deal _ _ taken envelope _ running found ih =>
      have alike := nextEnvelope?_alike found
      exact (ih.alike alike).dispatch upheld (alike.status.trans running) envelope
  | pause _ interlude ih => exact interlude.stands upheld ih
  | unload _ ih => exact ih.alike (stays_drained _).toAlike

theorem Undertakes.met
    {committed working : Interpreter} {step : Engine → Event → StepM Bool}
    (undertakes : Undertakes facilities nursery committed working step)
    (stands : committed.Stands machine asks restored)
    (event : Event) :
    working.machine = machine ∧ working.restored = restored ∧ working.status = .running ∧
      Ends (step (working.engine facilities nursery) event) working.bench
        (fun _ after => asks.Met after.state) (fun _ _ => True) := by
  have meets := stands.meets
  cases undertakes with
  | first _ unstarted =>
      rw [unstarted] at meets
      exact ⟨stands.runs, stands.origin, rfl, upheld.firstStep event stands.runs meets⟩
  | next _ running =>
      rw [running] at meets
      exact ⟨stands.runs, stands.origin, running, upheld.macrostep event stands.runs meets⟩
  | @heard taken envelope _ running found =>
      have alike := (nextEnvelope?_alike found).trans
        (receive_alike nursery taken envelope)
      have runs := alike.machine.trans stands.runs
      rw [running, ← alike.state] at meets
      exact ⟨runs, alike.restored.trans stands.origin, alike.status.trans running,
        upheld.macrostep event runs meets⟩

end Standing

section Showing

variable {facilities : Facilities} {nursery : Nursery} {start interpreter : Interpreter}

theorem upholds_nothing (machine : Machine ActorLogic) (restored : Bool) :
    machine.Upholds (fun _ _ => True) restored := by
  have met : ∀ state, Standard.Met (fun _ _ => True) state :=
    fun _ => ⟨fun _ _ _ => trivial, fun _ => trivial⟩
  refine ⟨fun _ _ _ => trivial, ?_, ?_, fun _ _ _ => met _⟩
  all_goals
    intro engine event bench _ _
    exact ends_iff_run.mpr ⟨fun _ _ _ => met _, fun _ _ _ => trivial⟩

/-- While it runs, an interpreter shows the state that it has, however its life began. -/
theorem Passes.shows
    (passes : Passes facilities nursery start interpreter)
    (fresh : start.Fresh)
    (running : interpreter.status = .running) :
    interpreter.machine = start.machine ∧
      interpreter.snapshot.Shows interpreter.state .running := by
  have stands : start.Stands start.machine (fun _ _ => True) start.restored :=
    ⟨rfl, rfl, trivial, fun runs => by rw [fresh.unstarted] at runs; cases runs⟩
  have stands := passes.stands (upholds_nothing _ _) stands
  rw [stands.shows running]
  exact ⟨stands.runs, rfl, rfl, rfl, rfl⟩

end Showing

end Interpreter

end Statechart
