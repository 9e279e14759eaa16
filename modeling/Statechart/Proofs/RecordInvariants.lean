import Statechart.Proofs.IdleInterpreters
import Statechart.Proofs.KeptRecords
import Statechart.Proofs.WorldCourses

/-!
# What an interpreter remembers

What the steps of a machine maintain holds of all that an interpreter keeps and shows,
whatever is done with it.  So the records are a sorted table from history states to states
of the chart; and if they are sound when the interpreter is made, new or restored, they stay
sound.
-/

namespace Statechart

theorem Chart.Remembers.keeps
    {chart : Chart} {before after : HistoryRecords}
    (remembers : chart.Remembers before after)
    (keeps : chart.Keeps before) :
    chart.Keeps after := by
  induction remembers with
  | refl => exact keeps
  | tail _ last ih =>
      obtain ⟨active, exiting, rfl⟩ := last
      exact ih.recordHistory active exiting

/-- Every step of the machine that goes well, from active states and records of which this
holds, leads to such again. -/
structure Machine.Maintains (machine : Machine ActorLogic)
    (holds : Configuration → HistoryRecords → Prop) : Prop where
  firstStep : ∀ {engine : Engine} (event : Event) {bench : Workbench},
    engine.machine = machine → holds bench.state.active bench.state.history →
      Ends (engine.firstStep event) bench
        (fun _ after => holds after.state.active after.state.history) (fun _ _ => True)
  macrostep : ∀ {engine : Engine} (event : Event) {bench : Workbench},
    engine.machine = machine → holds bench.state.active bench.state.history →
      Ends (engine.macrostep event) bench
        (fun _ after => holds after.state.active after.state.history) (fun _ _ => True)

theorem Machine.maintains_keeps (machine : Machine ActorLogic) :
    machine.Maintains fun _ history => machine.chart.Keeps history where
  firstStep := by
    rintro engine event bench rfl keeps
    exact (Engine.firstStep_dutiful engine event bench).mono
      (fun _ _ toils => toils.history.keeps keeps) fun _ _ _ => trivial
  macrostep := by
    rintro engine event bench rfl keeps
    exact (Engine.macrostep_dutiful engine event bench).mono
      (fun _ _ toils => toils.history.keeps keeps) fun _ _ _ => trivial

theorem Machine.maintains_tenable
    {machine : Machine ActorLogic}
    (formed : machine.WellFormed) :
    machine.Maintains machine.chart.Tenable where
  firstStep event _ runs tenable := Engine.firstStep_tenable _ formed runs event tenable
  macrostep event _ runs tenable := Engine.macrostep_tenable _ formed runs event tenable

namespace Interpreter

/-- This holds of the active states and the records that the interpreter keeps, and of those
that it shows. -/
structure Recollects (machine : Machine ActorLogic)
    (holds : Configuration → HistoryRecords → Prop) (interpreter : Interpreter) : Prop where
  runs : interpreter.machine = machine
  kept : holds interpreter.state.active interpreter.state.history
  shown : holds interpreter.snapshot.active interpreter.snapshot.history

section Recollecting

variable {machine : Machine ActorLogic} {holds : Configuration → HistoryRecords → Prop}
variable {facilities : Facilities} {nursery : Nursery}
variable {before after interpreter : Interpreter}

theorem Recollects.alike
    (recollects : before.Recollects machine holds)
    (alike : before.Alike after) :
    after.Recollects machine holds where
  runs := alike.machine.trans recollects.runs
  kept := by
    rw [alike.state]
    exact recollects.kept
  shown := by
    rw [alike.snapshot]
    exact recollects.shown

theorem recollects_refresh
    (runs : interpreter.machine = machine)
    (kept : holds interpreter.state.active interpreter.state.history) :
    interpreter.refresh.Recollects machine holds :=
  ⟨runs, kept, kept⟩

theorem conclude_recollects
    (runs : interpreter.machine = machine)
    (kept : holds interpreter.state.active interpreter.state.history)
    (event : Event) (status : Status) :
    (interpreter.conclude facilities nursery event status).2.Recollects machine holds := by
  let bench := ((interpreter.engine facilities nursery).exitAll event interpreter.bench).2
  obtain ⟨active, history, _⟩ :=
    Engine.exitAll_ends (interpreter.engine facilities nursery) event interpreter.bench
  have stillKept : holds bench.state.active bench.state.history := by
    rw [active, history]
    exact kept
  have refreshed : ({ interpreter.commit bench with status } : Interpreter).refresh.Recollects
      machine holds :=
    recollects_refresh runs stillKept
  exact refreshed.alike ((stays_publish _).trans (stays_complete _)).toAlike

theorem fail_recollects
    (runs : interpreter.machine = machine)
    (kept : holds interpreter.state.active interpreter.state.history)
    (failure : Failure) :
    (interpreter.fail nursery failure).Recollects machine holds := by
  unfold fail
  refine Recollects.alike ?_
    (((stays_publish _).trans (stays_tellEnd _ _)).trans (stays_complete _)).toAlike
  exact ⟨runs, kept, kept⟩

theorem run_recollects
    {step : Engine → Event → StepM Bool}
    (runs : interpreter.machine = machine)
    (kept : holds interpreter.state.active interpreter.state.history)
    (event : Event)
    (maintained : Ends (step (interpreter.engine facilities nursery) event) interpreter.bench
      (fun _ after => holds after.state.active after.state.history) (fun _ _ => True)) :
    (leftBy (run facilities nursery event step) interpreter).Recollects machine holds := by
  apply Ends.leftBy
  rw [ends_iff_run] at maintained
  simp only [run, ends_bind, ends_get]
  split
  · rename_i handled bench ran
    have stillKept := maintained.1 handled bench ran
    have runsOn : (interpreter.reported event handled bench).machine = machine :=
      (stays_reported interpreter event handled bench).machine.trans runs
    rw [ends_set, settle_eq]
    split
    · refine conclude_recollects ?_ ?_ event .done
      · exact runsOn
      · exact stillKept
    · refine Recollects.alike (recollects_refresh ?_ ?_) (stays_publish _).toAlike
      · exact runsOn
      · exact stillKept
  · rename_i failure bench ran
    have told := stays_reported interpreter event true bench
    rw [ends_bind, ends_set, ends_throw, abandon_eq]
    refine fail_recollects ?_ ?_ failure
    · exact told.machine.trans runs
    · change holds (reported _ _ _ _).state.active (reported _ _ _ _).state.history
      rw [told.state]
      exact kept

theorem stop_recollects
    (recollects : interpreter.Recollects machine holds) :
    (leftBy (stop facilities nursery) interpreter).Recollects machine holds := by
  refine Ends.leftBy ?_
  simp only [stop, ends_bind, ends_get]
  split
  · have concluded : (interpreter.conclude facilities nursery Event.stop
        .stopped).2.Recollects machine holds :=
      conclude_recollects recollects.runs recollects.kept Event.stop .stopped
    simp only [stopRunning, ends_bind, ends_get, ends_set]
    split <;> exact concluded
  · refine Recollects.alike ?_ (stays_complete _).toAlike
    exact ⟨recollects.runs, recollects.kept, recollects.kept⟩
  all_goals exact recollects

theorem resume_recollects
    (recollects : interpreter.Recollects machine holds)
    (event : Event) :
    (interpreter.resume facilities nursery event).Recollects machine holds := by
  unfold resume
  split
  · refine Recollects.alike ?_ ((stays_publish _).trans (stays_complete _)).toAlike
    exact ⟨recollects.runs, recollects.kept, recollects.kept⟩
  · let bench := (interpreter.engine facilities nursery).resume event interpreter.bench
    have resumed : interpreter.bench.Kept bench :=
      Engine.kept_resume (interpreter.engine facilities nursery) event interpreter.bench
    have kept : holds bench.state.active bench.state.history := by
      rw [resumed.active, resumed.history]
      exact recollects.kept
    have refreshed : ((interpreter.commit bench).withLastEvent event).refresh.Recollects
        machine holds :=
      recollects_refresh recollects.runs kept
    exact refreshed.alike (stays_publish _).toAlike

variable (maintained : machine.Maintains holds)

include maintained

theorem dispatch_recollects
    (recollects : interpreter.Recollects machine holds)
    (envelope : Envelope) :
    (leftBy (dispatch facilities nursery envelope) interpreter).Recollects machine holds := by
  by_cases stops : envelope = .stop
  · subst stops
    exact stop_recollects recollects
  · have received := recollects.alike (receive_alike nursery interpreter envelope)
    rw [leftBy_dispatch interpreter stops]
    cases (interpreter.receive nursery envelope).heard with
    | none => exact received
    | some event =>
        exact run_recollects received.runs received.kept event
          (maintained.macrostep event received.runs received.kept)

theorem Interlude.recollects
    (interlude : Interlude facilities nursery before after)
    (recollects : before.Recollects machine holds) :
    after.Recollects machine holds := by
  have begun : ({ before with status := .running } : Interpreter).Recollects machine holds :=
    ⟨recollects.runs, recollects.kept, recollects.shown⟩
  cases interlude with
  | begin =>
      exact run_recollects begun.runs begun.kept _
        (maintained.firstStep _ begun.runs begun.kept)
  | resume => exact resume_recollects begun _
  | redeem => exact recollects.alike (stays_recallDeferred _).toAlike
  | defer event => exact ⟨recollects.runs, recollects.kept, recollects.shown⟩
  | accept envelope path accepted => exact recollects.alike (World.accept_silent accepted).toAlike
  | stop => exact stop_recollects recollects
  | clear => exact ⟨recollects.runs, recollects.kept, recollects.shown⟩
  | watch board => exact ⟨recollects.runs, recollects.kept, recollects.shown⟩

theorem deal_recollects
    {taken : Interpreter} {envelope : Envelope}
    (found : before.nextEnvelope? = some (envelope, taken))
    (recollects : before.Recollects machine holds) :
    (leftBy (dispatch facilities nursery envelope) taken).Recollects machine holds := by
  have taken : taken.Recollects machine holds := by
    rw [(nextEnvelope?_eq found).2]
    exact ⟨recollects.runs, recollects.kept, recollects.shown⟩
  exact dispatch_recollects maintained taken envelope

theorem Advances.recollects
    (advances : Advances facilities nursery before after)
    (recollects : before.Recollects machine holds) :
    after.Recollects machine holds := by
  induction advances with
  | refl => exact recollects
  | tail _ last ih =>
      cases last with
      | deal _ found => exact deal_recollects maintained found ih
      | pursue pursuit => exact pursuit.interlude.recollects maintained ih

/-- In the course of its life an interpreter keeps and shows what the machine maintains. -/
theorem Passes.recollects
    (passes : Passes facilities nursery before after)
    (recollects : before.Recollects machine holds) :
    after.Recollects machine holds := by
  obtain ⟨dealings, course⟩ := passes
  induction course with
  | rest => exact recollects
  | deal _ _ found ih => exact deal_recollects maintained found ih
  | pause _ interlude ih => exact interlude.recollects maintained ih
  | unload _ ih => exact ih.alike (stays_drained _).toAlike

end Recollecting

end Interpreter

namespace World

variable {machine : Machine ActorLogic} {holds : Configuration → HistoryRecords → Prop}
variable (maintained : machine.Maintains holds)
variable {before after : World}

include maintained

theorem perform_recollects
    {answer : Type} {operation : Facilities → Nursery → Handling answer}
    (asked : Interpreter.Asked operation)
    (recollects : before.interpreter.Recollects machine holds) :
    (before.perform operation).2.interpreter.Recollects machine holds := by
  rw [perform_leaves, takeUp_interpreter]
  have left := (perform_advances asked before).recollects maintained recollects
  exact left.alike (Interpreter.stays_drained _).toAlike

theorem Change.recollects
    (change : before.Change after)
    (recollects : before.interpreter.Recollects machine holds) :
    after.interpreter.Recollects machine holds := by
  rcases change_cases change with
    ⟨_, _, asked, rfl⟩ | ⟨_, _, _, accepted, rfl⟩ | ⟨_, _, rfl⟩ | ⟨_, interpreter, _⟩
  · exact perform_recollects maintained asked recollects
  · exact recollects.alike (accept_silent accepted).toAlike
  · exact ⟨recollects.runs, recollects.kept, recollects.shown⟩
  · rwa [interpreter]

/-- Whatever happens in a world, what the machine maintains holds of all that its
interpreter keeps and shows. -/
theorem Becomes.recollects
    (becomes : before.Becomes after)
    (recollects : before.interpreter.Recollects machine holds) :
    after.interpreter.Recollects machine holds :=
  becomes.keeps (fun change => change.recollects maintained) recollects

end World

end Statechart
