import Statechart.Proofs.CompletedStates
import Statechart.Proofs.StepEndings

/-!
# When machines are done

Actions change the context and raise events; they touch neither the active states nor
whether the machine is done.  So while a step enters its states one after another it stays
tracked whether the root has completed, and after every step that goes well the machine is
done exactly if it has.
-/

namespace Statechart

/-- At most the context and the raised events are different. -/
def StepState.Varies (before after : StepState) : Prop :=
  ∃ context raised, after = { before with context, raised }

theorem StepState.Varies.refl (state : StepState) : state.Varies state :=
  ⟨state.context, state.raised, rfl⟩

theorem StepState.Varies.trans
    {first second third : StepState}
    (earlier : first.Varies second)
    (later : second.Varies third) :
    first.Varies third := by
  obtain ⟨_, _, rfl⟩ := earlier
  obtain ⟨context, raised, rfl⟩ := later
  exact ⟨context, raised, rfl⟩

/-- It is tracked on the bench whether the root has completed. -/
def Workbench.Tracked (chart : Chart) (announced : List StateId) (bench : Workbench) : Prop :=
  chart.Tracked bench.state.active announced bench.state.done

/-- The machine is done exactly if the root has completed. -/
def Workbench.Exact (chart : Chart) (bench : Workbench) : Prop :=
  bench.state.done = true ↔ chart.Completed bench.state.active Chart.root

namespace Engine

section Varying

variable (engine : Engine) (event : Event)

theorem varies_foldl
    {item : Type} {step : Workbench → item → Workbench}
    (varies : ∀ (bench : Workbench) (next : item), bench.state.Varies (step bench next).state)
    (items : List item) (bench : Workbench) :
    bench.state.Varies (items.foldl step bench).state :=
  List.foldlRecOn (motive := fun after => bench.state.Varies after.state) items step (.refl _)
    fun middle earlier next _ => earlier.trans (varies middle next)

theorem state_nameOr
    (given : Option String) (stem : String) (bench : Workbench) :
    (bench.nameOr given stem).2.state = bench.state := by
  cases given <;> rfl

theorem state_schedule
    (id : Option String) (delay : Duration) (delivery : Delivery) (bench : Workbench) :
    (engine.schedule id delay delivery bench).state = bench.state :=
  state_nameOr id "delay" bench

theorem varies_obey
    (bench : Workbench) (command : Command) :
    bench.state.Varies (obey bench command).state := by
  cases command with
  | raise raised => exact ⟨_, _, rfl⟩
  | send recipient sent => exact .refl bench.state

theorem perform_varies
    (owner : StateId) (action : Action ActorLogic) (bench : Workbench) :
    Ends (engine.perform event owner action) bench
      (fun _ after => bench.state.Varies after.state) (fun _ _ => True) := by
  cases action with
  | assign name update =>
      simp only [perform, ends_bind, ends_get]
      split
      · exact ⟨_, _, rfl⟩
      · trivial
  | raise make delay id =>
      simp only [perform, ends_bind, ends_get]
      split
      · simp only [ends_modify, state_schedule]
        exact .refl bench.state
      · exact ⟨_, _, rfl⟩
  | send recipient make delay id =>
      simp only [perform, ends_bind, ends_get]
      split
      · simp only [ends_modify, state_schedule]
        exact .refl bench.state
      · exact .refl bench.state
  | cancel id => exact .refl bench.state
  | log label text => exact .refl bench.state
  | spawn id logic input =>
      simp only [perform, ends_bind, ends_get, ends_set]
      exact state_nameOr id _ bench ▸ .refl _
  | stopChild id => exact .refl bench.state
  | effect name run =>
      simp only [perform, ends_bind, ends_get, ends_modify]
      generalize run bench.state.context event = report
      have reveals : ∀ (bench : Workbench) (note : Json),
          bench.state.Varies (bench.reveal (.effect note)).state :=
        fun bench _ => .refl bench.state
      have noted := varies_foldl reveals report.notes bench
      split
      · trivial
      · exact noted.trans (varies_foldl varies_obey _ _)

theorem performAll_varies
    (owner : StateId) (actions : List (Action ActorLogic)) (bench : Workbench) :
    Ends (engine.performAll event owner actions) bench
      (fun _ after => bench.state.Varies after.state) (fun _ _ => True) := by
  induction actions generalizing bench with
  | nil => exact .refl bench.state
  | cons action actions ih =>
      simp only [performAll, ends_bind]
      refine (perform_varies engine event owner action bench).mono ?_ (fun _ _ _ => trivial)
      intro _ middle earlier
      exact (ih middle).mono (fun _ _ later => earlier.trans later) fun _ _ _ => trivial

theorem takeAll_varies
    (chosen : List (Choice ActorLogic)) (bench : Workbench) :
    Ends (engine.takeAll event chosen) bench
      (fun _ after => bench.state.Varies after.state) (fun _ _ => True) := by
  induction chosen generalizing bench with
  | nil => exact .refl bench.state
  | cons choice chosen ih =>
      simp only [takeAll, ends_bind, ends_get]
      refine (performAll_varies engine event _ _ bench).mono ?_ (fun _ _ _ => trivial)
      intro _ middle earlier
      exact (ih middle).mono (fun _ _ later => earlier.trans later) fun _ _ _ => trivial

theorem leaveAll_shrinks
    (states : List StateId) (bench : Workbench) :
    Ends (engine.leaveAll event states) bench
      (fun _ after => (∀ state ∈ after.state.active, state ∈ bench.state.active) ∧
        after.state.done = bench.state.done) (fun _ _ => True) := by
  induction states generalizing bench with
  | nil => exact ⟨fun _ member => member, rfl⟩
  | cons state states ih =>
      simp only [leaveAll, leave, ends_bind, ends_modify]
      refine (performAll_varies engine event _ _ _).mono ?_ (fun _ _ _ => trivial)
      rintro _ middle ⟨context, raised, varied⟩
      refine (ih _).mono ?_ (fun _ _ _ => trivial)
      rintro _ after ⟨fewer, same⟩
      refine ⟨fun other member => ?_, same.trans (by rw [varied]; rfl)⟩
      have kept := (StateSet.mem_remove.mp (fewer other member)).1
      rw [varied] at kept
      exact kept

end Varying

section Entering

variable {engine : Engine} {event : Event} (formed : engine.machine.chart.WellFormed)
variable (rootOpen : engine.machine.chart.isFinal Chart.root = false)

theorem tracked_of_undone
    {chart : Chart} {bench : Workbench}
    (undone : bench.state.done = false)
    (unfinished : ¬ chart.Completed bench.state.active Chart.root ∨
      chart.Completed [] Chart.root ∧
        (∀ child ∈ bench.state.active, chart.isFinal child = false) ∧ ([] : List StateId) = []) :
    bench.Tracked chart [] where
  known _ member := absurd member List.not_mem_nil
  finished done := by
    rw [undone] at done
    cases done
  unfinished _ := unfinished

include formed rootOpen

theorem enter_tracked
    {state : StateId} {announced : List StateId} {bench : Workbench}
    (tracked : bench.Tracked engine.machine.chart announced) :
    Ends (engine.enter event state announced) bench
      (fun announced after => after.Tracked engine.machine.chart announced ∧
        after.state.active = bench.state.active.insert state) (fun _ _ => True) := by
  simp only [enter, ends_bind, ends_modify]
  refine (performAll_varies engine event _ _ _).mono ?_ (fun _ _ _ => trivial)
  rintro _ middle ⟨context, raised, varied⟩
  let settled := engine.delayAll state (engine.invokeAll event state middle)
  have same : settled.state = middle.state := state_settling engine event state middle
  have active : settled.state.active = bench.state.active.insert state := by
    rw [same, varied]
    rfl
  have done : settled.state.done = bench.state.done := by
    rw [same, varied]
    rfl
  cases isFinal : engine.machine.chart.isFinal state with
  | false =>
      simp only [Bool.false_eq_true, if_false, ends_pure]
      refine ⟨?_, active⟩
      change Workbench.Tracked engine.machine.chart announced settled
      unfold Workbench.Tracked
      rw [active, done]
      exact tracked.insert isFinal
  | true =>
      simp only [if_true, ends_bind, ends_get, ends_set, ends_pure]
      have notRoot : state ≠ Chart.root := by
        rintro rfl
        rw [rootOpen] at isFinal
        cases isFinal
      have completed : engine.machine.chart.Completed [] state := .final isFinal
      obtain ⟨parent, below⟩ := formed.parented completed.in_range notRoot
      have places := samePlaces_complete engine.machine state event settled.state announced
      have completed : engine.machine.chart.Tracked settled.state.active
          (engine.machine.complete state event settled.state announced).2
          (engine.machine.complete state event settled.state announced).1.done :=
        Machine.complete_tracked formed below isFinal tracked active done
      rw [← places.1] at completed
      exact ⟨completed, places.1.trans active⟩

theorem enterAll_tracked
    {states announced : List StateId} {bench : Workbench}
    (tracked : bench.Tracked engine.machine.chart announced) :
    Ends (engine.enterAll event states announced) bench
      (fun _ after => (∃ announced, after.Tracked engine.machine.chart announced) ∧
        after.state.active = bench.state.active.insertAll states) (fun _ _ => True) := by
  induction states generalizing announced bench with
  | nil => exact ⟨⟨announced, tracked⟩, rfl⟩
  | cons state states ih =>
      simp only [enterAll, ends_bind]
      refine (enter_tracked formed rootOpen tracked).mono ?_ (fun _ _ _ => trivial)
      rintro announced middle ⟨tracked, active⟩
      refine (ih tracked).mono ?_ (fun _ _ _ => trivial)
      rintro _ after ⟨known, grown⟩
      refine ⟨known, grown.trans ?_⟩
      rw [active, StateSet.insertAll_cons]

/-- Unless the root had completed before, the machine is done after a microstep exactly if
the root has completed by then. -/
theorem microstep_exact
    {chosen : List (Choice ActorLogic)} {bench : Workbench}
    (undone : bench.state.done = false)
    (before : ¬ engine.machine.chart.Completed bench.state.active Chart.root) :
    Ends (engine.microstep event chosen) bench
      (fun _ after => after.Exact engine.machine.chart) (fun _ _ => True) := by
  unfold microstep
  simp only [ends_bind, ends_get, ends_modify]
  refine (leaveAll_shrinks engine event _ _).mono ?_ (fun _ _ _ => trivial)
  rintro _ left ⟨fewer, same⟩
  refine (takeAll_varies engine event chosen left).mono ?_ (fun _ _ _ => trivial)
  rintro _ taken ⟨context, raised, varied⟩
  have same : taken.state.done = false := by
    rw [varied]
    exact same.trans undone
  have fewer : ∀ state ∈ taken.state.active, state ∈ bench.state.active := by
    rw [varied]
    exact fewer
  have tracked : taken.Tracked engine.machine.chart [] :=
    tracked_of_undone same (.inl fun completed =>
      before (completed.mono fun state member _ => fewer state member))
  generalize engine.machine.chart.entries? _ _ = plan
  cases plan with
  | none => exact ends_throw.mpr trivial
  | some entries =>
      refine (enterAll_tracked formed rootOpen tracked).mono ?_ (fun _ _ _ => trivial)
      rintro _ after ⟨⟨announced, tracked⟩, _⟩
      refine tracked.exact fun empty => absurd (empty.mono ?_) before
      exact fun _ member => absurd member List.not_mem_nil

/-- The machine is done after it has entered its first states exactly if the root has
completed by then. -/
theorem initialEntry_exact
    (regioned : engine.machine.chart.Regioned)
    {bench : Workbench}
    (undone : bench.state.done = false)
    (inactive : bench.state.active = []) :
    Ends (engine.enterPlanned event engine.machine.chart.initialEntries?) bench
      (fun _ after => after.Exact engine.machine.chart) (fun _ _ => True) := by
  obtain ⟨entries, started⟩ := Chart.initialEntries_end formed
  have valid := Chart.initialEntries_valid formed started
  have tracked : bench.Tracked engine.machine.chart [] := by
    refine tracked_of_undone undone ?_
    rw [inactive]
    by_cases empty : engine.machine.chart.Completed [] Chart.root
    · exact .inr ⟨empty, fun _ member => absurd member List.not_mem_nil, rfl⟩
    · exact .inl empty
  rw [started]
  refine (enterAll_tracked formed rootOpen tracked).mono ?_ (fun _ _ _ => trivial)
  rintro _ after ⟨⟨announced, tracked⟩, active⟩
  refine tracked.exact fun empty => ?_
  rw [inactive] at active
  rw [active]
  have filled : engine.machine.chart.Completed (StateSet.insertAll entries []) Chart.root :=
    empty.mono fun _ member => absurd member List.not_mem_nil
  have stillValid : engine.machine.chart.Valid (StateSet.insertAll entries []) :=
    valid.congr fun state => by simp
  exact filled.has_final regioned stillValid stillValid.rootActive

end Entering

/-- What a step for this occasion begins with: nothing has been entered, or the root has not
completed; in any case the machine is not done. -/
def Suits (chart : Chart) (bench : Workbench) : Occasion → Prop
  | .start => bench.state.done = false ∧ bench.state.active = []
  | .event => bench.state.done = false ∧ ¬ chart.Completed bench.state.active Chart.root

section Stepping

variable {engine : Engine} (formed : engine.machine.chart.WellFormed)
variable (rootOpen : engine.machine.chart.isFinal Chart.root = false)
variable {occasion : Occasion} {event : Event} {bench last : Workbench}
variable {before after : Moment} {chosen : List (Choice ActorLogic)} {count cost opened : Nat}

include formed rootOpen

theorem exact_of_microstep
    (undone : bench.state.done = false)
    (unfinished : ¬ engine.machine.chart.Completed bench.state.active Chart.root)
    (ran : (engine.microstep event chosen).run bench = .ok () last) :
    last.Exact engine.machine.chart := by
  have ends : Ends (engine.microstep event chosen) bench _ _ :=
    microstep_exact formed rootOpen undone unfinished
  rw [ends_iff_run] at ends
  exact ends.1 () last ran

theorem Round.exact
    (round : engine.Round before cost after)
    (exact : before.bench.Exact engine.machine.chart) :
    after.bench.Exact engine.machine.chart := by
  cases round with
  | microstep finds _ ran =>
      obtain ⟨raised, same⟩ := finds.state
      have undone := finds.undone
      have unfinished := mt exact.mpr (Bool.eq_false_iff.mp undone)
      refine exact_of_microstep formed rootOpen ?_ ?_ ran
      · rw [same]
        exact undone
      · rw [same]
        exact unfinished
  | drop finds =>
      obtain ⟨raised, same⟩ := finds.state
      unfold Workbench.Exact
      rw [same]
      exact exact

theorem Rounds.exact
    (rounds : engine.Rounds before count after)
    (exact : before.bench.Exact engine.machine.chart) :
    after.bench.Exact engine.machine.chart := by
  induction rounds with
  | none => exact exact
  | further _ round ih => exact round.exact formed rootOpen ih

theorem Opens.exact
    (regioned : engine.machine.chart.Regioned)
    (opens : engine.Opens occasion event bench opened after)
    (suits : Suits engine.machine.chart bench occasion) :
    after.bench.Exact engine.machine.chart := by
  cases opens with
  | entry entered =>
      obtain ⟨undone, inactive⟩ := suits
      have ends : Ends (engine.enterPlanned event _) bench _ _ :=
        initialEntry_exact formed rootOpen regioned undone inactive
      rw [ends_iff_run] at ends
      exact ends.1 _ _ entered
  | ignored ignored =>
      obtain ⟨undone, unfinished⟩ := suits
      unfold Workbench.Exact
      rw [select_kept ignored]
      simp [undone, unfinished]
  | taken selected _ ran =>
      obtain ⟨undone, unfinished⟩ := suits
      rw [← select_kept selected] at undone unfinished
      exact exact_of_microstep formed rootOpen undone unfinished ran

/-- After every step that goes well the machine is done exactly if the root has completed. -/
theorem step_exact
    (regioned : engine.machine.chart.Regioned)
    (suits : Suits engine.machine.chart bench occasion) :
    Ends (occasion.step engine event) bench
      (fun _ last => last.Exact engine.machine.chart) (fun _ _ => True) := by
  refine (step_ends engine occasion event bench).mono ?_ (fun _ _ _ => trivial)
  rintro _ last ⟨count, moment, _, ⟨opens, rounds⟩, rests⟩
  have exact := rounds.exact formed rootOpen (opens.exact formed rootOpen regioned suits)
  unfold Workbench.Exact
  rw [rests.calm.1]
  exact exact

end Stepping

end Engine

end Statechart
