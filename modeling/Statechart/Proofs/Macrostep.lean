import Statechart.Proofs.Chronicle
import Statechart.Proofs.Microstep

/-!
# Steps write the chronicle on

What microsteps keep up is kept up by whole steps, however many microsteps they take.  A
bench follows a machine if what has been told so far is a chronicle that leads to its active
states and records.  The first step and every further step end on a bench that follows the
machine, unless they fail.  And if the active states and the records of a bench are tenable,
so are those after a step.
-/

namespace Statechart

/-- What is told of a visit. -/
def Visit.activity (chart : Chart) (visit : Visit) : Activity :=
  if visit.entering then .entered (chart.id visit.state) else .exited (chart.id visit.state)

theorem map_visitAll_entering
    (chart : Chart) (states : List StateId) :
    (visitAll true states).map (Visit.activity chart) =
      states.map fun state => .entered (chart.id state) := by
  simp [visitAll, Visit.activity, Function.comp_def]

theorem map_visitAll_leaving
    (chart : Chart) (states : List StateId) :
    (visitAll false states).map (Visit.activity chart) =
      states.map fun state => .exited (chart.id state) := by
  simp [visitAll, Visit.activity, Function.comp_def]

theorem Visit.activity_isVisit
    (chart : Chart) (visit : Visit) :
    (visit.activity chart).isVisit = true := by
  unfold Visit.activity
  split <;> rfl

theorem visitsIn_map
    (chart : Chart) (visits : List Visit) :
    visitsIn (visits.map (Visit.activity chart)) = visits.map (Visit.activity chart) :=
  visitsIn_of_visits (by simp [Visit.activity_isVisit])

namespace Machine

/-- Some event in some context makes the machine choose these transitions. -/
def Selects (machine : Machine ActorLogic) (active : Configuration)
    (history : HistoryRecords) (chosen : List (Choice ActorLogic)) : Prop :=
  ∃ trigger context event selection,
    machine.select trigger active history context event = .ok selection ∧
      chosen = selection.chosen

theorem Selects.steps
    {machine : Machine ActorLogic} {active : Configuration} {history : HistoryRecords}
    {chosen : List (Choice ActorLogic)} {entries : StateSet}
    (selects : machine.Selects active history chosen)
    (planned : machine.chart.entries?
      (machine.chart.recordedBy active history (chosen.map Choice.move))
      (chosen.map Choice.move) = some entries) :
    machine.Steps active history (chosen.map Choice.move) entries := by
  obtain ⟨trigger, context, event, selection, selected, rfl⟩ := selects
  exact ⟨⟨trigger, context, event, selection, selected, rfl⟩, planned⟩

end Machine

/-- What was told, together with what had been told before, is a chronicle that leads to
where the bench is. -/
def Workbench.Follows (machine : Machine ActorLogic) (past : List Activity)
    (bench : Workbench) : Prop :=
  ∃ visits, machine.Chronicle visits bench.state.active bench.state.history ∧
    visitsIn (past ++ bench.supervisor.account) = visits.map (Visit.activity machine.chart)

theorem Workbench.Follows.kept
    {machine : Machine ActorLogic} {past : List Activity} {before after : Workbench}
    (follows : before.Follows machine past)
    (kept : before.Kept after) :
    after.Follows machine past := by
  obtain ⟨visits, chronicle, told⟩ := follows
  refine ⟨visits, ?_, ?_⟩
  · rw [kept.active, kept.history]
    exact chronicle
  · rw [kept.account]
    exact told

/-- The active states and the records on the bench are tenable. -/
def Workbench.Tenable (chart : Chart) (bench : Workbench) : Prop :=
  chart.Tenable bench.state.active bench.state.history

theorem Workbench.Tenable.kept
    {chart : Chart} {before after : Workbench}
    (tenable : before.Tenable chart)
    (kept : before.Kept after) :
    after.Tenable chart := by
  unfold Workbench.Tenable
  rw [kept.active, kept.history]
  exact tenable

namespace Engine

open Workbench

variable (engine : Engine)

/-- Selecting changes nothing that matters, and what it finds can be selected. -/
theorem select_ends
    (trigger : Trigger) (event : Event) (bench : Workbench) :
    Ends (engine.select trigger event) bench
      (fun chosen after => bench.Stands after ∧
        engine.machine.Selects after.state.active after.state.history chosen)
      (fun _ after => bench.Stands after) := by
  simp only [select, ends_bind, ends_get]
  split
  · exact .refl bench
  · rename_i selection selected
    exact ⟨⟨rfl, rfl, rfl⟩, trigger, _, event, selection, selected, rfl⟩

theorem seek_ends
    (raised : List Event) (current : Event) (bench : Workbench) :
    Ends (engine.seek raised current) bench
      (fun found after => bench.Stands after ∧ ∀ event chosen, found = some (event, chosen) →
        engine.machine.Selects after.state.active after.state.history chosen)
      (fun _ after => bench.Stands after) := by
  induction raised generalizing current bench with
  | nil =>
      unfold seek
      rw [ends_bind]
      refine (select_ends engine .eventless current bench).mono ?_ (fun _ _ stands => stands)
      rintro eventless after ⟨stands, selects⟩
      split
      · refine ⟨stands, ?_⟩
        rintro event chosen found
        cases found
        exact selects
      · exact ⟨stands, by simp⟩
  | cons next rest ih =>
      unfold seek
      rw [ends_bind]
      refine (select_ends engine .eventless current bench).mono ?_ (fun _ _ stands => stands)
      rintro eventless middle ⟨stands, selects⟩
      split
      · refine ⟨stands, ?_⟩
        rintro event chosen found
        cases found
        exact selects
      · have popped : bench.Stands
            (middle.onState fun state => { state with raised := rest }) :=
          stands.trans ⟨rfl, rfl, rfl⟩
        simp only [ends_bind, ends_modify]
        refine (select_ends engine .event next _).mono ?_
          (fun _ _ later => popped.trans later)
        rintro chosen after ⟨later, selects⟩
        split
        · refine ⟨popped.trans later, ?_⟩
          rintro event found same
          cases same
          exact selects
        · refine (ih next after).mono ?_ (fun _ _ last => (popped.trans later).trans last)
          rintro found last ⟨standsLast, finds⟩
          exact ⟨(popped.trans later).trans standsLast, finds⟩

section Telling

variable {chart : Chart} {visits : List Visit} {before after : Workbench}
variable (account : after.supervisor.account =
  before.supervisor.account ++ visits.map (Visit.activity chart))

include account

theorem told_visits : ToldMore before after := by
  refine ⟨_, account, ?_⟩
  simp [Visit.activity_isVisit]

theorem visitsIn_account
    (past : List Activity) :
    visitsIn (past ++ after.supervisor.account) =
      visitsIn (past ++ before.supervisor.account) ++ visits.map (Visit.activity chart) := by
  rw [account, ← List.append_assoc, visitsIn_append, visitsIn_map]

theorem follows_of_account
    {machine : Machine ActorLogic} {past : List Activity} {earlier : List Visit}
    (told : visitsIn (past ++ before.supervisor.account) =
      earlier.map (Visit.activity chart))
    (same : chart = machine.chart)
    (chronicle : machine.Chronicle (earlier ++ visits) after.state.active
      after.state.history) :
    after.Follows machine past := by
  subst same
  refine ⟨_, chronicle, ?_⟩
  rw [visitsIn_account account, told, List.map_append]

end Telling

section Keeping

variable {good : Workbench → Prop}
variable (kept : ∀ {before after : Workbench}, good before → before.Kept after → good after)
variable (stepped : ∀ (event : Event) {chosen : List (Choice ActorLogic)} {bench : Workbench},
  good bench → engine.machine.Selects bench.state.active bench.state.history chosen →
    Ends (engine.microstep event chosen) bench
      (fun _ after => good after ∧ ToldMore bench after) (fun _ after => ToldMore bench after))

include kept stepped

theorem stabilize_keeps
    (trigger : String) (budget : Nat) (current : Event) {bench : Workbench}
    (isGood : good bench) :
    Ends (engine.stabilize trigger budget current) bench
      (fun _ after => good after ∧ ToldMore bench after)
      (fun _ after => ToldMore bench after) := by
  induction budget generalizing current bench with
  | zero =>
      rw [stabilize, ends_bind, ends_get]
      dsimp only
      split
      · exact ⟨kept isGood ⟨rfl, rfl, rfl⟩, .of_kept ⟨rfl, rfl, rfl⟩⟩
      · rw [ends_bind]
        refine (seek_ends engine bench.state.raised current bench).mono ?_
          (fun _ _ stands => .of_kept stands.kept)
        rintro found middle ⟨stands, _⟩
        cases found with
        | none => exact ⟨kept isGood stands.kept, .of_kept stands.kept⟩
        | some taken => exact .of_kept stands.kept
  | succ budget ih =>
      rw [stabilize, ends_bind, ends_get]
      dsimp only
      split
      · exact ⟨kept isGood ⟨rfl, rfl, rfl⟩, .of_kept ⟨rfl, rfl, rfl⟩⟩
      · rw [ends_bind]
        refine (seek_ends engine bench.state.raised current bench).mono ?_
          (fun _ _ stands => .of_kept stands.kept)
        rintro found middle ⟨stands, selects⟩
        have stillGood := kept isGood stands.kept
        cases found with
        | none => exact ⟨stillGood, .of_kept stands.kept⟩
        | some taken =>
            obtain ⟨event, chosen⟩ := taken
            have sought : ToldMore bench middle := .of_kept stands.kept
            simp only [ends_bind]
            refine (stepped event stillGood (selects event chosen rfl)).mono ?_
              (fun _ _ told => sought.trans told)
            rintro _ after ⟨goodOn, told⟩
            refine (ih event goodOn).mono ?_
              (fun _ _ later => (sought.trans told).trans later)
            rintro _ last ⟨goodLast, later⟩
            exact ⟨goodLast, (sought.trans told).trans later⟩

theorem macrostep_keeps
    (event : Event) {bench : Workbench}
    (isGood : good bench) :
    Ends (engine.macrostep event) bench
      (fun _ after => good after ∧ ToldMore bench after)
      (fun _ after => ToldMore bench after) := by
  unfold macrostep
  rw [ends_bind]
  refine (select_ends engine .event event bench).mono ?_ (fun _ _ stands => .of_kept stands.kept)
  rintro chosen middle ⟨stands, selects⟩
  have stillGood := kept isGood stands.kept
  have selected : ToldMore bench middle := .of_kept stands.kept
  split
  · simp only [ends_bind, ends_pure]
    refine (stabilize_keeps engine kept stepped _ _ event stillGood).mono ?_
      (fun _ _ told => selected.trans told)
    rintro _ after ⟨goodOn, told⟩
    exact ⟨goodOn, selected.trans told⟩
  · split
    · exact selected
    · simp only [ends_bind, ends_pure]
      refine (stepped event stillGood selects).mono ?_ (fun _ _ told => selected.trans told)
      rintro _ after ⟨goodOn, told⟩
      refine (stabilize_keeps engine kept stepped _ _ event goodOn).mono ?_
        (fun _ _ later => (selected.trans told).trans later)
      rintro _ last ⟨goodLast, later⟩
      exact ⟨goodLast, (selected.trans told).trans later⟩

end Keeping

section Following

variable {machine : Machine ActorLogic} (formed : machine.WellFormed)
variable {past : List Activity}
variable (runs : engine.machine = machine)

include formed runs

theorem microstep_follows
    (event : Event) {chosen : List (Choice ActorLogic)} {bench : Workbench}
    (follows : bench.Follows machine past)
    (selects : machine.Selects bench.state.active bench.state.history chosen) :
    Ends (engine.microstep event chosen) bench
      (fun _ after => after.Follows machine past ∧ ToldMore bench after)
      (fun _ after => ToldMore bench after) := by
  subst runs
  obtain ⟨visits, chronicle, told⟩ := follows
  have tenable := chronicle.tenable formed
  obtain ⟨entries, planned⟩ := Chart.entries_end formed.chart
    (Chart.recordedBy_sound formed.chart tenable.ordinary tenable.sound
      (chosen.map Choice.move)) (chosen.map Choice.move)
  refine (microstep_ends engine event planned).mono ?_ (fun _ _ told => told)
  rintro _ after ⟨active, history, account⟩
  rw [← map_visitAll_leaving, ← map_visitAll_entering, List.append_assoc,
    ← List.map_append] at account
  refine ⟨follows_of_account account told rfl ?_, told_visits account⟩
  rw [active, history]
  exact chronicle.step (selects.steps planned)

theorem stabilize_follows
    (trigger : String) (budget : Nat) (current : Event) {bench : Workbench}
    (follows : bench.Follows machine past) :
    Ends (engine.stabilize trigger budget current) bench
      (fun _ after => after.Follows machine past ∧ ToldMore bench after)
      (fun _ after => ToldMore bench after) :=
  stabilize_keeps engine Workbench.Follows.kept
    (fun event _ _ follows selects =>
      microstep_follows engine formed runs event follows (runs ▸ selects))
    trigger budget current follows

theorem macrostep_follows
    (event : Event) {bench : Workbench}
    (follows : bench.Follows machine past) :
    Ends (engine.macrostep event) bench
      (fun _ after => after.Follows machine past ∧ ToldMore bench after)
      (fun _ after => ToldMore bench after) :=
  macrostep_keeps engine Workbench.Follows.kept
    (fun event _ _ follows selects =>
      microstep_follows engine formed runs event follows (runs ▸ selects))
    event follows

theorem firstStep_follows
    (event : Event) {bench : Workbench}
    (inactive : bench.state.active = [])
    (forgetful : bench.state.history = HistoryRecords.empty)
    (untold : visitsIn (past ++ bench.supervisor.account) = []) :
    Ends (engine.firstStep event) bench
      (fun _ after => after.Follows machine past ∧ ToldMore bench after)
      (fun _ after => ToldMore bench after) := by
  subst runs
  obtain ⟨entries, started⟩ := Chart.initialEntries_end formed.chart
  unfold firstStep
  split
  · exact .of_kept (.refl bench)
  · rw [started, enterPlanned, ← play_enterScripts]
    simp only [ends_bind, ends_pure]
    refine (play_ends engine event (entries.flatMap engine.machine.enterScript) []
      bench).mono ?_
      (fun _ _ told => told)
    intro _ entered played
    have scripted : entries.flatMap engine.machine.enterScript =
        engine.machine.script HistoryRecords.empty [] [] entries := rfl
    have account := played.account
    rw [scripted, Machine.script_told, List.map_nil, List.nil_append,
      ← map_visitAll_entering] at account
    have first : entered.Follows engine.machine past := by
      have begun : visitsIn (past ++ bench.supervisor.account) =
          ([] : List Visit).map (Visit.activity engine.machine.chart) := untold
      refine follows_of_account account begun rfl ?_
      rw [played.active, played.history, forgetful, inactive, scripted,
        Machine.script_active, StateSet.removeAll_nil]
      exact .start started
    refine (stabilize_follows engine formed rfl _ _ event first).mono ?_
      (fun _ _ later => (told_visits account).trans later)
    rintro _ after ⟨follows, later⟩
    exact ⟨follows, (told_visits account).trans later⟩

end Following

section Holding

variable {machine : Machine ActorLogic} (formed : machine.WellFormed)
variable (runs : engine.machine = machine)

include formed runs

theorem microstep_tenable
    (event : Event) {chosen : List (Choice ActorLogic)} {bench : Workbench}
    (tenable : machine.chart.Tenable bench.state.active bench.state.history)
    (selects : engine.machine.Selects bench.state.active bench.state.history chosen) :
    Ends (engine.microstep event chosen) bench
      (fun _ after => machine.chart.Tenable after.state.active after.state.history ∧
        ToldMore bench after)
      (fun _ after => ToldMore bench after) := by
  subst runs
  obtain ⟨entries, planned⟩ := Chart.entries_end formed.chart
    (Chart.recordedBy_sound formed.chart tenable.ordinary tenable.sound
      (chosen.map Choice.move)) (chosen.map Choice.move)
  refine (microstep_ends engine event planned).mono ?_ (fun _ _ told => told)
  rintro _ after ⟨active, history, account⟩
  rw [← map_visitAll_leaving, ← map_visitAll_entering, List.append_assoc,
    ← List.map_append] at account
  refine ⟨?_, told_visits account⟩
  rw [active, history]
  exact (selects.steps planned).tenable formed tenable

theorem macrostep_tenable
    (event : Event) {bench : Workbench}
    (tenable : machine.chart.Tenable bench.state.active bench.state.history) :
    Ends (engine.macrostep event) bench
      (fun _ after => machine.chart.Tenable after.state.active after.state.history)
      (fun _ _ => True) := by
  refine (macrostep_keeps engine Workbench.Tenable.kept
    (fun event _ _ tenable selects =>
      microstep_tenable engine formed runs event tenable selects) event tenable).mono ?_ ?_
  · exact fun _ _ good => good.1
  · exact fun _ _ _ => trivial

/-- Entering the first states leads from active states and records that are tenable to
such. -/
theorem initialEntry_tenable
    (event : Event) {bench : Workbench}
    (tenable : machine.chart.Tenable bench.state.active bench.state.history) :
    Ends (engine.enterPlanned event machine.chart.initialEntries?) bench
      (fun _ after => machine.chart.Tenable after.state.active after.state.history)
      (fun _ _ => True) := by
  subst runs
  obtain ⟨entries, started⟩ := Chart.initialEntries_end formed.chart
  have valid := Chart.initialEntries_valid formed.chart started
  rw [started, enterPlanned, ← play_enterScripts]
  simp only [ends_bind, ends_pure]
  refine (play_ends engine event (entries.flatMap engine.machine.enterScript) []
    bench).mono ?_ (fun _ _ _ => trivial)
  intro _ entered played
  have scripted : entries.flatMap engine.machine.enterScript =
      engine.machine.script HistoryRecords.empty [] [] entries := rfl
  rw [played.active, played.history, scripted, Machine.script_active,
    StateSet.removeAll_nil]
  constructor
  · intro state member
    rcases StateSet.mem_insertAll.mp member with new | earlier
    · exact valid.inRange state new
    · exact tenable.inRange state earlier
  · intro state member
    rcases StateSet.mem_insertAll.mp member with new | earlier
    · exact valid.ordinary state new
    · exact tenable.ordinary state earlier
  · exact tenable.ordered.insertAll entries
  · exact tenable.sound

theorem firstStep_tenable
    (event : Event) {bench : Workbench}
    (tenable : machine.chart.Tenable bench.state.active bench.state.history) :
    Ends (engine.firstStep event) bench
      (fun _ after => machine.chart.Tenable after.state.active after.state.history)
      (fun _ _ => True) := by
  unfold firstStep
  split
  · trivial
  · simp only [ends_bind, ends_pure]
    rw [runs]
    refine (initialEntry_tenable engine formed runs event tenable).mono ?_
      (fun _ _ _ => trivial)
    intro _ entered enteredTenable
    refine (stabilize_keeps engine Workbench.Tenable.kept
      (fun event _ _ tenable selects =>
        microstep_tenable engine formed runs event tenable selects)
      _ _ event enteredTenable).mono ?_ ?_
    · exact fun _ _ good => good.1
    · exact fun _ _ _ => trivial

end Holding

end Engine

end Statechart
