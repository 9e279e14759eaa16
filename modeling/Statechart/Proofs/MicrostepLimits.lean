import Statechart.Proofs.ChildMachines
import Statechart.Proofs.RemovedActors
import Statechart.Proofs.RestartPoints
import Statechart.Proofs.StepEndings
import Statechart.Proofs.UnboundedPlanning

/-!
# Steps come to an end

The limit on the microsteps of a step is exact: a step fails for it only if one microstep
more than allowed is about to begin.  Otherwise the machine comes to rest, or a guard or an
action fails, unless a microstep begins for which planning never ends.  That cannot happen
in the life of an interpreter that is new, or restored with sound records; restored with a
record that names its own history state, an interpreter can be led into such a step.
-/

namespace Statechart

/-- On a bench like this, planning what a microstep enters comes to an end, however deep it
leads. -/
def Workbench.PlanningEnds (chart : Chart) (chosen : List (Choice ActorLogic))
    (bench : Workbench) : Prop :=
  chart.PlanningEnds
    (chart.recordedBy bench.state.active bench.state.history (chosen.map Choice.move))
    (chosen.map Choice.move)

/-- An action has failed. -/
def Failure.OfAction (reason : Failure) : Prop :=
  ∃ error, reason = .action error

namespace Engine

section Blaming

/-- The operation fails, if it does, because an action failed. -/
def Blames {answer : Type} (operation : StepM answer) : Prop :=
  ∀ bench, Ends operation bench (fun _ _ => True) (fun reason _ => reason.OfAction)

variable {engine : Engine} {event : Event}

theorem Blames.bind
    {answer result : Type} {first : StepM answer} {next : answer → StepM result}
    (blames : Blames first)
    (nextBlames : ∀ given, Blames (next given)) :
    Blames (first >>= next) := by
  intro bench
  rw [ends_bind]
  exact (blames bench).mono (fun given middle _ => nextBlames given middle)
    fun _ _ blamed => blamed

theorem blames_pure
    {answer : Type} (given : answer) :
    Blames (pure given) :=
  fun _ => trivial

theorem blames_get : Blames get :=
  fun _ => trivial

theorem blames_modify (change : Workbench → Workbench) : Blames (modify change) :=
  fun _ => trivial

theorem perform_blames
    (owner : StateId) (action : Action ActorLogic) :
    Blames (engine.perform event owner action) := by
  intro bench
  cases action with
  | assign name update =>
      simp only [perform, ends_bind, ends_get]
      split
      · trivial
      · exact ⟨_, rfl⟩
  | raise make delay id =>
      simp only [perform, ends_bind, ends_get]
      split <;> trivial
  | send recipient make delay id =>
      simp only [perform, ends_bind, ends_get]
      split <;> trivial
  | cancel id => trivial
  | log label text => trivial
  | spawn id logic input => trivial
  | stopChild id => trivial
  | effect name run =>
      simp only [perform, ends_bind, ends_get, ends_modify]
      split
      · exact ⟨_, rfl⟩
      · trivial

theorem performAll_blames
    (owner : StateId) (actions : List (Action ActorLogic)) :
    Blames (engine.performAll event owner actions) := by
  induction actions with
  | nil => exact blames_pure ()
  | cons action actions ih => exact (perform_blames owner action).bind fun _ => ih

theorem leaveAll_blames
    (states : List StateId) :
    Blames (engine.leaveAll event states) := by
  induction states with
  | nil => exact blames_pure ()
  | cons state states ih =>
      refine Blames.bind ?_ fun _ => ih
      exact (blames_modify _).bind fun _ =>
        (performAll_blames _ _).bind fun _ => blames_modify _

theorem takeAll_blames
    (chosen : List (Choice ActorLogic)) :
    Blames (engine.takeAll event chosen) := by
  induction chosen with
  | nil => exact blames_pure ()
  | cons choice chosen ih =>
      exact blames_get.bind fun _ => (performAll_blames _ _).bind fun _ => ih

theorem enter_blames
    (state : StateId) (announced : List StateId) :
    Blames (engine.enter event state announced) := by
  refine (blames_modify _).bind fun _ => (performAll_blames _ _).bind fun _ =>
    (blames_modify _).bind fun _ => ?_
  intro bench
  split <;> trivial

theorem enterAll_blames
    (states announced : List StateId) :
    Blames (engine.enterAll event states announced) := by
  induction states generalizing announced with
  | nil => exact blames_pure ()
  | cons state states ih => exact (enter_blames state announced).bind ih

theorem microstep_blames
    (chosen : List (Choice ActorLogic)) (bench : Workbench) :
    Ends (engine.microstep event chosen) bench (fun _ _ => True)
      (fun reason _ => reason.OfAction ∨ reason = .stalled .entry ∧
        engine.machine.chart.entries?
          (engine.machine.chart.recordedBy bench.state.active bench.state.history
            (chosen.map Choice.move))
          (chosen.map Choice.move) = none) := by
  unfold microstep
  simp only [ends_bind, ends_get, ends_modify]
  refine (leaveAll_blames _ _).mono (fun _ left _ => ?_) fun _ _ blamed => .inl blamed
  refine (takeAll_blames _ _).mono (fun _ taken _ => ?_) fun _ _ blamed => .inl blamed
  change Ends (engine.enterPlanned event (engine.machine.chart.entries?
    (engine.machine.chart.recordedBy bench.state.active bench.state.history
      (chosen.map Choice.move)) (chosen.map Choice.move))) taken _ _
  cases planned : engine.machine.chart.entries?
      (engine.machine.chart.recordedBy bench.state.active bench.state.history
        (chosen.map Choice.move)) (chosen.map Choice.move) with
  | none => exact ends_throw.mpr (.inr ⟨rfl, rfl⟩)
  | some entries =>
      exact (enterAll_blames entries [] taken).mono (fun _ _ _ => trivial)
        fun _ _ blamed => .inl blamed

/-- A microstep fails because of an action, or because planning does not end. -/
theorem microstep_blamed
    {chosen : List (Choice ActorLogic)} {reason : Failure} {bench after : Workbench}
    (failed : (engine.microstep event chosen).run bench = .error reason after) :
    reason.OfAction ∨ reason = .stalled .entry ∧
      engine.machine.chart.entries?
        (engine.machine.chart.recordedBy bench.state.active bench.state.history
          (chosen.map Choice.move))
        (chosen.map Choice.move) = none := by
  have blamed : Ends (engine.microstep event chosen) bench _ _ := microstep_blames chosen bench
  rw [ends_iff_run] at blamed
  exact blamed.2 reason after failed

/-- A microstep that does not end: its states are left and its actions carried out, but then
planning what is to be entered goes on for ever. -/
structure Strays (engine : Engine) (event : Event) (chosen : List (Choice ActorLogic))
    (bench : Workbench) : Prop where
  acts : ∃ acted,
    (engine.leaveAll event (engine.machine.chart.exits bench.state.active bench.state.history
        (chosen.map Choice.move)) >>= fun _ => engine.takeAll event chosen).run
      (bench.onState fun state =>
        { state with
          history := engine.machine.chart.recordedBy bench.state.active bench.state.history
            (chosen.map Choice.move) }) = .ok () acted
  endless : ¬ bench.PlanningEnds engine.machine.chart chosen

theorem microstep_stalls_iff
    (formed : engine.machine.chart.WellFormed)
    {chosen : List (Choice ActorLogic)} {bench : Workbench} :
    (∃ after, (engine.microstep event chosen).run bench = .error (.stalled .entry) after) ↔
      engine.Strays event chosen bench := by
  let moves := chosen.map Choice.move
  let records := engine.machine.chart.recordedBy bench.state.active bench.state.history moves
  let acts : StepM Unit :=
    engine.leaveAll event (engine.machine.chart.exits bench.state.active bench.state.history
      moves) >>= fun _ => engine.takeAll event chosen
  let ready := bench.onState fun state => { state with history := records }
  have parts : (engine.microstep event chosen).run bench =
      (acts >>= fun _ =>
        engine.enterPlanned event (engine.machine.chart.entries? records moves)).run ready := by
    rw [bind_assoc]
    rfl
  have blames : Ends acts ready (fun _ _ => True) fun reason _ => reason.OfAction :=
    (leaveAll_blames _).bind (fun _ => takeAll_blames chosen) ready
  rw [ends_iff_run] at blames
  have endless : engine.machine.chart.entries? records moves = none ↔
      ¬ engine.machine.chart.PlanningEnds records moves :=
    Chart.entries_eq_none_iff_endless formed
  constructor
  · rintro ⟨after, stalled⟩
    cases acted : acts.run ready with
    | error reason middle =>
        obtain ⟨error, rfl⟩ := blames.2 reason middle acted
        rw [parts, run_bind_of_error acted] at stalled
        cases stalled
    | ok _ middle =>
        rcases microstep_blamed stalled with ⟨error, action⟩ | ⟨_, unplanned⟩
        · cases action
        · exact ⟨⟨middle, acted⟩, endless.mp unplanned⟩
  · rintro ⟨⟨middle, acted⟩, strays⟩
    refine ⟨middle, ?_⟩
    rw [parts, run_bind_of_ok acted, endless.mpr strays]
    rfl

variable {moment : Moment} {begun : Nat} {reason : Failure} {bench after : Workbench}

theorem select_blames
    {trigger : Trigger}
    (failed : (engine.select trigger event).run bench = .error reason after) :
    ∃ error, reason = .guard error := by
  rw [select_run] at failed
  split at failed
  · rename_i error _
    exact ⟨error, (EStateM.Result.error.inj failed).1.symm⟩
  · cases failed

theorem Breaks.blames
    (breaks : engine.Breaks moment begun reason after) :
    (∃ error, reason = .guard error) ∨ reason.OfAction ∨ reason = .stalled .entry := by
  cases breaks with
  | eventless _ failed => exact .inl (select_blames failed)
  | raised _ _ _ failed => exact .inl (select_blames failed)
  | microstep _ _ failed => exact .inr ((microstep_blamed failed).imp_right And.left)

/-- After so many microsteps that have gone well the next one does not end. -/
inductive Drifts (engine : Engine) (occasion : Occasion) (event : Event) (bench : Workbench) :
    Nat → Prop where
  | taken {ready : Workbench} {chosen : List (Choice ActorLogic)} :
      occasion = .event → (engine.select .event event).run bench = .ok chosen ready →
      chosen ≠ [] → engine.Strays event chosen ready →
      Drifts engine occasion event bench 0
  | further {count : Nat} {last ready : Moment} {chosen : List (Choice ActorLogic)} :
      engine.Takes occasion event bench count last → engine.Finds last chosen ready →
      chosen ≠ [] → engine.Strays ready.event chosen ready.bench →
      Drifts engine occasion event bench count

end Blaming

end Engine

/-- With what is tenable, planning ends whatever is chosen. -/
theorem Workbench.Tenable.planningEnds
    {chart : Chart} {bench : Workbench}
    (tenable : bench.Tenable chart)
    (formed : chart.WellFormed) (chosen : List (Choice ActorLogic)) :
    bench.PlanningEnds chart chosen := by
  have sound := Chart.recordedBy_sound formed tenable.ordinary tenable.sound
    (chosen.map Choice.move)
  obtain ⟨entries, planned⟩ := Chart.entries_end formed sound (chosen.map Choice.move)
  exact ⟨entries, (Chart.entries_eq_some_iff formed).mp planned⟩

theorem Workbench.Tenable.congr
    {chart : Chart} {before after : Workbench}
    (tenable : before.Tenable chart)
    (same : after.state = before.state) :
    after.Tenable chart := by
  unfold Workbench.Tenable
  rw [same]
  exact tenable

namespace Engine

section Tenability

variable {engine : Engine} {machine : Machine ActorLogic} (formed : machine.WellFormed)
variable (runs : engine.machine = machine)
variable {occasion : Occasion} {event : Event} {bench last : Workbench} {reason : Failure}
variable {before ready after : Moment} {chosen : List (Choice ActorLogic)}
variable {count begun cost opened : Nat}

theorem Finds.tenable
    (finds : engine.Finds before chosen ready)
    (tenable : before.bench.Tenable machine.chart) :
    ready.bench.Tenable machine.chart := by
  obtain ⟨raised, same⟩ := finds.state
  unfold Workbench.Tenable
  rw [same]
  exact tenable

include formed runs

theorem tenable_of_microstep
    (tenable : bench.Tenable machine.chart)
    (selects : engine.machine.Selects bench.state.active bench.state.history chosen)
    (ran : (engine.microstep event chosen).run bench = .ok () last) :
    last.Tenable machine.chart := by
  have ends := microstep_tenable engine formed runs event tenable selects
  rw [ends_iff_run] at ends
  exact (ends.1 () last ran).1

theorem Round.tenable
    (round : engine.Round before cost after)
    (tenable : before.bench.Tenable machine.chart) :
    after.bench.Tenable machine.chart := by
  cases round with
  | microstep finds _ ran =>
      exact tenable_of_microstep formed runs (finds.tenable tenable) finds.selects ran
  | drop finds => exact finds.tenable tenable

theorem Rounds.tenable
    (rounds : engine.Rounds before count after)
    (tenable : before.bench.Tenable machine.chart) :
    after.bench.Tenable machine.chart := by
  induction rounds with
  | none => exact tenable
  | further _ round ih => exact round.tenable formed runs ih

theorem Opens.tenable
    (opens : engine.Opens occasion event bench opened after)
    (tenable : bench.Tenable machine.chart) :
    after.bench.Tenable machine.chart := by
  cases opens with
  | entry entered =>
      have ends := initialEntry_tenable engine formed runs event tenable
      rw [ends_iff_run, ← runs] at ends
      rw [← runs]
      exact ends.1 _ _ entered
  | ignored ignored => exact tenable.congr (select_kept ignored)
  | taken selected _ ran =>
      exact tenable_of_microstep formed runs (tenable.congr (select_kept selected))
        (select_selects selected) ran

theorem Takes.tenable
    (takes : engine.Takes occasion event bench count after)
    (tenable : bench.Tenable machine.chart) :
    after.bench.Tenable machine.chart := by
  obtain ⟨opens, rounds⟩ := takes
  exact rounds.tenable formed runs (opens.tenable formed runs tenable)

/-- From what is tenable every microstep ends. -/
theorem Strays.untenable
    (strays : engine.Strays event chosen bench) :
    ¬ bench.Tenable machine.chart := by
  subst runs
  exact fun tenable => strays.endless (tenable.planningEnds formed.chart chosen)

theorem Drifts.untenable
    (drifts : engine.Drifts occasion event bench count) :
    ¬ bench.Tenable machine.chart := by
  intro tenable
  cases drifts with
  | taken _ selected _ strays =>
      exact strays.untenable formed runs (tenable.congr (select_kept selected))
  | further takes finds _ strays =>
      exact strays.untenable formed runs (finds.tenable (takes.tenable formed runs tenable))

theorem firstEntry_blamed
    (failed : (engine.enterPlanned event engine.machine.chart.initialEntries?).run bench =
      .error reason last) :
    reason.OfAction := by
  obtain ⟨entries, started⟩ := Chart.initialEntries_end formed.chart
  rw [runs, started] at failed
  have blamed : Ends (engine.enterAll event entries []) bench _ _ :=
    enterAll_blames entries [] bench
  rw [ends_iff_run] at blamed
  exact blamed.2 reason last failed

/-- A step that fails, but not for having exceeded its limit, does so because of a guard or an
action, or does not end. -/
theorem Falters.blames
    (falters : engine.Falters occasion event bench begun reason last) :
    (∃ error, reason = .guard error) ∨ reason.OfAction ∨ reason = .stalled .entry := by
  cases falters with
  | entry _ failed => exact .inr (.inl (firstEntry_blamed formed runs failed))
  | select _ failed => exact .inl (select_blames failed)
  | microstep _ _ _ failed => exact .inr ((microstep_blamed failed).imp_right And.left)
  | further _ breaks => exact breaks.blames

/-- A failure for not ending is that of a microstep that does not end. -/
theorem Falters.drifts
    (falters : engine.Falters occasion event bench begun (.stalled .entry) last) :
    ∃ count < begun, engine.Drifts occasion event bench count := by
  have strays : ∀ {event chosen bench after},
      (engine.microstep event chosen).run bench = .error (.stalled .entry) after →
        engine.Strays event chosen bench :=
    fun failed => (microstep_stalls_iff (runs ▸ formed.chart)).mp ⟨_, failed⟩
  cases falters with
  | entry _ failed =>
      obtain ⟨error, action⟩ := firstEntry_blamed formed runs failed
      cases action
  | select _ failed =>
      obtain ⟨error, guard⟩ := select_blames failed
      cases guard
  | microstep isEvent selected nonempty failed =>
      exact ⟨0, Nat.zero_lt_one, .taken isEvent selected nonempty (strays failed)⟩
  | further takes breaks =>
      cases breaks with
      | eventless _ failed =>
          obtain ⟨error, guard⟩ := select_blames failed
          cases guard
      | raised _ _ _ failed =>
          obtain ⟨error, guard⟩ := select_blames failed
          cases guard
      | microstep finds nonempty failed =>
          exact ⟨_, Nat.lt_succ_self _, .further takes finds nonempty (strays failed)⟩

/-- A step stalls where one of the microsteps that it may have does not end. -/
theorem Drifts.stalls
    (drifts : engine.Drifts occasion event bench count)
    (within : count < engine.limit) :
    ∃ after, (occasion.step engine event).run bench = .error (.stalled .entry) after := by
  have stalls : ∀ {event chosen bench}, engine.Strays event chosen bench →
      ∃ after, (engine.microstep event chosen).run bench = .error (.stalled .entry) after :=
    (microstep_stalls_iff (runs ▸ formed.chart)).mpr
  obtain ⟨budget, limited⟩ := Nat.exists_eq_add_of_le' within
  cases drifts with
  | taken isEvent selected nonempty strays =>
      subst isEvent
      obtain ⟨after, failed⟩ := stalls strays
      refine ⟨after, ?_⟩
      simp only [Occasion.step, macrostep]
      rw [run_bind_of_ok selected]
      simp only [List.isEmpty_iff, nonempty, if_false, limited]
      exact run_bind_of_error failed _
  | further takes finds nonempty strays =>
      obtain ⟨after, failed⟩ := stalls strays
      cases takes with
      | @opening opened count first last opens rounds =>
          have left : engine.limit = budget + (count + 1) + opened := by omega
          obtain ⟨handled, same⟩ := run_of_opens opens left
          refine ⟨after, ?_⟩
          rw [same]
          exact run_bind_of_error (stabilize_of_stumbles
            ⟨_, 1, _, Nat.le_add_left _ _, rounds, .microstep finds nonempty failed⟩) _

theorem step_stalls_iff :
    (∃ after, (occasion.step engine event).run bench = .error (.stalled .entry) after) ↔
      ∃ count < engine.limit, engine.Drifts occasion event bench count := by
  constructor
  · rintro ⟨after, stalled⟩
    have ends := engine.step_ends occasion event bench
    rw [ends_iff_run] at ends
    rcases ends.2 _ after stalled with ⟨exceeded, _⟩ | ⟨begun, within, falters⟩
    · cases exceeded
    · obtain ⟨count, earlier, drifts⟩ := falters.drifts formed runs
      exact ⟨count, Nat.lt_of_lt_of_le earlier within, drifts⟩
  · rintro ⟨count, within, drifts⟩
    exact drifts.stalls formed runs within

end Tenability

end Engine

/-- An interpreter before its start that is new, by itself or as a child, or is restored from
a checkpoint whose records are sound. -/
inductive Machine.SetsOut (machine : Machine ActorLogic) : Interpreter → Prop where
  | born {start : Interpreter} : Interpreter.Born machine start → SetsOut machine start
  | restored {checkpoint : Checkpoint} {settings : Settings} {start : Interpreter} :
      Interpreter.restore machine checkpoint settings = .ok start →
      machine.chart.Sound start.state.history → SetsOut machine start

namespace Machine

variable {machine : Machine ActorLogic} {start : Interpreter}

theorem SetsOut.recollects
    (formed : machine.WellFormed)
    (setsOut : machine.SetsOut start) :
    start.Recollects machine machine.chart.Tenable := by
  have nothing : machine.chart.Tenable [] HistoryRecords.empty :=
    ⟨by simp, by simp, StateSet.ordered_nil, Chart.sound_empty machine.chart⟩
  cases setsOut with
  | born born => cases born <;> exact ⟨rfl, nothing, nothing⟩
  | @restored checkpoint _ _ restored sound =>
      obtain ⟨_, _, resolved, _, _, sameHistory, _⟩ := Interpreter.restore_eq_ok restored
      rw [sameHistory] at sound
      refine Interpreter.restore_recollects restored fun active history again => ?_
      obtain ⟨rfl, rfl⟩ := Prod.mk.inj (Except.ok.inj (resolved.symm.trans again))
      obtain ⟨ordered, valid⟩ :=
        Chart.resolveConfiguration_eq_ok (Checkpoint.resolve_eq_ok resolved).1
      exact ((Chart.check_eq_none_iff formed.chart).mp valid).tenable ordered sound

end Machine

namespace MachineSpec

variable {spec : MachineSpec ActorLogic} {machine : Machine ActorLogic}

/-- Going on with a step from round to round ends, whatever the number of microsteps that it
may have.  The first step and the step for an event, on any bench, exceed their limit exactly
if as many microsteps have gone well and one more is about to begin.  They go well
exactly if with at most that many microsteps they come to rest; then no raised event is left,
and the machine is done or no transition without event is open for the last event.  They do
not end exactly if one of these microsteps begins, is carried out as far as its actions, and
then planning never ends, which means that a target does not settle.  In any other case a
guard or an action has failed, in the last of at most that many microsteps or before one more
has begun.  From what is tenable every step ends, and what an interpreter holds is tenable in
all its life if it was new at first, or restored with sound records. -/
theorem steps_come_to_rest_iff
    (built : spec.build = .ok machine)
    (ordinaryRoot : spec.HasOrdinaryRoot) :
    (∀ engine : Engine, WellFounded engine.Onward) ∧
    (∀ (engine : Engine) (occasion : Occasion) (event : Event) (bench : Workbench),
      engine.machine = machine →
      ((∃ after, (occasion.step engine event).run bench =
          .error (.loop engine.limit event.type) after) ↔
        engine.Attempts occasion event bench engine.limit) ∧
      (∀ after, (∃ handled, (occasion.step engine event).run bench = .ok handled after) ↔
        ∃ count last, count ≤ engine.limit ∧ engine.Takes occasion event bench count last ∧
          engine.Rests last after) ∧
      (∀ last after, engine.Rests last after →
        after.state = { last.bench.state with raised := [] } ∧
          (after.state.done = true ∨
            ∃ selection, machine.select .eventless after.state.active after.state.history
                after.state.context last.event = .ok selection ∧ selection.chosen = [])) ∧
      ((∃ after, (occasion.step engine event).run bench = .error (.stalled .entry) after) ↔
        ∃ count < engine.limit, engine.Drifts occasion event bench count) ∧
      (∀ reason after, (occasion.step engine event).run bench = .error reason after →
        reason ≠ .loop engine.limit event.type → reason ≠ .stalled .entry →
          (∃ begun ≤ engine.limit, engine.Falters occasion event bench begun reason after) ∧
          ((∃ error, reason = .guard error) ∨ reason.OfAction)) ∧
      (bench.Tenable machine.chart → ∀ count, ¬ engine.Drifts occasion event bench count)) ∧
    (∀ records moves, machine.chart.PlanningEnds records moves ↔
      ∀ move ∈ moves, ∀ target ∈ move.targets, machine.chart.Settles records target) ∧
    ∀ (facilities : Facilities) (nursery : Nursery) (start interpreter : Interpreter),
      machine.SetsOut start → Interpreter.Passes facilities nursery start interpreter →
        interpreter.machine = machine ∧ interpreter.bench.Tenable machine.chart := by
  have formed := build_machine_wellFormed built ordinaryRoot
  refine ⟨Engine.onward_wellFounded, ?_,
    fun _ _ => Chart.planningEnds_iff_settles formed.chart, ?_⟩
  · rintro engine occasion event bench rfl
    have ends := engine.step_ends occasion event bench
    rw [ends_iff_run] at ends
    obtain ⟨well, ill⟩ := ends
    refine ⟨⟨?_, Engine.run_of_attempts⟩, fun after => ⟨?_, ?_⟩, fun _ _ rests => rests.calm,
      Engine.step_stalls_iff formed rfl, ?_, fun tenable _ drifts =>
        drifts.untenable formed rfl tenable⟩
    · rintro ⟨after, exceeded⟩
      rcases ill _ after exceeded with ⟨_, attempts⟩ | ⟨begun, _, falters⟩
      · exact attempts
      · rcases falters.blames formed rfl with ⟨_, guard⟩ | ⟨_, action⟩ | endless
        · cases guard
        · cases action
        · cases endless
    · rintro ⟨handled, ran⟩
      exact well handled after ran
    · rintro ⟨count, last, within, takes, rests⟩
      exact Engine.run_of_takes takes within rests
    · intro reason after failed otherwise ends
      rcases ill reason after failed with ⟨exceeded, _⟩ | ⟨begun, within, falters⟩
      · exact absurd exceeded otherwise
      · refine ⟨⟨begun, within, falters⟩, ?_⟩
        rcases falters.blames formed rfl with guard | action | endless
        · exact .inl guard
        · exact .inr action
        · exact absurd endless ends
  · intro facilities nursery start interpreter setsOut passes
    have recollects := passes.recollects (Machine.maintains_tenable formed)
      (setsOut.recollects formed)
    exact ⟨recollects.runs, recollects.kept⟩

/-- A belt that starts over as soon as it has started, beside one that is nudged once. -/
def treadmill : MachineSpec ActorLogic :=
  { root := .mk { key := "m" }
      [.mk
        { key := "still"
          transitions := [(.on "RUN", .toTarget "belt"),
            (.on "STEP",
              { actions := [.raise (fun _ _ => Event.named "NUDGE") none none,
                  .raise (fun _ _ => Event.named "STOP") none none] }),
            (.on "STOP", { })] } [],
       .mk
        { key := "belt"
          transitions := [(.always, { targets := ["belt"], reenter := true })] } []]
    context := some fun _ => .null }

/-- On the treadmill `RUN` exceeds any limit, here one of five microsteps, while `STEP` comes
to rest after two: one for itself, none for a raised event that nobody hears, and one for
another. -/
theorem steps_come_to_rest_treadmill :
    let machine : Machine ActorLogic := treadmill.machine fun _ => .null
    let facilities : Facilities := ⟨false, true, 1000⟩
    let nursery := Nursery.ofGenerations facilities machine.generations
    let start := Interpreter.create machine { maxMicrosteps := 5 }
    let world := (World.around facilities start).run [.start]
    let engine := world.interpreter.engine facilities nursery
    let bench := world.interpreter.bench
    engine.Attempts .event (Event.named "RUN") bench 5 ∧
      (∃ count last after, count ≤ 5 ∧
        engine.Takes .event (Event.named "STEP") bench count last ∧ engine.Rests last after ∧
          after.state.raised = []) ∧
      bench.Tenable machine.chart := by
  intro machine facilities nursery start world engine bench
  have built : treadmill.build = .ok machine := build_of_faultless (by decide +kernel) rfl
  obtain ⟨_, steps, _, lives⟩ := steps_come_to_rest_iff built (.inl rfl)
  have limited : engine.limit = 5 := by decide +kernel
  have exceeds := run_of_failureOf?
    (show failureOf? (engine.macrostep (Event.named "RUN")) bench = some (.loop 5 "RUN") by
      decide +kernel)
  obtain ⟨handled, goesWell⟩ := run_of_failureOf?_none
    (show failureOf? (engine.macrostep (Event.named "STEP")) bench = none by decide +kernel)
  have calms : (leftBy (engine.macrostep (Event.named "STEP")) bench).state.raised = [] := by
    decide +kernel
  obtain ⟨dealings, course⟩ :=
    World.run_course facilities (.of_create machine { maxMicrosteps := 5 }) [] [.start] rfl
  obtain ⟨runs, tenable⟩ := lives facilities nursery start world.interpreter
    (.born (.alone _)) ⟨dealings, course⟩
  refine ⟨?_, ?_, tenable⟩
  · have attempts := (steps engine .event (Event.named "RUN") bench runs).1.mp
    rw [limited] at attempts
    exact attempts ⟨_, exceeds⟩
  · obtain ⟨count, last, within, takes, rests⟩ :=
      ((steps engine .event (Event.named "STEP") bench runs).2.1 _).mp ⟨handled, goesWell⟩
    exact ⟨count, last, _, limited ▸ within, takes, rests, calms⟩

/-- Restored with the record of the shelf naming itself, the bookshelf runs and has no mail,
but the step for `RETURN` does not end. -/
theorem steps_not_at_rest_bookshelf :
    let machine : Machine ActorLogic := bookshelf.machine fun _ => .null
    let facilities : Facilities := ⟨false, true, 1000⟩
    let nursery := Nursery.ofGenerations facilities machine.generations
    ∃ start, bookshelf.build = .ok machine ∧
      Interpreter.restore machine (shelved ["m.shelf.open"]) {} = .ok start ∧
      let interpreter := ((World.around facilities start).run [.start]).interpreter
      let engine := interpreter.engine facilities nursery
      interpreter.status = .running ∧ interpreter.supervisor.inbox = [] ∧
        (∃ after, (engine.macrostep (Event.named "RETURN")).run interpreter.bench =
          .error (.stalled .entry) after) ∧
        ∃ count < engine.limit,
          engine.Drifts .event (Event.named "RETURN") interpreter.bench count := by
  intro machine facilities nursery
  have built : bookshelf.build = .ok machine := build_of_faultless (by decide +kernel) rfl
  have formed := build_machine_wellFormed built (.inl rfl)
  refine ⟨_, built, restore_shelved, ?_⟩
  intro interpreter engine
  have begins : Interpreter.Begins machine _ := ⟨{}, .inr ⟨_, restore_shelved⟩⟩
  obtain ⟨_, runs, _⟩ :=
    (World.becomes_run [.start] (World.around facilities _)).lives facilities begins
  have stalls := run_of_failureOf?
    (show failureOf? (engine.macrostep (Event.named "RETURN")) interpreter.bench =
      some (.stalled .entry) by decide +kernel)
  exact ⟨by decide +kernel, by decide +kernel, ⟨_, stalls⟩,
    (Engine.step_stalls_iff formed runs).mp ⟨_, stalls⟩⟩

end MachineSpec

end Statechart
