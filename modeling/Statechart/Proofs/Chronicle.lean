import Mathlib.Data.List.Chain
import Statechart.Proofs.Choosing
import Statechart.Proofs.EntryEnds
import Statechart.Proofs.StepValidity

/-!
# Chronicles

A chronicle lists the states that are entered and left on the way from the start of a
machine to where it stands now, microstep by microstep.  All that holds of whatever a
machine can reach is shown by induction over its chronicle: that the active states can be
planned from, that they form a valid configuration if every step is lawful, and that each
state is entered and left in turn if no step enters a state that stays active.
-/

namespace Statechart

/-- A state that is entered, or else left. -/
structure Visit where
  state : StateId
  entering : Bool
  deriving DecidableEq

/-- Visits that enter all of these states, or else leave them. -/
def visitAll (entering : Bool) (states : List StateId) : List Visit :=
  states.map fun state => { state, entering }

/-- When a state is entered and when it is left, in order. -/
def visitsOf (state : StateId) (visits : List Visit) : List Bool :=
  (visits.filter fun visit => visit.state = state).map Visit.entering

/-- Each entry comes while the state is left and each exit while it is entered; `inside`
says which it is in the end. -/
inductive Toggles : List Bool → Bool → Prop where
  | none : Toggles [] false
  | visit {visits : List Bool} (entering : Bool) :
      Toggles visits (!entering) → Toggles (visits ++ [entering]) entering

namespace Toggles

variable {visits : List Bool} {inside : Bool}

theorem enter
    (toggles : Toggles visits false) :
    Toggles (visits ++ [true]) true :=
  .visit true toggles

theorem leave
    (toggles : Toggles visits true) :
    Toggles (visits ++ [false]) false :=
  .visit false toggles

/-- A state is entered as often as it is left, and once more if it is inside. -/
theorem balanced
    (toggles : Toggles visits inside) :
    visits.count true = visits.count false + inside.toNat := by
  induction toggles with
  | none => rfl
  | visit entering _ ih => cases entering <;> simp_all

theorem alternates
    (toggles : Toggles visits inside) :
    (false :: visits).IsChain (· ≠ ·) ∧ (false :: visits).getLast? = some inside := by
  induction toggles with
  | none => exact ⟨.singleton false, rfl⟩
  | @visit visits entering _ ih =>
      obtain ⟨chain, last⟩ := ih
      refine ⟨?_, by rw [← List.cons_append, List.getLast?_concat]⟩
      rw [← List.cons_append, List.isChain_append]
      refine ⟨chain, .singleton entering, ?_⟩
      intro before isLast after isFirst
      rw [last] at isLast
      cases isLast
      cases isFirst
      cases entering <;> decide

/-- Where the visits end is determined by them. -/
theorem unique
    {other : Bool}
    (toggles : Toggles visits inside)
    (again : Toggles visits other) :
    inside = other := by
  have first := toggles.alternates.2
  rw [again.alternates.2] at first
  exact (Option.some.inj first).symm

theorem before_last
    {entering : Bool}
    (toggles : Toggles (visits ++ [entering]) inside) :
    Toggles visits (!entering) := by
  generalize joined : visits ++ [entering] = all at toggles
  cases toggles with
  | none => simp at joined
  | visit last before =>
      obtain ⟨rfl, single⟩ := List.append_inj' joined rfl
      obtain rfl : entering = inside := by simpa using single
      exact before

end Toggles

section Visits

theorem visitsOf_append
    (state : StateId) (first second : List Visit) :
    visitsOf state (first ++ second) = visitsOf state first ++ visitsOf state second := by
  simp [visitsOf]

theorem visitsOf_visitAll
    (entering : Bool) {states : List StateId}
    (nodup : states.Nodup)
    (state : StateId) :
    visitsOf state (visitAll entering states) =
      if state ∈ states then [entering] else [] := by
  induction states with
  | nil => rfl
  | cons first rest ih =>
      obtain ⟨new, nodup⟩ := List.nodup_cons.mp nodup
      have here : visitsOf state (visitAll entering (first :: rest)) =
          (if first = state then [entering] else []) ++
            visitsOf state (visitAll entering rest) := by
        by_cases same : first = state <;> simp [visitsOf, visitAll, same]
      rw [here, ih nodup]
      by_cases same : first = state
      · subst same
        simp [new]
      · simp [same, Ne.symm same]

variable {visits : List Visit} {states : List StateId} {state : StateId}
variable {active : Prop} [Decidable active]

theorem Toggles.leaveAll
    (before : Toggles (visitsOf state visits) (decide active))
    (nodup : states.Nodup)
    (wereActive : state ∈ states → active) :
    Toggles (visitsOf state (visits ++ visitAll false states))
      (decide (active ∧ state ∉ states)) := by
  rw [visitsOf_append, visitsOf_visitAll false nodup]
  by_cases isLeft : state ∈ states
  · rw [if_pos isLeft, decide_eq_false fun kept => kept.2 isLeft]
    rw [decide_eq_true (wereActive isLeft)] at before
    exact before.leave
  · rw [if_neg isLeft, List.append_nil]
    simpa [isLeft] using before

theorem Toggles.enterAll
    (before : Toggles (visitsOf state visits) (decide active))
    (nodup : states.Nodup)
    (fresh : state ∈ states → ¬ active) :
    Toggles (visitsOf state (visits ++ visitAll true states))
      (decide (state ∈ states ∨ active)) := by
  rw [visitsOf_append, visitsOf_visitAll true nodup]
  by_cases isEntered : state ∈ states
  · rw [if_pos isEntered, decide_eq_true (.inl isEntered)]
    rw [decide_eq_false (fresh isEntered)] at before
    exact before.enter
  · rw [if_neg isEntered, List.append_nil]
    simpa [isEntered] using before

end Visits

/-- A machine whose chart is well formed, with transitions that lead to its states. -/
structure Machine.WellFormed {L : Type} (machine : Machine L) : Prop where
  chart : machine.chart.WellFormed
  lead : ∀ source,
    Transition.LeadWithin machine.chart (machine.conduct source).transitions

theorem MachineSpec.build_machine_wellFormed
    {L : Type} {spec : MachineSpec L} {machine : Machine L}
    (built : spec.build = .ok machine)
    (ordinaryRoot : spec.HasOrdinaryRoot) :
    machine.WellFormed :=
  ⟨build_wellFormed built ordinaryRoot, build_leadWithin built ordinaryRoot⟩

namespace Machine

variable {L : Type} (machine : Machine L)

/-- The microstep from these active states that makes these moves and enters these
states can be taken on some event in some context. -/
structure Steps (active : Configuration) (history : HistoryRecords) (moves : List Move)
    (entries : StateSet) : Prop where
  selected : ∃ trigger context event selection,
    machine.select trigger active history context event = .ok selection ∧
      moves = selection.chosen.map Choice.move
  planned : machine.chart.entries? (machine.chart.recordedBy active history moves) moves =
    some entries

/-- These visits lead from the start to these active states and records. -/
inductive Chronicle : List Visit → Configuration → HistoryRecords → Prop where
  | start {entries : StateSet} :
      machine.chart.initialEntries? = some entries →
      Chronicle (visitAll true entries) (StateSet.ofList entries) HistoryRecords.empty
  | step {visits : List Visit} {active : Configuration} {history : HistoryRecords}
      {moves : List Move} {entries : StateSet} :
      Chronicle visits active history →
      machine.Steps active history moves entries →
      Chronicle
        (visits ++ (visitAll false (machine.chart.exits active history moves) ++
          visitAll true entries))
        (machine.chart.succeeding active history moves entries)
        (machine.chart.recordedBy active history moves)

/-- These active states and records can be reached. -/
def Reaches (active : Configuration) (history : HistoryRecords) : Prop :=
  ∃ visits, machine.Chronicle visits active history

/-- Every microstep that can be reached is lawful. -/
def StepsLawfully : Prop :=
  ∀ active history moves entries, machine.Reaches active history →
    machine.Steps active history moves entries →
      machine.chart.Lawful active history moves entries

/-- No microstep that can be reached enters a state that stays active. -/
def StepsFreshly : Prop :=
  ∀ active history moves entries, machine.Reaches active history →
    machine.Steps active history moves entries →
      ∀ state ∈ entries, state ∉ machine.chart.staying active history moves

end Machine

/-- What holds of all that can be reached, even if a step goes wrong. -/
structure Chart.Tenable (chart : Chart) (active : Configuration)
    (records : HistoryRecords) : Prop where
  inRange : ∀ state ∈ active, state < chart.size
  ordinary : ∀ state ∈ active, chart.isHistory state = false
  ordered : active.Ordered
  sound : chart.Sound records

namespace Machine

variable {L : Type} {machine : Machine L} (formed : machine.WellFormed)
variable {visits : List Visit} {active : Configuration} {history : HistoryRecords}
variable {moves : List Move} {entries : StateSet}

theorem Steps.toggles
    (steps : machine.Steps active history moves entries)
    (fresh : ∀ state ∈ entries, state ∉ machine.chart.staying active history moves)
    {state : StateId}
    (before : Toggles (visitsOf state visits) (decide (state ∈ active))) :
    Toggles
      (visitsOf state
        (visits ++ (visitAll false (machine.chart.exits active history moves) ++
          visitAll true entries)))
      (decide (state ∈ machine.chart.succeeding active history moves entries)) := by
  rw [← List.append_assoc]
  have left := before.leaveAll (Chart.exits_nodup machine.chart active history moves)
    fun isLeft => (Chart.mem_exits.mp isLeft).1
  have entered := left.enterAll (Chart.entries_ordered steps.planned).nodup
    fun isEntered kept => fresh state isEntered (StateSet.mem_removeAll.mpr kept)
  simpa only [Chart.mem_succeeding, Chart.staying, StateSet.mem_removeAll] using entered

/-- If no step enters a state that stays active, each state is entered and left in turn,
and it is active exactly while it is entered and not left. -/
theorem Chronicle.toggles
    (freshly : machine.StepsFreshly)
    (chronicle : machine.Chronicle visits active history)
    (state : StateId) :
    Toggles (visitsOf state visits) (decide (state ∈ active)) := by
  induction chronicle with
  | @start entries started =>
      have outside : Toggles (visitsOf state []) (decide False) := .none
      have entered := outside.enterAll (Chart.initialEntries_ordered started).nodup
        fun _ => not_false
      simpa [StateSet.ofList] using entered
  | step earlier steps ih =>
      exact steps.toggles (freshly _ _ _ _ ⟨_, earlier⟩ steps) ih

/-- Each state is entered and left in turn, whatever is reached, exactly if no step enters
a state that stays active. -/
theorem stepsFreshly_iff_toggles :
    machine.StepsFreshly ↔
      ∀ visits active history, machine.Chronicle visits active history →
        ∀ state, Toggles (visitsOf state visits) (decide (state ∈ active)) := by
  constructor
  · intro freshly visits active history chronicle state
    exact chronicle.toggles freshly state
  · rintro toggles active history moves entries ⟨visits, chronicle⟩ steps state entered stays
    obtain ⟨isActive, kept⟩ := StateSet.mem_removeAll.mp stays
    have before := toggles _ _ _ chronicle state
    have after := toggles _ _ _ (chronicle.step steps) state
    rw [visitsOf_append, visitsOf_append,
      visitsOf_visitAll false (Chart.exits_nodup machine.chart active history moves),
      visitsOf_visitAll true (Chart.entries_ordered steps.planned).nodup,
      if_neg kept, if_pos entered, List.nil_append] at after
    rw [decide_eq_true isActive] at before
    cases before.unique after.before_last

include formed

theorem Steps.plan
    (steps : machine.Steps active history moves entries)
    (tenable : machine.chart.Tenable active history) :
    machine.chart.Planned (machine.chart.recordedBy active history moves) moves entries :=
  Chart.entries_planned formed.chart
    (Chart.recordedBy_sound formed.chart tenable.ordinary tenable.sound moves) steps.planned

theorem Steps.in_range
    (steps : machine.Steps active history moves entries)
    (tenable : machine.chart.Tenable active history) :
    ∀ state ∈ entries, state < machine.chart.size := by
  obtain ⟨trigger, context, event, selection, selected, rfl⟩ := steps.selected
  exact (steps.plan formed tenable).in_range formed.chart
    (Chart.recordedBy_sound formed.chart tenable.ordinary tenable.sound _)
    (select_targets_in_range formed.lead selected)

theorem Steps.fits
    (steps : machine.Steps active history moves entries)
    (valid : machine.chart.Valid active) :
    ∀ move ∈ moves, move.Fits machine.chart active := by
  obtain ⟨trigger, context, event, selection, selected, rfl⟩ := steps.selected
  exact select_fits formed.chart formed.lead valid selected

theorem Steps.tenable
    (steps : machine.Steps active history moves entries)
    (tenable : machine.chart.Tenable active history) :
    machine.chart.Tenable (machine.chart.succeeding active history moves entries)
      (machine.chart.recordedBy active history moves) := by
  constructor
  · intro state member
    rcases Chart.mem_succeeding.mp member with entered | stays
    · exact steps.in_range formed tenable state entered
    · exact tenable.inRange state (Chart.mem_staying.mp stays).1
  · intro state member
    rcases Chart.mem_succeeding.mp member with entered | stays
    · exact (steps.plan formed tenable).ordinary state entered
    · exact tenable.ordinary state (Chart.mem_staying.mp stays).1
  · exact (tenable.ordered.removeAll _).insertAll entries
  · exact Chart.recordedBy_sound formed.chart tenable.ordinary tenable.sound moves

/-- The active states after a step from a valid configuration are a valid configuration
exactly if the step is lawful. -/
theorem Steps.valid_iff_lawful
    (steps : machine.Steps active history moves entries)
    (valid : machine.chart.Valid active)
    (sound : machine.chart.Sound history) :
    machine.chart.Valid (machine.chart.succeeding active history moves entries) ↔
      machine.chart.Lawful active history moves entries :=
  Chart.valid_step_iff_lawful formed.chart valid sound (steps.fits formed valid)
    (Chart.entries_planned formed.chart
      (Chart.recordedBy_sound formed.chart valid.ordinary sound moves) steps.planned)

theorem valid_start
    (started : machine.chart.initialEntries? = some entries) :
    machine.chart.Valid (StateSet.ofList entries) := by
  apply (Chart.initialEntries_valid formed.chart started).congr
  intro state
  simp [StateSet.ofList]

theorem Chronicle.tenable
    (chronicle : machine.Chronicle visits active history) :
    machine.chart.Tenable active history := by
  induction chronicle with
  | start started =>
      have valid := valid_start formed started
      exact ⟨valid.inRange, valid.ordinary, StateSet.ordered_nil.insertAll _,
        Chart.sound_empty machine.chart⟩
  | step _ steps ih => exact steps.tenable formed ih

/-- If all steps are lawful, whatever is reached is a valid configuration. -/
theorem Chronicle.valid
    (lawful : machine.StepsLawfully)
    (chronicle : machine.Chronicle visits active history) :
    machine.chart.Valid active := by
  induction chronicle with
  | start started => exact valid_start formed started
  | step earlier steps ih =>
      exact (steps.valid_iff_lawful formed ih (earlier.tenable formed).sound).mpr
        (lawful _ _ _ _ ⟨_, earlier⟩ steps)

omit formed in
/-- Steps of which each leads to a valid configuration are lawful. -/
theorem stepsLawfully_iff_valid
    (formed : machine.WellFormed) :
    machine.StepsLawfully ↔
      ∀ active history, machine.Reaches active history → machine.chart.Valid active := by
  constructor
  · rintro lawful active history ⟨visits, chronicle⟩
    exact chronicle.valid formed lawful
  · rintro valid active history moves entries ⟨visits, chronicle⟩ steps
    have before := valid active history ⟨visits, chronicle⟩
    have after := valid _ _ ⟨_, chronicle.step steps⟩
    exact (steps.valid_iff_lawful formed before (chronicle.tenable formed).sound).mp after

/-- In a valid configuration, a step enters no state that stays active exactly if it
enters nothing but states strictly inside the domains of its moves. -/
theorem Steps.fresh_iff_contained
    (steps : machine.Steps active history moves entries)
    (valid : machine.chart.Valid active)
    (sound : machine.chart.Sound history) :
    (∀ state ∈ entries, state ∉ machine.chart.staying active history moves) ↔
      machine.chart.Contained history moves entries :=
  Chart.fresh_iff_contained formed.chart valid sound (steps.fits formed valid)
    (Chart.entries_planned formed.chart
      (Chart.recordedBy_sound formed.chart valid.ordinary sound moves) steps.planned)

end Machine

end Statechart
