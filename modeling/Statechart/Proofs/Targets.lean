import Statechart.Proofs.Coexisting
import Statechart.Proofs.Restoring

/-!
# What targets stand for

A target stands for itself, for what a history state remembers, or for its defaults.  With
records that were kept when valid configurations were left, these are always states that lie
apart and cohere, so that one configuration can hold them all.
-/

namespace Statechart

namespace Chart

/-- Ordinary states inside `outer`, at least one, that lie apart and cohere. -/
structure Upright (chart : Chart) (states : List StateId) (outer : StateId) : Prop where
  nonempty : states ≠ []
  inside : ∀ state ∈ states, chart.isInside state outer = true
  ordinary : ∀ state ∈ states, chart.isHistory state = false
  apart : chart.Separate states
  coherent : chart.Coherent states

/-- Records that were kept, from none at first, whenever states of a valid configuration were
left. -/
inductive Recorded (chart : Chart) : HistoryRecords → Prop where
  | none : Recorded chart HistoryRecords.empty
  | left {records : HistoryRecords} {active : Configuration} {exiting : List StateId} :
      Recorded chart records → chart.check active = none →
      (∀ state ∈ exiting, state ∈ active) →
      Recorded chart (chart.recordHistory active records exiting)

/-- Every history state stands at first for one state, or for all regions of its parent. -/
def Defaulted (chart : Chart) : Prop :=
  ∀ memory kind defaults parent, chart.kind memory = .history kind defaults →
    chart.parent? memory = some parent →
      (∃ default, defaults = [default]) ∨
        chart.isParallel parent = true ∧ defaults = chart.regions parent

section Standing

variable {chart : Chart} (formed : chart.WellFormed)
variable {records : HistoryRecords} {state parent outer : StateId}

include formed

theorem upright_singleton
    (ordinary : chart.isHistory state = false)
    (inside : chart.isInside state outer = true) :
    chart.Upright [state] outer where
  nonempty := by simp
  inside := by simpa using inside
  ordinary := by simpa using ordinary
  apart := by simp [Separate]
  coherent := by
    rintro _ isFirst _ isSecond
    obtain rfl := List.mem_singleton.mp isFirst
    exact compatible_of_within formed (.inl (List.mem_singleton.mp isSecond).symm)

theorem upright_regions
    (isParallel : chart.isParallel parent = true)
    (regioned : chart.Regioned) :
    chart.Upright (chart.regions parent) parent where
  nonempty := regioned parent isParallel
  inside _ isRegion := inside_of_region formed isRegion
  ordinary _ isRegion := ((mem_regions formed).mp isRegion).2
  apart := regions_apart formed parent
  coherent _ isFirst _ isSecond :=
    compatible_of_parallel formed isParallel (inside_of_region formed isFirst)
      (inside_of_region formed isSecond) fun _ inside _ =>
        parent_within formed ((mem_regions formed).mp isFirst).1 inside

theorem upright_remembered
    {left : Configuration} {memory : StateId}
    (valid : chart.Valid left)
    (regioned : chart.Regioned)
    (above : chart.parent? memory = some parent)
    (wasActive : parent ∈ left)
    (kind : HistoryKind) :
    chart.Upright (chart.remembered left parent kind) parent := by
  have spans := spans_remembered formed valid regioned above wasActive kind
  have remembered := fun state (member : state ∈ chart.remembered left parent kind) =>
    remembered_below formed valid.ordinary member
  exact
    { nonempty := spans.nonempty
      inside := spans.inside
      ordinary := fun state member => (remembered state member).2.1
      apart := spans.apart
      coherent := valid.coherent formed fun state member => (remembered state member).1 }

theorem Upright.inside_of
    {states : List StateId}
    (upright : chart.Upright states parent)
    (inside : chart.isInside parent outer = true) :
    chart.Upright states outer :=
  { upright with
    inside := fun state member => inside_trans formed (upright.inside state member) inside }

theorem Recorded.sound
    (recorded : chart.Recorded records) :
    chart.Sound records := by
  induction recorded with
  | none => exact sound_empty chart
  | left _ valid _ ih =>
      exact sound_recordHistory formed ((check_eq_none_iff formed).mp valid).ordinary ih _

theorem Recorded.remembers
    (recorded : chart.Recorded records)
    {memory : StateId} {kind : HistoryKind} {defaults states : List StateId}
    (isKind : chart.kind memory = .history kind defaults)
    (above : chart.parent? memory = some parent)
    (known : records.memory? memory = some states) :
    ∃ left : Configuration, chart.Valid left ∧ parent ∈ left ∧
      states = chart.remembered left parent kind := by
  induction recorded with
  | none => cases known
  | @left records active exiting _ valid areActive ih =>
      rw [recordHistory_memory? formed isKind above] at known
      by_cases isLeft : parent ∈ exiting
      · rw [if_pos isLeft] at known
        exact ⟨active, (check_eq_none_iff formed).mp valid, areActive parent isLeft,
          (Option.some.inj known).symm⟩
      · rw [if_neg isLeft] at known
        exact ih known

/-- What a history state stands for is upright. -/
theorem Recorded.upright
    (recorded : chart.Recorded records)
    (regioned : chart.Regioned)
    (defaulted : chart.Defaulted)
    {memory : StateId}
    (history : chart.isHistory memory = true)
    (above : chart.parent? memory = some parent) :
    chart.Upright (chart.standsFor records memory) parent := by
  cases isKind : chart.kind memory with
  | history kind defaults =>
      cases known : records.memory? memory with
      | none =>
          have stands : chart.standsFor records memory = defaults := by
            simp [standsFor, isKind, known]
          rw [stands]
          rcases defaulted memory kind defaults parent isKind above with
            ⟨default, rfl⟩ | ⟨isParallel, rfl⟩
          · obtain ⟨ordinary, inside⟩ :=
              formed.defaultsBelow isKind above default List.mem_cons_self
            exact upright_singleton formed ordinary inside
          · exact upright_regions formed isParallel regioned
      | some states =>
          have stands : chart.standsFor records memory = states := by
            simp [standsFor, isKind, known]
          obtain ⟨left, valid, wasActive, rfl⟩ := recorded.remembers formed isKind above known
          rw [stands]
          exact upright_remembered formed valid regioned above wasActive kind
  | _ => simp [isHistory, isKind] at history

end Standing

end Chart

namespace Draft

variable {L : Type} {spec : StateSpec L}

theorem usualDefaults_eq (parent : StateId) :
    (ofSpec spec).usualDefaults parent =
      match (ofSpec spec).chartWithKinds.kind parent with
      | .compound initial => [initial]
      | .parallel => (ofSpec spec).chartWithKinds.regions parent
      | _ => [] := by
  unfold usualDefaults
  cases described : (ofSpec spec).head? parent with
  | none => simp [chartWithKinds_kind_beyond described]
  | some head =>
      rw [chartWithKinds_kind described, regions_eq]
      obtain ⟨key, id, headKind⟩ := head
      cases headKind <;> rfl

/-- A state that a history state names is its only default, if the description is without
faults. -/
theorem historyDefaults_named
    (faultless : (ofSpec spec).allKindErrors = [])
    {memory parent : StateId} {head : StateHead L} {kind : HistoryKind}
    {defaults : List StateId} {reference : String}
    (described : (ofSpec spec).head? memory = some head)
    (isKind : (ofSpec spec).kindOf memory head = .history kind defaults)
    (below : spec.layOut.parent? memory = some parent)
    (named : head.historyTarget = some reference) :
    ∃ default, defaults = [default] := by
  have noFaults := kindErrors_nil faultless described
  have stands := kindOf_eq_history isKind
  have accepted : (ofSpec spec).defaultErrors memory head.historyTarget = [] := by
    cases headKind : head.kind with
    | history memoryKind =>
        simp only [kindErrors, headKind, List.append_eq_nil_iff] at noFaults
        exact noFaults.2
    | _ =>
        rw [kindOf_plain _ _ _ (fun memoryKind => by simp [headKind])] at isKind
        exact absurd isKind (plainKind_not_history _ _ _ _ _)
  unfold historyDefaults at stands
  unfold defaultErrors at accepted
  simp only [below, named] at stands accepted
  cases found : target? spec.layOut memory reference with
  | none => simp [found] at accepted
  | some default =>
      by_cases fits : (ofSpec spec).acceptsDefault memory parent default = true
      · simp only [found, fits, if_true] at stands
        exact ⟨default, stands.symm⟩
      · simp [found, fits] at accepted

theorem chartWithKinds_defaulted
    (faultless : (ofSpec spec).allKindErrors = [])
    (ordinaryRoot : spec.head.kind = .regular ∨ spec.head.kind = .parallel) :
    (ofSpec spec).chartWithKinds.Defaulted := by
  intro memory kind defaults parent isKind above
  have formed := chartWithKinds_wellFormed spec faultless ordinaryRoot
  cases described : (ofSpec spec).head? memory with
  | none =>
      rw [chartWithKinds_kind_beyond described] at isKind
      cases isKind
  | some head =>
      rw [chartWithKinds_kind described] at isKind
      have below := above
      rw [chartWithKinds_parent?] at below
      cases named : head.historyTarget with
      | some reference => exact .inl (historyDefaults_named faultless described isKind below named)
      | none =>
          have usual : (ofSpec spec).usualDefaults parent = defaults := by
            have stands := kindOf_eq_history isKind
            unfold historyDefaults at stands
            simpa only [below, named] using stands
          rw [usualDefaults_eq] at usual
          rcases Chart.parent_kind formed above with ⟨initial, parentKind⟩ | parentKind
          · rw [parentKind] at usual
            exact .inl ⟨initial, usual.symm⟩
          · rw [parentKind] at usual
            exact .inr ⟨by simp [Chart.isParallel, parentKind], usual.symm⟩

end Draft

/-- The history states of a built machine stand at first for one state, or for all regions of
their parent. -/
theorem MachineSpec.build_defaulted
    {L : Type} {spec : MachineSpec L} {machine : Machine L}
    (built : spec.build = .ok machine)
    (ordinaryRoot : spec.HasOrdinaryRoot) :
    machine.chart.Defaulted := by
  rw [build_chart built]
  exact Draft.chartWithKinds_defaulted (build_faultless built).2 ordinaryRoot

end Statechart
