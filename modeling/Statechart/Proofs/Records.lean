import Statechart.Move
import Statechart.Proofs.Tables
import Statechart.Proofs.Validity

/-!
# Sound records and effective targets

A record is sound when it names only states that its history state may stand for.  The
records kept by a machine are sound from the start and stay so, and with sound records a
target stands for itself, for what was recorded, or for the defaults: nothing is ever
looked up twice.
-/

namespace Statechart

namespace HistoryRecords

theorem memory?_record
    (records : HistoryRecords) (history other : StateId) (states : List StateId) :
    (records.record history states).memory? other =
      if other = history then some states else records.memory? other :=
  Table.get?_insert records history other states

end HistoryRecords

namespace Chart

/-- Records that name only states which their history state may stand for. -/
def Sound (chart : Chart) (records : HistoryRecords) : Prop :=
  ∀ history states, records.memory? history = some states →
    ∀ state ∈ states, chart.isHistory state = false ∧
      ∀ parent, chart.parent? history = some parent →
        chart.isInside state parent = true

/-- What a target stands for: itself, or what a history state restores. -/
def standsFor (chart : Chart) (records : HistoryRecords) (target : StateId) :
    List StateId :=
  match chart.kind target with
  | .history _ defaults => (records.memory? target).getD defaults
  | _ => [target]

theorem sound_of_entries
    {chart : Chart} {records : HistoryRecords}
    (entries : ∀ entry ∈ records, ∀ state ∈ entry.2,
      chart.isHistory state = false ∧
        ∀ parent, chart.parent? entry.1 = some parent → chart.isInside state parent = true) :
    chart.Sound records := by
  intro history states remembered
  exact entries (history, states) (Table.mem_of_get? remembered)

theorem sound_empty (chart : Chart) : chart.Sound HistoryRecords.empty := by
  intro history states remembered
  simp [HistoryRecords.memory?, HistoryRecords.empty, Table.get?] at remembered

section Standing

variable {chart : Chart} {records : HistoryRecords}
variable {target state : StateId}

theorem standsFor_ordinary
    (ordinary : chart.isHistory target = false) :
    chart.standsFor records target = [target] := by
  cases kind : chart.kind target <;> simp_all [standsFor, isHistory]

theorem history_in_range
    (history : chart.isHistory target = true) :
    target < chart.size := by
  by_contra beyond
  have outside : chart.node? target = none :=
    List.getElem?_eq_none (Nat.le_of_not_lt beyond)
  simp [isHistory, kind, outside] at history

theorem history_has_parent
    (formed : chart.WellFormed)
    (history : chart.isHistory target = true) :
    ∃ parent, chart.parent? target = some parent := by
  apply formed.parented (history_in_range history)
  intro top
  subst top
  rw [formed.rootOrdinary] at history
  cases history

theorem standsFor_history
    (formed : chart.WellFormed)
    (sound : chart.Sound records)
    (history : chart.isHistory target = true)
    (member : state ∈ chart.standsFor records target) :
    chart.isHistory state = false ∧
      ∀ parent, chart.parent? target = some parent →
        chart.isInside state parent = true := by
  cases kind : chart.kind target with
  | history memory defaults =>
      cases recorded : records.memory? target with
      | none =>
          obtain ⟨parent, below⟩ := history_has_parent formed history
          have found : state ∈ defaults := by
            simpa [standsFor, kind, recorded] using member
          have fits := formed.defaultsBelow kind below state found
          refine ⟨fits.1, ?_⟩
          intro other otherBelow
          obtain rfl : parent = other := by
            rw [below] at otherBelow
            exact Option.some.inj otherBelow
          exact fits.2
      | some states =>
          apply sound target states recorded state
          simpa [standsFor, kind, recorded] using member
  | atomic => simp [isHistory, kind] at history
  | compound initial => simp [isHistory, kind] at history
  | parallel => simp [isHistory, kind] at history
  | final => simp [isHistory, kind] at history

theorem standsFor_not_history
    (formed : chart.WellFormed)
    (sound : chart.Sound records)
    (member : state ∈ chart.standsFor records target) :
    chart.isHistory state = false := by
  cases history : chart.isHistory target with
  | true => exact (standsFor_history formed sound history member).1
  | false =>
      rw [standsFor_ordinary history] at member
      obtain rfl : state = target := by simpa using member
      exact history

theorem standsFor_in_range
    (formed : chart.WellFormed)
    (sound : chart.Sound records)
    (inRange : target < chart.size)
    (member : state ∈ chart.standsFor records target) :
    state < chart.size := by
  cases history : chart.isHistory target with
  | true =>
      obtain ⟨parent, below⟩ := history_has_parent formed history
      exact inside_in_range formed
        ((standsFor_history formed sound history member).2 parent below)
  | false =>
      rw [standsFor_ordinary history] at member
      obtain rfl : state = target := by simpa using member
      exact inRange

theorem mem_effectiveWithin
    {fuel : Nat} {targets : List StateId} :
    state ∈ chart.effectiveWithin records (fuel + 1) targets ↔
      ∃ target ∈ targets, state ∈ match chart.kind target with
        | .history _ defaults =>
            (records.memory? target).getD (chart.effectiveWithin records fuel defaults)
        | _ => [target] := by
  rw [effectiveWithin]
  refine (StateSet.mem_foldl_iff (fun set target => ?_) targets []).trans
    (or_iff_right List.not_mem_nil)
  cases kind : chart.kind target with
  | history memory defaults => cases recorded : records.memory? target <;> simp [or_comm]
  | atomic => simp [or_comm]
  | compound initial => simp [or_comm]
  | parallel => simp [or_comm]
  | final => simp [or_comm]

theorem mem_effectiveWithin_ordinary
    (records : HistoryRecords) (fuel : Nat) {targets : List StateId}
    (ordinary : ∀ target ∈ targets, chart.isHistory target = false) :
    state ∈ chart.effectiveWithin records (fuel + 1) targets ↔ state ∈ targets := by
  rw [mem_effectiveWithin]
  constructor
  · rintro ⟨target, member, stands⟩
    have notHistory := ordinary target member
    cases kind : chart.kind target <;> simp_all [isHistory]
  · intro member
    have notHistory := ordinary state member
    refine ⟨state, member, ?_⟩
    cases kind : chart.kind state <;> simp_all [isHistory]

/-- The effective targets are what the targets stand for. -/
theorem mem_effectiveTargets
    (formed : chart.WellFormed)
    {targets : List StateId} :
    state ∈ chart.effectiveTargets records targets ↔
      ∃ target ∈ targets, state ∈ chart.standsFor records target := by
  obtain ⟨fuel, enough⟩ : ∃ fuel, chart.size = fuel + 1 :=
    ⟨chart.size - 1, (Nat.succ_pred_eq_of_pos formed.nonempty).symm⟩
  have same : ∀ target, (state ∈ match chart.kind target with
        | .history _ defaults =>
            (records.memory? target).getD
              (chart.effectiveWithin records (fuel + 1) defaults)
        | _ => [target]) ↔
      state ∈ chart.standsFor records target := by
    intro target
    cases kind : chart.kind target with
    | history memory defaults =>
        have history : chart.isHistory target = true := by simp [isHistory, kind]
        obtain ⟨parent, below⟩ := history_has_parent formed history
        have ordinary := fun default found =>
          (formed.defaultsBelow kind below default found).1
        cases recorded : records.memory? target with
        | none =>
            simpa [standsFor, kind, recorded] using
              mem_effectiveWithin_ordinary records fuel ordinary
        | some states => simp [standsFor, kind, recorded]
    | atomic => simp [standsFor, kind]
    | compound initial => simp [standsFor, kind]
    | parallel => simp [standsFor, kind]
    | final => simp [standsFor, kind]
  unfold effectiveTargets
  rw [enough, mem_effectiveWithin]
  simp only [same]

end Standing

section Recording

variable {chart : Chart} (formed : chart.WellFormed)
variable {active : Configuration} {records : HistoryRecords}

include formed

theorem remembered_below
    (ordinary : ∀ state ∈ active, chart.isHistory state = false)
    {parent state : StateId} {kind : HistoryKind}
    (member : state ∈ chart.remembered active parent kind) :
    state ∈ active ∧ chart.isHistory state = false ∧
      chart.isInside state parent = true := by
  cases kind with
  | deep =>
      have found : state ∈ active ∧ chart.isLeaf state = true ∧
          chart.isInside state parent = true := by
        simpa [remembered] using member
      exact ⟨found.1, ordinary state found.1, found.2.2⟩
  | shallow =>
      have found : state ∈ active ∧ chart.parent? state = some parent := by
        simpa [remembered] using member
      exact ⟨found.1, ordinary state found.1, inside_of_parent formed found.2⟩

theorem recordBelow_memory?
    (parent history : StateId) :
    (chart.recordBelow active records parent).memory? history =
      if chart.parent? history = some parent then
        match chart.kind history with
        | .history kind _ => some (chart.remembered active parent kind)
        | _ => records.memory? history
      else records.memory? history := by
  have folded : ∀ (children : List StateId) (records : HistoryRecords),
      (children.foldl (fun (records : HistoryRecords) child =>
        match chart.kind child with
        | .history kind _ => records.record child (chart.remembered active parent kind)
        | _ => records) records).memory? history =
      if history ∈ children then
        match chart.kind history with
        | .history kind _ => some (chart.remembered active parent kind)
        | _ => records.memory? history
      else records.memory? history := by
    intro children
    induction children with
    | nil => intro records; rfl
    | cons child children ih =>
        intro records
        rw [List.foldl_cons, ih]
        by_cases here : history = child
        · subst here
          cases kind : chart.kind history <;> simp [HistoryRecords.memory?_record]
        · cases chart.kind child <;> simp [here, HistoryRecords.memory?_record]
  simp only [← formed.mem_children]
  exact folded (chart.children parent) records

theorem recordBelow_memory
    (parent history : StateId) :
    (chart.recordBelow active records parent).memory? history = records.memory? history ∨
      chart.parent? history = some parent ∧
        ∃ kind, (chart.recordBelow active records parent).memory? history =
          some (chart.remembered active parent kind) := by
  rw [recordBelow_memory? formed]
  by_cases below : chart.parent? history = some parent
  · cases kind : chart.kind history with
    | history memory defaults => exact .inr ⟨below, memory, by simp [below]⟩
    | _ => exact .inl (by simp)
  · exact .inl (if_neg below)

/-- What recording does to one record: it is kept, or holds what was active below its
parent, which has been left. -/
theorem recordHistory_memory
    (active : Configuration) (records : HistoryRecords)
    (exiting : List StateId) (history : StateId) :
    (chart.recordHistory active records exiting).memory? history =
        records.memory? history ∨
      ∃ parent ∈ exiting, chart.parent? history = some parent ∧
        ∃ kind, (chart.recordHistory active records exiting).memory? history =
          some (chart.remembered active parent kind) := by
  induction exiting generalizing records with
  | nil => exact .inl rfl
  | cons parent exiting ih =>
      have unfolded : chart.recordHistory active records (parent :: exiting) =
          chart.recordHistory active (chart.recordBelow active records parent) exiting := rfl
      rw [unfolded]
      rcases ih (chart.recordBelow active records parent) with same | changed
      · rw [same]
        rcases recordBelow_memory formed parent history with kept | ⟨below, recorded⟩
        · exact .inl kept
        · exact .inr ⟨parent, List.mem_cons_self, below, recorded⟩
      · obtain ⟨other, member, found⟩ := changed
        exact .inr ⟨other, List.mem_cons_of_mem parent member, found⟩

/-- A step that leaves the parent of a history state records how that was, and any other
step keeps the record. -/
theorem recordHistory_memory?
    {history parent : StateId} {kind : HistoryKind} {defaults : List StateId}
    (isKind : chart.kind history = .history kind defaults)
    (above : chart.parent? history = some parent)
    (active : Configuration) (records : HistoryRecords) (exiting : List StateId) :
    (chart.recordHistory active records exiting).memory? history =
      if parent ∈ exiting then some (chart.remembered active parent kind)
      else records.memory? history := by
  induction exiting generalizing records with
  | nil => rfl
  | cons state exiting ih =>
      have unfolded : chart.recordHistory active records (state :: exiting) =
          chart.recordHistory active (chart.recordBelow active records state) exiting := rfl
      rw [unfolded, ih, recordBelow_memory? formed, isKind, above]
      by_cases here : parent = state
      · subst here
        simp
      · simp [here]

theorem sound_recordHistory
    (ordinary : ∀ state ∈ active, chart.isHistory state = false)
    (sound : chart.Sound records)
    (exiting : List StateId) :
    chart.Sound (chart.recordHistory active records exiting) := by
  intro history states recorded state member
  rcases recordHistory_memory formed active records exiting history with
    kept | ⟨parent, _, below, kind, changed⟩
  · rw [kept] at recorded
    exact sound history states recorded state member
  · rw [changed] at recorded
    obtain rfl := Option.some.inj recorded
    obtain ⟨_, notHistory, inside⟩ := remembered_below formed ordinary member
    refine ⟨notHistory, ?_⟩
    intro other otherBelow
    obtain rfl : parent = other := by
      rw [below] at otherBelow
      exact Option.some.inj otherBelow
    exact inside

end Recording

end Chart

end Statechart
