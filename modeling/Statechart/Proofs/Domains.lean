import Statechart.Proofs.Records

/-!
# Domains

The domain of a move lies above its source and its effective targets, so a move leaves
only what is active strictly inside its domain.  Recording what a step leaves may change
what a history target stands for, but never leads beyond the domains of the step.
-/

namespace Statechart

/-- A move from an active state to states of the chart. -/
structure Move.Fits (move : Move) (chart : Chart) (active : Configuration) : Prop where
  sourceActive : move.source ∈ active
  targetsInRange : ∀ target ∈ move.targets, target < chart.size

namespace Chart

section Domain

variable {chart : Chart} (formed : chart.WellFormed)
variable {records : HistoryRecords} {move : Move}

include formed

theorem meet_above
    {first : StateId} {others : List StateId}
    (inRange : first < chart.size)
    (othersInRange : ∀ other ∈ others, other < chart.size) :
    chart.Within first (chart.meet first others) ∧
      ∀ other ∈ others, chart.Within other (chart.meet first others) := by
  unfold meet
  cases found : (chart.ancestors first).find? fun ancestor =>
      (ancestor = root || chart.isCompound ancestor) &&
        others.all fun state => chart.isInside state ancestor with
  | none =>
      constructor
      · exact within_root formed inRange
      · intro other member
        exact within_root formed (othersInRange other member)
  | some ancestor =>
      have holds := List.find?_some found
      have above := List.mem_of_find?_eq_some found
      simp only [Bool.and_eq_true, List.all_eq_true] at holds
      constructor
      · exact .inr ((isInside_iff_mem formed).mpr above)
      · intro other member
        exact .inr (holds.2 other member)

theorem effectiveTargets_in_range
    (sound : chart.Sound records)
    {targets : List StateId}
    (inRange : ∀ target ∈ targets, target < chart.size) :
    ∀ state ∈ chart.effectiveTargets records targets, state < chart.size := by
  intro state member
  obtain ⟨target, isTarget, stands⟩ := (mem_effectiveTargets formed).mp member
  exact standsFor_in_range formed sound (inRange target isTarget) stands

theorem source_within_domain
    (sourceInRange : move.source < chart.size)
    (sound : chart.Sound records)
    (inRange : ∀ target ∈ move.targets, target < chart.size) :
    chart.Within move.source (chart.domain records move) := by
  unfold domain
  by_cases internal : (!move.reenter && chart.staysInside records move) = true
  · rw [if_pos internal]
    exact .inl rfl
  · rw [if_neg internal]
    exact (meet_above formed sourceInRange
      (effectiveTargets_in_range formed sound inRange)).1

theorem target_within_domain
    (sourceInRange : move.source < chart.size)
    (sound : chart.Sound records)
    (inRange : ∀ target ∈ move.targets, target < chart.size) :
    ∀ state ∈ chart.effectiveTargets records move.targets,
      chart.Within state (chart.domain records move) := by
  intro state member
  unfold domain
  by_cases internal : (!move.reenter && chart.staysInside records move) = true
  · rw [if_pos internal]
    have stays : chart.staysInside records move = true := by
      simp only [Bool.and_eq_true] at internal
      exact internal.2
    simp only [staysInside, List.all_eq_true, Bool.or_eq_true, decide_eq_true_eq] at stays
    exact stays state member
  · rw [if_neg internal]
    exact (meet_above formed sourceInRange
      (effectiveTargets_in_range formed sound inRange)).2 state member

end Domain

section Leaving

variable {chart : Chart} {active : Configuration} {records : HistoryRecords}
variable {moves : List Move} {state : StateId}

theorem mem_exitsOf
    {move : Move} :
    state ∈ chart.exitsOf active records move ↔
      move.targets ≠ [] ∧ state ∈ active ∧
        chart.isInside state (chart.domain records move) = true := by
  by_cases targetless : move.targets = []
  · simp [exitsOf, targetless]
  · simp [exitsOf, targetless]

/-- A step leaves what is active strictly inside the domain of a move with targets. -/
theorem mem_exits :
    state ∈ chart.exits active records moves ↔
      state ∈ active ∧ ∃ move ∈ moves, move.targets ≠ [] ∧
        chart.isInside state (chart.domain records move) = true := by
  have folded : ∀ (rest : List Move) (set : StateSet),
      state ∈ rest.foldl (fun (set : StateSet) move =>
        set.insertAll (chart.exitsOf active records move)) set ↔
      state ∈ set ∨ ∃ move ∈ rest, state ∈ chart.exitsOf active records move := by
    intro rest
    induction rest with
    | nil => simp
    | cons move rest ih =>
        intro set
        rw [List.foldl_cons, ih, StateSet.mem_insertAll]
        constructor
        · rintro ((here | held) | ⟨other, member, later⟩)
          · exact .inr ⟨move, List.mem_cons_self, here⟩
          · exact .inl held
          · exact .inr ⟨other, List.mem_cons_of_mem move member, later⟩
        · rintro (held | ⟨other, member, found⟩)
          · exact .inl (.inr held)
          · rcases List.mem_cons.mp member with rfl | later
            · exact .inl (.inl found)
            · exact .inr ⟨other, later, found⟩
  unfold exits
  rw [List.mem_reverse]
  refine (folded moves []).trans ?_
  constructor
  · rintro (none | ⟨move, member, left⟩)
    · cases none
    · obtain ⟨targeted, isActive, inside⟩ := mem_exitsOf.mp left
      exact ⟨isActive, move, member, targeted, inside⟩
  · rintro ⟨isActive, move, member, targeted, inside⟩
    exact .inr ⟨move, member, mem_exitsOf.mpr ⟨targeted, isActive, inside⟩⟩

theorem exits_descending
    (chart : Chart) (active : Configuration) (records : HistoryRecords) (moves : List Move) :
    (chart.exits active records moves).Pairwise (· > ·) := by
  have folded : ∀ (rest : List Move) (set : StateSet), set.Ordered →
      (rest.foldl (fun (set : StateSet) move =>
        set.insertAll (chart.exitsOf active records move)) set).Ordered := by
    intro rest
    induction rest with
    | nil => exact fun set ordered => ordered
    | cons move rest ih => exact fun set ordered => ih _ (ordered.insertAll _)
  exact List.pairwise_reverse.mpr (folded moves [] StateSet.ordered_nil)

theorem exits_nodup
    (chart : Chart) (active : Configuration) (records : HistoryRecords) (moves : List Move) :
    (chart.exits active records moves).Nodup :=
  (exits_descending chart active records moves).imp Nat.ne_of_gt

/-- Whatever the targets of a move stand for once the step has recorded what it leaves
lies within the domain of some move of the step. -/
theorem recorded_target_within
    (formed : chart.WellFormed)
    (valid : chart.Valid active)
    (sound : chart.Sound records)
    (fits : ∀ move ∈ moves, move.Fits chart active)
    {move : Move}
    (chosen : move ∈ moves)
    (member : state ∈ chart.effectiveTargets
      (chart.recordHistory active records (chart.exits active records moves)) move.targets) :
    ∃ other ∈ moves, other.targets ≠ [] ∧
      chart.Within state (chart.domain records other) := by
  obtain ⟨target, isTarget, stands⟩ := (mem_effectiveTargets formed).mp member
  have targeted : move.targets ≠ [] := List.ne_nil_of_mem isTarget
  have kept : state ∈ chart.standsFor records target →
      ∃ other ∈ moves, other.targets ≠ [] ∧
        chart.Within state (chart.domain records other) := by
    intro before
    have sourceInRange := valid.inRange move.source (fits move chosen).sourceActive
    exact ⟨move, chosen, targeted,
      target_within_domain formed sourceInRange sound (fits move chosen).targetsInRange state
        ((mem_effectiveTargets formed).mpr ⟨target, isTarget, before⟩)⟩
  cases history : chart.isHistory target with
  | false =>
      apply kept
      rw [standsFor_ordinary history] at stands ⊢
      exact stands
  | true =>
      rcases recordHistory_memory formed active records
        (chart.exits active records moves) target with
        same | ⟨parent, left, below, kind, changed⟩
      · apply kept
        unfold standsFor at stands ⊢
        rw [same] at stands
        exact stands
      · have remembered : state ∈ chart.remembered active parent kind := by
          unfold standsFor at stands
          rw [changed] at stands
          cases nodeKind : chart.kind target <;> simp_all [isHistory]
        obtain ⟨_, _, inside⟩ := remembered_below formed valid.ordinary remembered
        obtain ⟨_, other, otherChosen, otherTargeted, parentInside⟩ := mem_exits.mp left
        exact ⟨other, otherChosen, otherTargeted,
          .inr (inside_trans formed inside parentInside)⟩

end Leaving

end Chart

end Statechart
