import Statechart.Proofs.Targets

/-!
# Moves that leave and enter their source again

A move that insists on leaving its source, and whose targets are the source or lie in it, has a
domain around the source, unless the source is the root: nothing lies around that.  So any other
source is left, and it is entered again as soon as a target stands for something; the root is
never left, and yet entered if it is a target itself.
-/

namespace Statechart

/-- A move that insists on leaving its source, to targets that are the source or lie in it. -/
structure Move.Reentrant (move : Move) (chart : Chart) : Prop where
  insists : move.reenter = true
  targeted : move.targets ≠ []
  inner : ∀ target ∈ move.targets, chart.Within target move.source

namespace Chart

section Leaving

variable {chart : Chart} (formed : chart.WellFormed)
variable {active : Configuration} {records : HistoryRecords} {move : Move}

include formed

theorem inside_reentrant_domain
    (inRange : move.source < chart.size)
    (reentrant : move.Reentrant chart)
    (notRoot : move.source ≠ root) :
    chart.isInside move.source (chart.domain records move) = true := by
  rw [domain, if_neg (by simp [reentrant.insists]), meet]
  cases found : (chart.ancestors move.source).find? fun ancestor =>
      (ancestor = root || chart.isCompound ancestor) &&
        (chart.effectiveTargets records move.targets).all fun state =>
          chart.isInside state ancestor with
  | none => exact inside_root formed inRange notRoot
  | some ancestor => exact (isInside_iff_mem formed).mpr (List.mem_of_find?_eq_some found)

theorem source_left_iff
    (valid : chart.Valid active)
    (sourceActive : move.source ∈ active)
    (reentrant : move.Reentrant chart) :
    move.source ∈ chart.exits active records [move] ↔ move.source ≠ root := by
  rw [mem_exits]
  constructor
  · rintro ⟨_, other, chosen, _, inside⟩ isRoot
    rw [isRoot, not_root_inside formed] at inside
    cases inside
  · intro notRoot
    exact ⟨sourceActive, move, List.mem_singleton_self move, reentrant.targeted,
      inside_reentrant_domain formed (valid.inRange _ sourceActive) reentrant notRoot⟩

end Leaving

section Entering

variable {chart : Chart} (formed : chart.WellFormed)
variable {records : HistoryRecords} {move : Move} {entries : StateSet}

theorem Enters.target_stands
    {before after : StateSet} {state : StateId}
    (formed : chart.WellFormed)
    (enters : chart.Enters records move before after state) :
    ∃ target ∈ move.targets, chart.standsFor records target ≠ [] := by
  have standing : ∀ {effective}, effective ∈ chart.effectiveTargets records move.targets →
      ∃ target ∈ move.targets, chart.standsFor records target ≠ [] := by
    intro effective isEffective
    obtain ⟨target, isTarget, stands⟩ := (mem_effectiveTargets formed).mp isEffective
    exact ⟨target, isTarget, List.ne_nil_of_mem stands⟩
  cases enters with
  | below isTarget stands _ => exact ⟨_, isTarget, List.ne_nil_of_mem stands⟩
  | restoredLine isTarget _ _ stands _ => exact ⟨_, isTarget, List.ne_nil_of_mem stands⟩
  | restoredRegion isTarget _ _ stands _ => exact ⟨_, isTarget, List.ne_nil_of_mem stands⟩
  | line isEffective _ _ => exact standing isEffective
  | region isEffective _ => exact standing isEffective

include formed

theorem Enters.root_target
    {before after : StateSet}
    (sound : chart.Sound records)
    (enters : chart.Enters records move before after root) :
    root ∈ move.targets := by
  have above : ∀ {outer}, chart.isInside root outer ≠ true := by
    simp [not_root_inside formed]
  have notSprouting : ∀ {line}, ¬ chart.Sprouts before after line root := by
    rintro line ⟨parallel, _, _, region, isRegion, _, within, _⟩
    exact above (within_inside_trans formed within
      (inside_of_parent formed ((mem_regions formed).mp isRegion).1))
  cases enters with
  | @below target effective isTarget stands within =>
      obtain rfl : root = effective := within.resolve_right above
      cases history : chart.isHistory target with
      | true =>
          obtain ⟨parent, below⟩ := history_has_parent formed history
          exact absurd ((standsFor_history formed sound history stands).2 parent below) above
      | false =>
          rw [standsFor_ordinary history, List.mem_singleton] at stands
          rwa [stands]
  | restoredLine isTarget history parent stands inLine =>
      have inside := (standsFor_history formed sound history stands).2 _ parent
      exact absurd ((mem_between formed inside).mp inLine).2 above
  | restoredRegion _ _ _ _ sprouts => exact absurd sprouts notSprouting
  | line _ _ inside => exact absurd inside above
  | region _ sprouts => exact absurd sprouts notSprouting

variable (sound : chart.Sound records)

include sound

theorem effective_within_source
    (ordinary : chart.isHistory move.source = false)
    (reentrant : move.Reentrant chart)
    {effective : StateId}
    (isEffective : effective ∈ chart.effectiveTargets records move.targets) :
    chart.Within effective move.source := by
  obtain ⟨target, isTarget, stands⟩ := (mem_effectiveTargets formed).mp isEffective
  cases history : chart.isHistory target with
  | false =>
      rw [standsFor_ordinary history, List.mem_singleton] at stands
      rw [stands]
      exact reentrant.inner target isTarget
  | true =>
      obtain ⟨parent, below⟩ := history_has_parent formed history
      have inside : chart.isInside target move.source = true := by
        refine (reentrant.inner target isTarget).resolve_left fun same => ?_
        rw [same, ordinary] at history
        cases history
      exact .inr (inside_within_trans formed
        ((standsFor_history formed sound history stands).2 parent below)
        (parent_within formed below inside))

theorem effective_entered
    (reentrant : move.Reentrant chart)
    (planned : chart.entries? records [move] = some entries)
    {effective : StateId}
    (isEffective : effective ∈ chart.effectiveTargets records move.targets) :
    effective ∈ entries := by
  obtain ⟨fuel, enough⟩ : ∃ fuel, chart.entryBound = fuel + 1 :=
    Nat.exists_eq_succ_of_ne_zero (Nat.ne_zero_of_lt (size_lt_entryBound chart))
  have notEmpty : move.targets.isEmpty = false := by simpa using reentrant.targeted
  have insists := reentrant.insists
  simp only [entries?, List.foldlM_cons, List.foldlM_nil, planMove, notEmpty,
    Bool.false_eq_true, if_false, enough, Option.bind_eq_bind, Option.bind_eq_some_iff,
    Option.pure_def, Option.some.injEq, exists_eq_right] at planned
  obtain ⟨middle, planted, climbed⟩ := planned
  obtain ⟨_, targets⟩ := plantTargets_extends formed sound (fun target isTarget => isTarget)
    planted
  have seeded : ∀ state ∈ chart.effectiveTargets records move.targets, state ∈ middle := by
    intro state stateEffective
    obtain ⟨target, isTarget, stands⟩ := (mem_effectiveTargets formed).mp stateEffective
    refine (targets target isTarget state stands).1.resolve_right ?_
    rintro ⟨_, stays⟩
    simp [(source_of_not_entersAnew stays).2.2] at insists
  obtain ⟨grown, _⟩ := climbAll_extends (enterBelow_completes formed (fuel + 1)) formed
    (fun state stateEffective upper inLine _ => ⟨state, seeded state stateEffective,
      (isInside_iff_mem formed).mpr (between_subset_ancestors upper inLine)⟩) climbed
  exact grown.keeps effective (seeded effective isEffective)

/-- Such a move enters its source if a target stands for something, and the root only if it is
itself a target. -/
theorem source_entered_iff
    (inRange : move.source < chart.size)
    (ordinary : chart.isHistory move.source = false)
    (reentrant : move.Reentrant chart)
    (planned : chart.entries? records [move] = some entries) :
    move.source ∈ entries ↔ move.source ∈ move.targets ∨
      move.source ≠ root ∧ ∃ target ∈ move.targets, chart.standsFor records target ≠ [] := by
  have plan := entries_planned formed sound planned
  constructor
  · intro entered
    obtain ⟨other, chosen, _, enters⟩ := plan.enters _ entered
    obtain rfl := List.mem_singleton.mp chosen
    by_cases isRoot : other.source = root
    · rw [isRoot] at enters ⊢
      exact .inl (enters.root_target formed sound)
    · exact .inr ⟨isRoot, enters.target_stands formed⟩
  · have itself : ∀ {effective}, effective ∈ chart.effectiveTargets records move.targets →
        effective ∈ entries := effective_entered formed sound reentrant planned
    rintro (isTarget | ⟨notRoot, target, isTarget, stands⟩)
    · refine itself ((mem_effectiveTargets formed).mpr ⟨_, isTarget, ?_⟩)
      rw [standsFor_ordinary ordinary]
      exact List.mem_singleton_self _
    · obtain ⟨effective, isEffective⟩ := List.exists_mem_of_ne_nil _ stands
      have isEffective : effective ∈ chart.effectiveTargets records move.targets :=
        (mem_effectiveTargets formed).mpr ⟨target, isTarget, isEffective⟩
      rcases effective_within_source formed sound ordinary reentrant isEffective with
        rfl | inside
      · exact itself isEffective
      · -- The source lies on the line from there to the domain.
        have around : chart.isInside move.source (chart.domain records move) = true :=
          inside_reentrant_domain formed inRange reentrant notRoot
        have inLine := (mem_between formed (inside_trans formed inside around)).mpr
          ⟨inside, around⟩
        exact (plan.reaches move (List.mem_singleton_self move) reentrant.targeted).climbed
          effective isEffective _ inLine around

end Entering

/-- If each parallel state has a region, every target stands for something. -/
theorem Recorded.stands
    {chart : Chart} {records : HistoryRecords}
    (formed : chart.WellFormed)
    (recorded : chart.Recorded records)
    (regioned : chart.Regioned)
    (defaulted : chart.Defaulted)
    (target : StateId) :
    chart.standsFor records target ≠ [] := by
  cases history : chart.isHistory target with
  | false => simp [standsFor_ordinary history]
  | true =>
      obtain ⟨_, above⟩ := history_has_parent formed history
      exact (recorded.upright formed regioned defaulted history above).nonempty

end Chart

end Statechart
