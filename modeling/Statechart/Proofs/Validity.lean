import Statechart.Proofs.Sets
import Statechart.Proofs.Tree

/-!
# Valid configurations

`Chart.Valid` spells out what `Chart.check` demands of a set of active states, and
`Chart.check_eq_none_iff` says that the checker is content exactly with the valid ones.
-/

namespace Statechart.Chart

/-- What makes a set of active states a configuration. -/
structure Valid (chart : Chart) (active : Configuration) : Prop where
  rootActive : root ∈ active
  inRange : ∀ state ∈ active, state < chart.size
  parentActive : ∀ state ∈ active, ∀ parent, chart.parent? state = some parent →
    parent ∈ active
  compoundChild : ∀ state ∈ active, chart.isCompound state = true →
    ∃ child ∈ chart.regions state, child ∈ active ∧
      ∀ other ∈ chart.regions state, other ∈ active → other = child
  regionsActive : ∀ state ∈ active, chart.isParallel state = true →
    ∀ region ∈ chart.regions state, region ∈ active
  ordinary : ∀ state ∈ active, chart.isHistory state = false

/-- Only which states are active matters. -/
theorem Valid.congr
    {chart : Chart} {active other : Configuration}
    (valid : chart.Valid active)
    (same : ∀ state, state ∈ other ↔ state ∈ active) :
    chart.Valid other where
  rootActive := (same root).mpr valid.rootActive
  inRange := fun state member => valid.inRange state ((same state).mp member)
  parentActive := fun state member parent below =>
    (same parent).mpr (valid.parentActive state ((same state).mp member) parent below)
  compoundChild := by
    simp only [same]
    exact valid.compoundChild
  regionsActive := by
    simp only [same]
    exact valid.regionsActive
  ordinary := fun state member => valid.ordinary state ((same state).mp member)

section Checking

variable {chart : Chart} {active : Configuration} {state : StateId}

theorem activeRegions_length_eq_one_iff
    (distinct : (chart.regions state).Nodup) :
    (chart.activeRegions active state).length = 1 ↔
      ∃ child ∈ chart.regions state, child ∈ active ∧
        ∀ other ∈ chart.regions state, other ∈ active → other = child := by
  have mem_active : ∀ child, child ∈ chart.activeRegions active state ↔
      child ∈ chart.regions state ∧ child ∈ active := by
    intro child
    simp [activeRegions]
  constructor
  · intro single
    obtain ⟨child, only⟩ := List.length_eq_one_iff.mp single
    have member := (mem_active child).mp (by rw [only]; exact List.mem_cons_self)
    refine ⟨child, member.1, member.2, ?_⟩
    intro other below isActive
    have found := (mem_active other).mpr ⟨below, isActive⟩
    rw [only] at found
    simpa using found
  · rintro ⟨child, below, isActive, only⟩
    apply List.length_eq_one_iff.mpr
    refine ⟨child, ?_⟩
    have nodup : (chart.activeRegions active state).Nodup := distinct.filter _
    cases regions : chart.activeRegions active state with
    | nil =>
        have found := (mem_active child).mpr ⟨below, isActive⟩
        rw [regions] at found
        cases found
    | cons first rest =>
        have all : ∀ other ∈ first :: rest, other = child := by
          intro other member
          rw [← regions] at member
          have found := (mem_active other).mp member
          exact only other found.1 found.2
        have here := all first List.mem_cons_self
        cases rest with
        | nil => rw [here]
        | cons second rest =>
            have there := all second (by simp)
            rw [regions, here, there] at nodup
            simp at nodup

theorem activeRegions_complete_iff :
    (chart.activeRegions active state).length = (chart.regions state).length ↔
      ∀ region ∈ chart.regions state, region ∈ active := by
  simp [activeRegions, List.length_filter_eq_length_iff]

theorem childFault?_eq_none_iff
    (distinct : (chart.regions state).Nodup) :
    chart.childFault? active state = none ↔
      (chart.isCompound state = true →
        ∃ child ∈ chart.regions state, child ∈ active ∧
          ∀ other ∈ chart.regions state, other ∈ active → other = child) ∧
      (chart.isParallel state = true → ∀ region ∈ chart.regions state, region ∈ active) ∧
      chart.isHistory state = false := by
  cases kind : chart.kind state with
  | atomic => simp [childFault?, isCompound, isParallel, isHistory, kind]
  | final => simp [childFault?, isCompound, isParallel, isHistory, kind]
  | history memory defaults =>
      simp [childFault?, isCompound, isParallel, isHistory, kind]
  | compound initial =>
      rw [← activeRegions_length_eq_one_iff distinct]
      simp [childFault?, isCompound, isParallel, isHistory, kind]
  | parallel =>
      rw [← activeRegions_complete_iff]
      simp [childFault?, isCompound, isParallel, isHistory, kind]

theorem stateFault?_eq_none_iff :
    chart.stateFault? active state = none ↔
      state < chart.size ∧
      (∀ parent, chart.parent? state = some parent → parent ∈ active) ∧
      chart.childFault? active state = none := by
  by_cases inRange : state < chart.size
  · have notBeyond : ¬ chart.size ≤ state := Nat.not_le_of_lt inRange
    cases above : chart.parent? state with
    | none => simp [stateFault?, parentActive, above, inRange, notBeyond]
    | some parent =>
        by_cases held : parent ∈ active <;>
          simp [stateFault?, parentActive, above, inRange, notBeyond, held]
  · simp [stateFault?, inRange, Nat.le_of_not_lt inRange]

/-- The checker finds no fault exactly in the valid configurations. -/
theorem check_eq_none_iff
    (formed : chart.WellFormed) :
    chart.check active = none ↔ chart.Valid active := by
  by_cases rooted : root ∈ active
  · have unfolded : chart.check active = none ↔
        ∀ state ∈ active, chart.stateFault? active state = none := by
      simp [check, rooted, List.findSome?_eq_none_iff]
    rw [unfolded]
    constructor
    · intro faultless
      have clauses := fun state (member : state ∈ active) =>
        stateFault?_eq_none_iff.mp (faultless state member)
      have below := fun state (member : state ∈ active) =>
        (childFault?_eq_none_iff (regions_nodup formed state)).mp (clauses state member).2.2
      exact
        { rootActive := rooted
          inRange := fun state member => (clauses state member).1
          parentActive := fun state member => (clauses state member).2.1
          compoundChild := fun state member => (below state member).1
          regionsActive := fun state member => (below state member).2.1
          ordinary := fun state member => (below state member).2.2 }
    · intro valid state member
      apply stateFault?_eq_none_iff.mpr
      refine ⟨valid.inRange state member, valid.parentActive state member, ?_⟩
      apply (childFault?_eq_none_iff (regions_nodup formed state)).mpr
      exact ⟨valid.compoundChild state member, valid.regionsActive state member,
        valid.ordinary state member⟩
  · constructor
    · intro faultless
      simp [check, rooted] at faultless
    · intro valid
      exact absurd valid.rootActive rooted

end Checking

namespace Valid

variable {chart : Chart} {active : Configuration}
variable (formed : chart.WellFormed) (valid : chart.Valid active)
variable {state outer : StateId}

include formed valid

theorem outerActive
    (isActive : state ∈ active)
    (inside : chart.isInside state outer = true) :
    outer ∈ active := by
  induction state using Nat.strongRecOn with
  | _ state ih =>
      obtain ⟨parent, below, within⟩ := (isInside_iff_parent formed).mp inside
      have held := valid.parentActive state isActive parent below
      rcases within with rfl | above
      · exact held
      · exact ih parent (formed.parentBefore below) held above

theorem withinActive
    (isActive : state ∈ active)
    (within : chart.Within state outer) :
    outer ∈ active := by
  rcases within with rfl | inside
  · exact isActive
  · exact valid.outerActive formed isActive inside

/-- A compound state has one active child. -/
theorem siblings_eq
    {parent first second : StateId}
    (compound : chart.isCompound parent = true)
    (firstBelow : chart.parent? first = some parent)
    (secondBelow : chart.parent? second = some parent)
    (firstActive : first ∈ active)
    (secondActive : second ∈ active) :
    first = second := by
  have held := valid.parentActive first firstActive parent firstBelow
  obtain ⟨child, _, _, only⟩ := valid.compoundChild parent held compound
  have firstRegion := (mem_regions formed).mpr ⟨firstBelow, valid.ordinary first firstActive⟩
  have secondRegion :=
    (mem_regions formed).mpr ⟨secondBelow, valid.ordinary second secondActive⟩
  exact (only first firstRegion firstActive).trans (only second secondRegion secondActive).symm

/-- Going down from an active state ends at an active leaf or at a parallel state without
regions. -/
theorem bottom_below
    (isActive : state ∈ active) :
    ∃ bottom ∈ active, chart.Within bottom state ∧
      (chart.isLeaf bottom = true ∨
        chart.isParallel bottom = true ∧ chart.regions bottom = []) := by
  induction remaining : chart.size - state using Nat.strongRecOn generalizing state with
  | _ remaining ih =>
      subst remaining
      have deeper : ∀ child ∈ chart.regions state, child ∈ active →
          ∃ bottom ∈ active, chart.Within bottom state ∧
            (chart.isLeaf bottom = true ∨
              chart.isParallel bottom = true ∧ chart.regions bottom = []) := by
        intro child isRegion childActive
        have below := ((mem_regions formed).mp isRegion).1
        have less : chart.size - child < chart.size - state :=
          Nat.sub_lt_sub_left (valid.inRange state isActive) (formed.parentBefore below)
        obtain ⟨bottom, bottomActive, within, ends⟩ := ih _ less childActive rfl
        exact ⟨bottom, bottomActive,
          .inr (within_inside_trans formed within (inside_of_parent formed below)), ends⟩
      cases kind : chart.kind state with
      | atomic => exact ⟨state, isActive, .inl rfl, .inl (by simp [isLeaf, kind])⟩
      | final => exact ⟨state, isActive, .inl rfl, .inl (by simp [isLeaf, kind])⟩
      | compound initial =>
          obtain ⟨child, isRegion, childActive, _⟩ :=
            valid.compoundChild state isActive (by simp [isCompound, kind])
          exact deeper child isRegion childActive
      | parallel =>
          have parallel : chart.isParallel state = true := by simp [isParallel, kind]
          by_cases regions : chart.regions state = []
          · exact ⟨state, isActive, .inl rfl, .inr ⟨parallel, regions⟩⟩
          · obtain ⟨region, isRegion⟩ := List.exists_mem_of_ne_nil _ regions
            exact deeper region isRegion
              (valid.regionsActive state isActive parallel region isRegion)
      | history memory defaults =>
          have ordinary := valid.ordinary state isActive
          simp [isHistory, kind] at ordinary

/-- Below every active state there is an active leaf. -/
theorem leaf_below
    (regioned : chart.Regioned)
    (isActive : state ∈ active) :
    ∃ leaf ∈ active, chart.isLeaf leaf = true ∧ chart.Within leaf state := by
  obtain ⟨bottom, bottomActive, within, leaf | ⟨parallel, regions⟩⟩ :=
    valid.bottom_below formed isActive
  · exact ⟨bottom, bottomActive, leaf, within⟩
  · exact absurd regions (regioned bottom parallel)

end Valid

end Statechart.Chart
