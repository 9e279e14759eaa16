import Statechart.Proofs.Containment
import Statechart.Proofs.Defaults

/-!
# Restoring what was left

What a history state remembers of a valid configuration spans its parent: the states lie
apart, and with each of them all parallel states around it have one in every region.  From
such states the way up adds nothing in the parent but what they lie in.  Hence a move that
targets the history state from outside makes active in the parent just what the remembered
states bring and what they lie in, and that is what was active there when it was left, or,
for shallow history, its children with what they bring.
-/

namespace Statechart.Chart

/-- States in `parent` that lie apart and leave no region out of a parallel state that one
of them lies in. -/
structure Spans (chart : Chart) (states : List StateId) (parent : StateId) : Prop where
  nonempty : states ≠ []
  inside : ∀ state ∈ states, chart.isInside state parent = true
  apart : chart.Separate states
  regions : ∀ state ∈ states, ∀ parallel, chart.isParallel parallel = true →
    chart.isInside state parallel = true → chart.Within parallel parent →
      ∀ region ∈ chart.regions parallel, ∃ other ∈ states, chart.Within other region

/-- The state is active again once the history state of this kind below `parent` has
restored what was active in `left`. -/
def Restores (chart : Chart) (left : Configuration) (parent : StateId) :
    HistoryKind → StateId → Prop
  | .deep, state => state ∈ left
  | .shallow, state =>
      state = parent ∨
        ∃ child ∈ left, chart.parent? child = some parent ∧ chart.ByDefault state child

section Remembering

variable {chart : Chart} (formed : chart.WellFormed)
variable {left : Configuration} {parent state : StateId}

theorem mem_remembered_deep :
    state ∈ chart.remembered left parent .deep ↔
      state ∈ left ∧ chart.isLeaf state = true ∧ chart.isInside state parent = true := by
  simp [remembered]

theorem mem_remembered_shallow :
    state ∈ chart.remembered left parent .shallow ↔
      state ∈ left ∧ chart.parent? state = some parent := by
  simp [remembered]

variable (valid : chart.Valid left) (regioned : chart.Regioned)
variable {memory : StateId} (above : chart.parent? memory = some parent)
variable (wasActive : parent ∈ left)

include formed valid regioned above

/-- Below whatever was active in a state with children lies a leaf that deep history of the
state remembers. -/
theorem remembered_leaf
    (isActive : state ∈ left)
    (within : chart.Within state parent) :
    ∃ leaf ∈ chart.remembered left parent .deep, chart.Within leaf state := by
  obtain ⟨leaf, leafActive, isLeaf, leafWithin⟩ := valid.leaf_below formed regioned isActive
  refine ⟨leaf, mem_remembered_deep.mpr ⟨leafActive, isLeaf, ?_⟩, leafWithin⟩
  rcases within_trans formed leafWithin within with same | inside
  · have childless : chart.isInside memory parent = false :=
      not_inside_leaf formed (same ▸ isLeaf)
    rw [inside_of_parent formed above] at childless
    cases childless
  · exact inside

include wasActive

theorem spans_remembered_deep :
    chart.Spans (chart.remembered left parent .deep) parent where
  nonempty := by
    obtain ⟨leaf, isRemembered, _⟩ :=
      remembered_leaf formed valid regioned above wasActive (.inl rfl)
    exact List.ne_nil_of_mem isRemembered
  inside := fun state isRemembered => (mem_remembered_deep.mp isRemembered).2.2
  apart := by
    intro first isFirst second isSecond state firstWithin secondWithin
    have firstLeaf := (mem_remembered_deep.mp isFirst).2.1
    have secondLeaf := (mem_remembered_deep.mp isSecond).2.1
    rcases within_or_inside formed firstWithin secondWithin with within | inside
    · exact eq_of_within_leaf formed secondLeaf within
    · exact (eq_of_within_leaf formed firstLeaf (.inr inside)).symm
  regions := by
    intro state isRemembered parallel isParallel inside within region isRegion
    have isActive := valid.outerActive formed (mem_remembered_deep.mp isRemembered).1 inside
    have regionActive := valid.regionsActive parallel isActive isParallel region isRegion
    exact remembered_leaf formed valid regioned above regionActive
      (.inr (inside_within_trans formed
        (inside_of_parent formed ((mem_regions formed).mp isRegion).1) within))

theorem spans_remembered_shallow :
    chart.Spans (chart.remembered left parent .shallow) parent where
  nonempty := by
    have remembered : ∀ region ∈ chart.regions parent, region ∈ left →
        chart.remembered left parent .shallow ≠ [] := fun region isRegion isActive =>
      List.ne_nil_of_mem
        (mem_remembered_shallow.mpr ⟨isActive, ((mem_regions formed).mp isRegion).1⟩)
    rcases parent_kind formed above with ⟨initial, kind⟩ | kind
    · obtain ⟨child, isRegion, childActive, _⟩ :=
        valid.compoundChild parent wasActive (by simp [isCompound, kind])
      exact remembered child isRegion childActive
    · have parallel : chart.isParallel parent = true := by simp [isParallel, kind]
      obtain ⟨region, isRegion⟩ := List.exists_mem_of_ne_nil _ (regioned parent parallel)
      exact remembered region isRegion
        (valid.regionsActive parent wasActive parallel region isRegion)
  inside := fun state isRemembered =>
    inside_of_parent formed (mem_remembered_shallow.mp isRemembered).2
  apart := by
    intro first isFirst second isSecond state firstWithin secondWithin
    exact child_toward_unique formed (mem_remembered_shallow.mp isFirst).2
      (mem_remembered_shallow.mp isSecond).2 firstWithin secondWithin
  regions := by
    intro state isRemembered parallel isParallel inside within region isRegion
    have below := (mem_remembered_shallow.mp isRemembered).2
    obtain rfl := within_antisymm formed within (parent_within formed below inside)
    exact ⟨region, mem_remembered_shallow.mpr
      ⟨valid.regionsActive parallel wasActive isParallel region isRegion,
        ((mem_regions formed).mp isRegion).1⟩, .inl rfl⟩

theorem spans_remembered (kind : HistoryKind) :
    chart.Spans (chart.remembered left parent kind) parent := by
  cases kind with
  | deep => exact spans_remembered_deep formed valid regioned above wasActive
  | shallow => exact spans_remembered_shallow formed valid regioned above wasActive

theorem remembered_restores
    (kind : HistoryKind)
    (within : chart.Within state parent) :
    (∃ restored ∈ chart.remembered left parent kind,
        chart.ByDefault state restored ∨ chart.isInside restored state = true) ↔
      chart.Restores left parent kind state := by
  cases kind with
  | deep =>
      constructor
      · rintro ⟨leaf, isRemembered, found⟩
        obtain ⟨leafActive, isLeaf, _⟩ := mem_remembered_deep.mp isRemembered
        rcases found with brought | around
        · exact (byDefault_leaf isLeaf).mp brought ▸ leafActive
        · exact valid.outerActive formed leafActive around
      · intro (isActive : state ∈ left)
        obtain ⟨leaf, isRemembered, leafWithin⟩ :=
          remembered_leaf formed valid regioned above isActive within
        rcases leafWithin with rfl | inside
        · exact ⟨leaf, isRemembered, .inl .here⟩
        · exact ⟨leaf, isRemembered, .inr inside⟩
  | shallow =>
      constructor
      · rintro ⟨child, isRemembered, found⟩
        obtain ⟨childActive, below⟩ := mem_remembered_shallow.mp isRemembered
        rcases found with brought | around
        · exact .inr ⟨child, childActive, below, brought⟩
        · exact .inl (within_antisymm formed within (parent_within formed below around))
      · rintro (rfl | ⟨child, childActive, below, brought⟩)
        · have spans := spans_remembered_shallow formed valid regioned above wasActive
          obtain ⟨child, isRemembered⟩ := List.exists_mem_of_ne_nil _ spans.nonempty
          exact ⟨child, isRemembered, .inr (spans.inside child isRemembered)⟩
        · exact ⟨child, mem_remembered_shallow.mpr ⟨childActive, below⟩, .inl brought⟩

end Remembering

section Climbing

variable {chart : Chart} (formed : chart.WellFormed) {records : HistoryRecords}
variable {restored states : List StateId} {parent : StateId}

include formed

theorem climbAll_within
    {fuel : Nat} {allowed : StateId → Bool} {outer : StateId} {before after : StateSet}
    (spans : chart.Spans restored parent)
    (planned : ∀ state ∈ restored, state ∈ before)
    (areRestored : ∀ state ∈ states, state ∈ restored)
    (climbed : states.foldlM (fun planned state =>
      chart.enterAbove (chart.enterBelow records fuel) allowed (chart.between state outer)
        planned) before = some after) :
    (∀ state ∈ before, state ∈ after) ∧
      ∀ added ∈ after, chart.Within added parent →
        added ∈ before ∨ ∃ state ∈ restored, chart.isInside state added = true := by
  obtain ⟨grown, _⟩ := climbAll_extends (enterBelow_completes formed fuel) formed (by
    intro state member upper inLine _
    exact ⟨state, planned state (areRestored state member),
      (isInside_iff_mem formed).mpr (between_subset_ancestors upper inLine)⟩) climbed
  refine ⟨grown.keeps, ?_⟩
  intro added member within
  by_cases known : added ∈ before
  · exact .inl known
  · right
    obtain ⟨state, isState, ⟨inLine, _⟩ | sprouts⟩ := grown.fitting added member known
    · exact ⟨state, areRestored state isState,
        (isInside_iff_mem formed).mpr (between_subset_ancestors added inLine)⟩
    · -- The region that sprouted lies in `parent`, and is covered, or around it, and is too.
      exfalso
      obtain ⟨parallel, inLine, isParallel, region, isRegion, _, addedWithin, uncovered, _⟩ :=
        sprouts
      have isRestored := areRestored state isState
      have around : chart.isInside state parallel = true :=
        (isInside_iff_mem formed).mpr (between_subset_ancestors parallel inLine)
      rcases within_or_inside formed within addedWithin with outside | inside
      · exact uncovered ⟨state, planned state isRestored,
          .inr (inside_within_trans formed (spans.inside state isRestored) outside)⟩
      · have parallelWithin :=
          parent_within formed ((mem_regions formed).mp isRegion).1 inside
        obtain ⟨other, isOther, otherWithin⟩ :=
          spans.regions state isRestored parallel isParallel around parallelWithin region isRegion
        exact uncovered ⟨other, planned other isOther, otherWithin⟩

/-- Restoring is to plan what a history state stands for, with all that this brings, and
then to go up from there to its parent. -/
theorem enterBelow_memory
    {fuel : Nat} {memory : StateId} {before after : StateSet}
    (sound : chart.Sound records)
    (history : chart.isHistory memory = true)
    (above : chart.parent? memory = some parent)
    (spans : chart.Spans (chart.standsFor records memory) parent)
    (ready : ∀ state ∈ chart.standsFor records memory, chart.Ready before state)
    (restores : chart.enterBelow records (fuel + 1) memory before = some after) :
    (∀ state, state ∈ before ∨
        (∃ restored ∈ chart.standsFor records memory, chart.ByDefault state restored) →
      state ∈ after) ∧
    ∀ state ∈ after, chart.Within state parent →
      state ∈ before ∨ ∃ restored ∈ chart.standsFor records memory,
        chart.ByDefault state restored ∨ chart.isInside restored state = true := by
  cases kind : chart.kind memory with
  | atomic => simp [isHistory, kind] at history
  | compound initial => simp [isHistory, kind] at history
  | parallel => simp [isHistory, kind] at history
  | final => simp [isHistory, kind] at history
  | history memoryKind defaults =>
      have states : chart.standsFor records memory =
          (records.memory? memory).getD defaults := by
        simp [standsFor, kind]
      simp only [enterBelow, kind, above, ← states, Option.bind_eq_bind,
        Option.bind_eq_some_iff] at restores
      obtain ⟨planted, planting, climbed⟩ := restores
      have brings := plantAll_byDefault formed
        (fun state stands => standsFor_not_history formed sound stands)
        spans.apart ready planting
      obtain ⟨keeps, added⟩ := climbAll_within formed spans
        (fun restored stands => (brings restored).mpr (.inr ⟨restored, stands, .here⟩))
        (fun restored stands => stands) climbed
      constructor
      · exact fun state found => keeps state ((brings state).mpr found)
      · intro state member within
        rcases added state member within with known | ⟨restored, stands, around⟩
        · refine ((brings state).mp known).imp_right ?_
          rintro ⟨restored, stands, brought⟩
          exact ⟨restored, stands, .inl brought⟩
        · exact .inr ⟨restored, stands, .inr around⟩

/-- A move that targets a history state from outside its parent enters in the parent what
the states that are restored bring and what they lie in. -/
theorem restored_within
    {move : Move} {memory : StateId} {entries : StateSet}
    (sound : chart.Sound records)
    (history : chart.isHistory memory = true)
    (above : chart.parent? memory = some parent)
    (spans : chart.Spans (chart.standsFor records memory) parent)
    (targets : move.targets = [memory])
    (outside : chart.isInside parent (chart.domain records move) = true)
    (planned : chart.entries? records [move] = some entries)
    {state : StateId}
    (within : chart.Within state parent) :
    state ∈ entries ↔ ∃ restored ∈ chart.standsFor records memory,
      chart.ByDefault state restored ∨ chart.isInside restored state = true := by
  have effective : ∀ restored, restored ∈ chart.effectiveTargets records move.targets ↔
      restored ∈ chart.standsFor records memory := by
    intro restored
    rw [mem_effectiveTargets formed, targets]
    simp
  obtain ⟨fuel, enough⟩ : ∃ fuel, chart.entryBound = fuel + 1 :=
    Nat.exists_eq_succ_of_ne_zero (Nat.ne_zero_of_lt (size_lt_entryBound chart))
  obtain ⟨lifted, restores, climbed⟩ : ∃ lifted,
      chart.enterBelow records (fuel + 1) memory [] = some lifted ∧
      (chart.effectiveTargets records move.targets).foldlM (fun planned target =>
        chart.enterAbove (chart.enterBelow records (fuel + 1))
          (fun ancestor => chart.isInside ancestor (chart.domain records move))
          (chart.between target (chart.domain records move)) planned) lifted =
        some entries := by
    simpa [entries?, planMove, targets, planUnlessHistory, history, enough,
      Option.bind_eq_some_iff] using planned
  obtain ⟨brings, only⟩ := enterBelow_memory formed sound history above spans
    (fun restored _ => ready_nil) restores
  obtain ⟨keeps, added⟩ := climbAll_within formed spans
    (fun restored stands => brings restored (.inr ⟨restored, stands, .here⟩))
    (fun restored isEffective => (effective restored).mp isEffective) climbed
  constructor
  · intro member
    rcases added state member within with known | ⟨restored, stands, around⟩
    · exact (only state known within).resolve_left List.not_mem_nil
    · exact ⟨restored, stands, .inr around⟩
  · rintro ⟨restored, stands, brought | around⟩
    · exact keeps state (brings state (.inr ⟨restored, stands, brought⟩))
    · -- What lies around a restored state, in `parent` or being it, is below the domain.
      have reaches := (entries_planned formed sound planned).reaches move List.mem_cons_self
        (by simp [targets])
      have below : chart.isInside state (chart.domain records move) = true :=
        within_inside_trans formed within outside
      exact reaches.climbed restored ((effective restored).mpr stands) state
        ((mem_between formed (inside_trans formed around below)).mpr ⟨around, below⟩) below

end Climbing

section Stepping

variable {chart : Chart} (formed : chart.WellFormed)
variable {active left : Configuration} {records : HistoryRecords} {move : Move}
variable {memory parent state : StateId}
variable (valid : chart.Valid active) (sound : chart.Sound records)
variable (fits : move.Fits chart active) (inactive : parent ∉ active)

include formed valid sound fits inactive

theorem inactive_inside_domain
    {target : StateId}
    (effective : target ∈ chart.effectiveTargets records move.targets)
    (inside : chart.isInside target parent = true) :
    chart.isInside parent (chart.domain records move) = true := by
  have inRange := valid.inRange move.source fits.sourceActive
  have sourceWithin := source_within_domain formed inRange sound fits.targetsInRange
  have targetWithin :=
    target_within_domain formed inRange sound fits.targetsInRange target effective
  have outside : ¬ chart.Within (chart.domain records move) parent := fun within =>
    inactive (valid.withinActive formed fits.sourceActive
      (within_trans formed sourceWithin within))
  rcases within_or_inside formed (.inr inside) targetWithin with (same | below) | around
  · exact absurd (.inl same.symm) outside
  · exact below
  · exact absurd (.inr around) outside

/-- A step that leads to nothing but a history state with an inactive parent restores what
is on record of the parent, as it was in a valid configuration. -/
theorem succeeding_restores
    (regioned : chart.Regioned)
    (leftValid : chart.Valid left)
    (wasActive : parent ∈ left)
    {kind : HistoryKind} {defaults : List StateId}
    (isKind : chart.kind memory = .history kind defaults)
    (above : chart.parent? memory = some parent)
    (recorded : records.memory? memory = some (chart.remembered left parent kind))
    (targets : move.targets = [memory])
    {entries : StateSet}
    (planned : chart.entries? (chart.recordedBy active records [move]) [move] =
      some entries)
    (within : chart.Within state parent) :
    state ∈ chart.succeeding active records [move] entries ↔
      chart.Restores left parent kind state := by
  have recordedSound := recordedBy_sound formed valid.ordinary sound [move]
  -- The step does not leave the parent, so what was remembered stays on record.
  have stands : chart.standsFor (chart.recordedBy active records [move]) memory =
      chart.remembered left parent kind := by
    have notLeft : parent ∉ chart.exits active records [move] := fun isLeft =>
      inactive (mem_exits.mp isLeft).1
    simp [standsFor, isKind, recordedBy, recordHistory_memory? formed isKind above, notLeft,
      recorded]
  have spans := spans_remembered formed leftValid regioned above wasActive kind
  obtain ⟨target, isRemembered⟩ := List.exists_mem_of_ne_nil _ spans.nonempty
  rw [← stands] at spans isRemembered
  have outside := inactive_inside_domain formed valid recordedSound fits inactive
    ((mem_effectiveTargets formed).mpr ⟨memory, by simp [targets], isRemembered⟩)
    (spans.inside target isRemembered)
  have entered : state ∈ entries ↔ chart.Restores left parent kind state := by
    rw [restored_within formed recordedSound (by simp [isHistory, isKind]) above spans targets
      outside planned within, stands]
    exact remembered_restores formed leftValid regioned above wasActive kind within
  rw [mem_succeeding, entered]
  exact or_iff_left fun stays =>
    inactive (valid.withinActive formed (mem_staying.mp stays).1 within)

end Stepping

end Statechart.Chart
