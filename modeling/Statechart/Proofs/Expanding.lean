import Statechart.Proofs.Growing

/-!
# What planning several states adds

A state is planned with what it brings by default, but a region in which something is planned
already is passed over, so that what planning a state adds depends on what was planned before.
`Chart.Expands` tells it from the states that were planned before alone, without the plan: the
initial child of a compound state in any case, even where one of those lies in another child,
and the regions of a parallel state in which none of them lies.
-/

namespace Statechart.Chart

/-- The state is `outer`, or it is planned with `outer` if these states are planned before. -/
inductive Expands (chart : Chart) (earlier : List StateId) (state : StateId) :
    StateId → Prop where
  | here : Expands chart earlier state state
  | initial {outer initial : StateId} :
      chart.kind outer = .compound initial → Expands chart earlier state initial →
      Expands chart earlier state outer
  | region {outer region : StateId} :
      chart.isParallel outer = true → region ∈ chart.regions outer →
      ¬ chart.Covers earlier region → Expands chart earlier state region →
      Expands chart earlier state outer

/-- One of the earlier states lies in the region, or nothing planned does, or all that is
planned with the region is planned. -/
def Primed (chart : Chart) (earlier : List StateId) (plan : StateSet) (region : StateId) :
    Prop :=
  chart.Covers earlier region ∨ ¬ chart.Covers plan region ∨
    ∀ state, chart.Expands earlier state region → state ∈ plan

/-- The state is planned with one of the targets after those in front of it; a target that is
not entered anew is not planned itself. -/
def Planted (chart : Chart) (anew : StateId → Bool) (targets : List StateId)
    (state : StateId) : Prop :=
  ∃ front target back, targets = front ++ target :: back ∧
    chart.Expands front state target ∧ (anew target = true ∨ state ≠ target)

theorem foldlM_adds
    {item : Type} (holds : StateSet → Prop) (adds : item → StateId → Prop)
    {step : StateSet → item → Option StateSet} {items : List item} {before after : StateSet}
    (steps : ∀ one ∈ items, ∀ {plan grown}, holds plan → step plan one = some grown →
      holds grown ∧ ∀ added, added ∈ grown ↔ added ∈ plan ∨ adds one added)
    (start : holds before)
    (folded : items.foldlM step before = some after) :
    holds after ∧
      ∀ added, added ∈ after ↔ added ∈ before ∨ ∃ one ∈ items, adds one added := by
  induction items generalizing before with
  | nil =>
      obtain rfl : before = after := by simpa using folded
      exact ⟨start, by simp⟩
  | cons first items ih =>
      rw [List.foldlM_cons, Option.bind_eq_bind, Option.bind_eq_some_iff] at folded
      obtain ⟨middle, stepped, rest⟩ := folded
      obtain ⟨held, grown⟩ := steps first List.mem_cons_self start stepped
      obtain ⟨ends, later⟩ :=
        ih (fun one member => steps one (List.mem_cons_of_mem first member)) held rest
      refine ⟨ends, fun added => ?_⟩
      rw [later, grown, or_assoc]
      simp only [List.mem_cons, exists_eq_or_imp]

theorem exists_split_concat
    {item : Type} {items : List item} {last : item} {holds : List item → item → Prop} :
    (∃ front one back, items ++ [last] = front ++ one :: back ∧ holds front one) ↔
      (∃ front one back, items = front ++ one :: back ∧ holds front one) ∨
        holds items last := by
  constructor
  · rintro ⟨front, one, back, split, held⟩
    rcases List.eq_nil_or_concat back with rfl | ⟨back, final, rfl⟩
    · obtain ⟨rfl, same⟩ := List.append_inj' split rfl
      obtain rfl : last = one := by simpa using same
      exact .inr held
    · have grouped : items ++ [last] = (front ++ one :: back) ++ [final] := by
        simpa using split
      exact .inl ⟨front, one, back, (List.append_inj' grouped rfl).1, held⟩
  · rintro (⟨front, one, back, rfl, held⟩ | held)
    · exact ⟨front, one, back ++ [last], by simp, held⟩
    · exact ⟨items, last, [], rfl, held⟩

section Paths

variable {chart : Chart} {earlier : List StateId} {state middle outer region : StateId}

theorem Expands.trans
    (below : chart.Expands earlier state middle)
    (above : chart.Expands earlier middle outer) :
    chart.Expands earlier state outer := by
  induction above with
  | here => exact below
  | initial kind _ ih => exact .initial kind ih
  | region isParallel isRegion free _ ih => exact .region isParallel isRegion free ih

theorem Covers.of_subset
    {fewer more : List StateId}
    (covers : chart.Covers fewer region)
    (subset : fewer ⊆ more) :
    chart.Covers more region :=
  covers.mono fun _ member => subset member

/-- The more is planned before, the less is planned with a state. -/
theorem Expands.of_subset
    {fewer more : List StateId}
    (expands : chart.Expands more state outer)
    (subset : fewer ⊆ more) :
    chart.Expands fewer state outer := by
  induction expands with
  | here => exact .here
  | initial kind _ ih => exact .initial kind ih
  | region isParallel isRegion free _ ih =>
      exact .region isParallel isRegion (fun covers => free (covers.of_subset subset)) ih

theorem Primed.of_subset
    {fewer more : List StateId} {plan : StateSet}
    (primed : chart.Primed fewer plan region)
    (subset : fewer ⊆ more) :
    chart.Primed more plan region := by
  rcases primed with covers | vacant | complete
  · exact .inl (covers.of_subset subset)
  · exact .inr (.inl vacant)
  · exact .inr (.inr fun state expands => complete state (expands.of_subset subset))

variable (formed : chart.WellFormed)

include formed

theorem Expands.within
    (expands : chart.Expands earlier state outer) :
    chart.Within state outer := by
  induction expands with
  | here => exact .inl rfl
  | initial kind _ ih => exact .inr (within_inside_trans formed ih (inside_of_initial formed kind))
  | region _ isRegion _ _ ih =>
      exact .inr (within_inside_trans formed ih (inside_of_region formed isRegion))

theorem within_child
    {child parent : StateId}
    (below : chart.parent? child = some parent)
    (stateWithin : chart.Within state child)
    (within : chart.Within state middle)
    (inside : chart.isInside middle parent = true) :
    chart.Within middle child := by
  rcases within_or_inside formed stateWithin within with around | deeper
  · exact within_of_inside_parent formed below around inside
  · exact .inr deeper

theorem Expands.through
    (expands : chart.Expands earlier state outer)
    (stateWithin : chart.Within state middle)
    (within : chart.Within middle outer) :
    chart.Expands earlier middle outer := by
  induction expands with
  | here => exact within_antisymm formed stateWithin within ▸ .here
  | initial kind further ih =>
      rcases within with rfl | inside
      · exact .here
      · exact .initial kind (ih (within_child formed
          ((mem_regions formed).mp (formed.initialBelow kind)).1 (further.within formed)
          stateWithin inside))
  | region isParallel isRegion free further ih =>
      rcases within with rfl | inside
      · exact .here
      · exact .region isParallel isRegion free (ih (within_child formed
          ((mem_regions formed).mp isRegion).1 (further.within formed) stateWithin inside))

theorem expands_leaf
    (leaf : chart.isLeaf outer = true) :
    ¬ (state ≠ outer ∧ chart.Expands earlier state outer) := by
  rintro ⟨apart, expands⟩
  exact apart (eq_of_within_leaf formed leaf (expands.within formed))

theorem expands_compound
    {initial : StateId}
    (kind : chart.kind outer = .compound initial) :
    (state ≠ outer ∧ chart.Expands earlier state outer) ↔
      chart.Expands earlier state initial := by
  constructor
  · rintro ⟨apart, expands⟩
    cases expands with
    | here => exact absurd rfl apart
    | initial otherKind further =>
        obtain rfl := NodeKind.compound.inj (kind.symm.trans otherKind)
        exact further
    | region isParallel _ _ _ => simp [Chart.isParallel, kind] at isParallel
  · intro further
    refine ⟨?_, .initial kind further⟩
    rintro rfl
    have inside := inside_of_initial formed kind
    rw [not_inside_of_within formed (further.within formed)] at inside
    cases inside

theorem expands_parallel
    (kind : chart.kind outer = .parallel) :
    (state ≠ outer ∧ chart.Expands earlier state outer) ↔
      ∃ region ∈ chart.regions outer, ¬ chart.Covers earlier region ∧
        chart.Expands earlier state region := by
  constructor
  · rintro ⟨apart, expands⟩
    cases expands with
    | here => exact absurd rfl apart
    | initial otherKind _ => simp [kind] at otherKind
    | region _ isRegion free further => exact ⟨_, isRegion, free, further⟩
  · rintro ⟨region, isRegion, free, further⟩
    refine ⟨?_, .region (by simp [isParallel, kind]) isRegion free further⟩
    rintro rfl
    have inside := inside_of_region formed isRegion
    rw [not_inside_of_within formed (further.within formed)] at inside
    cases inside

theorem expands_iff_byDefault
    (vacant : ∀ other ∈ earlier, chart.isInside other outer = false) :
    chart.Expands earlier state outer ↔ chart.ByDefault state outer := by
  have deeper : ∀ {upper lower}, chart.isInside lower upper = true →
      (∀ other ∈ earlier, chart.isInside other upper = false) →
        ∀ other ∈ earlier, chart.isInside other lower = false := by
    intro upper lower inside vacant other member
    cases further : chart.isInside other lower with
    | false => rfl
    | true =>
        have around := inside_trans formed further inside
        rw [vacant other member] at around
        cases around
  constructor
  · intro expands
    induction expands with
    | here => exact .here
    | initial kind _ ih => exact .initial kind (ih (deeper (inside_of_initial formed kind) vacant))
    | region isParallel isRegion _ _ ih =>
        exact .region isParallel isRegion (ih (deeper (inside_of_region formed isRegion) vacant))
  · intro brought
    induction brought with
    | here => exact .here
    | initial kind _ ih => exact .initial kind (ih (deeper (inside_of_initial formed kind) vacant))
    | region isParallel isRegion _ ih =>
        refine .region isParallel isRegion ?_
          (ih (deeper (inside_of_region formed isRegion) vacant))
        rintro ⟨other, member, within⟩
        have inside := within_inside_trans formed within (inside_of_region formed isRegion)
        rw [vacant other member] at inside
        cases inside

/-- A region stays primed when what is planned with some state is added, unless that lies
strictly inside the region. -/
theorem Primed.grow
    {plan after : StateSet} {first : StateId}
    (primed : chart.Primed earlier plan region)
    (keeps : ∀ state ∈ plan, state ∈ after)
    (new : ∀ state ∈ after, state ∉ plan → chart.Expands earlier state first)
    (whole : ∀ state, chart.Within state region → chart.Expands earlier state first →
      state ∈ after)
    (beside : chart.isInside first region = false) :
    chart.Primed earlier after region := by
  rcases primed with covers | vacant | complete
  · exact .inl covers
  · right
    by_cases covers : chart.Covers after region
    · right
      obtain ⟨state, member, stateWithin⟩ := covers
      have expands := new state member fun planned => vacant ⟨state, planned, stateWithin⟩
      have within : chart.Within region first := by
        rcases within_or_inside formed (expands.within formed) stateWithin with
          (same | inside) | deeper
        · exact .inl same.symm
        · rw [beside] at inside
          cases inside
        · exact .inr deeper
      exact fun other further => whole other (further.within formed)
        (further.trans (expands.through formed stateWithin within))
    · exact .inl covers
  · exact .inr (.inr fun state expands => keeps state (complete state expands))

theorem Primed.insert
    {plan : StateSet}
    (primed : chart.Primed earlier plan region)
    (inside : chart.isInside region outer = true) :
    chart.Primed earlier (StateSet.insert outer plan) region := by
  rcases primed with covers | vacant | complete
  · exact .inl covers
  · right
    left
    rintro ⟨state, member, within⟩
    rcases StateSet.mem_insert.mp member with rfl | planned
    · rw [not_inside_of_within formed within] at inside
      cases inside
    · exact vacant ⟨state, planned, within⟩
  · exact .inr (.inr fun state expands => StateSet.mem_insert.mpr (.inr (complete state expands)))

theorem Primed.ready
    {plan : StateSet}
    (primed : chart.Primed earlier plan region)
    (free : ¬ chart.Covers earlier region) :
    chart.Ready plan region := by
  rcases primed.resolve_left free with vacant | complete
  · exact .inl fun state member within => vacant ⟨state, member, within⟩
  · right
    intro state brought
    refine complete state ((expands_iff_byDefault formed fun other member => ?_).mpr brought)
    cases inside : chart.isInside other region with
    | false => rfl
    | true => exact absurd ⟨other, member, .inr inside⟩ free

end Paths

section Lists

variable {chart : Chart} {anew : StateId → Bool} {targets : List StateId} {state : StateId}

theorem planted_concat
    {front : List StateId} {target : StateId} :
    chart.Planted anew (front ++ [target]) state ↔
      chart.Planted anew front state ∨
        chart.Expands front state target ∧ (anew target = true ∨ state ≠ target) :=
  exists_split_concat

/-- Targets that lie apart and are entered anew bring what each of them brings. -/
theorem planted_iff_byDefault
    (formed : chart.WellFormed)
    (apart : chart.Separate targets)
    (areNew : ∀ target ∈ targets, anew target = true) :
    chart.Planted anew targets state ↔ ∃ target ∈ targets, chart.ByDefault state target := by
  have plain : ∀ front target back, targets = front ++ target :: back →
      (chart.Expands front state target ↔ chart.ByDefault state target) := by
    rintro front target back rfl
    refine expands_iff_byDefault formed fun other member => ?_
    cases inside : chart.isInside other target with
    | false => rfl
    | true =>
        obtain rfl := apart other (by simp [member]) target (by simp) other (.inl rfl)
          (.inr inside)
        exact absurd rfl (ne_of_inside formed inside)
  constructor
  · rintro ⟨front, target, back, split, expands, _⟩
    exact ⟨target, by simp [split], (plain front target back split).mp expands⟩
  · rintro ⟨target, member, brought⟩
    obtain ⟨front, back, split⟩ := List.append_of_mem member
    exact ⟨front, target, back, split, (plain front target back split).mpr brought,
      .inl (areNew target member)⟩

end Lists

section Planting

variable {chart : Chart} (formed : chart.WellFormed) {records : HistoryRecords}
variable {earlier : List StateId} {before after : StateSet} {outer : StateId}

include formed

/-- Planning the regions of a parallel state adds what is planned with those in which none of
the earlier states lies. -/
theorem fillRegions_expands
    {below : StateId → StateSet → Option StateSet}
    (plants : ∀ region ∈ chart.regions outer, ∀ {plan grown},
      (∀ other ∈ earlier, chart.Covers plan other) →
      (∀ inner, chart.isInside inner region = true → chart.Primed earlier plan inner) →
      below region (StateSet.insert region plan) = some grown →
        ∀ added, added ∈ grown ↔ added ∈ plan ∨ chart.Expands earlier added region)
    (marked : ∀ other ∈ earlier, chart.Covers before other)
    (primed : ∀ inner, chart.isInside inner outer = true → chart.Primed earlier before inner)
    (filled : chart.fillRegions below outer before = some after)
    (added : StateId) :
    added ∈ after ↔ added ∈ before ∨ ∃ region ∈ chart.regions outer,
      ¬ chart.Covers earlier region ∧ chart.Expands earlier added region := by
  refine (foldlM_adds
    (fun plan => (∀ other ∈ earlier, chart.Covers plan other) ∧
      ∀ inner, chart.isInside inner outer = true → chart.Primed earlier plan inner)
    (fun region added => ¬ chart.Covers earlier region ∧ chart.Expands earlier added region)
    ?_ ⟨marked, primed⟩ filled).2 added
  rintro region isRegion plan grown ⟨marked, primed⟩ stepped
  have inside := inside_of_region formed isRegion
  by_cases known : chart.covered plan region = true
  · rw [if_pos known] at stepped
    obtain rfl := Option.some.inj stepped
    refine ⟨⟨marked, primed⟩, fun added => (or_iff_left_of_imp ?_).symm⟩
    rintro ⟨free, expands⟩
    rcases (primed region inside).resolve_left free with vacant | complete
    · exact absurd (covered_iff.mp known) vacant
    · exact complete added expands
  · rw [if_neg known] at stepped
    have free : ¬ chart.Covers earlier region := by
      rintro ⟨other, member, within⟩
      obtain ⟨state, planned, stateWithin⟩ := marked other member
      exact known (covered_iff.mpr ⟨state, planned, within_trans formed stateWithin within⟩)
    have grows := plants region isRegion marked
      (fun inner further => primed inner (inside_trans formed further inside)) stepped
    have keeps : ∀ state ∈ plan, state ∈ grown := fun state planned =>
      (grows state).mpr (.inl planned)
    refine ⟨⟨fun other member => (marked other member).mono keeps, ?_⟩, fun added => ?_⟩
    · intro inner further
      refine (primed inner further).grow formed keeps
        (fun state member new => ((grows state).mp member).resolve_left new)
        (fun state _ expands => (grows state).mpr (.inr expands)) ?_
      cases around : chart.isInside region inner with
      | false => rfl
      | true =>
          have within := parent_within formed ((mem_regions formed).mp isRegion).1 around
          rw [not_inside_of_within formed within] at further
          cases further
    · rw [grows, and_iff_right free]

theorem enterBelow_expands
    {fuel : Nat}
    (ordinary : chart.isHistory outer = false)
    (marked : ∀ other ∈ earlier, chart.Covers before other)
    (primed : ∀ inner, chart.isInside inner outer = true → chart.Primed earlier before inner)
    (completed : chart.enterBelow records fuel outer before = some after)
    (added : StateId) :
    added ∈ after ↔ added ∈ before ∨ added ≠ outer ∧ chart.Expands earlier added outer := by
  induction fuel generalizing outer before after added with
  | zero => simp [enterBelow] at completed
  | succ fuel ih =>
      have planting : ∀ region ∈ chart.regions outer, ∀ {plan grown},
          (∀ other ∈ earlier, chart.Covers plan other) →
          (∀ inner, chart.isInside inner region = true → chart.Primed earlier plan inner) →
          chart.enterBelow records fuel region (StateSet.insert region plan) = some grown →
            ∀ added, added ∈ grown ↔ added ∈ plan ∨ chart.Expands earlier added region := by
        intro region isRegion plan grown marked primed planted added
        rw [ih ((mem_regions formed).mp isRegion).2
          (fun other member => (marked other member).mono fun _ known =>
            StateSet.mem_insert.mpr (.inr known))
          (fun inner inside => (primed inner inside).insert formed inside) planted added,
          StateSet.mem_insert]
        by_cases same : added = region
        · simp [same, Expands.here]
        · simp [same]
      cases kind : chart.kind outer with
      | history memory defaults => simp [isHistory, kind] at ordinary
      | atomic =>
          obtain rfl : before = after := by simpa [enterBelow, kind] using completed
          exact (or_iff_left (expands_leaf formed (by simp [isLeaf, kind]))).symm
      | final =>
          obtain rfl : before = after := by simpa [enterBelow, kind] using completed
          exact (or_iff_left (expands_leaf formed (by simp [isLeaf, kind]))).symm
      | compound initial =>
          rw [enterBelow_compound formed kind] at completed
          rw [expands_compound formed kind]
          exact planting initial (formed.initialBelow kind) marked
            (fun inner inside =>
              primed inner (inside_trans formed inside (inside_of_initial formed kind)))
            completed added
      | parallel =>
          have filled : chart.fillRegions (chart.enterBelow records fuel) outer before =
              some after := by
            simpa [enterBelow, kind] using completed
          rw [expands_parallel formed kind]
          exact fillRegions_expands formed planting marked primed filled added

theorem plantOne_adds
    {fuel : Nat} {target : StateId} {anew : Bool}
    (ordinary : chart.isHistory target = false)
    (marked : ∀ other ∈ earlier, chart.Covers before other)
    (primed : ∀ region, chart.isInside region target = true → chart.Primed earlier before region)
    (planted : chart.enterBelow records fuel target
      (if anew then chart.planUnlessHistory target before else before) = some after)
    (added : StateId) :
    added ∈ after ↔ added ∈ before ∨
      chart.Expands earlier added target ∧ (anew = true ∨ added ≠ target) := by
  cases anew with
  | false =>
      rw [enterBelow_expands formed ordinary marked primed planted added]
      simp [and_comm]
  | true =>
      simp only [if_true, planUnlessHistory, ordinary, Bool.false_eq_true, if_false] at planted
      rw [enterBelow_expands formed ordinary
        (fun other member => (marked other member).mono fun _ known =>
          StateSet.mem_insert.mpr (.inr known))
        (fun inner inside => (primed inner inside).insert formed inside)
        planted added, StateSet.mem_insert]
      by_cases same : added = target
      · simp [same, Expands.here]
      · simp [same]

/-- Planning one more target keeps what the loop over the targets relies on.  A target that is
not entered anew has an initial child to stand for it. -/
theorem plantOne_expands
    {fuel : Nat} {target : StateId} {anew : Bool} {ground : StateId → Prop}
    (ordinary : chart.isHistory target = false)
    (refused : anew = false → chart.isCompound target = true)
    (grounded : ∀ region, chart.isInside region target = true → ground region)
    (marked : ∀ other ∈ earlier, chart.Covers before other)
    (primed : ∀ region, ground region → chart.Primed earlier before region)
    (planted : chart.enterBelow records fuel target
      (if anew then chart.planUnlessHistory target before else before) = some after) :
    (∀ added, added ∈ after ↔ added ∈ before ∨
        chart.Expands earlier added target ∧ (anew = true ∨ added ≠ target)) ∧
      (∀ other ∈ earlier ++ [target], chart.Covers after other) ∧
      ∀ region, ground region → chart.Primed (earlier ++ [target]) after region := by
  have grows := plantOne_adds formed ordinary marked
    (fun inner inside => primed inner (grounded inner inside)) planted
  have keeps : ∀ state ∈ before, state ∈ after := fun state known =>
    (grows state).mpr (.inl known)
  refine ⟨grows, ?_, ?_⟩
  · intro other member
    rcases List.mem_append.mp member with known | last
    · exact (marked other known).mono keeps
    · obtain rfl : other = target := by simpa using last
      cases anew with
      | true => exact ⟨other, (grows other).mpr (.inr ⟨.here, .inl rfl⟩), .inl rfl⟩
      | false =>
          cases kind : chart.kind other with
          | compound initial =>
              have inside := inside_of_initial formed kind
              obtain ⟨apart, expands⟩ := (expands_compound formed kind).mpr
                (.here : chart.Expands earlier initial initial)
              exact ⟨initial, (grows initial).mpr (.inr ⟨expands, .inr apart⟩), .inr inside⟩
          | _ => simp [isCompound, kind] at refused
  · intro region onGround
    by_cases within : chart.Within target region
    · exact .inl ⟨target, by simp, within⟩
    · have grown : chart.Primed earlier after region := by
        refine (primed region onGround).grow formed keeps
          (fun state member new => (((grows state).mp member).resolve_left new).1) ?_ ?_
        · intro state stateWithin expands
          refine (grows state).mpr (.inr ⟨expands, .inr ?_⟩)
          rintro rfl
          exact within stateWithin
        · simpa using fun inside => within (.inr inside)
      exact grown.of_subset (by simp)

theorem plantAll_expands
    {fuel : Nat} {anew : StateId → Bool} (ground : StateId → Prop) {targets : List StateId}
    (ordinary : ∀ target ∈ targets, chart.isHistory target = false)
    (refused : ∀ target ∈ targets, anew target = false → chart.isCompound target = true)
    (grounded : ∀ target ∈ targets, ∀ region, chart.isInside region target = true → ground region)
    (vacant : ∀ region, ground region → ¬ chart.Covers before region)
    (planted : targets.foldlM (fun planned target =>
      chart.enterBelow records fuel target
        (if anew target then chart.planUnlessHistory target planned else planned)) before =
          some after) :
    (∀ added, added ∈ after ↔ added ∈ before ∨ chart.Planted anew targets added) ∧
      (∀ target ∈ targets, chart.Covers after target) ∧
      ∀ region, ground region → chart.Primed targets after region := by
  induction targets using List.reverseRecOn generalizing after with
  | nil =>
      obtain rfl : before = after := by simpa using planted
      refine ⟨fun added => ?_, by simp, fun region onGround => .inr (.inl (vacant region onGround))⟩
      simp [Planted]
  | append_singleton front target ih =>
      rw [List.foldlM_append, Option.bind_eq_bind, Option.bind_eq_some_iff] at planted
      obtain ⟨middle, fronted, stepped⟩ := planted
      simp only [List.foldlM_cons, List.foldlM_nil, bind_pure] at stepped
      have earlier := fun state (member : state ∈ front) => List.mem_append_left [target] member
      have isLast : target ∈ front ++ [target] := by simp
      obtain ⟨added, marked, primed⟩ := ih
        (fun state member => ordinary state (earlier state member))
        (fun state member => refused state (earlier state member))
        (fun state member => grounded state (earlier state member)) fronted
      obtain ⟨grows, ends⟩ := plantOne_expands formed (ordinary target isLast)
        (refused target isLast) (grounded target isLast) marked primed stepped
      refine ⟨fun state => ?_, ends⟩
      rw [grows, added, planted_concat, or_assoc]

end Planting

end Statechart.Chart
