import Statechart.Proofs.Expanding

/-!
# What going up from planned states adds

On the way up from a target, states are planned for their own sake, and beside them the regions
of parallel states in which nothing is planned.  Once some states are planned with all that they
bring, it does not matter in which order one goes up from them: each state on the way is added,
and with a parallel one what its regions bring in which none of the planned states lies.
-/

namespace Statechart.Chart

/-- The state comes with a region of `upper`, which is parallel, in which none of these states
lies. -/
def Beside (chart : Chart) (states : List StateId) (upper state : StateId) : Prop :=
  chart.isParallel upper = true ∧
    ∃ region ∈ chart.regions upper, ¬ chart.Covers states region ∧ chart.ByDefault state region

/-- Going up from these states to `outer` adds the state: it is on the way and allowed, or comes
with a region beside the way. -/
def Climbed (chart : Chart) (allowed : StateId → Bool) (states : List StateId)
    (outer state : StateId) : Prop :=
  ∃ start ∈ states, ∃ upper ∈ chart.between start outer,
    state = upper ∧ allowed upper = true ∨ chart.Beside states upper state

/-- All these states are planned, and the regions beside the way up from them are ready. -/
structure Tended (chart : Chart) (states : List StateId) (way : StateId → Prop)
    (plan : StateSet) : Prop where
  marked : ∀ state ∈ states, chart.Covers plan state
  ready : ∀ upper, way upper → chart.isParallel upper = true →
    ∀ region ∈ chart.regions upper, ¬ chart.Covers states region → chart.Ready plan region

section Climbing

variable {chart : Chart} (formed : chart.WellFormed) {records : HistoryRecords}
variable {states : List StateId} {way : StateId → Prop} {before after : StateSet}
variable {upper : StateId} {fuel : Nat} {allowed : StateId → Bool}
variable (around : ∀ upper, way upper → ∃ state ∈ states, chart.isInside state upper = true)

include formed around

theorem not_within_beside
    {region : StateId}
    (onWay : way upper)
    (free : ¬ chart.Covers states region) :
    ¬ chart.Within upper region := by
  obtain ⟨state, member, inside⟩ := around upper onWay
  exact fun within => free ⟨state, member, .inr (inside_within_trans formed inside within)⟩

theorem beside_apart
    {other first second state : StateId}
    (upperOnWay : way upper)
    (otherOnWay : way other)
    (isFirst : first ∈ chart.regions upper)
    (isSecond : second ∈ chart.regions other)
    (firstFree : ¬ chart.Covers states first)
    (secondFree : ¬ chart.Covers states second)
    (firstWithin : chart.Within state first)
    (secondWithin : chart.Within state second) :
    first = second := by
  rcases within_or_inside formed firstWithin secondWithin with (same | inside) | inside
  · exact same
  · exact absurd (parent_within formed ((mem_regions formed).mp isFirst).1 inside)
      (not_within_beside formed around upperOnWay secondFree)
  · exact absurd (parent_within formed ((mem_regions formed).mp isSecond).1 inside)
      (not_within_beside formed around otherOnWay firstFree)

theorem Tended.insert
    (tended : chart.Tended states way before)
    (onWay : way upper) :
    chart.Tended states way (StateSet.insert upper before) where
  marked state member := (tended.marked state member).mono fun _ known =>
    StateSet.mem_insert.mpr (.inr known)
  ready := by
    intro other otherOnWay isParallel region isRegion free
    rcases tended.ready other otherOnWay isParallel region isRegion free with vacant | complete
    · left
      intro state member within
      rcases StateSet.mem_insert.mp member with rfl | known
      · exact not_within_beside formed around onWay free within
      · exact vacant state known within
    · exact .inr fun state brought => StateSet.mem_insert.mpr (.inr (complete state brought))

theorem Tended.grow
    {region : StateId}
    (tended : chart.Tended states way before)
    (onWay : way upper)
    (isRegion : region ∈ chart.regions upper)
    (free : ¬ chart.Covers states region)
    (grown : ∀ state, state ∈ after ↔ state ∈ before ∨ chart.ByDefault state region) :
    chart.Tended states way after where
  marked state member := (tended.marked state member).mono fun other known =>
    (grown other).mpr (.inl known)
  ready other otherOnWay isParallel second isSecond secondFree :=
    (tended.ready other otherOnWay isParallel second isSecond secondFree).grow formed grown
      fun _ => beside_apart formed around onWay otherOnWay isRegion isSecond free secondFree

theorem fillRegions_beside
    (tended : chart.Tended states way before)
    (onWay : way upper)
    (isParallel : chart.isParallel upper = true)
    (filled : chart.fillRegions (chart.enterBelow records fuel) upper before = some after) :
    chart.Tended states way after ∧
      ∀ added, added ∈ after ↔ added ∈ before ∨ chart.Beside states upper added := by
  obtain ⟨ends, grown⟩ := foldlM_adds (chart.Tended states way)
    (fun region added => ¬ chart.Covers states region ∧ chart.ByDefault added region) (by
      intro region isRegion plan grown tended stepped
      by_cases known : chart.covered plan region = true
      · rw [if_pos known] at stepped
        obtain rfl := Option.some.inj stepped
        refine ⟨tended, fun added => (or_iff_left_of_imp ?_).symm⟩
        rintro ⟨free, brought⟩
        obtain ⟨state, planned, within⟩ := covered_iff.mp known
        rcases tended.ready upper onWay isParallel region isRegion free with vacant | complete
        · exact absurd within (vacant state planned)
        · exact complete added brought
      · rw [if_neg known] at stepped
        have free : ¬ chart.Covers states region := by
          rintro ⟨state, member, within⟩
          obtain ⟨other, planned, otherWithin⟩ := tended.marked state member
          exact known (covered_iff.mpr ⟨other, planned, within_trans formed otherWithin within⟩)
        have grows := plant_byDefault formed ((mem_regions formed).mp isRegion).2
          (tended.ready upper onWay isParallel region isRegion free) stepped
        exact ⟨tended.grow formed around onWay isRegion free grows, fun added => by
          rw [grows, and_iff_right free]⟩) tended filled
  exact ⟨ends, fun added => by rw [grown, Beside, and_iff_right isParallel]⟩

theorem enterAbove_climbs
    {line : List StateId}
    (tended : chart.Tended states way before)
    (onWay : ∀ upper ∈ line, way upper)
    (entered : chart.enterAbove (chart.enterBelow records fuel) allowed line before =
      some after) :
    chart.Tended states way after ∧
      ∀ added, added ∈ after ↔ added ∈ before ∨ ∃ upper ∈ line,
        added = upper ∧ allowed upper = true ∨ chart.Beside states upper added := by
  refine foldlM_adds (chart.Tended states way) (fun upper added =>
    added = upper ∧ allowed upper = true ∨ chart.Beside states upper added) ?_ tended entered
  intro upper inLine plan grown tended stepped
  have passed : chart.Tended states way
      (if allowed upper then StateSet.insert upper plan else plan) := by
    by_cases isAllowed : allowed upper = true
    · simpa [isAllowed] using tended.insert formed around (onWay upper inLine)
    · simpa [isAllowed] using tended
  have added : ∀ added, added ∈ (if allowed upper then StateSet.insert upper plan else plan) ↔
      added ∈ plan ∨ added = upper ∧ allowed upper = true := by
    intro added
    by_cases isAllowed : allowed upper = true <;> simp [isAllowed, or_comm]
  by_cases isParallel : chart.isParallel upper = true
  · simp only [isParallel, if_true] at stepped
    obtain ⟨ends, grows⟩ :=
      fillRegions_beside formed around passed (onWay upper inLine) isParallel stepped
    exact ⟨ends, fun state => by rw [grows, added, or_assoc]⟩
  · simp only [isParallel, Bool.false_eq_true, if_false, Option.some.injEq] at stepped
    subst stepped
    refine ⟨passed, fun state => (added state).trans (or_congr_right ?_)⟩
    exact (or_iff_left fun beside => isParallel beside.1).symm

theorem climbAll_climbs
    {starts : List StateId} {outer : StateId}
    (tended : chart.Tended states way before)
    (same : ∀ start, start ∈ starts ↔ start ∈ states)
    (onWay : ∀ start ∈ states, ∀ upper ∈ chart.between start outer, way upper)
    (climbed : starts.foldlM (fun planned start =>
      chart.enterAbove (chart.enterBelow records fuel) allowed (chart.between start outer)
        planned) before = some after) :
    chart.Tended states way after ∧
      ∀ added, added ∈ after ↔ added ∈ before ∨ chart.Climbed allowed states outer added := by
  obtain ⟨ends, grown⟩ := foldlM_adds (chart.Tended states way) _
    (fun start isStart _ _ tended stepped =>
      enterAbove_climbs formed around tended (onWay start ((same start).mp isStart)) stepped)
    tended climbed
  exact ⟨ends, fun added => by simp only [grown, Climbed, same]⟩

end Climbing

end Statechart.Chart
