import Statechart.Proofs.Isolation
import Statechart.Proofs.Moving
import Statechart.Proofs.Targets

/-!
# Transitions with several targets

The targets of a transition are planned one after the other, each with what it brings, before
the later ones are looked at: a compound state gets its initial child even where a target lies
in another child.  `Chart.Harmonious` says of a list of targets that this does not happen.
A step to ordinary targets below a compound domain leads to a valid configuration exactly if
they are harmonious and the domain, if it is a target itself, is undisturbed: the way up from
it leads beyond it, and what is brought there must be active already.
-/

namespace Statechart

namespace Chart

/-- Wherever a compound state is planned with a target after those in front of it, all targets
inside it lie in its initial child. -/
def Harmonious (chart : Chart) (targets : List StateId) : Prop :=
  ∀ front target back, targets = front ++ target :: back →
    ∀ outer initial, chart.Expands front outer target →
      chart.kind outer = .compound initial →
        ∀ other ∈ targets, chart.isInside other outer = true → chart.Within other initial

/-- What comes by default with the regions beside the way up from the state is active. -/
def Undisturbed (chart : Chart) (active : Configuration) (state : StateId) : Prop :=
  ∀ upper, chart.isInside state upper = true →
    ∀ other, chart.Beside [state] upper other → other ∈ active

/-- Just one child of the state is active. -/
def OneChild (chart : Chart) (active : Configuration) (state : StateId) : Prop :=
  ∃ child, ∀ other, other ∈ active ∧ chart.parent? other = some state ↔ other = child

/-- What a move to these targets with this domain enters. -/
def Entered (chart : Chart) (anew : StateId → Bool) (targets : List StateId)
    (outer state : StateId) : Prop :=
  chart.Planted anew targets state ∨
    chart.Climbed (fun upper => chart.isInside upper outer) targets outer state

theorem separate_iff
    {chart : Chart} (formed : chart.WellFormed) {states : List StateId} :
    chart.Separate states ↔
      ∀ first ∈ states, ∀ second ∈ states, chart.Within first second → first = second := by
  constructor
  · exact fun apart first isFirst second isSecond within =>
      apart first isFirst second isSecond first (.inl rfl) within
  · intro unnested first isFirst second isSecond state firstWithin secondWithin
    rcases within_or_inside formed firstWithin secondWithin with within | inside
    · exact unnested first isFirst second isSecond within
    · exact (unnested second isSecond first isFirst (.inr inside)).symm

theorem harmonious_of_separate
    {chart : Chart} (formed : chart.WellFormed) {targets : List StateId}
    (apart : chart.Separate targets) :
    chart.Harmonious targets := by
  rintro front target back rfl outer initial expands kind other isOther inside
  have deep := inside_within_trans formed inside (expands.within formed)
  obtain rfl := (separate_iff formed).mp apart other isOther target (by simp) (.inr deep)
  exact absurd rfl (ne_of_inside formed deep)

theorem Valid.oneChild
    {chart : Chart} (formed : chart.WellFormed) {active : Configuration} {state : StateId}
    (valid : chart.Valid active)
    (isActive : state ∈ active)
    (compound : chart.isCompound state = true) :
    chart.OneChild active state := by
  obtain ⟨child, isRegion, childActive, only⟩ := valid.compoundChild state isActive compound
  refine ⟨child, fun other => ⟨?_, ?_⟩⟩
  · rintro ⟨otherActive, below⟩
    exact only other ((mem_regions formed).mpr ⟨below, valid.ordinary other otherActive⟩)
      otherActive
  · rintro rfl
    exact ⟨childActive, ((mem_regions formed).mp isRegion).1⟩

section Beside

variable {chart : Chart} (formed : chart.WellFormed)
variable {targets : List StateId} {outer upper region state : StateId}

include formed

theorem beside_apart_of_around
    (isRegion : region ∈ chart.regions upper)
    (around : chart.isInside outer upper = true)
    (free : ¬ chart.Within outer region)
    (stateWithin : chart.Within state region) :
    ¬ chart.Within state outer := by
  intro stateInOuter
  rcases within_or_inside formed stateWithin stateInOuter with (same | inside) | further
  · exact free (.inl same.symm)
  · have within := parent_within formed ((mem_regions formed).mp isRegion).1 inside
    rw [not_inside_of_within formed within] at around
    cases around
  · exact free (.inr further)

theorem not_covers_beside
    (within : ∀ target ∈ targets, chart.Within target outer)
    (isRegion : region ∈ chart.regions upper)
    (around : chart.isInside outer upper = true)
    (free : ¬ chart.Within outer region) :
    ¬ chart.Covers targets region := by
  rintro ⟨target, isTarget, targetWithin⟩
  exact beside_apart_of_around formed isRegion around free targetWithin (within target isTarget)

end Beside

section Entering

variable {chart : Chart} (formed : chart.WellFormed)
variable {anew : StateId → Bool} {targets : List StateId} {outer state : StateId}
variable (within : ∀ target ∈ targets, chart.Within target outer)

include formed

theorem entered_of_lineage
    (areNew : ∀ target ∈ targets, target ≠ outer → anew target = true)
    (lineage : chart.Lineage targets outer state) :
    chart.Entered anew targets outer state := by
  obtain ⟨below, target, isTarget, rfl | inside⟩ := lineage
  · obtain ⟨front, back, split⟩ := List.append_of_mem isTarget
    exact .inl ⟨front, target, back, split, .here,
      .inl (areNew target isTarget (ne_of_inside formed below))⟩
  · have deep := inside_trans formed inside below
    exact .inr ⟨target, isTarget, state, (mem_between formed deep).mpr ⟨inside, below⟩,
      .inl ⟨rfl, below⟩⟩

include within

theorem Harmonious.grown_of_planted
    (harmonious : chart.Harmonious targets)
    (planted : chart.Planted anew targets state) :
    chart.Grown (chart.Rooted targets outer) state := by
  obtain ⟨front, target, back, split, expands, _⟩ := planted
  have isTarget : target ∈ targets := by simp [split]
  have descend : ∀ {lower}, chart.Expands front state lower → chart.Expands front lower target →
      chart.Grown (chart.Rooted targets outer) lower →
        chart.Grown (chart.Rooted targets outer) state := by
    intro lower further
    induction further with
    | here => exact fun _ grown => grown
    | @initial lower initial kind _ ih =>
        intro reached grown
        have lowerWithin := within_trans formed (reached.within formed) (within target isTarget)
        have initialInside := inside_of_initial formed kind
        refine ih ((Expands.initial kind .here).trans reached) ?_
        by_cases occupied : ∃ seed, chart.Rooted targets outer seed ∧
            chart.isInside seed lower = true
        · obtain ⟨seed, rfl | ⟨_, other, isOther, otherWithin⟩, seedInside⟩ := occupied
          · rw [not_inside_of_within formed lowerWithin] at seedInside
            cases seedInside
          · exact .seed (.inr ⟨inside_within_trans formed initialInside lowerWithin, other,
              isOther, harmonious front target back split lower initial reached kind other
                isOther (within_inside_trans formed otherWithin seedInside)⟩)
        · exact .initial grown kind occupied
    | region isParallel isRegion free _ ih =>
        intro reached grown
        exact ih ((Expands.region isParallel isRegion free .here).trans reached)
          (.region grown isParallel isRegion)
  refine descend expands .here (.seed ?_)
  exact (within target isTarget).imp_right fun inside => ⟨inside, target, isTarget, .inl rfl⟩

theorem grown_of_climbed
    (inside : chart.isInside state outer = true)
    (climbed : chart.Climbed (fun upper => chart.isInside upper outer) targets outer state) :
    chart.Grown (chart.Rooted targets outer) state := by
  obtain ⟨start, isStart, upper, onWay, found⟩ := climbed
  rcases within start isStart with rfl | startInside
  · -- From the domain itself the way leads to nothing inside it.
    exfalso
    have around : chart.isInside start upper = true :=
      (isInside_iff_mem formed).mpr (between_subset_ancestors upper onWay)
    rcases found with ⟨rfl, below⟩ | ⟨_, region, isRegion, free, brought⟩
    · have outside := not_inside_of_within formed (.inr around)
      rw [show chart.isInside state start = true from below] at outside
      cases outside
    · exact beside_apart_of_around formed isRegion around
        (fun startWithin => free ⟨start, isStart, startWithin⟩) (brought.within formed)
        (.inr inside)
  · obtain ⟨above, below⟩ := (mem_between formed startInside).mp onWay
    have onLine : chart.Rooted targets outer upper := .inr ⟨below, start, isStart, .inr above⟩
    rcases found with ⟨rfl, _⟩ | ⟨isParallel, region, isRegion, free, brought⟩
    · exact .seed onLine
    · refine Grown.byDefault formed brought (.region (.seed onLine) isParallel isRegion) ?_
      rintro ⟨seed, rfl | ⟨_, member, isMember, memberWithin⟩, seedInside⟩
      · have looped := inside_trans formed seedInside
          (inside_trans formed (inside_of_region formed isRegion) below)
        exact ne_of_inside formed looped rfl
      · exact free ⟨member, isMember, .inr (within_inside_trans formed memberWithin seedInside)⟩

theorem entered_of_grown
    (areNew : ∀ target ∈ targets, target ≠ outer → anew target = true)
    (nonempty : targets ≠ [])
    (compound : chart.isCompound outer = true)
    (grown : chart.Grown (chart.Rooted targets outer) state) :
    state = outer ∨ chart.Entered anew targets outer state := by
  have inner : ∀ seed, chart.Rooted targets outer seed → chart.Within seed outer :=
    fun _ rooted => rooted.imp_right And.left
  induction grown with
  | seed isSeed =>
      exact isSeed.imp_right (entered_of_lineage formed areNew)
  | @region parallel region grown isParallel isRegion ih =>
      right
      by_cases occupied : chart.Covers targets region
      · obtain ⟨target, isTarget, targetWithin⟩ := occupied
        exact entered_of_lineage formed areNew
          ⟨inside_within_trans formed (inside_of_region formed isRegion)
            (grown.within formed inner), target, isTarget, targetWithin⟩
      · rcases ih with rfl | ⟨front, target, back, split, expands, _⟩ |
          ⟨start, isStart, upper, onWay, found⟩
        · cases kind : chart.kind parallel <;> simp_all [Chart.isParallel, isCompound]
        · refine .inl ⟨front, target, back, split,
            (Expands.region isParallel isRegion
              (fun covers => occupied (covers.of_subset (by simp [split]))) .here).trans expands,
            .inr ?_⟩
          rintro rfl
          exact occupied ⟨region, by simp [split], .inl rfl⟩
        · refine .inr ⟨start, isStart, upper, onWay, .inr ?_⟩
          rcases found with ⟨rfl, _⟩ | ⟨upperParallel, first, isFirst, free, brought⟩
          · exact ⟨isParallel, region, isRegion, occupied, .here⟩
          · exact ⟨upperParallel, first, isFirst, free,
              (ByDefault.region isParallel isRegion .here).trans brought⟩
  | @initial lower initial grown kind vacant ih =>
      right
      have below := inside_of_initial formed kind
      have noTarget : ∀ target ∈ targets, chart.isInside target lower ≠ true := by
        intro target isTarget inside
        exact vacant ⟨target, (within target isTarget).imp_right fun deep =>
          ⟨deep, target, isTarget, .inl rfl⟩, inside⟩
      have notTarget : ∀ target ∈ targets, initial ≠ target := by
        rintro target isTarget rfl
        exact noTarget initial isTarget below
      rcases ih with rfl | ⟨front, target, back, split, expands, _⟩ |
        ⟨start, isStart, upper, onWay, found⟩
      · -- No target lies inside the domain, so it is one itself.
        obtain ⟨target, isTarget⟩ := List.exists_mem_of_ne_nil _ nonempty
        obtain rfl := (within target isTarget).resolve_right (noTarget target isTarget)
        obtain ⟨front, back, split⟩ := List.append_of_mem isTarget
        exact .inl ⟨front, target, back, split, .initial kind .here,
          .inr (notTarget target isTarget)⟩
      · exact .inl ⟨front, target, back, split, (Expands.initial kind .here).trans expands,
          .inr (notTarget target (by simp [split]))⟩
      · rcases found with ⟨rfl, _⟩ | ⟨upperParallel, first, isFirst, free, brought⟩
        · exact absurd ((isInside_iff_mem formed).mpr (between_subset_ancestors lower onWay))
            (noTarget start isStart)
        · exact .inr ⟨start, isStart, upper, onWay, .inr ⟨upperParallel, first, isFirst, free,
            (ByDefault.initial kind .here).trans brought⟩⟩

/-- What is entered outside the domain comes with a region beside the way up from the domain,
which is a target then. -/
theorem entered_outside
    (outside : ¬ chart.Within state outer)
    (entered : chart.Entered anew targets outer state) :
    outer ∈ targets ∧ ∃ upper, chart.isInside outer upper = true ∧
      chart.Beside [outer] upper state := by
  rcases entered with ⟨front, target, back, split, expands, _⟩ |
    ⟨start, isStart, upper, onWay, found⟩
  · exact absurd (within_trans formed (expands.within formed) (within target (by simp [split])))
      outside
  · rcases within start isStart with rfl | startInside
    · have around : chart.isInside start upper = true :=
        (isInside_iff_mem formed).mpr (between_subset_ancestors upper onWay)
      refine ⟨isStart, upper, around, ?_⟩
      rcases found with ⟨rfl, below⟩ | ⟨isParallel, region, isRegion, free, brought⟩
      · exact absurd (.inr below) outside
      · refine ⟨isParallel, region, isRegion, fun covers => free (covers.of_subset ?_), brought⟩
        simpa using isStart
    · obtain ⟨_, below⟩ := (mem_between formed startInside).mp onWay
      rcases found with ⟨rfl, _⟩ | ⟨_, region, isRegion, _, brought⟩
      · exact absurd (.inr below) outside
      · exact absurd (.inr (within_inside_trans formed (brought.within formed)
          (inside_trans formed (inside_of_region formed isRegion) below))) outside

/-- If the domain is a target, all that comes with the regions beside the way up from it is
entered. -/
theorem entered_of_beside
    {upper : StateId}
    (isTarget : outer ∈ targets)
    (around : chart.isInside outer upper = true)
    (beside : chart.Beside [outer] upper state) :
    chart.Entered anew targets outer state := by
  obtain ⟨isParallel, region, isRegion, free, brought⟩ := beside
  have onWay : upper ∈ chart.between outer outer := by
    rw [between_of_not_inside formed (not_inside_self formed)]
    exact (isInside_iff_mem formed).mp around
  refine .inr ⟨outer, isTarget, upper, onWay, .inr ⟨isParallel, region, isRegion, ?_, brought⟩⟩
  exact not_covers_beside formed within isRegion around fun outerWithin =>
    free ⟨outer, List.mem_singleton_self outer, outerWithin⟩

end Entering

section Step

variable {chart : Chart} (formed : chart.WellFormed)
variable {active : Configuration} {records : HistoryRecords} {move : Move} {outer : StateId}
variable {entries : StateSet}
variable (valid : chart.Valid active) (fits : move.Fits chart active)
variable (targeted : move.targets ≠ [])
variable (ordinary : ∀ target ∈ move.targets, chart.isHistory target = false)
variable (isDomain : chart.domain records move = outer)
variable (compound : chart.isCompound outer = true)
variable (planned : chart.planMove (chart.recordedBy active records [move]) move [] =
  some entries)

include formed ordinary isDomain

include valid fits in
theorem targets_within : ∀ target ∈ move.targets, chart.Within target outer := by
  rw [← isDomain]
  exact ordinary_within_domain formed ordinary (valid.inRange _ fits.sourceActive)
    fits.targetsInRange

include valid fits in
theorem outer_active : outer ∈ active := by
  rw [← isDomain]
  exact domain_active_of_ordinary formed ordinary valid fits

omit formed ordinary isDomain in
theorem entersAnew_of_ne
    {target : StateId}
    (below : target ≠ outer) :
    entersAnew outer move target = true := by
  cases stays : entersAnew outer move target with
  | true => rfl
  | false => exact absurd (source_of_not_entersAnew stays).2.1 below

include targeted compound planned

theorem mem_entries_iff_entered
    (state : StateId) :
    state ∈ entries ↔ chart.Entered (entersAnew outer move) move.targets outer state := by
  have sameDomain : chart.domain (chart.recordedBy active records [move]) move = outer := by
    rw [← isDomain]
    exact domain_of_ordinary formed ordinary _ _
  rw [planMove_ordinary formed (fun _ => True) targeted ordinary sameDomain
    (fun target _ stays => (source_of_not_entersAnew stays).2.1 ▸ compound) (by simp) (by simp)
    (by simp [Covers]) planned, or_iff_right List.not_mem_nil]
  rfl

theorem mem_succeeding_iff_entered
    (state : StateId) :
    state ∈ chart.succeeding active records [move] entries ↔
      chart.Entered (entersAnew outer move) move.targets outer state ∨
        state ∈ active ∧ chart.isInside state outer = false := by
  rw [mem_succeeding, mem_staying,
    mem_entries_iff_entered formed targeted ordinary isDomain compound planned]
  simp [BelowDomain, targeted, isDomain]

include valid fits

theorem targets_succeed :
    ∀ target ∈ move.targets, target ∈ chart.succeeding active records [move] entries := by
  have within := targets_within formed valid fits ordinary isDomain
  have outerActive := outer_active formed valid fits ordinary isDomain
  intro target isTarget
  rw [mem_succeeding_iff_entered formed targeted ordinary isDomain compound planned]
  rcases within target isTarget with rfl | inside
  · exact .inr ⟨outerActive, not_inside_self formed⟩
  · exact .inl (entered_of_lineage formed (fun _ _ => entersAnew_of_ne)
      ⟨inside, target, isTarget, .inl rfl⟩)

/-- A step to harmonious targets below an undisturbed domain leads to a valid configuration. -/
theorem valid_of_harmonious
    (coherent : chart.Coherent move.targets)
    (harmonious : chart.Harmonious move.targets)
    (undisturbed : outer ∈ move.targets → chart.Undisturbed active outer) :
    chart.Valid (chart.succeeding active records [move] entries) := by
  have within := targets_within formed valid fits ordinary isDomain
  have outerActive := outer_active formed valid fits ordinary isDomain
  have after := mem_succeeding_iff_entered formed targeted ordinary isDomain compound planned
  have regrown : chart.Regrown active (chart.succeeding active records [move] entries) [move]
      (fun _ => outer) fun _ => chart.Rooted move.targets outer := by
    constructor
    · exact fun _ _ => coherent.stem formed ordinary (valid.ordinary outer outerActive)
    · exact fun _ _ => outerActive
    · simp [not_inside_self formed]
    · intro _ _ state inside
      rw [after, inside, or_iff_left (by simp)]
      constructor
      · rintro (planted | climbed)
        · exact harmonious.grown_of_planted formed within planted
        · exact grown_of_climbed formed within inside climbed
      · exact fun grown => (entered_of_grown formed within (fun _ _ => entersAnew_of_ne) targeted
          compound grown).resolve_left (ne_of_inside formed inside)
    · intro state outside
      have clear : chart.isInside state outer = false := by simpa using outside
      rw [after, and_iff_left clear]
      refine or_iff_right_of_imp fun entered => ?_
      by_cases same : state = outer
      · exact same ▸ outerActive
      · obtain ⟨isTarget, upper, around, beside⟩ := entered_outside formed within
          (by simp [Within, same, clear]) entered
        exact undisturbed isTarget upper around state beside
  exact regrown.valid formed valid

variable (single : ∀ state, state ∈ entries ∨ state ∈ move.targets →
  chart.isCompound state = true →
    chart.OneChild (chart.succeeding active records [move] entries) state)

include single

/-- If each compound state that is entered or a target has one active child, the targets are
harmonious: a target in another than the initial child would make that active, too. -/
theorem harmonious_of_oneChild : chart.Harmonious move.targets := by
  have within := targets_within formed valid fits ordinary isDomain
  have entered := mem_entries_iff_entered formed targeted ordinary isDomain compound planned
  have after := mem_succeeding_iff_entered formed targeted ordinary isDomain compound planned
  intro front target back split lower initial expands kind other isOther inside
  have lowerWithin := within_trans formed (expands.within formed) (within target (by simp [split]))
  -- Whatever else than the domain is planned with the target is entered.
  have enters : ∀ {state}, state ≠ outer → chart.Expands front state target →
      chart.Entered (entersAnew outer move) move.targets outer state := by
    intro state below further
    refine .inl ⟨front, target, back, split, further, ?_⟩
    by_cases same : target = outer
    · exact .inr (same ▸ below)
    · exact .inl (entersAnew_of_ne same)
  have deeper : ∀ {state}, chart.isInside state lower = true → state ≠ outer :=
    fun stateInside => ne_of_inside formed (inside_within_trans formed stateInside lowerWithin)
  have counted : lower ∈ entries ∨ lower ∈ move.targets := by
    by_cases same : lower = outer
    · -- Only a target that is the domain is expanded there.
      subst same
      have isTarget : target = lower := (within target (by simp [split])).resolve_right fun below =>
        by simp [not_inside_of_within formed (expands.within formed)] at below
      exact .inr (isTarget ▸ by simp [split])
    · exact .inl ((entered lower).mpr (enters same expands))
  obtain ⟨only, children⟩ := single lower counted (by simp [isCompound, kind])
  obtain ⟨child, childBelow, otherWithin⟩ := child_toward formed inside
  have childInside := inside_of_parent formed childBelow
  have initialInside := inside_of_initial formed kind
  have isInitial : initial = only := (children initial).mp
    ⟨(after initial).mpr (.inl (enters (deeper initialInside)
      ((Expands.initial kind .here).trans expands))),
      ((mem_regions formed).mp (formed.initialBelow kind)).1⟩
  have isChild : child = only := (children child).mp
    ⟨(after child).mpr (.inl (entered_of_lineage formed (fun _ _ => entersAnew_of_ne)
      ⟨inside_within_trans formed childInside lowerWithin, other, isOther, otherWithin⟩)),
      childBelow⟩
  rw [isInitial, ← isChild]
  exact otherWithin

/-- If each compound state that is entered has one active child, a domain that is a target is
undisturbed: what is entered beside it again would fork where it is not active. -/
theorem undisturbed_of_oneChild
    (isTarget : outer ∈ move.targets) :
    chart.Undisturbed active outer := by
  have within := targets_within formed valid fits ordinary isDomain
  have outerActive := outer_active formed valid fits ordinary isDomain
  have after := mem_succeeding_iff_entered formed targeted ordinary isDomain compound planned
  rintro upper around state ⟨isParallel, region, isRegion, free, brought⟩
  have apart : ∀ {other}, chart.Within other region → chart.isInside other outer = false := by
    intro other otherWithin
    have outside := beside_apart_of_around formed isRegion around
      (fun outerWithin => free ⟨outer, List.mem_singleton_self outer, outerWithin⟩) otherWithin
    simpa using fun inside => outside (.inr inside)
  have enters : ∀ {other}, chart.ByDefault other region →
      chart.Entered (entersAnew outer move) move.targets outer other := fun reached =>
    entered_of_beside formed within isTarget around
      ⟨isParallel, region, isRegion, free, reached⟩
  have descend : ∀ {lower}, chart.ByDefault state lower → chart.ByDefault lower region →
      lower ∈ active → state ∈ active := by
    intro lower further
    induction further with
    | here => exact fun _ lowerActive => lowerActive
    | @initial lower initial kind _ ih =>
        intro reached lowerActive
        have isCompound : chart.isCompound lower = true := by simp [Chart.isCompound, kind]
        have initialReached := (ByDefault.initial kind .here).trans reached
        obtain ⟨only, children⟩ := single lower (.inl ((mem_entries_iff_entered formed targeted
          ordinary isDomain compound planned lower).mpr (enters reached))) isCompound
        obtain ⟨child, childRegion, childActive, _⟩ :=
          valid.compoundChild lower lowerActive isCompound
        have childWithin : chart.Within child region :=
          .inr (inside_within_trans formed (inside_of_region formed childRegion)
            (reached.within formed))
        have isInitial : initial = only := (children initial).mp
          ⟨(after initial).mpr (.inl (enters initialReached)),
            ((mem_regions formed).mp (formed.initialBelow kind)).1⟩
        have isChild : child = only := (children child).mp
          ⟨(after child).mpr (.inr ⟨childActive, apart childWithin⟩),
            ((mem_regions formed).mp childRegion).1⟩
        exact ih initialReached (isInitial.trans isChild.symm ▸ childActive)
    | @region lower first lowerParallel isFirst _ ih =>
        intro reached lowerActive
        exact ih ((ByDefault.region lowerParallel isFirst .here).trans reached)
          (valid.regionsActive lower lowerActive lowerParallel first isFirst)
  exact descend brought .here (valid.regionsActive upper
    (valid.outerActive formed outerActive around) isParallel region isRegion)

end Step

end Chart

namespace MachineSpec

variable {L : Type} {spec : MachineSpec L} {machine : Machine L}

/-- When a list of targets that was accepted can be entered.  In a built machine, take an event
on which just one transition is selected, which leads to ordinary states and has a compound
domain.  Whatever is recorded, the step is foretold, and all targets are active afterwards.  Each
compound state that is entered or a target has just one active child exactly if the targets are
harmonious and the domain, if it is a target, is undisturbed; and exactly then the step leads to
a valid configuration.  It always does if no target lies in another and the domain is none.  A
target is entered unless it is the domain, so where it is none, this is about what is entered. -/
theorem target_list_entered_iff
    (built : spec.build = .ok machine)
    (ordinaryRoot : spec.HasOrdinaryRoot)
    {active : Configuration} {history : HistoryRecords}
    (valid : machine.chart.check active = none)
    {context : Json} {event : Event} {selection : Selection L} {choice : Choice L}
    (selected : machine.select .event active history context event = .ok selection)
    (single : selection.chosen = [choice])
    (targeted : choice.candidate.targets ≠ [])
    (ordinary : ∀ target ∈ choice.candidate.targets, machine.chart.isHistory target = false)
    {outer : StateId}
    (isDomain : machine.chart.domain history choice.move = outer)
    (compound : machine.chart.isCompound outer = true) :
    ∃ resolution, machine.resolve active history context event = .ok resolution ∧
      (∀ target ∈ choice.candidate.targets, target ∈ resolution.active) ∧
      ((∀ state, state ∈ resolution.entries ∨ state ∈ choice.candidate.targets →
          machine.chart.isCompound state = true →
            machine.chart.OneChild resolution.active state) ↔
        machine.chart.Harmonious choice.candidate.targets ∧
          (outer ∈ choice.candidate.targets → machine.chart.Undisturbed active outer)) ∧
      (machine.chart.check resolution.active = none ↔
        machine.chart.Harmonious choice.candidate.targets ∧
          (outer ∈ choice.candidate.targets → machine.chart.Undisturbed active outer)) ∧
      (machine.chart.Separate choice.candidate.targets → outer ∉ choice.candidate.targets →
        machine.chart.check resolution.active = none) := by
  have formed := build_machine_wellFormed built ordinaryRoot
  have isValid := (Chart.check_eq_none_iff formed.chart).mp valid
  have moves : selection.chosen.map Choice.move = [choice.move] := by simp [single]
  have fits := Machine.select_fits formed.chart formed.lead isValid selected choice.move
    (by simp [moves])
  have coherent : machine.chart.Coherent choice.move.targets := by
    obtain ⟨transition, member, isCandidate⟩ :=
      (Machine.select_offers_above selected choice (by simp [single])).declared
    exact (Chart.targetConflicts_eq_nil_iff_coherent formed.chart fits.targetsInRange _).mp
      (build_targetConflicts built member isCandidate)
  obtain ⟨entries, planned⟩ := Chart.planMove_ends_of_ordinary formed.chart
    (show ∀ target ∈ choice.move.targets, machine.chart.isHistory target = false from ordinary)
    (machine.chart.recordedBy active history [choice.move]) []
  have entered := Chart.mem_entries_iff_entered formed.chart targeted ordinary isDomain compound
    planned
  have after := Chart.mem_succeeding_iff_entered formed.chart targeted ordinary isDomain compound
    planned
  have reached := Chart.targets_succeed formed.chart isValid fits targeted ordinary isDomain
    compound planned
  have leads : (machine.foretold active history selection entries).active =
      machine.chart.succeeding active history [choice.move] entries := by
    rw [Machine.foretold, moves]
  have whole : machine.chart.Harmonious choice.candidate.targets ∧
      (outer ∈ choice.candidate.targets → machine.chart.Undisturbed active outer) →
      machine.chart.Valid (machine.chart.succeeding active history [choice.move] entries) :=
    fun ⟨harmonious, undisturbed⟩ => Chart.valid_of_harmonious formed.chart isValid fits targeted
      ordinary isDomain compound planned coherent harmonious undisturbed
  have counted : machine.chart.Valid
        (machine.chart.succeeding active history [choice.move] entries) →
      ∀ state, state ∈ entries ∨ state ∈ choice.candidate.targets →
        machine.chart.isCompound state = true → machine.chart.OneChild
          (machine.chart.succeeding active history [choice.move] entries) state := by
    rintro validAfter state (isEntered | isTarget) isCompound
    · exact validAfter.oneChild formed.chart
        ((after state).mpr (.inl ((entered state).mp isEntered))) isCompound
    · exact validAfter.oneChild formed.chart (reached state isTarget) isCompound
  have needed : (∀ state, state ∈ entries ∨ state ∈ choice.candidate.targets →
        machine.chart.isCompound state = true → machine.chart.OneChild
          (machine.chart.succeeding active history [choice.move] entries) state) →
      machine.chart.Harmonious choice.candidate.targets ∧
        (outer ∈ choice.candidate.targets → machine.chart.Undisturbed active outer) :=
    fun single =>
      ⟨Chart.harmonious_of_oneChild formed.chart isValid fits targeted ordinary isDomain compound
        planned single, fun isTarget => Chart.undisturbed_of_oneChild formed.chart isValid fits
          targeted ordinary isDomain compound planned single isTarget⟩
  refine ⟨machine.foretold active history selection entries, Machine.resolve_ok_iff.mpr
    ⟨selection, entries, selected, by simp [moves, Chart.entries?, planned], rfl⟩, ?_⟩
  rw [leads, Chart.check_eq_none_iff formed.chart]
  refine ⟨reached, ⟨needed, fun accord => counted (whole accord)⟩,
    ⟨fun validAfter => needed (counted validAfter), whole⟩, ?_⟩
  exact fun apart free => whole ⟨Chart.harmonious_of_separate formed.chart apart,
    fun isTarget => absurd isTarget free⟩

/-- A shop with two places at its bench, which are taken up together. -/
def workshop : MachineSpec L :=
  { root := .mk { key := "shop" }
      [.mk { key := "shut"
             transitions := [(.on "OPEN", { targets := ["bench.left.saw", "bench.right.plane"] })] }
          [],
       .mk { key := "bench", kind := .parallel }
          [.mk { key := "left" } [.mk { key := "idle" } [], .mk { key := "saw" } []],
           .mk { key := "right" } [.mk { key := "idle" } [], .mk { key := "plane" } []]]]
    context := some fun _ => .null }

/-- A door that is pushed open, and wide open at that. -/
def door : MachineSpec L :=
  { root := .mk { key := "door" }
      [.mk { key := "shut"
             transitions := [(.on "PUSH", { targets := ["open", "open.wide"] })] } [],
       .mk { key := "open" } [.mk { key := "ajar" } [], .mk { key := "wide" } []]]
    context := some fun _ => .null }

/-- In the open shop both places at the bench are at work. -/
theorem target_list_entered_workshop :
    let machine : Machine Unit := workshop.machine fun _ => .null
    ∃ resolution, machine.resolve [0, 1] [] .null (Event.named "OPEN") = .ok resolution ∧
      5 ∈ resolution.active ∧ 8 ∈ resolution.active ∧
      machine.chart.check resolution.active = none := by
  intro machine
  have built : workshop.build = .ok machine := build_of_faultless (by decide +kernel) rfl
  have formed := build_wellFormed built (.inl rfl)
  obtain ⟨selection, selected, chosen⟩ := Machine.select_of_moves
    (show (machine.select .event [0, 1] [] .null (Event.named "OPEN")).map _ =
      .ok [⟨1, [5, 8], false⟩] by decide +kernel)
  obtain ⟨choice, single, moves⟩ := List.map_eq_singleton_iff.mp chosen
  have targets : choice.candidate.targets = [5, 8] := congrArg Move.targets moves
  obtain ⟨resolution, foretold, reached, _, _, apart⟩ := target_list_entered_iff built (.inl rfl)
    (by decide +kernel) selected single (by simp [targets])
    (by
      rw [targets]
      decide +kernel)
    (show machine.chart.domain [] choice.move = 0 by
      rw [moves]
      decide +kernel) (by decide +kernel)
  rw [targets] at reached apart
  refine ⟨resolution, foretold, reached 5 (by simp), reached 8 (by simp), apart ?_ (by simp)⟩
  exact (Chart.separate_iff formed).mpr (by decide +kernel)

/-- The door that is pushed is ajar and wide open at once. -/
theorem target_list_not_entered_door :
    let machine : Machine Unit := door.machine fun _ => .null
    door.build = .ok machine ∧ machine.chart.check [0, 1] = none ∧
      (machine.select .event [0, 1] [] .null (Event.named "PUSH")).map (fun selection =>
        selection.chosen.map Choice.move) = .ok [⟨1, [2, 4], false⟩] ∧
      machine.chart.isHistory 2 = false ∧ machine.chart.isHistory 4 = false ∧
      machine.chart.domain [] ⟨1, [2, 4], false⟩ = 0 ∧ machine.chart.isCompound 0 = true ∧
      machine.chart.isCompound 2 = true ∧ machine.chart.parent? 3 = some 2 ∧
      machine.chart.parent? 4 = some 2 ∧
      (machine.resolve [0, 1] [] .null (Event.named "PUSH")).map (fun resolution =>
        (resolution.entries, resolution.active)) = .ok ([2, 3, 4], [0, 2, 3, 4]) := by
  intro machine
  exact ⟨build_of_faultless (by decide +kernel) rfl, by decide +kernel, by decide +kernel,
    by decide +kernel, by decide +kernel, by decide +kernel, by decide +kernel, by decide +kernel,
    by decide +kernel, by decide +kernel, by decide +kernel⟩

end MachineSpec

end Statechart
