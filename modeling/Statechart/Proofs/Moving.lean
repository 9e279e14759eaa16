import Statechart.Proofs.Climbing
import Statechart.Proofs.PlainMoves

/-!
# What planning a move adds

Planning a move is to plan what its targets stand for and to go up from there to its domain.
The states that it adds are known exactly, for any ordinary targets, and for a history state
that stands for states which lie apart.  If these lie apart inside the domain, they are what
grows from them there.
-/

namespace Statechart.Chart

theorem domain_congr
    {chart : Chart} {records others : HistoryRecords} {move : Move}
    (same : ∀ state, state ∈ chart.effectiveTargets records move.targets ↔
      state ∈ chart.effectiveTargets others move.targets) :
    chart.domain records move = chart.domain others move := by
  have all : ∀ holds : StateId → Bool, (chart.effectiveTargets records move.targets).all holds =
      (chart.effectiveTargets others move.targets).all holds := by
    intro holds
    rw [Bool.eq_iff_iff, List.all_eq_true, List.all_eq_true]
    exact forall_congr' fun state => by rw [same]
  have stays : chart.staysInside records move = chart.staysInside others move := by
    simp only [staysInside, all]
  have meets : chart.meet move.source (chart.effectiveTargets records move.targets) =
      chart.meet move.source (chart.effectiveTargets others move.targets) := by
    simp only [meet, all]
  rw [domain, domain, stays, meets]

section Ordinary

variable {chart : Chart} (formed : chart.WellFormed)
variable {active : Configuration} {records : HistoryRecords} {move : Move}
variable (ordinary : ∀ target ∈ move.targets, chart.isHistory target = false)

include formed ordinary

theorem mem_effectiveTargets_of_ordinary
    (records : HistoryRecords) (state : StateId) :
    state ∈ chart.effectiveTargets records move.targets ↔ state ∈ move.targets := by
  rw [mem_effectiveTargets formed]
  constructor
  · rintro ⟨target, isTarget, stands⟩
    rw [standsFor_ordinary (ordinary target isTarget)] at stands
    exact List.mem_singleton.mp stands ▸ isTarget
  · intro isTarget
    exact ⟨state, isTarget, by simp [standsFor_ordinary (ordinary state isTarget)]⟩

theorem domain_of_ordinary
    (records others : HistoryRecords) :
    chart.domain records move = chart.domain others move :=
  domain_congr fun state => by
    rw [mem_effectiveTargets_of_ordinary formed ordinary,
      mem_effectiveTargets_of_ordinary formed ordinary]

theorem ordinary_within_domain
    (sourceInRange : move.source < chart.size)
    (inRange : ∀ target ∈ move.targets, target < chart.size) :
    ∀ target ∈ move.targets, chart.Within target (chart.domain records move) := by
  intro target isTarget
  rw [domain_of_ordinary formed ordinary records HistoryRecords.empty]
  exact target_within_domain formed sourceInRange (sound_empty chart) inRange target
    ((mem_effectiveTargets_of_ordinary formed ordinary _ target).mpr isTarget)

theorem domain_active_of_ordinary
    (valid : chart.Valid active)
    (fits : move.Fits chart active) :
    chart.domain records move ∈ active := by
  rw [domain_of_ordinary formed ordinary records HistoryRecords.empty]
  exact valid.withinActive formed fits.sourceActive
    (source_within_domain formed (valid.inRange _ fits.sourceActive) (sound_empty chart)
      fits.targetsInRange)

/-- Planning a move to ordinary targets has an answer, whatever is recorded. -/
theorem planMove_ends_of_ordinary
    (records : HistoryRecords) (before : StateSet) :
    ∃ after, chart.planMove records move before = some after := by
  refine Option.ne_none_iff_exists'.mp fun failed => ?_
  obtain ⟨target, isTarget, unsettled⟩ := (planMove_eq_none_iff formed move before).mp failed
  exact unsettled (.ordinary (ordinary target isTarget))

end Ordinary

section Moving

variable {chart : Chart} (formed : chart.WellFormed) {records : HistoryRecords}
variable {states : List StateId} {before after : StateSet} {move : Move} {outer : StateId}

include formed

/-- States that lie apart inside `outer` are planned with all that grows from them there. -/
theorem planted_or_climbed_iff_grown
    {anew : StateId → Bool} {state : StateId}
    (apart : chart.Separate states)
    (inside : ∀ member ∈ states, chart.isInside member outer = true)
    (areNew : ∀ member ∈ states, anew member = true) :
    chart.Planted anew states state ∨
        chart.Climbed (fun upper => chart.isInside upper outer) states outer state ↔
      chart.Grown (chart.Lineage states outer) state := by
  rw [planted_iff_byDefault formed apart areNew, grown_lineage_iff formed inside]
  constructor
  · rintro (⟨member, isMember, brought⟩ | ⟨start, isStart, upper, onWay, found⟩)
    · refine .inl ⟨member, isMember, ?_, brought⟩
      rintro ⟨other, isOther, further⟩
      obtain rfl := apart other isOther member isMember other (.inl rfl) (.inr further)
      exact ne_of_inside formed further rfl
    · obtain ⟨above, below⟩ := (mem_between formed (inside start isStart)).mp onWay
      rcases found with ⟨rfl, _⟩ | ⟨isParallel, region, isRegion, free, brought⟩
      · exact .inr (.inl ⟨start, isStart, above, below⟩)
      · exact .inr (.inr ⟨start, isStart, upper, above, below, isParallel, region, isRegion,
          free, brought⟩)
  · rintro (⟨member, isMember, _, brought⟩ | ⟨member, isMember, above, below⟩ |
      ⟨member, isMember, upper, above, below, isParallel, region, isRegion, free, brought⟩)
    · exact .inl ⟨member, isMember, brought⟩
    · exact .inr ⟨member, isMember, state,
        (mem_between formed (inside member isMember)).mpr ⟨above, below⟩, .inl ⟨rfl, below⟩⟩
    · exact .inr ⟨member, isMember, upper,
        (mem_between formed (inside member isMember)).mpr ⟨above, below⟩,
        .inr ⟨isParallel, region, isRegion, free, brought⟩⟩

theorem tended_of_primed
    {ground : StateId → Prop}
    (marked : ∀ state ∈ states, chart.Covers after state)
    (primed : ∀ region, ground region → chart.Primed states after region)
    (grounded : ∀ state ∈ states, ∀ upper ∈ chart.between state outer,
      ∀ region ∈ chart.regions upper, ground region) :
    chart.Tended states (fun upper => ∃ state ∈ states, upper ∈ chart.between state outer)
      after where
  marked := marked
  ready := by
    rintro upper ⟨state, member, onWay⟩ _ region isRegion free
    exact (primed region (grounded state member upper onWay region isRegion)).ready formed free

theorem around_between :
    ∀ upper, (∃ state ∈ states, upper ∈ chart.between state outer) →
      ∃ state ∈ states, chart.isInside state upper = true := by
  rintro upper ⟨state, member, onWay⟩
  exact ⟨state, member, (isInside_iff_mem formed).mpr (between_subset_ancestors upper onWay)⟩

theorem planMove_ordinary
    (ground : StateId → Prop)
    (targeted : move.targets ≠ [])
    (ordinary : ∀ target ∈ move.targets, chart.isHistory target = false)
    (isDomain : chart.domain records move = outer)
    (refused : ∀ target ∈ move.targets, entersAnew outer move target = false →
      chart.isCompound target = true)
    (below : ∀ target ∈ move.targets, ∀ region, chart.isInside region target = true →
      ground region)
    (beside : ∀ target ∈ move.targets, ∀ upper ∈ chart.between target outer,
      ∀ region ∈ chart.regions upper, ground region)
    (vacant : ∀ region, ground region → ¬ chart.Covers before region)
    (planned : chart.planMove records move before = some after)
    (added : StateId) :
    added ∈ after ↔ added ∈ before ∨
      (chart.Planted (entersAnew outer move) move.targets added ∨
        chart.Climbed (fun upper => chart.isInside upper outer) move.targets outer added) := by
  have notEmpty : move.targets.isEmpty = false := by simpa using targeted
  simp only [planMove, notEmpty, Bool.false_eq_true, if_false, isDomain, Option.bind_eq_bind,
    Option.bind_eq_some_iff] at planned
  obtain ⟨middle, planted, climbed⟩ := planned
  obtain ⟨plants, marked, primed⟩ :=
    plantAll_expands formed ground ordinary refused below vacant planted
  obtain ⟨_, climbs⟩ := climbAll_climbs formed (around_between formed)
    (tended_of_primed formed marked primed beside)
    (mem_effectiveTargets_of_ordinary formed ordinary records)
    (fun start isStart upper onWay => ⟨start, isStart, onWay⟩) climbed
  rw [climbs, plants, or_assoc]

/-- What a move to one ordinary state inside its domain adds to a plan that holds nothing
there. -/
theorem planMove_single
    {target : StateId}
    (only : move.targets = [target])
    (ordinary : chart.isHistory target = false)
    (isDomain : chart.domain records move = outer)
    (inside : chart.isInside target outer = true)
    (vacant : ∀ region, chart.isInside region outer = true → ¬ chart.Covers before region)
    (planned : chart.planMove records move before = some after)
    (added : StateId) :
    added ∈ after ↔
      added ∈ before ∨ chart.Grown (chart.Lineage [target] outer) added := by
  have anew : entersAnew outer move target = true := by
    cases stays : entersAnew outer move target with
    | true => rfl
    | false =>
        exact absurd (source_of_not_entersAnew stays).2.1 (ne_of_inside formed inside)
  rw [planMove_ordinary formed _ (by simp [only]) (by simpa [only]) isDomain
    (by simp [only, anew])
    (by simpa [only] using fun region deeper => inside_trans formed deeper inside)
    (by
      simp only [only, List.mem_singleton, forall_eq]
      exact fun upper onWay region isRegion =>
        inside_trans formed (inside_of_region formed isRegion)
          ((mem_between formed inside).mp onWay).2)
    vacant planned, only,
    planted_or_climbed_iff_grown formed (by simp [Separate]) (by simpa using inside)
      (by simpa using anew)]

theorem between_farther
    {start parent upper : StateId}
    (inside : chart.isInside start parent = true)
    (further : chart.isInside parent outer = true)
    (onWay : upper ∈ chart.between start parent) :
    upper ∈ chart.between start outer := by
  obtain ⟨around, below⟩ := (mem_between formed inside).mp onWay
  exact (mem_between formed (inside_trans formed inside further)).mpr
    ⟨around, inside_trans formed below further⟩

theorem Climbed.farther
    {parent state : StateId}
    (inside : ∀ start ∈ states, chart.isInside start parent = true)
    (further : chart.isInside parent outer = true)
    (climbed : chart.Climbed (fun _ => true) states parent state) :
    chart.Climbed (fun upper => chart.isInside upper outer) states outer state := by
  obtain ⟨start, isStart, upper, onWay, found⟩ := climbed
  have onLongWay := between_farther formed (inside start isStart) further onWay
  refine ⟨start, isStart, upper, onLongWay, found.imp_left fun passed => ⟨passed.1, ?_⟩⟩
  exact ((mem_between formed (inside_trans formed (inside start isStart) further)).mp onLongWay).2

omit formed in
/-- A move to a history state alone is planned in three loops over what the state stands for:
its states with all they bring, the ways up to its parent, and the ways up to the domain. -/
theorem planMove_memory_loops
    {memory parent : StateId}
    (history : chart.isHistory memory = true)
    (above : chart.parent? memory = some parent)
    (targets : move.targets = [memory])
    (isDomain : chart.domain records move = outer)
    (planned : chart.planMove records move before = some after) :
    ∃ fuel middle lifted,
      (chart.standsFor records memory).foldlM (fun planned state =>
        chart.enterBelow records fuel state
          (if true then chart.planUnlessHistory state planned else planned)) before =
        some middle ∧
      (chart.standsFor records memory).foldlM (fun planned state =>
        chart.enterAbove (chart.enterBelow records fuel) (fun _ => true)
          (chart.between state parent) planned) middle = some lifted ∧
      (chart.effectiveTargets records move.targets).foldlM (fun planned target =>
        chart.enterAbove (chart.enterBelow records (fuel + 1))
          (fun ancestor => chart.isInside ancestor outer)
          (chart.between target outer) planned) lifted = some after := by
  obtain ⟨fuel, enough⟩ : ∃ fuel, chart.entryBound = fuel + 1 :=
    Nat.exists_eq_succ_of_ne_zero (Nat.ne_zero_of_lt (size_lt_entryBound chart))
  obtain ⟨lifted, restores, climbed⟩ : ∃ lifted,
      chart.enterBelow records (fuel + 1) memory before = some lifted ∧
      (chart.effectiveTargets records move.targets).foldlM (fun planned target =>
        chart.enterAbove (chart.enterBelow records (fuel + 1))
          (fun ancestor => chart.isInside ancestor outer)
          (chart.between target outer) planned) lifted =
        some after := by
    simpa [planMove, targets, isDomain, planUnlessHistory, history, enough,
      Option.bind_eq_some_iff] using planned
  cases kind : chart.kind memory with
  | history memoryKind defaults =>
      simp only [enterBelow, kind, above, Option.bind_eq_bind, Option.bind_eq_some_iff]
        at restores
      obtain ⟨middle, planting, rising⟩ := restores
      exact ⟨fuel, middle, lifted, by simpa [standsFor, kind] using planting,
        by simpa [standsFor, kind] using rising, climbed⟩
  | _ => simp [isHistory, kind] at history

/-- What a move to a history state that stands for states which lie apart in its parent adds
to a plan that holds nothing in the domain. -/
theorem planMove_memory
    {memory parent : StateId}
    (sound : chart.Sound records)
    (history : chart.isHistory memory = true)
    (above : chart.parent? memory = some parent)
    (targets : move.targets = [memory])
    (isDomain : chart.domain records move = outer)
    (further : chart.isInside parent outer = true)
    (vacant : ∀ region, chart.isInside region outer = true → ¬ chart.Covers before region)
    (planned : chart.planMove records move before = some after)
    (added : StateId) :
    added ∈ after ↔ added ∈ before ∨
      (chart.Planted (fun _ => true) (chart.standsFor records memory) added ∨
        chart.Climbed (fun upper => chart.isInside upper outer)
          (chart.standsFor records memory) outer added) := by
  obtain ⟨fuel, middle, lifted, planting, rising, climbed⟩ :=
    planMove_memory_loops history above targets isDomain planned
  have stands := fun state (member : state ∈ chart.standsFor records memory) =>
    standsFor_history formed sound history member
  have inParent : ∀ state ∈ chart.standsFor records memory,
      chart.isInside state parent = true := fun state member => (stands state member).2 parent above
  have inside : ∀ state ∈ chart.standsFor records memory,
      chart.isInside state outer = true := fun state member =>
    inside_trans formed (inParent state member) further
  obtain ⟨plants, marked, primed⟩ := plantAll_expands formed
    (fun region => chart.isInside region outer = true)
    (fun state member => (stands state member).1) (by simp)
    (fun state member region deeper => inside_trans formed deeper (inside state member))
    vacant planting
  have tended : chart.Tended (chart.standsFor records memory)
      (fun upper => ∃ state ∈ chart.standsFor records memory,
        upper ∈ chart.between state outer) middle :=
    tended_of_primed formed marked primed fun state member upper onWay region isRegion =>
      inside_trans formed (inside_of_region formed isRegion)
        ((mem_between formed (inside state member)).mp onWay).2
  obtain ⟨lifts, rises⟩ := climbAll_climbs formed (around_between formed) tended
    (fun _ => Iff.rfl)
    (fun start isStart upper onWay =>
      ⟨start, isStart, between_farther formed (inParent start isStart) further onWay⟩) rising
  obtain ⟨_, climbs⟩ := climbAll_climbs formed (around_between formed) lifts
    (fun start => by rw [mem_effectiveTargets formed]; simp [targets])
    (fun start isStart upper onWay => ⟨start, isStart, onWay⟩) climbed
  rw [climbs, rises, plants, or_assoc, or_assoc,
    or_iff_right_of_imp (Climbed.farther formed inParent further)]

end Moving

end Statechart.Chart
