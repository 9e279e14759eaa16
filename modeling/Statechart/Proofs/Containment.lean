import Statechart.Proofs.EntryEnds

/-!
# Steps that stay below their domains

A step leaves what is active below the domains of its moves.  It is contained if it also
enters nothing but states below these domains.  `Chart.fresh_iff_contained` says that
exactly the contained steps enter no state that stays active.
-/

namespace Statechart.Chart

/-- The active states that a step does not leave. -/
def staying (chart : Chart) (active : Configuration) (records : HistoryRecords)
    (moves : List Move) : Configuration :=
  active.removeAll (chart.exits active records moves)

/-- The active states after a step that enters these states. -/
def succeeding (chart : Chart) (active : Configuration) (records : HistoryRecords)
    (moves : List Move) (entries : StateSet) : Configuration :=
  (chart.staying active records moves).insertAll entries

/-- The records after a step has left what it leaves. -/
def recordedBy (chart : Chart) (active : Configuration) (records : HistoryRecords)
    (moves : List Move) : HistoryRecords :=
  chart.recordHistory active records (chart.exits active records moves)

/-- The state lies strictly inside the domain of a move with targets. -/
def BelowDomain (chart : Chart) (records : HistoryRecords) (moves : List Move)
    (state : StateId) : Prop :=
  ∃ move ∈ moves, move.targets ≠ [] ∧
    chart.isInside state (chart.domain records move) = true

/-- Everything entered lies strictly inside the domain of some move with targets. -/
def Contained (chart : Chart) (records : HistoryRecords) (moves : List Move)
    (entries : StateSet) : Prop :=
  ∀ state ∈ entries, chart.BelowDomain records moves state

section Staying

variable {chart : Chart} {active : Configuration} {records : HistoryRecords}
variable {moves : List Move} {state outer : StateId}

theorem mem_staying :
    state ∈ chart.staying active records moves ↔
      state ∈ active ∧ ¬ chart.BelowDomain records moves state := by
  unfold staying
  rw [StateSet.mem_removeAll, mem_exits]
  constructor
  · rintro ⟨isActive, stays⟩
    exact ⟨isActive, fun below => stays ⟨isActive, below⟩⟩
  · rintro ⟨isActive, outside⟩
    exact ⟨isActive, fun left => outside left.2⟩

theorem mem_succeeding
    {entries : StateSet} :
    state ∈ chart.succeeding active records moves entries ↔
      state ∈ entries ∨ state ∈ chart.staying active records moves := by
  simp [succeeding]

theorem BelowDomain.deeper
    (formed : chart.WellFormed)
    (below : chart.BelowDomain records moves outer)
    (within : chart.Within state outer) :
    chart.BelowDomain records moves state := by
  obtain ⟨move, chosen, targeted, inside⟩ := below
  exact ⟨move, chosen, targeted, within_inside_trans formed within inside⟩

theorem belowDomain_of_active
    (fresh : state ∉ chart.staying active records moves)
    (isActive : state ∈ active) :
    chart.BelowDomain records moves state := by
  by_contra outside
  exact fresh (mem_staying.mpr ⟨isActive, outside⟩)

theorem recordedBy_sound
    (formed : chart.WellFormed)
    (ordinary : ∀ state ∈ active, chart.isHistory state = false)
    (sound : chart.Sound records)
    (moves : List Move) :
    chart.Sound (chart.recordedBy active records moves) :=
  sound_recordHistory formed ordinary sound _

end Staying

section Step

variable {chart : Chart} (formed : chart.WellFormed)
variable {active : Configuration} {records : HistoryRecords} {moves : List Move}
variable (valid : chart.Valid active) (sound : chart.Sound records)
variable (fits : ∀ move ∈ moves, move.Fits chart active)

include formed valid sound fits

theorem domain_active
    {move : Move}
    (chosen : move ∈ moves) :
    chart.domain records move ∈ active := by
  have fit := fits move chosen
  exact valid.withinActive formed fit.sourceActive
    (source_within_domain formed (valid.inRange _ fit.sourceActive) sound
      fit.targetsInRange)

/-- Whether a state above an effective target lies below a domain or around it can be
told: those around it are active. -/
theorem below_or_active
    {effective state : StateId} {move : Move}
    (chosen : move ∈ moves)
    (isEffective : effective ∈
      chart.effectiveTargets (chart.recordedBy active records moves) move.targets)
    (above : chart.Within effective state) :
    chart.BelowDomain records moves state ∨ state ∈ active := by
  obtain ⟨other, otherChosen, targeted, within⟩ :=
    recorded_target_within formed valid sound fits chosen isEffective
  rcases within_or_inside formed above within with (same | below) | around
  · right
    rw [same]
    exact domain_active formed valid sound fits otherChosen
  · exact .inl ⟨other, otherChosen, targeted, below⟩
  · right
    exact valid.outerActive formed
      (domain_active formed valid sound fits otherChosen) around

/-- A step enters no state that stays active exactly if it is contained. -/
theorem fresh_iff_contained
    {entries : StateSet}
    (planned : chart.Planned (chart.recordedBy active records moves) moves entries) :
    (∀ state ∈ entries, state ∉ chart.staying active records moves) ↔
      chart.Contained records moves entries := by
  constructor
  · intro fresh state member
    have settle : ∀ {other : StateId}, other ∈ entries →
        chart.BelowDomain records moves other ∨ other ∈ active →
        chart.BelowDomain records moves other := by
      intro other otherMember found
      rcases found with below | isActive
      · exact below
      · exact belowDomain_of_active (fresh other otherMember) isActive
    obtain ⟨move, chosen, _, enters⟩ := planned.enters state member
    -- A missing region around a domain is active, since the parallel state around it is.
    have sprouting : ∀ {effective outer : StateId},
        effective ∈ chart.effectiveTargets (chart.recordedBy active records moves)
          move.targets →
        chart.Sprouts [] entries (chart.between effective outer) state →
        chart.BelowDomain records moves state := by
      intro effective outer isEffective sprouts
      obtain ⟨parallel, inLine, isParallel, region, isRegion, entered, within, _⟩ := sprouts
      have above : chart.isInside effective parallel = true :=
        (isInside_iff_mem formed).mpr (between_subset_ancestors parallel inLine)
      have regionBelow := ((mem_regions formed).mp isRegion).1
      refine BelowDomain.deeper formed (settle entered ?_) within
      rcases below_or_active formed valid sound fits chosen isEffective (.inr above) with
        below | isActive
      · exact .inl (below.deeper formed (.inr (inside_of_parent formed regionBelow)))
      · exact .inr (valid.regionsActive parallel isActive isParallel region isRegion)
    cases enters with
    | below isTarget stands within =>
        have isEffective := (mem_effectiveTargets formed).mpr ⟨_, isTarget, stands⟩
        obtain ⟨other, otherChosen, targeted, effectiveWithin⟩ :=
          recorded_target_within formed valid sound fits chosen isEffective
        rcases within_trans formed within effectiveWithin with same | inside
        · apply settle member
          right
          rw [same]
          exact domain_active formed valid sound fits otherChosen
        · exact ⟨other, otherChosen, targeted, inside⟩
    | restoredLine isTarget history above stands inLine =>
        have isEffective := (mem_effectiveTargets formed).mpr ⟨_, isTarget, stands⟩
        exact settle member (below_or_active formed valid sound fits chosen isEffective
          (.inr ((isInside_iff_mem formed).mpr (between_subset_ancestors state inLine))))
    | restoredRegion isTarget history above stands sprouts =>
        exact sprouting ((mem_effectiveTargets formed).mpr ⟨_, isTarget, stands⟩) sprouts
    | line isEffective inLine inside =>
        exact settle member (below_or_active formed valid sound fits chosen isEffective
          (.inr ((isInside_iff_mem formed).mpr (between_subset_ancestors state inLine))))
    | region isEffective sprouts => exact sprouting isEffective sprouts
  · intro contained state member stays
    exact (mem_staying.mp stays).2 (contained state member)

end Step

end Statechart.Chart
