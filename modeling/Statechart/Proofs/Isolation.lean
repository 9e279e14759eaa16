import Statechart.Proofs.Choosing
import Statechart.Proofs.StepValidity

/-!
# Regions side by side

When all domains of a step lie in one region of a parallel state, the step leaves nothing
outside that region.  It enters nothing outside either exactly if each of its moves keeps
to the parallel state: neither its domain nor the parent of a history state that it
restores lies above, and a move that targets its own domain finds no second region beside
it.
-/

namespace Statechart.Chart

/-- What a move with a domain below a parallel state must not do, lest it enter states
outside the region of its domain; the records are those after leaving. -/
structure KeepsTo (chart : Chart) (records : HistoryRecords) (move : Move)
    (parallel : StateId) : Prop where
  domainBelow : chart.effectiveTargets records move.targets ≠ [] →
    chart.isInside parallel (chart.domain records move) = false
  memoryBelow : ∀ target ∈ move.targets, chart.isHistory target = true →
    chart.standsFor records target ≠ [] → ∀ parent, chart.parent? target = some parent →
      chart.isInside parallel parent = false
  aloneAbove : chart.domain records move ∈ chart.effectiveTargets records move.targets →
    ∀ outer, chart.Within parallel outer → chart.isParallel outer = true →
      ∀ first ∈ chart.regions outer, ∀ second ∈ chart.regions outer, first = second

section Region

variable {chart : Chart} (formed : chart.WellFormed)
variable {state effective parallel region : StateId}

include formed

theorem within_region
    (below : chart.parent? region = some parallel)
    (effectiveWithin : chart.Within effective region)
    (above : chart.Within effective state)
    (inside : chart.isInside state parallel = true) :
    chart.Within state region := by
  rcases within_or_inside formed above effectiveWithin with within | around
  · exact within
  · exact within_of_inside_parent formed below (.inr around) inside

theorem sprouts_within
    {before after : StateSet} {line : List StateId}
    (sprouts : chart.Sprouts before after line state)
    (lineWithin : ∀ upper ∈ line, chart.isParallel upper = true → chart.Within upper region) :
    chart.Within state region := by
  obtain ⟨upper, inLine, isParallel, missing, isRegion, _, within, _⟩ := sprouts
  exact within_trans formed within
    (.inr (inside_within_trans formed
      (inside_of_parent formed ((mem_regions formed).mp isRegion).1)
      (lineWithin upper inLine isParallel)))

/-- On the way up to the root from within a region, a missing region lies in that one if
no parallel state from its own upwards has a second region. -/
theorem sprouts_within_of_alone
    {before after : StateSet}
    (isParallel : chart.isParallel parallel = true)
    (isRegion : region ∈ chart.regions parallel)
    (effectiveWithin : chart.Within effective region)
    (alone : ∀ outer, chart.Within parallel outer → chart.isParallel outer = true →
      ∀ first ∈ chart.regions outer, ∀ second ∈ chart.regions outer, first = second)
    (sprouts : chart.Sprouts before after (chart.ancestors effective) state) :
    chart.Within state region := by
  obtain ⟨upper, inLine, upperParallel, missing, isMissing, _, stateWithin, _, apart⟩ :=
    sprouts
  obtain ⟨regionBelow, _⟩ := (mem_regions formed).mp isRegion
  obtain ⟨missingBelow, _⟩ := (mem_regions formed).mp isMissing
  have upperAbove : chart.isInside effective upper = true :=
    (isInside_iff_mem formed).mpr inLine
  have parallelAbove := within_inside_trans formed effectiveWithin
    (inside_of_parent formed regionBelow)
  rcases within_or_inside formed (.inr parallelAbove) (.inr upperAbove) with
    (rfl | around) | inside
  · rw [alone parallel (.inl rfl) isParallel missing isMissing region isRegion] at stateWithin
    exact stateWithin
  · -- The missing region would be the one with the parallel state in it.
    exfalso
    obtain ⟨toward, towardBelow, towardWithin⟩ := child_toward formed around
    have towardRegion : toward ∈ chart.regions upper := by
      refine (mem_regions formed).mpr ⟨towardBelow, ?_⟩
      rcases towardWithin with rfl | deeper
      · exact parent_ordinary formed regionBelow
      · exact outer_ordinary formed deeper
    rw [alone upper (.inr around) upperParallel missing isMissing toward towardRegion] at apart
    exact apart parallel ((isInside_iff_mem formed).mp parallelAbove) isParallel
      (List.ne_nil_of_mem isRegion) towardWithin
  · exact within_trans formed stateWithin
      (.inr (inside_within_trans formed (inside_of_parent formed missingBelow)
        (within_region formed regionBelow effectiveWithin (.inr upperAbove) inside)))

end Region

section Step

variable {chart : Chart} (formed : chart.WellFormed)
variable {active : Configuration} {records : HistoryRecords} {moves : List Move}
variable {parallel region : StateId}

include formed

theorem exits_within
    (domains : ∀ move ∈ moves, move.targets ≠ [] →
      chart.Within (chart.domain records move) region) :
    ∀ state ∈ chart.exits active records moves, chart.Within state region := by
  intro state left
  obtain ⟨_, move, chosen, targeted, inside⟩ := mem_exits.mp left
  exact .inr (inside_within_trans formed inside (domains move chosen targeted))

variable (valid : chart.Valid active) (sound : chart.Sound records)
variable (fits : ∀ move ∈ moves, move.Fits chart active)
variable {entries : StateSet}
variable (planned : chart.Planned (chart.recordedBy active records moves) moves entries)
variable (isRegion : region ∈ chart.regions parallel)
variable (domains : ∀ move ∈ moves, move.targets ≠ [] →
  chart.Within (chart.domain records move) region)

include valid sound fits planned isRegion domains

omit planned isRegion in
theorem effective_within_region
    {move : Move} {effective : StateId}
    (chosen : move ∈ moves)
    (isEffective : effective ∈
      chart.effectiveTargets (chart.recordedBy active records moves) move.targets) :
    chart.Within effective region := by
  obtain ⟨other, otherChosen, targeted, within⟩ :=
    recorded_target_within formed valid sound fits chosen isEffective
  exact within_trans formed within (domains other otherChosen targeted)

omit planned in
/-- The line from a restored state to the parent of its history state lies in the region
if the move keeps to the parallel state. -/
theorem restored_line_within
    {move : Move} {target effective parent upper : StateId}
    (chosen : move ∈ moves)
    (keep : chart.KeepsTo (chart.recordedBy active records moves) move parallel)
    (isTarget : target ∈ move.targets)
    (history : chart.isHistory target = true)
    (above : chart.parent? target = some parent)
    (stands : effective ∈
      chart.standsFor (chart.recordedBy active records moves) target)
    (inLine : upper ∈ chart.between effective parent) :
    chart.Within upper region := by
  obtain ⟨regionBelow, _⟩ := (mem_regions formed).mp isRegion
  have effectiveWithin := effective_within_region formed valid sound fits domains chosen
    ((mem_effectiveTargets formed).mpr ⟨_, isTarget, stands⟩)
  have recordedSound := recordedBy_sound formed valid.ordinary sound moves
  have inside := (standsFor_history formed recordedSound history stands).2 parent above
  obtain ⟨upperAbove, upperInside⟩ := (mem_between formed inside).mp inLine
  have parentWithin : chart.Within parent parallel :=
    within_of_not_around formed (.inr inside)
      (.inr (within_inside_trans formed effectiveWithin
        (inside_of_parent formed regionBelow)))
      (keep.memoryBelow target isTarget history (List.ne_nil_of_mem stands) parent above)
  exact within_region formed regionBelow effectiveWithin (.inr upperAbove)
    (inside_within_trans formed upperInside parentWithin)

omit planned in
/-- An effective target lies within the domain, and that within the parallel state if the
move keeps to it. -/
theorem recorded_domain_within
    {move : Move} {effective : StateId}
    (chosen : move ∈ moves)
    (keep : chart.KeepsTo (chart.recordedBy active records moves) move parallel)
    (isEffective : effective ∈
      chart.effectiveTargets (chart.recordedBy active records moves) move.targets) :
    chart.Within effective (chart.domain (chart.recordedBy active records moves) move) ∧
      chart.Within (chart.domain (chart.recordedBy active records moves) move)
        parallel := by
  obtain ⟨regionBelow, _⟩ := (mem_regions formed).mp isRegion
  have fit := fits move chosen
  have effectiveWithin := target_within_domain formed
    (valid.inRange _ fit.sourceActive)
    (recordedBy_sound formed valid.ordinary sound moves) fit.targetsInRange effective
    isEffective
  refine ⟨effectiveWithin, ?_⟩
  exact within_of_not_around formed effectiveWithin
    (.inr (within_inside_trans formed
      (effective_within_region formed valid sound fits domains chosen isEffective)
      (inside_of_parent formed regionBelow)))
    (keep.domainBelow (List.ne_nil_of_mem isEffective))

theorem entries_within_of_keepsTo
    (isParallel : chart.isParallel parallel = true)
    (keeps : ∀ move ∈ moves, move.targets ≠ [] →
      chart.KeepsTo (chart.recordedBy active records moves) move parallel) :
    ∀ state ∈ entries, chart.Within state region := by
  intro state member
  obtain ⟨regionBelow, _⟩ := (mem_regions formed).mp isRegion
  obtain ⟨move, chosen, targeted, enters⟩ := planned.enters state member
  have keep := keeps move chosen targeted
  have within : ∀ {effective : StateId}, effective ∈ chart.effectiveTargets
      (chart.recordedBy active records moves) move.targets →
      chart.Within effective region := fun isEffective =>
    effective_within_region formed valid sound fits domains chosen isEffective
  have domainWithin : ∀ {effective : StateId}, effective ∈ chart.effectiveTargets
      (chart.recordedBy active records moves) move.targets → _ := fun isEffective =>
    recorded_domain_within formed valid sound fits isRegion domains chosen keep isEffective
  cases enters with
  | below isTarget stands stateWithin =>
      exact within_trans formed stateWithin
        (within ((mem_effectiveTargets formed).mpr ⟨_, isTarget, stands⟩))
  | restoredLine isTarget history above stands inLine =>
      exact restored_line_within formed valid sound fits isRegion domains chosen keep
        isTarget history above stands inLine
  | restoredRegion isTarget history above stands sprouts =>
      exact sprouts_within formed sprouts fun upper inLine _ =>
        restored_line_within formed valid sound fits isRegion domains chosen keep
          isTarget history above stands inLine
  | line isEffective inLine inside =>
      exact within_region formed regionBelow (within isEffective)
        (.inr ((isInside_iff_mem formed).mpr (between_subset_ancestors state inLine)))
        (inside_within_trans formed inside (domainWithin isEffective).2)
  | @region effective isEffective sprouts =>
      obtain ⟨effectiveBelow, domainBelow⟩ := domainWithin isEffective
      rcases effectiveBelow with same | inside
      · -- The domain itself is targeted: the line upwards does not end at the domain.
        rw [same, between_of_not_inside formed (not_inside_self formed), ← same] at sprouts
        exact sprouts_within_of_alone formed isParallel isRegion (within isEffective)
          (keep.aloneAbove (same ▸ isEffective)) sprouts
      · refine sprouts_within formed sprouts fun upper inLine _ => ?_
        obtain ⟨upperAbove, upperInside⟩ := (mem_between formed inside).mp inLine
        exact within_region formed regionBelow (within isEffective) (.inr upperAbove)
          (inside_within_trans formed upperInside domainBelow)

/-- A step that enters nothing outside the region has moves that keep to the parallel
state. -/
theorem keepsTo_of_entries_within
    (inside : ∀ state ∈ entries, chart.Within state region) :
    ∀ move ∈ moves, move.targets ≠ [] →
      chart.KeepsTo (chart.recordedBy active records moves) move parallel := by
  intro move chosen targeted
  obtain ⟨regionBelow, _⟩ := (mem_regions formed).mp isRegion
  have regionInside := inside_of_parent formed regionBelow
  have reaches := planned.reaches move chosen targeted
  have within : ∀ {effective : StateId}, effective ∈ chart.effectiveTargets
      (chart.recordedBy active records moves) move.targets →
      chart.Within effective region := fun isEffective =>
    effective_within_region formed valid sound fits domains chosen isEffective
  have parallelOutside : parallel ∉ entries := by
    intro member
    have looped := within_inside_trans formed (inside parallel member) regionInside
    rw [not_inside_self formed] at looped
    cases looped
  constructor
  · intro someEffective
    obtain ⟨effective, isEffective⟩ := List.exists_mem_of_ne_nil _ someEffective
    cases around : chart.isInside parallel
        (chart.domain (chart.recordedBy active records moves) move) with
    | false => rfl
    | true =>
        have above := within_inside_trans formed (within isEffective) regionInside
        have inLine := (mem_between formed (inside_trans formed above around)).mpr
          ⟨above, around⟩
        exact absurd (reaches.climbed effective isEffective parallel inLine around)
          parallelOutside
  · intro target isTarget history standsForSome parent parentAbove
    obtain ⟨effective, stands⟩ := List.exists_mem_of_ne_nil _ standsForSome
    cases around : chart.isInside parallel parent with
    | false => rfl
    | true =>
        have isEffective := (mem_effectiveTargets formed).mpr ⟨_, isTarget, stands⟩
        have above := within_inside_trans formed (within isEffective) regionInside
        have inLine := (mem_between formed (inside_trans formed above around)).mpr
          ⟨above, around⟩
        exact absurd ((reaches.restored target isTarget history effective stands).2
          parent parentAbove parallel inLine) parallelOutside
  · intro isEffective outer parallelWithin isParallel first isFirst second isSecond
    have domainInside : chart.isInside
        (chart.domain (chart.recordedBy active records moves) move) outer = true :=
      inside_within_trans formed
        (within_inside_trans formed (within isEffective) regionInside) parallelWithin
    have inLine : outer ∈ chart.between
        (chart.domain (chart.recordedBy active records moves) move)
        (chart.domain (chart.recordedBy active records moves) move) := by
      rw [between_of_not_inside formed (not_inside_self formed)]
      exact (isInside_iff_mem formed).mp domainInside
    have covered := reaches.covered _ isEffective outer inLine isParallel
    obtain ⟨toward, towardBelow, towardWithin⟩ :=
      child_toward formed (inside_within_trans formed regionInside parallelWithin)
    have same : ∀ other ∈ chart.regions outer, other = toward := by
      intro other isOther
      obtain ⟨below, member, belowWithin⟩ := covered other isOther
      exact child_toward_unique formed ((mem_regions formed).mp isOther).1 towardBelow
        belowWithin (within_trans formed (inside below member) towardWithin)
    rw [same first isFirst, same second isSecond]

/-- A step with all domains in one region enters nothing outside the region exactly if
its moves keep to the parallel state. -/
theorem entries_within_iff_keepsTo
    (isParallel : chart.isParallel parallel = true) :
    (∀ state ∈ entries, chart.Within state region) ↔
      ∀ move ∈ moves, move.targets ≠ [] →
        chart.KeepsTo (chart.recordedBy active records moves) move parallel := by
  constructor
  · exact keepsTo_of_entries_within formed valid sound fits planned isRegion domains
  · exact entries_within_of_keepsTo formed valid sound fits planned isRegion domains
      isParallel

omit valid sound fits planned isRegion in
theorem active_outside
    (inside : ∀ state ∈ entries, chart.Within state region)
    {state : StateId}
    (outside : ¬ chart.Within state region) :
    state ∈ chart.succeeding active records moves entries ↔ state ∈ active := by
  rw [mem_succeeding, mem_staying]
  constructor
  · rintro (entered | ⟨isActive, _⟩)
    · exact absurd (inside state entered) outside
    · exact isActive
  · intro isActive
    right
    refine ⟨isActive, ?_⟩
    rintro ⟨move, chosen, targeted, below⟩
    exact outside (.inr (inside_within_trans formed below (domains move chosen targeted)))

end Step

end Statechart.Chart

namespace Statechart.Machine

variable {L : Type} {spec : MachineSpec L} {machine : Machine L}
variable {active : Configuration} {history : HistoryRecords} {context : Json}

/-- What is foretold of a step that takes up a selection and enters these states. -/
def foretold (machine : Machine L) (active : Configuration) (history : HistoryRecords)
    (selection : Selection L) (entries : StateSet) : Resolution L :=
  let moves := selection.chosen.map Choice.move
  { chosen := selection.chosen
    exits := machine.chart.exits active history moves
    entries
    active := machine.chart.succeeding active history moves entries
    history := machine.chart.recordedBy active history moves
    actions := machine.stepActions (machine.chart.exits active history moves)
      selection.chosen entries
    conflicts := selection.conflicts }

/-- A step can be foretold exactly if its transitions can be selected and planning what it
enters has an answer. -/
theorem resolve_ok_iff
    {event : Event} {resolution : Resolution L} :
    machine.resolve active history context event = .ok resolution ↔
      ∃ selection entries,
        machine.select .event active history context event = .ok selection ∧
        machine.chart.entries?
          (machine.chart.recordedBy active history (selection.chosen.map Choice.move))
          (selection.chosen.map Choice.move) = some entries ∧
        resolution = machine.foretold active history selection entries := by
  unfold resolve
  cases selected : machine.select .event active history context event with
  | error reason => simp
  | ok selection =>
      have recorded : machine.chart.recordedBy active history
          (selection.chosen.map Choice.move) =
            machine.chart.recordHistory active history
              (machine.chart.exits active history (selection.chosen.map Choice.move)) := rfl
      cases planned : machine.chart.entries?
          (machine.chart.recordHistory active history
            (machine.chart.exits active history (selection.chosen.map Choice.move)))
          (selection.chosen.map Choice.move) with
      | none => simp [recorded, planned]
      | some entries =>
          simp only [Except.ok.injEq, exists_and_left, exists_eq_left', recorded, planned,
            Option.some.injEq]
          exact eq_comm

/-- A step cannot be foretold because of a guard exactly if that guard fails the selection. -/
theorem resolve_guard_iff
    {event : Event} {reason : GuardError} :
    machine.resolve active history context event = .error (.guard reason) ↔
      machine.select .event active history context event = .error reason := by
  unfold resolve
  cases machine.select .event active history context event with
  | error other => simp
  | ok selection =>
      dsimp only
      split <;> simp

/-- A step cannot be foretold for want of an end exactly if planning what the selected
transitions enter has no answer. -/
theorem resolve_endless_iff
    {event : Event} :
    machine.resolve active history context event = .error .endlessEntry ↔
      ∃ selection, machine.select .event active history context event = .ok selection ∧
        machine.chart.entries?
          (machine.chart.recordedBy active history (selection.chosen.map Choice.move))
          (selection.chosen.map Choice.move) = none := by
  unfold resolve
  cases machine.select .event active history context event with
  | error other => simp
  | ok selection =>
      simp only [Except.ok.injEq, exists_eq_left', Chart.recordedBy]
      split
      · rename_i unplanned
        simp only [unplanned]
      · rename_i entries planned
        simp [planned]

/-- With sound records a step can be foretold whenever its transitions can be selected. -/
theorem resolve_of_select
    {event : Event} {selection : Selection L}
    (formed : machine.chart.WellFormed)
    (ordinary : ∀ state ∈ active, machine.chart.isHistory state = false)
    (sound : machine.chart.Sound history)
    (selected : machine.select .event active history context event = .ok selection) :
    ∃ entries, machine.chart.Planned
        (machine.chart.recordedBy active history (selection.chosen.map Choice.move))
        (selection.chosen.map Choice.move) entries ∧
      machine.resolve active history context event =
        .ok (machine.foretold active history selection entries) := by
  have recordedSound := Chart.recordedBy_sound formed ordinary sound
    (selection.chosen.map Choice.move)
  obtain ⟨entries, planned⟩ :=
    Chart.entries_end formed recordedSound (selection.chosen.map Choice.move)
  exact ⟨entries, Chart.entries_planned formed recordedSound planned,
    resolve_ok_iff.mpr ⟨selection, entries, selected, planned, rfl⟩⟩

/-- Orthogonal regions are isolated as far as the moves keep to their parallel state.  With
sound records, and steps leave no others, when all domains lie in one region: everything
left lies in that region; everything entered does exactly if each move with targets keeps
to the parallel state; and then all states outside the region are as active as before. -/
theorem resolve_isolated_iff
    (built : spec.build = .ok machine)
    (ordinaryRoot : spec.HasOrdinaryRoot)
    (valid : machine.chart.check active = none)
    (sound : machine.chart.Sound history)
    {event : Event} {selection : Selection L}
    (selected : machine.select .event active history context event = .ok selection)
    {parallel region : StateId}
    (isParallel : machine.chart.isParallel parallel = true)
    (isRegion : region ∈ machine.chart.regions parallel)
    (domains : ∀ choice ∈ selection.chosen, choice.candidate.targets ≠ [] →
      machine.chart.Within (machine.chart.domain history choice.move) region) :
    ∃ resolution, machine.resolve active history context event = .ok resolution ∧
      resolution.chosen = selection.chosen ∧
      resolution.actions =
        machine.stepActions resolution.exits resolution.chosen resolution.entries ∧
      (∀ state ∈ resolution.exits, machine.chart.Within state region) ∧
      ((∀ state ∈ resolution.entries, machine.chart.Within state region) ↔
        ∀ choice ∈ selection.chosen, choice.candidate.targets ≠ [] →
          machine.chart.KeepsTo resolution.history choice.move parallel) ∧
      ((∀ choice ∈ selection.chosen, choice.candidate.targets ≠ [] →
          machine.chart.KeepsTo resolution.history choice.move parallel) →
        ∀ state, ¬ machine.chart.Within state region →
          (state ∈ resolution.active ↔ state ∈ active)) := by
  have formed := MachineSpec.build_wellFormed built ordinaryRoot
  have isValid := (Chart.check_eq_none_iff formed).mp valid
  have fits := select_fits formed (MachineSpec.build_leadWithin built ordinaryRoot)
    isValid selected
  have moveDomains : ∀ move ∈ selection.chosen.map Choice.move, move.targets ≠ [] →
      machine.chart.Within (machine.chart.domain history move) region := by
    intro move member targeted
    obtain ⟨choice, chosen, rfl⟩ := List.mem_map.mp member
    exact domains choice chosen targeted
  obtain ⟨entries, planned, resolved⟩ :=
    resolve_of_select formed isValid.ordinary sound selected
  have keeps : (∀ state ∈ entries, machine.chart.Within state region) ↔
      ∀ choice ∈ selection.chosen, choice.candidate.targets ≠ [] →
        machine.chart.KeepsTo (machine.chart.recordedBy active history
          (selection.chosen.map Choice.move)) choice.move parallel := by
    rw [Chart.entries_within_iff_keepsTo formed isValid sound fits planned isRegion
      moveDomains isParallel]
    simp only [List.forall_mem_map]
    rfl
  refine ⟨_, resolved, rfl, rfl, ?_, keeps, ?_⟩
  · exact Chart.exits_within formed moveDomains
  · intro kept state outside
    exact Chart.active_outside formed moveDomains (keeps.mpr kept) outside

/-- Told to play, the player enters nothing outside its playback and keeps its volume. -/
theorem resolve_isolated_player :
    let machine : Machine Unit := MachineSpec.player.machine fun _ => .null
    ∃ resolution,
      machine.resolve [0, 1, 2, 4, 5] [] .null (Event.named "PLAY") = .ok resolution ∧
      (∀ state ∈ resolution.entries, machine.chart.Within state 1) ∧
      5 ∈ resolution.active := by
  intro machine
  have built : MachineSpec.player.build = .ok machine :=
    MachineSpec.build_of_faultless (by decide +kernel) rfl
  have selected : machine.select .event [0, 1, 2, 4, 5] [] .null (Event.named "PLAY") =
      .ok { chosen := [{ ref := ⟨2, 0, 0⟩, candidate := ⟨none, [3], [], false⟩ }]
            conflicts := [] } := rfl
  obtain ⟨resolution, resolved, chosen, _, _, entered, outside⟩ :=
    resolve_isolated_iff built (.inr rfl) (by decide +kernel) (Chart.sound_empty _) selected
      (show machine.chart.isParallel 0 = true by decide +kernel)
      (show 1 ∈ machine.chart.regions 0 by decide +kernel) (by decide +kernel)
  have keeps : ∀ choice ∈ resolution.chosen, choice.candidate.targets ≠ [] →
      machine.chart.KeepsTo resolution.history choice.move 0 := by
    intro choice member _
    rw [chosen] at member
    obtain rfl : choice = _ := List.mem_singleton.mp member
    have domain : machine.chart.domain resolution.history ⟨2, [3], false⟩ = 1 := rfl
    constructor
    · intro _
      exact domain ▸ (by decide +kernel : machine.chart.isInside 0 1 = false)
    · intro target isTarget history
      obtain rfl : target = 3 := List.mem_singleton.mp isTarget
      exact absurd history (by decide +kernel)
    · intro isDomain
      exact absurd (domain ▸ isDomain) (by decide +kernel : 1 ∉ [3])
  rw [chosen] at keeps
  exact ⟨resolution, resolved, entered.mpr keeps,
    (outside keeps 5 (by decide +kernel)).mpr (by decide +kernel)⟩

/-- A move that targets its own region enters the region beside it, although that is
active and its own domain lies in the first. -/
theorem resolve_not_isolated_mirror :
    let machine : Machine Unit := MachineSpec.mirror.machine fun _ => .null
    MachineSpec.mirror.build = .ok machine ∧
    machine.chart.check [0, 1, 2, 4] = none ∧ machine.chart.isParallel 0 = true ∧
    1 ∈ machine.chart.regions 0 ∧
    ∃ resolution,
      machine.resolve [0, 1, 2, 4] [] .null (Event.named "E") = .ok resolution ∧
      (∀ choice ∈ resolution.chosen,
        machine.chart.Within (machine.chart.domain [] choice.move) 1) ∧
      resolution.entries = [2, 4] ∧ ¬ machine.chart.Within 4 1 := by
  intro machine
  exact ⟨MachineSpec.build_of_faultless (by decide +kernel) rfl, by decide +kernel,
    by decide +kernel, by decide +kernel, _, rfl, by decide +kernel, rfl, by decide +kernel⟩

end Statechart.Machine
