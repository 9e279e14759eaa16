import Statechart.Proofs.Isolation
import Statechart.Proofs.Moving
import Statechart.Proofs.Targets

/-!
# Domains that are parallel

A move whose domain is a parallel state leaves all its regions, but it enters only the one that
its target lies in: going up from the target fills the regions of the parallel states on the
way, and the way ends below the domain.  So the step is balanced, and leads to a valid
configuration, only if the parallel state has no other region.
-/

namespace Statechart

namespace Chart

section Regions

variable {chart : Chart} (formed : chart.WellFormed)
variable {target outer region : StateId}

include formed

theorem grown_child_iff
    (below : chart.parent? region = some outer) :
    chart.Grown (chart.Lineage [target] outer) region ↔ chart.Within target region := by
  have inside := inside_of_parent formed below
  have outerFree : ¬ chart.Grown (chart.Lineage [target] outer) outer := fun grown =>
    ne_of_inside formed (grown.inside_of_lineage formed) rfl
  constructor
  · intro grown
    cases grown with
    | seed isSeed =>
        obtain ⟨_, member, isMember, within⟩ := isSeed
        exact List.mem_singleton.mp isMember ▸ within
    | region grown _ isRegion =>
        obtain rfl := Option.some.inj (below.symm.trans ((mem_regions formed).mp isRegion).1)
        exact absurd grown outerFree
    | initial grown kind _ =>
        obtain rfl := Option.some.inj
          (below.symm.trans ((mem_regions formed).mp (formed.initialBelow kind)).1)
        exact absurd grown outerFree
  · exact fun within => .seed ⟨inside, target, List.mem_singleton_self target, within⟩

theorem regions_length_eq_one_iff
    (ordinary : chart.isHistory target = false)
    (inside : chart.isInside target outer = true) :
    (chart.regions outer).length = 1 ↔
      ∀ region ∈ chart.regions outer, chart.Within target region := by
  obtain ⟨child, below, within⟩ := child_toward formed inside
  have isRegion : child ∈ chart.regions outer := by
    refine (mem_regions formed).mpr ⟨below, ?_⟩
    rcases within with rfl | deeper
    · exact ordinary
    · exact outer_ordinary formed deeper
  constructor
  · intro single region member
    obtain ⟨only, same⟩ := List.length_eq_one_iff.mp single
    rw [same, List.mem_singleton] at isRegion member
    rw [member, ← isRegion]
    exact within
  · intro everywhere
    have all : ∀ region ∈ chart.regions outer, region = child := fun region member =>
      child_toward_unique formed ((mem_regions formed).mp member).1 below
        (everywhere region member) within
    have replicated := List.eq_replicate_of_mem all
    have nodup := regions_nodup formed outer
    rw [replicated, List.nodup_replicate] at nodup
    exact Nat.le_antisymm nodup (List.length_pos_of_mem isRegion)

end Regions

section Step

variable {chart : Chart} (formed : chart.WellFormed)
variable {active : Configuration} {records : HistoryRecords} {move : Move}
variable {target outer : StateId} {entries : StateSet}
variable (valid : chart.Valid active) (fits : move.Fits chart active)
variable (only : move.targets = [target]) (ordinary : chart.isHistory target = false)
variable (isDomain : chart.domain records move = outer)
variable (inside : chart.isInside target outer = true)
variable (planned : chart.planMove (chart.recordedBy active records [move]) move [] =
  some entries)

include formed only ordinary isDomain inside planned

/-- What the move enters grows from its target below the domain. -/
theorem mem_entries_of_single
    (state : StateId) :
    state ∈ entries ↔ chart.Grown (chart.Lineage [target] outer) state := by
  have sameDomain : chart.domain (chart.recordedBy active records [move]) move = outer := by
    rw [← isDomain]
    exact domain_of_ordinary formed (by simpa [only]) _ _
  rw [planMove_single formed only ordinary sameDomain inside (by simp [Covers]) planned,
    or_iff_right List.not_mem_nil]

theorem mem_succeeding_of_single
    (state : StateId) :
    state ∈ chart.succeeding active records [move] entries ↔
      chart.Grown (chart.Lineage [target] outer) state ∨
        state ∈ active ∧ chart.isInside state outer = false := by
  rw [mem_succeeding, mem_staying,
    mem_entries_of_single formed only ordinary isDomain inside planned]
  simp [BelowDomain, only, isDomain]

include valid fits

/-- The step of a move with a parallel domain leads to a valid configuration exactly if the
domain has one region. -/
theorem valid_of_single_iff
    (isParallel : chart.isParallel outer = true) :
    chart.Valid (chart.succeeding active records [move] entries) ↔
      (chart.regions outer).length = 1 := by
  have outerActive : outer ∈ active := by
    rw [← isDomain]
    exact domain_active_of_ordinary formed (by simpa [only]) valid fits
  have after := mem_succeeding_of_single formed only ordinary isDomain inside planned
  rw [regions_length_eq_one_iff formed ordinary inside]
  constructor
  · intro validAfter region isRegion
    have stays : outer ∈ chart.succeeding active records [move] entries :=
      (after outer).mpr (.inr ⟨outerActive, not_inside_self formed⟩)
    rcases (after region).mp (validAfter.regionsActive outer stays isParallel region isRegion) with
      grown | ⟨_, outside⟩
    · exact (grown_child_iff formed ((mem_regions formed).mp isRegion).1).mp grown
    · rw [inside_of_region formed isRegion] at outside
      cases outside
  · intro everywhere
    have regrown : chart.Regrown active (chart.succeeding active records [move] entries) [move]
        (fun _ => outer) fun _ => chart.Rooted [target] outer := by
      constructor
      · exact fun _ _ => (upright_singleton formed ordinary inside).coherent.stem formed
          (by simpa using ordinary) (valid.ordinary outer outerActive)
      · exact fun _ _ => outerActive
      · simp [not_inside_self formed]
      · intro _ _ state stateInside
        rw [after, grown_rooted_iff formed (List.mem_singleton_self target) inside
          (fun _ region isRegion => ⟨target, by simp, everywhere region isRegion⟩),
          or_iff_right (ne_of_inside formed stateInside)]
        simp [stateInside]
      · intro state outside
        have clear : chart.isInside state outer = false := by simpa using outside
        rw [after, and_iff_left clear]
        refine or_iff_right fun grown => ?_
        rw [grown.inside_of_lineage formed] at clear
        cases clear
    exact regrown.valid formed valid

end Step

end Chart

namespace MachineSpec

variable {L : Type} {spec : MachineSpec L} {machine : Machine L}

/-- Which regions of a parallel domain are entered again.  In a built machine, take an event on
which just one transition is selected, which leads to one ordinary state strictly inside its
domain, a parallel state.  Whatever is recorded, the step is foretold.  It leaves all regions of
the domain and enters just the one that the target lies in, and that one alone is active
afterwards.  So exits and entries are balanced exactly if the domain has no other region, and
exactly then the step leads to a valid configuration. -/
theorem parallel_exits_balanced_iff
    (built : spec.build = .ok machine)
    (ordinaryRoot : spec.HasOrdinaryRoot)
    {active : Configuration} {history : HistoryRecords}
    (valid : machine.chart.check active = none)
    {context : Json} {event : Event} {selection : Selection L} {choice : Choice L}
    (selected : machine.select .event active history context event = .ok selection)
    (single : selection.chosen = [choice])
    {target outer : StateId}
    (only : choice.candidate.targets = [target])
    (ordinary : machine.chart.isHistory target = false)
    (isDomain : machine.chart.domain history choice.move = outer)
    (isParallel : machine.chart.isParallel outer = true)
    (inside : machine.chart.isInside target outer = true) :
    ∃ resolution, machine.resolve active history context event = .ok resolution ∧
      (∀ region ∈ machine.chart.regions outer, region ∈ resolution.exits ∧
        (region ∈ resolution.entries ↔ machine.chart.Within target region) ∧
        (region ∈ resolution.active ↔ machine.chart.Within target region)) ∧
      ((∀ region ∈ machine.chart.regions outer, region ∈ resolution.entries) ↔
        (machine.chart.regions outer).length = 1) ∧
      (machine.chart.check resolution.active = none ↔
        (machine.chart.regions outer).length = 1) := by
  have formed := build_machine_wellFormed built ordinaryRoot
  have isValid := (Chart.check_eq_none_iff formed.chart).mp valid
  have moves : selection.chosen.map Choice.move = [choice.move] := by simp [single]
  have fits := Machine.select_fits formed.chart formed.lead isValid selected choice.move
    (by simp [moves])
  have moving : choice.move.targets = [target] := only
  have ordinaryMove : ∀ one ∈ choice.move.targets, machine.chart.isHistory one = false := by
    simpa [moving]
  have outerActive : outer ∈ active := by
    rw [← isDomain]
    exact Chart.domain_active_of_ordinary formed.chart ordinaryMove isValid fits
  obtain ⟨entries, planned⟩ := Chart.planMove_ends_of_ordinary formed.chart ordinaryMove
    (machine.chart.recordedBy active history [choice.move]) []
  have entered := Chart.mem_entries_of_single formed.chart moving ordinary isDomain inside planned
  have regionEntered : ∀ region ∈ machine.chart.regions outer,
      (region ∈ entries ↔ machine.chart.Within target region) := fun region isRegion => by
    rw [entered, Chart.grown_child_iff formed.chart
      ((Chart.mem_regions formed.chart).mp isRegion).1]
  refine ⟨machine.foretold active history selection entries, Machine.resolve_ok_iff.mpr
    ⟨selection, entries, selected, by simp [moves, Chart.entries?, planned], rfl⟩, ?_, ?_, ?_⟩
  · intro region isRegion
    refine ⟨?_, regionEntered region isRegion, ?_⟩
    · rw [Machine.foretold, moves]
      refine Chart.mem_exits.mpr ⟨isValid.regionsActive outer outerActive isParallel region
        isRegion, choice.move, List.mem_cons_self, by simp [moving], ?_⟩
      rw [isDomain]
      exact Chart.inside_of_region formed.chart isRegion
    · rw [Machine.foretold, moves]
      refine (Chart.mem_succeeding_of_single formed.chart moving ordinary isDomain inside planned
        region).trans ?_
      rw [← entered, regionEntered region isRegion]
      simp [Chart.inside_of_region formed.chart isRegion]
  · rw [Chart.regions_length_eq_one_iff formed.chart ordinary inside]
    exact forall₂_congr regionEntered
  · rw [Chart.check_eq_none_iff formed.chart, Machine.foretold, moves]
    exact Chart.valid_of_single_iff formed.chart isValid fits moving ordinary isDomain inside
      planned isParallel

/-- A parallel state that leads to a state below one of its two regions. -/
def seesaw : MachineSpec L :=
  { root := .mk { key := "m" }
      [.mk { key := "p", kind := .parallel, transitions := [(.on "TIP", .toTarget ".left.down")] }
          [.mk { key := "left" } [.mk { key := "up" } [], .mk { key := "down" } []],
           .mk { key := "right" } []]]
    context := some fun _ => .null }

/-- The seesaw goes on with its left side alone. -/
theorem parallel_exits_balanced_iff_seesaw :
    let machine : Machine Unit := seesaw.machine fun _ => .null
    ∃ resolution,
      machine.resolve [0, 1, 2, 3, 5] [] .null (Event.named "TIP") = .ok resolution ∧
      2 ∈ resolution.active ∧ 5 ∉ resolution.active ∧
      machine.chart.check resolution.active ≠ none := by
  intro machine
  have built : seesaw.build = .ok machine := build_of_faultless (by decide +kernel) rfl
  obtain ⟨selection, selected, chosen⟩ := Machine.select_of_moves
    (show (machine.select .event [0, 1, 2, 3, 5] [] .null (Event.named "TIP")).map _ =
      .ok [⟨1, [4], false⟩] by decide +kernel)
  obtain ⟨choice, single, moves⟩ := List.map_eq_singleton_iff.mp chosen
  obtain ⟨resolution, foretold, regions, _, balanced⟩ := parallel_exits_balanced_iff built
    (.inl rfl) (by decide +kernel) selected single (congrArg Move.targets moves)
    (by decide +kernel) (show machine.chart.domain [] choice.move = 1 by
      rw [moves]
      decide +kernel) (by decide +kernel) (by decide +kernel)
  refine ⟨resolution, foretold, ?_, ?_, ?_⟩
  · exact (regions 2 (by decide +kernel)).2.2.mpr (by decide +kernel)
  · exact fun entered =>
      absurd ((regions 5 (by decide +kernel)).2.2.mp entered) (by decide +kernel)
  · rw [ne_eq, balanced]
    decide +kernel

/-- Tipping the seesaw leaves both of its sides and enters only the left one. -/
theorem parallel_exits_not_balanced_seesaw :
    let machine : Machine Unit := seesaw.machine fun _ => .null
    seesaw.build = .ok machine ∧ machine.chart.check [0, 1, 2, 3, 5] = none ∧
      (machine.select .event [0, 1, 2, 3, 5] [] .null (Event.named "TIP")).map (fun selection =>
        selection.chosen.map Choice.move) = .ok [⟨1, [4], false⟩] ∧
      machine.chart.isHistory 4 = false ∧ machine.chart.domain [] ⟨1, [4], false⟩ = 1 ∧
      machine.chart.isParallel 1 = true ∧ machine.chart.isInside 4 1 = true ∧
      machine.chart.regions 1 = [2, 5] ∧
      (machine.resolve [0, 1, 2, 3, 5] [] .null (Event.named "TIP")).map (fun resolution =>
        (resolution.exits, resolution.entries, resolution.active)) =
          .ok ([5, 3, 2], [2, 4], [0, 1, 2, 4]) := by
  intro machine
  exact ⟨build_of_faultless (by decide +kernel) rfl, by decide +kernel, by decide +kernel,
    by decide +kernel, by decide +kernel, by decide +kernel, by decide +kernel, by decide +kernel,
    by decide +kernel⟩

end MachineSpec

end Statechart
