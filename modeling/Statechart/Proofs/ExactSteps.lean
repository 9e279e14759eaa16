import Statechart.Proofs.Isolation
import Statechart.Proofs.Moving
import Statechart.Proofs.RestoredHistory
import Statechart.Proofs.Targets

/-!
# What a step leads to, exactly

When each of the transitions that a step takes leads to one state strictly inside a domain that
is not parallel, the domains lie apart, and the step does in each of them just what its own
transition asks for: what is active there afterwards grows from what the target stands for,
and elsewhere nothing changes.  Neither the order of the transitions nor that of planning
plays a part.
-/

namespace Statechart

/-- The move leads to just this state, not to itself as its domain, nor to a history state of
an active parent, and its domain is not parallel. -/
structure Move.Directed (move : Move) (chart : Chart) (active : Configuration)
    (records : HistoryRecords) (target : StateId) : Prop where
  only : move.targets = [target]
  dormant : chart.isHistory target = true → ∀ parent, chart.parent? target = some parent →
    parent ∉ active
  sequential : chart.isParallel (chart.domain records move) = false
  proper : target ≠ chart.domain records move

namespace Chart

/-- All that the targets of a move stand for. -/
def leads (chart : Chart) (records : HistoryRecords) (move : Move) : List StateId :=
  move.targets.flatMap (chart.standsFor records)

/-- No state lies inside the domains of both moves. -/
def Detached (chart : Chart) (records : HistoryRecords) (first second : Move) : Prop :=
  ∀ state, chart.isInside state (chart.domain records first) = true →
    chart.isInside state (chart.domain records second) = false

theorem Detached.symm
    {chart : Chart} {records : HistoryRecords} {first second : Move}
    (detached : chart.Detached records first second) :
    chart.Detached records second first := by
  intro state insideSecond
  cases insideFirst : chart.isInside state (chart.domain records first) with
  | false => rfl
  | true =>
      rw [detached state insideFirst] at insideSecond
      cases insideSecond

instance (chart : Chart) (records : HistoryRecords) : Std.Symm (chart.Detached records) :=
  ⟨fun _ _ => Detached.symm⟩

section Directed

variable {chart : Chart} {active : Configuration} {records : HistoryRecords} {move : Move}
variable {target : StateId}

theorem leads_directed
    (directed : move.Directed chart active records target) :
    chart.leads records move = chart.standsFor records target := by
  simp [leads, directed.only]

variable (formed : chart.WellFormed)

include formed

theorem standsFor_recordedBy
    (directed : move.Directed chart active records target)
    (moves : List Move) :
    chart.standsFor (chart.recordedBy active records moves) target =
      chart.standsFor records target := by
  cases kind : chart.kind target with
  | history memory defaults =>
      have history : chart.isHistory target = true := by simp [isHistory, kind]
      obtain ⟨parent, above⟩ := history_has_parent formed history
      have stays : parent ∉ chart.exits active records moves := fun isLeft =>
        directed.dormant history parent above (mem_exits.mp isLeft).1
      simp [standsFor, kind, recordedBy, recordHistory_memory? formed kind above, stays]
  | _ => simp [standsFor, kind]

theorem domain_recordedBy
    (directed : move.Directed chart active records target)
    (moves : List Move) :
    chart.domain (chart.recordedBy active records moves) move = chart.domain records move := by
  refine domain_congr fun state => ?_
  rw [mem_effectiveTargets formed, mem_effectiveTargets formed, directed.only]
  simp only [List.mem_singleton, exists_eq_left, standsFor_recordedBy formed directed moves]

variable (valid : chart.Valid active) (fits : move.Fits chart active)
variable (regioned : chart.Regioned) (defaulted : chart.Defaulted)
variable (recorded : chart.Recorded records)
variable (directed : move.Directed chart active records target)

include valid fits regioned defaulted recorded directed

/-- What a directed move leads to is upright in its domain, and a history state that it leads
to lies there too. -/
theorem upright_directed :
    chart.Upright (chart.standsFor records target) (chart.domain records move) ∧
      (chart.isHistory target = true → ∀ parent, chart.parent? target = some parent →
        chart.isInside parent (chart.domain records move) = true) := by
  have sound := recorded.sound formed
  have effective : ∀ state ∈ chart.standsFor records target,
      state ∈ chart.effectiveTargets records move.targets := fun state stands =>
    (mem_effectiveTargets formed).mpr ⟨target, by simp [directed.only], stands⟩
  cases history : chart.isHistory target with
  | false =>
      have itself : chart.standsFor records target = [target] := standsFor_ordinary history
      have within := target_within_domain formed (valid.inRange _ fits.sourceActive) sound
        fits.targetsInRange target (effective target (by simp [itself]))
      rw [itself]
      exact ⟨upright_singleton formed history (within.resolve_left directed.proper), by simp⟩
  | true =>
      obtain ⟨parent, above⟩ := history_has_parent formed history
      have upright := recorded.upright formed regioned defaulted history above
      obtain ⟨state, stands⟩ := List.exists_mem_of_ne_nil _ upright.nonempty
      have inside := inactive_inside_domain formed valid sound fits
        (directed.dormant history parent above) (effective state stands)
        (upright.inside state stands)
      refine ⟨upright.inside_of formed inside, fun _ other otherAbove => ?_⟩
      obtain rfl := Option.some.inj (above.symm.trans otherAbove)
      exact inside

theorem domain_compound : chart.isCompound (chart.domain records move) = true := by
  obtain ⟨upright, _⟩ :=
    upright_directed formed valid fits regioned defaulted recorded directed
  obtain ⟨state, stands⟩ := List.exists_mem_of_ne_nil _ upright.nonempty
  obtain ⟨child, below, _⟩ := child_toward formed (upright.inside state stands)
  rcases parent_kind formed below with ⟨initial, kind⟩ | kind
  · simp [isCompound, kind]
  · have parallel := directed.sequential
    simp [isParallel, kind] at parallel

/-- What a directed move adds to a plan that holds nothing in its domain grows from what it
leads to. -/
theorem planMove_directed
    {moves : List Move} {before after : StateSet}
    (vacant : ∀ region, chart.isInside region (chart.domain records move) = true →
      ¬ chart.Covers before region)
    (planned : chart.planMove (chart.recordedBy active records moves) move before = some after)
    (added : StateId) :
    added ∈ after ↔ added ∈ before ∨
      chart.Grown (chart.Lineage (chart.leads records move) (chart.domain records move))
        added := by
  obtain ⟨upright, around⟩ :=
    upright_directed formed valid fits regioned defaulted recorded directed
  have isDomain := domain_recordedBy formed directed moves
  have stands := standsFor_recordedBy formed directed moves
  rw [leads_directed directed]
  cases history : chart.isHistory target with
  | false =>
      have itself : chart.standsFor records target = [target] := standsFor_ordinary history
      rw [planMove_single formed directed.only history isDomain
        (upright.inside target (by simp [itself])) vacant planned, itself]
  | true =>
      obtain ⟨parent, above⟩ := history_has_parent formed history
      have sound := recordedBy_sound formed valid.ordinary (recorded.sound formed) moves
      rw [planMove_memory formed sound history above directed.only isDomain
        (around history parent above) vacant planned, stands,
        planted_or_climbed_iff_grown formed upright.apart upright.inside (by simp)]

end Directed

section Steps

variable {chart : Chart} (formed : chart.WellFormed)
variable {active : Configuration} {records : HistoryRecords} {moves : List Move}
variable {entries : StateSet}
variable (valid : chart.Valid active) (fits : ∀ move ∈ moves, move.Fits chart active)
variable (regioned : chart.Regioned) (defaulted : chart.Defaulted)
variable (recorded : chart.Recorded records)
variable (directed : ∀ move ∈ moves, move.targets ≠ [] →
  ∃ target, move.Directed chart active records target)

include formed valid

/-- Two moves with active compound domains that leave different states are detached: each
leaves the active child of its domain. -/
theorem detached_of_disjoint
    {first second : Move}
    (firstTargeted : first.targets ≠ [])
    (secondTargeted : second.targets ≠ [])
    (active_compound : ∀ move ∈ [first, second],
      chart.domain records move ∈ active ∧ chart.isCompound (chart.domain records move) = true)
    (disjoint : ∀ state ∈ chart.exitsOf active records first,
      state ∉ chart.exitsOf active records second) :
    chart.Detached records first second := by
  intro state insideFirst
  cases insideSecond : chart.isInside state (chart.domain records second) with
  | false => rfl
  | true =>
      exfalso
      have childOf : ∀ move ∈ [first, second], ∃ child ∈ active,
          chart.isInside child (chart.domain records move) = true := by
        intro move member
        obtain ⟨isActive, compound⟩ := active_compound move member
        obtain ⟨child, isRegion, childActive, _⟩ := valid.compoundChild _ isActive compound
        exact ⟨child, childActive, inside_of_region formed isRegion⟩
      have clash : ∀ child ∈ active,
          chart.isInside child (chart.domain records first) = true →
          chart.isInside child (chart.domain records second) = true → False := by
        intro child isActive inFirst inSecond
        exact disjoint child (mem_exitsOf.mpr ⟨firstTargeted, isActive, inFirst⟩)
          (mem_exitsOf.mpr ⟨secondTargeted, isActive, inSecond⟩)
      rcases within_or_inside formed (.inr insideFirst) (.inr insideSecond) with
        within | inside
      · obtain ⟨child, isActive, inFirst⟩ := childOf first (by simp)
        exact clash child isActive inFirst (inside_within_trans formed inFirst within)
      · obtain ⟨child, isActive, inSecond⟩ := childOf second (by simp)
        exact clash child isActive (inside_trans formed inSecond inside) inSecond

include fits regioned defaulted recorded directed

theorem pairwise_detached
    (disjoint : moves.Pairwise fun first second =>
      ∀ state ∈ chart.exitsOf active records first,
        state ∉ chart.exitsOf active records second) :
    moves.Pairwise fun first second => first.targets ≠ [] → second.targets ≠ [] →
      chart.Detached records first second := by
  refine disjoint.imp_of_mem fun isFirst isSecond apart firstTargeted secondTargeted =>
    detached_of_disjoint formed valid firstTargeted secondTargeted ?_ apart
  have compound : ∀ move ∈ moves, move.targets ≠ [] → chart.domain records move ∈ active ∧
      chart.isCompound (chart.domain records move) = true := by
    intro move chosen targeted
    obtain ⟨target, leads⟩ := directed move chosen targeted
    exact ⟨domain_active formed valid (recorded.sound formed) fits chosen,
      domain_compound formed valid (fits move chosen) regioned defaulted recorded leads⟩
  simpa using ⟨compound _ isFirst firstTargeted, compound _ isSecond secondTargeted⟩

/-- Directed moves with detached domains enter what grows in each domain from what the move
leads to. -/
theorem entries_grown
    {leaving : List Move}
    (detached : moves.Pairwise fun first second => first.targets ≠ [] →
      second.targets ≠ [] → chart.Detached records first second)
    (planned : chart.entries? (chart.recordedBy active records leaving) moves = some entries)
    (added : StateId) :
    added ∈ entries ↔ ∃ move ∈ moves, move.targets ≠ [] ∧
      chart.Grown (chart.Lineage (chart.leads records move) (chart.domain records move))
        added := by
  unfold entries? at planned
  induction moves using List.reverseRecOn generalizing entries added with
  | nil =>
      obtain rfl : [] = entries := by simpa using planned
      simp
  | append_singleton front move ih =>
      rw [List.foldlM_append, Option.bind_eq_bind, Option.bind_eq_some_iff] at planned
      obtain ⟨middle, fronted, stepped⟩ := planned
      simp only [List.foldlM_cons, List.foldlM_nil, bind_pure] at stepped
      obtain ⟨frontDetached, _, lastDetached⟩ := List.pairwise_append.mp detached
      have earlier := fun other (member : other ∈ front) => List.mem_append_left [move] member
      have known := ih (fun other member => fits other (earlier other member))
        (fun other member => directed other (earlier other member)) frontDetached fronted
      simp only [List.mem_append, List.mem_singleton, or_and_right, exists_or,
        exists_eq_left, ← known]
      by_cases targetless : move.targets = []
      · obtain rfl : middle = entries := by simpa [planMove, targetless] using stepped
        simp [targetless]
      · have isLast : move ∈ front ++ [move] := by simp
        obtain ⟨target, leads⟩ := directed move isLast targetless
        rw [planMove_directed formed valid (fits move isLast) regioned defaulted recorded leads
          ?_ stepped added, and_iff_right targetless]
        rintro region inside ⟨state, member, within⟩
        obtain ⟨other, isOther, targeted, grown⟩ := (known state).mp member
        have apart := lastDetached other isOther move (by simp) targeted targetless state
          (grown.inside_of_lineage formed)
        rw [within_inside_trans formed within inside] at apart
        cases apart

omit formed valid fits regioned defaulted recorded directed in
/-- A state lies inside one of several detached domains at most. -/
theorem eq_of_detached
    (detached : moves.Pairwise fun first second => first.targets ≠ [] →
      second.targets ≠ [] → chart.Detached records first second)
    {first second : Move} {state : StateId}
    (isFirst : first ∈ moves)
    (firstTargeted : first.targets ≠ [])
    (isSecond : second ∈ moves)
    (secondTargeted : second.targets ≠ [])
    (inFirst : chart.isInside state (chart.domain records first) = true)
    (inSecond : chart.isInside state (chart.domain records second) = true) :
    first = second := by
  by_contra different
  have symmetric : Std.Symm fun first second : Move => first.targets ≠ [] →
      second.targets ≠ [] → chart.Detached records first second :=
    ⟨fun _ _ apart second first => (apart first second).symm⟩
  have apart := detached.forall isFirst isSecond different firstTargeted secondTargeted
  rw [apart state inFirst] at inSecond
  cases inSecond

/-- After a step of directed moves there is in each domain what grows from what the move leads
to. -/
theorem succeeding_inside
    (detached : moves.Pairwise fun first second => first.targets ≠ [] →
      second.targets ≠ [] → chart.Detached records first second)
    (planned : chart.entries? (chart.recordedBy active records moves) moves = some entries)
    {move : Move} {state : StateId}
    (chosen : move ∈ moves)
    (targeted : move.targets ≠ [])
    (inside : chart.isInside state (chart.domain records move) = true) :
    state ∈ chart.succeeding active records moves entries ↔
      chart.Grown (chart.Lineage (chart.leads records move) (chart.domain records move))
        state := by
  have left : state ∉ chart.staying active records moves := fun stays =>
    (mem_staying.mp stays).2 ⟨move, chosen, targeted, inside⟩
  rw [mem_succeeding, or_iff_left left, entries_grown formed valid fits regioned defaulted
    recorded directed detached planned]
  constructor
  · rintro ⟨other, otherChosen, otherTargeted, grown⟩
    obtain rfl := eq_of_detached detached otherChosen otherTargeted chosen targeted
      (grown.inside_of_lineage formed) inside
    exact grown
  · exact fun grown => ⟨move, chosen, targeted, grown⟩

theorem succeeding_outside
    (detached : moves.Pairwise fun first second => first.targets ≠ [] →
      second.targets ≠ [] → chart.Detached records first second)
    (planned : chart.entries? (chart.recordedBy active records moves) moves = some entries)
    {state : StateId}
    (outside : ¬ chart.BelowDomain records moves state) :
    state ∈ chart.succeeding active records moves entries ↔ state ∈ active := by
  rw [mem_succeeding, mem_staying, and_iff_left outside]
  refine or_iff_right fun member => ?_
  obtain ⟨move, chosen, targeted, grown⟩ := (entries_grown formed valid fits regioned defaulted
    recorded directed detached planned state).mp member
  exact outside ⟨move, chosen, targeted, grown.inside_of_lineage formed⟩

theorem succeeding_regrown
    (detached : moves.Pairwise fun first second => first.targets ≠ [] →
      second.targets ≠ [] → chart.Detached records first second)
    (planned : chart.entries? (chart.recordedBy active records moves) moves = some entries) :
    chart.Regrown active (chart.succeeding active records moves entries)
      (moves.filter fun move => !move.targets.isEmpty) (chart.domain records)
      fun move => chart.Rooted (chart.leads records move) (chart.domain records move) := by
  have item : ∀ move, move ∈ (moves.filter fun move => !move.targets.isEmpty) ↔
      move ∈ moves ∧ move.targets ≠ [] := by
    simp
  have upright : ∀ move ∈ moves, move.targets ≠ [] →
      chart.Upright (chart.leads records move) (chart.domain records move) ∧
        chart.isParallel (chart.domain records move) = false := by
    intro move chosen targeted
    obtain ⟨target, leads⟩ := directed move chosen targeted
    rw [leads_directed leads]
    exact ⟨(upright_directed formed valid (fits move chosen) regioned defaulted recorded leads).1,
      leads.sequential⟩
  have domainActive : ∀ move ∈ moves, chart.domain records move ∈ active := fun _ =>
    domain_active formed valid (recorded.sound formed) fits
  constructor
  · intro move member
    obtain ⟨chosen, targeted⟩ := (item move).mp member
    obtain ⟨stands, _⟩ := upright move chosen targeted
    exact stands.coherent.stem formed stands.ordinary
      (valid.ordinary _ (domainActive move chosen))
  · exact fun move member => domainActive move ((item move).mp member).1
  · rintro move member ⟨other, otherMember, inside⟩
    obtain ⟨chosen, targeted⟩ := (item move).mp member
    obtain ⟨otherChosen, otherTargeted⟩ := (item other).mp otherMember
    obtain ⟨stands, _⟩ := upright move chosen targeted
    obtain ⟨state, isState⟩ := List.exists_mem_of_ne_nil _ stands.nonempty
    have deep := stands.inside state isState
    obtain rfl := eq_of_detached detached chosen targeted otherChosen otherTargeted deep
      (inside_trans formed deep inside)
    exact ne_of_inside formed inside rfl
  · intro move member state inside
    obtain ⟨chosen, targeted⟩ := (item move).mp member
    obtain ⟨stands, sequential⟩ := upright move chosen targeted
    obtain ⟨first, isFirst⟩ := List.exists_mem_of_ne_nil _ stands.nonempty
    rw [succeeding_inside formed valid fits regioned defaulted recorded directed detached planned
      chosen targeted inside,
      grown_rooted_iff formed isFirst (stands.inside first isFirst) (by simp [sequential]),
      or_iff_right (ne_of_inside formed inside)]
  · intro state outside
    refine succeeding_outside formed valid fits regioned defaulted recorded directed detached
      planned ?_
    rintro ⟨move, chosen, targeted, inside⟩
    exact outside ⟨move, (item move).mpr ⟨chosen, targeted⟩, inside⟩

end Steps

end Chart

namespace MachineSpec

variable {L : Type} {spec : MachineSpec L} {machine : Machine L}

/-- What a step leads to, exactly.  In a built machine whose parallel states all have a region,
with records that were kept when valid configurations were left, take an event on which each
transition that is selected and has targets leads to one state strictly inside its domain, which
is not parallel; if that is a history state, its parent is inactive.  Then the step is foretold
and leads to a valid configuration.  Outside the domains this is the configuration before; and
inside a domain it holds what grows from what the target stands for and all that this lies in
there: with each parallel state all its regions, and with each compound state in which none of
these lies its initial child. -/
theorem resolve_exact
    (built : spec.build = .ok machine)
    (ordinaryRoot : spec.HasOrdinaryRoot)
    (regioned : machine.chart.Regioned)
    {active : Configuration} {history : HistoryRecords}
    (valid : machine.chart.check active = none)
    (recorded : machine.chart.Recorded history)
    {context : Json} {event : Event} {selection : Selection L}
    (selected : machine.select .event active history context event = .ok selection)
    (directed : ∀ choice ∈ selection.chosen, choice.candidate.targets ≠ [] →
      ∃ target, choice.move.Directed machine.chart active history target) :
    ∃ resolution, machine.resolve active history context event = .ok resolution ∧
      machine.chart.check resolution.active = none ∧
      (active.Ordered → resolution.active.Ordered) ∧
      (∀ state, (∀ choice ∈ selection.chosen, choice.candidate.targets ≠ [] →
          machine.chart.isInside state (machine.chart.domain history choice.move) = false) →
        (state ∈ resolution.active ↔ state ∈ active)) ∧
      ∀ choice ∈ selection.chosen, ∀ target, choice.candidate.targets = [target] →
        ∀ state, machine.chart.isInside state (machine.chart.domain history choice.move) = true →
          (state ∈ resolution.active ↔
            machine.chart.Grown (machine.chart.Lineage (machine.chart.standsFor history target)
              (machine.chart.domain history choice.move)) state) := by
  have formed := build_machine_wellFormed built ordinaryRoot
  have isValid := (Chart.check_eq_none_iff formed.chart).mp valid
  have fits := Machine.select_fits formed.chart formed.lead isValid selected
  have defaulted := build_defaulted built ordinaryRoot
  have leading : ∀ move ∈ selection.chosen.map Choice.move, move.targets ≠ [] →
      ∃ target, move.Directed machine.chart active history target :=
    List.forall_mem_map.mpr directed
  have detached := Chart.pairwise_detached formed.chart isValid fits regioned defaulted recorded
    leading (Machine.select_disjoint selected)
  obtain ⟨entries, planned⟩ := Chart.entries_end formed.chart
    (Chart.recordedBy_sound formed.chart isValid.ordinary (recorded.sound formed.chart)
      (selection.chosen.map Choice.move)) (selection.chosen.map Choice.move)
  have regrown := Chart.succeeding_regrown formed.chart isValid fits regioned defaulted recorded
    leading detached planned
  refine ⟨machine.foretold active history selection entries,
    Machine.resolve_ok_iff.mpr ⟨selection, entries, selected, planned, rfl⟩,
    (Chart.check_eq_none_iff formed.chart).mpr (regrown.valid formed.chart isValid),
    fun ordered => (ordered.removeAll _).insertAll _, ?_, ?_⟩
  · intro state outside
    refine Chart.succeeding_outside formed.chart isValid fits regioned defaulted recorded leading
      detached planned ?_
    rintro ⟨move, chosen, targeted, inside⟩
    obtain ⟨choice, isChosen, rfl⟩ := List.mem_map.mp chosen
    rw [outside choice isChosen targeted] at inside
    cases inside
  · intro choice isChosen target only state inside
    have moving : choice.move.targets = [target] := only
    have stands : machine.chart.leads history choice.move =
        machine.chart.standsFor history target := by
      simp [Chart.leads, moving]
    rw [← stands]
    exact Chart.succeeding_inside formed.chart isValid fits regioned defaulted recorded leading
      detached planned (List.mem_map_of_mem isChosen) (by simp [moving]) inside

/-- Lights and a band side by side; the band can be told to go on where it stopped. -/
def stage : MachineSpec L :=
  { root := .mk { key := "stage", kind := .parallel }
      [.mk { key := "lights" }
          [.mk { key := "off", transitions := [(.on "CURTAIN", .toTarget "on")] } [],
           .mk { key := "on" } []],
       .mk { key := "band" }
          [.mk { key := "pause", transitions := [(.on "CURTAIN", .toTarget "music.resume")] } [],
           .mk { key := "music" }
              [.mk { key := "first" } [],
               .mk { key := "second" } [],
               .mk { key := "resume", kind := .history .deep } []]]]
    context := some fun _ => .null }

/-- When the curtain rises, the lights go on, and the band goes on with its second piece. -/
theorem resolve_exact_stage :
    let machine : Machine Unit := stage.machine fun _ => .null
    ∃ resolution,
      machine.resolve [0, 1, 2, 4, 5] [(9, [8])] .null (Event.named "CURTAIN") = .ok resolution ∧
      3 ∈ resolution.active ∧ 8 ∈ resolution.active ∧ 7 ∉ resolution.active := by
  intro machine
  have built : stage.build = .ok machine := build_of_faultless (by decide +kernel) rfl
  have regioned : machine.chart.Regioned := by decide +kernel
  have recorded : machine.chart.Recorded
      (machine.chart.recordHistory [0, 1, 2, 4, 6, 8] HistoryRecords.empty [8, 6]) :=
    .left .none (by decide +kernel) (by decide)
  have records : machine.chart.recordHistory [0, 1, 2, 4, 6, 8] HistoryRecords.empty [8, 6] =
      [(9, [8])] := by decide +kernel
  rw [records] at recorded
  obtain ⟨selection, selected, chosen⟩ := Machine.select_of_moves
    (show (machine.select .event [0, 1, 2, 4, 5] [(9, [8])] .null
      (Event.named "CURTAIN")).map _ = .ok [⟨2, [3], false⟩, ⟨5, [9], false⟩] by decide +kernel)
  have lights : Move.Directed ⟨2, [3], false⟩ machine.chart [0, 1, 2, 4, 5] [(9, [8])] 3 :=
    ⟨rfl, by decide +kernel, by decide +kernel, by decide +kernel⟩
  have resumes : machine.chart.parent? 9 = some 6 := by decide +kernel
  have band : Move.Directed ⟨5, [9], false⟩ machine.chart [0, 1, 2, 4, 5] [(9, [8])] 9 :=
    ⟨rfl, fun _ => by simp [resumes], by decide +kernel, by decide +kernel⟩
  have directed : ∀ choice ∈ selection.chosen, choice.candidate.targets ≠ [] →
      ∃ target, choice.move.Directed machine.chart [0, 1, 2, 4, 5] [(9, [8])] target := by
    intro choice isChosen _
    have moving : choice.move ∈ selection.chosen.map Choice.move := List.mem_map_of_mem isChosen
    rw [chosen, List.mem_pair] at moving
    rcases moving with same | same
    · exact ⟨3, same ▸ lights⟩
    · exact ⟨9, same ▸ band⟩
  obtain ⟨resolution, foretold, valid, _, _, inside⟩ := resolve_exact built (.inr rfl) regioned
    (by decide +kernel) recorded selected directed
  obtain ⟨first, isFirst, isLights⟩ : ∃ choice ∈ selection.chosen, choice.move = ⟨2, [3], false⟩ :=
    List.mem_map.mp (by simp [chosen])
  obtain ⟨second, isSecond, isBand⟩ : ∃ choice ∈ selection.chosen, choice.move = ⟨5, [9], false⟩ :=
    List.mem_map.mp (by simp [chosen])
  have on : 3 ∈ resolution.active := by
    refine (inside first isFirst 3 (congrArg Move.targets isLights) 3 ?_).mpr (.seed ?_)
    · rw [isLights]
      decide +kernel
    · rw [isLights]
      exact ⟨by decide +kernel, 3, by decide +kernel, .inl rfl⟩
  have playing : 8 ∈ resolution.active := by
    refine (inside second isSecond 9 (congrArg Move.targets isBand) 8 ?_).mpr (.seed ?_)
    · rw [isBand]
      decide +kernel
    · rw [isBand]
      exact ⟨by decide +kernel, 8, by decide +kernel, .inl rfl⟩
  refine ⟨resolution, foretold, on, playing, fun opening => ?_⟩
  have formed := build_wellFormed built (.inr rfl)
  have same : 7 = 8 := ((Chart.check_eq_none_iff formed).mp valid).siblings_eq formed
    (show machine.chart.isCompound 6 = true by decide +kernel) (by decide +kernel)
    (by decide +kernel) opening playing
  cases same

end MachineSpec

end Statechart
