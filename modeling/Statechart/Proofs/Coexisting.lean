import Mathlib.Data.List.Pairwise
import Statechart.Proofs.Building
import Statechart.Proofs.Growing

/-!
# States that can be active together

The check of the targets of a transition looks at them two by two.  Two states coexist exactly
if they do not lie in different children of a compound state, and that is enough for any number
of them: what grows from states that coexist pairwise is a valid configuration.
-/

namespace Statechart

namespace Chart

section Pairs

variable {chart : Chart} {first second : StateId}

theorem Compatible.symm
    (compatible : chart.Compatible first second) :
    chart.Compatible second first :=
  fun parent one two compound oneBelow twoBelow oneWithin twoWithin =>
    (compatible parent two one compound twoBelow oneBelow twoWithin oneWithin).symm

instance (chart : Chart) : Std.Symm chart.Compatible := ⟨fun _ _ => Compatible.symm⟩

variable (formed : chart.WellFormed)

include formed

theorem compatible_of_within
    (within : chart.Within first second) :
    chart.Compatible first second := by
  intro parent one two _ oneBelow twoBelow oneWithin twoWithin
  exact child_toward_unique formed oneBelow twoBelow oneWithin
    (within_trans formed within twoWithin)

theorem compatible_of_parallel
    {meet : StateId}
    (isParallel : chart.isParallel meet = true)
    (firstInside : chart.isInside first meet = true)
    (secondInside : chart.isInside second meet = true)
    (lowest : ∀ other, chart.isInside first other = true → chart.isInside second other = true →
      chart.Within meet other) :
    chart.Compatible first second := by
  intro parent one two compound oneBelow twoBelow oneWithin twoWithin
  have around := lowest parent
    (within_inside_trans formed oneWithin (inside_of_parent formed oneBelow))
    (within_inside_trans formed twoWithin (inside_of_parent formed twoBelow))
  rcases around with rfl | inside
  · cases kind : chart.kind meet <;> simp_all [Chart.isParallel, isCompound]
  · obtain ⟨child, below, within⟩ := child_toward formed inside
    have firstChild := child_toward_unique formed oneBelow below oneWithin
      (.inr (inside_within_trans formed firstInside within))
    have secondChild := child_toward_unique formed twoBelow below twoWithin
      (.inr (inside_within_trans formed secondInside within))
    exact firstChild.trans secondChild.symm

theorem nearest_common
    {meet : StateId}
    (found : (chart.ancestors first).find? (fun ancestor => chart.isInside second ancestor) =
      some meet) :
    chart.isInside first meet = true ∧ chart.isInside second meet = true ∧
      ∀ other, chart.isInside first other = true → chart.isInside second other = true →
        chart.Within meet other := by
  obtain ⟨secondInside, before, after, split, passed⟩ :=
    List.find?_eq_some_iff_append.mp found
  have nested : (chart.ancestors first).Pairwise _ := ancestors_nested formed
  rw [split, List.pairwise_append] at nested
  refine ⟨(isInside_iff_mem formed).mpr (split ▸ by simp), secondInside, ?_⟩
  intro other firstOther secondOther
  have listed := (isInside_iff_mem formed).mp firstOther
  rw [split] at listed
  rcases List.mem_append.mp listed with earlier | later
  · have missed := passed other earlier
    rw [secondOther] at missed
    cases missed
  · rcases List.mem_cons.mp later with rfl | further
    · exact .inl rfl
    · exact .inr ((List.pairwise_cons.mp nested.2.1).1 other further)

/-- Two states that meet in a compound state, and do not lie in one another, are not
compatible. -/
theorem not_compatible_of_compound
    {meet : StateId}
    (compound : chart.isCompound meet = true)
    (firstInside : chart.isInside first meet = true)
    (secondInside : chart.isInside second meet = true)
    (lowest : ∀ other, chart.isInside first other = true → chart.isInside second other = true →
      chart.Within meet other)
    (firstWithin : ¬ chart.Within first second)
    (secondWithin : ¬ chart.Within second first) :
    ¬ chart.Compatible first second := by
  intro compatible
  obtain ⟨one, oneBelow, oneWithin⟩ := child_toward formed firstInside
  obtain ⟨two, twoBelow, twoWithin⟩ := child_toward formed secondInside
  obtain rfl := compatible meet one two compound oneBelow twoBelow oneWithin twoWithin
  rcases oneWithin with rfl | firstBelow
  · exact secondWithin twoWithin
  · rcases twoWithin with rfl | secondBelow
    · exact firstWithin (.inr firstBelow)
    · have around := lowest one firstBelow secondBelow
      have inside := inside_of_parent formed oneBelow
      rw [not_inside_of_within formed around] at inside
      cases inside

/-- The check of two states accepts them exactly if they are compatible. -/
theorem coexist_iff_compatible
    (firstInRange : first < chart.size)
    (secondInRange : second < chart.size) :
    chart.coexist first second = true ↔ chart.Compatible first second := by
  by_cases firstWithin : chart.Within first second
  · have accepted : chart.coexist first second = true := by
      rcases firstWithin with rfl | inside
      · simp [coexist]
      · simp [coexist, inside]
    exact iff_of_true accepted (compatible_of_within formed firstWithin)
  · by_cases secondWithin : chart.Within second first
    · have accepted : chart.coexist first second = true := by
        rcases secondWithin with rfl | inside
        · simp [coexist]
        · simp [coexist, inside]
      exact iff_of_true accepted (compatible_of_within formed secondWithin).symm
    · have apart : chart.coexist first second =
          ((chart.ancestors first).find? fun ancestor => chart.isInside second ancestor).any
            chart.isParallel := by
        unfold coexist
        cases (chart.ancestors first).find? fun ancestor => chart.isInside second ancestor <;>
          simp_all [Within]
      rw [apart]
      cases found : (chart.ancestors first).find? fun ancestor =>
          chart.isInside second ancestor with
      | none =>
          exfalso
          have firstInside := (within_root formed firstInRange).resolve_left fun top =>
            secondWithin (top ▸ within_root formed secondInRange)
          have secondInside := (within_root formed secondInRange).resolve_left fun top =>
            firstWithin (top ▸ within_root formed firstInRange)
          exact List.find?_eq_none.mp found root ((isInside_iff_mem formed).mp firstInside)
            secondInside
      | some meet =>
          obtain ⟨firstInside, secondInside, lowest⟩ := nearest_common formed found
          obtain ⟨child, below, _⟩ := child_toward formed firstInside
          rcases parent_kind formed below with ⟨initial, kind⟩ | kind
          · refine iff_of_false (by simp [isParallel, kind]) ?_
            exact not_compatible_of_compound formed (by simp [isCompound, kind]) firstInside
              secondInside lowest firstWithin secondWithin
          · have isParallel : chart.isParallel meet = true := by simp [Chart.isParallel, kind]
            exact iff_of_true isParallel
              (compatible_of_parallel formed isParallel firstInside secondInside lowest)

end Pairs

section Lists

variable {chart : Chart} {targets : List StateId}

theorem targetConflicts_eq_nil_iff (source : String) :
    chart.targetConflicts source targets = [] ↔
      targets.Pairwise fun first second => chart.coexist first second = true := by
  induction targets with
  | nil => simp [targetConflicts]
  | cons first rest ih =>
      rw [targetConflicts, List.append_eq_nil_iff, ih, List.pairwise_cons]
      refine and_congr_left' ?_
      cases found : rest.find? fun second => !chart.coexist first second with
      | none => simpa using found
      | some second =>
          refine iff_of_false (by simp) fun all => ?_
          have clash := List.find?_some found
          rw [all second (List.mem_of_find?_eq_some found)] at clash
          cases clash

variable (formed : chart.WellFormed)

include formed

/-- States of the chart are free of conflicts exactly if they cohere. -/
theorem targetConflicts_eq_nil_iff_coherent
    (inRange : ∀ target ∈ targets, target < chart.size)
    (source : String) :
    chart.targetConflicts source targets = [] ↔ chart.Coherent targets := by
  rw [targetConflicts_eq_nil_iff]
  constructor
  · intro pairs first isFirst second isSecond
    have compatible : targets.Pairwise chart.Compatible :=
      pairs.imp_of_mem fun isOne isTwo =>
        (coexist_iff_compatible formed (inRange _ isOne) (inRange _ isTwo)).mp
    by_cases same : first = second
    · exact compatible_of_within formed (.inl same)
    · exact compatible.forall isFirst isSecond same
  · intro coherent
    exact List.pairwise_iff_forall_sublist.mpr fun {first second} pair =>
      have isFirst := pair.subset (List.mem_cons_self)
      have isSecond := pair.subset (List.mem_cons_of_mem first List.mem_cons_self)
      (coexist_iff_compatible formed (inRange _ isFirst) (inRange _ isSecond)).mpr
        (coherent first isFirst second isSecond)

theorem Valid.coherent
    {active : Configuration}
    (valid : chart.Valid active)
    (areActive : ∀ target ∈ targets, target ∈ active) :
    chart.Coherent targets := by
  intro first isFirst second isSecond parent one two compound oneBelow twoBelow oneWithin
    twoWithin
  exact valid.siblings_eq formed compound oneBelow twoBelow
    (valid.withinActive formed (areActive first isFirst) oneWithin)
    (valid.withinActive formed (areActive second isSecond) twoWithin)

/-- What grows from coherent states and the root is a valid configuration. -/
theorem Coherent.exists_valid
    (coherent : chart.Coherent targets)
    (inRange : ∀ target ∈ targets, target < chart.size)
    (ordinary : ∀ target ∈ targets, chart.isHistory target = false) :
    ∃ active : Configuration, active.Ordered ∧ chart.Valid active ∧
      ∀ target ∈ targets, target ∈ active := by
  classical
  obtain ⟨start, started⟩ := initialEntries_end formed
  have startValid := initialEntries_valid formed started
  let active := (List.range chart.size).filter fun state =>
    decide (chart.Grown (chart.Rooted targets root) state)
  have mem_active : ∀ state, state ∈ active ↔
      state < chart.size ∧ chart.Grown (chart.Rooted targets root) state := by
    simp [active]
  have rooted : root ∈ active :=
    (mem_active root).mpr ⟨formed.nonempty, .seed (.inl rfl)⟩
  have regrown : chart.Regrown start active [root] (fun _ => root)
      fun _ => chart.Rooted targets root := by
    constructor
    · exact fun _ _ => coherent.stem formed ordinary formed.rootOrdinary
    · exact fun _ _ => startValid.rootActive
    · rintro _ _ ⟨_, _, inside⟩
      rw [not_root_inside formed] at inside
      cases inside
    · intro one _ state inside
      exact (mem_active state).trans (and_iff_right (inside_in_range formed inside))
    · intro state outside
      have onlyRoot : state < chart.size → state = root := fun inRange =>
        (within_root formed inRange).resolve_right fun inside =>
          outside ⟨root, List.mem_singleton_self root, inside⟩
      constructor
      · intro member
        obtain rfl := onlyRoot ((mem_active state).mp member).1
        exact startValid.rootActive
      · intro member
        obtain rfl := onlyRoot (startValid.inRange state member)
        exact rooted
  refine ⟨active, List.pairwise_lt_range.filter _, regrown.valid formed startValid, ?_⟩
  intro target isTarget
  refine (mem_active target).mpr ⟨inRange target isTarget, .seed ?_⟩
  exact (within_root formed (inRange target isTarget)).imp_right fun inside =>
    ⟨inside, target, isTarget, .inl rfl⟩

end Lists

end Chart

section Accepting

variable {L : Type}

theorem Transition.mem_add
    {descriptor : Descriptor} {new candidate : Candidate L} {transition : Transition L}
    {transitions : List (Transition L)}
    (member : transition ∈ Transition.add descriptor new transitions)
    (isCandidate : candidate ∈ transition.candidates) :
    candidate = new ∨ ∃ known ∈ transitions, candidate ∈ known.candidates := by
  induction transitions with
  | nil =>
      obtain rfl : transition = { descriptor, candidates := [new] } := by
        simpa [Transition.add] using member
      exact .inl (List.mem_singleton.mp isCandidate)
  | cons first transitions ih =>
      unfold Transition.add at member
      by_cases same : first.descriptor = descriptor
      · rw [if_pos same] at member
        rcases List.mem_cons.mp member with rfl | further
        · rcases List.mem_append.mp isCandidate with old | added
          · exact .inr ⟨first, List.mem_cons_self, old⟩
          · exact .inl (List.mem_singleton.mp added)
        · exact .inr ⟨transition, List.mem_cons_of_mem first further, isCandidate⟩
      · rw [if_neg same] at member
        rcases List.mem_cons.mp member with rfl | further
        · exact .inr ⟨transition, List.mem_cons_self, isCandidate⟩
        · rcases ih further with fresh | ⟨known, isKnown, held⟩
          · exact .inl fresh
          · exact .inr ⟨known, List.mem_cons_of_mem first isKnown, held⟩

theorem Chart.mem_transitions
    {chart : Chart} {source : StateId} {clauses : List (Clause L)} {transition : Transition L}
    {candidate : Candidate L}
    (member : transition ∈ chart.transitions source clauses)
    (isCandidate : candidate ∈ transition.candidates) :
    ∃ descriptor spec, Clause.transition descriptor spec ∈ clauses ∧
      candidate = chart.candidate source spec := by
  refine List.foldlRecOn (motive := fun known => ∀ transition ∈ known,
    ∀ candidate ∈ transition.candidates, ∃ descriptor spec,
      Clause.transition descriptor spec ∈ clauses ∧ candidate = chart.candidate source spec)
    clauses _ ?_ ?_ transition member candidate isCandidate
  · intro transition member
    cases member
  · intro known declared clause isClause
    cases clause with
    | fault error => exact declared
    | transition descriptor spec =>
        intro transition member candidate isCandidate
        rcases Transition.mem_add member isCandidate with rfl | ⟨other, isKnown, held⟩
        · exact ⟨descriptor, spec, isClause, rfl⟩
        · exact declared other isKnown candidate held

theorem MachineSpec.build_targetConflicts
    {spec : MachineSpec L} {machine : Machine L}
    (built : spec.build = .ok machine)
    {source : StateId} {transition : Transition L} {candidate : Candidate L}
    (member : transition ∈ (machine.conduct source).transitions)
    (isCandidate : candidate ∈ transition.candidates) :
    machine.chart.targetConflicts (machine.chart.id source) candidate.targets = [] := by
  obtain ⟨head, described⟩ := build_described built member
  obtain ⟨taken, faultless, conducted⟩ := build_conduct built described
  rw [conducted] at member
  obtain ⟨descriptor, spec, isClause, rfl⟩ := Chart.mem_transitions member isCandidate
  have noFaults := faultless _ isClause
  simp only [Chart.clauseErrors, Chart.transitionErrors, List.append_eq_nil_iff] at noFaults
  exact noFaults.1.2

end Accepting

namespace MachineSpec

variable {L : Type}

/-- The check of targets is exact.  In every described tree whose kinds can be decided, a list
of ordinary states is free of conflicts exactly if some configuration that passes the check of
configurations holds them all. -/
theorem coexistence_exact
    (spec : MachineSpec L)
    (compiled : spec.draft.allKindErrors = [])
    (ordinaryRoot : spec.HasOrdinaryRoot)
    (source : String)
    {targets : List StateId}
    (resolved : ∀ target ∈ targets, target < spec.draft.chartWithKinds.size)
    (ordinary : ∀ target ∈ targets, spec.draft.chartWithKinds.isHistory target = false) :
    spec.draft.chartWithKinds.targetConflicts source targets = [] ↔
      ∃ active : Configuration, active.Ordered ∧
        spec.draft.chartWithKinds.check active = none ∧ ∀ target ∈ targets, target ∈ active := by
  have formed : spec.draft.chartWithKinds.WellFormed :=
    Draft.chartWithKinds_wellFormed spec.root compiled ordinaryRoot
  rw [Chart.targetConflicts_eq_nil_iff_coherent formed resolved]
  simp only [Chart.check_eq_none_iff formed]
  constructor
  · intro coherent
    exact coherent.exists_valid formed resolved ordinary
  · rintro ⟨active, _, valid, areActive⟩
    exact valid.coherent formed areActive

/-- The player can be playing, in its playback, at a high volume, but not playing and paused. -/
theorem coexistence_exact_player :
    let chart := (player : MachineSpec Unit).draft.chartWithKinds
    (∃ active : Configuration, active.Ordered ∧ chart.check active = none ∧
      ∀ target ∈ [3, 6, 1], target ∈ active) ∧
    ¬ ∃ active : Configuration, active.Ordered ∧ chart.check active = none ∧
      ∀ target ∈ [3, 6, 2], target ∈ active := by
  intro chart
  constructor
  · exact (coexistence_exact player (by decide +kernel) (.inr rfl) "" (by decide +kernel)
      (by decide +kernel)).mp (by decide +kernel)
  · exact fun together => absurd
      ((coexistence_exact player (by decide +kernel) (.inr rfl) "" (by decide +kernel)
        (by decide +kernel)).mpr together) (by decide +kernel)

end MachineSpec

end Statechart
