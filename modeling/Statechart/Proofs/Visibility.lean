import Statechart.Proofs.Coexisting
import Statechart.Proofs.LeafSearches

/-!
# States in view of a selection

A selection searches upwards from the active leaves, so it comes by an active state only if an
active leaf lies in it or is it.  Going down from an active state leads to such a leaf, except
where it ends at a parallel state without regions: one whose children are all history states.
The transitions of states that are not in view count for nothing.
-/

namespace Statechart

variable {L : Type}

namespace Chart

/-- The active leaves that lie in the state or are that state. -/
def leavesIn (chart : Chart) (active : Configuration) (state : StateId) : List StateId :=
  (chart.leaves active).filter fun leaf => chart.Within leaf state

/-- An active leaf lies in the state or is that state. -/
def Visible (chart : Chart) (active : Configuration) (state : StateId) : Prop :=
  ∃ leaf ∈ chart.leaves active, chart.Within leaf state

theorem mem_leavesIn
    {chart : Chart} {active : Configuration} {leaf state : StateId} :
    leaf ∈ chart.leavesIn active state ↔
      leaf ∈ chart.leaves active ∧ chart.Within leaf state := by
  rw [leavesIn, List.mem_filter, decide_eq_true_eq]

instance (chart : Chart) (active : Configuration) (state : StateId) :
    Decidable (chart.Visible active state) :=
  inferInstanceAs (Decidable (∃ leaf ∈ chart.leaves active, chart.Within leaf state))

section Views

variable {chart : Chart} {active : Configuration}
variable (formed : chart.WellFormed)
variable {state leaf : StateId}

include formed

theorem ancestors_split
    (within : chart.Within leaf state) :
    ∃ before, leaf :: chart.ancestors leaf = before ++ state :: chart.ancestors state ∧
      ∀ inner, inner ∈ before ↔ chart.Within leaf inner ∧ chart.isInside inner state = true := by
  induction leaf using Nat.strongRecOn with
  | _ leaf ih =>
      rcases within with rfl | inside
      · refine ⟨[], rfl, fun inner => ⟨fun member => absurd member List.not_mem_nil, ?_⟩⟩
        rintro ⟨above, inside⟩
        rw [not_inside_of_within formed above] at inside
        cases inside
      · obtain ⟨parent, below, further⟩ := (isInside_iff_parent formed).mp inside
        obtain ⟨before, split, members⟩ := ih parent (formed.parentBefore below) further
        refine ⟨leaf :: before, ?_, fun inner => ?_⟩
        · rw [ancestors_of_parent formed below, split, List.cons_append]
        · rw [List.mem_cons, members]
          constructor
          · rintro (rfl | ⟨above, innerInside⟩)
            · exact ⟨.inl rfl, inside⟩
            · exact ⟨.inr ((isInside_iff_parent formed).mpr ⟨parent, below, above⟩), innerInside⟩
          · rintro ⟨rfl | above, innerInside⟩
            · exact .inl rfl
            · exact .inr ⟨parent_within formed below above, innerInside⟩

variable (valid : chart.Valid active)

include valid

theorem Valid.not_visible_of_regionless
    (parallel : chart.isParallel state = true)
    (regionless : chart.regions state = []) :
    ¬ chart.Visible active state := by
  rintro ⟨leaf, isLeaf, within⟩
  obtain ⟨leafActive, leafKind⟩ := List.mem_filter.mp isLeaf
  rcases within with rfl | inside
  · cases kind : chart.kind leaf <;> simp_all [Chart.isLeaf, isParallel]
  · obtain ⟨child, below, toward⟩ := child_toward formed inside
    have childActive := valid.withinActive formed leafActive toward
    have isRegion := (mem_regions formed).mpr ⟨below, valid.ordinary child childActive⟩
    rw [regionless] at isRegion
    cases isRegion

/-- All active states of a configuration are visible exactly if its parallel states have
regions. -/
theorem Valid.visible_iff :
    (∀ state ∈ active, chart.Visible active state) ↔
      ∀ state ∈ active, chart.isParallel state = true → chart.regions state ≠ [] := by
  constructor
  · exact fun visible state isActive parallel regionless =>
      valid.not_visible_of_regionless formed parallel regionless (visible state isActive)
  · intro regioned state isActive
    obtain ⟨bottom, bottomActive, within, leaf | ⟨parallel, regionless⟩⟩ :=
      valid.bottom_below formed isActive
    · exact ⟨bottom, List.mem_filter.mpr ⟨bottomActive, leaf⟩, within⟩
    · exact absurd regionless (regioned bottom bottomActive parallel)

omit valid in
/-- All configurations are free of hidden states exactly if no parallel state of the chart is
without regions. -/
theorem visible_iff_regioned :
    (∀ active : Configuration, active.Ordered → chart.Valid active →
        ∀ state ∈ active, chart.Visible active state) ↔ chart.Regioned := by
  constructor
  · intro visible state parallel
    have notAtomic : chart.kind state ≠ .atomic := by
      intro atomic
      simp [isParallel, atomic] at parallel
    have inRange : state < chart.size := by
      by_contra beyond
      exact notAtomic (kind_beyond (Nat.le_of_not_lt beyond))
    have ordinary : chart.isHistory state = false := by
      cases kind : chart.kind state <;> simp_all [isParallel, isHistory]
    -- A state coheres with itself, so some configuration holds it.
    have coherent : chart.Coherent [state] := by
      intro first isFirst second isSecond
      rw [List.mem_singleton.mp isFirst, List.mem_singleton.mp isSecond]
      exact compatible_of_within formed (.inl rfl)
    obtain ⟨active, ordered, valid, areActive⟩ :=
      coherent.exists_valid formed (by simpa using inRange) (by simpa using ordinary)
    exact (valid.visible_iff formed).mp (visible active ordered valid) state
      (areActive state (List.mem_singleton_self state)) parallel
  · exact fun regioned active _ valid =>
      (valid.visible_iff formed).mpr fun state _ => regioned state

end Views

end Chart

namespace Machine

/-- On the way up from the leaf all that stands below the state is refused, so that its choices
are tried next. -/
def ComesTo (machine : Machine L) (trigger : Trigger) (sight : Guard.Sight)
    (leaf state : StateId) : Prop :=
  ∀ inner, machine.chart.Within leaf inner → machine.chart.isInside inner state = true →
    ∀ choice ∈ machine.choices trigger sight.event inner, choice.verdict sight = .ok false

/-- On the way up from the leaf a state below the given one takes a choice. -/
def Forestalled (machine : Machine L) (trigger : Trigger) (sight : Guard.Sight)
    (leaf state : StateId) : Prop :=
  ∃ choice, machine.Searched trigger sight leaf (.ok (some choice)) ∧
    machine.chart.Within leaf choice.ref.source ∧
    machine.chart.isInside choice.ref.source state = true

theorem Forestalled.declares
    {machine : Machine L} {trigger : Trigger} {sight : Guard.Sight} {leaf state : StateId}
    (forestalled : machine.Forestalled trigger sight leaf state) :
    ∃ inner, machine.chart.Within leaf inner ∧ machine.chart.isInside inner state = true ∧
      machine.choices trigger sight.event inner ≠ [] := by
  obtain ⟨choice, finds, above, inside⟩ := forestalled
  exact ⟨choice.ref.source, above, inside,
    List.ne_nil_of_mem (mem_of_firstOpen finds.chosen_at)⟩

section Searching

variable {machine : Machine L} {trigger : Trigger} {sight : Guard.Sight}
variable (formed : machine.chart.WellFormed)
variable {leaf state : StateId}

include formed

/-- A search from a leaf tries the states below a given one, and goes on as from that one if they
take nothing. -/
theorem searched_through
    (within : machine.chart.Within leaf state) :
    ∃ before : List StateId,
      (∀ inner, inner ∈ before ↔
        machine.chart.Within leaf inner ∧ machine.chart.isInside inner state = true) ∧
      ∀ outcome, machine.Searched trigger sight leaf outcome ↔
        (match firstOpen sight (before.flatMap (machine.choices trigger sight.event)) with
          | .ok none => firstOpen sight (machine.tried trigger sight.event state)
          | settled => settled) = outcome := by
  obtain ⟨before, split, members⟩ := Chart.ancestors_split formed within
  refine ⟨before, members, fun outcome => ?_⟩
  rw [Searched, ← firstOpen_eq_iff, tried, split, List.flatMap_append, firstOpen_append]
  rfl

theorem ComesTo.searched_iff
    (within : machine.chart.Within leaf state)
    (comes : machine.ComesTo trigger sight leaf state)
    (outcome : Except GuardError (Option (Choice L))) :
    machine.Searched trigger sight leaf outcome ↔ machine.Searched trigger sight state outcome := by
  obtain ⟨before, members, searched⟩ := searched_through formed within
  have refused : firstOpen sight (before.flatMap (machine.choices trigger sight.event)) =
      .ok none := by
    refine firstOpen_eq_iff.mpr (.refused fun choice member => ?_)
    obtain ⟨inner, isBefore, isChoice⟩ := List.mem_flatMap.mp member
    obtain ⟨above, inside⟩ := (members inner).mp isBefore
    exact comes inner above inside choice isChoice
  rw [searched outcome, refused]
  exact firstOpen_eq_iff

/-- A search from a leaf in which no guard fails comes to a state above exactly if no state below
that one takes a choice. -/
theorem comesTo_iff_not_forestalled
    (within : machine.chart.Within leaf state)
    {found : Option (Choice L)}
    (fine : machine.Searched trigger sight leaf (.ok found)) :
    machine.ComesTo trigger sight leaf state ↔ ¬ machine.Forestalled trigger sight leaf state := by
  constructor
  · rintro comes ⟨choice, finds, above, inside⟩
    have opened := finds.chosen_at
    have refused := comes _ above inside choice (mem_of_firstOpen opened)
    cases firstOpen_eq_iff.mp opened with
    | opened _ holds =>
        rw [refused] at holds
        cases holds
  · intro free
    obtain ⟨before, members, searched⟩ := searched_through formed within
    -- Below the state a guard fails, which is ruled out, or a choice is taken, or all is refused.
    cases settled : firstOpen sight (before.flatMap (machine.choices trigger sight.event)) with
    | error error =>
        have fails : machine.Searched trigger sight leaf (.error error) :=
          (searched _).mpr (by rw [settled])
        cases fails.unique fine
    | ok first =>
        cases first with
        | some choice =>
            have finds : machine.Searched trigger sight leaf (.ok (some choice)) :=
              (searched _).mpr (by rw [settled])
            obtain ⟨inner, isBefore, isChoice⟩ := List.mem_flatMap.mp (mem_of_firstOpen settled)
            obtain ⟨above, inside⟩ := (members inner).mp isBefore
            have source : choice.ref.source = inner := (mem_choices isChoice).1
            exact absurd ⟨choice, finds, source ▸ above, source ▸ inside⟩ free
        | none =>
            cases firstOpen_eq_iff.mp settled with
            | refused all =>
                intro inner above inside choice isChoice
                exact all choice (List.mem_flatMap.mpr
                  ⟨inner, (members inner).mpr ⟨above, inside⟩, isChoice⟩)

end Searching

section Selecting

variable {machine : Machine L} {trigger : Trigger} {active : Configuration}
variable {history : HistoryRecords} {context : Json} {event : Event} {selection : Selection L}

/-- In a selection that goes well no guard fails in the search from any leaf. -/
theorem searched_of_select
    (selected : machine.select trigger active history context event = .ok selection) :
    ∀ leaf ∈ machine.chart.leaves active, ∃ found,
      machine.Searched trigger { chart := machine.chart, active, context, event } leaf
        (.ok found) := by
  unfold select at selected
  split at selected
  · rename_i enabled listed
    clear selected
    generalize machine.chart.leaves active = leaves, ([] : List (Choice L)) = found at listed
    induction leaves generalizing found with
    | nil => exact fun _ member => absurd member List.not_mem_nil
    | cons first leaves ih =>
        unfold enabledFrom at listed
        split at listed
        · rename_i new searched
          exact List.forall_mem_cons.mpr ⟨⟨new, firstChoice_eq_iff.mp searched⟩, ih _ listed⟩
        · cases listed
  · cases selected

/-- In a selection that goes well the search comes to a state exactly if this is in view and not
forestalled on the way from each leaf in it. -/
theorem comes_iff_visible
    (formed : machine.chart.WellFormed)
    (selected : machine.select trigger active history context event = .ok selection)
    (state : StateId) :
    let sight : Guard.Sight := { chart := machine.chart, active, context, event }
    (∃ leaf ∈ machine.chart.leavesIn active state, machine.ComesTo trigger sight leaf state) ↔
      machine.chart.Visible active state ∧
        ¬ ∀ leaf ∈ machine.chart.leavesIn active state,
          machine.Forestalled trigger sight leaf state := by
  intro sight
  have settles : ∀ leaf ∈ machine.chart.leavesIn active state,
      (machine.ComesTo trigger sight leaf state ↔
        ¬ machine.Forestalled trigger sight leaf state) := by
    intro leaf member
    obtain ⟨isLeaf, within⟩ := Chart.mem_leavesIn.mp member
    obtain ⟨found, searched⟩ := searched_of_select selected leaf isLeaf
    exact comesTo_iff_not_forestalled formed within searched
  constructor
  · rintro ⟨leaf, member, comes⟩
    exact ⟨⟨leaf, Chart.mem_leavesIn.mp member⟩,
      fun all => (settles leaf member).mp comes (all leaf member)⟩
  · rintro ⟨_, notAll⟩
    simp only [not_forall] at notAll
    obtain ⟨leaf, member, free⟩ := notAll
    exact ⟨leaf, member, (settles leaf member).mpr free⟩

/-- What the states out of view declare does not matter for a selection. -/
theorem select_eq_of_visible
    {other : Machine L}
    (formed : machine.chart.WellFormed)
    (sameChart : other.chart = machine.chart)
    (alike : ∀ state, machine.chart.Visible active state →
      (other.conduct state).transitions = (machine.conduct state).transitions) :
    other.select trigger active history context event =
      machine.select trigger active history context event := by
  have sifting : other.withoutConflicts active history event =
      machine.withoutConflicts active history event := by
    funext enabled
    simp only [withoutConflicts, rival?, sameChart]
  have searches : ∀ leaf ∈ machine.chart.leaves active, ∀ sight : Guard.Sight,
      other.firstChoice trigger sight (leaf :: other.chart.ancestors leaf) =
        machine.firstChoice trigger sight (leaf :: machine.chart.ancestors leaf) := by
    intro leaf isLeaf sight
    rw [firstChoice_eq_firstOpen, firstChoice_eq_firstOpen, sameChart]
    refine congrArg (firstOpen sight) (List.flatMap_congr fun state member => ?_)
    have within : machine.chart.Within leaf state :=
      (List.mem_cons.mp member).imp Eq.symm (Chart.isInside_iff_mem formed).mpr
    rw [choices, choices, alike state ⟨leaf, isLeaf, within⟩]
  have gathering : ∀ leaves found, (∀ leaf ∈ leaves, leaf ∈ machine.chart.leaves active) →
      ∀ sight, other.enabledFrom trigger sight leaves found =
        machine.enabledFrom trigger sight leaves found := by
    intro leaves
    induction leaves with
    | nil => exact fun _ _ _ => rfl
    | cons leaf leaves ih =>
        intro found areLeaves sight
        obtain ⟨isLeaf, further⟩ := List.forall_mem_cons.mp areLeaves
        simp only [enabledFrom, searches leaf isLeaf, ih _ further]
  rw [select, select, sifting, sameChart, gathering _ _ fun _ member => member]

theorem visible_of_chosen
    (formed : machine.chart.WellFormed)
    (selected : machine.select trigger active history context event = .ok selection) :
    ∀ choice ∈ selection.chosen, machine.chart.Visible active choice.ref.source := by
  intro choice chosen
  obtain ⟨leaf, isLeaf, above⟩ :=
    List.mem_flatMap.mp (select_offers_above selected choice chosen).sourceActive
  exact ⟨leaf, isLeaf, (List.mem_cons.mp above).imp Eq.symm (Chart.isInside_iff_mem formed).mpr⟩

end Selecting

end Machine

namespace MachineSpec

variable {spec : MachineSpec L} {machine : Machine L}

theorem build_parallel_child
    (built : spec.build = .ok machine)
    {state : StateId}
    (parallel : machine.chart.isParallel state = true) :
    machine.chart.children state ≠ [] := by
  rw [build_chart built] at parallel ⊢
  unfold Chart.isParallel at parallel
  cases described : (Draft.ofSpec spec.root).head? state with
  | none => simp [Draft.chartWithKinds_kind_beyond described] at parallel
  | some head =>
      have faultless := Draft.kindErrors_nil (build_faultless built).2 described
      rw [Draft.chartWithKinds_kind described] at parallel
      rw [Draft.chartWithKinds_children]
      intro childless
      obtain ⟨key, id, headKind⟩ := head
      cases headKind with
      | history memory => simp [Draft.kindOf] at parallel
      | parallel => simp [Draft.kindErrors, childless] at faultless
      | final => simp [Draft.kindOf, Draft.plainKind] at parallel
      | regular => simp [Draft.kindOf, Draft.plainKind, childless] at parallel

/-- Which active states a selection comes by.  In a built machine a parallel state has children,
but they may all be history states.  All active states of all configurations that pass the check
are in view exactly if no parallel state is without regions, and those of one configuration
exactly if none of its own is.  When a selection goes well, the search comes to an active state
exactly if this is in view and not forestalled on the way up from each leaf in it, and then goes
on as from this state; only states in view are the source of what is chosen, and what the others
declare makes no difference. -/
theorem active_states_visible_iff
    (built : spec.build = .ok machine)
    (ordinaryRoot : spec.HasOrdinaryRoot) :
    (∀ state, machine.chart.isParallel state = true → machine.chart.children state ≠ []) ∧
      ((∀ active : Configuration, active.Ordered → machine.chart.check active = none →
          ∀ state ∈ active, machine.chart.Visible active state) ↔ machine.chart.Regioned) ∧
      ∀ active : Configuration, machine.chart.check active = none →
        ((∀ state ∈ active, machine.chart.Visible active state) ↔
          ∀ state ∈ active, machine.chart.isParallel state = true →
            machine.chart.regions state ≠ []) ∧
        ∀ trigger history context event selection,
          machine.select trigger active history context event = .ok selection →
          let sight : Guard.Sight := { chart := machine.chart, active, context, event }
          (∀ state ∈ active,
            (∃ leaf ∈ machine.chart.leavesIn active state,
              machine.ComesTo trigger sight leaf state) ↔
            machine.chart.Visible active state ∧
              ¬ ∀ leaf ∈ machine.chart.leavesIn active state,
                machine.Forestalled trigger sight leaf state) ∧
          (∀ state, ∀ leaf ∈ machine.chart.leavesIn active state,
            machine.ComesTo trigger sight leaf state →
              ∀ outcome, machine.Searched trigger sight leaf outcome ↔
                machine.Searched trigger sight state outcome) ∧
          (∀ choice ∈ selection.chosen, machine.chart.Visible active choice.ref.source) ∧
          ∀ other : Machine L, other.chart = machine.chart →
            (∀ state, machine.chart.Visible active state →
              (other.conduct state).transitions = (machine.conduct state).transitions) →
            other.select trigger active history context event = .ok selection := by
  have formed := build_wellFormed built ordinaryRoot
  refine ⟨fun _ => build_parallel_child built, ?_, ?_⟩
  · simp only [Chart.check_eq_none_iff formed]
    exact Chart.visible_iff_regioned formed
  · intro active accepted
    have valid := (Chart.check_eq_none_iff formed).mp accepted
    refine ⟨valid.visible_iff formed, ?_⟩
    intro trigger history context event selection selected sight
    refine ⟨fun state _ => Machine.comes_iff_visible formed selected state, ?_,
      Machine.visible_of_chosen formed selected, ?_⟩
    · intro state leaf member comes
      exact comes.searched_iff formed (Chart.mem_leavesIn.mp member).2
    · intro other sameChart alike
      rw [Machine.select_eq_of_visible formed sameChart alike, selected]

/-- Whatever the player does, all of it is in view; while it is paused at a low volume, the search
for what to do when it is to get louder comes to playback, as the state below declares nothing
for it. -/
theorem active_states_visible_iff_player :
    let machine : Machine Unit := player.machine fun _ => .null
    (∀ active : Configuration, active.Ordered → machine.chart.check active = none →
      ∀ state ∈ active, machine.chart.Visible active state) ∧
    ∃ leaf ∈ machine.chart.leavesIn [0, 1, 2, 4, 5] 1, machine.ComesTo .event
      { chart := machine.chart, active := [0, 1, 2, 4, 5], context := .null,
        event := Event.named "LOUDER" } leaf 1 := by
  intro machine
  have built : player.build = .ok machine := build_of_faultless (by decide +kernel) rfl
  obtain ⟨_, all, each⟩ := active_states_visible_iff built (.inr rfl)
  refine ⟨all.mpr (by decide +kernel), ?_⟩
  have silent : ∀ inner < machine.chart.size, machine.chart.Within 2 inner →
      machine.chart.isInside inner 1 = true →
        (machine.choices .event (Event.named "LOUDER") inner).isEmpty = true := by
    decide +kernel
  cases selected : machine.select .event [0, 1, 2, 4, 5] HistoryRecords.empty .null
      (Event.named "LOUDER") with
  | error error =>
      have fine : (machine.select .event [0, 1, 2, 4, 5] HistoryRecords.empty .null
          (Event.named "LOUDER")).isOk = true := by decide +kernel
      simp [selected, Except.isOk, Except.toBool] at fine
  | ok selection =>
      obtain ⟨comes, _⟩ := (each _ (by decide +kernel)).2 _ _ _ _ _ selected
      refine (comes 1 (by decide)).mpr ⟨by decide +kernel, fun forestalled => ?_⟩
      obtain ⟨inner, above, inside, declares⟩ := (forestalled 2 (by decide +kernel)).declares
      have inRange := Chart.inside_in_range (build_wellFormed built (.inr rfl)) inside
      exact declares (List.isEmpty_iff.mp (silent inner inRange above inside))

/-- A cellar where there is nothing but a memory, and a way out of it. -/
def cellar : MachineSpec L :=
  { root := .mk { key := "house" }
      [.mk { key := "cellar", kind := .parallel,
             transitions := [(.on "LEAVE", .toTarget "garden")] }
          [.mk { key := "last", kind := .history .shallow } []],
       .mk { key := "garden" } []]
    context := some fun _ => .null }

/-- The cellar is built, but it has no region, so it is out of view, and in spite of the way out
nobody leaves it. -/
theorem cellar_not_visible :
    let machine : Machine Unit := cellar.machine fun _ => .null
    cellar.build = .ok machine ∧ machine.chart.check [0, 1] = none ∧
      machine.chart.isParallel 1 = true ∧ machine.chart.regions 1 = [] ∧
      ¬ machine.chart.Visible [0, 1] 1 ∧
      (machine.choices .event (Event.named "LEAVE") 1).map
        (fun choice => choice.candidate.guard.isNone) = [true] ∧
      (machine.select .event [0, 1] HistoryRecords.empty .null (Event.named "LEAVE")).map
        (fun selection => selection.chosen.length) = .ok 0 := by
  intro machine
  exact ⟨build_of_faultless (by decide +kernel) rfl, by decide +kernel, by decide +kernel,
    by decide +kernel, by decide +kernel, by decide +kernel, by decide +kernel⟩

end MachineSpec

end Statechart
