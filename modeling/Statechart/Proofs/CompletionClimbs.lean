import Statechart.Proofs.CompletedStates

/-!
# Heralds of completion

A parallel state is announced as completed when a final state is entered and the climb from it
finds the regions completed.  The climb takes a final region for completed by its kind, whether
it is active or not, and a parallel region with it.  So it may announce a state that has not
finished yet: it has, once it has completed and all is active that it comprises and that
completes by its kind.
-/

namespace Statechart

namespace Chart

/-- The state is active and has completed, and so are all states on which this depends. -/
inductive Finished (chart : Chart) (active : Configuration) : StateId → Prop where
  | compound {state child : StateId} :
      state ∈ active → chart.isCompound state = true → child ∈ chart.children state →
      child ∈ active → chart.isFinal child = true → Finished chart active state
  | parallel {state : StateId} :
      state ∈ active → chart.isParallel state = true →
      (∀ region ∈ chart.regions state, Finished chart active region) →
      Finished chart active state
  | final {state : StateId} :
      state ∈ active → chart.isFinal state = true → Finished chart active state

/-- The state is a region of a parallel one, or of a region of it that is parallel itself, and
so on. -/
inductive Comprises (chart : Chart) (outer : StateId) : StateId → Prop where
  | region {state : StateId} :
      chart.isParallel outer = true → state ∈ chart.regions outer → Comprises chart outer state
  | further {middle state : StateId} :
      Comprises chart outer middle → chart.isParallel middle = true →
      state ∈ chart.regions middle → Comprises chart outer state

/-- What is active lies in nothing that is not. -/
def Moored (chart : Chart) (active : Configuration) : Prop :=
  ∀ state ∈ active, ∀ parent, chart.parent? state = some parent → parent ∈ active

theorem Moored.outer
    {chart : Chart} {active : Configuration} {state outer : StateId}
    (moored : chart.Moored active)
    (formed : chart.WellFormed)
    (isActive : state ∈ active)
    (inside : chart.isInside state outer = true) :
    outer ∈ active := by
  induction state using Nat.strongRecOn with
  | _ state ih =>
      obtain ⟨parent, below, within⟩ := (isInside_iff_parent formed).mp inside
      have held := moored state isActive parent below
      rcases within with rfl | above
      · exact held
      · exact ih parent (formed.parentBefore below) held above

section Finishing

variable {chart : Chart} {active : Configuration} {state outer part : StateId}

theorem Finished.isActive
    (finished : chart.Finished active state) :
    state ∈ active := by
  cases finished <;> assumption

theorem Completed.regions
    (completed : chart.Completed active outer)
    (parallel : chart.isParallel outer = true) :
    ∀ region ∈ chart.regions outer, chart.Completed active region := by
  have kind : chart.kind outer = .parallel := of_decide_eq_true parallel
  cases completed with
  | compound compound => simp [isCompound, kind] at compound
  | parallel _ all => exact all
  | final ended => simp [isFinal, kind] at ended

theorem Finished.regions
    (finished : chart.Finished active outer)
    (parallel : chart.isParallel outer = true) :
    ∀ region ∈ chart.regions outer, chart.Finished active region := by
  have kind : chart.kind outer = .parallel := of_decide_eq_true parallel
  cases finished with
  | compound _ compound => simp [isCompound, kind] at compound
  | parallel _ _ all => exact all
  | final _ ended => simp [isFinal, kind] at ended

theorem Comprises.finished
    (comprises : chart.Comprises outer part)
    (all : ∀ region ∈ chart.regions outer, chart.Finished active region) :
    chart.Finished active part := by
  induction comprises with
  | region _ member => exact all _ member
  | further _ parallel member ih => exact ih.regions parallel _ member

theorem Comprises.trans
    {inner : StateId}
    (first : chart.Comprises outer state)
    (second : chart.Comprises state inner) :
    chart.Comprises outer inner := by
  induction second with
  | region parallel member => exact first.further parallel member
  | further _ parallel member ih => exact ih.further parallel member

theorem Comprises.isActive
    (valid : chart.Valid active)
    (isActive : outer ∈ active)
    (comprises : chart.Comprises outer part) :
    part ∈ active := by
  induction comprises with
  | region parallel member => exact valid.regionsActive _ isActive parallel _ member
  | further _ parallel member ih => exact valid.regionsActive _ ih parallel _ member

/-- If no region of a parallel state is final, and none is missing, only final states complete
by their kind. -/
theorem Completed.final_of_idle
    (ordinary : ∀ outer, chart.isParallel outer = true → chart.regions outer ≠ [] ∧
      ∀ region ∈ chart.regions outer, chart.isFinal region = false)
    (idle : chart.Completed [] state) :
    chart.isFinal state = true := by
  induction idle with
  | compound _ _ childActive => cases childActive
  | @parallel outer parallel _ ih =>
      obtain ⟨regioned, open'⟩ := ordinary outer parallel
      obtain ⟨region, member⟩ := List.exists_mem_of_ne_nil _ regioned
      have isFinal := ih region member
      rw [open' region member] at isFinal
      cases isFinal
  | final isFinal => exact isFinal

theorem Comprises.is_region
    (comprises : chart.Comprises outer part) :
    ∃ parent, chart.isParallel parent = true ∧ part ∈ chart.regions parent := by
  cases comprises with
  | region parallel member => exact ⟨_, parallel, member⟩
  | further _ parallel member => exact ⟨_, parallel, member⟩

variable (formed : chart.WellFormed)

include formed

/-- A state that has completed has finished if all is active that completes by its kind, among
what it comprises and itself. -/
theorem Completed.finished
    (completed : chart.Completed active state)
    (moored : chart.Moored active)
    (idle : ∀ part, part = state ∨ chart.Comprises state part → chart.Completed [] part →
      part ∈ active) :
    chart.Finished active state := by
  induction completed with
  | compound compound below isActive isFinal =>
      exact .compound (moored _ isActive _ (formed.mem_children.mp below)) compound below isActive
        isFinal
  | @parallel outer parallel _ ih =>
      have regions : ∀ region ∈ chart.regions outer, chart.Finished active region := by
        intro region member
        refine ih region member fun part isPart => idle part (.inr ?_)
        have comprises := Comprises.region parallel member
        rcases isPart with rfl | further
        · exact comprises
        · exact comprises.trans further
      refine .parallel ?_ parallel regions
      -- Without regions it completes by its kind, else it is active with any of them.
      cases known : chart.regions outer with
      | nil =>
          refine idle outer (.inl rfl) (.parallel parallel fun region member => ?_)
          rw [known] at member
          cases member
      | cons region others =>
          have member : region ∈ chart.regions outer := known ▸ List.mem_cons_self
          exact moored region (regions region member).isActive outer
            ((mem_regions formed).mp member).1
  | final isFinal => exact .final (idle _ (.inl rfl) (.final isFinal)) isFinal

/-- The regions of a parallel state that has completed have finished exactly if all is active
that it comprises and that completes by its kind. -/
theorem Completed.regions_finished_iff
    (completed : chart.Completed active outer)
    (parallel : chart.isParallel outer = true)
    (moored : chart.Moored active) :
    (∀ region ∈ chart.regions outer, chart.Finished active region) ↔
      ∀ part, chart.Comprises outer part → chart.Completed [] part → part ∈ active := by
  constructor
  · exact fun all part comprises _ => (comprises.finished all).isActive
  · intro idle region member
    refine (completed.regions parallel region member).finished formed moored ?_
    intro part isPart
    have comprises := Comprises.region parallel member
    rcases isPart with rfl | further
    · exact idle part comprises
    · exact idle part (comprises.trans further)

/-- What is active in the end within a state that has finished had finished with it. -/
theorem Finished.within
    {later : Configuration} {inner : StateId}
    (finished : chart.Finished active state)
    (valid : chart.Valid later)
    (grows : ∀ state ∈ active, state ∈ later)
    (isActive : inner ∈ later)
    (within : chart.Within inner state) :
    chart.Finished active inner := by
  have childless : ∀ {state}, chart.isFinal state = true → chart.Within inner state →
      inner = state := by
    intro state isFinal within
    refine within.resolve_right fun inside => ?_
    obtain ⟨child, below, _⟩ := child_toward formed inside
    have leaf : chart.isLeaf state = true := by
      have kind : chart.kind state = .final := of_decide_eq_true isFinal
      simp [isLeaf, kind]
    have member := formed.mem_children.mpr below
    rw [formed.leafChildless leaf] at member
    cases member
  induction finished with
  | @compound state child stateActive compound below childActive childFinal =>
      rcases within with rfl | inside
      · exact .compound stateActive compound below childActive childFinal
      · obtain ⟨toward, towardBelow, towardWithin⟩ := child_toward formed inside
        obtain rfl := valid.siblings_eq formed compound (formed.mem_children.mp below)
          towardBelow (grows child childActive) (valid.withinActive formed isActive towardWithin)
        obtain rfl := childless childFinal towardWithin
        exact .final childActive childFinal
  | @parallel state stateActive parallel all ih =>
      rcases within with rfl | inside
      · exact .parallel stateActive parallel all
      · obtain ⟨toward, towardBelow, towardWithin⟩ := child_toward formed inside
        have towardActive := valid.withinActive formed isActive towardWithin
        exact ih toward ((mem_regions formed).mpr ⟨towardBelow,
          valid.ordinary toward towardActive⟩) towardWithin
  | final held stateFinal =>
      obtain rfl := childless stateFinal within
      exact .final held stateFinal

omit formed in
theorem Finished.completed
    (finished : chart.Finished active state) :
    chart.Completed active state := by
  induction finished with
  | compound _ compound below isActive isFinal => exact .compound compound below isActive isFinal
  | parallel _ parallel _ ih => exact .parallel parallel ih
  | final _ isFinal => exact .final isFinal

end Finishing

end Chart

/-- The parallel states that a climb through these states announces, in order. -/
def Chart.heralded (chart : Chart) (active : Configuration) :
    List StateId → List StateId → List StateId
  | [], _ => []
  | ancestor :: above, announced =>
      if chart.isParallel ancestor && !announced.contains ancestor &&
          chart.hasCompleted active ancestor then
        ancestor :: heralded chart active above (ancestor :: announced)
      else []

namespace Machine

section Heralding

variable {L : Type} {machine : Machine L} {state : StepState} {last ancestor : StateId}
variable {above announced : List StateId} {active : Configuration}

theorem heralded_prefix (chart : Chart) (active : Configuration)
    (above announced : List StateId) :
    chart.heralded active above announced <+: above := by
  induction above generalizing announced with
  | nil => exact List.prefix_rfl
  | cons ancestor above ih =>
      unfold Chart.heralded
      split
      · exact (List.prefix_cons_inj ancestor).mpr (ih _)
      · exact List.nil_prefix

theorem mem_heralded
    {chart : Chart}
    (member : ancestor ∈ chart.heralded active above announced) :
    chart.isParallel ancestor = true ∧ ancestor ∉ announced ∧
      chart.hasCompleted active ancestor = true := by
  induction above generalizing announced with
  | nil => cases member
  | cons first above ih =>
      unfold Chart.heralded at member
      split at member
      · rename_i completes
        rcases List.mem_cons.mp member with rfl | further
        · simpa [and_assoc] using completes
        · obtain ⟨parallel, unannounced, completed⟩ := ih further
          exact ⟨parallel, fun known => unannounced (List.mem_cons_of_mem _ known), completed⟩
      · cases member

/-- A climb announces a state if up to it all is parallel and has completed and nothing has been
announced. -/
theorem heralded_of_line
    {chart : Chart} {outer : StateId}
    (formed : chart.WellFormed)
    (nested : above.Pairwise fun inner outer => chart.isInside inner outer = true)
    (member : outer ∈ above)
    (completes : ∀ ancestor ∈ above, chart.Within ancestor outer →
      chart.isParallel ancestor = true ∧ ancestor ∉ announced ∧
        chart.Completed active ancestor) :
    outer ∈ chart.heralded active above announced := by
  induction above generalizing announced with
  | nil => cases member
  | cons first above ih =>
      obtain ⟨inFirst, nested⟩ := List.pairwise_cons.mp nested
      have around : chart.Within first outer := by
        rcases List.mem_cons.mp member with rfl | further
        · exact .inl rfl
        · exact .inr (inFirst outer further)
      obtain ⟨parallel, unannounced, completed⟩ := completes first List.mem_cons_self around
      unfold Chart.heralded
      rw [if_pos (by simp [parallel, unannounced, (Chart.hasCompleted_iff formed).mpr completed])]
      rcases List.mem_cons.mp member with rfl | further
      · exact List.mem_cons_self
      · refine List.mem_cons_of_mem _ (ih nested further fun ancestor isAbove within => ?_)
        obtain ⟨parallel, unannounced, completed⟩ :=
          completes ancestor (List.mem_cons_of_mem _ isAbove) within
        refine ⟨parallel, fun known => ?_, completed⟩
        rcases List.mem_cons.mp known with rfl | earlier
        · exact Chart.ne_of_inside formed (inFirst ancestor isAbove) rfl
        · exact unannounced earlier

/-- What a climb announces is raised, the nearest first; it gets to the top if it announces
all. -/
theorem climb_heralds
    (machine : Machine L) (last : StateId) (above : List StateId) (state : StepState)
    (announced : List StateId) :
    let heralds := machine.chart.heralded state.active above announced
    let climbed := machine.climb last above state announced
    climbed.announced = heralds.reverse ++ announced ∧
      climbed.state = { state with
        raised := state.raised ++ (heralds.filter (· ≠ Chart.root)).map fun completed =>
          Event.doneState (machine.chart.id completed) .null } ∧
      (climbed.top = none ↔ heralds ≠ above) := by
  induction above generalizing last state announced with
  | nil => simp [climb, Chart.heralded]
  | cons ancestor above ih =>
      unfold climb Chart.heralded
      split
      · obtain ⟨known, raised, top⟩ := ih ancestor (machine.announce ancestor .null state)
          (ancestor :: announced)
        rw [announce_active] at known raised top
        refine ⟨?_, ?_, ?_⟩
        · rw [known, List.reverse_cons, List.append_assoc, List.singleton_append]
        · rw [raised]
          by_cases isRoot : ancestor = Chart.root
          · simp [announce, isRoot]
          · simp [announce, isRoot, StepState.raise]
        · rw [top, ne_eq, ne_eq, List.cons_inj_right]
      · simp

theorem announce_output
    (completed : StateId) (output : Json) :
    (machine.announce completed output state).output = state.output := by
  unfold announce
  split <;> rfl

theorem raised_announce
    (machine : Machine L) (completed : StateId) (output : Json) (state : StepState) :
    ∃ told : List Event,
      (∀ event ∈ told, event = Event.doneState (machine.chart.id completed) output) ∧
        (machine.announce completed output state).raised = state.raised ++ told := by
  unfold announce
  split
  · exact ⟨[], List.forall_mem_nil _, (List.append_nil _).symm⟩
  · exact ⟨[_], fun _ member => List.mem_singleton.mp member, rfl⟩

theorem completeAbove_heralds
    (machine : Machine L) (last : StateId) (above : List StateId) (output : Option Json)
    (state : StepState) (announced : List StateId) :
    let heralds := machine.chart.heralded state.active above announced
    let completed := machine.completeAbove last above output state announced
    completed.2 = heralds.reverse ++ announced ∧
      completed.1.raised = state.raised ++
        (heralds.filter (· ≠ Chart.root)).map (fun completed =>
          Event.doneState (machine.chart.id completed) .null) ∧
      (heralds = above → completed.1.done = true) ∧
      (heralds ≠ above →
        completed.1.done = state.done ∧ completed.1.output = state.output) := by
  intro heralds completed
  obtain ⟨known, climbed, top⟩ := climb_heralds machine last above state announced
  refine ⟨announced_completeAbove.trans known, ?_, fun all => ?_, fun short => ?_⟩
  · simp only [completed, completeAbove]
    split
    · rw [climbed]
    · rw [climbed]
  · exact finished_completeAbove.mpr (.inr fun low => top.mp low all)
  · simp only [completed, completeAbove, top.mpr short, climbed, and_self]

end Heralding

section Completing

variable {L : Type} {machine : Machine L} {reached parent : StateId} {state : StepState}
variable {active : Configuration} {announced : List StateId}
variable (formed : machine.chart.WellFormed)
variable (below : machine.chart.parent? reached = some parent)

include formed below

theorem rising_nested :
    (machine.chart.rising reached).Pairwise fun inner outer =>
      machine.chart.isInside inner outer = true := by
  rw [rising_eq formed below]
  split <;> exact Chart.ancestors_nested formed

theorem inside_of_rising
    {above : StateId}
    (rises : above ∈ machine.chart.rising reached) :
    machine.chart.isInside reached above = true := by
  rw [rising_eq formed below] at rises
  split at rises
  · exact (Chart.isInside_iff_mem formed).mpr rises
  · exact Chart.inside_trans formed (Chart.inside_of_parent formed below)
      ((Chart.isInside_iff_mem formed).mpr rises)

/-- A climb announces a parallel root exactly if it gets to the top. -/
theorem root_heralded_iff
    (parallel : machine.chart.isParallel Chart.root = true) :
    Chart.root ∈ machine.chart.heralded active (machine.chart.rising reached) announced ↔
      machine.chart.heralded active (machine.chart.rising reached) announced =
        machine.chart.rising reached := by
  constructor
  · intro member
    obtain ⟨rest, split⟩ := heralded_prefix machine.chart active (machine.chart.rising reached)
      announced
    cases rest with
    | nil => rwa [List.append_nil] at split
    | cons further rest =>
        -- Nothing lies above the root.
        have nested := rising_nested formed below
        rw [← split] at nested
        have inside := (List.pairwise_append.mp nested).2.2 _ member further List.mem_cons_self
        rw [Chart.not_root_inside formed] at inside
        cases inside
  · intro all
    rw [all, rising_eq formed below]
    have notRoot : ∀ {child above}, machine.chart.parent? child = some above →
        Chart.root ∈ machine.chart.ancestors child := by
      intro child above childBelow
      refine (Chart.isInside_iff_mem formed).mp
        (Chart.inside_root formed (Chart.parent_in_range childBelow) ?_)
      rintro rfl
      rw [formed.rootOnTop] at childBelow
      cases childBelow
    split
    · exact notRoot below
    · rename_i ordinary
      have beneath : parent ≠ Chart.root := by
        rintro rfl
        exact ordinary parallel
      obtain ⟨above, further⟩ := formed.parented
        (Nat.lt_trans (formed.parentBefore below) (Chart.parent_in_range below)) beneath
      exact notRoot further

/-- Once a final state has been entered its parent is announced if that is compound, then the
parallel states that the climb announces; the machine is done once the climb gets to the top. -/
theorem complete_heralds
    (event : Event) (state : StepState) (announced : List StateId) :
    let heralds := machine.chart.heralded state.active (machine.chart.rising reached) announced
    let completed := machine.complete reached event state announced
    completed.2 = heralds.reverse ++ announced ∧
      (∃ told : List Event,
        (∀ raised ∈ told, machine.chart.isCompound parent = true ∧
          ∃ output, raised = Event.doneState (machine.chart.id parent) output) ∧
        completed.1.raised = state.raised ++ told ++
          (heralds.filter (· ≠ Chart.root)).map fun completed =>
            Event.doneState (machine.chart.id completed) .null) ∧
      (heralds = machine.chart.rising reached → completed.1.done = true) ∧
      (heralds ≠ machine.chart.rising reached →
        completed.1.done = state.done ∧ completed.1.output = state.output) := by
  have ancestors := Chart.ancestors_of_parent formed below
  unfold complete Chart.rising
  rw [ancestors]
  dsimp only
  generalize (machine.conduct reached).output.map (fun make => make state.context event) = output
  split
  · obtain ⟨known, raised, top, short⟩ := completeAbove_heralds machine reached
      (parent :: machine.chart.ancestors parent) output state announced
    refine ⟨known, ⟨[], List.forall_mem_nil _, ?_⟩, top, short⟩
    rw [raised, List.append_nil]
  · split
    · rename_i compound
      obtain ⟨known, raised, top, short⟩ := completeAbove_heralds machine reached
        (machine.chart.ancestors parent) output
        (machine.announce parent (output.getD .null) state) announced
      rw [announce_active] at known raised top short
      obtain ⟨told, isTold, announcing⟩ := raised_announce machine parent (output.getD .null) state
      refine ⟨known, ⟨told, fun event member => ⟨compound, _, isTold event member⟩, ?_⟩, top, ?_⟩
      · rw [raised, announcing]
      · intro different
        obtain ⟨sameDone, sameOutput⟩ := short different
        exact ⟨sameDone.trans (announce_done parent _),
          sameOutput.trans (announce_output parent _)⟩
    · obtain ⟨known, raised, top, short⟩ := completeAbove_heralds machine reached
        (machine.chart.ancestors parent) output state announced
      refine ⟨known, ⟨[], List.forall_mem_nil _, ?_⟩, top, short⟩
      rw [raised, List.append_nil]

omit below in
/-- A parallel state that completes as a final state is entered is announced at once. -/
theorem heralded_of_newly
    {outer : StateId}
    (known : ∀ state ∈ announced, machine.chart.Completed active state)
    (parallel : machine.chart.isParallel outer = true)
    (before : ¬ machine.chart.Completed active outer)
    (completed : machine.chart.Completed (active.insert reached) outer) :
    machine.chart.isInside reached outer = true ∧
      outer ∈ machine.chart.heralded (active.insert reached) (machine.chart.rising reached)
        announced := by
  obtain ⟨parent, below, ordinary, within, line⟩ := completed.newly formed before
  have further : machine.chart.isInside parent outer = true := by
    refine within.resolve_left ?_
    rintro rfl
    rw [parallel] at ordinary
    cases ordinary
  have rises : machine.chart.rising reached = machine.chart.ancestors parent := by
    rw [rising_eq formed below, if_neg (by simp [ordinary])]
  refine ⟨Chart.inside_trans formed (Chart.inside_of_parent formed below) further, ?_⟩
  rw [rises]
  refine heralded_of_line formed (Chart.ancestors_nested formed)
    ((Chart.isInside_iff_mem formed).mp further) fun above isAbove aboveWithin => ?_
  obtain ⟨parallel, incomplete, completes⟩ := line above isAbove aboveWithin
  exact ⟨parallel, fun isKnown => incomplete (known above isKnown), completes⟩

end Completing

section Growing

variable {L : Type} {machine : Machine L} {reached : StateId} {event : Event}
variable {state : StepState} {announced : List StateId}

theorem complete_raises :
    state.raised <+: (machine.complete reached event state announced).1.raised := by
  have above : ∀ (before : StepState) (rest : List StateId) (output : Option Json),
      state.raised <+: before.raised →
      state.raised <+:
        (machine.completeAbove reached rest output before announced).1.raised :=
    fun before rest output earlier => earlier.trans
      ⟨_, (completeAbove_heralds machine reached rest output before announced).2.1.symm⟩
  unfold complete
  dsimp only
  split
  · exact List.prefix_rfl
  · split
    · exact above _ _ _ List.prefix_rfl
    · refine above _ _ _ ?_
      split
      · obtain ⟨told, _, announcing⟩ := raised_announce machine _ _ state
        exact ⟨told, announcing.symm⟩
      · exact List.prefix_rfl

theorem complete_announced :
    ∀ ancestor ∈ (machine.complete reached event state announced).2,
      ancestor ∈ announced ∨ machine.chart.hasCompleted state.active ancestor = true := by
  unfold complete
  dsimp only
  split
  · exact fun _ member => .inl member
  · split
    · rw [announced_completeAbove]
      exact climb_announced
    · rw [announced_completeAbove]
      intro ancestor member
      refine (climb_announced ancestor member).imp_right fun completed => ?_
      split at completed
      · rwa [announce_active] at completed
      · exact completed

end Growing

end Machine

end Statechart
