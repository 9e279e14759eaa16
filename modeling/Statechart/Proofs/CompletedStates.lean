import Statechart.Interpreter.Completion
import Statechart.Proofs.Validity

/-!
# Completed states

Whether a state has completed is a matter of all that is active below it.  The engine does
not ask for it again and again: it climbs from each final state as this is entered.  Entering
a final state completes exactly those states around it that the climb can find: if it
completes the root, the climb goes to the top.
-/

namespace Statechart

namespace Chart

/-- The state has completed while these states are active. -/
inductive Completed (chart : Chart) (active : Configuration) : StateId → Prop where
  | compound {state child : StateId} :
      chart.isCompound state = true → child ∈ chart.children state → child ∈ active →
      chart.isFinal child = true → Completed chart active state
  | parallel {state : StateId} :
      chart.isParallel state = true →
      (∀ region ∈ chart.regions state, Completed chart active region) →
      Completed chart active state
  | final {state : StateId} : chart.isFinal state = true → Completed chart active state

section Deciding

variable {chart : Chart} {active : Configuration} {state : StateId}

theorem completed_of_completedWithin
    {fuel : Nat}
    (completed : chart.completedWithin active fuel state = true) :
    chart.Completed active state := by
  induction fuel generalizing state with
  | zero => cases completed
  | succ fuel ih =>
      unfold completedWithin at completed
      split at completed
      · rename_i initial kind
        obtain ⟨child, below, both⟩ := List.any_eq_true.mp completed
        obtain ⟨isActive, isFinal⟩ := Bool.and_eq_true_iff.mp both
        exact .compound (by simp [isCompound, kind]) below
          (List.contains_iff_mem.mp isActive) isFinal
      · rename_i kind
        exact .parallel (by simp [isParallel, kind])
          fun region below => ih (List.all_eq_true.mp completed region below)
      · rename_i kind
        exact .final (by simp [isFinal, kind])
      · cases completed
      · cases completed

theorem Completed.in_range
    (completed : chart.Completed active state) :
    state < chart.size := by
  by_contra beyond
  have atomic := kind_beyond (Nat.le_of_not_lt beyond)
  cases completed with
  | compound compound => simp [isCompound, atomic] at compound
  | parallel parallel => simp [isParallel, atomic] at parallel
  | final final => simp [isFinal, atomic] at final

variable (formed : chart.WellFormed)

include formed

/-- There are no more levels below a state than positions behind it. -/
theorem Completed.completedWithin
    {fuel : Nat}
    (completed : chart.Completed active state)
    (enough : chart.size < state + fuel) :
    chart.completedWithin active fuel state = true := by
  induction fuel generalizing state with
  | zero => exact absurd completed.in_range (Nat.lt_asymm enough)
  | succ fuel ih =>
      cases completed with
      | @compound _ child compound below isActive isFinal =>
          cases kind : chart.kind state with
          | compound initial =>
              simp only [Chart.completedWithin, kind]
              exact List.any_eq_true.mpr ⟨child, below, by simp [isActive, isFinal]⟩
          | atomic => simp [isCompound, kind] at compound
          | parallel => simp [isCompound, kind] at compound
          | final => simp [isCompound, kind] at compound
          | history => simp [isCompound, kind] at compound
      | parallel parallel all =>
          have kind : chart.kind state = .parallel := of_decide_eq_true parallel
          simp only [Chart.completedWithin, kind]
          refine List.all_eq_true.mpr fun region member => ih (all region member) ?_
          have behind : Nat.succ state ≤ region :=
            formed.parentBefore ((mem_regions formed).mp member).1
          omega
      | final isFinal =>
          have kind : chart.kind state = .final := of_decide_eq_true isFinal
          simp only [Chart.completedWithin, kind]

/-- Looking far enough down tells whether a state has completed. -/
theorem hasCompleted_iff :
    chart.hasCompleted active state = true ↔ chart.Completed active state := by
  constructor
  · exact completed_of_completedWithin
  · exact fun completed => completed.completedWithin formed (by omega)

end Deciding

section Growing

variable {chart : Chart} {active other : Configuration} {state added outer parent : StateId}

/-- The more is active, the more has completed; only final states count. -/
theorem Completed.mono
    (completed : chart.Completed active state)
    (finals : ∀ child ∈ active, chart.isFinal child = true → child ∈ other) :
    chart.Completed other state := by
  induction completed with
  | compound compound below isActive isFinal =>
      exact .compound compound below (finals _ isActive isFinal) isFinal
  | parallel parallel _ ih => exact .parallel parallel ih
  | final isFinal => exact .final isFinal

/-- A state that is not final completes nothing. -/
theorem completed_insert_iff
    (ordinary : chart.isFinal added = false) :
    chart.Completed (active.insert added) state ↔ chart.Completed active state := by
  constructor
  · intro completed
    refine completed.mono fun child member isFinal => ?_
    rcases StateSet.mem_insert.mp member with rfl | earlier
    · rw [ordinary] at isFinal
      cases isFinal
    · exact earlier
  · exact fun completed => completed.mono fun child member _ =>
      StateSet.mem_insert.mpr (.inr member)

variable (formed : chart.WellFormed)

include formed

/-- What lies above a state of a region, but inside of the state that this is a region of,
lies in the region. -/
theorem beside_region
    {region above : StateId}
    (regionBelow : chart.parent? region = some outer)
    (within : chart.Within state region)
    (isAbove : above ∈ chart.ancestors state)
    (inside : chart.isInside above outer = true) :
    chart.Within above region := by
  have around := (isInside_iff_mem formed).mpr isAbove
  rcases within_or_inside formed within (.inr around) with regionWithin | aboveInside
  · exact within_of_inside_parent formed regionBelow regionWithin inside
  · exact .inr aboveInside

/-- A final state that completes a state which had not completed before does so level by
level: its parent is not parallel, and all that lies above the parent up to that state is
parallel and completes with it. -/
theorem Completed.newly
    (completed : chart.Completed (active.insert added) outer)
    (before : ¬ chart.Completed active outer) :
    ∃ parent, chart.parent? added = some parent ∧ chart.isParallel parent = false ∧
      chart.Within parent outer ∧
      ∀ above ∈ chart.ancestors parent, chart.Within above outer →
        chart.isParallel above = true ∧ ¬ chart.Completed active above ∧
          chart.Completed (active.insert added) above := by
  induction completed with
  | @compound outer child compound below isActive isFinal =>
      have below := formed.mem_children.mp below
      rcases StateSet.mem_insert.mp isActive with rfl | earlier
      · refine ⟨outer, below, ?_, .inl rfl, ?_⟩
        · cases kind : chart.kind outer <;> simp_all [isCompound, isParallel]
        · intro above member within
          have inside := (isInside_iff_mem formed).mpr member
          rw [not_inside_of_within formed within] at inside
          cases inside
      · exact absurd (.compound compound (formed.mem_children.mpr below) earlier isFinal) before
  | @parallel outer parallel all ih =>
      have fresh : ∃ region ∈ chart.regions outer, ¬ chart.Completed active region := by
        by_contra none
        push Not at none
        exact before (.parallel parallel none)
      obtain ⟨region, member, incomplete⟩ := fresh
      obtain ⟨parent, below, ordinary, within, line⟩ := ih region member incomplete
      have regionBelow := ((mem_regions formed).mp member).1
      have regionInside := inside_of_parent formed regionBelow
      refine ⟨parent, below, ordinary, .inr (within_inside_trans formed within regionInside), ?_⟩
      intro above isAbove aboveWithin
      rcases aboveWithin with rfl | inside
      · exact ⟨parallel, before, .parallel parallel all⟩
      · exact line above isAbove (beside_region formed regionBelow within isAbove inside)
  | final isFinal => exact absurd (.final isFinal) before

/-- A final state that alone makes a state complete does so level by level: up to that state
all is parallel and has completed, its parent perhaps excepted, which then is not parallel. -/
theorem Completed.solely
    (completed : chart.Completed (active.insert added) outer)
    (isFinal : chart.isFinal added = true)
    (inside : chart.isInside added outer = true)
    (others : ∀ child ∈ active, chart.isFinal child = false) :
    ∃ parent, chart.parent? added = some parent ∧
      ∀ above ∈ chart.ancestors added, chart.Within above outer →
        chart.isParallel above = true ∧ chart.Completed (active.insert added) above ∨
          above = parent ∧ chart.isParallel above = false := by
  have onlyParent : ∀ {parent}, chart.parent? added = some parent →
      ∀ above ∈ chart.ancestors added, chart.Within above parent → above = parent := by
    intro parent below above isAbove within
    have around := (isInside_iff_mem formed).mpr isAbove
    exact within_antisymm formed within (parent_within formed below around)
  induction completed with
  | @compound outer child compound below isActive childFinal =>
      rcases StateSet.mem_insert.mp isActive with rfl | earlier
      · have below := formed.mem_children.mp below
        refine ⟨outer, below, fun above isAbove within => .inr ?_⟩
        obtain rfl := onlyParent below above isAbove within
        refine ⟨rfl, ?_⟩
        cases kind : chart.kind above <;> simp_all [isCompound, isParallel]
      · rw [others child earlier] at childFinal
        cases childFinal
  | @parallel outer parallel all ih =>
      obtain ⟨region, below, within⟩ := child_toward formed inside
      rcases within with rfl | regionInside
      · refine ⟨outer, below, fun above isAbove within => .inl ?_⟩
        obtain rfl := onlyParent below above isAbove within
        exact ⟨parallel, .parallel parallel all⟩
      · have member : region ∈ chart.regions outer :=
          (mem_regions formed).mpr ⟨below, outer_ordinary formed regionInside⟩
        obtain ⟨parent, addedBelow, line⟩ := ih region member regionInside
        refine ⟨parent, addedBelow, fun above isAbove aboveWithin => ?_⟩
        rcases aboveWithin with rfl | aboveInside
        · exact .inl ⟨parallel, .parallel parallel all⟩
        · exact line above isAbove
            (beside_region formed below (.inr regionInside) isAbove aboveInside)
  | @final outer outerFinal =>
      obtain ⟨child, below, _⟩ := child_toward formed inside
      have kind : chart.kind outer = .final := of_decide_eq_true outerFinal
      rcases parent_kind formed below with ⟨initial, otherwise⟩ | otherwise
      · rw [kind] at otherwise
        cases otherwise
      · rw [kind] at otherwise
        cases otherwise

end Growing

section Filling

variable {chart : Chart} {active : Configuration} {state : StateId}

/-- In a valid configuration an active state completes only if a final state is active,
unless there are parallel states without regions. -/
theorem Completed.has_final
    (regioned : chart.Regioned)
    (valid : chart.Valid active)
    (completed : chart.Completed active state)
    (isActive : state ∈ active) :
    ∃ child ∈ active, chart.isFinal child = true := by
  induction completed with
  | compound _ _ childActive childFinal => exact ⟨_, childActive, childFinal⟩
  | @parallel outer parallel _ ih =>
      obtain ⟨region, member⟩ := List.exists_mem_of_ne_nil _ (regioned outer parallel)
      exact ih region member (valid.regionsActive outer isActive parallel region member)
  | final isFinal => exact ⟨_, isActive, isFinal⟩

end Filling

/-- The states that may complete together with the parent of a final state when this is
entered, the nearest first: the parent itself if it is parallel, and all above. -/
def rising (chart : Chart) (reached : StateId) : List StateId :=
  match chart.ancestors reached with
  | [] => []
  | parent :: above => if chart.isParallel parent then parent :: above else above

/-- What is known while states are entered one after another: who was announced has
completed, the machine is not done unless the root has completed, and it has not completed
if the machine is not done, or could not help it as no final state has been entered yet. -/
structure Tracked (chart : Chart) (active : Configuration) (announced : List StateId)
    (done : Bool) : Prop where
  known : ∀ state ∈ announced, chart.Completed active state
  finished : done = true → chart.Completed active root
  unfinished : done = false → ¬ chart.Completed active root ∨
    chart.Completed [] root ∧ (∀ child ∈ active, chart.isFinal child = false) ∧ announced = []

theorem Tracked.insert
    {chart : Chart} {active : Configuration} {announced : List StateId} {done : Bool}
    {state : StateId}
    (tracked : chart.Tracked active announced done)
    (ordinary : chart.isFinal state = false) :
    chart.Tracked (active.insert state) announced done where
  known other member := (completed_insert_iff ordinary).mpr (tracked.known other member)
  finished done := (completed_insert_iff ordinary).mpr (tracked.finished done)
  unfinished undone := by
    rw [completed_insert_iff ordinary]
    refine (tracked.unfinished undone).imp_right ?_
    rintro ⟨empty, others, nobody⟩
    refine ⟨empty, fun child member => ?_, nobody⟩
    rcases StateSet.mem_insert.mp member with rfl | earlier
    · exact ordinary
    · exact others child earlier

/-- What is tracked is exact as soon as a final state is active where one is needed. -/
theorem Tracked.exact
    {chart : Chart} {active : Configuration} {announced : List StateId} {done : Bool}
    (tracked : chart.Tracked active announced done)
    (enough : chart.Completed [] root → ∃ child ∈ active, chart.isFinal child = true) :
    done = true ↔ chart.Completed active root := by
  refine ⟨tracked.finished, fun completed => ?_⟩
  by_contra undone
  rcases tracked.unfinished (Bool.not_eq_true _ ▸ undone) with open' | ⟨empty, others, _⟩
  · exact open' completed
  · obtain ⟨child, member, isFinal⟩ := enough empty
    rw [others child member] at isFinal
    cases isFinal

end Chart

namespace Machine

section Climbing

variable {L : Type} {machine : Machine L} {last : StateId} {above announced : List StateId}
variable {state : StepState}

@[simp]
theorem announce_done
    (completed : StateId) (output : Json) :
    (machine.announce completed output state).done = state.done := by
  unfold announce
  split <;> rfl

@[simp]
theorem announce_active
    (completed : StateId) (output : Json) :
    (machine.announce completed output state).active = state.active := by
  unfold announce
  split <;> rfl

@[simp]
theorem climb_done : (machine.climb last above state announced).state.done = state.done := by
  induction above generalizing last state announced with
  | nil => rfl
  | cons ancestor above ih =>
      unfold climb
      split
      · exact ih.trans (announce_done ancestor .null)
      · rfl

theorem climb_announced :
    ∀ ancestor ∈ (machine.climb last above state announced).announced,
      ancestor ∈ announced ∨ machine.chart.hasCompleted state.active ancestor = true := by
  induction above generalizing last state announced with
  | nil => exact fun _ member => .inl member
  | cons ancestor above ih =>
      unfold climb
      split
      · rename_i completes
        intro other member
        rcases ih other member with here | completed
        · rcases List.mem_cons.mp here with rfl | earlier
          · exact .inr (Bool.and_eq_true_iff.mp completes).2
          · exact .inl earlier
        · exact .inr (announce_active ancestor .null ▸ completed)
      · exact fun _ member => .inl member

theorem completed_of_climb
    (top : (machine.climb last above state announced).top ≠ none) :
    ∀ ancestor ∈ above, machine.chart.hasCompleted state.active ancestor = true := by
  induction above generalizing last state announced with
  | nil => simp
  | cons ancestor above ih =>
      unfold climb at top
      split at top
      · rename_i completes
        rintro other (_ | ⟨_, member⟩)
        · exact (Bool.and_eq_true_iff.mp completes).2
        · exact announce_active ancestor .null ▸ ih top other member
      · exact absurd rfl top

theorem climb_of_completed
    (distinct : above.Nodup)
    (completed : ∀ ancestor ∈ above, machine.chart.isParallel ancestor = true ∧
      ancestor ∉ announced ∧ machine.chart.hasCompleted state.active ancestor = true) :
    (machine.climb last above state announced).top ≠ none := by
  induction above generalizing last state announced with
  | nil => simp [climb]
  | cons ancestor above ih =>
      obtain ⟨parallel, fresh, here⟩ := completed ancestor List.mem_cons_self
      obtain ⟨notAbove, distinct⟩ := List.nodup_cons.mp distinct
      unfold climb
      rw [if_pos (by simp [parallel, fresh, here])]
      refine ih distinct fun other member => ?_
      obtain ⟨parallel, fresh, there⟩ := completed other (List.mem_cons_of_mem _ member)
      refine ⟨parallel, ?_, ?_⟩
      · rw [List.mem_cons]
        rintro (rfl | known)
        · exact notAbove member
        · exact fresh known
      · rwa [announce_active]

theorem finished_completeAbove
    {output : Option Json} :
    (machine.completeAbove last above output state announced).1.done = true ↔
      state.done = true ∨ (machine.climb last above state announced).top ≠ none := by
  unfold completeAbove
  dsimp only
  split
  · rename_i low
    simp [low]
  · rename_i top high
    simp [high]

theorem announced_completeAbove
    {output : Option Json} :
    (machine.completeAbove last above output state announced).2 =
      (machine.climb last above state announced).announced := by
  unfold completeAbove
  dsimp only
  split <;> rfl

end Climbing

section Completing

variable {L : Type} {machine : Machine L} {reached parent : StateId} {event : Event}
variable {state : StepState} {announced : List StateId}
variable (formed : machine.chart.WellFormed)
variable (below : machine.chart.parent? reached = some parent)

include formed below

/-- Drawing the consequences of entering a final state is climbing from it, after its parent
has perhaps been announced. -/
theorem complete_eq
    (event : Event) (state : StepState) (announced : List StateId) :
    ∃ before : StepState, before.active = state.active ∧ before.done = state.done ∧
      ∃ output, machine.complete reached event state announced =
        machine.completeAbove reached (machine.chart.rising reached) output before
          announced := by
  have ancestors := Chart.ancestors_of_parent formed below
  unfold complete Chart.rising
  rw [ancestors]
  dsimp only
  split
  · exact ⟨state, rfl, rfl, _, rfl⟩
  · split
    · exact ⟨_, announce_active parent _, announce_done parent _, _, rfl⟩
    · exact ⟨state, rfl, rfl, _, rfl⟩

theorem rising_eq :
    machine.chart.rising reached =
      if machine.chart.isParallel parent then machine.chart.ancestors reached
      else machine.chart.ancestors parent := by
  unfold Chart.rising
  rw [Chart.ancestors_of_parent formed below]

theorem rising_nodup : (machine.chart.rising reached).Nodup := by
  have distinct : ∀ state, (machine.chart.ancestors state).Nodup := fun state =>
    (Chart.ancestors_nested formed).imp fun inside same => by
      subst same
      rw [Chart.not_inside_self formed] at inside
      cases inside
  rw [rising_eq formed below]
  split <;> exact distinct _

/-- Once all states to which a climb goes have completed, so has the root. -/
theorem completed_of_rising
    {active : Configuration}
    (isFinal : machine.chart.isFinal reached = true)
    (isActive : reached ∈ active)
    (all : ∀ above ∈ machine.chart.rising reached, machine.chart.Completed active above) :
    machine.chart.Completed active Chart.root := by
  by_cases isRising : Chart.root ∈ machine.chart.rising reached
  · exact all _ isRising
  · have notRoot : reached ≠ Chart.root := by
      rintro rfl
      rw [formed.rootOnTop] at below
      cases below
    have member := (Chart.isInside_iff_mem formed).mp
      (Chart.inside_root formed (Chart.parent_in_range below) notRoot)
    rw [rising_eq formed below] at isRising
    split at isRising
    · exact absurd member isRising
    · rename_i ordinary
      rw [Chart.ancestors_of_parent formed below] at member
      rcases List.mem_cons.mp member with rfl | above
      · rcases Chart.parent_kind formed below with ⟨initial, kind⟩ | kind
        · exact .compound (by simp [Chart.isCompound, kind]) (formed.mem_children.mpr below)
            isActive isFinal
        · simp [Chart.isParallel, kind] at ordinary
      · exact absurd above isRising

theorem rising_of_completed
    {active : Configuration} {done : Bool}
    (isFinal : machine.chart.isFinal reached = true)
    (tracked : machine.chart.Tracked active announced done)
    (undone : done = false)
    (completed : machine.chart.Completed (active.insert reached) Chart.root) :
    ∀ above ∈ machine.chart.rising reached, machine.chart.isParallel above = true ∧
      above ∉ announced ∧ machine.chart.Completed (active.insert reached) above := by
  have inRange := Chart.parent_in_range below
  have beneathRoot : ∀ {state above}, state < machine.chart.size →
      above ∈ machine.chart.ancestors state → machine.chart.Within above Chart.root :=
    fun inRange isAbove => Chart.within_root formed
      (Nat.lt_trans (Chart.ancestors_before formed _ isAbove) inRange)
  rcases tracked.unfinished undone with before | ⟨_, others, nobody⟩
  · obtain ⟨parent, below, ordinary, _, line⟩ := completed.newly formed before
    have parentInRange := Nat.lt_trans (formed.parentBefore below) inRange
    rw [rising_eq formed below, if_neg (by simp [ordinary])]
    intro above isAbove
    obtain ⟨parallel, incomplete, completes⟩ :=
      line above isAbove (beneathRoot parentInRange isAbove)
    exact ⟨parallel, fun known => incomplete (tracked.known above known), completes⟩
  · have notRoot : reached ≠ Chart.root := by
      rintro rfl
      rw [formed.rootOnTop] at below
      cases below
    obtain ⟨parent, below, line⟩ := completed.solely formed isFinal
      (Chart.inside_root formed inRange notRoot) others
    subst nobody
    rw [rising_eq formed below]
    intro above isAbove
    split at isAbove
    · rename_i parallel
      rcases line above isAbove (beneathRoot inRange isAbove) with
        ⟨parallel, completes⟩ | ⟨rfl, ordinary⟩
      · exact ⟨parallel, List.not_mem_nil, completes⟩
      · rw [parallel] at ordinary
        cases ordinary
    · have isAncestor : above ∈ machine.chart.ancestors reached := by
        rw [Chart.ancestors_of_parent formed below]
        exact List.mem_cons_of_mem _ isAbove
      rcases line above isAncestor (beneathRoot inRange isAncestor) with
        ⟨parallel, completes⟩ | ⟨rfl, _⟩
      · exact ⟨parallel, List.not_mem_nil, completes⟩
      · exact absurd (Chart.ancestors_before formed above isAbove) (Nat.lt_irrefl above)

/-- Once a final state has been entered and its consequences are drawn, it is tracked
whether the root has completed. -/
theorem complete_tracked
    {active : Configuration} {done : Bool}
    (isFinal : machine.chart.isFinal reached = true)
    (tracked : machine.chart.Tracked active announced done)
    (sameActive : state.active = active.insert reached)
    (sameDone : state.done = done) :
    machine.chart.Tracked state.active
      (machine.complete reached event state announced).2
      (machine.complete reached event state announced).1.done := by
  obtain ⟨before, beforeActive, beforeDone, output, same⟩ :=
    complete_eq formed below event state announced
  have grows : ∀ {state}, machine.chart.Completed active state →
      machine.chart.Completed before.active state := by
    intro state completed
    refine completed.mono fun child member _ => ?_
    rw [beforeActive, sameActive]
    exact StateSet.mem_insert.mpr (.inr member)
  rw [same, ← beforeActive]
  constructor
  · intro known member
    rw [announced_completeAbove] at member
    rcases climb_announced known member with earlier | completed
    · exact grows (tracked.known known earlier)
    · exact (Chart.hasCompleted_iff formed).mp completed
  · intro finished
    rcases finished_completeAbove.mp finished with earlier | top
    · exact grows (tracked.finished (by rw [← sameDone, ← beforeDone]; exact earlier))
    · refine completed_of_rising formed below isFinal ?_ fun above member => ?_
      · rw [beforeActive, sameActive]
        exact StateSet.mem_insert.mpr (.inl rfl)
      · exact (Chart.hasCompleted_iff formed).mp (completed_of_climb top above member)
  · intro unfinished
    refine .inl fun completed => ?_
    rw [← Bool.not_eq_true, finished_completeAbove, not_or, Bool.not_eq_true] at unfinished
    obtain ⟨earlier, low⟩ := unfinished
    have undone : done = false := by rw [← sameDone, ← beforeDone, earlier]
    rw [beforeActive, sameActive] at completed
    have path := rising_of_completed formed below isFinal tracked undone completed
    refine low (climb_of_completed (rising_nodup formed below) fun above member => ?_)
    obtain ⟨parallel, fresh, completes⟩ := path above member
    refine ⟨parallel, fresh, (Chart.hasCompleted_iff formed).mpr ?_⟩
    rwa [beforeActive, sameActive]

end Completing

end Machine

end Statechart
