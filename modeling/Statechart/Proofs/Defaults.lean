import Statechart.Proofs.EntryEnds

/-!
# What is entered by default

A compound state that is entered anew brings its initial child, a parallel state all its
regions, and so on down to the leaves.  Planning a state in which nothing is planned yet
adds exactly these states, whatever records there are; so does planning several states that
lie apart.  A machine starts in what its root brings.
-/

namespace Statechart.Chart

/-- The state is `outer`, or it becomes active when `outer` is entered and nothing is asked
of what lies in it. -/
inductive ByDefault (chart : Chart) (state : StateId) : StateId → Prop where
  | here : ByDefault chart state state
  | initial {outer initial : StateId} :
      chart.kind outer = .compound initial → ByDefault chart state initial →
      ByDefault chart state outer
  | region {outer region : StateId} :
      chart.isParallel outer = true → region ∈ chart.regions outer →
      ByDefault chart state region → ByDefault chart state outer

/-- No state lies in two of these states. -/
def Separate (chart : Chart) (states : List StateId) : Prop :=
  ∀ first ∈ states, ∀ second ∈ states, ∀ state,
    chart.Within state first → chart.Within state second → first = second

/-- Nothing in the state is planned yet, or else all that it brings is. -/
def Ready (chart : Chart) (plan : StateSet) (outer : StateId) : Prop :=
  (∀ state ∈ plan, ¬ chart.Within state outer) ∨
    ∀ state, chart.ByDefault state outer → state ∈ plan

section Kinds

variable {chart : Chart} {state outer : StateId}

theorem ByDefault.within
    (formed : chart.WellFormed)
    (brought : chart.ByDefault state outer) :
    chart.Within state outer := by
  induction brought with
  | here => exact .inl rfl
  | initial kind _ ih =>
      exact .inr (within_inside_trans formed ih
        (inside_of_parent formed ((mem_regions formed).mp (formed.initialBelow kind)).1))
  | region _ isRegion _ ih =>
      exact .inr (within_inside_trans formed ih
        (inside_of_parent formed ((mem_regions formed).mp isRegion).1))

theorem ByDefault.trans
    {middle : StateId}
    (below : chart.ByDefault state middle)
    (above : chart.ByDefault middle outer) :
    chart.ByDefault state outer := by
  induction above with
  | here => exact below
  | initial kind _ ih => exact .initial kind ih
  | region isParallel isRegion _ ih => exact .region isParallel isRegion ih

theorem byDefault_leaf
    (leaf : chart.isLeaf outer = true) :
    chart.ByDefault state outer ↔ state = outer := by
  constructor
  · intro brought
    cases brought with
    | here => rfl
    | initial kind _ => simp [isLeaf, kind] at leaf
    | region isParallel _ _ =>
        have kind : chart.kind outer = .parallel := by simpa [Chart.isParallel] using isParallel
        simp [isLeaf, kind] at leaf
  · rintro rfl
    exact .here

theorem byDefault_compound
    {initial : StateId}
    (kind : chart.kind outer = .compound initial) :
    chart.ByDefault state outer ↔ state = outer ∨ chart.ByDefault state initial := by
  constructor
  · intro brought
    cases brought with
    | here => exact .inl rfl
    | initial otherKind below =>
        obtain rfl := NodeKind.compound.inj (kind.symm.trans otherKind)
        exact .inr below
    | region isParallel _ _ => simp [Chart.isParallel, kind] at isParallel
  · rintro (rfl | below)
    · exact .here
    · exact .initial kind below

theorem byDefault_parallel
    (kind : chart.kind outer = .parallel) :
    chart.ByDefault state outer ↔
      state = outer ∨ ∃ region ∈ chart.regions outer, chart.ByDefault state region := by
  constructor
  · intro brought
    cases brought with
    | here => exact .inl rfl
    | initial otherKind _ => simp [kind] at otherKind
    | region _ isRegion below => exact .inr ⟨_, isRegion, below⟩
  · rintro (rfl | ⟨region, isRegion, below⟩)
    · exact .here
    · exact .region (by simp [isParallel, kind]) isRegion below

end Kinds

section Planting

variable {chart : Chart} (formed : chart.WellFormed) {records : HistoryRecords}
variable {before after : StateSet} {outer : StateId}

theorem ready_nil : chart.Ready [] outer :=
  .inl fun _ member => absurd member List.not_mem_nil

include formed

theorem regions_apart (parallel : StateId) : chart.Separate (chart.regions parallel) := by
  intro first isFirst second isSecond state firstWithin secondWithin
  exact child_toward_unique formed ((mem_regions formed).mp isFirst).1
    ((mem_regions formed).mp isSecond).1 firstWithin secondWithin

theorem Ready.below
    {state : StateId}
    (ready : chart.Ready before outer)
    (inside : chart.isInside state outer = true)
    (brought : ∀ other, chart.ByDefault other state → chart.ByDefault other outer) :
    chart.Ready (StateSet.insert outer before) state := by
  rcases ready with vacant | complete
  · left
    intro other member within
    rcases StateSet.mem_insert.mp member with rfl | planned
    · have outside := not_inside_of_within formed within
      rw [inside] at outside
      cases outside
    · exact vacant other planned (.inr (within_inside_trans formed within inside))
  · right
    intro other below
    exact StateSet.mem_insert.mpr (.inr (complete other (brought other below)))

theorem Ready.grow
    {first : StateId}
    (ready : chart.Ready before outer)
    (grown : ∀ state, state ∈ after ↔ state ∈ before ∨ chart.ByDefault state first)
    (apart : ∀ state, chart.Within state first → chart.Within state outer → first = outer) :
    chart.Ready after outer := by
  by_cases same : first = outer
  · subst same
    exact .inr fun state brought => (grown state).mpr (.inr brought)
  · rcases ready with vacant | complete
    · left
      intro state member within
      rcases (grown state).mp member with planned | brought
      · exact vacant state planned within
      · exact same (apart state (brought.within formed) within)
    · exact .inr fun state brought => (grown state).mpr (.inl (complete state brought))

theorem foldlM_plants
    {step : StateSet → StateId → Option StateSet} {states : List StateId}
    (plants : ∀ state ∈ states, ∀ {plan grown}, step plan state = some grown →
      chart.Ready plan state →
        ∀ added, added ∈ grown ↔ added ∈ plan ∨ chart.ByDefault added state)
    (apart : chart.Separate states)
    (ready : ∀ state ∈ states, chart.Ready before state)
    (folded : states.foldlM step before = some after)
    (added : StateId) :
    added ∈ after ↔ added ∈ before ∨ ∃ state ∈ states, chart.ByDefault added state := by
  induction states generalizing before with
  | nil =>
      obtain rfl : before = after := by simpa using folded
      simp
  | cons first states ih =>
      rw [List.foldlM_cons, Option.bind_eq_bind, Option.bind_eq_some_iff] at folded
      obtain ⟨middle, stepped, rest⟩ := folded
      have grown := plants first List.mem_cons_self stepped (ready first List.mem_cons_self)
      have later := fun state (member : state ∈ states) => List.mem_cons_of_mem first member
      rw [ih (fun state member => plants state (later state member))
        (fun one isOne two isTwo => apart one (later one isOne) two (later two isTwo))
        (fun state member => (ready state (later state member)).grow formed grown
          (apart first List.mem_cons_self state (later state member))) rest, grown]
      simp only [List.mem_cons, exists_eq_or_imp, or_assoc]

/-- The regions of a parallel state bring what each of them brings: one that is covered,
and yet ready, is complete, so passing it over adds nothing. -/
theorem fillRegions_byDefault
    {below : StateId → StateSet → Option StateSet} {parallel : StateId}
    (plants : ∀ region ∈ chart.regions parallel, ∀ {plan grown},
      below region (StateSet.insert region plan) = some grown → chart.Ready plan region →
        ∀ added, added ∈ grown ↔ added ∈ plan ∨ chart.ByDefault added region)
    (ready : ∀ region ∈ chart.regions parallel, chart.Ready before region)
    (filled : chart.fillRegions below parallel before = some after)
    (added : StateId) :
    added ∈ after ↔
      added ∈ before ∨ ∃ region ∈ chart.regions parallel, chart.ByDefault added region := by
  refine foldlM_plants formed ?_ (regions_apart formed parallel) ready filled added
  intro region isRegion plan grown stepped regionReady added
  by_cases known : chart.covered plan region = true
  · rw [if_pos known] at stepped
    obtain rfl := Option.some.inj stepped
    obtain ⟨state, planned, within⟩ := covered_iff.mp known
    have complete := regionReady.resolve_left fun vacant => vacant state planned within
    exact (or_iff_left_of_imp (complete added)).symm
  · rw [if_neg known] at stepped
    exact plants region isRegion stepped regionReady added

/-- Planning a state that is ready, with what it needs below it, adds what it brings. -/
theorem plant_byDefault
    {fuel : Nat}
    (ordinary : chart.isHistory outer = false)
    (ready : chart.Ready before outer)
    (planted : chart.enterBelow records fuel outer (StateSet.insert outer before) =
      some after)
    (added : StateId) :
    added ∈ after ↔ added ∈ before ∨ chart.ByDefault added outer := by
  induction fuel generalizing outer before after added with
  | zero => simp [enterBelow] at planted
  | succ fuel ih =>
      have regionReady : ∀ region ∈ chart.regions outer,
          (∀ other, chart.ByDefault other region → chart.ByDefault other outer) →
          chart.Ready (StateSet.insert outer before) region := fun region isRegion =>
        ready.below formed (inside_of_parent formed ((mem_regions formed).mp isRegion).1)
      cases kind : chart.kind outer with
      | history memory defaults => simp [isHistory, kind] at ordinary
      | atomic =>
          obtain rfl : StateSet.insert outer before = after := by
            simpa [enterBelow, kind] using planted
          rw [StateSet.mem_insert, byDefault_leaf (by simp [isLeaf, kind]), or_comm]
      | final =>
          obtain rfl : StateSet.insert outer before = after := by
            simpa [enterBelow, kind] using planted
          rw [StateSet.mem_insert, byDefault_leaf (by simp [isLeaf, kind]), or_comm]
      | compound initial =>
          have isRegion := formed.initialBelow kind
          rw [enterBelow_compound formed kind] at planted
          rw [ih ((mem_regions formed).mp isRegion).2
            (regionReady initial isRegion fun other => .initial kind) planted added,
            StateSet.mem_insert, byDefault_compound kind, or_assoc, or_left_comm]
      | parallel =>
          have isParallel : chart.isParallel outer = true := by simp [Chart.isParallel, kind]
          have filled : chart.fillRegions (chart.enterBelow records fuel) outer
              (StateSet.insert outer before) = some after := by
            simpa [enterBelow, kind] using planted
          rw [fillRegions_byDefault formed
            (fun region isRegion _ _ grown ready =>
              ih ((mem_regions formed).mp isRegion).2 ready grown)
            (fun region isRegion =>
              regionReady region isRegion fun other => .region isParallel isRegion)
            filled added, StateSet.mem_insert, byDefault_parallel kind, or_assoc, or_left_comm]

/-- Planning several states that lie apart adds what they bring. -/
theorem plantAll_byDefault
    {fuel : Nat} {states : List StateId}
    (ordinary : ∀ state ∈ states, chart.isHistory state = false)
    (apart : chart.Separate states)
    (ready : ∀ state ∈ states, chart.Ready before state)
    (planted : states.foldlM (fun planned state =>
      chart.enterBelow records fuel state (chart.planUnlessHistory state planned)) before =
        some after)
    (added : StateId) :
    added ∈ after ↔ added ∈ before ∨ ∃ state ∈ states, chart.ByDefault added state := by
  refine foldlM_plants formed ?_ apart ready planted added
  intro state member plan grown stepped stateReady
  have notHistory := ordinary state member
  rw [planUnlessHistory, if_neg (by simp [notHistory])] at stepped
  exact plant_byDefault formed notHistory stateReady stepped

/-- A machine starts in what its root brings. -/
theorem initialEntries_byDefault
    {entries : StateSet}
    (started : chart.initialEntries? = some entries)
    (state : StateId) :
    state ∈ entries ↔ chart.ByDefault state root := by
  rw [plant_byDefault formed formed.rootOrdinary ready_nil started state]
  exact or_iff_right List.not_mem_nil

end Planting

end Statechart.Chart
