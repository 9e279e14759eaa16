import Statechart.Entry
import Statechart.Proofs.Records

/-!
# What a plan of entries adds

Planning only ever inserts states, so a whole plan keeps what inserting a state keeps;
document order is one such thing.  `Chart.Extends` says which states are added: every
added state passes a test, is no history state, has what its kind needs planned below it,
and hangs from a planned state or from one of those that planning started below.  The
tests tell apart the ways in which a state gets into a plan: below something planned, on
the way up from a target, or in a region of a parallel state on that way in which nothing
was planned.
-/

namespace Statechart.Chart

/-- Something planned lies in the region. -/
def Covers (chart : Chart) (plan : StateSet) (region : StateId) : Prop :=
  ∃ state ∈ plan, chart.Within state region

/-- What the kind of a state needs to be active below it is planned. -/
structure Filled (chart : Chart) (plan : StateSet) (state : StateId) : Prop where
  compound : chart.isCompound state = true →
    ∃ below ∈ plan, chart.isInside below state = true
  parallel : chart.isParallel state = true →
    ∀ region ∈ chart.regions state, chart.Covers plan region

/-- A larger plan: what is new passes the test `fits` and hangs from a planned state or
from one that `hold` tells of. -/
structure Extends (chart : Chart) (before after : StateSet)
    (fits hold : StateId → Prop) : Prop where
  keeps : ∀ state ∈ before, state ∈ after
  fitting : ∀ state ∈ after, state ∉ before → fits state
  ordinary : ∀ state ∈ after, state ∉ before → chart.isHistory state = false
  filled : ∀ state ∈ after, state ∉ before → chart.Filled after state
  hangs : ∀ state ∈ after, state ∉ before →
    ∀ parent, chart.parent? state = some parent → parent ∈ after ∨ hold parent

/-- A state that got into a plan because some region of a parallel state on a line of
states was not covered. -/
def Sprouts (chart : Chart) (before after : StateSet) (line : List StateId)
    (state : StateId) : Prop :=
  ∃ parallel ∈ line, chart.isParallel parallel = true ∧
    ∃ region ∈ chart.regions parallel, region ∈ after ∧ chart.Within state region ∧
      ¬ chart.Covers before region ∧
      ∀ other ∈ line, chart.isParallel other = true → chart.regions other ≠ [] →
        ¬ chart.Within other region

section Basics

variable {chart : Chart} {before middle after : StateSet} {state : StateId}
variable {fits fitsMore hold holdMore : StateId → Prop}

theorem covered_iff {plan : StateSet} {region : StateId} :
    chart.covered plan region = true ↔ chart.Covers plan region := by
  simp [covered, Covers, Within]

theorem Covers.mono
    {region : StateId}
    (covers : chart.Covers before region)
    (keeps : ∀ state ∈ before, state ∈ after) :
    chart.Covers after region := by
  obtain ⟨state, member, within⟩ := covers
  exact ⟨state, keeps state member, within⟩

theorem Filled.mono
    (filled : chart.Filled before state)
    (keeps : ∀ state ∈ before, state ∈ after) :
    chart.Filled after state := by
  constructor
  · intro compound
    obtain ⟨below, member, inside⟩ := filled.compound compound
    exact ⟨below, keeps below member, inside⟩
  · intro parallel region member
    exact (filled.parallel parallel region member).mono keeps

theorem filled_of_childless
    (notCompound : chart.isCompound state = false)
    (notParallel : chart.isParallel state = false) :
    chart.Filled before state := by
  constructor
  · intro compound
    rw [notCompound] at compound
    cases compound
  · intro parallel
    rw [notParallel] at parallel
    cases parallel

theorem Extends.refl : chart.Extends before before fits hold := by
  constructor
  · intro state member
    exact member
  all_goals
    intro state member new
    exact absurd member new

theorem Extends.trans
    (first : chart.Extends before middle fits hold)
    (second : chart.Extends middle after fitsMore holdMore)
    (fitsFirst : ∀ state, fits state → fitsMore state)
    (holdFirst : ∀ state, hold state → state ∈ after ∨ holdMore state) :
    chart.Extends before after fitsMore holdMore := by
  constructor
  · intro state member
    exact second.keeps state (first.keeps state member)
  · intro state member new
    by_cases known : state ∈ middle
    · exact fitsFirst state (first.fitting state known new)
    · exact second.fitting state member known
  · intro state member new
    by_cases known : state ∈ middle
    · exact first.ordinary state known new
    · exact second.ordinary state member known
  · intro state member new
    by_cases known : state ∈ middle
    · exact (first.filled state known new).mono second.keeps
    · exact second.filled state member known
  · intro state member new parent below
    by_cases known : state ∈ middle
    · rcases first.hangs state known new parent below with planned | held
      · exact .inl (second.keeps parent planned)
      · exact holdFirst parent held
    · exact second.hangs state member known parent below

theorem Extends.mono
    (grown : chart.Extends before after fits hold)
    (fitsToo : ∀ state, state ∈ after → state ∉ before → fits state → fitsMore state)
    (holdToo : ∀ state, hold state → state ∈ after ∨ holdMore state) :
    chart.Extends before after fitsMore holdMore := by
  constructor
  · exact grown.keeps
  · intro state member new
    exact fitsToo state member new (grown.fitting state member new)
  · exact grown.ordinary
  · exact grown.filled
  · intro state member new parent below
    rcases grown.hangs state member new parent below with planned | held
    · exact .inl planned
    · exact holdToo parent held

theorem Extends.ofInsert
    (grown : chart.Extends (StateSet.insert state before) after fits hold)
    (ordinary : chart.isHistory state = false)
    (filled : chart.Filled after state)
    (fitsState : fits state)
    (holdsParent : ∀ parent, chart.parent? state = some parent →
      parent ∈ after ∨ hold parent) :
    chart.Extends before after fits hold := by
  have fresh : ∀ candidate, candidate ∉ before → candidate = state ∨
      candidate ∉ StateSet.insert state before := by
    intro candidate new
    by_cases same : candidate = state
    · exact .inl same
    · right
      rw [StateSet.mem_insert]
      rintro (here | known)
      · exact same here
      · exact new known
  constructor
  · intro candidate member
    exact grown.keeps candidate (StateSet.mem_insert.mpr (.inr member))
  · intro candidate member new
    rcases fresh candidate new with rfl | outside
    · exact fitsState
    · exact grown.fitting candidate member outside
  · intro candidate member new
    rcases fresh candidate new with rfl | outside
    · exact ordinary
    · exact grown.ordinary candidate member outside
  · intro candidate member new
    rcases fresh candidate new with rfl | outside
    · exact filled
    · exact grown.filled candidate member outside
  · intro candidate member new parent below
    rcases fresh candidate new with rfl | outside
    · exact holdsParent parent below
    · exact grown.hangs candidate member outside parent below

end Basics

section Inserting

variable {chart : Chart} {holds : StateSet → Prop}
variable (inserts : ∀ state plan, holds plan → holds (StateSet.insert state plan))

theorem foldlM_keeps
    {item : Type} {step : StateSet → item → Option StateSet} {items : List item}
    {before after : StateSet}
    (keeps : ∀ next plan grown, step plan next = some grown → holds plan → holds grown)
    (folded : items.foldlM step before = some after)
    (start : holds before) :
    holds after := by
  induction items generalizing before with
  | nil =>
      obtain rfl : before = after := by simpa using folded
      exact start
  | cons next items ih =>
      rw [List.foldlM_cons, Option.bind_eq_bind, Option.bind_eq_some_iff] at folded
      obtain ⟨middle, stepped, rest⟩ := folded
      exact ih rest (keeps next before middle stepped start)

include inserts

section Below

variable {below : StateId → StateSet → Option StateSet}
variable (keeps : ∀ state plan grown, below state plan = some grown → holds plan →
  holds grown)

include keeps

theorem fillRegions_keeps
    {parallel : StateId} {before after : StateSet}
    (filled : chart.fillRegions below parallel before = some after)
    (start : holds before) :
    holds after := by
  refine foldlM_keeps ?_ filled start
  intro region plan grown stepped held
  split at stepped
  · obtain rfl := Option.some.inj stepped
    exact held
  · exact keeps region _ grown stepped (inserts region plan held)

theorem enterAbove_keeps
    {allowed : StateId → Bool} {line : List StateId} {before after : StateSet}
    (entered : chart.enterAbove below allowed line before = some after)
    (start : holds before) :
    holds after := by
  refine foldlM_keeps ?_ entered start
  intro state plan grown stepped held
  have heldHere : holds (if allowed state then StateSet.insert state plan else plan) := by
    by_cases isAllowed : allowed state = true
    · rw [if_pos isAllowed]
      exact inserts state plan held
    · rw [if_neg isAllowed]
      exact held
  by_cases parallel : chart.isParallel state = true
  · simp only [parallel, if_true] at stepped
    exact fillRegions_keeps inserts keeps stepped heldHere
  · simp only [parallel, Bool.false_eq_true, if_false, Option.some.injEq] at stepped
    exact stepped ▸ heldHere

end Below

theorem planUnlessHistory_keeps
    {state : StateId} {plan : StateSet}
    (held : holds plan) :
    holds (chart.planUnlessHistory state plan) := by
  unfold planUnlessHistory
  split
  · exact held
  · exact inserts state plan held

variable {records : HistoryRecords}

/-- Whatever inserting states keeps, completing a plan keeps. -/
theorem enterBelow_keeps
    (fuel : Nat) :
    ∀ state plan grown, chart.enterBelow records fuel state plan = some grown →
      holds plan → holds grown := by
  induction fuel with
  | zero =>
      intro state plan grown completed
      simp [enterBelow] at completed
  | succ fuel ih =>
      intro state plan grown completed held
      cases kind : chart.kind state with
      | atomic =>
          obtain rfl : plan = grown := by simpa [enterBelow, kind] using completed
          exact held
      | final =>
          obtain rfl : plan = grown := by simpa [enterBelow, kind] using completed
          exact held
      | parallel =>
          simp only [enterBelow, kind] at completed
          exact fillRegions_keeps inserts ih completed held
      | compound initial =>
          simp only [enterBelow, kind, Option.bind_eq_bind, Option.bind_eq_some_iff]
            at completed
          obtain ⟨middle, planted, climbed⟩ := completed
          exact enterAbove_keeps inserts ih climbed
            (ih initial _ middle planted (planUnlessHistory_keeps inserts held))
      | history memory defaults =>
          simp only [enterBelow, kind, Option.bind_eq_bind, Option.bind_eq_some_iff]
            at completed
          obtain ⟨middle, planted, climbed⟩ := completed
          have heldMiddle : holds middle := foldlM_keeps
            (fun target plan grown stepped start =>
              ih target _ grown stepped (planUnlessHistory_keeps inserts start))
            planted held
          split at climbed
          · obtain rfl := Option.some.inj climbed
            exact heldMiddle
          · exact foldlM_keeps
              (fun target plan grown stepped => enterAbove_keeps inserts ih stepped)
              climbed heldMiddle

theorem planMove_keeps
    {move : Move} {before after : StateSet}
    (planned : chart.planMove records move before = some after)
    (start : holds before) :
    holds after := by
  unfold planMove at planned
  split at planned
  · obtain rfl := Option.some.inj planned
    exact start
  · simp only [Option.bind_eq_bind, Option.bind_eq_some_iff] at planned
    obtain ⟨middle, planted, climbed⟩ := planned
    have heldMiddle : holds middle := by
      refine foldlM_keeps ?_ planted start
      intro target plan grown stepped held
      refine enterBelow_keeps inserts _ target _ grown stepped ?_
      split
      · exact planUnlessHistory_keeps inserts held
      · exact held
    exact foldlM_keeps
      (fun target plan grown stepped =>
        enterAbove_keeps inserts (enterBelow_keeps inserts _) stepped)
      climbed heldMiddle

omit inserts in
/-- States are entered in document order, each once. -/
theorem entries_ordered
    {moves : List Move} {entries : StateSet}
    (planned : chart.entries? records moves = some entries) :
    entries.Ordered :=
  foldlM_keeps
    (fun _ _ _ => planMove_keeps fun state _ ordered => ordered.insert state)
    planned StateSet.ordered_nil

omit inserts in
theorem initialEntries_ordered
    {entries : StateSet}
    (started : chart.initialEntries? = some entries) :
    entries.Ordered :=
  enterBelow_keeps (fun state _ ordered => ordered.insert state) _ _ _ _ started
    (List.pairwise_singleton _ _)

end Inserting

/-- `below` completes plans below every state that can be active. -/
def Completes (chart : Chart) (below : StateId → StateSet → Option StateSet) : Prop :=
  ∀ {state before after}, chart.isHistory state = false → below state before = some after →
    chart.Extends before after (fun added => chart.isInside added state = true)
        (fun parent => parent = state) ∧
      chart.Filled after state

section Filling

variable {chart : Chart} (formed : chart.WellFormed)
variable {below : StateId → StateSet → Option StateSet}
variable (completes : chart.Completes below)

include formed completes

omit formed in
/-- Planning a state together with what it needs below it. -/
theorem plant_extends
    {state : StateId} {before after : StateSet}
    (ordinary : chart.isHistory state = false)
    (planted : below state (StateSet.insert state before) = some after) :
    chart.Extends before after (fun added => chart.Within added state)
        (fun parent => chart.parent? state = some parent) ∧
      state ∈ after := by
  obtain ⟨grown, filled⟩ := completes ordinary planted
  have planned : state ∈ after :=
    grown.keeps state (StateSet.mem_insert.mpr (.inl rfl))
  refine ⟨?_, planned⟩
  have widened : chart.Extends (StateSet.insert state before) after
      (fun added => chart.Within added state)
      (fun parent => chart.parent? state = some parent) :=
    grown.mono (fun added _ _ inside => .inr inside) fun held same => by
      subst same
      exact .inl planned
  exact widened.ofInsert ordinary filled (.inl rfl) fun parent above => .inr above

theorem extends_region
    {region parent : StateId} {before after : StateSet}
    (isRegion : region ∈ chart.regions parent)
    (completed : below region (StateSet.insert region before) = some after) :
    chart.Extends before after (fun added => chart.Within added region)
        (fun held => held = parent) ∧
      region ∈ after := by
  obtain ⟨regionBelow, ordinary⟩ := (mem_regions formed).mp isRegion
  obtain ⟨grown, planned⟩ := plant_extends completes ordinary completed
  refine ⟨grown.mono (fun added _ _ within => within) ?_, planned⟩
  intro held above
  right
  rw [regionBelow] at above
  exact (Option.some.inj above).symm

/-- The regions of a parallel state are planned where nothing in them was. -/
theorem fillRegions_extends
    {parallel : StateId} {before after : StateSet}
    (filled : chart.fillRegions below parallel before = some after) :
    chart.Extends before after
        (fun added => ∃ region ∈ chart.regions parallel, region ∈ after ∧
          chart.Within added region ∧ ¬ chart.Covers before region)
        (fun parent => parent = parallel) ∧
      ∀ region ∈ chart.regions parallel, chart.Covers after region := by
  have folded : ∀ (regions : List StateId) (plan : StateSet),
      (∀ region ∈ regions, region ∈ chart.regions parallel) →
      (regions.foldlM (fun planned region =>
        if chart.covered planned region then some planned
        else below region (planned.insert region)) plan) = some after →
      chart.Extends plan after
          (fun added => ∃ region ∈ chart.regions parallel, region ∈ after ∧
            chart.Within added region ∧ ¬ chart.Covers plan region)
          (fun parent => parent = parallel) ∧
        ∀ region ∈ regions, chart.Covers after region := by
    intro regions
    induction regions with
    | nil =>
        intro plan _ done
        obtain rfl : plan = after := by simpa using done
        exact ⟨Extends.refl, by simp⟩
    | cons region regions ih =>
        intro plan areRegions done
        have isRegion := areRegions region List.mem_cons_self
        have restAre := fun other member =>
          areRegions other (List.mem_cons_of_mem region member)
        rw [List.foldlM_cons, Option.bind_eq_bind, Option.bind_eq_some_iff] at done
        obtain ⟨middle, stepped, rest⟩ := done
        obtain ⟨later, covered⟩ := ih middle restAre rest
        by_cases known : chart.covered plan region = true
        · rw [if_pos known] at stepped
          obtain rfl : plan = middle := Option.some.inj stepped
          refine ⟨later, ?_⟩
          intro other member
          rcases List.mem_cons.mp member with rfl | further
          · exact (covered_iff.mp known).mono later.keeps
          · exact covered other further
        · rw [if_neg known] at stepped
          obtain ⟨grown, planned⟩ := extends_region formed completes isRegion stepped
          have kept := later.keeps region planned
          constructor
          · refine Extends.trans (grown.mono ?_ fun held same => .inr same)
              (later.mono ?_ fun held same => .inr same) (fun added here => here)
              (fun held same => .inr same)
            · intro added _ _ within
              exact ⟨region, isRegion, kept, within,
                fun covers => known (covered_iff.mpr covers)⟩
            · rintro added _ _ ⟨other, isOther, otherPlanned, within, uncovered⟩
              exact ⟨other, isOther, otherPlanned, within,
                fun covers => uncovered (covers.mono grown.keeps)⟩
          · intro other member
            rcases List.mem_cons.mp member with rfl | further
            · exact ⟨other, kept, .inl rfl⟩
            · exact covered other further
  exact folded (chart.regions parallel) before (fun region member => member) filled

theorem coverOne_extends
    {first : StateId} {before after : StateSet}
    (filled : (if chart.isParallel first then chart.fillRegions below first before
      else some before) = some after) :
    chart.Extends before after
        (fun added => chart.isParallel first = true ∧
          ∃ region ∈ chart.regions first, region ∈ after ∧
            chart.Within added region ∧ ¬ chart.Covers before region)
        (fun parent => parent = first) ∧
      (chart.isParallel first = true →
        ∀ region ∈ chart.regions first, chart.Covers after region) := by
  by_cases parallel : chart.isParallel first = true
  · rw [if_pos parallel] at filled
    obtain ⟨grown, covered⟩ := fillRegions_extends formed completes filled
    exact ⟨grown.mono (fun added _ _ sprouts => ⟨parallel, sprouts⟩)
      (fun held same => .inr same), fun _ => covered⟩
  · rw [if_neg parallel] at filled
    obtain rfl : before = after := Option.some.inj filled
    exact ⟨Extends.refl, fun isParallel => absurd isParallel parallel⟩

omit completes in
theorem sprouts_here
    {first region added : StateId} {line : List StateId} {before after : StateSet}
    (nested : ∀ other ∈ line, chart.isInside first other = true)
    (parallel : chart.isParallel first = true)
    (isRegion : region ∈ chart.regions first)
    (planned : region ∈ after)
    (within : chart.Within added region)
    (uncovered : ¬ chart.Covers before region) :
    chart.Sprouts before after (first :: line) added := by
  refine ⟨first, List.mem_cons_self, parallel, region, isRegion, planned, within,
    uncovered, ?_⟩
  intro other member _ _ otherWithin
  have regionBelow := ((mem_regions formed).mp isRegion).1
  have otherInside := within_inside_trans formed otherWithin
    (inside_of_parent formed regionBelow)
  rcases List.mem_cons.mp member with rfl | further
  · rw [not_inside_self formed] at otherInside
    cases otherInside
  · have around := inside_trans formed otherInside (nested other further)
    rw [not_inside_self formed] at around
    cases around

omit completes in
/-- A missing region further up a line: it has in it none of the regions of the first
state, since these are covered. -/
theorem Sprouts.push
    {first added : StateId} {line : List StateId} {before middle after : StateSet}
    (sprouts : chart.Sprouts middle after line added)
    (keeps : ∀ state ∈ before, state ∈ middle)
    (covered : chart.isParallel first = true →
      ∀ region ∈ chart.regions first, chart.Covers middle region) :
    chart.Sprouts before after (first :: line) added := by
  obtain ⟨parallel, inLine, isParallel, region, isRegion, planned, within, uncovered,
    alone⟩ := sprouts
  refine ⟨parallel, List.mem_cons_of_mem first inLine, isParallel, region, isRegion,
    planned, within, fun covers => uncovered (covers.mono keeps), ?_⟩
  intro other member otherParallel hasRegions otherWithin
  rcases List.mem_cons.mp member with rfl | further
  · obtain ⟨some, isSome⟩ := List.exists_mem_of_ne_nil _ hasRegions
    obtain ⟨state, known, inside⟩ := covered otherParallel some isSome
    have someBelow := ((mem_regions formed).mp isSome).1
    exact uncovered ⟨state, known, within_trans formed inside
      (.inr (inside_within_trans formed (inside_of_parent formed someBelow) otherWithin))⟩
  · exact alone other further otherParallel hasRegions otherWithin

omit completes in
/-- What covering the regions of the first state on a line adds and what going up the rest of
the line adds then, taken together. -/
theorem extends_cons
    {first : StateId} {line : List StateId} {before started middle after : StateSet}
    {allowed : StateId → Bool} {hold : StateId → Prop}
    (nested : ∀ other ∈ line, chart.isInside first other = true)
    (keeps : ∀ state ∈ before, state ∈ started)
    (covered : chart.isParallel first = true →
      ∀ region ∈ chart.regions first, chart.Covers middle region)
    (grown : chart.Extends started middle
      (fun added => chart.isParallel first = true ∧
        ∃ region ∈ chart.regions first, region ∈ middle ∧ chart.Within added region ∧
          ¬ chart.Covers started region)
      (fun parent => parent = first))
    (later : chart.Extends middle after
      (fun added => (added ∈ line ∧ allowed added = true) ∨
        chart.Sprouts middle after line added)
      (fun parent => parent ∈ line ∧ allowed parent = false ∨ hold parent ∨ parent = first))
    (firstHeld : first ∈ after ∨
      (first ∈ first :: line ∧ allowed first = false ∨ hold first)) :
    chart.Extends started after
      (fun added => (added ∈ first :: line ∧ allowed added = true) ∨
        chart.Sprouts before after (first :: line) added)
      (fun parent => parent ∈ first :: line ∧ allowed parent = false ∨ hold parent) := by
  refine Extends.trans (grown.mono ?_ fun parent same => .inr same)
    (later.mono ?_ ?_) (fun added here => here) ?_
  · rintro added _ _ ⟨parallel, region, isRegion, planned, within, uncovered⟩
    exact .inr (sprouts_here formed nested parallel isRegion (later.keeps region planned)
      within fun covers => uncovered (covers.mono keeps))
  · rintro added _ _ (⟨inLine, isAllowed⟩ | sprouts)
    · exact .inl ⟨List.mem_cons_of_mem first inLine, isAllowed⟩
    · exact .inr (sprouts.push formed
        (fun state member => grown.keeps state (keeps state member)) covered)
  · rintro parent (⟨inLine, isAllowed⟩ | isHeld | rfl)
    · exact .inr (.inl ⟨List.mem_cons_of_mem first inLine, isAllowed⟩)
    · exact .inr (.inr isHeld)
    · exact firstHeld
  · rintro parent rfl
    exact firstHeld

/-- Going up a line of states: those allowed are planned, and the regions of all parallel
ones are covered. -/
theorem enterAbove_extends
    {allowed : StateId → Bool} {line : List StateId} {before after : StateSet}
    {hold : StateId → Prop}
    (nested : line.Pairwise fun near above => chart.isInside near above = true)
    (ordinary : ∀ state ∈ line, chart.isHistory state = false)
    (seeded : ∀ state ∈ line, allowed state = true →
      ∃ seed ∈ before, chart.isInside seed state = true)
    (held : ∀ state ∈ line, ∀ parent, chart.parent? state = some parent →
      parent ∈ line ∨ hold parent)
    (entered : chart.enterAbove below allowed line before = some after) :
    chart.Extends before after
        (fun added => (added ∈ line ∧ allowed added = true) ∨
          chart.Sprouts before after line added)
        (fun parent => parent ∈ line ∧ allowed parent = false ∨ hold parent) ∧
      (∀ state ∈ line, allowed state = true → state ∈ after) ∧
      ∀ state ∈ line, chart.isParallel state = true →
        ∀ region ∈ chart.regions state, chart.Covers after region := by
  induction line generalizing before hold with
  | nil =>
      obtain rfl : before = after := by simpa [enterAbove] using entered
      exact ⟨Extends.refl, by simp, by simp⟩
  | cons first line ih =>
      obtain ⟨firstInside, restNested⟩ := List.pairwise_cons.mp nested
      rw [enterAbove, List.foldlM_cons, Option.bind_eq_bind, Option.bind_eq_some_iff]
        at entered
      obtain ⟨middle, stepped, rest⟩ := entered
      generalize startedEq :
        (if allowed first then StateSet.insert first before else before) = started at stepped
      have startedKeeps : ∀ state ∈ before, state ∈ started := by
        intro state member
        subst startedEq
        by_cases isAllowed : allowed first = true <;> simp [isAllowed, member]
      obtain ⟨grown, coveredFirst⟩ := coverOne_extends formed completes stepped
      have keepsMiddle : ∀ state ∈ before, state ∈ middle := fun state member =>
        grown.keeps state (startedKeeps state member)
      have restSeeded : ∀ state ∈ line, allowed state = true →
          ∃ seed ∈ middle, chart.isInside seed state = true := by
        intro state member isAllowed
        obtain ⟨seed, planned, inside⟩ :=
          seeded state (List.mem_cons_of_mem first member) isAllowed
        exact ⟨seed, keepsMiddle seed planned, inside⟩
      have restHeld : ∀ state ∈ line, ∀ parent, chart.parent? state = some parent →
          parent ∈ line ∨ (hold parent ∨ parent = first) := by
        intro state member parent above
        rcases held state (List.mem_cons_of_mem first member) parent above with
          inLine | isHeld
        · rcases List.mem_cons.mp inLine with rfl | further
          · exact .inr (.inr rfl)
          · exact .inl further
        · exact .inr (.inl isHeld)
      obtain ⟨later, climbed, covered⟩ := ih restNested
        (fun state member => ordinary state (List.mem_cons_of_mem first member))
        restSeeded restHeld rest
      have firstPlanned : allowed first = true → first ∈ after := by
        intro isAllowed
        apply later.keeps
        apply grown.keeps
        subst startedEq
        simp [isAllowed]
      have firstHeld : first ∈ after ∨
          (first ∈ first :: line ∧ allowed first = false ∨ hold first) := by
        cases isAllowed : allowed first with
        | true => exact .inl (firstPlanned isAllowed)
        | false => exact .inr (.inl ⟨List.mem_cons_self, rfl⟩)
      have coveredAfter : ∀ state ∈ first :: line, chart.isParallel state = true →
          ∀ region ∈ chart.regions state, chart.Covers after region := by
        intro state member parallel region isRegion
        rcases List.mem_cons.mp member with rfl | further
        · exact (coveredFirst parallel region isRegion).mono later.keeps
        · exact covered state further parallel region isRegion
      have whole := extends_cons formed firstInside startedKeeps coveredFirst grown later
        firstHeld
      refine ⟨?_, ?_, coveredAfter⟩
      · cases isAllowed : allowed first with
        | false =>
            simp only [isAllowed, Bool.false_eq_true, if_false] at startedEq
            subst startedEq
            exact whole
        | true =>
            simp only [isAllowed, if_true] at startedEq
            subst startedEq
            apply whole.ofInsert (ordinary first List.mem_cons_self) ?_
              (.inl ⟨List.mem_cons_self, isAllowed⟩)
            · intro parent above
              rcases held first List.mem_cons_self parent above with inLine | isHeld
              · cases parentAllowed : allowed parent with
                | false => exact .inr (.inl ⟨inLine, rfl⟩)
                | true =>
                    rcases List.mem_cons.mp inLine with rfl | further
                    · exact .inl (firstPlanned isAllowed)
                    · exact .inl (climbed parent further parentAllowed)
              · exact .inr (.inr isHeld)
            · constructor
              · intro _
                obtain ⟨seed, planned, inside⟩ :=
                  seeded first List.mem_cons_self isAllowed
                exact ⟨seed, later.keeps seed (keepsMiddle seed planned), inside⟩
              · exact coveredAfter first List.mem_cons_self
      · intro state member isAllowed
        rcases List.mem_cons.mp member with rfl | further
        · exact firstPlanned isAllowed
        · exact climbed state further isAllowed

end Filling

end Statechart.Chart
