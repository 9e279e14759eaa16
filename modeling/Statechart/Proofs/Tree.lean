import Mathlib.Data.List.TakeWhile
import Mathlib.Tactic.ByContra
import Statechart.Chart.Basic

/-!
# Charts as trees

`Chart.WellFormed` says that the states of a chart form a tree in document order and that
their kinds fit it: initial children and history defaults lie where they belong, and what
can be active on its own has no children.  The walk from a state to those that it lies in
then gives a strict order in which the states above one state are linearly ordered.
-/

namespace Statechart.Chart

/-- A tree in document order whose kinds fit it. -/
structure WellFormed (chart : Chart) : Prop where
  nonempty : root < chart.size
  rootOnTop : chart.parent? root = none
  rootOrdinary : chart.isHistory root = false
  parentBefore : ∀ {state parent}, chart.parent? state = some parent → parent < state
  parented : ∀ {state}, state < chart.size → state ≠ root →
    ∃ parent, chart.parent? state = some parent
  mem_children : ∀ {parent child},
    child ∈ chart.children parent ↔ chart.parent? child = some parent
  childrenOrdered : ∀ parent, (chart.children parent).Pairwise (· < ·)
  initialBelow : ∀ {state initial}, chart.kind state = .compound initial →
    initial ∈ chart.regions state
  defaultsBelow : ∀ {state kind defaults parent}, chart.kind state = .history kind defaults →
    chart.parent? state = some parent → ∀ default ∈ defaults,
      chart.isHistory default = false ∧ chart.isInside default parent = true
  leafChildless : ∀ {state}, chart.isLeaf state = true → chart.children state = []
  historyChildless : ∀ {state}, chart.isHistory state = true → chart.children state = []

/-- The state lies in another one or is that one. -/
def Within (chart : Chart) (state outer : StateId) : Prop :=
  state = outer ∨ chart.isInside state outer = true

instance (chart : Chart) (state outer : StateId) : Decidable (chart.Within state outer) :=
  inferInstanceAs (Decidable (_ ∨ _))

/-- Every parallel state has a region. -/
def Regioned (chart : Chart) : Prop :=
  ∀ state, chart.isParallel state = true → chart.regions state ≠ []

section Walks

variable {chart : Chart} (formed : chart.WellFormed)
variable {state parent outer far : StateId}

theorem parent_in_range
    (below : chart.parent? state = some parent) :
    state < chart.size := by
  unfold parent? node? at below
  by_contra beyond
  rw [List.getElem?_eq_none (Nat.le_of_not_lt beyond)] at below
  simp at below

theorem kind_beyond
    (beyond : chart.size ≤ state) :
    chart.kind state = .atomic := by
  simp [kind, node?, List.getElem?_eq_none beyond]

theorem regioned_iff :
    chart.Regioned ↔
      ∀ state < chart.size, chart.isParallel state = true → chart.regions state ≠ [] := by
  refine ⟨fun regioned state _ => regioned state, fun regioned state parallel => ?_⟩
  by_cases inRange : state < chart.size
  · exact regioned state inRange parallel
  · simp [isParallel, kind_beyond (Nat.le_of_not_lt inRange)] at parallel

instance (chart : Chart) : Decidable chart.Regioned :=
  decidable_of_iff _ regioned_iff.symm

theorem ancestors_of_no_parent
    (top : chart.parent? state = none) :
    chart.ancestors state = [] := by
  unfold ancestors
  cases chart.size with
  | zero => rfl
  | succ fuel => simp [ancestorsUpTo, top]

/-- Every state stands after the one that it lies directly in. -/
def Rises (chart : Chart) : Prop :=
  ∀ state parent, chart.parent? state = some parent → parent < state

namespace Rises

variable (rises : chart.Rises)

include rises

/-- The positions above a state decrease, so its position is fuel enough for the walk. -/
theorem ancestorsUpTo_stable
    {fuel enough : Nat}
    (first : state ≤ fuel)
    (second : state ≤ enough) :
    chart.ancestorsUpTo fuel state = chart.ancestorsUpTo enough state := by
  have rootOnTop : chart.parent? root = none := by
    cases above : chart.parent? root with
    | none => rfl
    | some parent => exact absurd (rises root parent above) (Nat.not_lt_zero parent)
  induction fuel generalizing state enough with
  | zero =>
      have atRoot : state = root := Nat.le_zero.mp first
      subst atRoot
      cases enough with
      | zero => rfl
      | succ enough => simp [ancestorsUpTo, rootOnTop]
  | succ fuel ih =>
      cases enough with
      | zero =>
          have atRoot : state = root := Nat.le_zero.mp second
          subst atRoot
          simp [ancestorsUpTo, rootOnTop]
      | succ enough =>
          cases above : chart.parent? state with
          | none => simp [ancestorsUpTo, above]
          | some parent =>
              have before := rises state parent above
              have same : chart.ancestorsUpTo fuel parent =
                  chart.ancestorsUpTo enough parent :=
                ih (Nat.le_of_lt_succ (Nat.lt_of_lt_of_le before first))
                  (Nat.le_of_lt_succ (Nat.lt_of_lt_of_le before second))
              simp [ancestorsUpTo, above, same]

theorem ancestors_of_parent
    (below : chart.parent? state = some parent) :
    chart.ancestors state = parent :: chart.ancestors parent := by
  have inRange := parent_in_range below
  have before := rises state parent below
  unfold ancestors
  cases size : chart.size with
  | zero =>
      rw [size] at inRange
      exact absurd inRange (Nat.not_lt_zero state)
  | succ fuel =>
      rw [size] at inRange
      have enough : parent ≤ fuel :=
        Nat.le_of_lt_succ (Nat.lt_trans before inRange)
      have same : chart.ancestorsUpTo fuel parent =
          chart.ancestorsUpTo (fuel + 1) parent :=
        rises.ancestorsUpTo_stable enough (Nat.le_succ_of_le enough)
      rw [ancestorsUpTo.eq_2, below]
      simp only [same]

theorem ancestors_before :
    ∀ ancestor ∈ chart.ancestors state, ancestor < state := by
  induction state using Nat.strongRecOn with
  | _ state ih =>
      intro ancestor member
      cases above : chart.parent? state with
      | none => simp [ancestors_of_no_parent above] at member
      | some parent =>
          have before := rises state parent above
          rw [rises.ancestors_of_parent above] at member
          rcases List.mem_cons.mp member with rfl | further
          · exact before
          · exact Nat.lt_trans (ih parent before ancestor further) before

theorem isInside_iff_mem :
    chart.isInside state outer = true ↔ outer ∈ chart.ancestors state := by
  constructor
  · intro inside
    simp only [isInside, Bool.and_eq_true, List.contains_iff_mem] at inside
    exact inside.2
  · intro member
    have before := rises.ancestors_before outer member
    simp [isInside, before, member]

end Rises

include formed

theorem WellFormed.rises : chart.Rises := fun _ _ => formed.parentBefore

theorem ancestors_of_parent
    (below : chart.parent? state = some parent) :
    chart.ancestors state = parent :: chart.ancestors parent :=
  formed.rises.ancestors_of_parent below

theorem ancestors_before :
    ∀ ancestor ∈ chart.ancestors state, ancestor < state :=
  formed.rises.ancestors_before

theorem isInside_iff_mem :
    chart.isInside state outer = true ↔ outer ∈ chart.ancestors state :=
  formed.rises.isInside_iff_mem

theorem isInside_iff_parent :
    chart.isInside state outer = true ↔
      ∃ parent, chart.parent? state = some parent ∧ chart.Within parent outer := by
  rw [isInside_iff_mem formed]
  cases above : chart.parent? state with
  | none => simp [ancestors_of_no_parent above]
  | some parent =>
      rw [ancestors_of_parent formed above, List.mem_cons]
      constructor
      · rintro (here | further)
        · exact ⟨parent, rfl, .inl here.symm⟩
        · exact ⟨parent, rfl, .inr ((isInside_iff_mem formed).mpr further)⟩
      · rintro ⟨found, same, within⟩
        obtain rfl : parent = found := by simpa using same
        rcases within with here | further
        · exact .inl here.symm
        · exact .inr ((isInside_iff_mem formed).mp further)

theorem inside_of_parent
    (below : chart.parent? state = some parent) :
    chart.isInside state parent = true :=
  (isInside_iff_parent formed).mpr ⟨parent, below, .inl rfl⟩

/-- Whatever a state lies in, its parent lies in too or is. -/
theorem parent_within
    (below : chart.parent? state = some parent)
    (inside : chart.isInside state outer = true) :
    chart.Within parent outer := by
  obtain ⟨same, sameBelow, within⟩ := (isInside_iff_parent formed).mp inside
  rw [below] at sameBelow
  obtain rfl := Option.some.inj sameBelow
  exact within

theorem inside_before
    (inside : chart.isInside state outer = true) :
    outer < state :=
  ancestors_before formed outer ((isInside_iff_mem formed).mp inside)

theorem inside_in_range
    (inside : chart.isInside state outer = true) :
    state < chart.size := by
  obtain ⟨parent, below, _⟩ := (isInside_iff_parent formed).mp inside
  exact parent_in_range below

theorem not_inside_self : chart.isInside state state = false := by
  cases inside : chart.isInside state state with
  | false => rfl
  | true => exact absurd (inside_before formed inside) (Nat.lt_irrefl state)

theorem ne_of_inside
    (inside : chart.isInside state outer = true) :
    state ≠ outer :=
  Nat.ne_of_gt (inside_before formed inside)

theorem inside_trans
    (inside : chart.isInside state outer = true)
    (further : chart.isInside outer far = true) :
    chart.isInside state far = true := by
  induction state using Nat.strongRecOn with
  | _ state ih =>
      obtain ⟨parent, below, within⟩ := (isInside_iff_parent formed).mp inside
      apply (isInside_iff_parent formed).mpr
      rcases within with here | above
      · subst here
        exact ⟨parent, below, .inr further⟩
      · exact ⟨parent, below, .inr (ih parent (formed.parentBefore below) above)⟩

theorem within_inside_trans
    (within : chart.Within state outer)
    (further : chart.isInside outer far = true) :
    chart.isInside state far = true := by
  rcases within with rfl | inside
  · exact further
  · exact inside_trans formed inside further

theorem inside_within_trans
    (inside : chart.isInside state outer = true)
    (further : chart.Within outer far) :
    chart.isInside state far = true := by
  rcases further with rfl | above
  · exact inside
  · exact inside_trans formed inside above

theorem within_trans
    (within : chart.Within state outer)
    (further : chart.Within outer far) :
    chart.Within state far := by
  rcases further with rfl | above
  · exact within
  · exact .inr (within_inside_trans formed within above)

theorem within_antisymm
    (within : chart.Within state outer)
    (back : chart.Within outer state) :
    state = outer := by
  rcases within with same | inside
  · exact same
  · have looped := inside_within_trans formed inside back
    rw [not_inside_self formed] at looped
    cases looped

theorem not_inside_of_within
    (within : chart.Within outer state) :
    chart.isInside state outer = false := by
  cases inside : chart.isInside state outer with
  | false => rfl
  | true =>
      have looped := inside_within_trans formed inside within
      rw [not_inside_self formed] at looped
      cases looped

/-- The states above one state are linearly ordered. -/
theorem within_or_inside
    (first : chart.Within state outer)
    (second : chart.Within state far) :
    chart.Within outer far ∨ chart.isInside far outer = true := by
  induction state using Nat.strongRecOn with
  | _ state ih =>
      rcases first with rfl | first
      · exact .inl second
      · rcases second with rfl | second
        · exact .inr first
        · obtain ⟨parent, below, withinOuter⟩ := (isInside_iff_parent formed).mp first
          exact ih parent (formed.parentBefore below) withinOuter
            (parent_within formed below second)

theorem within_of_not_around
    (first : chart.Within state outer)
    (second : chart.Within state far)
    (around : chart.isInside far outer = false) :
    chart.Within outer far := by
  rcases within_or_inside formed first second with within | inside
  · exact within
  · rw [around] at inside
    cases inside

/-- The child through which the walk from a state reaches a state above it. -/
theorem child_toward
    (inside : chart.isInside state outer = true) :
    ∃ child, chart.parent? child = some outer ∧ chart.Within state child := by
  induction state using Nat.strongRecOn with
  | _ state ih =>
      obtain ⟨parent, below, within⟩ := (isInside_iff_parent formed).mp inside
      rcases within with rfl | above
      · exact ⟨state, below, .inl rfl⟩
      · obtain ⟨child, childBelow, childWithin⟩ :=
          ih parent (formed.parentBefore below) above
        exact ⟨child, childBelow,
          .inr ((isInside_iff_parent formed).mpr ⟨parent, below, childWithin⟩)⟩

theorem within_of_inside_parent
    (below : chart.parent? state = some parent)
    (toward : chart.Within state outer)
    (inside : chart.isInside outer parent = true) :
    chart.Within outer state := by
  rcases toward with rfl | above
  · exact .inl rfl
  · rw [not_inside_of_within formed (parent_within formed below above)] at inside
    cases inside

theorem child_toward_unique
    {first second : StateId}
    (firstBelow : chart.parent? first = some parent)
    (secondBelow : chart.parent? second = some parent)
    (firstWithin : chart.Within state first)
    (secondWithin : chart.Within state second) :
    first = second := by
  rcases within_or_inside formed firstWithin secondWithin with within | inside
  · exact within_antisymm formed within
      (within_of_inside_parent formed firstBelow within (inside_of_parent formed secondBelow))
  · exact within_antisymm formed
      (within_of_inside_parent formed secondBelow (.inr inside)
        (inside_of_parent formed firstBelow)) (.inr inside)

theorem inside_root
    (inRange : state < chart.size)
    (below : state ≠ root) :
    chart.isInside state root = true := by
  induction state using Nat.strongRecOn with
  | _ state ih =>
      obtain ⟨parent, above⟩ := formed.parented inRange below
      have before := formed.parentBefore above
      apply (isInside_iff_parent formed).mpr
      refine ⟨parent, above, ?_⟩
      by_cases top : parent = root
      · exact .inl top
      · exact .inr (ih parent before (Nat.lt_trans before inRange) top)

theorem within_root
    (inRange : state < chart.size) :
    chart.Within state root := by
  by_cases top : state = root
  · exact .inl top
  · exact .inr (inside_root formed inRange top)

theorem not_root_inside : chart.isInside root outer = false := by
  cases inside : chart.isInside root outer with
  | false => rfl
  | true => exact absurd (inside_before formed inside) (Nat.not_lt_zero outer)

theorem ancestors_nested :
    (chart.ancestors state).Pairwise fun near above => chart.isInside near above = true := by
  induction state using Nat.strongRecOn with
  | _ state ih =>
      cases above : chart.parent? state with
      | none => simp [ancestors_of_no_parent above]
      | some parent =>
          rw [ancestors_of_parent formed above, List.pairwise_cons]
          constructor
          · intro ancestor member
            exact (isInside_iff_mem formed).mpr member
          · exact ih parent (formed.parentBefore above)

end Walks

section Between

variable {chart : Chart} (formed : chart.WellFormed)
variable {state parent outer candidate : StateId}

include formed

theorem between_of_parent
    (below : chart.parent? state = some parent) :
    chart.between state outer =
      if parent = outer then [] else parent :: chart.between parent outer := by
  unfold between
  rw [ancestors_of_parent formed below, List.takeWhile_cons]
  by_cases reached : parent = outer <;> simp [reached]

omit formed in
theorem between_of_no_parent
    (top : chart.parent? state = none) :
    chart.between state outer = [] := by
  simp [between, ancestors_of_no_parent top]

theorem between_parent
    (below : chart.parent? state = some parent) :
    chart.between state parent = [] := by
  simp [between_of_parent formed below]

theorem mem_between
    (inside : chart.isInside state outer = true) :
    candidate ∈ chart.between state outer ↔
      chart.isInside state candidate = true ∧ chart.isInside candidate outer = true := by
  induction state using Nat.strongRecOn with
  | _ state ih =>
      obtain ⟨parent, below, within⟩ := (isInside_iff_parent formed).mp inside
      rw [between_of_parent formed below]
      by_cases reached : parent = outer
      · subst reached
        simp only [if_true, List.not_mem_nil, false_iff, not_and]
        intro above
        rw [not_inside_of_within formed
          (within_trans formed (.inl rfl) ?_)]
        · simp
        · exact parent_within formed below above
      · have further : chart.isInside parent outer = true := by
          rcases within with here | further
          · exact absurd here reached
          · exact further
        rw [if_neg reached, List.mem_cons, ih parent (formed.parentBefore below) further]
        constructor
        · rintro (rfl | ⟨above, inner⟩)
          · exact ⟨inside_of_parent formed below, further⟩
          · exact ⟨(isInside_iff_parent formed).mpr ⟨parent, below, .inr above⟩, inner⟩
        · rintro ⟨above, inner⟩
          rcases parent_within formed below above with here | further
          · exact .inl here.symm
          · exact .inr ⟨further, inner⟩

/-- A walk that never meets its end goes on to the root. -/
theorem between_of_not_inside
    (outside : chart.isInside state outer = false) :
    chart.between state outer = chart.ancestors state := by
  unfold between
  rw [List.takeWhile_eq_self_iff]
  intro ancestor member
  have above := (isInside_iff_mem formed).mpr member
  simp only [ne_eq, decide_not, Bool.not_eq_true', decide_eq_false_iff_not]
  intro same
  subst same
  rw [above] at outside
  cases outside

omit formed in
theorem between_subset_ancestors :
    ∀ between ∈ chart.between state outer, between ∈ chart.ancestors state := by
  intro between member
  exact List.takeWhile_subset _ member

theorem between_nested :
    (chart.between state outer).Pairwise fun near above =>
      chart.isInside near above = true :=
  (ancestors_nested formed).sublist (List.takeWhile_sublist _)

end Between

section Regions

variable {chart : Chart} (formed : chart.WellFormed)
variable {state parent region : StateId}

include formed

theorem mem_regions :
    region ∈ chart.regions state ↔
      chart.parent? region = some state ∧ chart.isHistory region = false := by
  simp [regions, formed.mem_children]

theorem regions_nodup (state : StateId) : (chart.regions state).Nodup := by
  have ordered := (formed.childrenOrdered state).filter fun child => !chart.isHistory child
  exact ordered.imp Nat.ne_of_lt

theorem parent_kind
    (below : chart.parent? state = some parent) :
    (∃ initial, chart.kind parent = .compound initial) ∨ chart.kind parent = .parallel := by
  have member : state ∈ chart.children parent := formed.mem_children.mpr below
  cases kind : chart.kind parent with
  | atomic =>
      have leaf : chart.isLeaf parent = true := by simp [isLeaf, kind]
      have childless := formed.leafChildless leaf
      rw [childless] at member
      cases member
  | compound initial => exact .inl ⟨initial, rfl⟩
  | parallel => exact .inr rfl
  | final =>
      have leaf : chart.isLeaf parent = true := by simp [isLeaf, kind]
      have childless := formed.leafChildless leaf
      rw [childless] at member
      cases member
  | history memory defaults =>
      have history : chart.isHistory parent = true := by simp [isHistory, kind]
      have childless := formed.historyChildless history
      rw [childless] at member
      cases member

theorem parent_ordinary
    (below : chart.parent? state = some parent) :
    chart.isHistory parent = false := by
  rcases parent_kind formed below with ⟨initial, kind⟩ | kind <;> simp [isHistory, kind]

theorem outer_ordinary
    {outer : StateId}
    (inside : chart.isInside state outer = true) :
    chart.isHistory outer = false := by
  obtain ⟨child, below, _⟩ := child_toward formed inside
  exact parent_ordinary formed below

theorem not_inside_leaf
    {leaf : StateId}
    (isLeaf : chart.isLeaf leaf = true) :
    chart.isInside state leaf = false := by
  cases inside : chart.isInside state leaf with
  | false => rfl
  | true =>
      obtain ⟨child, below, _⟩ := child_toward formed inside
      have member := formed.mem_children.mpr below
      rw [formed.leafChildless isLeaf] at member
      cases member

theorem eq_of_within_leaf
    {leaf : StateId}
    (isLeaf : chart.isLeaf leaf = true)
    (within : chart.Within state leaf) :
    state = leaf := by
  rcases within with same | inside
  · exact same
  · rw [not_inside_leaf formed isLeaf] at inside
    cases inside

end Regions

end Statechart.Chart
