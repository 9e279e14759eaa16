import Statechart.Configuration

/-!
# Sets of states

Membership after each of the operations on sets of states.  Taking states out one by one
is the same as taking them out together, which is how a step compares with its forecast.
-/

namespace Statechart.StateSet

@[simp] theorem mem_insert
    {state candidate : StateId} {set : StateSet} :
    candidate ∈ StateSet.insert state set ↔ candidate = state ∨ candidate ∈ set := by
  induction set with
  | nil => simp [StateSet.insert]
  | cons first rest ih =>
      by_cases before : state < first
      · simp [StateSet.insert, before]
      · by_cases same : state = first
        · subst same
          simp [StateSet.insert]
        · simp only [StateSet.insert, before, same, if_false, List.mem_cons, ih]
          constructor
          · rintro (here | new | later)
            · exact .inr (.inl here)
            · exact .inl new
            · exact .inr (.inr later)
          · rintro (new | here | later)
            · exact .inr (.inl new)
            · exact .inl here
            · exact .inr (.inr later)

@[simp] theorem mem_insertAll
    {candidate : StateId} {states : List StateId} {set : StateSet} :
    candidate ∈ set.insertAll states ↔ candidate ∈ states ∨ candidate ∈ set := by
  induction states generalizing set with
  | nil => simp [insertAll]
  | cons state states ih =>
      have unfolded : set.insertAll (state :: states) =
          (StateSet.insert state set).insertAll states := rfl
      rw [unfolded, ih, mem_insert, List.mem_cons]
      constructor
      · rintro (later | new | held)
        · exact .inl (.inr later)
        · exact .inl (.inl new)
        · exact .inr held
      · rintro ((new | later) | held)
        · exact .inr (.inl new)
        · exact .inl later
        · exact .inr (.inr held)

@[simp] theorem mem_remove
    {state candidate : StateId} {set : StateSet} :
    candidate ∈ set.remove state ↔ candidate ∈ set ∧ candidate ≠ state := by
  simp [remove]

@[simp] theorem mem_removeAll
    {candidate : StateId} {set : StateSet} {states : List StateId} :
    candidate ∈ set.removeAll states ↔ candidate ∈ set ∧ candidate ∉ states := by
  simp [removeAll]

/-- Sets gathered item by item hold what was there and what the items contribute. -/
theorem mem_foldl_iff
    {α : Type} {step : StateSet → α → StateSet} {contributes : α → Prop} {state : StateId}
    (adds : ∀ set item, state ∈ step set item ↔ state ∈ set ∨ contributes item)
    (items : List α) (set : StateSet) :
    state ∈ items.foldl step set ↔ state ∈ set ∨ ∃ item ∈ items, contributes item := by
  induction items generalizing set with
  | nil => simp
  | cons item items ih =>
      rw [List.foldl_cons, ih, adds]
      simp only [List.mem_cons, exists_eq_or_imp, or_assoc]

theorem disjoint_iff
    {left right : StateSet} :
    disjoint left right = true ↔ ∀ state ∈ left, state ∉ right := by
  simp [disjoint]

theorem removeAll_nil (set : StateSet) : set.removeAll [] = set := by
  simp [removeAll]

theorem removeAll_cons
    (set : StateSet) (state : StateId) (states : List StateId) :
    set.removeAll (state :: states) = (set.remove state).removeAll states := by
  simp only [removeAll, remove, List.filter_filter]
  apply List.filter_congr
  intro candidate _
  by_cases same : candidate = state <;> simp [same]

theorem insertAll_cons
    (set : StateSet) (state : StateId) (states : List StateId) :
    set.insertAll (state :: states) = (StateSet.insert state set).insertAll states := rfl

/-- A set written in increasing order, hence without repetition. -/
def Ordered (set : StateSet) : Prop := set.Pairwise (· < ·)

theorem ordered_nil : Ordered [] := List.Pairwise.nil

theorem Ordered.nodup {set : StateSet} (ordered : set.Ordered) : set.Nodup :=
  ordered.imp Nat.ne_of_lt

theorem Ordered.insert
    {set : StateSet}
    (ordered : set.Ordered)
    (state : StateId) :
    (StateSet.insert state set).Ordered := by
  induction set with
  | nil => simp [Ordered, StateSet.insert]
  | cons first rest ih =>
      obtain ⟨firstBefore, restOrdered⟩ := List.pairwise_cons.mp ordered
      unfold StateSet.insert
      by_cases before : state < first
      · rw [if_pos before]
        refine List.pairwise_cons.mpr ⟨?_, ordered⟩
        intro other member
        rcases List.mem_cons.mp member with rfl | further
        · exact before
        · exact Nat.lt_trans before (firstBefore other further)
      · rw [if_neg before]
        by_cases same : state = first
        · rw [if_pos same]
          exact ordered
        · rw [if_neg same]
          refine List.pairwise_cons.mpr ⟨?_, ih restOrdered⟩
          intro other member
          rcases mem_insert.mp member with rfl | further
          · exact Nat.lt_of_le_of_ne (Nat.le_of_not_lt before) (Ne.symm same)
          · exact firstBefore other further

theorem Ordered.insertAll
    {set : StateSet}
    (ordered : set.Ordered)
    (states : List StateId) :
    (set.insertAll states).Ordered := by
  induction states generalizing set with
  | nil => exact ordered
  | cons state states ih => exact ih (ordered.insert state)

theorem Ordered.removeAll
    {set : StateSet}
    (ordered : set.Ordered)
    (states : List StateId) :
    (set.removeAll states).Ordered :=
  ordered.filter _

end Statechart.StateSet
