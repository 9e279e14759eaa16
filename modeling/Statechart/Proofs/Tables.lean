import Mathlib.Data.List.Nodup
import Statechart.StableSort
import Statechart.Table

/-!
# Reading, changing and sorting tables

What a table answers after one of its values has been put in, taken out or changed.
Sorting neither adds items nor loses any.
-/

namespace Statechart

section Sorting

variable {α : Type} (precedes : α → α → Bool)

theorem insertBefore_perm
    (item : α) (items : List α) :
    (insertBefore precedes item items).Perm (item :: items) := by
  induction items with
  | nil => exact .refl _
  | cons first rest ih =>
      unfold insertBefore
      split
      · exact .refl _
      · exact (ih.cons first).trans (List.Perm.swap _ _ _)

theorem sortStably_perm
    (items : List α) :
    (sortStably precedes items).Perm items := by
  induction items with
  | nil => exact .refl _
  | cons item items ih => exact (insertBefore_perm precedes item _).trans (ih.cons item)

end Sorting

namespace Table

section Ordered

variable {κ ν : Type} [LT κ] [DecidableLT κ] [DecidableEq κ]

theorem insert_perm
    {key : κ} {value : ν} {table : Table κ ν}
    (absent : key ∉ table.keys) :
    (table.insert key value).Perm ((key, value) :: table) := by
  induction table with
  | nil => exact .refl _
  | cons entry table ih =>
      obtain ⟨first, held⟩ := entry
      have distinct : key ≠ first := fun same => absent (by simp [keys, same])
      have further : key ∉ keys table := fun member => absent (List.mem_cons_of_mem _ member)
      unfold insert
      rw [if_neg distinct]
      split
      · exact .refl _
      · exact ((ih further).cons _).trans (List.Perm.swap _ _ _)

theorem mem_of_mem_insert
    {key : κ} {value : ν} {table : Table κ ν} {entry : κ × ν}
    (member : entry ∈ table.insert key value) :
    entry = (key, value) ∨ entry ∈ table := by
  induction table with
  | nil => exact .inl (List.mem_singleton.mp member)
  | cons first table ih =>
      unfold insert at member
      split at member
      · exact List.mem_cons.mp member
      · split at member
        · rcases List.mem_cons.mp member with rfl | later
          · exact .inl rfl
          · exact .inr (List.mem_cons_of_mem _ later)
        · rcases List.mem_cons.mp member with rfl | later
          · exact .inr List.mem_cons_self
          · exact (ih later).imp_right (List.mem_cons_of_mem _)

theorem get?_insert
    (table : Table κ ν) (key other : κ) (value : ν) :
    (table.insert key value).get? other =
      if other = key then some value else table.get? other := by
  induction table with
  | nil =>
      by_cases same : key = other
      · simp [insert, get?, same]
      · simp [insert, get?, same, Ne.symm same]
  | cons pair rest ih =>
      obtain ⟨first, held⟩ := pair
      by_cases before : key < first
      · by_cases same : key = other
        · subst same
          simp [insert, before, get?]
        · simp [insert, before, get?, same, Ne.symm same]
      · by_cases equal : key = first
        · subst equal
          by_cases same : key = other
          · subst same
            simp [insert, before, get?]
          · simp [insert, before, get?, same, Ne.symm same]
        · simp only [insert, before, equal, if_false]
          by_cases same : first = other
          · subst same
            simp [get?, Ne.symm equal]
          · simp only [get?, List.find?_cons, same, decide_false] at ih ⊢
            exact ih

theorem insert_last
    [Std.Asymm (α := κ) (· < ·)]
    {key : κ} {table : Table κ ν} (value : ν)
    (greatest : ∀ entry ∈ table, entry.1 < key) :
    table.insert key value = table ++ [(key, value)] := by
  induction table with
  | nil => rfl
  | cons entry table ih =>
      have before : entry.1 < key := greatest entry List.mem_cons_self
      have notBefore : ¬ key < entry.1 := Std.Asymm.asymm _ _ before
      have notEqual : key ≠ entry.1 := fun same => notBefore (by rw [same] at before ⊢; exact before)
      have further := ih fun other member => greatest other (List.mem_cons_of_mem _ member)
      rw [insert, if_neg notBefore, if_neg notEqual, further]
      rfl

theorem ofList_of_sorted
    [Std.Asymm (α := κ) (· < ·)]
    {table : Table κ ν}
    (sorted : table.Sorted) :
    Table.ofList table = table := by
  have placed : ∀ later earlier : Table κ ν, Table.Sorted (earlier ++ later) →
      later.foldl (fun table pair => Table.insert pair.1 pair.2 table) earlier =
        earlier ++ later := by
    intro later
    induction later with
    | nil =>
        intro earlier _
        simp
    | cons entry later ih =>
        intro earlier sorted
        have greatest : ∀ other ∈ earlier, other.1 < entry.1 := by
          intro other member
          rw [Table.Sorted, Table.keys, List.map_append, List.map_cons] at sorted
          exact (List.pairwise_append.mp sorted).2.2 other.1 (List.mem_map_of_mem member) entry.1
            List.mem_cons_self
        rw [List.foldl_cons, insert_last entry.2 greatest, ih _ (by simpa using sorted)]
        simp
  exact placed table [] sorted

theorem get?_ofList
    (pairs : List (κ × ν)) (key : κ) :
    (Table.ofList pairs).get? key = Table.get? pairs.reverse key := by
  have placed : ∀ (pairs : List (κ × ν)) (table : Table κ ν),
      Table.get? (pairs.foldl (fun table pair => Table.insert pair.1 pair.2 table) table) key =
        (Table.get? pairs.reverse key).or (table.get? key) := by
    intro pairs
    induction pairs with
    | nil => exact fun _ => rfl
    | cons pair pairs ih =>
        intro table
        rw [List.foldl_cons, ih, get?_insert, List.reverse_cons, get?, get?, get?,
          List.find?_append]
        by_cases same : key = pair.1
        · simp [same]
        · simp [same, Ne.symm same]
  rw [Table.ofList, placed, get?, get?, List.find?_nil, Option.map_none, Option.or_none]

end Ordered

section Lookup

variable {κ ν : Type} [DecidableEq κ] {table : Table κ ν} {key : κ} {value : ν}

theorem get?_eq_none_iff : table.get? key = none ↔ key ∉ table.keys := by
  simp only [get?, Option.map_eq_none_iff, List.find?_eq_none, keys, List.mem_map,
    decide_eq_true_eq, not_exists, not_and]

theorem mem_of_get?
    (found : table.get? key = some value) :
    (key, value) ∈ table := by
  obtain ⟨entry, isFirst, rfl⟩ := Option.map_eq_some_iff.mp found
  have same : entry.1 = key := by simpa using List.find?_some isFirst
  rw [← same]
  exact List.mem_of_find?_eq_some isFirst

theorem mem_erase
    {entry : κ × ν} :
    entry ∈ table.erase key ↔ entry ∈ table ∧ entry.1 ≠ key := by
  simp [erase]

theorem perm_erase
    (distinct : table.keys.Nodup)
    (member : (key, value) ∈ table) :
    table.Perm ((key, value) :: table.erase key) := by
  induction table with
  | nil => cases member
  | cons entry table ih =>
      obtain ⟨absent, apart⟩ := List.nodup_cons.mp distinct
      rcases List.mem_cons.mp member with rfl | later
      · have others : (erase ((key, value) :: table) key) = table := by
          rw [erase, List.filter_cons_of_neg (by simp), List.filter_eq_self]
          intro other isMember
          exact decide_eq_true fun same => absent (List.mem_map.mpr ⟨other, isMember, same⟩)
        rw [others]
      · have stays : entry.1 ≠ key := fun same => absent (List.mem_map.mpr ⟨_, later, same.symm⟩)
        have rest : erase (entry :: table) key = entry :: erase table key :=
          List.filter_cons_of_pos (decide_eq_true stays)
        rw [rest]
        exact ((ih apart later).cons entry).trans (List.Perm.swap _ _ _)

theorem keys_modify
    (change : ν → ν) :
    (table.modify key change).keys = table.keys := by
  simp only [keys, modify, List.map_map]
  refine List.map_congr_left fun entry _ => ?_
  simp only [Function.comp_apply]
  split <;> rfl

theorem get?_modify
    (change : ν → ν) (other : κ) :
    (table.modify key change).get? other =
      (table.get? other).map fun value => if other = key then change value else value := by
  induction table with
  | nil => rfl
  | cons entry table ih =>
      obtain ⟨first, held⟩ := entry
      by_cases same : first = other
      · subst same
        by_cases changed : first = key <;> simp [modify, get?, changed]
      · simp only [modify, get?, List.map_cons] at ih ⊢
        split <;> simpa [List.find?_cons, same] using ih

end Lookup

end Table

end Statechart
