import Mathlib.Data.List.Perm.Basic
import Statechart.Proofs.Records
import Statechart.Proofs.StateNames

/-!
# Records written down and read again

The records that a machine keeps are a sorted table from history states to states of its
chart, whatever it was that was active when they were made.  Written down by name and read
again, such a table is the same, provided that all states that it names are found under
their own ids.
-/

namespace Statechart

namespace StateSet

theorem Ordered.ofList_eq_iff
    {set : StateSet} {states : List StateId}
    (ordered : set.Ordered)
    (enough : states.length = set.length) :
    StateSet.ofList states = set ↔ states.Perm set := by
  have rebuilt : (StateSet.ofList states).Ordered := ordered_nil.insertAll states
  have members : ∀ state, state ∈ StateSet.ofList states ↔ state ∈ states := by
    simp [StateSet.ofList]
  constructor
  · rintro rfl
    have within := List.subperm_of_subset ordered.nodup fun state => (members state).mp
    exact (within.perm_of_length_le enough.le).symm
  · intro same
    have listed : (StateSet.ofList states).Perm set := by
      refine (List.perm_ext_iff_of_nodup rebuilt.nodup ordered.nodup).mpr fun state => ?_
      exact (members state).trans same.mem_iff
    exact listed.eq_of_pairwise
      (fun _ _ _ _ before after => absurd before (Nat.lt_asymm after)) rebuilt ordered

end StateSet

namespace Table

variable {ν : Type}

section Linear

variable {κ : Type} [LT κ] [DecidableLT κ] [DecidableEq κ]
variable [Trans (α := κ) (β := κ) (γ := κ) (· < ·) (· < ·) (· < ·)]
variable [Std.Trichotomous (α := κ) (· < ·)]

theorem Sorted.insert
    {table : Table κ ν}
    (sorted : table.Sorted)
    (key : κ) (value : ν) :
    (table.insert key value).Sorted := by
  induction table with
  | nil => simp [Sorted, Table.insert, keys]
  | cons entry table ih =>
      obtain ⟨first, held⟩ := entry
      obtain ⟨before, rest⟩ := List.pairwise_cons.mp sorted
      unfold Table.insert
      split
      · rename_i smaller
        refine List.pairwise_cons.mpr ⟨?_, sorted⟩
        intro other member
        rcases List.mem_cons.mp member with rfl | later
        · exact smaller
        · exact Trans.trans smaller (before other later)
      · rename_i notSmaller
        split
        · rename_i same
          exact List.pairwise_cons.mpr ⟨fun other member => same ▸ before other member, rest⟩
        · rename_i different
          refine List.pairwise_cons.mpr ⟨?_, ih rest⟩
          intro other member
          obtain ⟨entry, isMember, rfl⟩ := List.mem_map.mp member
          rcases mem_of_mem_insert isMember with rfl | earlier
          · exact Decidable.by_contra fun notLarger =>
              different (Std.Trichotomous.trichotomous _ _ notSmaller notLarger)
          · exact before entry.1 (List.mem_map.mpr ⟨entry, earlier, rfl⟩)

theorem sorted_ofList
    (pairs : List (κ × ν)) :
    (Table.ofList pairs).Sorted := by
  have kept : ∀ (pairs : List (κ × ν)) (table : Table κ ν), table.Sorted →
      (pairs.foldl (fun table pair => Table.insert pair.1 pair.2 table) table).Sorted := by
    intro pairs
    induction pairs with
    | nil => exact fun _ sorted => sorted
    | cons pair pairs ih => exact fun _ sorted => ih _ (sorted.insert pair.1 pair.2)
  exact kept pairs [] List.Pairwise.nil

end Linear

theorem insertAll_perm
    {κ : Type} [LT κ] [DecidableLT κ] [DecidableEq κ]
    (pairs : List (κ × ν)) {table : Table κ ν}
    (distinct : ((pairs ++ table).map Prod.fst).Nodup) :
    (pairs.foldl (fun table pair => Table.insert pair.1 pair.2 table) table).Perm
      (pairs ++ table) := by
  induction pairs generalizing table with
  | nil => exact .refl _
  | cons pair pairs ih =>
      have moved : (pairs ++ pair :: table).Perm (pair :: pairs ++ table) := List.perm_middle
      have apart : ((pairs ++ pair :: table).map Prod.fst).Nodup :=
        (moved.map Prod.fst).nodup_iff.mpr distinct
      have vacant : pair.1 ∉ keys table := by
        rw [List.map_append, List.map_cons] at apart
        exact (List.nodup_cons.mp (List.nodup_append.mp apart).2.1).1
      have placed : (Table.insert pair.1 pair.2 table).Perm (pair :: table) := insert_perm vacant
      have front := placed.append_left pairs
      exact ((ih ((front.map Prod.fst).nodup_iff.mpr apart)).trans front).trans moved

theorem ofList_perm
    {κ : Type} [LT κ] [DecidableLT κ] [DecidableEq κ]
    {pairs : List (κ × ν)}
    (distinct : (pairs.map Prod.fst).Nodup) :
    (Table.ofList pairs).Perm pairs := by
  have placed : (Table.ofList pairs).Perm (pairs ++ []) :=
    insertAll_perm pairs (by rwa [List.append_nil])
  rwa [List.append_nil] at placed

theorem mem_keys_ofList
    {κ : Type} [LT κ] [DecidableLT κ] [DecidableEq κ]
    {pairs : List (κ × ν)} {key : κ}
    (member : key ∈ keys (Table.ofList pairs)) :
    key ∈ pairs.map Prod.fst := by
  have folded : ∀ (pairs : List (κ × ν)) (table : Table κ ν) (entry : κ × ν),
      entry ∈ pairs.foldl (fun table pair => Table.insert pair.1 pair.2 table) table →
        entry ∈ pairs ∨ entry ∈ table := by
    intro pairs
    induction pairs with
    | nil => exact fun _ _ member => .inr member
    | cons pair pairs ih =>
        intro table entry member
        rcases ih _ entry member with later | placed
        · exact .inl (List.mem_cons_of_mem _ later)
        · rcases mem_of_mem_insert placed with rfl | earlier
          · exact .inl List.mem_cons_self
          · exact .inr earlier
  obtain ⟨entry, isMember, rfl⟩ := List.mem_map.mp member
  rcases folded pairs [] entry isMember with here | nowhere
  · exact List.mem_map.mpr ⟨entry, here, rfl⟩
  · cases nowhere

/-- As many pairs as a sorted table has make it up exactly if they are its pairs in some
order. -/
theorem Sorted.ofList_eq_iff
    {table : Table Nat ν} {pairs : List (Nat × ν)}
    (sorted : table.Sorted)
    (enough : pairs.length = table.length) :
    Table.ofList pairs = table ↔ pairs.Perm table := by
  have nodup : ∀ {table : Table Nat ν}, table.Sorted → (keys table).Nodup :=
    fun sorted => List.Pairwise.imp Nat.ne_of_lt sorted
  constructor
  · rintro rfl
    have within : (keys (Table.ofList pairs)).Subperm (pairs.map Prod.fst) :=
      List.subperm_of_subset (nodup sorted) fun _ => mem_keys_ofList
    have counted : (pairs.map Prod.fst).length ≤ (keys (Table.ofList pairs)).length := by
      simpa [keys] using enough.le
    exact (ofList_perm ((within.perm_of_length_le counted).nodup_iff.mp (nodup sorted))).symm
  · intro same
    have distinct : (pairs.map Prod.fst).Nodup := (same.map Prod.fst).nodup_iff.mpr (nodup sorted)
    have byKey : ∀ table : Table Nat ν, table.Sorted →
        List.Pairwise (fun first second => first.1 < second.1) table :=
      fun _ sorted => List.pairwise_map.mp sorted
    exact ((ofList_perm distinct).trans same).eq_of_pairwise
      (fun _ _ _ _ before after => absurd before (Nat.lt_asymm after))
      (byKey _ (sorted_ofList pairs)) (byKey _ sorted)

end Table

namespace Chart

/-- Records of states for history states of the chart, in the order of these. -/
structure Keeps (chart : Chart) (records : HistoryRecords) : Prop where
  sorted : Table.Sorted records
  history : ∀ entry ∈ records, chart.isHistory entry.1 = true
  inRange : ∀ entry ∈ records, ∀ state ∈ entry.2, state < chart.size

section Keeping

variable {chart : Chart} {records : HistoryRecords}

theorem keeps_empty (chart : Chart) : chart.Keeps HistoryRecords.empty :=
  ⟨List.Pairwise.nil, (fun _ member => by cases member), fun _ member => by cases member⟩

theorem Keeps.record
    {history : StateId} {states : List StateId}
    (keeps : chart.Keeps records)
    (isHistory : chart.isHistory history = true)
    (inRange : ∀ state ∈ states, state < chart.size) :
    chart.Keeps (records.record history states) where
  sorted := keeps.sorted.insert history states
  history := by
    intro entry member
    rcases Table.mem_of_mem_insert member with rfl | earlier
    · exact isHistory
    · exact keeps.history entry earlier
  inRange := by
    intro entry member
    rcases Table.mem_of_mem_insert member with rfl | earlier
    · exact inRange
    · exact keeps.inRange entry earlier

theorem remembered_in_range
    {active : Configuration} {parent state : StateId} {kind : HistoryKind}
    (member : state ∈ chart.remembered active parent kind) :
    state < chart.size := by
  have below : ∃ above, chart.parent? state = some above := by
    cases kind with
    | shallow => exact ⟨parent, by simpa using (List.mem_filter.mp member).2⟩
    | deep =>
        have inside := (Bool.and_eq_true_iff.mp (List.mem_filter.mp member).2).2
        simp only [isInside, Bool.and_eq_true, List.contains_iff_mem] at inside
        have above := inside.2
        unfold ancestors at above
        cases fuel : chart.size with
        | zero => simp [fuel, ancestorsUpTo] at above
        | succ fuel' =>
            rw [fuel, ancestorsUpTo] at above
            cases found : chart.parent? state with
            | none => simp [found] at above
            | some other => exact ⟨other, rfl⟩
  obtain ⟨above, found⟩ := below
  exact parent_in_range found

theorem Keeps.recordHistory
    (keeps : chart.Keeps records)
    (active : Configuration) (exiting : List StateId) :
    chart.Keeps (chart.recordHistory active records exiting) := by
  refine List.foldlRecOn (motive := chart.Keeps) exiting _ keeps ?_
  intro records keeps parent _
  refine List.foldlRecOn (motive := chart.Keeps) (chart.children parent) _ keeps ?_
  intro records keeps child _
  split
  · rename_i memory defaults kind
    exact keeps.record (by simp [isHistory, kind]) fun _ member => remembered_in_range member
  · exact keeps

theorem lookUpHistory_eq_ok_iff
    {reference : String} {history : StateId} :
    chart.lookUpHistory reference = .ok history ↔
      chart.find? reference = some history ∧ chart.isHistory history = true := by
  unfold lookUpHistory lookUp
  cases found : chart.find? reference with
  | none => simp
  | some state =>
      dsimp only
      split
      · rename_i isHistory
        simp only [Except.ok.injEq, Option.some.injEq]
        exact ⟨fun same => ⟨same, same ▸ isHistory⟩, fun both => both.1⟩
      · rename_i ordinary
        simp only [reduceCtorEq, Option.some.injEq, false_iff, not_and]
        exact fun same => same ▸ ordinary

theorem resolveHistory_eq_ok_iff
    {entries : List (String × List String)} {records result : HistoryRecords} :
    chart.resolveHistory entries records = .ok result ↔
      ∃ pairs : List (StateId × List StateId),
        (entries.map fun entry => (chart.find? entry.1, entry.2.map chart.find?)) =
            (pairs.map fun pair => (some pair.1, pair.2.map some)) ∧
          (∀ pair ∈ pairs, chart.isHistory pair.1 = true) ∧
          pairs.foldl (fun table pair => Table.insert pair.1 pair.2 table) records = result := by
  induction entries generalizing records with
  | nil => simp [resolveHistory]
  | cons entry entries ih =>
      obtain ⟨reference, references⟩ := entry
      rw [resolveHistory]
      constructor
      · intro resolved
        split at resolved
        · cases resolved
        · rename_i history looked
          split at resolved
          · cases resolved
          · rename_i states lookedUpAll
            obtain ⟨found, isHistory⟩ := lookUpHistory_eq_ok_iff.mp looked
            obtain ⟨pairs, reads, areHistory, folded⟩ := ih.mp resolved
            refine ⟨(history, states) :: pairs, ?_,
              List.forall_mem_cons.mpr ⟨isHistory, areHistory⟩, folded⟩
            rw [List.map_cons, List.map_cons, reads, found, lookUpAll_eq_ok_iff.mp lookedUpAll]
      · rintro ⟨pairs, reads, areHistory, folded⟩
        cases pairs with
        | nil => simp at reads
        | cons pair pairs =>
            obtain ⟨isHistory, areHistory⟩ := List.forall_mem_cons.mp areHistory
            obtain ⟨here, others⟩ := List.cons.inj reads
            obtain ⟨found, foundAll⟩ := Prod.mk.inj here
            rw [lookUpHistory_eq_ok_iff.mpr ⟨found, isHistory⟩,
              lookUpAll_eq_ok_iff.mpr foundAll]
            exact ih.mpr ⟨pairs, others, areHistory, folded⟩

theorem resolveHistory_keeps
    {entries : List (String × List String)} {result : HistoryRecords}
    (inRange : ∀ {reference state}, chart.find? reference = some state → state < chart.size)
    (keeps : chart.Keeps records)
    (resolved : chart.resolveHistory entries records = .ok result) :
    chart.Keeps result := by
  induction entries generalizing records with
  | nil => exact Except.ok.inj resolved ▸ keeps
  | cons entry entries ih =>
      rw [resolveHistory] at resolved
      split at resolved
      · cases resolved
      · rename_i history looked
        split at resolved
        · cases resolved
        · rename_i states lookedUpAll
          refine ih (keeps.record (lookUpHistory_eq_ok_iff.mp looked).2 ?_) resolved
          intro state member
          have listed : some state ∈ entry.2.map chart.find? := by
            rw [lookUpAll_eq_ok_iff.mp lookedUpAll]
            exact List.mem_map.mpr ⟨state, member, rfl⟩
          obtain ⟨reference, _, found⟩ := List.mem_map.mp listed
          exact inRange found

/-- Active states that are written down by name are read again exactly if the names, in some
order, are read as these states. -/
theorem resolveConfiguration_ids_iff
    {active : Configuration}
    (ordered : active.Ordered)
    (valid : chart.check active = none) :
    chart.resolveConfiguration (chart.ids active) = .ok active ↔
      (active.map chart.reading).Perm (active.map some) := by
  have named : (chart.ids active).map chart.find? = active.map chart.reading := List.map_map
  constructor
  · intro resolved
    unfold resolveConfiguration at resolved
    split at resolved
    · cases resolved
    · rename_i states lookedUpAll
      have reads := named.symm.trans (lookUpAll_eq_ok_iff.mp lookedUpAll)
      have enough : states.length = active.length := by
        simpa using (congrArg List.length reads).symm
      split at resolved
      · cases resolved
      · rw [reads]
        exact ((ordered.ofList_eq_iff enough).mp (Except.ok.inj resolved)).map some
  · intro same
    obtain ⟨states, reads, permuted⟩ :=
      (congrFun₂ (List.eq_map_comp_perm some) (active.map chart.reading) active).mpr same
    have rebuilt := (ordered.ofList_eq_iff permuted.length_eq).mpr permuted
    unfold resolveConfiguration
    rw [lookUpAll_eq_ok_iff.mpr (named.trans reads)]
    dsimp only
    rw [rebuilt, valid]

/-- Kept records that are written down by name are read again exactly if the names, in some
order, are read as what the records hold. -/
theorem Keeps.resolveHistory_iff
    (keeps : chart.Keeps records)
    (named : chart.WellNamed) :
    chart.resolveHistory (Table.ofList (records.map fun (history, states) =>
        (chart.id history, chart.ids states))) HistoryRecords.empty = .ok records ↔
      (records.map fun entry => (chart.reading entry.1, entry.2.map chart.reading)).Perm
        (records.map fun entry => (some entry.1, entry.2.map some)) := by
  let name : StateId × List StateId → String × List String := fun entry =>
    (chart.id entry.1, chart.ids entry.2)
  let read : String × List String → Option StateId × List (Option StateId) := fun entry =>
    (chart.find? entry.1, entry.2.map chart.find?)
  let hold : StateId × List StateId → Option StateId × List (Option StateId) := fun entry =>
    (some entry.1, entry.2.map some)
  have distinct : ((records.map name).map Prod.fst).Nodup := by
    have keys : ((records.map name).map Prod.fst) = (Table.keys records).map chart.id := by
      simp [name, Table.keys, List.map_map, Function.comp_def]
    rw [keys]
    refine List.Nodup.map_on ?_ (List.Pairwise.imp Nat.ne_of_lt keeps.sorted)
    intro first isFirst second isSecond same
    have inRange : ∀ key ∈ Table.keys records, key < chart.size := by
      intro key member
      obtain ⟨entry, isEntry, rfl⟩ := List.mem_map.mp member
      exact history_in_range (keeps.history entry isEntry)
    exact named.distinct (inRange first isFirst) (inRange second isSecond) same
  -- The names are sorted in another way than the states that they are names of.
  have written : ((Table.ofList (records.map name)).map read).Perm
      (records.map fun entry => (chart.reading entry.1, entry.2.map chart.reading)) := by
    refine ((Table.ofList_perm distinct).map read).trans (List.Perm.of_eq ?_)
    simp [name, read, reading, ids, List.map_map, Function.comp_def]
  have enough : (Table.ofList (records.map name)).length = records.length := by
    simpa using (Table.ofList_perm distinct).length_eq
  refine resolveHistory_eq_ok_iff.trans ⟨?_, ?_⟩
  · rintro ⟨pairs, reads, _, made⟩
    have counted : pairs.length = records.length := by
      have lengths := congrArg List.length reads
      simp only [List.length_map] at lengths
      exact lengths.symm.trans enough
    have same : pairs.Perm records := (keeps.sorted.ofList_eq_iff counted).mp made
    exact written.symm.trans ((List.Perm.of_eq reads).trans (same.map hold))
  · intro permuted
    obtain ⟨pairs, reads, same⟩ := (congrFun₂ (List.eq_map_comp_perm hold)
      ((Table.ofList (records.map name)).map read) records).mpr (written.trans permuted)
    exact ⟨pairs, reads, fun pair member => keeps.history pair (same.mem_iff.mp member),
      (keeps.sorted.ofList_eq_iff same.length_eq).mpr same⟩

end Keeping

end Chart

end Statechart
