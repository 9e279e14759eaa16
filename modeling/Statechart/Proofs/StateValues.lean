import Mathlib.Data.List.Sort
import Statechart.Proofs.StatePaths
import Statechart.Proofs.Tables
import Statechart.Proofs.Validity

/-!
# State values

The value of a configuration shows the keys of the active states as a tree, in a form that depends
on their kinds.  Still, just the paths of the active states lead into it; so a text matches it
exactly if its segments are the path of an active state, and it tells which configuration it is
the value of.
-/

namespace Statechart

theorem Table.get?_eq_some_iff
    {κ ν : Type} [DecidableEq κ] {table : Table κ ν} {key : κ} {value : ν}
    (distinct : table.keys.Nodup) :
    table.get? key = some value ↔ (key, value) ∈ table := by
  refine ⟨mem_of_get?, fun member => ?_⟩
  cases found : table.get? key with
  | none => exact absurd (List.mem_map.mpr ⟨_, member, rfl⟩) (get?_eq_none_iff.mp found)
  | some other =>
      have same := List.inj_on_of_nodup_map distinct (mem_of_get? found) member rfl
      exact congrArg some (Prod.mk.inj same).2

theorem StateValue.leadsInto_branch
    (children : List (String × StateValue)) (head : String) (rest : List String) :
    (branch children).leadsInto (head :: rest) = true ↔
      ∃ child, Table.get? children head = some child ∧ child.leadsInto rest = true := by
  rw [leadsInto]
  induction children with
  | nil => simp [anyLeadsInto, Table.get?]
  | cons child children ih =>
      rw [anyLeadsInto]
      by_cases same : child.1 = head
      · simp [Table.get?, same]
      · simp only [same, if_false, ih]
        simp [Table.get?, same]

namespace Chart

section Values

variable {chart : Chart} {active : Configuration}
variable (formed : chart.WellFormed) (keyed : chart.Keyed) (valid : chart.Valid active)
variable {state : StateId}

/-- The children of a state that are active. -/
def activeChildren (chart : Chart) (active : Configuration) (state : StateId) : List StateId :=
  (chart.children state).filter active.contains

include formed

theorem valueWithin_leaf
    (leaf : chart.isLeaf state = true) (fuel : Nat) :
    chart.valueWithin active fuel state = .branch [] := by
  cases fuel with
  | zero => rfl
  | succ fuel =>
      have childless := formed.leafChildless leaf
      have notParallel : chart.isParallel state = false := by
        unfold isLeaf at leaf
        cases kind : chart.kind state <;> simp_all [isParallel]
      simp [valueWithin, childless, notParallel]

theorem activeChildren_leaf
    (leaf : chart.isLeaf state = true) :
    chart.activeChildren active state = [] := by
  rw [activeChildren, formed.leafChildless leaf, List.filter_nil]

theorem valueWithin_parallel
    (parallel : chart.isParallel state = true) (fuel : Nat) :
    chart.valueWithin active (fuel + 1) state =
      .branch (Table.ofList ((chart.activeChildren active state).map fun child =>
        (chart.key child, chart.valueWithin active fuel child))) := by
  have shown : ∀ child, (if chart.isLeaf child then StateValue.branch [] else
      chart.valueWithin active fuel child) = chart.valueWithin active fuel child := by
    intro child
    split
    · exact (valueWithin_leaf formed ‹_› fuel).symm
    · rfl
  rw [valueWithin, if_pos parallel]
  simp only [shown]
  rfl

theorem leadsInto_single
    {child : StateId}
    (single : chart.isParallel state = false)
    (only : chart.activeChildren active state = [child])
    (fuel : Nat) (head : String) (rest : List String) :
    (chart.valueWithin active (fuel + 1) state).leadsInto (head :: rest) = true ↔
      chart.key child = head ∧ (chart.valueWithin active fuel child).leadsInto rest = true := by
  rw [activeChildren] at only
  by_cases leaf : chart.isLeaf child = true
  · have shown : chart.valueWithin active (fuel + 1) state = .leaf (chart.key child) := by
      simp [valueWithin, single, only, leaf]
    rw [shown, valueWithin_leaf formed leaf, StateValue.leadsInto]
    cases rest <;> simp [StateValue.leadsInto, StateValue.anyLeadsInto]
  · have shown : chart.valueWithin active (fuel + 1) state =
        .branch [(chart.key child, chart.valueWithin active fuel child)] := by
      simp [valueWithin, single, only, leaf]
    rw [shown, StateValue.leadsInto_branch]
    by_cases same : chart.key child = head <;> simp [Table.get?, same]

omit formed
include valid

theorem activeChildren_eq_activeRegions :
    chart.activeChildren active state = chart.activeRegions active state := by
  rw [activeChildren, activeRegions, regions, List.filter_filter]
  refine List.filter_congr fun child _ => ?_
  by_cases isActive : child ∈ active
  · simp [isActive, valid.ordinary child isActive]
  · simp [isActive]

include formed

theorem activeChildren_of_compound
    (isActive : state ∈ active)
    (compound : chart.isCompound state = true) :
    ∃ child, chart.activeChildren active state = [child] := by
  rw [activeChildren_eq_activeRegions valid, ← List.length_eq_one_iff,
    activeRegions_length_eq_one_iff (regions_nodup formed state)]
  exact valid.compoundChild state isActive compound

omit valid in
theorem mem_activeChildren
    {child : StateId} :
    child ∈ chart.activeChildren active state ↔
      chart.parent? child = some state ∧ child ∈ active := by
  rw [activeChildren, List.mem_filter, formed.mem_children, List.contains_iff_mem]

include keyed

omit valid in
theorem activeChildren_keys_nodup :
    ((chart.activeChildren active state).map chart.key).Nodup := by
  refine List.Nodup.map_on ?_ ((formed.childrenOrdered state).imp Nat.ne_of_lt |>.filter _)
  intro first isFirst second isSecond same
  exact keyed.distinct ((mem_activeChildren formed).mp isFirst).1
    ((mem_activeChildren formed).mp isSecond).1 same

omit valid in
theorem get?_ofList_activeChildren
    (value : StateId → StateValue) (key : String) (found : StateValue) :
    (Table.ofList ((chart.activeChildren active state).map fun child =>
        (chart.key child, value child))).get? key = some found ↔
      ∃ child ∈ chart.activeChildren active state, chart.key child = key ∧ value child = found := by
  have distinct : ((chart.activeChildren active state).map chart.key).Nodup :=
    activeChildren_keys_nodup formed keyed
  rw [Table.get?_ofList, Table.get?_eq_some_iff]
  · simp [Prod.mk.injEq]
  · rw [Table.keys, List.map_reverse, List.nodup_reverse, List.map_map]
    exact distinct

theorem leadsInto_cons_iff
    (isActive : state ∈ active) (fuel : Nat) (head : String) (rest : List String) :
    (chart.valueWithin active (fuel + 1) state).leadsInto (head :: rest) = true ↔
      ∃ child ∈ chart.activeChildren active state, chart.key child = head ∧
        (chart.valueWithin active fuel child).leadsInto rest = true := by
  cases kind : chart.kind state with
  | parallel =>
      rw [valueWithin_parallel formed (by simp [isParallel, kind]), StateValue.leadsInto_branch]
      simp only [get?_ofList_activeChildren formed keyed]
      constructor
      · rintro ⟨_, ⟨child, isChild, same, rfl⟩, leads⟩
        exact ⟨child, isChild, same, leads⟩
      · rintro ⟨child, isChild, same, leads⟩
        exact ⟨_, ⟨child, isChild, same, rfl⟩, leads⟩
  | compound initial =>
      obtain ⟨child, only⟩ :=
        activeChildren_of_compound formed valid isActive (by simp [isCompound, kind])
      rw [only, leadsInto_single formed (by simp [isParallel, kind]) only]
      simp
  | atomic | final =>
      have leaf : chart.isLeaf state = true := by simp [isLeaf, kind]
      rw [activeChildren_leaf formed leaf, valueWithin_leaf formed leaf]
      simp [StateValue.leadsInto, StateValue.anyLeadsInto]
  | history memory defaults =>
      have ordinary := valid.ordinary state isActive
      simp [isHistory, kind] at ordinary

theorem leadsInto_valueWithin_iff
    {fuel : Nat} {keys : List String}
    (isActive : state ∈ active)
    (enough : chart.size - state < fuel) :
    (chart.valueWithin active fuel state).leadsInto keys = true ↔
      ∃ inner ∈ active, chart.Within inner state ∧
        chart.path inner = chart.path state ++ keys := by
  induction keys generalizing state fuel with
  | nil =>
      have reached : (chart.valueWithin active fuel state).leadsInto [] = true := by
        cases chart.valueWithin active fuel state <;> rfl
      simp only [reached, List.append_nil, true_iff]
      exact ⟨state, isActive, .inl rfl, rfl⟩
  | cons head rest ih =>
      cases fuel with
      | zero => cases enough
      | succ fuel =>
      rw [leadsInto_cons_iff formed keyed valid isActive]
      have further : ∀ {child}, chart.parent? child = some state → chart.size - child < fuel := by
        intro child below
        exact Nat.lt_of_lt_of_le (Nat.sub_lt_sub_left
          (valid.inRange state isActive) (formed.parentBefore below)) (Nat.le_of_lt_succ enough)
      constructor
      · rintro ⟨child, isChild, rfl, leads⟩
        obtain ⟨below, childActive⟩ := (mem_activeChildren formed).mp isChild
        obtain ⟨inner, innerActive, within, same⟩ := (ih childActive (further below)).mp leads
        refine ⟨inner, innerActive,
          .inr (within_inside_trans formed within (inside_of_parent formed below)), ?_⟩
        rw [same, keyed.path_eq below, List.append_assoc, List.singleton_append]
      · rintro ⟨inner, innerActive, within, same⟩
        have inside : chart.isInside inner state = true := by
          rcases within with rfl | inside
          · simp at same
          · exact inside
        obtain ⟨child, below, toward⟩ := child_toward formed inside
        have childActive := valid.withinActive formed innerActive toward
        -- The path of the inner state goes on from that of the child, and so does the given one.
        obtain ⟨more, onward⟩ := path_of_within formed keyed toward
        rw [onward, keyed.path_eq below, List.append_assoc, List.append_cancel_left_eq,
          List.singleton_append, List.cons.injEq] at same
        obtain ⟨sameKey, rfl⟩ := same
        exact ⟨child, (mem_activeChildren formed).mpr ⟨below, childActive⟩, sameKey,
          (ih childActive (further below)).mpr ⟨inner, innerActive, toward, onward⟩⟩

end Values

section Views

variable {chart : Chart} {active : Configuration}
variable (formed : chart.WellFormed) (keyed : chart.Keyed) (valid : chart.Valid active)

include formed keyed valid

/-- A dotted path leads into the value of a configuration exactly if its segments are the path of
an active state. -/
theorem hasPath_stateValue_iff
    (path : String) :
    (chart.stateValue active).hasPath path = true ↔
      ∃ state ∈ active,
        chart.path state = (Text.segments path).filter fun segment => segment ≠ "" := by
  have enough : chart.size - root < chart.size + 1 := Nat.lt_succ_of_le (Nat.sub_le _ _)
  rw [StateValue.hasPath, stateValue,
    leadsInto_valueWithin_iff formed keyed valid valid.rootActive enough]
  constructor
  · rintro ⟨state, isActive, _, same⟩
    exact ⟨state, isActive, by rw [same, keyed.rootPath, List.nil_append]⟩
  · rintro ⟨state, isActive, same⟩
    exact ⟨state, isActive, within_root formed (valid.inRange state isActive),
      by rw [same, keyed.rootPath, List.nil_append]⟩

theorem hasPath_path_iff
    {state : StateId}
    (inRange : state < chart.size) :
    (chart.stateValue active).hasPath (Text.dotted (chart.path state)) = true ↔
      state ∈ active := by
  rw [hasPath_stateValue_iff formed keyed valid, segments_path formed keyed inRange]
  constructor
  · rintro ⟨other, isActive, same⟩
    rwa [← path_injective formed keyed (valid.inRange other isActive) inRange same]
  · exact fun isActive => ⟨state, isActive, rfl⟩

end Views

end Chart

namespace MachineSpec

variable {L : Type} {spec : MachineSpec L} {machine : Machine L}

/-- The value of a configuration is a faithful view of it.  In a built machine a dotted path, its
empty segments dropped, leads into the value of a configuration that passes the check exactly if
it is the path of an active state; hence the dotted path of a state does exactly if that state is
active, and configurations with equal values are equal. -/
theorem state_value_faithful
    (built : spec.build = .ok machine)
    (ordinaryRoot : spec.HasOrdinaryRoot)
    {active : Configuration}
    (ordered : active.Ordered)
    (accepted : machine.chart.check active = none) :
    (∀ path, (machine.chart.stateValue active).hasPath path = true ↔
      ∃ state ∈ active,
        machine.chart.path state = (Text.segments path).filter fun segment => segment ≠ "") ∧
      (∀ state < machine.chart.size,
        (machine.chart.stateValue active).hasPath (Text.dotted (machine.chart.path state)) = true ↔
          state ∈ active) ∧
      ∀ other : Configuration, other.Ordered → machine.chart.check other = none →
        machine.chart.stateValue other = machine.chart.stateValue active → other = active := by
  have formed := build_wellFormed built ordinaryRoot
  have keyed := build_keyed built
  have valid := (Chart.check_eq_none_iff formed).mp accepted
  refine ⟨Chart.hasPath_stateValue_iff formed keyed valid,
    fun state => Chart.hasPath_path_iff formed keyed valid, ?_⟩
  intro other otherOrdered otherAccepted same
  have otherValid := (Chart.check_eq_none_iff formed).mp otherAccepted
  refine List.Pairwise.eq_of_mem_iff otherOrdered ordered fun state => ?_
  by_cases inRange : state < machine.chart.size
  · rw [← Chart.hasPath_path_iff formed keyed valid inRange, ← same,
      Chart.hasPath_path_iff formed keyed otherValid inRange]
  · exact ⟨fun isActive => absurd (otherValid.inRange state isActive) inRange,
      fun isActive => absurd (valid.inRange state isActive) inRange⟩

/-- While the player plays at a low volume, its value has a path to the low volume, in which
superfluous points are passed over, and none to the high one, at which its value is another. -/
theorem state_value_faithful_player :
    let chart := (player.machine fun _ => .null : Machine Unit).chart
    (chart.stateValue [0, 1, 3, 4, 5]).hasPath ".volume..low" = true ∧
      (chart.stateValue [0, 1, 3, 4, 5]).hasPath (Text.dotted (chart.path 6)) = false ∧
      chart.stateValue [0, 1, 3, 4, 6] ≠ chart.stateValue [0, 1, 3, 4, 5] := by
  intro chart
  have built : player.build = .ok (player.machine fun _ => .null : Machine Unit) :=
    build_of_faultless (by decide +kernel) rfl
  have playing : StateSet.Ordered [0, 1, 3, 4, 5] := by simp [StateSet.Ordered]
  obtain ⟨paths, states, values⟩ :=
    state_value_faithful built (.inr rfl) playing (by decide +kernel)
  refine ⟨(paths _).mpr ⟨5, by decide, by decide +kernel⟩, ?_, fun same => ?_⟩
  · exact Bool.eq_false_iff.mpr fun high =>
      absurd ((states 6 (by decide +kernel)).mp high) (by decide)
  · exact absurd (values _ (by simp [StateSet.Ordered]) (by decide +kernel) same) (by decide)

end MachineSpec

end Statechart
