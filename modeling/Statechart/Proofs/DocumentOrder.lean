import Mathlib.Data.List.Sort
import Statechart.Proofs.LeafSearches
import Statechart.Proofs.Planning
import Statechart.Proofs.StatePaths

/-!
# Document order

Laying a description out gives each state the position at which it is described.  What is
described below a state is laid out right after it in one run; so the states inside a state are
told by their positions alone, and so is the order in which states are left and entered.
-/

namespace Statechart

variable {L : Type}

namespace StateSpec

mutual

/-- The described states in document order, each with all that is described below it. -/
def subtrees : StateSpec L → List (StateSpec L)
  | .mk head children => .mk head children :: subtreesOf children

def subtreesOf : List (StateSpec L) → List (StateSpec L)
  | [] => []
  | spec :: specs => spec.subtrees ++ subtreesOf specs

end

mutual

theorem subtrees_length : ∀ spec : StateSpec L, spec.subtrees.length = spec.count
  | .mk head children => by
      simp only [subtrees, count, List.length_cons, subtreesOf_length children]
      omega

theorem subtreesOf_length : ∀ specs : List (StateSpec L),
    (subtreesOf specs).length = countAll specs
  | [] => rfl
  | spec :: specs => by
      simp only [subtreesOf, countAll, List.length_append, subtrees_length spec,
        subtreesOf_length specs]

end

mutual

/-- What is described below a state is laid out in one run from its position on, below a node
that is laid out too or is the one above all. -/
theorem layOutBelow_run : ∀ (parent : StateNode) (index : StateId) (spec : StateSpec L)
    {position : Nat} {sub : StateSpec L}, spec.subtrees[position]? = some sub →
    ∃ owner ∈ parent :: layOutBelow parent index spec,
      layOutBelow owner (index + position) sub <+: (layOutBelow parent index spec).drop position
  | parent, index, .mk head children, position, sub, found => by
      cases position with
      | zero =>
          obtain rfl : .mk head children = sub := by simpa [subtrees] using found
          exact ⟨parent, List.mem_cons_self, List.prefix_refl _⟩
      | succ position =>
          have further : (subtreesOf children)[position]? = some sub := by
            simpa [subtrees] using found
          obtain ⟨owner, isOwner, run⟩ :=
            layOutAll_run (placeChild parent index head children) (index + 1) children further
          refine ⟨owner, List.mem_cons_of_mem parent isOwner, ?_⟩
          rwa [Nat.add_right_comm] at run

theorem layOutAll_run : ∀ (parent : StateNode) (index : StateId) (specs : List (StateSpec L))
    {position : Nat} {sub : StateSpec L}, (subtreesOf specs)[position]? = some sub →
    ∃ owner ∈ parent :: layOutAll parent index specs,
      layOutBelow owner (index + position) sub <+: (layOutAll parent index specs).drop position
  | parent, index, [], position, sub, found => by simp [subtreesOf] at found
  | parent, index, spec :: specs, position, sub, found => by
      rw [subtreesOf] at found
      rw [layOutAll, List.drop_append]
      by_cases here : position < spec.count
      · rw [List.getElem?_append_left (by rwa [subtrees_length])] at found
        obtain ⟨owner, isOwner, run⟩ := layOutBelow_run parent index spec found
        refine ⟨owner, ?_, run.trans (List.prefix_append _ _)⟩
        exact List.cons_subset_cons parent (List.subset_append_left _ _) isOwner
      · have beyond : spec.count ≤ position := Nat.le_of_not_lt here
        rw [List.getElem?_append_right (by rwa [subtrees_length]), subtrees_length] at found
        obtain ⟨owner, isOwner, run⟩ := layOutAll_run parent (index + spec.count) specs found
        refine ⟨owner, List.cons_subset_cons parent (List.subset_append_right _ _) isOwner, ?_⟩
        rw [List.drop_eq_nil_of_le (by rwa [layOutBelow_length]), List.nil_append,
          layOutBelow_length]
        rwa [Nat.add_assoc, Nat.add_sub_cancel' beyond] at run

end

theorem Placed.exists_at
    {owner start position : StateId} {roots : List StateId} {nodes : List StateNode}
    (placed : Placed owner start roots nodes)
    (first : start ≤ position)
    (last : position < start + nodes.length) :
    ∃ node ∈ nodes, node.index = position := by
  have listed : position ∈ nodes.map StateNode.index := by
    rw [placed.indices, List.mem_range'_1]
    exact ⟨first, last⟩
  exact List.mem_map.mp listed

section Root

variable {spec sub : StateSpec L} {state other : StateId}

theorem layOut_rises (spec : StateSpec L) : spec.layOut.Rises :=
  fun _ _ => spec.layOut_parent_before

theorem layOut_size_eq (spec : StateSpec L) : spec.layOut.size = spec.subtrees.length :=
  (spec.layOut_length.trans (heads_length spec)).trans (subtrees_length spec).symm

/-- What is described below a state other than the root is laid out in one run below a node. -/
theorem layOut_run
    (found : spec.subtrees[state]? = some sub)
    (below : state ≠ Chart.root) :
    ∃ owner ∈ spec.layOut.nodes,
      layOutBelow owner state sub <+: spec.layOut.nodes.drop state := by
  obtain ⟨head, children⟩ := spec
  obtain ⟨position, rfl⟩ := Nat.exists_eq_succ_of_ne_zero below
  have further : (subtreesOf children)[position]? = some sub := by
    simpa [subtrees] using found
  obtain ⟨owner, isOwner, run⟩ :=
    layOutAll_run (placeRoot head children) (Chart.root + 1) children further
  refine ⟨owner, isOwner, ?_⟩
  rwa [Chart.root, Nat.add_comm (0 + 1) position] at run

theorem layOut_child
    (found : spec.subtrees[state]? = some sub)
    (below : state ≠ Chart.root) :
    ∃ owner ∈ spec.layOut.nodes,
      spec.layOut.node? state = some (placeChild owner state sub.head sub.children) := by
  obtain ⟨owner, isOwner, rest, run⟩ := layOut_run found below
  refine ⟨owner, isOwner, ?_⟩
  obtain ⟨head, children⟩ := sub
  rw [Chart.node?, ← List.head?_drop, ← run]
  rfl

theorem layOut_described
    (found : spec.subtrees[state]? = some sub) :
    spec.layOut.key state = sub.head.key ∧
      spec.layOut.children state = positions (state + 1) sub.children := by
  by_cases top : state = Chart.root
  · subst top
    obtain ⟨head, children⟩ := spec
    obtain rfl : .mk head children = sub := by simpa [subtrees, Chart.root] using found
    exact ⟨rfl, rfl⟩
  · obtain ⟨owner, _, laid⟩ := layOut_child found top
    simp [Chart.key, Chart.children, laid, placeChild]

/-- A run of nodes is closed under going up to the state on its top and under going down, so it
holds just what lies in that state. -/
theorem within_iff_of_placed
    {owner : StateId} {run : List StateNode}
    (placed : Placed owner state [state] run)
    (part : ∀ node ∈ run, node ∈ spec.layOut.nodes) :
    other = state ∨ state ∈ spec.layOut.ancestors other ↔
      state ≤ other ∧ other < state + run.length := by
  have climbs : ∀ {child parent}, spec.layOut.parent? child = some parent →
      spec.layOut.ancestors child = parent :: spec.layOut.ancestors parent :=
    spec.layOut_rises.ancestors_of_parent
  induction other using Nat.strongRecOn with
  | _ other ih =>
      constructor
      · rintro (rfl | inside)
        · obtain ⟨top, isTop, index, _⟩ := placed.topmost other List.mem_cons_self
          exact index ▸ placed.index_bounds top isTop
        · cases above : spec.layOut.parent? other with
          | none =>
              rw [Chart.ancestors_of_no_parent above] at inside
              cases inside
          | some parent =>
              rw [climbs above, List.mem_cons] at inside
              obtain ⟨first, last⟩ := (ih parent (spec.layOut_parent_before above)).mp
                (inside.imp_left Eq.symm)
              obtain ⟨node, inRun, rfl⟩ := placed.exists_at first last
              obtain ⟨same, isSame, index, isChild⟩ := spec.layOut_mem_children.mp
                (spec.layOut_children_iff.mpr above)
              obtain rfl : same = node := Option.some.inj
                ((spec.layOut_node?.mpr ⟨isSame, index⟩).symm.trans
                  (spec.layOut_node?.mpr ⟨part node inRun, rfl⟩))
              obtain ⟨child, isRun, rfl, _⟩ := placed.downward same inRun other isChild
              exact placed.index_bounds child isRun
      · rintro ⟨first, last⟩
        obtain ⟨node, inRun, rfl⟩ := placed.exists_at first last
        rcases placed.upward node inRun with ⟨_, isTop⟩ | ⟨upper, isUpper, before, above, _⟩
        · exact .inl (List.mem_singleton.mp isTop)
        · right
          have further := (ih upper.index before).mpr (placed.index_bounds upper isUpper)
          rw [climbs (spec.layOut_parent?.mpr ⟨node, part node inRun, rfl, above⟩), List.mem_cons]
          exact further.imp_left Eq.symm

theorem layOut_within_root :
    other = Chart.root ∨ Chart.root ∈ spec.layOut.ancestors other ↔
      other < spec.layOut.size := by
  constructor
  · rintro (rfl | inside)
    · rw [layOut_size_eq, subtrees_length]
      exact count_positive spec
    · cases above : spec.layOut.parent? other with
      | none =>
          rw [Chart.ancestors_of_no_parent above] at inside
          cases inside
      | some parent => exact Chart.parent_in_range above
  · intro inRange
    induction other using Nat.strongRecOn with
    | _ other ih =>
        by_cases top : other = Chart.root
        · exact .inl top
        · obtain ⟨parent, above⟩ := spec.layOut_parented inRange top
          have before := spec.layOut_parent_before above
          right
          rw [spec.layOut_rises.ancestors_of_parent above, List.mem_cons]
          exact (ih parent before (Nat.lt_trans before inRange)).imp_left Eq.symm

theorem layOut_within_iff
    (found : spec.subtrees[state]? = some sub) :
    other = state ∨ state ∈ spec.layOut.ancestors other ↔
      state ≤ other ∧ other < state + sub.count := by
  by_cases top : state = Chart.root
  · subst top
    obtain rfl : spec = sub := by
      obtain ⟨head, children⟩ := spec
      simpa [subtrees, Chart.root] using found
    rw [layOut_within_root, layOut_size_eq, subtrees_length]
    simp [Chart.root]
  · obtain ⟨owner, _, run⟩ := layOut_run found top
    rw [← layOutBelow_length owner state sub]
    refine within_iff_of_placed (layOutBelow_placed owner state sub) fun node inRun => ?_
    exact List.mem_of_mem_drop (run.subset inRun)

end Root

end StateSpec

namespace Chart

/-- The states on the way from the root, which is left out, down to a state. -/
def descent (chart : Chart) (state : StateId) : List StateId :=
  (state :: chart.ancestors state).reverse.tail

/-- The states of a chart stand in the pre-order of their description. -/
structure Preordered (chart : Chart) (spec : StateSpec L) : Prop where
  size : chart.size = spec.subtrees.length
  placed : ∀ state node, chart.node? state = some node → node.index = state
  /-- The state at a position is the one that is described there. -/
  described : ∀ state sub, spec.subtrees[state]? = some sub →
    chart.key state = sub.head.key ∧
      chart.children state = StateSpec.positions (state + 1) sub.children
  linked : ∀ parent child, child ∈ chart.children parent ↔ chart.parent? child = some parent
  rises : chart.Rises
  ascending : ∀ parent, (chart.children parent).Pairwise (· < ·)
  /-- What lies in a state stands in one run that begins with it. -/
  interval : ∀ state sub, spec.subtrees[state]? = some sub → ∀ other,
    chart.Within other state ↔ state ≤ other ∧ other < state + sub.count
  /-- The run of a state ends before the next sibling. -/
  apart : ∀ parent, ∀ first ∈ chart.children parent, ∀ second ∈ chart.children parent,
    first < second → ∀ sub, spec.subtrees[first]? = some sub → first + sub.count ≤ second
  inside : ∀ state outer, chart.isInside state outer = true ↔ outer ∈ chart.ancestors state
  depth : ∀ state < chart.size, chart.depth state = (chart.ancestors state).length
  path : ∀ state < chart.size, chart.path state = (chart.descent state).map chart.key

section Descending

variable {chart : Chart} {state parent : StateId}

theorem descent_of_no_parent
    (top : chart.parent? state = none) :
    chart.descent state = [] := by
  simp [descent, ancestors_of_no_parent top]

theorem descent_of_parent
    (rises : chart.Rises)
    (below : chart.parent? state = some parent) :
    chart.descent state = chart.descent parent ++ [state] := by
  rw [descent, descent, rises.ancestors_of_parent below, List.reverse_cons,
    List.tail_append_of_ne_nil (by simp)]

end Descending

end Chart

namespace StateSpec

variable {spec : StateSpec L}

theorem layOut_depth
    {state : StateId}
    (inRange : state < spec.layOut.size) :
    spec.layOut.depth state = (spec.layOut.ancestors state).length := by
  induction state using Nat.strongRecOn with
  | _ state ih =>
      by_cases top : state = Chart.root
      · rw [top, Chart.ancestors_of_no_parent spec.layOut_root_on_top]
        rfl
      · have described : state < spec.subtrees.length := by rwa [← layOut_size_eq]
        obtain ⟨owner, isOwner, found⟩ := layOut_child (List.getElem?_eq_getElem described) top
        have ownerFound := spec.layOut_node?.mpr ⟨isOwner, rfl⟩
        have above : spec.layOut.parent? state = some owner.index := by
          simp [Chart.parent?, found, placeChild]
        have before := spec.layOut_parent_before above
        have upper := ih owner.index before (Nat.lt_trans before inRange)
        rw [spec.layOut_rises.ancestors_of_parent above, List.length_cons, ← upper]
        simp [Chart.depth, found, ownerFound, placeChild]

theorem layOut_path_eq
    {state : StateId}
    (inRange : state < spec.layOut.size) :
    spec.layOut.path state = (spec.layOut.descent state).map spec.layOut.key := by
  induction state using Nat.strongRecOn with
  | _ state ih =>
      by_cases top : state = Chart.root
      · rw [top, Chart.descent_of_no_parent spec.layOut_root_on_top]
        rfl
      · obtain ⟨parent, above⟩ := spec.layOut_parented inRange top
        have before := spec.layOut_parent_before above
        rw [spec.layOut_path above, ih parent before (Nat.lt_trans before inRange),
          Chart.descent_of_parent spec.layOut_rises above, List.map_append, List.map_singleton]

theorem layOut_preordered (spec : StateSpec L) : spec.layOut.Preordered spec := by
  have walks : ∀ state outer, spec.layOut.isInside state outer = true ↔
      outer ∈ spec.layOut.ancestors state :=
    fun _ _ => spec.layOut_rises.isInside_iff_mem
  constructor
  · exact spec.layOut_size_eq
  · exact fun state node found => (spec.layOut_node?.mp found).2
  · exact fun state sub => layOut_described
  · exact fun parent child => spec.layOut_children_iff
  · exact spec.layOut_rises
  · exact spec.layOut_children_ordered
  · intro state sub found other
    rw [Chart.Within, walks]
    exact layOut_within_iff found
  · intro parent first isFirst second isSecond before sub found
    by_contra near
    have above := spec.layOut_children_iff.mp isFirst
    have inside := ((layOut_within_iff found).mpr
      ⟨Nat.le_of_lt before, Nat.lt_of_not_le near⟩).resolve_left (Nat.ne_of_gt before)
    rw [spec.layOut_rises.ancestors_of_parent (spec.layOut_children_iff.mp isSecond),
      List.mem_cons] at inside
    have parentBefore := spec.layOut_parent_before above
    rcases inside with rfl | further
    · exact Nat.lt_irrefl first parentBefore
    · exact Nat.lt_asymm parentBefore (spec.layOut_rises.ancestors_before first further)
  · exact walks
  · exact fun state => layOut_depth
  · exact fun state => layOut_path_eq

end StateSpec

theorem Draft.chartWithKinds_preordered
    (spec : StateSpec L) :
    (ofSpec spec).chartWithKinds.Preordered spec := by
  have laid := spec.layOut_preordered
  have keys : (ofSpec spec).chartWithKinds.key = spec.layOut.key := by
    funext state
    rw [Chart.key, Chart.key, chartWithKinds_view StateNode.key (fun _ _ => rfl) state]
  constructor
  · exact chartWithKinds_size.trans laid.size
  · intro state node found
    have viewed : ((ofSpec spec).chartWithKinds.node? state).map StateNode.index =
        (spec.layOut.node? state).map StateNode.index :=
      chartWithKinds_view StateNode.index (fun _ _ => rfl) state
    rw [found] at viewed
    obtain ⟨same, isSame, index⟩ := Option.map_eq_some_iff.mp viewed.symm
    exact index.symm.trans (laid.placed state same isSame)
  · intro state sub found
    rw [keys, chartWithKinds_children]
    exact laid.described state sub found
  · intro parent child
    rw [chartWithKinds_children, chartWithKinds_parent?]
    exact laid.linked parent child
  · intro state parent above
    rw [chartWithKinds_parent?] at above
    exact laid.rises state parent above
  · intro parent
    rw [chartWithKinds_children]
    exact laid.ascending parent
  · intro state sub found other
    rw [Chart.Within, chartWithKinds_isInside]
    exact laid.interval state sub found other
  · intro parent
    rw [chartWithKinds_children]
    exact laid.apart parent
  · intro state outer
    rw [chartWithKinds_isInside, chartWithKinds_ancestors]
    exact laid.inside state outer
  · intro state inRange
    rw [chartWithKinds_size] at inRange
    rw [chartWithKinds_ancestors, ← laid.depth state inRange, Chart.depth, Chart.depth,
      chartWithKinds_view StateNode.depth (fun _ _ => rfl) state]
  · intro state inRange
    rw [chartWithKinds_size] at inRange
    rw [keys, Chart.descent, chartWithKinds_ancestors, Chart.path,
      chartWithKinds_view StateNode.path (fun _ _ => rfl) state]
    exact laid.path state inRange

/-- In a list that is ordered one way, what comes first in this order stands first. -/
theorem StateSet.pair_sublist
    {order : StateId → StateId → Prop} [Std.Antisymm order]
    {states : List StateId} {first second : StateId}
    (ordered : states.Pairwise order)
    (isFirst : first ∈ states) (isSecond : second ∈ states)
    (inOrder : order first second) (different : first ≠ second) :
    [first, second].Sublist states := by
  have once : [first, second].Nodup := by simpa using different
  have among : [first, second] ⊆ states := by simp [isFirst, isSecond]
  exact List.sublist_of_subperm_of_pairwise (List.subperm_of_subset once among)
    (by simpa using inOrder) ordered

namespace MachineSpec

/-- How descriptions are laid out.  The states of any description, sound or not, are laid out in
pre-order, also after their kinds have been decided: each node bears its position, parents stand
before their children, and links agree; what lies in a state stands in one run that begins with it
and ends before its next sibling; the depth of a state is the number of states that it lies in, and
its path the keys on the way to it.  Hence, whatever is active and recorded and whatever moves are
made, each state is left before, and entered after, the states that it lies in, each once. -/
theorem laid_out_in_preorder
    (spec : MachineSpec L) :
    let chart := spec.draft.chartWithKinds
    spec.root.layOut.Preordered spec.root ∧ chart.Preordered spec.root ∧
    (∀ active records moves,
      let exits := chart.exits active records moves
      exits.Nodup ∧ ∀ state ∈ exits, ∀ outer ∈ exits, outer ∈ chart.ancestors state →
        [state, outer].Sublist exits) ∧
    ∀ entries, (chart.initialEntries? = some entries ∨
        ∃ records moves, chart.entries? records moves = some entries) →
      entries.Nodup ∧ ∀ state ∈ entries, ∀ outer ∈ entries, outer ∈ chart.ancestors state →
        [outer, state].Sublist entries := by
  intro chart
  have arranged : chart.Preordered spec.root := Draft.chartWithKinds_preordered spec.root
  refine ⟨spec.root.layOut_preordered, arranged, fun active records moves => ?_,
    fun entries planned => ?_⟩
  · refine ⟨chart.exits_nodup active records moves, fun state left outer alsoLeft above => ?_⟩
    have before := arranged.rises.ancestors_before outer above
    exact StateSet.pair_sublist (chart.exits_descending active records moves) left alsoLeft before
      (Nat.ne_of_gt before)
  · have ordered : entries.Ordered := by
      rcases planned with started | ⟨records, moves, stepped⟩
      · exact Chart.initialEntries_ordered started
      · exact Chart.entries_ordered stepped
    refine ⟨ordered.nodup, fun state entered outer alsoEntered above => ?_⟩
    have before := arranged.rises.ancestors_before outer above
    exact StateSet.pair_sublist ordered alsoEntered entered before (Nat.ne_of_lt before)

/-- When all leave the house, lamp and radio are left before the home that they are in; and when
somebody comes back, they are entered after it. -/
theorem laid_out_in_preorder_house :
    let chart := (house : MachineSpec Unit).draft.chartWithKinds
    let leaving := chart.exits [0, 1, 2, 3] HistoryRecords.empty
      [{ source := 2, targets := [4], reenter := false }]
    (∀ other, chart.Within other 1 ↔ 1 ≤ other ∧ other < 4) ∧
      leaving = [3, 2, 1] ∧ [2, 1].Sublist leaving ∧
      chart.entries? HistoryRecords.empty [{ source := 4, targets := [1], reenter := false }] =
        some [1, 2, 3] ∧ [1, 3].Sublist [1, 2, 3] ∧
      chart.depth 3 = (chart.ancestors 3).length ∧ chart.path 3 = ["home", "radio"] := by
  intro chart leaving
  obtain ⟨_, arranged, exits, entries⟩ := laid_out_in_preorder (house : MachineSpec Unit)
  have left : leaving = [3, 2, 1] := by decide +kernel
  have entered : chart.entries? HistoryRecords.empty
      [{ source := 4, targets := [1], reenter := false }] = some [1, 2, 3] := by decide +kernel
  have inRange : 3 < chart.size := by decide +kernel
  have descent : (chart.descent 3).map chart.key = ["home", "radio"] := by decide +kernel
  have bothLeft : 2 ∈ leaving ∧ 1 ∈ leaving := by
    rw [left]
    decide
  have above : 1 ∈ chart.ancestors 2 ∧ 1 ∈ chart.ancestors 3 := by decide +kernel
  refine ⟨fun other => arranged.interval 1 _ rfl other, left, ?_, entered, ?_,
    arranged.depth 3 inRange, (arranged.path 3 inRange).trans descent⟩
  · exact (exits _ _ _).2 2 bothLeft.1 1 bothLeft.2 above.1
  · exact (entries _ (.inr ⟨_, _, entered⟩)).2 3 (by decide) 1 (by decide) above.2

end MachineSpec

end Statechart
