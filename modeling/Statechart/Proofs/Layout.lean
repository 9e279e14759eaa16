import Mathlib.Tactic.ByContra
import Statechart.Definition.Compile

/-!
# Laid-out descriptions

Laying a description out gives every state its position in document order and makes
parents and children agree.  `StateSpec.Placed` says this of an unbroken run of nodes, so
that it can be proved along the recursion that lays the nodes out.
-/

namespace Statechart.StateSpec

/-- A run of nodes from a position on, the topmost of which lie below `owner` and have the
positions `roots`. -/
structure Placed (owner start : StateId) (roots : List StateId)
    (nodes : List StateNode) : Prop where
  indices : nodes.map StateNode.index = List.range' start nodes.length
  upward : ∀ node ∈ nodes, (node.parent = some owner ∧ node.index ∈ roots) ∨
    ∃ above ∈ nodes, above.index < node.index ∧ node.parent = some above.index ∧
      node.index ∈ above.children
  downward : ∀ node ∈ nodes, ∀ child ∈ node.children,
    ∃ below ∈ nodes, below.index = child ∧ below.parent = some node.index
  topmost : ∀ child ∈ roots, ∃ below ∈ nodes, below.index = child ∧
    below.parent = some owner
  ordered : ∀ node ∈ nodes, node.children.Pairwise (· < ·)

namespace Placed

theorem index_bounds
    {owner start : StateId} {roots : List StateId} {nodes : List StateNode}
    (placed : Placed owner start roots nodes) :
    ∀ node ∈ nodes, start ≤ node.index ∧ node.index < start + nodes.length := by
  intro node member
  have listed : node.index ∈ nodes.map StateNode.index := List.mem_map_of_mem member
  rw [placed.indices] at listed
  simpa using listed

theorem nil (owner start : StateId) : Placed owner start [] [] := by
  constructor <;> simp

theorem append
    {owner start next : StateId} {first second : List StateId}
    {nodes others : List StateNode}
    (left : Placed owner start first nodes)
    (right : Placed owner next second others)
    (follows : next = start + nodes.length) :
    Placed owner start (first ++ second) (nodes ++ others) := by
  constructor
  · rw [List.map_append, left.indices, right.indices, List.length_append, follows,
      List.range'_append_1]
  · intro node member
    rcases List.mem_append.mp member with here | there
    · rcases left.upward node here with ⟨parent, isRoot⟩ | ⟨above, isAbove, found⟩
      · exact .inl ⟨parent, List.mem_append_left second isRoot⟩
      · exact .inr ⟨above, List.mem_append_left others isAbove, found⟩
    · rcases right.upward node there with ⟨parent, isRoot⟩ | ⟨above, isAbove, found⟩
      · exact .inl ⟨parent, List.mem_append_right first isRoot⟩
      · exact .inr ⟨above, List.mem_append_right nodes isAbove, found⟩
  · intro node member child isChild
    rcases List.mem_append.mp member with here | there
    · obtain ⟨below, isBelow, found⟩ := left.downward node here child isChild
      exact ⟨below, List.mem_append_left others isBelow, found⟩
    · obtain ⟨below, isBelow, found⟩ := right.downward node there child isChild
      exact ⟨below, List.mem_append_right nodes isBelow, found⟩
  · intro child isRoot
    rcases List.mem_append.mp isRoot with here | there
    · obtain ⟨below, isBelow, found⟩ := left.topmost child here
      exact ⟨below, List.mem_append_left others isBelow, found⟩
    · obtain ⟨below, isBelow, found⟩ := right.topmost child there
      exact ⟨below, List.mem_append_right nodes isBelow, found⟩
  · intro node member
    rcases List.mem_append.mp member with here | there
    · exact left.ordered node here
    · exact right.ordered node there

theorem cons
    {owner : StateId} (node : StateNode) {nodes : List StateNode}
    (placed : Placed node.index (node.index + 1) node.children nodes)
    (below : node.parent = some owner)
    (ordered : node.children.Pairwise (· < ·)) :
    Placed owner node.index [node.index] (node :: nodes) := by
  constructor
  · simp [List.range'_succ, placed.indices]
  · intro other member
    rcases List.mem_cons.mp member with rfl | further
    · exact .inl ⟨below, List.mem_cons_self⟩
    · right
      rcases placed.upward other further with ⟨parent, isChild⟩ | ⟨above, isAbove, found⟩
      · exact ⟨node, List.mem_cons_self,
          Nat.lt_of_succ_le (placed.index_bounds other further).1, parent, isChild⟩
      · exact ⟨above, List.mem_cons_of_mem node isAbove, found⟩
  · intro other member child isChild
    rcases List.mem_cons.mp member with rfl | further
    · obtain ⟨found, isFound, facts⟩ := placed.topmost child isChild
      exact ⟨found, List.mem_cons_of_mem _ isFound, facts⟩
    · obtain ⟨found, isFound, facts⟩ := placed.downward other further child isChild
      exact ⟨found, List.mem_cons_of_mem _ isFound, facts⟩
  · intro child isRoot
    obtain rfl : child = node.index := by simpa using isRoot
    exact ⟨node, List.mem_cons_self, rfl, below⟩
  · intro other member
    rcases List.mem_cons.mp member with rfl | further
    · exact ordered
    · exact placed.ordered other further

end Placed

section Counting

variable {L : Type}

theorem count_positive (spec : StateSpec L) : 0 < spec.count := by
  cases spec
  simp only [count]
  omega

theorem positions_ordered
    (start : StateId) (specs : List (StateSpec L)) :
    (positions start specs).Pairwise (· < ·) ∧
      ∀ position ∈ positions start specs, start ≤ position := by
  induction specs generalizing start with
  | nil => simp [positions]
  | cons spec specs ih =>
      obtain ⟨ordered, beyond⟩ := ih (start + spec.count)
      have positive := count_positive spec
      constructor
      · rw [positions, List.pairwise_cons]
        refine ⟨?_, ordered⟩
        intro position member
        exact Nat.lt_of_lt_of_le (Nat.lt_add_of_pos_right positive) (beyond position member)
      · intro position member
        rcases List.mem_cons.mp member with rfl | further
        · exact Nat.le_refl _
        · exact Nat.le_trans (Nat.le_add_right start spec.count) (beyond position further)

mutual

theorem heads_length : ∀ spec : StateSpec L, spec.heads.length = spec.count
  | .mk head children => by
      simp only [heads, count, List.length_cons, headsOf_length children]
      omega

theorem headsOf_length : ∀ specs : List (StateSpec L),
    (headsOf specs).length = countAll specs
  | [] => rfl
  | spec :: specs => by
      simp only [headsOf, countAll, List.length_append, heads_length spec,
        headsOf_length specs]

end

mutual

theorem layOutBelow_length : ∀ (parent : StateNode) (index : StateId) (spec : StateSpec L),
    (layOutBelow parent index spec).length = spec.count
  | parent, index, .mk head children => by
      simp only [layOutBelow, count, List.length_cons, layOutAll_length]
      omega

/-- List counterpart of `layOutBelow_length`. -/
theorem layOutAll_length : ∀ (parent : StateNode) (index : StateId)
    (specs : List (StateSpec L)), (layOutAll parent index specs).length = countAll specs
  | _, _, [] => rfl
  | parent, index, spec :: specs => by
      simp only [layOutAll, countAll, List.length_append, layOutBelow_length,
        layOutAll_length]

end

mutual

theorem layOutBelow_placed : ∀ (parent : StateNode) (index : StateId) (spec : StateSpec L),
    Placed parent.index index [index] (layOutBelow parent index spec)
  | parent, index, .mk head children => by
      have below := layOutAll_placed (placeChild parent index head children) (index + 1)
        children
      exact Placed.cons (placeChild parent index head children) below rfl
        (positions_ordered (index + 1) children).1

theorem layOutAll_placed : ∀ (parent : StateNode) (index : StateId)
    (specs : List (StateSpec L)),
    Placed parent.index index (positions index specs) (layOutAll parent index specs)
  | parent, index, [] => Placed.nil parent.index index
  | parent, index, spec :: specs => by
      have first := layOutBelow_placed parent index spec
      have rest := layOutAll_placed parent (index + spec.count) specs
      exact first.append rest (by rw [layOutBelow_length])

end

end Counting

section Root

variable {L : Type} (spec : StateSpec L)

theorem layOut_placed :
    ∃ node rest, spec.layOut.nodes = node :: rest ∧ node.index = Chart.root ∧
      node.parent = none ∧ node.children.Pairwise (· < ·) ∧
      Placed node.index (node.index + 1) node.children rest := by
  refine ⟨placeRoot spec.head spec.children, _, rfl, rfl, rfl, ?_, ?_⟩
  · exact (positions_ordered (Chart.root + 1) spec.children).1
  · exact layOutAll_placed (placeRoot spec.head spec.children) (Chart.root + 1) spec.children

theorem layOut_length : spec.layOut.nodes.length = spec.heads.length := by
  obtain ⟨head, children⟩ := spec
  simp only [layOut, StateSpec.head, StateSpec.children, List.length_cons,
    layOutAll_length, heads_length, count]
  omega

theorem layOut_node?
    {state : StateId} {node : StateNode} :
    spec.layOut.node? state = some node ↔ node ∈ spec.layOut.nodes ∧ node.index = state := by
  obtain ⟨top, rest, nodes, topIndex, _, _, placed⟩ := spec.layOut_placed
  have indices : spec.layOut.nodes.map StateNode.index =
      List.range' 0 spec.layOut.nodes.length := by
    rw [nodes, List.map_cons, placed.indices, topIndex]
    simp [Chart.root, List.range'_succ]
  have at_index : ∀ position (inRange : position < spec.layOut.nodes.length),
      spec.layOut.nodes[position].index = position := by
    intro position inRange
    have mapped : (spec.layOut.nodes.map StateNode.index)[position]? = some position := by
      rw [indices, List.getElem?_range' inRange]
      simp
    rw [List.getElem?_map, List.getElem?_eq_getElem inRange] at mapped
    simpa using mapped
  unfold Chart.node?
  constructor
  · intro found
    obtain ⟨inRange, same⟩ := List.getElem?_eq_some_iff.mp found
    refine ⟨List.mem_of_getElem? found, ?_⟩
    rw [← same]
    exact at_index state inRange
  · rintro ⟨member, rfl⟩
    obtain ⟨position, inRange, same⟩ := List.getElem_of_mem member
    have here := at_index position inRange
    rw [same] at here
    rw [here, List.getElem?_eq_getElem inRange, same]

theorem layOut_parent?
    {state parent : StateId} :
    spec.layOut.parent? state = some parent ↔
      ∃ node ∈ spec.layOut.nodes, node.index = state ∧ node.parent = some parent := by
  unfold Chart.parent?
  rw [Option.bind_eq_some_iff]
  constructor
  · rintro ⟨node, found, above⟩
    obtain ⟨member, index⟩ := spec.layOut_node?.mp found
    exact ⟨node, member, index, above⟩
  · rintro ⟨node, member, index, above⟩
    exact ⟨node, spec.layOut_node?.mpr ⟨member, index⟩, above⟩

theorem layOut_mem_children
    {parent child : StateId} :
    child ∈ spec.layOut.children parent ↔
      ∃ node ∈ spec.layOut.nodes, node.index = parent ∧ child ∈ node.children := by
  constructor
  · intro member
    unfold Chart.children at member
    cases found : spec.layOut.node? parent with
    | none => simp [found] at member
    | some node =>
        obtain ⟨isNode, index⟩ := spec.layOut_node?.mp found
        exact ⟨node, isNode, index, by simpa [found] using member⟩
  · rintro ⟨node, isNode, index, isChild⟩
    have found := spec.layOut_node?.mpr ⟨isNode, index⟩
    simpa [Chart.children, found] using isChild

/-- Parents and children agree. -/
theorem layOut_children_iff
    {parent child : StateId} :
    child ∈ spec.layOut.children parent ↔ spec.layOut.parent? child = some parent := by
  rw [layOut_mem_children, layOut_parent?]
  obtain ⟨top, rest, nodes, topIndex, topParent, _, placed⟩ := spec.layOut_placed
  rw [nodes]
  constructor
  · rintro ⟨node, member, rfl, isChild⟩
    rcases List.mem_cons.mp member with rfl | further
    · obtain ⟨below, isBelow, index, parent⟩ := placed.topmost child isChild
      exact ⟨below, List.mem_cons_of_mem _ isBelow, index, parent⟩
    · obtain ⟨below, isBelow, index, parent⟩ := placed.downward node further child isChild
      exact ⟨below, List.mem_cons_of_mem _ isBelow, index, parent⟩
  · rintro ⟨node, member, rfl, above⟩
    rcases List.mem_cons.mp member with rfl | further
    · rw [topParent] at above
      cases above
    · rcases placed.upward node further with
        ⟨owner, isChild⟩ | ⟨upper, isUpper, _, owner, isChild⟩
      · rw [above] at owner
        exact ⟨top, List.mem_cons_self, (Option.some.inj owner).symm, isChild⟩
      · rw [above] at owner
        exact ⟨upper, List.mem_cons_of_mem _ isUpper, (Option.some.inj owner).symm, isChild⟩

theorem layOut_parent_before
    {state parent : StateId}
    (below : spec.layOut.parent? state = some parent) :
    parent < state := by
  rw [layOut_parent?] at below
  obtain ⟨top, rest, nodes, topIndex, topParent, _, placed⟩ := spec.layOut_placed
  rw [nodes] at below
  obtain ⟨node, member, rfl, above⟩ := below
  rcases List.mem_cons.mp member with rfl | further
  · rw [topParent] at above
    cases above
  · rcases placed.upward node further with ⟨owner, _⟩ | ⟨upper, _, before, owner, _⟩
    · rw [above] at owner
      obtain rfl := Option.some.inj owner
      exact Nat.lt_of_succ_le (placed.index_bounds node further).1
    · rw [above] at owner
      obtain rfl := Option.some.inj owner
      exact before

theorem layOut_parented
    {state : StateId}
    (inRange : state < spec.layOut.size)
    (below : state ≠ Chart.root) :
    ∃ parent, spec.layOut.parent? state = some parent := by
  have found : spec.layOut.node? state = some spec.layOut.nodes[state] :=
    List.getElem?_eq_getElem inRange
  obtain ⟨member, index⟩ := spec.layOut_node?.mp found
  obtain ⟨top, rest, nodes, topIndex, _, _, placed⟩ := spec.layOut_placed
  have members : spec.layOut.nodes[state] ∈ top :: rest := by
    rw [← nodes]
    exact member
  rcases List.mem_cons.mp members with isTop | further
  · rw [isTop, topIndex] at index
    exact absurd index.symm below
  · rcases placed.upward _ further with ⟨owner, _⟩ | ⟨upper, _, _, owner, _⟩
    · exact ⟨_, spec.layOut_parent?.mpr ⟨_, member, index, owner⟩⟩
    · exact ⟨_, spec.layOut_parent?.mpr ⟨_, member, index, owner⟩⟩

theorem layOut_root_on_top : spec.layOut.parent? Chart.root = none := rfl

theorem layOut_children_ordered (parent : StateId) :
    (spec.layOut.children parent).Pairwise (· < ·) := by
  unfold Chart.children
  cases found : spec.layOut.node? parent with
  | none => simp
  | some node =>
      obtain ⟨member, _⟩ := spec.layOut_node?.mp found
      obtain ⟨top, rest, nodes, _, _, topOrdered, placed⟩ := spec.layOut_placed
      rw [nodes] at member
      rcases List.mem_cons.mp member with rfl | further
      · exact topOrdered
      · exact placed.ordered node further

end Root

end Statechart.StateSpec
