import Mathlib.Data.List.TakeWhile
import Statechart.Proofs.Building
import Statechart.Proofs.Tokens

/-!
# State paths

The path of a state lists the keys on the way to it from the root, which is left out.  In a built
machine the children of a state bear different keys, and no key holds a point; so each state is
told from all others by its path, and by the text that joins this with points.
-/

namespace Statechart

namespace Chart

/-- The keys on the way from the root, which is left out, to a state. -/
def path (chart : Chart) (state : StateId) : List String :=
  ((chart.node? state).map StateNode.path).getD []

/-- Paths are made of valid keys, and siblings bear different ones. -/
structure Keyed (chart : Chart) : Prop where
  rootPath : chart.path root = []
  path_eq : ∀ {state parent}, chart.parent? state = some parent →
    chart.path state = chart.path parent ++ [chart.key state]
  valid : ∀ {state parent}, chart.parent? state = some parent → validKey (chart.key state) = true
  distinct : ∀ {first second parent}, chart.parent? first = some parent →
    chart.parent? second = some parent → chart.key first = chart.key second → first = second

end Chart

/-- The node lies directly below another one, and its path goes on from there. -/
def StateNode.Hangs (node above : StateNode) : Prop :=
  node.parent = some above.index ∧ node.path = above.path ++ [node.key]

namespace StateSpec

variable {L : Type}

mutual

theorem layOutBelow_hangs : ∀ (parent : StateNode) (index : StateId) (spec : StateSpec L),
    ∀ node ∈ layOutBelow parent index spec,
      node.Hangs parent ∨ ∃ above ∈ layOutBelow parent index spec, node.Hangs above
  | parent, index, .mk head children => by
      have below := layOutAll_hangs (placeChild parent index head children) (index + 1) children
      intro node member
      rw [layOutBelow] at member ⊢
      rcases List.mem_cons.mp member with rfl | further
      · exact .inl ⟨rfl, rfl⟩
      · right
        rcases below node further with here | ⟨above, isAbove, hangs⟩
        · exact ⟨_, List.mem_cons_self, here⟩
        · exact ⟨above, List.mem_cons_of_mem _ isAbove, hangs⟩

theorem layOutAll_hangs : ∀ (parent : StateNode) (index : StateId) (specs : List (StateSpec L)),
    ∀ node ∈ layOutAll parent index specs,
      node.Hangs parent ∨ ∃ above ∈ layOutAll parent index specs, node.Hangs above
  | _, _, [] => fun _ member => by cases member
  | parent, index, spec :: specs => by
      have first := layOutBelow_hangs parent index spec
      have rest := layOutAll_hangs parent (index + spec.count) specs
      intro node member
      rw [layOutAll] at member ⊢
      rcases List.mem_append.mp member with here | there
      · exact (first node here).imp_right fun ⟨above, isAbove, hangs⟩ =>
          ⟨above, List.mem_append_left _ isAbove, hangs⟩
      · exact (rest node there).imp_right fun ⟨above, isAbove, hangs⟩ =>
          ⟨above, List.mem_append_right _ isAbove, hangs⟩

end

theorem layOut_hangs
    (spec : StateSpec L) :
    ∀ node ∈ spec.layOut.nodes,
      node.parent = none ∨ ∃ above ∈ spec.layOut.nodes, node.Hangs above := by
  intro node member
  rcases List.mem_cons.mp member with rfl | further
  · exact .inl rfl
  · right
    rcases layOutAll_hangs _ _ _ node further with here | ⟨above, isAbove, hangs⟩
    · exact ⟨_, List.mem_cons_self, here⟩
    · exact ⟨above, List.mem_cons_of_mem _ isAbove, hangs⟩

theorem layOut_path
    (spec : StateSpec L)
    {state parent : StateId}
    (below : spec.layOut.parent? state = some parent) :
    spec.layOut.path state = spec.layOut.path parent ++ [spec.layOut.key state] := by
  obtain ⟨node, member, rfl, above⟩ := spec.layOut_parent?.mp below
  have found := spec.layOut_node?.mpr ⟨member, rfl⟩
  rcases spec.layOut_hangs node member with top | ⟨upper, isUpper, hangs⟩
  · rw [top] at above
    cases above
  · obtain rfl := Option.some.inj (above.symm.trans hangs.1)
    have upperFound := spec.layOut_node?.mpr ⟨isUpper, rfl⟩
    simp [Chart.path, Chart.key, found, upperFound, hangs.2]

theorem mem_takeWhile_of_lt
    {items : List StateId} {low high : StateId}
    (ordered : items.Pairwise (· < ·))
    (isItem : low ∈ items)
    (before : low < high) :
    low ∈ items.takeWhile fun item => item ≠ high := by
  induction items with
  | nil => cases isItem
  | cons first rest ih =>
      obtain ⟨least, ordered⟩ := List.pairwise_cons.mp ordered
      rcases List.mem_cons.mp isItem with rfl | later
      · simp [Nat.ne_of_lt before]
      · have passed : first ≠ high := Nat.ne_of_lt (Nat.lt_trans (least low later) before)
        rw [List.takeWhile_cons_of_pos (by simpa using passed)]
        exact List.mem_cons_of_mem first (ih ordered later)

theorem layOut_keys
    {spec : StateSpec L}
    (faultless : spec.layOut.layoutErrors = [])
    {state parent : StateId}
    (below : spec.layOut.parent? state = some parent) :
    validKey (spec.layOut.key state) = true ∧
      ∀ sibling, sibling < state → spec.layOut.parent? sibling = some parent →
        spec.layOut.key sibling ≠ spec.layOut.key state := by
  obtain ⟨node, member, rfl, above⟩ := spec.layOut_parent?.mp below
  have found := spec.layOut_node?.mpr ⟨member, rfl⟩
  have keyed : spec.layOut.key node.index = node.key := by simp [Chart.key, found]
  have noFaults := List.flatMap_eq_nil_iff.mp faultless node member
  simp only [Chart.nameErrors, above, Chart.keyErrors, List.append_eq_nil_iff] at noFaults
  rw [keyed]
  refine ⟨?_, fun sibling before sameParent same => ?_⟩
  · by_contra invalid
    simp [invalid] at noFaults
  · have isSibling := mem_takeWhile_of_lt (spec.layOut_children_ordered parent)
      (spec.layOut_children_iff.mpr sameParent) before
    have repeated : ((spec.layOut.children parent).takeWhile fun other =>
        other ≠ node.index).any (fun other => spec.layOut.key other = node.key) = true :=
      List.any_eq_true.mpr ⟨sibling, isSibling, decide_eq_true same⟩
    rw [if_pos repeated] at noFaults
    cases noFaults.1.1

end StateSpec

namespace MachineSpec

variable {L : Type} {spec : MachineSpec L} {machine : Machine L}

/-- In a built machine paths are made of valid keys, and siblings bear different ones. -/
theorem build_keyed
    (built : spec.build = .ok machine) :
    machine.chart.Keyed := by
  have faultless := (build_faultless built).1
  rw [build_chart built]
  have key : ∀ state, (Draft.ofSpec spec.root).chartWithKinds.key state =
      spec.root.layOut.key state := by
    intro state
    rw [Chart.key, Chart.key, Draft.chartWithKinds_view StateNode.key (fun _ _ => rfl) state]
  have path : ∀ state, (Draft.ofSpec spec.root).chartWithKinds.path state =
      spec.root.layOut.path state := by
    intro state
    rw [Chart.path, Chart.path, Draft.chartWithKinds_view StateNode.path (fun _ _ => rfl) state]
  constructor
  · rw [path]
    rfl
  · intro state parent below
    rw [Draft.chartWithKinds_parent?] at below
    rw [path, path, key]
    exact spec.root.layOut_path below
  · intro state parent below
    rw [Draft.chartWithKinds_parent?] at below
    rw [key]
    exact (StateSpec.layOut_keys faultless below).1
  · intro first second parent firstBelow secondBelow same
    rw [Draft.chartWithKinds_parent?] at firstBelow secondBelow
    rw [key, key] at same
    rcases Nat.lt_trichotomy first second with before | equal | after
    · exact absurd same ((StateSpec.layOut_keys faultless secondBelow).2 _ before firstBelow)
    · exact equal
    · exact absurd same.symm ((StateSpec.layOut_keys faultless firstBelow).2 _ after secondBelow)

end MachineSpec

namespace Chart

section Paths

variable {chart : Chart} (formed : chart.WellFormed) (keyed : chart.Keyed)
variable {state outer : StateId}

include formed keyed

/-- The path of a state goes on from that of a state that it lies in. -/
theorem path_of_within
    (within : chart.Within state outer) :
    ∃ keys, chart.path state = chart.path outer ++ keys := by
  induction state using Nat.strongRecOn with
  | _ state ih =>
      rcases within with rfl | inside
      · exact ⟨[], by simp⟩
      · obtain ⟨parent, below, further⟩ := (isInside_iff_parent formed).mp inside
        obtain ⟨keys, same⟩ := ih parent (formed.parentBefore below) further
        exact ⟨keys ++ [chart.key state], by rw [keyed.path_eq below, same, List.append_assoc]⟩

/-- No two states have the same path. -/
theorem path_injective
    {first second : StateId}
    (firstInRange : first < chart.size)
    (secondInRange : second < chart.size)
    (same : chart.path first = chart.path second) :
    first = second := by
  induction first using Nat.strongRecOn generalizing second with
  | _ first ih =>
      by_cases firstTop : first = root
      · by_contra different
        subst firstTop
        obtain ⟨parent, below⟩ := formed.parented secondInRange (Ne.symm different)
        rw [keyed.rootPath, keyed.path_eq below] at same
        simp at same
      · obtain ⟨parent, below⟩ := formed.parented firstInRange firstTop
        by_cases secondTop : second = root
        · subst secondTop
          rw [keyed.rootPath, keyed.path_eq below] at same
          simp at same
        · obtain ⟨other, otherBelow⟩ := formed.parented secondInRange secondTop
          rw [keyed.path_eq below, keyed.path_eq otherBelow] at same
          obtain ⟨sameAbove, sameKey⟩ := List.append_inj' same rfl
          obtain rfl := ih parent (formed.parentBefore below)
            (Nat.lt_trans (formed.parentBefore below) firstInRange)
            (Nat.lt_trans (formed.parentBefore otherBelow) secondInRange) sameAbove
          exact keyed.distinct below otherBelow (List.cons.inj sameKey).1

theorem path_valid
    (inRange : state < chart.size) :
    ∀ key ∈ chart.path state, validKey key = true := by
  induction state using Nat.strongRecOn with
  | _ state ih =>
      intro key member
      by_cases top : state = root
      · rw [top, keyed.rootPath] at member
        cases member
      · obtain ⟨parent, below⟩ := formed.parented inRange top
        have before := formed.parentBefore below
        rw [keyed.path_eq below] at member
        rcases List.mem_append.mp member with above | last
        · exact ih parent before (Nat.lt_trans before inRange) key above
        · rw [List.mem_singleton.mp last]
          exact keyed.valid below

/-- The path of a state is read again from the text that joins it with points. -/
theorem segments_path
    (inRange : state < chart.size) :
    ((Text.segments (Text.dotted (chart.path state))).filter fun segment => segment ≠ "") =
      chart.path state := by
  have valid := path_valid formed keyed inRange
  by_cases top : chart.path state = []
  · rw [top]
    rfl
  · rw [Text.segments_dotted top, List.filter_eq_self]
    · intro key member
      have isValid := valid key member
      simp only [validKey, Bool.and_eq_true] at isValid
      exact isValid.1.1
    · intro key member
      have isValid := valid key member
      simp only [validKey, Bool.and_eq_true, Bool.not_eq_true'] at isValid
      exact isValid.1.2

end Paths

end Chart

end Statechart
