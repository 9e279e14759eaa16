import Mathlib.Data.List.Basic
import Statechart.Checkpoint.Basic
import Statechart.Proofs.Building

/-!
# State names

The states of a built machine bear different ids.  A state is found under its own id unless
the id begins with the mark that is taken off a reference before it is looked up.
-/

namespace Statechart

namespace Chart

/-- The state that is found under the id of a state. -/
def reading (chart : Chart) (state : StateId) : Option StateId :=
  chart.find? (chart.id state)

/-- Does a reference begin with the mark that is taken off it? -/
def IsMarked (reference : String) : Prop :=
  reference.toList.head? = some '#'

instance (reference : String) : Decidable (IsMarked reference) :=
  inferInstanceAs (Decidable (reference.toList.head? = some '#'))

/-- Each state stands at its index, and no two states bear one id. -/
structure WellNamed (chart : Chart) : Prop where
  placed : ∀ {state node}, chart.node? state = some node → node.index = state
  distinct : ∀ {first second}, first < chart.size → second < chart.size →
    chart.id first = chart.id second → first = second

section Naming

variable {chart : Chart} {state : StateId}

theorem unmarked_of_not_marked
    {reference : String}
    (unmarked : ¬ IsMarked reference) :
    Chart.unmarked reference.toList = reference.toList := by
  unfold IsMarked at unmarked
  cases letters : reference.toList with
  | nil => rfl
  | cons letter rest =>
      rw [letters] at unmarked
      unfold Chart.unmarked
      split
      · rename_i same
        obtain ⟨rfl, rfl⟩ := List.cons.inj same
        exact absurd rfl unmarked
      · rfl

theorem id_of_node?
    {node : StateNode}
    (found : chart.node? state = some node) :
    chart.id state = node.id := by
  simp [id, found]

theorem bearer?_id
    (named : chart.WellNamed)
    (inRange : state < chart.size) :
    chart.bearer? (chart.id state) = some state := by
  have here : chart.node? state = some chart.nodes[state] := List.getElem?_eq_getElem inRange
  unfold bearer?
  cases isFirst : chart.nodes.reverse.find? fun node => node.id = chart.id state with
  | none =>
      have other := List.find?_eq_none.mp isFirst chart.nodes[state]
        (List.mem_reverse.mpr (List.getElem_mem inRange))
      exact absurd (decide_eq_true (id_of_node? here).symm) other
  | some node =>
      have member := List.mem_reverse.mp (List.mem_of_find?_eq_some isFirst)
      obtain ⟨other, otherInRange, same⟩ := List.mem_iff_getElem.mp member
      have found : chart.node? other = some node := same ▸ List.getElem?_eq_getElem otherInRange
      have bears : node.id = chart.id state := by simpa using List.find?_some isFirst
      have equal : other = state :=
        named.distinct otherInRange inRange ((id_of_node? found).trans bears)
      rw [Option.map_some, named.placed found, equal]

/-- A state whose id does not begin with the mark is found under it. -/
theorem reading_of_unmarked
    (named : chart.WellNamed)
    (inRange : state < chart.size)
    (unmarked : ¬ IsMarked (chart.id state)) :
    chart.reading state = some state := by
  unfold reading find?
  dsimp only
  rw [unmarked_of_not_marked unmarked, String.ofList_toList, bearer?_id named inRange]

theorem lookUpAll_eq_ok_iff
    {references : List String} {states : List StateId} :
    chart.lookUpAll references = .ok states ↔
      references.map chart.find? = states.map some := by
  induction references generalizing states with
  | nil => cases states <;> simp [lookUpAll]
  | cons reference references ih =>
      unfold lookUpAll lookUp
      cases found : chart.find? reference with
      | none => cases states <;> simp [found]
      | some state =>
          cases others : chart.lookUpAll references with
          | error fault =>
              have missed : ∀ rest : List StateId,
                  references.map chart.find? ≠ rest.map some := by
                intro rest same
                rw [← ih, others] at same
                cases same
              cases states <;> simp [found, missed]
          | ok rest =>
              have looked := ih.mp others
              cases states with
              | nil => simp
              | cons first states =>
                  simp only [Except.ok.injEq, List.map_cons, found, looked, List.cons.injEq,
                    Option.some.injEq]
                  have injective : Function.Injective (some : StateId → Option StateId) :=
                    fun _ _ same => Option.some.inj same
                  exact and_congr_right fun _ => injective.list_map.eq_iff.symm

theorem lookUpAll_unknown
    {found missing : List String} {reference : String}
    (known : ∀ reference ∈ found, (chart.find? reference).isSome = true)
    (unknown : chart.find? reference = none) :
    chart.lookUpAll (found ++ reference :: missing) = .error (.unknownState reference) := by
  induction found with
  | nil =>
      rw [List.nil_append, lookUpAll, lookUp, unknown]
  | cons first found ih =>
      obtain ⟨here, others⟩ := List.forall_mem_cons.mp known
      obtain ⟨state, isFound⟩ := Option.isSome_iff_exists.mp here
      rw [List.cons_append, lookUpAll, lookUp, isFound, ih others]

end Naming

end Chart

namespace StateSpec

variable {L : Type}

/-- No state is given an id that begins with the mark. -/
def GivenUnmarked (heads : List (StateHead L)) : Prop :=
  ∀ head ∈ heads, ∀ id ∈ head.id, ¬ Chart.IsMarked id

instance (heads : List (StateHead L)) : Decidable (GivenUnmarked heads) :=
  inferInstanceAs (Decidable (∀ head ∈ heads, ∀ id ∈ head.id, ¬ Chart.IsMarked id))

theorem unmarked_dotted
    {above : String}
    (unmarked : ¬ Chart.IsMarked above) (key : String) :
    ¬ Chart.IsMarked (above ++ "." ++ key) := by
  unfold Chart.IsMarked at unmarked ⊢
  cases letters : above.toList with
  | nil => simp [letters]
  | cons letter rest => simpa [letters] using unmarked

mutual

theorem layOutBelow_unmarked : ∀ (parent : StateNode) (index : StateId) (spec : StateSpec L),
    ¬ Chart.IsMarked parent.id → GivenUnmarked spec.heads →
      ∀ node ∈ layOutBelow parent index spec, ¬ Chart.IsMarked node.id
  | parent, index, .mk head children, unmarked, given => by
      obtain ⟨here, below⟩ := List.forall_mem_cons.mp given
      have placed : ¬ Chart.IsMarked (placeChild parent index head children).id := by
        unfold placeChild
        cases named : head.id with
        | none => exact unmarked_dotted unmarked head.key
        | some id => exact here id named
      exact List.forall_mem_cons.mpr
        ⟨placed, layOutAll_unmarked _ (index + 1) children placed below⟩

theorem layOutAll_unmarked : ∀ (parent : StateNode) (index : StateId)
    (specs : List (StateSpec L)),
    ¬ Chart.IsMarked parent.id → GivenUnmarked (headsOf specs) →
      ∀ node ∈ layOutAll parent index specs, ¬ Chart.IsMarked node.id
  | _, _, [], _, _ => fun _ member => by cases member
  | parent, index, spec :: specs, unmarked, given => by
      obtain ⟨first, rest⟩ := List.forall_mem_append.mp given
      exact List.forall_mem_append.mpr ⟨layOutBelow_unmarked parent index spec unmarked first,
        layOutAll_unmarked parent _ specs unmarked rest⟩

end

theorem layOut_unmarked
    {spec : StateSpec L}
    (unmarked : ¬ Chart.IsMarked spec.head.key)
    (given : GivenUnmarked spec.heads) :
    ∀ node ∈ spec.layOut.nodes, ¬ Chart.IsMarked node.id := by
  obtain ⟨head, children⟩ := spec
  obtain ⟨here, below⟩ := List.forall_mem_cons.mp given
  have placed : ¬ Chart.IsMarked (placeRoot head children).id := by
    unfold placeRoot
    cases named : head.id with
    | none => exact unmarked
    | some id => exact here id named
  exact List.forall_mem_cons.mpr ⟨placed, layOutAll_unmarked _ _ children placed below⟩

end StateSpec

namespace MachineSpec

variable {L : Type} {spec : MachineSpec L} {machine : Machine L}

/-- Neither the machine itself nor any of its states is given an id that begins with the
mark. -/
structure NamesUnmarked (spec : MachineSpec L) : Prop where
  machine : ¬ Chart.IsMarked spec.root.head.key
  states : StateSpec.GivenUnmarked spec.root.heads

/-- Ids that are made up of keys do not begin with the mark. -/
theorem NamesUnmarked.id
    (unmarked : spec.NamesUnmarked)
    (built : spec.build = .ok machine)
    {state : StateId}
    (inRange : state < machine.chart.size) :
    ¬ Chart.IsMarked (machine.chart.id state) := by
  rw [build_chart built] at inRange ⊢
  rw [Draft.chartWithKinds_size] at inRange
  have sameId : (Draft.ofSpec spec.root).chartWithKinds.id state = spec.root.layOut.id state := by
    unfold Chart.id
    rw [Draft.chartWithKinds_view StateNode.id (fun _ _ => rfl) state]
  have found : spec.root.layOut.node? state = some spec.root.layOut.nodes[state] :=
    List.getElem?_eq_getElem inRange
  rw [sameId, Chart.id_of_node? found]
  exact StateSpec.layOut_unmarked unmarked.machine unmarked.states _ (List.getElem_mem inRange)

theorem build_wellNamed
    (built : spec.build = .ok machine) :
    machine.chart.WellNamed where
  placed := by
    intro state node found
    rw [build_chart built] at found
    have viewed : ((Draft.ofSpec spec.root).chartWithKinds.node? state).map StateNode.index =
        (spec.root.layOut.node? state).map StateNode.index :=
      Draft.chartWithKinds_view StateNode.index (fun _ _ => rfl) state
    rw [found] at viewed
    obtain ⟨laid, isLaid, index⟩ := Option.map_eq_some_iff.mp viewed.symm
    exact index.symm.trans (spec.root.layOut_node?.mp isLaid).2
  distinct := build_ids_distinct built

end MachineSpec

end Statechart
