import Statechart.Proofs.Building
import Statechart.Proofs.Defaults

/-!
# The initial configuration

A machine starts in the default completion of its root: the least set of states that holds the
root, the initial child of each compound state in it and all regions of each parallel state in
it.  This is a valid configuration.
-/

namespace Statechart

namespace Chart

/-- The state belongs to the default completion of the root. -/
inductive Beginning (chart : Chart) : StateId → Prop where
  | top : Beginning chart root
  | initial {outer initial : StateId} :
      Beginning chart outer → chart.kind outer = .compound initial → Beginning chart initial
  | region {outer child : StateId} :
      Beginning chart outer → chart.isParallel outer = true → child ∈ chart.children outer →
      chart.isHistory child = false → Beginning chart child

section Completion

variable {chart : Chart} {state outer : StateId}

theorem Beginning.of_byDefault
    (beginning : chart.Beginning outer)
    (brought : chart.ByDefault state outer) :
    chart.Beginning state := by
  induction brought with
  | here => exact beginning
  | initial kind _ ih => exact ih (beginning.initial kind)
  | region isParallel isRegion _ ih =>
      obtain ⟨below, ordinary⟩ := List.mem_filter.mp isRegion
      exact ih (beginning.region isParallel below (by simpa using ordinary))

theorem byDefault_root_iff : chart.ByDefault state root ↔ chart.Beginning state := by
  constructor
  · exact Beginning.top.of_byDefault
  · intro beginning
    induction beginning with
    | top => exact .here
    | initial _ kind ih => exact (ByDefault.initial kind .here).trans ih
    | @region outer child _ isParallel below ordinary ih =>
        have isRegion : child ∈ chart.regions outer :=
          List.mem_filter.mpr ⟨below, by simp [ordinary]⟩
        exact (ByDefault.region isParallel isRegion .here).trans ih

end Completion

end Chart

namespace MachineSpec

variable {L : Type} {spec : MachineSpec L} {machine : Machine L}

/-- In a built machine a compound state starts in the child whose key is named as its initial
one, or else in its first child that is no history state. -/
theorem build_initial_child
    (built : spec.build = .ok machine)
    {parent child : StateId}
    (kind : machine.chart.kind parent = .compound child) :
    ∃ head, spec.root.heads[parent]? = some head ∧
      match head.initial with
      | some key => child ∈ machine.chart.regions parent ∧ machine.chart.key child = key
      | none => (machine.chart.regions parent).head? = some child := by
  rw [build_chart built] at kind ⊢
  obtain ⟨head, described, found⟩ := Draft.initialChild?_of_kind kind
  refine ⟨head, described, ?_⟩
  rw [Draft.regions_eq]
  unfold Draft.initialChild? at found
  cases named : head.initial with
  | none =>
      rw [named] at found
      exact found
  | some key =>
      rw [named] at found
      refine ⟨List.mem_of_find?_eq_some found, ?_⟩
      have keyed : spec.root.layOut.key child = key := by simpa using List.find?_some found
      rw [← keyed, Chart.key, Chart.key,
        Draft.chartWithKinds_view StateNode.key (fun _ _ => rfl) child]

/-- The initial configuration of a built machine is valid, and it consists of the root, the
initial child of each compound state in it, all children but the history states of each parallel
state in it, and nothing else.  The initial child is the one that the description names or, if
it names none, the first that is no history state. -/
theorem initial_configuration_exact
    (built : spec.build = .ok machine)
    (ordinaryRoot : spec.HasOrdinaryRoot) :
    machine.chart.check machine.chart.initialConfiguration = none ∧
      machine.chart.initialConfiguration.Ordered ∧
      (∀ state, state ∈ machine.chart.initialConfiguration ↔ machine.chart.Beginning state) ∧
      ∀ parent child, machine.chart.kind parent = .compound child →
        ∃ head, spec.root.heads[parent]? = some head ∧
          match head.initial with
          | some key => child ∈ machine.chart.regions parent ∧ machine.chart.key child = key
          | none => (machine.chart.regions parent).head? = some child := by
  have formed := build_wellFormed built ordinaryRoot
  obtain ⟨entries, started⟩ := Chart.initialEntries_end formed
  have same : machine.chart.initialConfiguration = entries := by
    simp [Chart.initialConfiguration, started]
  rw [same]
  refine ⟨(Chart.check_eq_none_iff formed).mpr (Chart.initialEntries_valid formed started),
    Chart.initialEntries_ordered started, fun state => ?_, fun _ _ => build_initial_child built⟩
  rw [Chart.initialEntries_byDefault formed started, Chart.byDefault_root_iff]

/-- A lecture hall whose desk, apart from the slides, remembers what it was last used for. -/
def hall : MachineSpec L :=
  { root := .mk { key := "hall", initial := some "open" }
      [.mk { key := "closed" } [],
       .mk { key := "open", kind := .parallel }
          [.mk { key := "slides" } [.mk { key := "blank" } [], .mk { key := "shown" } []],
           .mk { key := "desk" }
              [.mk { key := "last", kind := .history .shallow } [],
               .mk { key := "lecture" } [],
               .mk { key := "exam" } []],
           .mk { key := "again", kind := .history .deep } []]]
    context := some fun _ => .null }

/-- The hall starts open, with blank slides and a desk for a lecture. -/
theorem initial_configuration_exact_hall :
    let machine : Machine Unit := hall.machine fun _ => .null
    machine.chart.check machine.chart.initialConfiguration = none ∧
      5 ∉ machine.chart.initialConfiguration ∧ 8 ∈ machine.chart.initialConfiguration := by
  intro machine
  have built : hall.build = .ok machine := build_of_faultless (by decide +kernel) rfl
  obtain ⟨valid, _, members, _⟩ := initial_configuration_exact built (.inl rfl)
  have opened : machine.chart.Beginning 2 := .initial .top (by decide +kernel)
  have desk : machine.chart.Beginning 6 :=
    opened.region (by decide +kernel) (by decide +kernel) (by decide +kernel)
  have slides : machine.chart.Beginning 3 :=
    opened.region (by decide +kernel) (by decide +kernel) (by decide +kernel)
  have blank : machine.chart.Beginning 4 := slides.initial (by decide +kernel)
  have formed := build_wellFormed built (.inl rfl)
  refine ⟨valid, fun shown => ?_, (members 8).mpr (desk.initial (by decide +kernel))⟩
  have same : 4 = 5 := ((Chart.check_eq_none_iff formed).mp valid).siblings_eq formed
    (show machine.chart.isCompound 3 = true by decide +kernel) (by decide +kernel)
    (by decide +kernel) ((members 4).mpr blank) shown
  cases same

end MachineSpec

end Statechart
