import Statechart.Proofs.DanglingReferences

/-!
# Resolved machines

Whatever a built machine names is there.  Its states know their parents and their children, initial
children and defaults lie where they belong, and all that is declared with a reference has become
what the reference names.  So nothing that is looked up while the machine runs can be missing: a
selection tells where each of its candidates stands, and a guard gives a verdict unless one of its
own tests does not.
-/

namespace Statechart

namespace Guard

mutual

/-- The tests in a guard, with the names that they are given, from left to right. -/
def tests : Guard → List (Option String × (Json → Event → Except String Bool))
  | .test given verdict => [(given, verdict)]
  | .inState _ _ => []
  | .not _ guard => guard.tests
  | .and _ guards => testsIn guards
  | .or _ guards => testsIn guards

def testsIn : List Guard → List (Option String × (Json → Event → Except String Bool))
  | [] => []
  | guard :: guards => guard.tests ++ testsIn guards

end

/-- The error is that of one of these tests, which gives no verdict on what is seen. -/
inductive TestFails (sight : Sight)
    (tests : List (Option String × (Json → Event → Except String Bool))) : GuardError → Prop where
  | intro {given : Option String} {verdict : Json → Event → Except String Bool}
      {reason : String} :
      (given, verdict) ∈ tests → verdict sight.context sight.event = .error reason →
      TestFails sight tests
        { guard := given.getD "guard", event := sight.event.type, reason }

/-- Why guards made of these tests and these references give no verdict. -/
inductive Stuck (sight : Sight)
    (tests : List (Option String × (Json → Event → Except String Bool)))
    (references : List String) (error : GuardError) : Prop where
  | test : TestFails sight tests error → Stuck sight tests references error
  | reference {reference : String} :
      reference ∈ references → sight.chart.find? reference = none →
      error.reason = "unknown state '" ++ reference ++ "'" → Stuck sight tests references error

variable {sight : Sight} {error : GuardError}

theorem TestFails.mono
    {tests more : List (Option String × (Json → Event → Except String Bool))}
    (fails : TestFails sight tests error)
    (sub : tests ⊆ more) :
    TestFails sight more error := by
  obtain ⟨member, failed⟩ := fails
  exact ⟨sub member, failed⟩

theorem Stuck.mono
    {tests more : List (Option String × (Json → Event → Except String Bool))}
    {references further : List String}
    (stuck : Stuck sight tests references error)
    (tested : tests ⊆ more)
    (referred : references ⊆ further) :
    Stuck sight more further error := by
  cases stuck with
  | test fails => exact .test (fails.mono tested)
  | reference member unknown reason => exact .reference (referred member) unknown reason

mutual

/-- A guard without a verdict is stuck at one of its tests or one of its references. -/
theorem stuck_of_check :
    (guard : Guard) → guard.check sight = .error error →
      Stuck sight guard.tests guard.references error
  | .test given verdict, failed => by
      unfold check at failed
      split at failed
      · cases failed
      · cases failed
        exact .test ⟨List.mem_singleton_self _, ‹_›⟩
  | .inState given reference, failed => by
      unfold check at failed
      split at failed
      · cases failed
      · cases failed
        exact .reference (List.mem_singleton_self _) ‹_› rfl
  | .not _ guard, failed => by
      unfold check at failed
      split at failed
      · cases failed
      · cases failed
        exact stuck_of_check guard ‹_›
  | .and _ guards, failed => stuck_of_checkAll guards (by rwa [check] at failed)
  | .or _ guards, failed => stuck_of_checkAny guards (by rwa [check] at failed)

theorem stuck_of_checkAll :
    (guards : List Guard) → checkAll sight guards = .error error →
      Stuck sight (testsIn guards) (referencesIn guards) error
  | [], failed => by cases failed
  | guard :: guards, failed => by
      unfold checkAll at failed
      split at failed
      · exact (stuck_of_checkAll guards failed).mono (List.subset_append_right _ _)
          (List.subset_append_right _ _)
      · cases failed
      · cases failed
        exact (stuck_of_check guard ‹_›).mono (List.subset_append_left _ _)
          (List.subset_append_left _ _)

theorem stuck_of_checkAny :
    (guards : List Guard) → checkAny sight guards = .error error →
      Stuck sight (testsIn guards) (referencesIn guards) error
  | [], failed => by cases failed
  | guard :: guards, failed => by
      unfold checkAny at failed
      split at failed
      · cases failed
      · exact (stuck_of_checkAny guards failed).mono (List.subset_append_right _ _)
          (List.subset_append_right _ _)
      · cases failed
        exact (stuck_of_check guard ‹_›).mono (List.subset_append_left _ _)
          (List.subset_append_left _ _)

end

/-- A guard all of whose references name states fails only with one of its tests. -/
theorem testFails_of_check
    {guard : Guard}
    (resolved : ∀ reference ∈ guard.references, ∃ state, sight.chart.find? reference = some state)
    (failed : guard.check sight = .error error) :
    TestFails sight guard.tests error := by
  cases stuck_of_check guard failed with
  | test fails => exact fails
  | reference member unknown =>
      obtain ⟨state, found⟩ := resolved _ member
      rw [unknown] at found
      cases found

end Guard

variable {L : Type}

namespace Machine

/-- The candidate is one of those of the state. -/
def Holds (machine : Machine L) (source : StateId) (candidate : Candidate L) : Prop :=
  ∃ transition ∈ (machine.conduct source).transitions, candidate ∈ transition.candidates

/-- All that the machine names is there. -/
structure Resolved (machine : Machine L) : Prop where
  linked : ∀ parent child,
    child ∈ machine.chart.children parent ↔ machine.chart.parent? child = some parent
  linksInRange : ∀ parent child, machine.chart.parent? child = some parent →
    parent < machine.chart.size ∧ child < machine.chart.size
  initials : ∀ state initial, machine.chart.kind state = .compound initial →
    initial ∈ machine.chart.children state ∧ machine.chart.isHistory initial = false
  defaults : ∀ state memory defaults, machine.chart.kind state = .history memory defaults →
    ∃ parent, machine.chart.parent? state = some parent ∧ ∀ default ∈ defaults,
      machine.chart.isHistory default = false ∧ machine.chart.isInside default parent = true
  targets : ∀ source candidate, machine.Holds source candidate →
    ∀ target ∈ candidate.targets, target < machine.chart.size
  guards : ∀ source candidate guard, machine.Holds source candidate →
    candidate.guard = some guard → ∀ reference ∈ guard.references,
      ∃ state < machine.chart.size, machine.chart.find? reference = some state

section Selecting

variable {machine : Machine L} {trigger : Trigger}

theorem candidate?_of_mem_choices
    {event : Event} {state : StateId} {choice : Choice L}
    (member : choice ∈ machine.choices trigger event state) :
    machine.candidate? choice.ref = some choice.candidate := by
  obtain ⟨⟨transition, index⟩, concerned, listed⟩ := List.mem_flatMap.mp member
  obtain ⟨placed, _⟩ := mem_concerned.mp concerned
  obtain ⟨⟨candidate, position⟩, numbered, rfl⟩ := List.mem_map.mp listed
  have candidateAt := List.mk_mem_zipIdx_iff_getElem?.mp numbered
  simp only at placed
  simp [candidate?, placed, candidateAt]

theorem guard_fails_of_enabledFrom
    {sight : Guard.Sight} {leaves : List StateId} {found : List (Choice L)} {error : GuardError}
    (failed : machine.enabledFrom trigger sight leaves found = .error error) :
    ∃ leaf ∈ leaves, ∃ choice ∈ machine.tried trigger sight.event leaf,
      ∃ guard, choice.candidate.guard = some guard ∧ guard.check sight = .error error := by
  induction leaves generalizing found with
  | nil => cases failed
  | cons leaf leaves ih =>
      unfold enabledFrom at failed
      split at failed
      · obtain ⟨other, isLeaf, fails⟩ := ih failed
        exact ⟨other, List.mem_cons_of_mem leaf isLeaf, fails⟩
      · cases failed
        cases firstChoice_eq_iff.mp ‹_› with
        | @failed choice _ reached refuses =>
            refine ⟨leaf, List.mem_cons_self, choice, reached.mem, ?_⟩
            cases guarded : choice.candidate.guard with
            | none => simp [Choice.verdict, guarded, Guard.Sight.verdict] at refuses
            | some guard =>
                exact ⟨guard, rfl, by simpa [Choice.verdict, guarded, Guard.Sight.verdict]
                  using refuses⟩

end Selecting

end Machine

namespace MachineSpec

variable {spec : MachineSpec L} {machine : Machine L}

theorem build_no_dangling
    (built : spec.build = .ok machine)
    {state : StateId} {head : StateHead L} {item : Descriptor × TransitionSpec L}
    (described : spec.root.heads[state]? = some head)
    (declared : item ∈ head.declared (machine.chart.id state)) :
    ∀ error, ¬ machine.chart.Dangles state item.2 error := by
  rw [build_chart built] at declared ⊢
  intro error dangles
  have fault := reports_iff.mp
    ((reports_dangling_iff dangles.isDangling).mpr (.inTransition described declared dangles))
  rw [(build_ok built).1] at fault
  cases fault

/-- All targets that are declared for a state of a built machine are found, and none is left
out. -/
theorem build_targets_found
    (built : spec.build = .ok machine)
    {state : StateId} {head : StateHead L} {item : Descriptor × TransitionSpec L}
    (described : spec.root.heads[state]? = some head)
    (declared : item ∈ head.declared (machine.chart.id state)) :
    item.2.targets.map (Draft.target? machine.chart state) =
      (machine.chart.candidate state item.2).targets.map some := by
  have found : ∀ reference ∈ item.2.targets,
      Draft.target? machine.chart state reference ≠ none :=
    fun reference isTarget unknown =>
      build_no_dangling built described declared _ (.target isTarget unknown)
  simp only [Chart.candidate, Chart.targets]
  generalize item.2.targets = references at found
  induction references with
  | nil => rfl
  | cons reference references ih =>
      obtain ⟨here, later⟩ := List.forall_mem_cons.mp found
      obtain ⟨target, named⟩ := Option.ne_none_iff_exists'.mp here
      simp [named, ih later]

theorem build_holds
    (built : spec.build = .ok machine)
    {source : StateId} {candidate : Candidate L}
    (holds : machine.Holds source candidate) :
    ∃ head, spec.root.heads[source]? = some head ∧
      ∃ item ∈ head.declared (machine.chart.id source),
        candidate = machine.chart.candidate source item.2 := by
  obtain ⟨transition, isTransition, isCandidate⟩ := holds
  obtain ⟨head, described⟩ := build_described built isTransition
  have groups := (build_declared built described).2
  rw [groups.candidates transition isTransition] at isCandidate
  obtain ⟨item, selected, rfl⟩ := List.mem_map.mp isCandidate
  exact ⟨head, described, item, (List.mem_filter.mp selected).1, rfl⟩

section Built

variable (built : spec.build = .ok machine) (ordinaryRoot : spec.HasOrdinaryRoot)

include built ordinaryRoot

/-- A built machine is resolved. -/
theorem build_resolved : machine.Resolved := by
  have formed := build_wellFormed built ordinaryRoot
  refine ⟨fun _ _ => formed.mem_children, fun parent child below => ?_,
    fun state initial compound => ?_, fun state memory defaults history => ?_,
    fun source candidate ⟨transition, isTransition, isCandidate⟩ =>
      build_leadWithin built ordinaryRoot source transition isTransition candidate isCandidate,
    fun source candidate guard holds guarded reference isReference => ?_⟩
  · have inRange := Chart.parent_in_range below
    exact ⟨Nat.lt_trans (formed.parentBefore below) inRange, inRange⟩
  · obtain ⟨below, ordinary⟩ := (Chart.mem_regions formed).mp (formed.initialBelow compound)
    exact ⟨formed.mem_children.mpr below, ordinary⟩
  · have isHistory : machine.chart.isHistory state = true := by simp [Chart.isHistory, history]
    have notRoot : state ≠ Chart.root := by
      rintro rfl
      rw [formed.rootOrdinary] at isHistory
      cases isHistory
    have inRange : state < machine.chart.size := by
      by_contra beyond
      rw [Chart.kind_beyond (Nat.le_of_not_lt beyond)] at history
      cases history
    obtain ⟨parent, below⟩ := formed.parented inRange notRoot
    exact ⟨parent, below, formed.defaultsBelow history below⟩
  · obtain ⟨head, described, item, declared, rfl⟩ := build_holds built holds
    cases found : machine.chart.find? reference with
    | some state => exact ⟨state, Chart.find?_in_range formed (build_indexed built) found, rfl⟩
    | none =>
        exact absurd (.guard guarded isReference found)
          (build_no_dangling built described declared _)

/-- What is looked up while a built machine runs is there.  All that the machine names is a state
of its chart that lies where it belongs, and all that is declared with references has become what
they name.  Whatever is active, recorded, known and heard, each transition that is selected stands
where its reference says; a selection fails only on the guard of a state's candidate; and a guard
fails only with one of its own tests, never for a reference, however deep in it that stands. -/
theorem lookups_succeed :
    machine.Resolved ∧
    (∀ state head, spec.root.heads[state]? = some head →
      ∀ item ∈ head.declared (machine.chart.id state),
        item.2.targets.map (Draft.target? machine.chart state) =
          (machine.chart.candidate state item.2).targets.map some) ∧
    (∀ trigger active history context event selection,
      machine.select trigger active history context event = .ok selection →
      ∀ choice ∈ selection.chosen, choice.ref.source < machine.chart.size ∧
        machine.candidate? choice.ref = some choice.candidate) ∧
    (∀ trigger active history context event error,
      machine.select trigger active history context event = .error error →
      ∃ source candidate guard, machine.Holds source candidate ∧ candidate.guard = some guard ∧
        guard.check { chart := machine.chart, active, context, event } = .error error) ∧
    ∀ source candidate guard, machine.Holds source candidate → candidate.guard = some guard →
      ∀ active context event error,
        guard.check { chart := machine.chart, active, context, event } = .error error →
        Guard.TestFails { chart := machine.chart, active, context, event } guard.tests error := by
  have resolved := build_resolved built ordinaryRoot
  refine ⟨resolved, fun state head described item declared =>
    build_targets_found built described declared, ?_, ?_, ?_⟩
  · intro trigger active history context event selection selected choice chosen
    have among := Machine.mem_choices_of_select selected choice chosen
    obtain ⟨_, transition, isTransition, _⟩ := Machine.mem_choices among
    obtain ⟨head, described⟩ := build_described built isTransition
    exact ⟨build_in_range built described, Machine.candidate?_of_mem_choices among⟩
  · intro trigger active history context event error failed
    unfold Machine.select at failed
    split at failed
    · cases failed
    · cases failed
      obtain ⟨leaf, _, choice, tried, guard, guarded, fails⟩ :=
        Machine.guard_fails_of_enabledFrom ‹_›
      obtain ⟨source, _, among⟩ := List.mem_flatMap.mp tried
      exact ⟨source, choice.candidate, guard, (Machine.mem_choices among).2, guarded, fails⟩
  · intro source candidate guard holds guarded active context event error failed
    refine Guard.testFails_of_check (fun reference isReference => ?_) failed
    obtain ⟨state, _, found⟩ := resolved.guards source candidate guard holds guarded reference
      isReference
    exact ⟨state, found⟩

end Built

/-- To close unless it is busy, if nothing is closed yet or it is known that this may be done. -/
def closing : Guard :=
  .and none [.not none (.inState none "shop.open.busy"),
    .or (some "unhurried") [.inState none "#shop.closed",
      .test (some "allowed") fun context _ =>
        match context with
        | .null => .error "nothing is known"
        | _ => .ok true]]

/-- A shop that opens again as busy as it was when it closed, or calm at first. -/
def shop : MachineSpec Unit :=
  { root := .mk { key := "shop" }
      [.mk { key := "open",
             transitions := [(.on "CLOSE", { targets := ["closed"], guard := some closing })] }
        [.mk { key := "calm", transitions := [(.on "RUSH", .toTarget "busy")] } [],
         .mk { key := "busy" } [],
         .mk { key := "last", kind := .history .shallow, historyTarget := some "calm" } []],
       .mk { key := "closed", transitions := [(.on "OPEN", .toTarget "open.last")] } []]
    context := some fun _ => .null }

/-- Whatever is active and heard, closing the shop can fail only as nothing is known. -/
theorem lookups_succeed_shop :
    let machine := shop.machine fun _ => .null
    machine.Resolved ∧ machine.chart.kind 4 = .history .shallow [2] ∧
      ∀ active event error,
        closing.check { chart := machine.chart, active, context := .null, event } = .error error →
        error = { guard := "allowed", event := event.type, reason := "nothing is known" } := by
  intro machine
  have built : shop.build = .ok machine := build_of_faultless (by decide +kernel) rfl
  have lookups := lookups_succeed built (.inl rfl)
  have holds : machine.Holds 1
      { guard := some closing, targets := [5], actions := [], reenter := false } :=
    ⟨_, List.mem_cons_self, List.mem_cons_self⟩
  refine ⟨lookups.1, by decide +kernel, fun active event error failed => ?_⟩
  obtain ⟨isTest, fails⟩ := lookups.2.2.2.2 1 _ closing holds rfl active .null event error failed
  simp only [closing, Guard.tests, Guard.testsIn, List.nil_append, List.append_nil,
    List.mem_singleton, Prod.mk.injEq] at isTest
  obtain ⟨rfl, rfl⟩ := isTest
  cases fails
  rfl

end MachineSpec

end Statechart
