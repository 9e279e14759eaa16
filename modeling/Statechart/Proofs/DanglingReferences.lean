import Statechart.Proofs.FinalStates
import Statechart.Proofs.Tokens

/-!
# Dangling references

A reference of a described transition dangles if it names no state.  Building looks for dangling
references in every transition that has a descriptor and reports all of them, whatever else is
wrong with the description.  A transition whose descriptor is no text at all is reported for that,
and is then looked at no further.
-/

namespace Statechart

variable {L : Type}

/-- Does the fault tell of a reference in a transition that names no state? -/
def DefinitionError.isDangling : DefinitionError → Bool
  | .unknownTarget _ _ | .unknownGuardState _ _ => true
  | _ => false

/-- The transition is declared for the state, in one of the ways in which this can be done. -/
inductive StateHead.Declares (head : StateHead L) (transition : TransitionSpec L) : Prop where
  | on {text : String} : (.on text, transition) ∈ head.transitions → Declares head transition
  | always : (.always, transition) ∈ head.transitions → Declares head transition
  | done : (.done, transition) ∈ head.transitions → Declares head transition
  | after {delay : Duration} : (delay, transition) ∈ head.after → Declares head transition
  | actorDone {invoke : InvokeSpec L} :
      invoke ∈ head.invokes → transition ∈ invoke.onDone → Declares head transition
  | actorError {invoke : InvokeSpec L} :
      invoke ∈ head.invokes → transition ∈ invoke.onError → Declares head transition

/-- The fault of a reference in the transition that names no state. -/
inductive Chart.Dangles (chart : Chart) (source : StateId) (transition : TransitionSpec L) :
    DefinitionError → Prop where
  | target {reference : String} :
      reference ∈ transition.targets → Draft.target? chart source reference = none →
      Dangles chart source transition (.unknownTarget (chart.id source) reference)
  | guard {guard : Guard} {reference : String} :
      transition.guard = some guard → reference ∈ guard.references →
      chart.find? reference = none →
      Dangles chart source transition (.unknownGuardState (chart.id source) reference)

section Transitions

variable {chart : Chart} {source : StateId} {transition : TransitionSpec L}
variable {error : DefinitionError}

theorem Chart.Dangles.isDangling
    (dangles : chart.Dangles source transition error) :
    error.isDangling = true := by
  cases dangles <;> rfl

theorem Chart.targetConflicts_conflicting
    {id : String} {targets : List StateId}
    (conflict : error ∈ chart.targetConflicts id targets) :
    error.isDangling = false := by
  induction targets with
  | nil => cases conflict
  | cons first rest ih =>
      rw [targetConflicts] at conflict
      rcases List.mem_append.mp conflict with here | later
      · split at here
        · rw [List.mem_singleton] at here
          rw [here]
          rfl
        · cases here
      · exact ih later

theorem Chart.mem_transitionErrors_iff
    (dangling : error.isDangling = true) :
    error ∈ chart.transitionErrors source transition ↔ chart.Dangles source transition error := by
  have noConflict : error ∉ chart.targetConflicts (chart.id source)
      (chart.targets source transition) := by
    intro conflict
    rw [targetConflicts_conflicting conflict] at dangling
    cases dangling
  simp only [transitionErrors, List.mem_append, noConflict, or_false, List.mem_map,
    List.mem_filter, Option.isNone_iff_eq_none]
  constructor
  · rintro (⟨reference, ⟨isTarget, unknown⟩, rfl⟩ | ⟨reference, ⟨isReference, unknown⟩, rfl⟩)
    · exact .target isTarget unknown
    · cases guarded : transition.guard with
      | none => simp [guarded] at isReference
      | some guard => exact .guard guarded (by simpa [guarded] using isReference) unknown
  · rintro (⟨isTarget, unknown⟩ | ⟨guarded, isReference, unknown⟩)
    · exact .inl ⟨_, ⟨isTarget, unknown⟩, rfl⟩
    · exact .inr ⟨_, ⟨by simpa [guarded] using isReference, unknown⟩, rfl⟩

end Transitions

/-- What a clause declares, unless it is a fault. -/
def Clause.declared? : Clause L → Option (Descriptor × TransitionSpec L)
  | .transition descriptor spec => some (descriptor, spec)
  | .fault _ => none

/-- The clause is no dangling reference. -/
def Clause.IsPlain : Clause L → Prop
  | .transition _ _ => True
  | .fault error => error.isDangling = false

namespace StateHead

variable {head : StateHead L} {id : String} {taken : List String}
variable {transition : TransitionSpec L}

theorem clauseOf_declared (id : String) (item : Cue × TransitionSpec L) :
    (clauseOf id item).declared? =
      (item.1.descriptor? id).map fun descriptor => (descriptor, item.2) := by
  obtain ⟨cue, transition⟩ := item
  cases cue with
  | on text => cases parsed : Descriptor.parse? text <;> simp [clauseOf, Cue.descriptor?, parsed,
      Clause.declared?]
  | always => rfl
  | done => rfl

theorem invokeClauses_declared (invoke : InvokeSpec L) (position : Nat) :
    (invokeClauses taken (invokeId id invoke position) invoke).filterMap Clause.declared? =
      declaredBy id invoke position := by
  simp [invokeClauses, declaredBy, List.filterMap_append, List.filterMap_map, Function.comp_def,
    Clause.declared?]

theorem allInvokeClauses_declared (invokes : List (InvokeSpec L × Nat)) :
    (allInvokeClauses id taken invokes).filterMap Clause.declared? =
      invokes.flatMap fun item => declaredBy id item.1 item.2 := by
  induction invokes generalizing taken with
  | nil => rfl
  | cons first invokes ih =>
      rw [allInvokeClauses, List.filterMap_append, invokeClauses_declared, ih, List.flatMap_cons]

theorem clauses_declared (head : StateHead L) (id : String) (taken : List String) :
    (head.clauses id taken).filterMap Clause.declared? = head.declared id := by
  have cues : (head.transitions.map (clauseOf id)).filterMap Clause.declared? = head.cued id := by
    rw [List.filterMap_map]
    exact List.filterMap_congr fun item _ => clauseOf_declared id item
  rw [declared_eq, clauses, List.filterMap_append, List.filterMap_append, List.filterMap_append,
    cues, allInvokeClauses_declared, invoked, List.filterMap_map]
  refine congrArg₂ (· ++ ·) (congrArg₂ (· ++ ·) ?_ (congrFun List.filterMap_eq_map _)) rfl
  split <;> rfl

theorem clauses_plain (head : StateHead L) (id : String) (taken : List String) :
    ∀ clause ∈ head.clauses id taken, clause.IsPlain := by
  have invokes : ∀ (invokes : List (InvokeSpec L × Nat)) (taken : List String),
      ∀ clause ∈ allInvokeClauses id taken invokes, clause.IsPlain := by
    intro invokes
    induction invokes with
    | nil => exact fun _ _ member => by cases member
    | cons first invokes ih =>
        intro taken
        refine List.forall_mem_append.mpr ⟨?_, ih _⟩
        simp only [invokeClauses, List.forall_mem_append, List.forall_mem_map]
        refine ⟨⟨?_, fun _ _ => trivial⟩, fun _ _ => trivial⟩
        split <;> simp [Clause.IsPlain, DefinitionError.isDangling]
  simp only [clauses, List.forall_mem_append, List.forall_mem_map]
  refine ⟨⟨⟨?_, ?_⟩, fun _ _ => trivial⟩, invokes _ _⟩
  · split <;> simp [Clause.IsPlain, DefinitionError.isDangling]
  · rintro ⟨cue, spec⟩ _
    cases cue with
    | on text => cases parsed : Descriptor.parse? text <;> simp [clauseOf, parsed, Clause.IsPlain,
        DefinitionError.isDangling]
    | always => trivial
    | done => trivial

/-- What is declared with a descriptor is all that is declared for the state but what has the
empty text for one. -/
theorem declares_iff (id : String) :
    head.Declares transition ↔
      (∃ item ∈ head.declared id, item.2 = transition) ∨
        (.on "", transition) ∈ head.transitions := by
  have cued : ∀ {cue descriptor}, (cue, transition) ∈ head.transitions →
      cue.descriptor? id = some descriptor → ∃ item ∈ head.declared id, item.2 = transition := by
    intro cue descriptor isTransition described
    refine ⟨(descriptor, transition), ?_, rfl⟩
    exact List.mem_append_left _ (List.mem_append_left _
      (List.mem_filterMap.mpr ⟨_, isTransition, by simp [described]⟩))
  have invoked : ∀ {invoke} {descriptor : Nat → Descriptor}, invoke ∈ head.invokes →
      (∀ position, (descriptor position, transition) ∈ declaredBy id invoke position) →
      ∃ item ∈ head.declared id, item.2 = transition := by
    intro invoke descriptor isInvoke declares
    obtain ⟨position, placed⟩ := List.mem_iff_getElem?.mp isInvoke
    refine ⟨(descriptor position, transition), List.mem_append_right _ ?_, rfl⟩
    exact List.mem_flatMap.mpr
      ⟨(invoke, position), List.mk_mem_zipIdx_iff_getElem?.mpr placed, declares position⟩
  constructor
  · intro declares
    cases declares with
    | @on text isTransition =>
        cases parsed : Descriptor.parse? text with
        | none => exact .inr (Descriptor.parse?_eq_none_iff.mp parsed ▸ isTransition)
        | some descriptor => exact .inl (cued isTransition parsed)
    | always isTransition => exact .inl (cued isTransition rfl)
    | done isTransition => exact .inl (cued isTransition rfl)
    | after isDelayed =>
        exact .inl ⟨_, List.mem_append_left _
          (List.mem_append_right _ (List.mem_map_of_mem isDelayed)), rfl⟩
    | actorDone isInvoke isDone =>
        exact .inl (invoked isInvoke fun position =>
          List.mem_append_left _ (List.mem_map.mpr ⟨_, isDone, rfl⟩))
    | actorError isInvoke failed =>
        exact .inl (invoked isInvoke fun position =>
          List.mem_append_right _ (List.mem_map.mpr ⟨_, failed, rfl⟩))
  · rintro (⟨item, member, rfl⟩ | nameless)
    · rcases List.mem_append.mp member with own | onActor
      · rcases List.mem_append.mp own with onCue | delayed
        · obtain ⟨⟨cue, transition⟩, isTransition, made⟩ := List.mem_filterMap.mp onCue
          obtain ⟨_, _, rfl⟩ := Option.map_eq_some_iff.mp made
          cases cue with
          | on text => exact .on isTransition
          | always => exact .always isTransition
          | done => exact .done isTransition
        · obtain ⟨_, isDelayed, rfl⟩ := List.mem_map.mp delayed
          exact .after isDelayed
      · obtain ⟨⟨invoke, position⟩, placed, declares⟩ := List.mem_flatMap.mp onActor
        have isInvoke : invoke ∈ head.invokes := List.fst_mem_of_mem_zipIdx placed
        rcases List.mem_append.mp declares with isDone | failed
        · obtain ⟨spec, among, rfl⟩ := List.mem_map.mp isDone
          exact .actorDone isInvoke among
        · obtain ⟨spec, among, rfl⟩ := List.mem_map.mp failed
          exact .actorError isInvoke among
    · exact .on nameless

end StateHead

section Kinds

variable {draft : Draft L} {state : StateId} {head : StateHead L} {error : DefinitionError}

namespace Draft

theorem surplusInitial_plain (id : String) (initial : Option String) :
    ∀ error ∈ surplusInitial id initial, error.isDangling = false := by
  cases initial <;> simp [surplusInitial, DefinitionError.isDangling]

theorem surplusChildren_plain (draft : Draft L) (state : StateId) (kind : String) :
    ∀ error ∈ draft.surplusChildren state kind, error.isDangling = false := by
  unfold surplusChildren
  split <;> simp [DefinitionError.isDangling]

theorem mem_defaultErrors_iff
    {target : Option String}
    (dangling : error.isDangling = true) :
    error ∈ draft.defaultErrors state target ↔
      ∃ parent reference, draft.chart.parent? state = some parent ∧ target = some reference ∧
        target? draft.chart state reference = none ∧
        error = .unknownTarget (draft.chart.id state) reference := by
  unfold defaultErrors
  cases above : draft.chart.parent? state with
  | none => simp
  | some parent =>
      cases target with
      | none => simp
      | some reference =>
          cases found : target? draft.chart state reference with
          | none => simp [found]
          | some other =>
              refine iff_of_false ?_ ?_
              · simp only [found]
                split
                · exact List.not_mem_nil
                · intro refused
                  rw [List.mem_singleton.mp refused] at dangling
                  cases dangling
              · rintro ⟨_, _, _, ⟨⟩, unknown, _⟩
                rw [found] at unknown
                cases unknown

/-- Of the faults met when a kind is decided only that of a history state whose default names no
state tells of a dangling reference. -/
theorem mem_kindErrors_iff
    (dangling : error.isDangling = true) :
    error ∈ draft.kindErrors state head ↔
      (∃ memory, head.kind = .history memory) ∧
        error ∈ draft.defaultErrors state head.historyTarget := by
  have plain : ∀ {errors : List DefinitionError},
      (∀ fault ∈ errors, fault.isDangling = false) → error ∉ errors := by
    intro errors none member
    rw [none error member] at dangling
    cases dangling
  unfold kindErrors
  cases kind : head.kind with
  | history memory => simp [plain (surplusChildren_plain draft state "history")]
  | final => simp [plain (surplusChildren_plain draft state "final")]
  | parallel =>
      have empty : ∀ fault ∈ (if (draft.chart.children state).isEmpty then
          [DefinitionError.emptyParallel (draft.chart.id state)] else []),
          fault.isDangling = false := by
        split <;> simp [DefinitionError.isDangling]
      exact iff_of_false
        (plain (List.forall_mem_append.mpr ⟨empty, surplusInitial_plain _ _⟩)) (by simp)
  | regular =>
      refine iff_of_false (plain ?_) (by simp)
      dsimp only
      split
      · exact surplusInitial_plain _ _
      · split <;> simp [DefinitionError.isDangling]

end Draft

theorem Chart.layoutErrors_plain (chart : Chart) :
    ∀ error ∈ chart.layoutErrors, error.isDangling = false := by
  have keys : ∀ parent node, ∀ error ∈ chart.keyErrors parent node, error.isDangling = false := by
    intro parent node
    refine List.forall_mem_append.mpr ⟨?_, ?_⟩ <;> split <;> simp [DefinitionError.isDangling]
  intro error member
  obtain ⟨node, _, fault⟩ := List.mem_flatMap.mp member
  rcases List.mem_append.mp fault with ofKey | ofId
  · split at ofKey
    · cases ofKey
    · exact keys _ node error ofKey
  · split at ofId
    · rw [List.mem_singleton.mp ofId]
      rfl
    · cases ofId

end Kinds

section Clauses

variable {chart : Chart} {error : DefinitionError}

theorem Chart.allClauses_length
    (chart : Chart) (taken : List String) (first : StateId) (heads : List (StateHead L)) :
    (chart.allClauses taken first heads).length = heads.length := by
  induction heads generalizing taken first with
  | nil => rfl
  | cons head heads ih => simp only [allClauses, List.length_cons, ih]

theorem StateHead.mem_clauseErrors_iff
    {head : StateHead L} {id : String} {taken : List String} {state : StateId}
    (dangling : error.isDangling = true) :
    error ∈ (head.clauses id taken).flatMap (chart.clauseErrors state) ↔
      ∃ item ∈ head.declared id, chart.Dangles state item.2 error := by
  rw [List.mem_flatMap]
  constructor
  · rintro ⟨clause, isClause, fault⟩
    cases clause with
    | transition descriptor transition =>
        refine ⟨(descriptor, transition), ?_, (Chart.mem_transitionErrors_iff dangling).mp fault⟩
        rw [← head.clauses_declared id taken]
        exact List.mem_filterMap.mpr ⟨_, isClause, rfl⟩
    | fault other =>
        have plain : other.isDangling = false := head.clauses_plain id taken _ isClause
        rw [← List.mem_singleton.mp fault, dangling] at plain
        cases plain
  · rintro ⟨item, declared, dangles⟩
    rw [← head.clauses_declared id taken] at declared
    obtain ⟨clause, isClause, made⟩ := List.mem_filterMap.mp declared
    cases clause with
    | transition descriptor transition =>
        obtain rfl : (descriptor, transition) = item := by simpa [Clause.declared?] using made
        exact ⟨_, isClause, (Chart.mem_transitionErrors_iff dangling).mpr dangles⟩
    | fault other => cases made

end Clauses

namespace MachineSpec

variable {spec : MachineSpec L} {error : DefinitionError}

/-- A dangling reference that building looks at: in a transition declared with a descriptor, or in
the default of a history state. -/
inductive Finds (spec : MachineSpec L) : DefinitionError → Prop where
  | inTransition {state : StateId} {head : StateHead L}
      {item : Descriptor × TransitionSpec L} {error : DefinitionError} :
      spec.root.heads[state]? = some head →
      item ∈ head.declared (spec.draft.chartWithKinds.id state) →
      spec.draft.chartWithKinds.Dangles state item.2 error → Finds spec error
  | asDefault {state parent : StateId} {head : StateHead L} {memory : HistoryKind}
      {reference : String} :
      spec.root.heads[state]? = some head → head.kind = .history memory →
      head.historyTarget = some reference → spec.draft.chart.parent? state = some parent →
      Draft.target? spec.draft.chart state reference = none →
      Finds spec (.unknownTarget (spec.draft.chart.id state) reference)

/-- Building fails, and tells of this fault. -/
def Reports (spec : MachineSpec L) (error : DefinitionError) : Prop :=
  ∃ errors, spec.build = .error errors ∧ error ∈ errors

/-- Building tells of all faults together. -/
theorem reports_iff : spec.Reports error ↔ error ∈ spec.errors := by
  refine ⟨?_, build_fails⟩
  rintro ⟨errors, failed, member⟩
  unfold build at failed
  split at failed
  · cases failed
  · cases failed
    exact member

theorem mem_allKindErrors_iff :
    error ∈ spec.draft.allKindErrors ↔
      ∃ state head, spec.root.heads[state]? = some head ∧
        error ∈ spec.draft.kindErrors state head := by
  unfold Draft.allKindErrors
  rw [List.mem_flatMap]
  constructor
  · rintro ⟨⟨node, head⟩, paired, fault⟩
    obtain ⟨state, listed⟩ := List.mem_iff_getElem?.mp paired
    obtain ⟨found, described⟩ := List.getElem?_zip_eq_some.mp listed
    obtain ⟨_, index⟩ := spec.root.layOut_node?.mp found
    exact ⟨state, head, described, index ▸ fault⟩
  · rintro ⟨state, head, described, fault⟩
    obtain ⟨node, found⟩ := Draft.node?_of_in_range (Draft.in_range_of_head? described)
    obtain ⟨_, rfl⟩ := spec.root.layOut_node?.mp found
    exact ⟨(node, head), List.mem_of_getElem? (List.getElem?_zip_eq_some.mpr ⟨found, described⟩),
      fault⟩

theorem mem_declaredErrors_iff
    (dangling : error.isDangling = true) :
    error ∈ ((spec.draft.chartWithKinds.allClauses [] Chart.root spec.draft.heads).zipIdx.flatMap
        fun (declared, state) => declared.flatMap (spec.draft.chartWithKinds.clauseErrors state)) ↔
      ∃ state head, spec.root.heads[state]? = some head ∧
        ∃ item ∈ head.declared (spec.draft.chartWithKinds.id state),
          spec.draft.chartWithKinds.Dangles state item.2 error := by
  rw [List.mem_flatMap]
  constructor
  · rintro ⟨⟨declared, state⟩, placed, fault⟩
    have listed := List.mk_mem_zipIdx_iff_getElem?.mp placed
    have bounded : state < spec.root.heads.length := by
      rw [← spec.draft.chartWithKinds.allClauses_length [] Chart.root]
      exact (List.getElem?_eq_some_iff.mp listed).1
    have described : spec.root.heads[state]? = some spec.root.heads[state] :=
      List.getElem?_eq_getElem bounded
    obtain ⟨taken, clauses⟩ := clauses_listed described
    obtain rfl := Option.some.inj (listed.symm.trans clauses)
    exact ⟨state, _, described, (StateHead.mem_clauseErrors_iff dangling).mp fault⟩
  · rintro ⟨state, head, described, found⟩
    obtain ⟨taken, clauses⟩ := clauses_listed described
    exact ⟨(_, state), List.mk_mem_zipIdx_iff_getElem?.mpr clauses,
      (StateHead.mem_clauseErrors_iff dangling).mpr found⟩

/-- Building tells of just those dangling references that it looks at, whatever else is wrong. -/
theorem reports_dangling_iff
    (dangling : error.isDangling = true) :
    spec.Reports error ↔ spec.Finds error := by
  -- Of the four parts of the list of faults only the last two can tell of a dangling reference.
  have noContext : error ∉ (if spec.context.isNone then [.missingContext] else []) := by
    intro member
    split at member
    · rw [List.mem_singleton.mp member] at dangling
      cases dangling
    · cases member
  have noName : error ∉ spec.draft.chart.layoutErrors := by
    intro member
    rw [Chart.layoutErrors_plain _ error member] at dangling
    cases dangling
  rw [reports_iff, errors]
  simp only [List.mem_append, noContext, noName, false_or, mem_allKindErrors_iff,
    mem_declaredErrors_iff dangling, Draft.mem_kindErrors_iff dangling,
    Draft.mem_defaultErrors_iff dangling]
  constructor
  · rintro (⟨_, _, described, ⟨_, kind⟩, _, _, above, names, unknown, rfl⟩ |
      ⟨_, _, described, _, declared, dangles⟩)
    · exact .asDefault described kind names above unknown
    · exact .inTransition described declared dangles
  · rintro (⟨described, declared, dangles⟩ | ⟨described, kind, names, above, unknown⟩)
    · exact .inr ⟨_, _, described, _, declared, dangles⟩
    · exact .inl ⟨_, _, described, ⟨_, kind⟩, _, _, above, names, unknown, rfl⟩

theorem reports_nameless
    {state : StateId} {head : StateHead L} {transition : TransitionSpec L}
    (described : spec.root.heads[state]? = some head)
    (nameless : (.on "", transition) ∈ head.transitions) :
    spec.Reports (.invalidDescriptor (spec.draft.chartWithKinds.id state) "") := by
  refine reports_iff.mpr (errors_of_clause described fun taken => ?_)
  refine List.mem_append_left _ (List.mem_append_left _ (List.mem_append_right _ ?_))
  exact List.mem_map.mpr ⟨_, nameless, rfl⟩

/-- When all dangling references are reported.  One in a transition that is declared for a state,
in whatever way and whatever else is wrong, is reported unless the transition is declared on the
empty text; then that is.  So none goes unreported exactly if all those in transitions on the empty
text are also found elsewhere. -/
theorem dangling_references_reported_iff
    (spec : MachineSpec L) :
    (∀ (state : StateId) (head : StateHead L) (transition : TransitionSpec L)
        (error : DefinitionError),
      spec.root.heads[state]? = some head → head.Declares transition →
      spec.draft.chartWithKinds.Dangles state transition error →
      spec.Reports error ∨ (.on "", transition) ∈ head.transitions ∧
        spec.Reports (.invalidDescriptor (spec.draft.chartWithKinds.id state) "")) ∧
    ((∀ (state : StateId) (head : StateHead L) (transition : TransitionSpec L)
        (error : DefinitionError),
      spec.root.heads[state]? = some head → head.Declares transition →
      spec.draft.chartWithKinds.Dangles state transition error → spec.Reports error) ↔
    (∀ (state : StateId) (head : StateHead L) (transition : TransitionSpec L)
        (error : DefinitionError),
      spec.root.heads[state]? = some head → (.on "", transition) ∈ head.transitions →
      spec.draft.chartWithKinds.Dangles state transition error → spec.Finds error)) := by
  have told : ∀ {state head transition error}, spec.root.heads[state]? = some head →
      head.Declares transition → spec.draft.chartWithKinds.Dangles state transition error →
      spec.Reports error ∨ (.on "", transition) ∈ head.transitions := by
    intro state head transition error described declares dangles
    rcases (StateHead.declares_iff _).mp declares with ⟨item, declared, rfl⟩ | nameless
    · exact .inl ((reports_dangling_iff dangles.isDangling).mpr
        (.inTransition described declared dangles))
    · exact .inr nameless
  refine ⟨fun state head transition error described declares dangles => ?_, ?_⟩
  · exact (told described declares dangles).imp_right fun nameless =>
      ⟨nameless, reports_nameless described nameless⟩
  · constructor
    · intro all state head transition error described nameless dangles
      exact (reports_dangling_iff dangles.isDangling).mp
        (all state head transition error described (.on nameless) dangles)
    · intro found state head transition error described declares dangles
      rcases told described declares dangles with reported | nameless
      · exact reported
      · exact (reports_dangling_iff dangles.isDangling).mpr
          (found state head transition error described nameless dangles)

/-- To be set ajar unless locked. -/
def setAjar : TransitionSpec Unit :=
  { targets := ["ajar"], guard := some (.not none (.inState none "locked")) }

/-- A hatch that is described twice; a text, which is left open, is to set it ajar unless it is
locked, but there is no such state as ajar or as locked. -/
def hatch (text : String) : MachineSpec Unit :=
  { root := .mk { key := "ship" }
      [.mk { key := "hatch", transitions := [(.on text, setAjar)] } [],
       .mk { key := "hatch" } []]
    context := none }

/-- Both dangling references are reported when the hatch is to be pushed, and so is the rest. -/
theorem dangling_references_reported_iff_hatch :
    (hatch "PUSH").Reports (.unknownTarget "ship.hatch" "ajar") ∧
      (hatch "PUSH").Reports (.unknownGuardState "ship.hatch" "locked") ∧
      (hatch "PUSH").Reports (.duplicateKey "ship" "hatch") ∧
      (hatch "PUSH").Reports .missingContext := by
  have told : ∀ error, (hatch "PUSH").draft.chartWithKinds.Dangles 1 setAjar error →
      (hatch "PUSH").Reports error := by
    intro error dangles
    have reported := (dangling_references_reported_iff (hatch "PUSH")).1 1 _ _ error rfl
      (.on List.mem_cons_self) dangles
    exact reported.resolve_right fun nameless => by simpa using nameless.1
  exact ⟨told _ (.target List.mem_cons_self (by decide +kernel)),
    told _ (.guard rfl List.mem_cons_self (by decide +kernel)),
    reports_iff.mpr (by decide +kernel), reports_iff.mpr (by decide +kernel)⟩

/-- When the hatch is described with no text at all, neither of them is. -/
theorem dangling_reference_hidden_hatch :
    ∃ head transition, (hatch "").root.heads[1]? = some head ∧ head.Declares transition ∧
      (hatch "").draft.chartWithKinds.Dangles 1 transition (.unknownTarget "ship.hatch" "ajar") ∧
      ¬ (hatch "").Reports (.unknownTarget "ship.hatch" "ajar") := by
  refine ⟨_, _, rfl, .on List.mem_cons_self, .target List.mem_cons_self (by decide +kernel), ?_⟩
  rw [reports_iff]
  decide +kernel

end MachineSpec

end Statechart
