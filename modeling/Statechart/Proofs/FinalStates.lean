import Statechart.Proofs.Delays
import Statechart.Proofs.LeafSearches

/-!
# Final states

Whoever describes a final state that does something on a cue or after a delay gets no machine.
What the invocations of the state declare is not looked at, though: it becomes transitions, as
in any other state.  So a final state can be the source of a transition, but only on an event for
which one of its own invocations declares it.
-/

namespace Statechart

variable {L : Type}

/-- No invocation of the described state declares what to do when its actor ends. -/
def StateHead.IgnoresActors (head : StateHead L) : Prop :=
  ∀ invoke ∈ head.invokes, invoke.onDone = [] ∧ invoke.onError = []

instance (head : StateHead L) : Decidable head.IgnoresActors :=
  inferInstanceAs (Decidable (∀ invoke ∈ head.invokes, invoke.onDone = [] ∧ invoke.onError = []))

theorem StateHead.invoked_eq_nil_iff
    (head : StateHead L) (id : String) :
    head.invoked id = [] ↔ head.IgnoresActors := by
  have declares : ∀ (invoke : InvokeSpec L) (position : Nat),
      declaredBy id invoke position = [] ↔ invoke.onDone = [] ∧ invoke.onError = [] := by
    intro invoke position
    simp [declaredBy]
  simp only [invoked, List.flatMap_eq_nil_iff, declares]
  constructor
  · intro none invoke isInvoke
    obtain ⟨position, placed⟩ := List.mem_iff_getElem?.mp isInvoke
    exact none (invoke, position) (List.mk_mem_zipIdx_iff_getElem?.mpr placed)
  · rintro none ⟨invoke, position⟩ placed
    exact none invoke (List.mem_of_getElem? (List.mk_mem_zipIdx_iff_getElem?.mp placed))

/-- What is declared on actors is for just one type of event. -/
theorem StateHead.exact_of_invoked
    {head : StateHead L} {id : String} {item : Descriptor × TransitionSpec L}
    (member : item ∈ head.invoked id) :
    ∃ type, item.1 = .exact type := by
  obtain ⟨⟨invoke, position⟩, _, declares⟩ := List.mem_flatMap.mp member
  rcases List.mem_append.mp declares with done | failed
  · obtain ⟨_, _, rfl⟩ := List.mem_map.mp done
    exact ⟨_, rfl⟩
  · obtain ⟨_, _, rfl⟩ := List.mem_map.mp failed
    exact ⟨_, rfl⟩

namespace Machine

variable {machine : Machine L} {trigger : Trigger}

theorem enabledFrom_searched
    {sight : Guard.Sight} {leaves : List StateId} {found enabled : List (Choice L)}
    (listed : machine.enabledFrom trigger sight leaves found = .ok enabled) :
    ∀ choice ∈ enabled, choice ∈ found ∨
      ∃ leaf ∈ leaves, machine.Searched trigger sight leaf (.ok (some choice)) := by
  induction leaves generalizing found with
  | nil =>
      obtain rfl : found = enabled := by simpa [enabledFrom] using listed
      exact fun _ => .inl
  | cons leaf leaves ih =>
      unfold enabledFrom at listed
      split at listed
      · rename_i new searched
        intro choice member
        rcases ih listed choice member with known | ⟨other, isLeaf, finds⟩
        · rcases mem_addChoice known with old | rfl
          · exact .inl old
          · exact .inr ⟨leaf, List.mem_cons_self, firstChoice_eq_iff.mp searched⟩
        · exact .inr ⟨other, List.mem_cons_of_mem leaf isLeaf, finds⟩
      · cases listed

theorem mem_choices_of_select
    {active : Configuration} {history : HistoryRecords} {context : Json} {event : Event}
    {selection : Selection L}
    (selected : machine.select trigger active history context event = .ok selection) :
    ∀ choice ∈ selection.chosen, choice ∈ machine.choices trigger event choice.ref.source := by
  unfold select at selected
  split at selected
  · rename_i enabled listed
    cases selected
    intro choice chosen
    rcases enabledFrom_searched listed choice (withoutConflicts_subset choice chosen) with
      known | ⟨_, _, finds⟩
    · cases known
    · exact mem_of_firstOpen finds.chosen_at
  · cases selected

theorem declared_of_mem_choices
    {event : Event} {state : StateId} {declared : List (Descriptor × TransitionSpec L)}
    {choice : Choice L}
    (groups : machine.chart.Groups state declared (machine.conduct state).transitions)
    (member : choice ∈ machine.choices trigger event state) :
    ∃ item ∈ declared, trigger.admits event item.1 = true ∧
      choice.candidate = machine.chart.candidate state item.2 := by
  have made : choice.candidate ∈ (trigger.inTurn event declared).map fun turn =>
      machine.chart.candidate state turn.1.2 :=
    choices_candidates groups ▸ List.mem_map_of_mem member
  obtain ⟨turn, inTurn, same⟩ := List.mem_map.mp made
  obtain ⟨rank, _, placed⟩ := List.mem_flatMap.mp inTurn
  obtain ⟨isDeclared, concerned⟩ := List.mem_filter.mp (List.fst_mem_of_mem_zipIdx placed)
  exact ⟨turn.1, isDeclared, (Bool.and_eq_true_iff.mp concerned).1, same.symm⟩

end Machine

theorem Trigger.admits_exact_iff
    {trigger : Trigger} {event : Event} {type : String} :
    trigger.admits event (.exact type) = true ↔ trigger = .event ∧ type = event.type := by
  cases trigger <;> simp [admits, Descriptor.hears, Descriptor.isAlways]

namespace MachineSpec

variable {spec : MachineSpec L} {machine : Machine L}
variable {state : StateId} {head : StateHead L}

/-- No described final state declares what to do when an actor that it invokes ends. -/
def FinalsIgnoreActors (spec : MachineSpec L) : Prop :=
  ∀ head ∈ spec.root.heads, head.kind = .final → head.IgnoresActors

instance (spec : MachineSpec L) : Decidable spec.FinalsIgnoreActors :=
  inferInstanceAs (Decidable (∀ head ∈ spec.root.heads, head.kind = .final → head.IgnoresActors))

theorem build_fails
    {error : DefinitionError}
    (fault : error ∈ spec.errors) :
    ∃ errors, spec.build = .error errors ∧ error ∈ errors := by
  unfold build
  split
  · rename_i faultless _
    rw [faultless] at fault
    cases fault
  · exact ⟨_, rfl, fault⟩

section Finals

variable (described : spec.root.heads[state]? = some head)

include described

theorem errors_of_clause
    {error : DefinitionError}
    (declared : ∀ taken,
      Clause.fault error ∈ head.clauses (spec.draft.chartWithKinds.id state) taken) :
    error ∈ spec.errors := by
  obtain ⟨taken, listed⟩ := clauses_listed described
  refine List.mem_append_right _ (List.mem_flatMap.mpr ⟨(_, state),
    List.mk_mem_zipIdx_iff_getElem?.mpr listed, List.mem_flatMap.mpr ⟨_, declared taken, ?_⟩⟩)
  exact List.mem_singleton_self _

theorem errors_of_final
    (final : head.kind = .final)
    (acts : head.transitions ≠ [] ∨ head.after ≠ []) :
    .finalWithTransitions (spec.draft.chartWithKinds.id state) ∈ spec.errors := by
  have refused : (head.kind = .final && !(head.transitions.isEmpty && head.after.isEmpty)) =
      true := by
    rcases acts with cues | delays <;> simp [*]
  refine errors_of_clause described fun taken => ?_
  rw [StateHead.clauses, if_pos refused]
  simp

variable (built : spec.build = .ok machine)

include built

theorem build_isFinal_iff :
    machine.chart.isFinal state = true ↔ head.kind = .final := by
  rw [build_chart built, Chart.isFinal, decide_eq_true_eq, Draft.chartWithKinds_kind described]
  obtain ⟨key, id, kind⟩ := head
  cases kind with
  | final => simp [Draft.kindOf, Draft.plainKind]
  | parallel => simp [Draft.kindOf, Draft.plainKind]
  | history memory => simp [Draft.kindOf]
  | regular =>
      simp only [Draft.kindOf, Draft.plainKind, reduceCtorEq, iff_false]
      split
      · simp
      · split <;> simp

theorem build_final_declared
    (final : head.kind = .final) (id : String) :
    head.declared id = head.invoked id := by
  have faultless := (build_ok built).1
  have silent : head.transitions = [] ∧ head.after = [] := by
    by_contra acts
    have fault := errors_of_final described final (not_and_or.mp acts)
    rw [faultless] at fault
    cases fault
  simp [StateHead.declared_eq, StateHead.cued, StateHead.delayed, silent]

/-- A final state of a built machine has no transitions exactly if it ignores its actors. -/
theorem build_final_transitions_iff
    (final : head.kind = .final) :
    (machine.conduct state).transitions = [] ↔ head.IgnoresActors := by
  have declared := build_final_declared described built final (machine.chart.id state)
  rw [← head.invoked_eq_nil_iff (machine.chart.id state), ← declared]
  constructor
  · intro none
    refine List.eq_nil_iff_forall_not_mem.mpr fun item isDeclared => ?_
    have grouped := (build_declared built described).2.complete item isDeclared
    rw [none] at grouped
    cases grouped
  · intro none
    rw [(build_transitions built described).2, none]
    rfl

end Finals

theorem build_final_described
    (built : spec.build = .ok machine)
    (isFinal : machine.chart.isFinal state = true) :
    ∃ head, spec.root.heads[state]? = some head ∧ head.kind = .final := by
  cases described : spec.root.heads[state]? with
  | some head => exact ⟨head, rfl, (build_isFinal_iff described built).mp isFinal⟩
  | none =>
      rw [build_chart built, Chart.isFinal, Draft.chartWithKinds_kind_beyond described] at isFinal
      cases isFinal

/-- When final states act.  A final state that is described with something to do on a cue or after
a delay makes building fail, and is named among the faults.  In a built machine the transitions
of a final state are made of what its invocations declare for the end of their actors, and nothing
else; so all final states are without transitions exactly if none of them declares anything there.
Whatever is active, recorded, known and heard, a transition that is selected has a final state as
its source only on an event of just the type for which an invocation of this state declares it. -/
theorem final_states_passive_iff
    (spec : MachineSpec L) :
    (∀ (state : StateId) (head : StateHead L), spec.root.heads[state]? = some head →
      head.kind = .final → head.transitions ≠ [] ∨ head.after ≠ [] →
      ∃ errors, spec.build = .error errors ∧
        .finalWithTransitions (spec.draft.chartWithKinds.id state) ∈ errors) ∧
    ∀ machine, spec.build = .ok machine →
      (∀ state, machine.chart.isFinal state = true → ∃ head, spec.root.heads[state]? = some head ∧
        machine.chart.Groups state (head.invoked (machine.chart.id state))
          (machine.conduct state).transitions ∧
        ((machine.conduct state).transitions = [] ↔ head.IgnoresActors)) ∧
      ((∀ state, machine.chart.isFinal state = true → (machine.conduct state).transitions = []) ↔
        spec.FinalsIgnoreActors) ∧
      ∀ trigger active history context event selection,
        machine.select trigger active history context event = .ok selection →
        ∀ choice ∈ selection.chosen, machine.chart.isFinal choice.ref.source = true →
          ¬ spec.FinalsIgnoreActors ∧ trigger = .event ∧
            ∃ head item, spec.root.heads[choice.ref.source]? = some head ∧
              item ∈ head.invoked (machine.chart.id choice.ref.source) ∧
              item.1 = .exact event.type ∧
              choice.candidate = machine.chart.candidate choice.ref.source item.2 := by
  refine ⟨fun state head described final acts => ?_, fun machine built => ⟨?_, ?_, ?_⟩⟩
  · exact build_fails (errors_of_final described final acts)
  · intro state isFinal
    obtain ⟨head, described, final⟩ := build_final_described built isFinal
    have groups := (build_declared built described).2
    rw [build_final_declared described built final] at groups
    exact ⟨head, described, groups, build_final_transitions_iff described built final⟩
  · constructor
    · intro none head isHead final
      obtain ⟨state, described⟩ := List.mem_iff_getElem?.mp isHead
      exact (build_final_transitions_iff described built final).mp
        (none state ((build_isFinal_iff described built).mpr final))
    · intro ignore state isFinal
      obtain ⟨head, described, final⟩ := build_final_described built isFinal
      exact (build_final_transitions_iff described built final).mpr
        (ignore head (List.mem_of_getElem? described) final)
  · intro trigger active history context event selection selected choice chosen isFinal
    obtain ⟨head, described, final⟩ := build_final_described built isFinal
    have groups := (build_declared built described).2
    rw [build_final_declared described built final] at groups
    obtain ⟨item, invoked, concerned, made⟩ :=
      Machine.declared_of_mem_choices groups (Machine.mem_choices_of_select selected choice chosen)
    obtain ⟨type, exact_⟩ := StateHead.exact_of_invoked invoked
    rw [exact_, Trigger.admits_exact_iff] at concerned
    obtain ⟨isEvent, rfl⟩ := concerned
    refine ⟨fun ignore => ?_, isEvent, head, item, described, invoked, exact_, made⟩
    have silent := ignore head (List.mem_of_getElem? described) final
    rw [(head.invoked_eq_nil_iff _).mpr silent] at invoked
    cases invoked

/-- A parcel that is to be signed for once it is delivered; what is then to be done on cues, and
when it has been signed for, is left open. -/
def parcel (onCues : List (Cue × TransitionSpec Unit)) (onSigned : List (TransitionSpec Unit)) :
    MachineSpec Unit :=
  { root := .mk { key := "post" }
      [.mk { key := "parcel" }
        [.mk { key := "sent" } [],
         .mk { key := "delivered", kind := .final, transitions := onCues,
               invokes := [{ logic := (), id := some "signature", onDone := onSigned }] } []]]
    context := some fun _ => .null }

/-- With nothing to be done a delivered parcel has no transitions; to return it is refused. -/
theorem final_states_passive_iff_parcel :
    let machine := (parcel [] []).machine fun _ => .null
    (∀ state, machine.chart.isFinal state = true → (machine.conduct state).transitions = []) ∧
      ∃ errors, (parcel [(.on "RETURN", .toTarget "sent")] []).build = .error errors ∧
        .finalWithTransitions "post.parcel.delivered" ∈ errors := by
  intro machine
  have built : (parcel [] []).build = .ok machine := build_of_faultless (by decide +kernel) rfl
  constructor
  · exact ((final_states_passive_iff (parcel [] [])).2 machine built).2.1.mpr (by decide)
  · have named : (parcel [(.on "RETURN", .toTarget "sent")] []).draft.chartWithKinds.id 3 =
        "post.parcel.delivered" := by decide +kernel
    rw [← named]
    exact (final_states_passive_iff _).1 3 _ rfl rfl (.inl (by simp))

/-- When the parcel is to be sent again once it is signed for, it is built all the same, and though
it has been delivered, which is final, it is sent again. -/
theorem final_state_active_parcel :
    let machine := (parcel [] [.toTarget "sent"]).machine fun _ => .null
    (parcel [] [.toTarget "sent"]).build = .ok machine ∧ machine.chart.isFinal 3 = true ∧
      (machine.conduct 3).transitions.length = 1 ∧ machine.chart.check [0, 1, 3] = none ∧
      (machine.select .event [0, 1, 3] HistoryRecords.empty .null
        (Event.doneActor "signature" .null)).map (fun selection =>
          selection.chosen.map fun choice => (choice.ref.source, choice.candidate.targets)) =
        .ok [(3, [2])] := by
  intro machine
  exact ⟨build_of_faultless (by decide +kernel) rfl, by decide +kernel, by decide +kernel,
    by decide +kernel, by decide +kernel⟩

end MachineSpec

end Statechart
