import Mathlib.Data.List.Nodup
import Statechart.Proofs.Building

/-!
# Declarations

All that is declared for a state stands in one list: what it does on its cues, then after its
delays, then on the results and the failures of its invocations.  Compiling it drops nothing
and puts what has the same descriptor together, in the order in which it was declared.
-/

namespace Statechart

variable {L : Type}

/-- The descriptor of a cue of the state with this id, unless its text is none. -/
def Cue.descriptor? (id : String) : Cue → Option Descriptor
  | .on text => Descriptor.parse? text
  | .always => some .always
  | .done => some (.exact (Event.doneState id .null).type)

namespace StateHead

/-- What one invocation of the state with this id declares. -/
def declaredBy (id : String) (invoke : InvokeSpec L) (position : Nat) :
    List (Descriptor × TransitionSpec L) :=
  let name := invokeId id invoke position
  (invoke.onDone.map fun spec => (.exact (Event.doneActor name .null).type, spec)) ++
    invoke.onError.map fun spec => (.exact (Event.errorActor name "").type, spec)

/-- All that is declared for the state with this id, each with its descriptor: on cues, after
delays, and by invocations, each in the order in which it stands there. -/
def declared (head : StateHead L) (id : String) : List (Descriptor × TransitionSpec L) :=
  (head.transitions.filterMap fun transition =>
      (transition.1.descriptor? id).map fun descriptor => (descriptor, transition.2)) ++
    (head.after.map fun (delay, spec) => (.exact (Event.afterType delay id), spec)) ++
    head.invokes.zipIdx.flatMap fun (invoke, position) => declaredBy id invoke position

end StateHead

/-- The clause that stands for a declaration. -/
def Clause.ofDeclared (item : Descriptor × TransitionSpec L) : Clause L :=
  .transition item.1 item.2

/-- A sound list of clauses has no fault in it. -/
def Clause.Sound (clauses : List (Clause L)) : Prop :=
  ∀ error, Clause.fault error ∉ clauses

section Clauses

variable {clauses more : List (Clause L)}

theorem Clause.sound_append :
    Clause.Sound (clauses ++ more) ↔ Clause.Sound clauses ∧ Clause.Sound more := by
  simp [Clause.Sound, forall_and]

namespace StateHead

theorem clauseOf_eq
    {id : String} {transition : Cue × TransitionSpec L}
    (sound : ∀ error, clauseOf id transition ≠ .fault error) :
    ∃ descriptor, transition.1.descriptor? id = some descriptor ∧
      clauseOf id transition = Clause.ofDeclared (descriptor, transition.2) := by
  obtain ⟨cue, spec⟩ := transition
  cases cue with
  | always => exact ⟨_, rfl, rfl⟩
  | done => exact ⟨_, rfl, rfl⟩
  | on text =>
      cases parsed : Descriptor.parse? text with
      | some descriptor => exact ⟨descriptor, parsed, by simp [clauseOf, parsed, Clause.ofDeclared]⟩
      | none => exact absurd (by simp [clauseOf, parsed]) (sound (.invalidDescriptor id text))

theorem clausesOf_eq
    {id : String} {transitions : List (Cue × TransitionSpec L)}
    (sound : Clause.Sound (transitions.map (clauseOf id))) :
    (∀ transition ∈ transitions, (transition.1.descriptor? id).isSome = true) ∧
      transitions.map (clauseOf id) =
        (transitions.filterMap fun transition =>
          (transition.1.descriptor? id).map fun descriptor => (descriptor, transition.2)).map
            Clause.ofDeclared := by
  induction transitions with
  | nil => simp
  | cons transition transitions ih =>
      have first : ∀ error, clauseOf id transition ≠ .fault error :=
        fun error isFault => sound error (by simp [isFault])
      obtain ⟨descriptor, found, same⟩ := clauseOf_eq first
      obtain ⟨others, rest⟩ := ih fun error isFault => sound error (List.mem_cons_of_mem _ isFault)
      refine ⟨List.forall_mem_cons.mpr ⟨by simp [found], others⟩, ?_⟩
      rw [List.map_cons, same, rest, List.filterMap_cons_some (by rw [found]; rfl), List.map_cons]

theorem invokeClauses_eq
    {id : String} {taken : List String} {invoke : InvokeSpec L} {position : Nat}
    (sound : Clause.Sound (invokeClauses taken (invokeId id invoke position) invoke)) :
    invokeClauses taken (invokeId id invoke position) invoke =
      (declaredBy id invoke position).map Clause.ofDeclared := by
  unfold invokeClauses at sound ⊢
  by_cases known : taken.contains (invokeId id invoke position) = true
  · rw [if_pos known] at sound
    exact absurd (by simp) (sound (.duplicateInvokeId (invokeId id invoke position)))
  · rw [if_neg known, List.nil_append]
    simp only [declaredBy, List.map_append, List.map_map]
    rfl

theorem allInvokeClauses_eq
    {id : String} {taken : List String} {invokes : List (InvokeSpec L × Nat)}
    (sound : Clause.Sound (allInvokeClauses id taken invokes)) :
    allInvokeClauses id taken invokes =
      (invokes.flatMap fun (invoke, position) => declaredBy id invoke position).map
        Clause.ofDeclared := by
  induction invokes generalizing taken with
  | nil => rfl
  | cons first invokes ih =>
      obtain ⟨invoke, position⟩ := first
      obtain ⟨soundFirst, soundRest⟩ := Clause.sound_append.mp sound
      rw [allInvokeClauses, invokeClauses_eq soundFirst, ih soundRest, List.flatMap_cons,
        List.map_append]

theorem clauses_eq
    {head : StateHead L} {id : String} {taken : List String}
    (sound : Clause.Sound (head.clauses id taken)) :
    (∀ transition ∈ head.transitions, (transition.1.descriptor? id).isSome = true) ∧
      head.clauses id taken = (head.declared id).map Clause.ofDeclared := by
  unfold clauses at sound ⊢
  obtain ⟨⟨⟨open_, onCues⟩, _⟩, invoked⟩ := by simpa only [Clause.sound_append] using sound
  obtain ⟨named, cues⟩ := clausesOf_eq onCues
  refine ⟨named, ?_⟩
  split at open_
  · exact absurd (by simp) (open_ (.finalWithTransitions id))
  · rw [cues, allInvokeClauses_eq invoked, if_neg ‹_›, List.nil_append, declared, List.map_append,
      List.map_append, List.map_map]
    rfl

end StateHead

end Clauses

/-- The transitions of a state hold what is declared, one for each descriptor, and in each of
them the candidates stand in the order of their declaration. -/
structure Chart.Groups (chart : Chart) (source : StateId)
    (declared : List (Descriptor × TransitionSpec L)) (transitions : List (Transition L)) :
    Prop where
  distinct : (transitions.map Transition.descriptor).Nodup
  candidates : ∀ transition ∈ transitions, transition.candidates =
    (declared.filter fun item => item.1 = transition.descriptor).map fun item =>
      chart.candidate source item.2
  complete : ∀ item ∈ declared, item.1 ∈ transitions.map Transition.descriptor

section Grouping

variable {chart : Chart} {source : StateId} {descriptor : Descriptor} {candidate : Candidate L}
variable {transitions : List (Transition L)}

theorem Transition.add_of_new
    (new : descriptor ∉ transitions.map Transition.descriptor) :
    Transition.add descriptor candidate transitions =
      transitions ++ [{ descriptor, candidates := [candidate] }] := by
  induction transitions with
  | nil => rfl
  | cons first transitions ih =>
      obtain ⟨different, further⟩ := not_or.mp (mt List.mem_cons.mpr new)
      rw [add, if_neg (Ne.symm different), ih further, List.cons_append]

theorem Transition.add_of_known
    (distinct : (transitions.map Transition.descriptor).Nodup)
    (known : descriptor ∈ transitions.map Transition.descriptor) :
    Transition.add descriptor candidate transitions =
      transitions.map fun transition =>
        if transition.descriptor = descriptor then
          { transition with candidates := transition.candidates ++ [candidate] }
        else transition := by
  induction transitions with
  | nil => cases known
  | cons first transitions ih =>
      obtain ⟨absent, distinct⟩ := List.nodup_cons.mp distinct
      rw [add, List.map_cons]
      by_cases same : first.descriptor = descriptor
      · subst same
        have others : ∀ transition ∈ transitions, transition.descriptor ≠ first.descriptor :=
          fun transition member equal => absent (List.mem_map.mpr ⟨transition, member, equal⟩)
        have unchanged : (transitions.map fun transition =>
            if transition.descriptor = first.descriptor then
              { transition with candidates := transition.candidates ++ [candidate] }
            else transition) = transitions :=
          (List.map_congr_left fun transition member => if_neg (others transition member)).trans
            (List.map_id' transitions)
        rw [if_pos rfl, if_pos rfl, unchanged]
      · have further := (List.mem_cons.mp known).resolve_left (Ne.symm same)
        rw [if_neg same, if_neg same, ih distinct further]

theorem Chart.Groups.add
    {declared : List (Descriptor × TransitionSpec L)}
    (groups : chart.Groups source declared transitions)
    (item : Descriptor × TransitionSpec L) :
    chart.Groups source (declared ++ [item])
      (Transition.add item.1 (chart.candidate source item.2) transitions) := by
  by_cases known : item.1 ∈ transitions.map Transition.descriptor
  · rw [Transition.add_of_known groups.distinct known]
    have descriptors : (transitions.map fun transition =>
        if transition.descriptor = item.1 then
          { transition with
            candidates := transition.candidates ++ [chart.candidate source item.2] }
        else transition).map Transition.descriptor = transitions.map Transition.descriptor := by
      rw [List.map_map]
      refine List.map_congr_left fun transition _ => ?_
      simp only [Function.comp_apply]
      split <;> rfl
    refine ⟨descriptors ▸ groups.distinct, ?_, ?_⟩
    · intro grown member
      obtain ⟨transition, isTransition, rfl⟩ := List.mem_map.mp member
      rw [List.filter_append, List.map_append]
      by_cases same : transition.descriptor = item.1
      · rw [if_pos same, groups.candidates transition isTransition]
        simp [same]
      · rw [if_neg same, groups.candidates transition isTransition]
        simp [Ne.symm same]
    · rw [descriptors]
      intro other member
      rcases List.mem_append.mp member with old | new
      · exact groups.complete other old
      · rw [List.mem_singleton] at new
        rwa [new]
  · rw [Transition.add_of_new known]
    refine ⟨?_, ?_, ?_⟩
    · rw [List.map_append, List.map_singleton, List.nodup_append_comm, List.singleton_append]
      exact List.nodup_cons.mpr ⟨known, groups.distinct⟩
    · intro transition member
      rw [List.filter_append, List.map_append]
      rcases List.mem_append.mp member with old | new
      · have different : item.1 ≠ transition.descriptor := fun same =>
          known (same ▸ List.mem_map_of_mem old)
        rw [groups.candidates transition old]
        simp [different]
      · rw [List.mem_singleton] at new
        subst new
        have nothing : declared.filter (fun other => other.1 = item.1) = [] := by
          rw [List.filter_eq_nil_iff]
          intro other isDeclared same
          exact known (of_decide_eq_true same ▸ groups.complete other isDeclared)
        rw [nothing]
        simp
    · intro other member
      rw [List.map_append, List.mem_append]
      rcases List.mem_append.mp member with old | new
      · exact .inl (groups.complete other old)
      · rw [List.mem_singleton] at new
        simp [new]

theorem Chart.transitions_group
    (declared : List (Descriptor × TransitionSpec L)) :
    chart.Groups source declared
      (chart.transitions source (declared.map Clause.ofDeclared)) := by
  unfold Chart.transitions
  rw [List.foldl_map]
  have grows : ∀ (done rest : List (Descriptor × TransitionSpec L))
      (transitions : List (Transition L)), chart.Groups source done transitions →
      chart.Groups source (done ++ rest) (rest.foldl (fun known item =>
        Transition.add item.1 (chart.candidate source item.2) known) transitions) := by
    intro done rest
    induction rest generalizing done with
    | nil =>
        intro transitions groups
        simpa using groups
    | cons item rest ih =>
        intro transitions groups
        rw [List.append_cons]
        exact ih (done ++ [item]) _ (groups.add item)
  exact grows [] declared [] ⟨.nil, by simp, by simp⟩

end Grouping

namespace MachineSpec

variable {spec : MachineSpec L} {machine : Machine L}

/-- In a built machine each declaration of a state has a descriptor, and the transitions of the
state are compiled from all its declarations. -/
theorem build_transitions
    (built : spec.build = .ok machine)
    {state : StateId} {head : StateHead L}
    (described : spec.root.heads[state]? = some head) :
    (∀ transition ∈ head.transitions,
        (transition.1.descriptor? (machine.chart.id state)).isSome = true) ∧
      (machine.conduct state).transitions = machine.chart.transitions state
        ((head.declared (machine.chart.id state)).map Clause.ofDeclared) := by
  obtain ⟨taken, faultless, conducted⟩ := build_conduct built described
  have sound : Clause.Sound (head.clauses (machine.chart.id state) taken) := by
    intro error isFault
    have fault := faultless _ isFault
    simp [Chart.clauseErrors] at fault
  obtain ⟨named, clauses⟩ := StateHead.clauses_eq sound
  refine ⟨named, ?_⟩
  rw [conducted, ← clauses]
  rfl

/-- In a built machine each declaration of a state has a descriptor, and the transitions of the
state are made of all its declarations. -/
theorem build_declared
    (built : spec.build = .ok machine)
    {state : StateId} {head : StateHead L}
    (described : spec.root.heads[state]? = some head) :
    (∀ transition ∈ head.transitions,
        (transition.1.descriptor? (machine.chart.id state)).isSome = true) ∧
      machine.chart.Groups state (head.declared (machine.chart.id state))
        (machine.conduct state).transitions := by
  obtain ⟨named, transitions⟩ := build_transitions built described
  rw [transitions]
  exact ⟨named, Chart.transitions_group _⟩

end MachineSpec

end Statechart
