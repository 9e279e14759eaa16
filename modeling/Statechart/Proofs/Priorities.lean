import Mathlib.Data.List.Sort
import Statechart.Proofs.Declarations
import Statechart.Proofs.Tokens
import Statechart.Proofs.TryingInTurn

/-!
# Priorities

The transitions of a state that an event concerns are tried class by class: those for just this
event, then those for a stem of it, longer stems before shorter ones, and last those for every
event; within a class they are tried in the order of their declaration.  That they are grouped
by descriptor when a machine is built, and sorted by descriptor when it runs, makes no difference:
no two descriptors of one class hear the same event.
-/

namespace Statechart

variable {L : Type}

namespace Descriptor

/-- The classes of descriptors; stems are told apart by their length. -/
inductive Rank where
  | exact
  | stem (length : Nat)
  | wildcard
  | always
  deriving DecidableEq

def rank : Descriptor → Rank
  | .exact _ => .exact
  | .family stem => .stem stem.length
  | .wildcard => .wildcard
  | .always => .always

/-- Is a class tried before another? -/
def Rank.Before : Rank → Rank → Prop
  | .exact, .stem _ => True
  | .exact, .wildcard => True
  | .stem longer, .stem shorter => shorter < longer
  | .stem _, .wildcard => True
  | _, _ => False

instance : Std.Asymm Rank.Before where
  asymm first second before after := by
    cases first <;> cases second <;> simp only [Rank.Before] at before after
    exact before.asymm after

end Descriptor

/-- The classes that can be concerned, in the order in which they are tried. -/
def Trigger.ranks (trigger : Trigger) (event : Event) : List Descriptor.Rank :=
  match trigger with
  | .event =>
      .exact :: ((List.range (event.type.length + 1)).reverse.map .stem ++ [.wildcard])
  | .eventless => [.always]

/-- The declarations that are concerned, in the order in which they are tried: class by class,
and in each class as they were declared, each with its place in the class. -/
def Trigger.inTurn (trigger : Trigger) (event : Event)
    (declared : List (Descriptor × TransitionSpec L)) :
    List ((Descriptor × TransitionSpec L) × Nat) :=
  (trigger.ranks event).flatMap fun rank =>
    (declared.filter fun item => trigger.admits event item.1 && item.1.rank = rank).zipIdx

section Ranks

open Descriptor

variable {trigger : Trigger} {event : Event} {first second : Descriptor}

theorem extendsStem_prefix
    {stem type : String}
    (extends_ : extendsStem stem.toList type.toList = true) :
    ∃ rest, stem ++ rest = type := by
  rcases extendsStem_iff.mp extends_ with rfl | ⟨rest, rfl⟩
  · exact ⟨"", String.append_empty⟩
  · exact ⟨"." ++ rest, (String.append_assoc).symm⟩

theorem beginning_of_shorter
    {longer shorter rest more : String}
    (same : longer ++ rest = shorter ++ more)
    (long : shorter.length ≤ longer.length) :
    ∃ between, longer = shorter ++ between := by
  have lists : longer.toList ++ rest.toList = shorter.toList ++ more.toList := by
    rw [← String.toList_append, ← String.toList_append, same]
  obtain ⟨between, split⟩ := List.prefix_of_prefix_length_le
    (List.prefix_append shorter.toList more.toList) (lists ▸ List.prefix_append _ _)
    (by rwa [String.length_toList, String.length_toList])
  refine ⟨String.ofList between, ?_⟩
  rw [← String.toList_inj, String.toList_append, String.toList_ofList, split]

theorem stem_unique
    {one two type : String}
    (oneHears : extendsStem one.toList type.toList = true)
    (twoHears : extendsStem two.toList type.toList = true)
    (same : one.length = two.length) :
    one = two := by
  obtain ⟨rest, split⟩ := extendsStem_prefix oneHears
  obtain ⟨more, split'⟩ := extendsStem_prefix twoHears
  obtain ⟨between, rfl⟩ := beginning_of_shorter (split.trans split'.symm) same.ge
  have nothing : between.length = 0 := by
    rw [String.length_append] at same
    omega
  rw [String.length_eq_zero_iff.mp nothing, String.append_empty]

theorem longer_of_heavier
    {heavy light type : String}
    (heavyHears : extendsStem heavy.toList type.toList = true)
    (lightHears : extendsStem light.toList type.toList = true)
    (heavier : light.utf8ByteSize ≤ heavy.utf8ByteSize)
    (different : heavy ≠ light) :
    light.length < heavy.length := by
  obtain ⟨rest, split⟩ := extendsStem_prefix heavyHears
  obtain ⟨more, split'⟩ := extendsStem_prefix lightHears
  by_contra short
  obtain ⟨between, rfl⟩ :=
    beginning_of_shorter (split'.trans split.symm) (Nat.not_lt.mp short)
  have nothing : between.utf8ByteSize = 0 := by
    rw [String.utf8ByteSize_append] at heavier
    omega
  rw [String.utf8ByteSize_eq_zero_iff.mp nothing, String.append_empty] at different
  exact different rfl

theorem rank_unique
    (firstAdmitted : trigger.admits event first = true)
    (secondAdmitted : trigger.admits event second = true)
    (same : first.rank = second.rank) :
    first = second := by
  cases trigger with
  | eventless =>
      cases first <;> cases firstAdmitted
      cases second <;> cases secondAdmitted
      rfl
  | event =>
      cases first with
      | exact one =>
          cases second <;> simp only [rank, reduceCtorEq] at same
          rw [of_decide_eq_true firstAdmitted, of_decide_eq_true secondAdmitted]
      | family one =>
          cases second <;> simp only [rank, reduceCtorEq, Rank.stem.injEq] at same
          rw [stem_unique firstAdmitted secondAdmitted same]
      | wildcard =>
          cases second <;> simp only [rank, reduceCtorEq] at same
          rfl
      | always => cases firstAdmitted

/-- Sorting by descriptor is sorting by class. -/
theorem before_of_precedes
    (firstAdmitted : trigger.admits event first = true)
    (secondAdmitted : trigger.admits event second = true)
    (sorted : first.precedes second = true)
    (different : first ≠ second) :
    first.rank.Before second.rank := by
  cases trigger with
  | eventless =>
      cases first <;> cases firstAdmitted
      cases second <;> cases secondAdmitted
      exact absurd rfl different
  | event =>
      cases first with
      | exact one =>
          cases second with
          | exact two =>
              exact absurd (rank_unique firstAdmitted secondAdmitted rfl) different
          | family two => trivial
          | wildcard => trivial
          | always => cases secondAdmitted
      | family one =>
          cases second with
          | exact two => simp [precedes, tier] at sorted
          | family two =>
              have heavier : two.utf8ByteSize ≤ one.utf8ByteSize := of_decide_eq_true sorted
              exact longer_of_heavier firstAdmitted secondAdmitted heavier
                fun same => different (congrArg Descriptor.family same)
          | wildcard => trivial
          | always => cases secondAdmitted
      | wildcard =>
          cases second with
          | exact two => simp [precedes, tier] at sorted
          | family two => simp [precedes, tier] at sorted
          | wildcard => exact absurd rfl different
          | always => cases secondAdmitted
      | always => cases firstAdmitted

theorem rank_mem
    (admitted : trigger.admits event first = true) :
    first.rank ∈ trigger.ranks event := by
  cases trigger with
  | eventless =>
      cases first <;> cases admitted
      exact List.mem_singleton_self _
  | event =>
      cases first with
      | exact one => exact List.mem_cons_self
      | family one =>
          obtain ⟨rest, split⟩ := extendsStem_prefix admitted
          have fits : one.length < event.type.length + 1 := by
            rw [← split, String.length_append]
            omega
          simpa [Trigger.ranks, rank] using fits
      | wildcard => simp [Trigger.ranks, rank]
      | always => cases admitted

theorem ranks_ordered : (trigger.ranks event).Pairwise Rank.Before := by
  cases trigger with
  | eventless => exact List.pairwise_singleton _ _
  | event =>
      have stems : ((List.range (event.type.length + 1)).reverse.map Rank.stem).Pairwise
          Rank.Before := by
        rw [List.pairwise_map, List.pairwise_reverse]
        exact List.pairwise_lt_range
      refine List.pairwise_cons.mpr ⟨?_, List.pairwise_append.mpr
        ⟨stems, List.pairwise_singleton _ _, ?_⟩⟩
      · intro later member
        rcases List.mem_append.mp member with isStem | isLast
        · obtain ⟨length, _, rfl⟩ := List.mem_map.mp isStem
          trivial
        · rw [List.mem_singleton.mp isLast]
          trivial
      · intro earlier isStem later isLast
        obtain ⟨length, _, rfl⟩ := List.mem_map.mp isStem
        rw [List.mem_singleton.mp isLast]
        trivial

end Ranks

section Sorting

variable {α β : Type}

theorem sortStably_eq_insertionSort
    (precedes : α → α → Bool) (items : List α) :
    sortStably precedes items = items.insertionSort fun left right => precedes left right = true := by
  have inserted : ∀ (item : α) (items : List α), insertBefore precedes item items =
      items.orderedInsert (fun left right => precedes left right = true) item := by
    intro item items
    induction items with
    | nil => rfl
    | cons first rest ih => rw [insertBefore, ih, List.orderedInsert_cons]
  induction items with
  | nil => rfl
  | cons item items ih => rw [List.insertionSort_cons, ← ih, ← inserted]; rfl

theorem forall₂_flatMap
    {γ : Type} {Match : β → γ → Prop} {items : List α} {left : α → List β} {right : α → List γ}
    (each : ∀ item ∈ items, List.Forall₂ Match (left item) (right item)) :
    List.Forall₂ Match (items.flatMap left) (items.flatMap right) := by
  induction items with
  | nil => exact .nil
  | cons item items ih =>
      rw [List.flatMap_cons, List.flatMap_cons]
      obtain ⟨first, rest⟩ := List.forall_mem_cons.mp each
      exact List.rel_append first (ih rest)

/-- Going through some keys comes to the same as going through all classes, if the keys stand in
the order of the classes and the other classes are empty. -/
theorem flatMap_classes
    [DecidableEq α] {Before : α → α → Prop} [Std.Asymm Before]
    {classes keys : List α} {members : α → List β}
    (classesOrdered : classes.Pairwise Before)
    (keysOrdered : keys.Pairwise Before)
    (isClass : ∀ key ∈ keys, key ∈ classes)
    (others : ∀ key ∈ classes, key ∉ keys → members key = []) :
    classes.flatMap members = keys.flatMap members := by
  have same : classes.filter (· ∈ keys) = keys := by
    refine List.Pairwise.eq_of_mem_iff (classesOrdered.filter _) keysOrdered fun key => ?_
    rw [List.mem_filter, decide_eq_true_eq]
    exact and_iff_right_of_imp (isClass key)
  have skipped : ∀ some : List α, (∀ key ∈ some, key ∈ classes) →
      some.flatMap members = (some.filter (· ∈ keys)).flatMap members := by
    intro some
    induction some with
    | nil => intro _; rfl
    | cons key some ih =>
        intro areClasses
        obtain ⟨first, rest⟩ := List.forall_mem_cons.mp areClasses
        rw [List.flatMap_cons, ih rest]
        by_cases known : key ∈ keys
        · rw [List.filter_cons, if_pos (decide_eq_true known), List.flatMap_cons]
        · rw [List.filter_cons, if_neg (by simpa using known), others key first known,
            List.nil_append]
  rw [skipped classes fun _ member => member, same]

end Sorting

section Precedence

open Descriptor

theorem precedes_total (left right : Descriptor) :
    left.precedes right = true ∨ right.precedes left = true := by
  simp only [precedes, Bool.or_eq_true, Bool.and_eq_true, decide_eq_true_eq]
  omega

theorem precedes_trans
    {left middle right : Descriptor}
    (first : left.precedes middle = true)
    (second : middle.precedes right = true) :
    left.precedes right = true := by
  simp only [precedes, Bool.or_eq_true, Bool.and_eq_true, decide_eq_true_eq] at first second ⊢
  omega

end Precedence

namespace Machine

variable {machine : Machine L} {trigger : Trigger} {event : Event} {state : StateId}

/-- The choice is what the machine has made of a declaration of the state: it is found at the
place of the declaration among those with the same descriptor. -/
structure Embodies (machine : Machine L) (state : StateId) (choice : Choice L)
    (turn : (Descriptor × TransitionSpec L) × Nat) : Prop where
  source : choice.ref.source = state
  place : choice.ref.candidate = turn.2
  descriptor : ((machine.conduct state).transitions[choice.ref.transition]?).map
    Transition.descriptor = some turn.1.1
  candidate : choice.candidate = machine.chart.candidate state turn.1.2
  held : machine.candidate? choice.ref = some choice.candidate

/-- The transitions of a state that are concerned, with their numbers, as they are tried. -/
def concerned (machine : Machine L) (trigger : Trigger) (event : Event) (state : StateId) :
    List (Transition L × Nat) :=
  sortStably (fun left right => left.1.descriptor.precedes right.1.descriptor)
    ((machine.conduct state).transitions.zipIdx.filter fun numbered =>
      trigger.admits event numbered.1.descriptor)

theorem mem_concerned
    {numbered : Transition L × Nat} :
    numbered ∈ machine.concerned trigger event state ↔
      (machine.conduct state).transitions[numbered.2]? = some numbered.1 ∧
        trigger.admits event numbered.1.descriptor = true := by
  rw [concerned, (sortStably_perm _ _).mem_iff, List.mem_filter, List.mem_zipIdx_iff_getElem?]

theorem concerned_ordered
    (distinct : ((machine.conduct state).transitions.map Transition.descriptor).Nodup) :
    ((machine.concerned trigger event state).map fun numbered =>
      numbered.1.descriptor.rank).Pairwise Descriptor.Rank.Before := by
  have sorted : (machine.concerned trigger event state).Pairwise fun left right =>
      left.1.descriptor.precedes right.1.descriptor = true := by
    have total : Std.Total fun left right : Transition L × Nat =>
        left.1.descriptor.precedes right.1.descriptor = true :=
      ⟨fun left right => precedes_total left.1.descriptor right.1.descriptor⟩
    have transitive : IsTrans (Transition L × Nat) fun left right =>
        left.1.descriptor.precedes right.1.descriptor = true :=
      ⟨fun _ _ _ => precedes_trans⟩
    rw [concerned, sortStably_eq_insertionSort]
    exact List.pairwise_insertionSort _ _
  have apart : ((machine.concerned trigger event state).map fun numbered =>
      numbered.1.descriptor).Nodup := by
    refine ((sortStably_perm _ _).map _).nodup_iff.mpr (.sublist (List.filter_sublist.map _) ?_)
    rw [← List.zipIdx_map_fst 0 (machine.conduct state).transitions, List.map_map] at distinct
    exact distinct
  rw [List.pairwise_map]
  refine (sorted.and (List.pairwise_map.mp apart)).imp_of_mem fun first second both => ?_
  exact before_of_precedes (mem_concerned.mp first).2 (mem_concerned.mp second).2 both.1 both.2

variable {declared : List (Descriptor × TransitionSpec L)}

theorem candidates_embody
    (groups : machine.chart.Groups state declared (machine.conduct state).transitions)
    {transition : Transition L} {index : Nat}
    (placed : (machine.conduct state).transitions[index]? = some transition) :
    List.Forall₂ (machine.Embodies state)
      (transition.candidates.zipIdx.map fun numbered =>
        { ref := { source := state, transition := index, candidate := numbered.2 }
          candidate := numbered.1 })
      (declared.filter fun item => item.1 = transition.descriptor).zipIdx := by
  have candidates := groups.candidates transition (List.mem_of_getElem? placed)
  rw [candidates, List.zipIdx_map, List.map_map, List.forall₂_map_left_iff, List.forall₂_same]
  rintro ⟨item, position⟩ listed
  rw [List.mk_mem_zipIdx_iff_getElem?] at listed
  have same : item.1 = transition.descriptor :=
    of_decide_eq_true (List.mem_filter.mp (List.mem_of_getElem? listed)).2
  exact
    { source := rfl
      place := rfl
      descriptor := by simp [placed, same]
      candidate := rfl
      held := by simp [candidate?, placed, candidates, listed] }

theorem choices_embody
    (groups : machine.chart.Groups state declared (machine.conduct state).transitions) :
    List.Forall₂ (machine.Embodies state) (machine.choices trigger event state)
      (trigger.inTurn event declared) := by
  let members := fun rank : Descriptor.Rank =>
    (declared.filter fun item => trigger.admits event item.1 && item.1.rank = rank).zipIdx
  have ranked : trigger.inTurn event declared =
      ((machine.concerned trigger event state).map fun numbered =>
        numbered.1.descriptor.rank).flatMap members := by
    refine flatMap_classes ranks_ordered (concerned_ordered groups.distinct) ?_ ?_
    · intro rank isRank
      obtain ⟨numbered, member, rfl⟩ := List.mem_map.mp isRank
      exact rank_mem (mem_concerned.mp member).2
    · -- A class in which something is concerned has a transition in the machine.
      intro rank _ unknown
      refine congrArg List.zipIdx (List.filter_eq_nil_iff.mpr fun item isDeclared some => ?_)
      obtain ⟨admitted, same⟩ := Bool.and_eq_true_iff.mp some
      obtain ⟨transition, isTransition, descriptor⟩ :=
        List.mem_map.mp (groups.complete item isDeclared)
      obtain ⟨index, placed⟩ := List.mem_iff_getElem?.mp isTransition
      refine unknown (List.mem_map.mpr ⟨(transition, index), mem_concerned.mpr ⟨placed, ?_⟩, ?_⟩)
      · rw [descriptor]
        exact admitted
      · rw [descriptor]
        exact of_decide_eq_true same
  rw [ranked, List.flatMap_map]
  refine forall₂_flatMap fun ⟨transition, index⟩ member => ?_
  obtain ⟨placed, admitted⟩ := mem_concerned.mp member
  have own : members transition.descriptor.rank =
      (declared.filter fun item => item.1 = transition.descriptor).zipIdx := by
    refine congrArg List.zipIdx (List.filter_congr fun item _ => ?_)
    rw [Bool.eq_iff_iff, Bool.and_eq_true_iff, decide_eq_true_eq, decide_eq_true_eq]
    constructor
    · rintro ⟨concerned, same⟩
      exact rank_unique concerned admitted same
    · intro same
      rw [same]
      exact ⟨admitted, rfl⟩
  simp only [own]
  exact candidates_embody groups placed

end Machine

namespace MachineSpec

variable {spec : MachineSpec L} {machine : Machine L}

/-- Compiling keeps the priorities.  Take any state of a description from which a machine is
built, and all that is declared for it: on its cues, of which each has a descriptor, then after
its delays, then on results and failures of its invocations.  The candidates that the built state
tries for an event are, one by one, the declarations that the event concerns, class by class and
in each class as they were declared; without an event they are those that wait for none, as they
were declared.  So the first of these whose guard holds is chosen, unless the guard of an earlier
one fails; this then is the error. -/
theorem candidates_tried_in_turn
    (built : spec.build = .ok machine)
    {state : StateId} {head : StateHead L}
    (described : spec.root.heads[state]? = some head)
    (trigger : Trigger) (sight : Guard.Sight) :
    let turns := trigger.inTurn sight.event (head.declared (machine.chart.id state))
    let verdict := fun turn : (Descriptor × TransitionSpec L) × Nat =>
      sight.verdict turn.1.2.guard
    (∀ transition ∈ head.transitions,
        (transition.1.descriptor? (machine.chart.id state)).isSome = true) ∧
      List.Forall₂ (machine.Embodies state) (machine.choices trigger sight.event state) turns ∧
      ∃ outcome,
        Agrees (machine.Embodies state)
          (firstOpen sight (machine.choices trigger sight.event state)) outcome ∧
        Settled verdict turns outcome := by
  intro turns verdict
  obtain ⟨named, groups⟩ := build_declared built described
  have embodied : List.Forall₂ (machine.Embodies state)
      (machine.choices trigger sight.event state) turns := Machine.choices_embody groups
  refine ⟨named, embodied, (firstOpen_settled sight _).matching embodied fun embodies => ?_⟩
  rw [Choice.verdict, embodies.candidate]
  rfl

/-- A desk that is idle or busy; a second call waits. -/
def desk : MachineSpec L :=
  { root := .mk
      { key := "desk"
        transitions :=
          [(.on "*", .toTarget "#desk.idle"),
           (.on "CALL.*", { guard := some (.inState none "#desk.busy") }),
           (.on "CALL.BOSS", { guard := some (.inState none "#desk.busy") }),
           (.on "CALL.*", .toTarget "#desk.busy")] }
      [.mk { key := "idle" } [], .mk { key := "busy" } []]
    context := some fun _ => .null }

/-- A call of the boss makes the idle desk busy: of the two transitions for calls, which come
before the one for everything, the second is open. -/
theorem candidates_tried_in_turn_desk :
    let machine : Machine Unit := desk.machine fun _ => .null
    let sight : Guard.Sight :=
      { chart := machine.chart, active := [0, 1], context := .null, event := .named "CALL.BOSS" }
    ∃ choice turn, firstOpen sight (machine.choices .event sight.event 0) = .ok (some choice) ∧
      machine.Embodies 0 choice turn ∧ turn.1.1 = .family "CALL" ∧ turn.2 = 1 := by
  intro machine sight
  have built : desk.build = .ok machine := build_of_faultless (by decide +kernel) rfl
  obtain ⟨head, described⟩ : ∃ head, (desk : MachineSpec Unit).root.heads[0]? = some head :=
    ⟨_, rfl⟩
  obtain ⟨_, _, _, agrees, _⟩ := candidates_tried_in_turn built described .event sight
  have known : (firstOpen sight (machine.choices .event sight.event 0)).map
      (Option.map Choice.ref) = .ok (some ⟨0, 1, 1⟩) := by decide +kernel
  cases opened : firstOpen sight (machine.choices .event sight.event 0) with
  | error error => simp [opened, Except.map] at known
  | ok first =>
      rw [opened] at known
      obtain ⟨choice, rfl, ref⟩ := Option.map_eq_some_iff.mp (Except.ok.inj known)
      rw [opened] at agrees
      cases agrees with
      | @opened _ turn embodies =>
          have descriptor := embodies.descriptor
          have second : ((machine.conduct 0).transitions[1]?).map Transition.descriptor =
              some (.family "CALL") := by decide +kernel
          rw [ref, second] at descriptor
          refine ⟨choice, turn, rfl, embodies, (Option.some.inj descriptor).symm, ?_⟩
          rw [← embodies.place, ref]

end MachineSpec

end Statechart
