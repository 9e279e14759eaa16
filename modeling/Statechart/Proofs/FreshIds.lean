import Statechart.Proofs.Digits
import Statechart.Proofs.StartedActors

/-!
# Ids that are made up

Ids are made up from a stem and a number that goes up each time, so no id is made up twice.
But nobody looks whether an id that was made up is borne already: an id that the machine
declares may look like it, and then its bearer is stopped.  This is the only way in which it
happens.
-/

namespace Statechart

namespace Registry

variable {ι : Type}

/-- The id that is made up from a stem and a number. -/
def madeUp (stem : String) (count : Nat) : String :=
  stem ++ "[" ++ toString count ++ "]"

theorem toList_madeUp
    (stem : String) (count : Nat) :
    (madeUp stem count).toList = stem.toList ++ '[' :: (Nat.toDigits 10 count ++ [']']) := by
  simp [madeUp, Nat.repr_eq_ofList_toDigits]

theorem toDigits_injective
    {count number : Nat}
    (same : Nat.toDigits 10 count = Nat.toDigits 10 number) :
    count = number := by
  rw [← Nat.ofDigitChars_ten_toDigits (n := count), same, Nat.ofDigitChars_ten_toDigits]

/-- The stem and the number can be read off: the number is the last digits. -/
theorem madeUp_inj
    {stem other : String} {count number : Nat} :
    madeUp stem count = madeUp other number ↔ stem = other ∧ count = number := by
  constructor
  · intro same
    have letters := congrArg (fun id => id.toList.reverse) same
    simp only [toList_madeUp, List.reverse_append, List.reverse_cons, List.reverse_nil,
      List.nil_append, List.append_assoc, List.cons_append, List.cons.injEq, true_and] at letters
    have digits : ∀ count, ∀ digit ∈ (Nat.toDigits 10 count).reverse, digit.isDigit = true :=
      fun count digit member => isDigit_of_toDigits (List.mem_reverse.mp member)
    have bracket : ∀ stem : String, NoDigitFirst ('[' :: stem.toList.reverse) := by
      rintro stem _ ⟨⟩
      rfl
    have numbers := congrArg (List.takeWhile Char.isDigit) letters
    have stems := congrArg (List.dropWhile Char.isDigit) letters
    rw [takeWhile_digits (digits count) (bracket stem),
      takeWhile_digits (digits number) (bracket other), List.reverse_inj] at numbers
    rw [dropWhile_digits (digits count) (bracket stem),
      dropWhile_digits (digits number) (bracket other), List.cons.injEq, List.reverse_inj,
      String.toList_inj] at stems
    exact ⟨stems.2, toDigits_injective numbers⟩
  · rintro ⟨rfl, rfl⟩
    rfl

theorem freshId_eq
    (registry : Registry ι) (stem : String) :
    (registry.freshId stem).1 = madeUp stem (registry.anonymous + 1) :=
  rfl

theorem anonymous_dismissed
    (registry : Registry ι) (status : ActorStatus) (id : String) :
    (registry.dismissed status id).anonymous = registry.anonymous := by
  unfold dismissed
  cases registry.actor? id <;> rfl

theorem anonymous_staffed
    (registry : Registry ι) (id : String) (owner : Option StateId) (depth : Nat)
    (process : Process ι) :
    (registry.staffed id owner depth process).anonymous = registry.anonymous :=
  anonymous_dismissed registry .stopped id

/-- Whoever runs on the left runs on the right. -/
def Spares (before after : Registry ι) : Prop :=
  ∀ origin, before.accepts origin = true → after.accepts origin = true

theorem accepts_staffed
    {registry : Registry ι} {origin : Origin}
    (balanced : registry.Balanced)
    (accepted : registry.accepts origin = true)
    (id : String) (owner : Option StateId) (depth : Nat) (process : Process ι) :
    (registry.staffed id owner depth process).accepts origin = true ↔ origin.id ≠ id := by
  rw [accepts_iff, actor?_staffed]
  constructor
  · rintro ⟨actor, found, serial⟩ same
    rw [if_pos same] at found
    obtain rfl := Option.some.inj found
    have issued := balanced.serial_lt (serial_mem_of_accepts accepted)
    exact absurd serial issued.ne'
  · intro different
    rw [if_neg different]
    exact accepts_iff.mp accepted

theorem spares_staffed_iff
    {registry : Registry ι}
    (balanced : registry.Balanced)
    (id : String) (owner : Option StateId) (depth : Nat) (process : Process ι) :
    registry.Spares (registry.staffed id owner depth process) ↔ registry.actor? id = none := by
  constructor
  · intro spares
    cases found : registry.actor? id with
    | none => rfl
    | some actor =>
        have runs : registry.accepts ⟨id, actor.serial⟩ = true :=
          accepts_iff.mpr ⟨actor, found, rfl⟩
        exact absurd rfl ((accepts_staffed balanced runs id owner depth process).mp
          (spares _ runs))
  · intro vacant origin accepted
    refine (accepts_staffed balanced accepted id owner depth process).mpr ?_
    rintro rfl
    obtain ⟨actor, found, _⟩ := accepts_iff.mp accepted
    rw [vacant] at found
    cases found

end Registry

namespace Machine

variable {machine : Machine ActorLogic}

/-- No id that the machine declares is made up from one of its stems and a number. -/
def TellsApart (machine : Machine ActorLogic) : Prop :=
  ∀ stem ∈ machine.stems, ∀ count, Registry.madeUp stem (count + 1) ∉ machine.declaredIds

/-- An id that does not begin with the stem and the bracket is not made up from the stem. -/
theorem tellsApart_of_not_prefix
    (unlike : ∀ stem ∈ machine.stems, ∀ id ∈ machine.declaredIds,
      ¬ stem.toList ++ ['['] <+: id.toList) :
    machine.TellsApart := by
  intro stem isStem count declared
  refine unlike stem isStem _ declared ?_
  rw [Registry.toList_madeUp]
  exact ⟨Nat.toDigits 10 (count + 1) ++ [']'], by simp⟩

/-- Each actor on the right that was started after the left bears an id that the machine
declares, or one that was made up meanwhile. -/
structure Lists (machine : Machine ActorLogic) (first registry : Registry Interpreter) :
    Prop where
  counted : first.anonymous ≤ registry.anonymous
  listed : ∀ entry ∈ registry.actors, first.nextSerial ≤ entry.2.serial →
    entry.1 ∈ machine.declaredIds ∨
      ∃ stem count, first.anonymous < count ∧ count ≤ registry.anonymous ∧
        entry.1 = Registry.madeUp stem count

section Listing

variable {first registry before after : Registry Interpreter}

theorem lists_dismissed
    (lists : machine.Lists first registry)
    (status : ActorStatus) (id : String) :
    machine.Lists first (registry.dismissed status id) := by
  constructor
  · rw [Registry.anonymous_dismissed]
    exact lists.counted
  · intro entry member
    rw [Registry.actors_dismissed] at member
    rw [Registry.anonymous_dismissed]
    exact lists.listed entry (Table.mem_erase.mp member).1

theorem lists_staffed
    (lists : machine.Lists first registry)
    {id : String} (owner : Option StateId) (depth : Nat) (process : Process Interpreter)
    (listed : id ∈ machine.declaredIds ∨
      ∃ stem count, first.anonymous < count ∧ count ≤ registry.anonymous ∧
        id = Registry.madeUp stem count) :
    machine.Lists first (registry.staffed id owner depth process) := by
  constructor
  · rw [Registry.anonymous_staffed]
    exact lists.counted
  · intro entry member
    rw [Registry.anonymous_staffed]
    rcases Table.mem_of_mem_insert member with rfl | earlier
    · exact fun _ => listed
    · have known := (lists_dismissed lists .stopped id).listed entry earlier
      rwa [Registry.anonymous_dismissed] at known

theorem Shift.lists
    (shift : machine.Shift before after)
    (lists : machine.Lists first before) :
    machine.Lists first after := by
  cases shift with
  | dismiss id ended => exact lists_dismissed lists _ id
  | tend found kind =>
      refine ⟨lists.counted, fun entry member => ?_⟩
      obtain ⟨earlier, isMember, rfl⟩ := List.mem_map.mp member
      split <;> exact lists.listed earlier isMember
  | invoke depth member =>
      exact lists_staffed lists _ depth _ (.inl (mem_declaredIds_of_invocation member))
  | delay depth member =>
      exact lists_staffed lists _ depth _ (.inl (mem_declaredIds_of_timeout member))
  | named owner depth process isAction given =>
      exact lists_staffed lists owner depth process
        (.inl (mem_declaredIds_of_given isAction given))
  | @nameless _ stem owner depth process isAction =>
      have counted : machine.Lists first (before.freshId stem).2 := by
        refine ⟨lists.counted.trans (Nat.le_succ _), fun entry member recent => ?_⟩
        refine (lists.listed entry member recent).imp_right ?_
        rintro ⟨stem, count, late, known, same⟩
        exact ⟨stem, count, late, known.trans (Nat.le_succ _), same⟩
      exact lists_staffed counted owner depth process
        (.inr ⟨stem, _, Nat.lt_succ_of_le lists.counted, le_refl _, rfl⟩)

theorem Shifts.lists
    (balanced : before.Balanced)
    (shifts : machine.Shifts before after) :
    machine.Lists before after := by
  induction shifts with
  | refl =>
      refine ⟨le_refl _, fun entry member recent => ?_⟩
      have issued := balanced.serial_lt
        (List.mem_append_left _ (List.mem_map_of_mem (f := fun entry => entry.2.serial) member))
      exact absurd issued recent.not_gt
  | tail _ last ih => exact last.lists ih

theorem Shift.turns
    (shift : machine.Shift before after) :
    ∃ middle, before.Turns middle ∧ middle.Turns after := by
  cases shift with
  | dismiss id ended => exact ⟨_, .stay _, .dismiss _ id ended⟩
  | tend found kind => exact ⟨_, .stay _, .update _ _ _⟩
  | invoke depth member kind => exact ⟨_, .stay _, .staff _ _ _ depth _⟩
  | delay depth member => exact ⟨_, .stay _, .staff _ _ _ depth _⟩
  | named owner depth process => exact ⟨_, .stay _, .staff _ _ owner depth process⟩
  | @nameless _ stem owner depth process =>
      exact ⟨_, .name _ stem, .staff _ _ owner depth process⟩

theorem Shift.balanced
    (shift : machine.Shift before after)
    (balanced : before.Balanced) :
    after.Balanced := by
  obtain ⟨_, first, second⟩ := shift.turns
  exact second.balanced (first.balanced balanced)

theorem Shifts.ages
    (shifts : machine.Shifts before after) :
    before.Ages after := by
  induction shifts with
  | refl => exact .refl before
  | tail _ last ih =>
      obtain ⟨_, first, second⟩ := last.turns
      exact ih.trans (first.ages.trans second.ages)

theorem Staffed.balanced
    (staffed : machine.Staffed registry) :
    registry.Balanced := by
  induction staffed with
  | refl => exact Registry.balanced_empty
  | tail _ last ih => exact last.balanced ih

/-- If an id that has just been made up is borne already, the machine declares it. -/
theorem Staffed.declared_of_borne
    (staffed : machine.Staffed registry)
    {stem : String}
    (borne : registry.actor? (registry.freshId stem).1 ≠ none) :
    (registry.freshId stem).1 ∈ machine.declaredIds := by
  obtain ⟨actor, found⟩ := Option.ne_none_iff_exists'.mp borne
  have lists := Shifts.lists Registry.balanced_empty staffed
  rcases lists.listed _ (Table.mem_of_get? found) (Nat.zero_le _) with
    declared | ⟨other, count, _, known, same⟩
  · exact declared
  · rw [Registry.freshId_eq, Registry.madeUp_inj] at same
    omega

end Listing

theorem exists_staffed
    {stem : String}
    (isStem : stem ∈ machine.stems) (count : Nat) :
    ∃ registry, machine.Staffed registry ∧ registry.anonymous = count := by
  obtain ⟨action, isAction, nameless⟩ := List.mem_filterMap.mp isStem
  induction count with
  | zero => exact ⟨Registry.empty, .refl, rfl⟩
  | succ count ih =>
      obtain ⟨registry, staffed, rfl⟩ := ih
      refine ⟨_, staffed.tail (.nameless registry none 0 .promise isAction nameless ?_), ?_⟩
      · rintro ⟨⟩
      · rw [Registry.anonymous_staffed]
        rfl

theorem exists_bearer
    {id : String}
    (declared : id ∈ machine.declaredIds) (registry : Registry Interpreter) :
    ∃ owner depth process, machine.Shift registry (registry.staffed id owner depth process) := by
  rcases List.mem_append.mp declared with standing | given
  · obtain ⟨conduct, isConduct, member⟩ := List.mem_flatMap.mp standing
    obtain ⟨state, inRange, here⟩ := List.mem_iff_getElem.mp isConduct
    have same : machine.conduct state = conduct := by
      simp [Machine.conduct, List.getElem?_eq_getElem inRange, here]
    subst same
    rcases List.mem_append.mp member with invoked | delayed
    · obtain ⟨invocation, isInvocation, rfl⟩ := List.mem_map.mp invoked
      exact ⟨some state, 0, .promise, .invoke registry 0 isInvocation (by rintro ⟨⟩)⟩
    · obtain ⟨timeout, isTimeout, rfl⟩ := List.mem_map.mp delayed
      exact ⟨some state, 0, .timer, .delay registry 0 isTimeout⟩
  · obtain ⟨action, isAction, gives⟩ := List.mem_filterMap.mp given
    exact ⟨none, 0, .promise, .named registry none 0 .promise isAction gives fun _ => rfl⟩

/-- In all that can come of what the machine has started the ids that it makes up are free
exactly if none of them looks like a declared one. -/
theorem fresh_iff_tellsApart :
    (∀ registry, machine.Staffed registry → ∀ stem ∈ machine.stems,
      registry.actor? (registry.freshId stem).1 = none) ↔ machine.TellsApart := by
  constructor
  · intro fresh stem isStem count declared
    obtain ⟨registry, staffed, rfl⟩ := exists_staffed isStem count
    obtain ⟨owner, depth, process, shift⟩ := exists_bearer declared registry
    have vacant := fresh _ (staffed.tail shift) stem isStem
    rw [Registry.freshId_eq, Registry.anonymous_staffed, Registry.actor?_staffed,
      if_pos rfl] at vacant
    cases vacant
  · intro apart registry staffed stem isStem
    by_contra borne
    exact apart stem isStem registry.anonymous (staffed.declared_of_borne borne)

end Machine

namespace Engine

variable (engine : Engine) (event : Event)

theorem perform_nameless
    {owner : StateId} {action : Action ActorLogic} {stem : String} (bench : Workbench)
    (nameless : action.stem? engine.machine.id = some stem) :
    Ends (engine.perform event owner action) bench
      (fun _ after => ∃ owner depth process,
        after.supervisor.registry = (bench.supervisor.registry.freshId stem).2.staffed
          (bench.supervisor.registry.freshId stem).1 owner depth process)
      (fun _ _ => False) := by
  cases action with
  | raise make delay id =>
      cases delay with
      | none => cases nameless
      | some delay =>
          cases id with
          | some id => cases nameless
          | none =>
              obtain rfl := Option.some.inj nameless
              simp only [perform, ends_bind, ends_get]
              exact ⟨_, _, _, registry_spawn engine _ _⟩
  | send recipient make delay id =>
      cases delay with
      | none => cases nameless
      | some delay =>
          cases id with
          | some id => cases nameless
          | none =>
              obtain rfl := Option.some.inj nameless
              simp only [perform, ends_bind, ends_get]
              exact ⟨_, _, _, registry_spawn engine _ _⟩
  | spawn id logic input =>
      cases id with
      | some id => cases nameless
      | none =>
          obtain rfl := Option.some.inj nameless
          simp only [perform, ends_bind, ends_get]
          exact ⟨_, _, _, registry_spawn engine _ _⟩
  | assign name update => cases nameless
  | cancel id => cases nameless
  | log label text => cases nameless
  | stopChild id => cases nameless
  | effect name run => cases nameless

/-- It spares all that run exactly if nobody bears the id that is made up; else the bearer,
and nobody else, is stopped. -/
theorem perform_nameless_spares
    {owner : StateId} {action : Action ActorLogic} {stem : String} {bench : Workbench}
    (balanced : bench.supervisor.registry.Balanced)
    (nameless : action.stem? engine.machine.id = some stem) :
    let registry := bench.supervisor.registry
    Ends (engine.perform event owner action) bench
      (fun _ after =>
        (registry.Spares after.supervisor.registry ↔
          registry.actor? (registry.freshId stem).1 = none) ∧
        ∀ origin, registry.accepts origin = true →
          (after.supervisor.registry.accepts origin = true ↔
            origin.id ≠ (registry.freshId stem).1))
      (fun _ _ => False) := by
  intro registry
  refine (perform_nameless engine event bench nameless).mono ?_ (fun _ _ never => never)
  rintro _ after ⟨owner, depth, process, same⟩
  have counted : (registry.freshId stem).2.Balanced :=
    ⟨balanced.distinct, balanced.issued, balanced.ended⟩
  rw [same]
  exact ⟨Registry.spares_staffed_iff counted _ owner depth process,
    fun origin accepted => Registry.accepts_staffed counted accepted _ owner depth process⟩

end Engine

namespace Machine

open Interpreter in
/-- At every moment of a life, within steps too, the actors are a mix of what the machine has
started.  If then an id that is made up is borne already, the machine declares it; so all
ids that the machine makes up are fresh, whatever the mix, exactly if it declares none that
could be made up, which is so if no declared id begins with a stem and a bracket.  An action
that starts an actor or a delay without giving it an id spares all that run exactly if the id
made up for it is fresh, and stops nobody but the bearer of this id.  Every run of a new or
restored interpreter is such a life, for it and for all machines below it. -/
theorem made_up_ids_fresh_iff
    (machine : Machine ActorLogic) (facilities : Facilities) :
    (∀ (nursery : Nursery) (start after : Interpreter) (dealings : List Dealing),
      start.Fresh → start.machine = machine → Course facilities nursery start dealings after →
        machine.Staffed after.supervisor.registry) ∧
    (∀ (engine : Engine) (event : Event) (beats : List Beat) (announced : List StateId)
        (bench : Workbench),
      engine.machine = machine → machine.Staffed bench.supervisor.registry →
      (∀ beat ∈ beats, ∀ action, beat.action? = some action → action ∈ machine.actions) →
        Ends (engine.play event beats announced) bench
          (fun _ after => machine.Staffed after.supervisor.registry)
          (fun _ after => machine.Staffed after.supervisor.registry)) ∧
    (∀ (registry : Registry Interpreter) (stem : String), machine.Staffed registry →
      registry.actor? (registry.freshId stem).1 ≠ none →
        (registry.freshId stem).1 ∈ machine.declaredIds) ∧
    ((∀ registry, machine.Staffed registry → ∀ stem ∈ machine.stems,
      registry.actor? (registry.freshId stem).1 = none) ↔ machine.TellsApart) ∧
    ((∀ stem ∈ machine.stems, ∀ id ∈ machine.declaredIds,
      ¬ stem.toList ++ ['['] <+: id.toList) → machine.TellsApart) ∧
    (∀ (engine : Engine) (event : Event) (owner : StateId) (action : Action ActorLogic)
        (stem : String) (bench : Workbench),
      engine.machine = machine → machine.Staffed bench.supervisor.registry →
      action.stem? machine.id = some stem →
        let registry := bench.supervisor.registry
        Ends (engine.perform event owner action) bench
          (fun _ after =>
            (registry.Spares after.supervisor.registry ↔
              registry.actor? (registry.freshId stem).1 = none) ∧
            ∀ origin, registry.accepts origin = true →
              (after.supervisor.registry.accepts origin = true ↔
                origin.id ≠ (registry.freshId stem).1))
          (fun _ _ => False)) ∧
    (∀ (start : Interpreter) (operations : List Operation), Begins machine start →
      Reared facilities machine.generations
        ((World.around facilities start).run operations).interpreter) := by
  refine ⟨?_, ?_, fun registry stem staffed => staffed.declared_of_borne, fresh_iff_tellsApart,
    tellsApart_of_not_prefix, ?_,
    fun start operations begins => World.run_reared facilities begins operations⟩
  · rintro nursery start after dealings fresh rfl course
    exact course.staffed fresh
  · rintro engine event beats announced bench rfl staffed does
    exact (Engine.play_abiding engine event does announced bench).mono
      (fun _ _ shifts => staffed.shifts shifts) (fun _ _ shifts => staffed.shifts shifts)
  · rintro engine event owner action stem bench rfl staffed nameless
    exact Engine.perform_nameless_spares engine event staffed.balanced nameless

end Machine

namespace MachineSpec

/-- A root with a limit and an assistant that start with it; more helpers and reminders are
started without an id. -/
def office : MachineSpec ActorLogic :=
  { root := .mk
      { key := "m"
        entry := [.spawn (some "assistant") (.callback fun _ => {}) none]
        transitions := [(.on "BUSY",
          { actions :=
              [.spawn none (.callback fun _ => {}) none,
               .send .self (fun _ _ => Event.named "REMIND") (some (.ofMillis 10)) none] })]
        after := [(.ofMillis 1000, {})] }
      []
    context := some fun _ => .null }

open Interpreter in
/-- In the office all ids that are made up are fresh, and when it has been busy twice everyone
is still there. -/
theorem made_up_ids_fresh_office :
    let machine : Machine ActorLogic := office.machine fun _ => .null
    let facilities : Facilities := ⟨false, true, 1000⟩
    let world := (World.around facilities (create machine {})).run
      [.start, .send (Event.named "BUSY"), .send (Event.named "BUSY")]
    machine.TellsApart ∧
      (∀ registry, machine.Staffed registry → ∀ stem ∈ machine.stems,
        registry.actor? (registry.freshId stem).1 = none) ∧
      machine.Staffed world.interpreter.supervisor.registry ∧
      world.interpreter.supervisor.registry.closed = [] ∧
      Table.keys world.interpreter.supervisor.registry.actors =
        ["after.1000.m", "assistant", "delay[2]", "delay[4]", "m:spawn[1]", "m:spawn[3]"] := by
  intro machine facilities world
  obtain ⟨lives, _, _, fresh, plainly, _, _⟩ :=
    Machine.made_up_ids_fresh_iff machine facilities
  have apart : machine.TellsApart := plainly (by decide +kernel)
  obtain ⟨dealings, course⟩ := World.run_course facilities (.of_create machine {}) [] _ rfl
  exact ⟨apart, fresh.mpr apart, lives _ _ _ dealings (fresh_create machine {}) rfl course,
    by decide +kernel, by decide +kernel⟩

/-- A root that starts an actor under an id that looks as if it were made up, and a delay
without an id. -/
def namesake : MachineSpec ActorLogic :=
  { root := .mk
      { key := "m"
        entry :=
          [.spawn (some "delay[1]") (.callback fun _ => {}) none,
           .raise (fun _ _ => Event.named "TICK") (some (.ofMillis 10)) none] }
      []
    context := some fun _ => .null }

/-- The id that is made up for the delay is borne by the actor, which is stopped. -/
theorem made_up_id_borne_namesake :
    let machine : Machine ActorLogic := namesake.machine fun _ => .null
    let world := (World.around ⟨false, true, 1000⟩ (Interpreter.create machine {})).run [.start]
    let registry := world.interpreter.supervisor.registry
    namesake.build = .ok machine ∧
      (∃ registry, machine.Staffed registry ∧ ∃ stem ∈ machine.stems,
        registry.actor? (registry.freshId stem).1 ≠ none) ∧
      registry.closed = [(⟨"delay[1]", 0⟩, .stopped)] ∧
      registry.children = [] ∧ Table.keys registry.actors = ["delay[1]"] := by
  intro machine world registry
  refine ⟨build_of_faultless (by decide +kernel) rfl, ?_, by decide +kernel, by decide +kernel,
    by decide +kernel⟩
  have declared : "delay[1]" ∈ machine.declaredIds := by decide +kernel
  obtain ⟨owner, depth, process, shift⟩ := Machine.exists_bearer declared Registry.empty
  refine ⟨_, .single shift, "delay", by decide +kernel, ?_⟩
  have same : Registry.madeUp "delay" ((Registry.empty : Registry Interpreter).anonymous + 1) =
      "delay[1]" := by decide
  rw [Registry.freshId_eq, Registry.anonymous_staffed, Registry.actor?_staffed, if_pos same]
  exact Option.some_ne_none _

end MachineSpec

end Statechart
