import Mathlib.Logic.Relation

/-!
# How operations end

An operation on a state either goes well, with an answer, or fails; either way it leaves a
state behind.  `Ends` says what holds in both cases, and its lemmas follow an operation
through its parts.
-/

namespace Statechart

/-- Steps that each fulfil a relation that can be put together fulfil it together. -/
theorem fulfils_of_steps
    {state : Type*} {step relation : state → state → Prop}
    (refl : ∀ start, relation start start)
    (trans : ∀ {first second third}, relation first second → relation second third →
      relation first third)
    (each : ∀ {before after}, step before after → relation before after)
    {before after : state} (steps : Relation.ReflTransGen step before after) :
    relation before after := by
  induction steps with
  | refl => exact refl before
  | tail _ last ih => exact trans ih (each last)

section Outcomes

variable {failure state answer result : Type}

/-- From this state the operation ends well or ill in the described way. -/
def Ends (operation : EStateM failure state answer) (start : state)
    (well : answer → state → Prop) (ill : failure → state → Prop) : Prop :=
  match operation.run start with
  | .ok given after => well given after
  | .error reason after => ill reason after

variable {start : state} {well : answer → state → Prop} {ill : failure → state → Prop}

@[simp]
theorem ends_pure
    {given : answer} :
    Ends (pure given) start well ill ↔ well given start :=
  Iff.rfl

@[simp]
theorem ends_get
    {well : state → state → Prop} :
    Ends get start well ill ↔ well start start :=
  Iff.rfl

@[simp]
theorem ends_set
    {after : state} {well : PUnit → state → Prop} :
    Ends (set after) start well ill ↔ well .unit after :=
  Iff.rfl

@[simp]
theorem ends_modify
    {change : state → state} {well : PUnit → state → Prop} :
    Ends (modify change) start well ill ↔ well .unit (change start) :=
  Iff.rfl

@[simp]
theorem ends_throw
    {reason : failure} :
    Ends (throw reason) start well ill ↔ ill reason start :=
  Iff.rfl

@[simp]
theorem ends_bind
    {first : EStateM failure state answer}
    {next : answer → EStateM failure state result}
    {well : result → state → Prop} :
    Ends (first >>= next) start well ill ↔
      Ends first start (fun given middle => Ends (next given) middle well ill) ill := by
  unfold Ends
  rw [EStateM.run_bind]
  cases first.run start <;> rfl

theorem Ends.mono
    {operation : EStateM failure state answer}
    {better : answer → state → Prop} {worse : failure → state → Prop}
    (ends : Ends operation start well ill)
    (wellEnough : ∀ given after, well given after → better given after)
    (illEnough : ∀ reason after, ill reason after → worse reason after) :
    Ends operation start better worse := by
  unfold Ends at ends ⊢
  cases outcome : operation.run start with
  | ok given after =>
      rw [outcome] at ends
      exact wellEnough given after ends
  | error reason after =>
      rw [outcome] at ends
      exact illEnough reason after ends

theorem Ends.and
    {operation : EStateM failure state answer}
    {also : answer → state → Prop} {orElse : failure → state → Prop}
    (first : Ends operation start well ill)
    (second : Ends operation start also orElse) :
    Ends operation start (fun given after => well given after ∧ also given after)
      (fun reason after => ill reason after ∧ orElse reason after) := by
  unfold Ends at first second ⊢
  cases outcome : operation.run start with
  | ok given after =>
      rw [outcome] at first second
      exact ⟨first, second⟩
  | error reason after =>
      rw [outcome] at first second
      exact ⟨first, second⟩

theorem ends_somehow
    (operation : EStateM failure state answer) (start : state) :
    Ends operation start (fun _ _ => True) (fun _ _ => True) := by
  unfold Ends
  cases operation.run start <;> trivial

theorem ends_iff_run
    {operation : EStateM failure state answer} :
    Ends operation start well ill ↔
      (∀ given after, operation.run start = .ok given after → well given after) ∧
        ∀ reason after, operation.run start = .error reason after → ill reason after := by
  unfold Ends
  cases operation.run start <;> simp

/-- The state that an operation leaves behind, whether it goes well or fails. -/
def leftBy (operation : EStateM failure state answer) (start : state) : state :=
  match operation.run start with
  | .ok _ after => after
  | .error _ after => after

theorem ends_leftBy
    (operation : EStateM failure state answer) (start : state) :
    Ends operation start (fun _ after => after = leftBy operation start)
      (fun _ after => after = leftBy operation start) := by
  unfold Ends leftBy
  cases operation.run start <;> rfl

theorem Ends.leftBy
    {operation : EStateM failure state answer} {described : state → Prop}
    (ends : Ends operation start (fun _ after => described after)
      (fun _ after => described after)) :
    described (leftBy operation start) := by
  unfold Ends at ends
  unfold Statechart.leftBy
  cases outcome : operation.run start <;> rwa [outcome] at ends

/-- What an operation fails with, if it fails. -/
def failureOf? (operation : EStateM failure state answer) (start : state) : Option failure :=
  match operation.run start with
  | .ok _ _ => none
  | .error reason _ => some reason

theorem run_of_failureOf?_none
    {operation : EStateM failure state answer}
    (well : failureOf? operation start = none) :
    ∃ given, operation.run start = .ok given (leftBy operation start) := by
  unfold failureOf? at well
  unfold leftBy
  cases outcome : operation.run start with
  | ok given after => exact ⟨given, rfl⟩
  | error reason after =>
      rw [outcome] at well
      cases well

theorem run_of_failureOf?
    {operation : EStateM failure state answer} {reason : failure}
    (fails : failureOf? operation start = some reason) :
    operation.run start = .error reason (leftBy operation start) := by
  unfold failureOf? at fails
  unfold leftBy
  cases outcome : operation.run start with
  | ok given after =>
      rw [outcome] at fails
      cases fails
  | error other after =>
      rw [outcome] at fails
      cases fails
      rfl

/-- What an operation answers, if it goes well. -/
def answerOf? (operation : EStateM failure state answer) (start : state) : Option answer :=
  match operation.run start with
  | .ok given _ => some given
  | .error _ _ => none

theorem run_of_answerOf?
    {operation : EStateM failure state answer} {given : answer}
    (answers : answerOf? operation start = some given) :
    operation.run start = .ok given (leftBy operation start) := by
  unfold answerOf? at answers
  unfold leftBy
  cases outcome : operation.run start with
  | ok other after =>
      rw [outcome] at answers
      obtain rfl := Option.some.inj answers
      rfl
  | error reason after =>
      rw [outcome] at answers
      cases answers

theorem run_get_bind
    (next : state → EStateM failure state result) (start : state) :
    (get >>= next).run start = (next start).run start :=
  rfl

theorem run_modify_bind
    (change : state → state) (next : PUnit → EStateM failure state result) (start : state) :
    (modify change >>= next).run start = (next .unit).run (change start) :=
  rfl

theorem run_bind_of_ok
    {first : EStateM failure state answer} {given : answer} {middle : state}
    (begun : first.run start = .ok given middle)
    (next : answer → EStateM failure state result) :
    (first >>= next).run start = (next given).run middle := by
  rw [EStateM.run_bind, begun]

theorem run_bind_of_error
    {first : EStateM failure state answer} {reason : failure} {middle : state}
    (failed : first.run start = .error reason middle)
    (next : answer → EStateM failure state result) :
    (first >>= next).run start = .error reason middle := by
  rw [EStateM.run_bind, failed]

/-- An operation in two parts goes well if both parts do. -/
theorem run_bind_eq_ok
    {first : EStateM failure state answer} {next : answer → EStateM failure state result}
    {given : result} {after : state} :
    (first >>= next).run start = .ok given after ↔
      ∃ between middle, first.run start = .ok between middle ∧
        (next between).run middle = .ok given after := by
  rw [EStateM.run_bind]
  cases first.run start with
  | ok between middle =>
      constructor
      · exact fun ended => ⟨between, middle, rfl, ended⟩
      · rintro ⟨_, _, ⟨⟩, ended⟩
        exact ended
  | error reason middle => simp

/-- Operations that begin in the same way and go on in the same way are the same. -/
theorem run_bind_congr
    {first second : EStateM failure state answer}
    {next other : answer → EStateM failure state result}
    (begin : first.run start = second.run start)
    (further : ∀ given middle, first.run start = .ok given middle →
      (next given).run middle = (other given).run middle) :
    (first >>= next).run start = (second >>= other).run start := by
  rw [EStateM.run_bind, EStateM.run_bind, ← begin]
  cases outcome : first.run start with
  | ok given middle => exact further given middle outcome
  | error reason middle => rfl

end Outcomes

end Statechart
