import Statechart.Proofs.Outcomes

/-!
# Operations side by side

Two operations, each on a state of its own, may end in the same way: both go well with the
same answer, or both fail for the same reason.  `EndAlike` says so, and how the two states
that are left are related; its lemmas follow both operations through their parts at once.
-/

namespace Statechart

section Alongside

variable {failure state answer result : Type}

/-- From these two states the operations end in the same way, and the two states that they
leave are related in the described way. -/
inductive EndAlike (first second : EStateM failure state answer) (left right : state)
    (well : answer → state → state → Prop) (ill : failure → state → state → Prop) : Prop where
  | well {given : answer} {leftAfter rightAfter : state} :
      first.run left = .ok given leftAfter → second.run right = .ok given rightAfter →
      well given leftAfter rightAfter → EndAlike first second left right well ill
  | ill {reason : failure} {leftAfter rightAfter : state} :
      first.run left = .error reason leftAfter → second.run right = .error reason rightAfter →
      ill reason leftAfter rightAfter → EndAlike first second left right well ill

variable {left right : state}
variable {well : answer → state → state → Prop} {ill : failure → state → state → Prop}

theorem endAlike_pure
    {given : answer}
    (related : well given left right) :
    EndAlike (pure given) (pure given) left right well ill :=
  .well rfl rfl related

theorem endAlike_throw
    {reason : failure}
    (related : ill reason left right) :
    EndAlike (throw reason) (throw reason) left right well ill :=
  .ill rfl rfl related

theorem endAlike_set
    {newLeft newRight : state} {well : PUnit → state → state → Prop}
    (related : well .unit newLeft newRight) :
    EndAlike (set newLeft) (set newRight) left right well ill :=
  .well rfl rfl related

theorem endAlike_modify
    {change other : state → state} {well : PUnit → state → state → Prop}
    (related : well .unit (change left) (other right)) :
    EndAlike (modify change) (modify other) left right well ill :=
  .well rfl rfl related

theorem EndAlike.of_run
    {first second other another : EStateM failure state answer}
    {otherLeft otherRight : state}
    (alike : EndAlike first second left right well ill)
    (leftSame : other.run otherLeft = first.run left)
    (rightSame : another.run otherRight = second.run right) :
    EndAlike other another otherLeft otherRight well ill := by
  cases alike with
  | well leftRan rightRan related =>
      exact .well (leftSame.trans leftRan) (rightSame.trans rightRan) related
  | ill leftRan rightRan related =>
      exact .ill (leftSame.trans leftRan) (rightSame.trans rightRan) related

theorem EndAlike.mono
    {first second : EStateM failure state answer}
    {better : answer → state → state → Prop} {worse : failure → state → state → Prop}
    (alike : EndAlike first second left right well ill)
    (wellEnough : ∀ given left right, well given left right → better given left right)
    (illEnough : ∀ reason left right, ill reason left right → worse reason left right) :
    EndAlike first second left right better worse := by
  cases alike with
  | well leftRan rightRan related => exact .well leftRan rightRan (wellEnough _ _ _ related)
  | ill leftRan rightRan related => exact .ill leftRan rightRan (illEnough _ _ _ related)

theorem EndAlike.ends
    {first second : EStateM failure state answer}
    {described : answer → state → Prop} {failed : failure → state → Prop}
    (alike : EndAlike first second left right well ill)
    (wellEnough : ∀ given left right, well given left right → described given left)
    (illEnough : ∀ reason left right, ill reason left right → failed reason left) :
    Ends first left described failed := by
  unfold Ends
  cases alike with
  | well leftRan _ related =>
      rw [leftRan]
      exact wellEnough _ _ _ related
  | ill leftRan _ related =>
      rw [leftRan]
      exact illEnough _ _ _ related

theorem endAlike_bind
    {first second : EStateM failure state answer}
    {next other : answer → EStateM failure state result}
    {well : result → state → state → Prop}
    (begin : EndAlike first second left right
      (fun given left right => EndAlike (next given) (other given) left right well ill) ill) :
    EndAlike (first >>= next) (second >>= other) left right well ill := by
  cases begin with
  | well leftRan rightRan further =>
      cases further with
      | well leftWent rightWent related =>
          exact .well ((run_bind_of_ok leftRan next).trans leftWent)
            ((run_bind_of_ok rightRan other).trans rightWent) related
      | ill leftFailed rightFailed related =>
          exact .ill ((run_bind_of_ok leftRan next).trans leftFailed)
            ((run_bind_of_ok rightRan other).trans rightFailed) related
  | ill leftRan rightRan related =>
      refine .ill ?_ ?_ related
      · rw [EStateM.run_bind, leftRan]
      · rw [EStateM.run_bind, rightRan]

/-- Each operation may look at its own state first. -/
theorem endAlike_get_bind
    {next other : state → EStateM failure state answer}
    (further : EndAlike (next left) (other right) left right well ill) :
    EndAlike (get >>= next) (get >>= other) left right well ill := by
  cases further with
  | well leftRan rightRan related => exact .well leftRan rightRan related
  | ill leftRan rightRan related => exact .ill leftRan rightRan related

theorem EndAlike.and
    {first second : EStateM failure state answer}
    {described : answer → state → Prop} {failed : failure → state → Prop}
    (alike : EndAlike first second left right well ill)
    (ends : Ends first left described failed) :
    EndAlike first second left right
      (fun given left right => well given left right ∧ described given left)
      (fun reason left right => ill reason left right ∧ failed reason left) := by
  rw [ends_iff_run] at ends
  cases alike with
  | well leftRan rightRan related =>
      exact .well leftRan rightRan ⟨related, ends.1 _ _ leftRan⟩
  | ill leftRan rightRan related =>
      exact .ill leftRan rightRan ⟨related, ends.2 _ _ leftRan⟩

end Alongside

end Statechart
