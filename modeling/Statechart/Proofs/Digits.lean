import Mathlib.Algebra.Group.Nat.Defs
import Statechart.Checkpoint.Timestamp
import Statechart.Checkpoint.Uuid

/-!
# Digits

Numbers are written in decimal or hexadecimal digits and read again by adding these up.
-/

namespace Statechart

theorem ne_of_isDigit
    {digit letter : Char}
    (isDigit : digit.isDigit = true)
    (notDigit : letter.isDigit = false) :
    digit ≠ letter := by
  rintro rfl
  rw [isDigit] at notDigit
  cases notDigit

/-- A text that does not begin with a decimal digit. -/
def NoDigitFirst (text : List Char) : Prop :=
  ∀ first ∈ text.head?, first.isDigit = false

section Spans

variable {digits rest : List Char}

theorem takeWhile_digits
    (areDigits : ∀ digit ∈ digits, digit.isDigit = true)
    (ends : NoDigitFirst rest) :
    (digits ++ rest).takeWhile Char.isDigit = digits := by
  rw [List.takeWhile_append_of_pos areDigits]
  cases rest with
  | nil => simp
  | cons first rest => simp [ends first rfl]

theorem dropWhile_digits
    (areDigits : ∀ digit ∈ digits, digit.isDigit = true)
    (ends : NoDigitFirst rest) :
    (digits ++ rest).dropWhile Char.isDigit = rest := by
  rw [List.dropWhile_append_of_pos areDigits]
  cases rest with
  | nil => rfl
  | cons first rest => simp [ends first rfl]

end Spans

theorem Json.digitsValue_eq (digits : List Char) :
    Json.digitsValue digits = Nat.ofDigitChars 10 digits 0 := by
  simp [Json.digitsValue, Nat.ofDigitChars, Nat.mul_comm]

theorem Timestamp.value_eq (digits : List Char) :
    Timestamp.value digits = Nat.ofDigitChars 10 digits 0 := by
  simp [Timestamp.value, Nat.ofDigitChars, Nat.mul_comm]

theorem head?_toDigits_ne_zero
    {value : Nat} (positive : 0 < value) :
    (Nat.toDigits 10 value).head? ≠ some '0' := by
  induction value using Nat.strongRecOn with
  | ind value ih =>
      by_cases small : value < 10
      · rw [Nat.toDigits_of_lt_base small]
        simpa using Nat.ne_of_gt positive
      · have large : 10 ≤ value := Nat.le_of_not_lt small
        rw [Nat.toDigits_of_base_le (by decide) large,
          List.head?_append, Option.or_of_isSome (by simp)]
        exact ih (value / 10) (by omega) (by omega)

theorem isDigit_of_toDigits
    {value : Nat} {digit : Char}
    (member : digit ∈ Nat.toDigits 10 value) :
    digit.isDigit = true :=
  Nat.isDigit_of_mem_toDigits (by decide) (by decide) member

/-- A number filled up with zeros is written in at least so many digits, and in just as many
if these suffice. -/
theorem Timestamp.padded_digits
    (width value : Nat) :
    (∀ digit ∈ (padded width value).toList, digit.isDigit = true) ∧
      Timestamp.value (padded width value).toList = value ∧
      width ≤ (padded width value).toList.length ∧
      (0 < width → value < 10 ^ width → (padded width value).toList.length = width) := by
  have written : (padded width value).toList =
      List.replicate (width - (Nat.toDigits 10 value).length) '0' ++ Nat.toDigits 10 value := by
    simp [padded, Nat.repr_eq_ofList_toDigits]
  rw [written]
  refine ⟨?_, ?_, ?_, ?_⟩
  · intro digit member
    rcases List.mem_append.mp member with zero | proper
    · rw [List.eq_of_mem_replicate zero]
      rfl
    · exact isDigit_of_toDigits proper
  · rw [value_eq, Nat.ofDigitChars_append, Nat.ofDigitChars_replicate_zero, Nat.mul_zero,
      Nat.ofDigitChars_ten_toDigits]
  · rw [List.length_append, List.length_replicate]
    omega
  · intro positive small
    have few := (Nat.length_toDigits_le_iff (by decide) positive).mpr small
    rw [List.length_append, List.length_replicate]
    omega

theorem Json.hexValue?_hexDigit
    {value : Nat} (small : value < 16) :
    Json.hexValue? (Json.hexDigit value) = some value := by
  decide +revert

end Statechart
