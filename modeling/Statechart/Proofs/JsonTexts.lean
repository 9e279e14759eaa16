import Mathlib.Algebra.Group.Int.Defs
import Mathlib.Data.List.TakeWhile
import Mathlib.Tactic.SplitIfs
import Statechart.Json.Printer
import Statechart.Proofs.Digits

/-!
# JSON texts

What is written is read again: strings through their escapes, numbers through their digits,
lists and objects item by item.  Only two things are refused, nesting that is too deep and
whole numbers of more than 64 bits, and `Json.fits` says beforehand whether there are any.
-/

namespace Statechart.Json

section Strings

theorem hexWord_control
    {letter : Char}
    (control : letter.toNat < 32) (rest : List Char) :
    hexWord ('0' :: '0' :: hexDigit (letter.toNat / 16) :: hexDigit (letter.toNat % 16) :: rest) =
      some (letter.toNat, rest) := by
  have high := hexValue?_hexDigit (show letter.toNat / 16 < 16 by omega)
  have low := hexValue?_hexDigit (show letter.toNat % 16 < 16 by omega)
  have zero : hexValue? '0' = some 0 := by decide
  have whole : letter.toNat / 16 * 16 + letter.toNat % 16 = letter.toNat :=
    Nat.div_add_mod' letter.toNat 16
  simp [hexWord, zero, high, low, whole]

theorem stringBody_escape
    (fuel : Nat) (seen : List Char) (letter : Char) (rest : List Char) :
    stringBody .kept (fuel + 1) seen (escape letter ++ rest) =
      stringBody .kept fuel (letter :: seen) rest := by
  unfold escape
  split_ifs with quote slash back feed line carriage tab control
  · subst quote
    rfl
  · subst slash
    rfl
  · subst back
    rfl
  · subst feed
    rfl
  · subst line
    rfl
  · subst carriage
    rfl
  · subst tab
    rfl
  · have notLeading : isLeading letter.toNat = false := by
      simp only [isLeading, Bool.and_eq_false_iff, decide_eq_false_iff_not]
      omega
    have notTrailing : isTrailing letter.toNat = false := by
      simp only [isTrailing, Bool.and_eq_false_iff, decide_eq_false_iff_not]
      omega
    simp [stringBody, unicodeEscape, hexWord_control control, notLeading, notTrailing]
  · rw [List.singleton_append, stringBody.eq_def]
    simp [slash, control]

theorem stringBody_escapes
    {fuel : Nat} {seen letters : List Char} (rest : List Char)
    (enough : letters.length < fuel) :
    stringBody .kept fuel seen (letters.flatMap escape ++ '"' :: rest) =
      some (seen.reverse ++ letters, rest) := by
  induction letters generalizing fuel seen with
  | nil =>
      obtain ⟨fuel, rfl⟩ := Nat.exists_eq_succ_of_ne_zero (Nat.ne_zero_of_lt enough)
      simp [stringBody]
  | cons letter letters ih =>
      obtain ⟨fuel, rfl⟩ := Nat.exists_eq_succ_of_ne_zero (Nat.ne_zero_of_lt enough)
      rw [List.flatMap_cons, List.append_assoc, stringBody_escape,
        ih (Nat.lt_of_succ_lt_succ enough)]
      simp

theorem length_escape (letter : Char) : 1 ≤ (escape letter).length := by
  unfold escape
  split_ifs <;> simp

theorem quoted_quote
    (text : String) (rest : List Char) :
    quoted .kept (quote text ++ rest) = some (text, rest) := by
  have enough : text.toList.length < (text.toList.flatMap escape ++ '"' :: rest).length + 1 := by
    have longer : ∀ letters : List Char, letters.length ≤ (letters.flatMap escape).length := by
      intro letters
      induction letters with
      | nil => exact Nat.le_refl 0
      | cons letter letters ih =>
          rw [List.flatMap_cons, List.length_append, List.length_cons, Nat.add_comm]
          exact Nat.add_le_add (length_escape letter) ih
    rw [List.length_append]
    exact Nat.lt_succ_of_le (Nat.le_trans (longer text.toList) (Nat.le_add_right _ _))
  have opened : quote text ++ rest = '"' :: (text.toList.flatMap escape ++ '"' :: rest) := by
    simp [quote]
  rw [opened]
  simp only [quoted, stringBody_escapes rest enough]
  simp

end Strings

section Numbers

/-- A text at whose front no number goes on. -/
def Ended (text : List Char) : Prop :=
  ∀ first ∈ text.head?,
    first.isDigit = false ∧ first ≠ '.' ∧ first ≠ 'e' ∧ first ≠ 'E'

theorem Ended.noDigitFirst
    {text : List Char}
    (ended : Ended text) :
    NoDigitFirst text := fun first isFirst => (ended first isFirst).1

theorem digits1_eq_some_iff
    {text digits rest : List Char} :
    digits1 text = some (digits, rest) ↔
      text = digits ++ rest ∧ digits ≠ [] ∧ (∀ digit ∈ digits, digit.isDigit = true) ∧
        NoDigitFirst rest := by
  constructor
  · intro read
    unfold digits1 at read
    simp only at read
    split at read
    · cases read
    · rename_i some?
      obtain ⟨rfl, rfl⟩ := Prod.mk.inj (Option.some.inj read)
      refine ⟨List.takeWhile_append_dropWhile.symm, by simpa using some?,
        fun digit member => List.mem_takeWhile_imp member, fun first isFirst => ?_⟩
      have stopped := List.head?_dropWhile_not Char.isDigit text
      rw [Option.mem_def.mp isFirst] at stopped
      simpa using stopped
  · rintro ⟨rfl, filled, areDigits, ends⟩
    simp [digits1, takeWhile_digits areDigits ends, dropWhile_digits areDigits ends, filled]

theorem digits1_append
    {text digits rest : List Char} {more : List Char}
    (ended : NoDigitFirst more)
    (read : digits1 text = some (digits, rest)) :
    digits1 (text ++ more) = some (digits, rest ++ more) := by
  obtain ⟨rfl, filled, areDigits, ends⟩ := digits1_eq_some_iff.mp read
  refine digits1_eq_some_iff.mpr ⟨List.append_assoc .., filled, areDigits, ?_⟩
  cases rest with
  | nil => exact ended
  | cons first rest => exact ends

theorem wholePart_toDigits
    (whole : Nat) {rest : List Char}
    (ended : NoDigitFirst rest) :
    wholePart (Nat.toDigits 10 whole ++ rest) = some (Nat.toDigits 10 whole, rest) := by
  have proper : (decide ((Nat.toDigits 10 whole).head? = some '0') &&
      decide ((Nat.toDigits 10 whole).length > 1)) = false := by
    rcases Nat.eq_zero_or_pos whole with rfl | positive
    · rfl
    · simp [head?_toDigits_ne_zero positive]
  have read : digits1 (Nat.toDigits 10 whole ++ rest) = some (Nat.toDigits 10 whole, rest) :=
    digits1_eq_some_iff.mpr ⟨rfl, Nat.toDigits_ne_nil, fun _ member =>
      isDigit_of_toDigits member, ended⟩
  unfold wholePart
  rw [read]
  simp only [bind, Option.bind_some, proper, Bool.false_eq_true, if_false]

theorem decimals_of_ended
    {text : List Char}
    (ended : Ended text) :
    decimals text = some ([], text) := by
  cases text with
  | nil => rfl
  | cons first text =>
      obtain ⟨_, noPoint, _, _⟩ := ended first rfl
      simp [decimals, noPoint]

theorem exponent_of_ended
    {text : List Char}
    (ended : Ended text) :
    exponent text = some ([], text) := by
  cases text with
  | nil => rfl
  | cons first text =>
      obtain ⟨_, _, noSmall, noLarge⟩ := ended first rfl
      simp [exponent, noSmall, noLarge]

theorem numeral_toDigits
    (whole : Nat) {rest : List Char}
    (ended : Ended rest) :
    numeral (Nat.toDigits 10 whole ++ rest) = some ((Nat.toDigits 10 whole, []), rest) := by
  unfold numeral
  rw [wholePart_toDigits whole ended.noDigitFirst]
  simp only [bind, Option.bind_some, decimals_of_ended ended, exponent_of_ended ended,
    List.append_nil]

theorem magnitude_toDigits
    (negative : Bool) (whole : Nat) {rest : List Char}
    (ended : Ended rest) :
    magnitude .kept negative (Nat.toDigits 10 whole ++ rest) =
      if inRange negative whole then
        some (.int (if negative then -(whole : Int) else whole), rest)
      else none := by
  have worth : digitsValue (Nat.toDigits 10 whole) = whole := by
    rw [digitsValue_eq, Nat.ofDigitChars_ten_toDigits]
  unfold magnitude
  rw [numeral_toDigits whole ended]
  simp only [bind, Option.bind_some, number?, worth, List.isEmpty_nil, if_true]
  cases inRange negative whole <;> simp

/-- A reader that gives the letters that it takes, and takes the same ones when the text goes
on with what is no part of a number. -/
structure Spells (read : Reader (List Char)) : Prop where
  spelled : ∀ {text letters rest}, read text = some (letters, rest) → text = letters ++ rest
  readsOn : ∀ {text letters rest more}, Ended more → read text = some (letters, rest) →
    read (text ++ more) = some (letters, rest ++ more)

theorem wholePart_eq_some_iff
    {text digits rest : List Char} :
    wholePart text = some (digits, rest) ↔
      digits1 text = some (digits, rest) ∧ ¬ (digits.head? = some '0' ∧ 1 < digits.length) := by
  unfold wholePart
  rcases digits1 text with _ | ⟨taken, left⟩
  · simp
  · simp only [bind, Option.bind_some, Bool.and_eq_true, decide_eq_true_eq, gt_iff_lt,
      Option.ite_none_left_eq_some, Option.some.injEq, Prod.mk.injEq]
    constructor
    · rintro ⟨proper, rfl, rfl⟩
      exact ⟨⟨rfl, rfl⟩, proper⟩
    · rintro ⟨⟨rfl, rfl⟩, proper⟩
      exact ⟨proper, rfl, rfl⟩

theorem spells_wholePart : Spells wholePart where
  spelled read := (digits1_eq_some_iff.mp (wholePart_eq_some_iff.mp read).1).1
  readsOn ended read := by
    obtain ⟨taken, proper⟩ := wholePart_eq_some_iff.mp read
    exact wholePart_eq_some_iff.mpr ⟨digits1_append ended.noDigitFirst taken, proper⟩

theorem spells_decimals : Spells decimals where
  spelled {text} _ _ read := by
    cases text with
    | nil =>
        obtain ⟨rfl, rfl⟩ := Prod.mk.inj (Option.some.inj read)
        rfl
    | cons letter text =>
        rw [decimals] at read
        split at read
        · obtain ⟨⟨digits, left⟩, begun, same⟩ := Option.map_eq_some_iff.mp read
          obtain ⟨rfl, rfl⟩ := Prod.mk.inj same
          rw [(digits1_eq_some_iff.mp begun).1, List.cons_append]
        · obtain ⟨rfl, rfl⟩ := Prod.mk.inj (Option.some.inj read)
          rfl
  readsOn {text} _ _ _ ended read := by
    cases text with
    | nil =>
        obtain ⟨rfl, rfl⟩ := Prod.mk.inj (Option.some.inj read)
        exact decimals_of_ended ended
    | cons letter text =>
        rw [decimals] at read
        rw [List.cons_append, decimals]
        split at read
        · rename_i isPoint
          obtain ⟨⟨digits, left⟩, begun, same⟩ := Option.map_eq_some_iff.mp read
          obtain ⟨rfl, rfl⟩ := Prod.mk.inj same
          rw [if_pos isPoint, digits1_append ended.noDigitFirst begun, Option.map_some]
        · rename_i noPoint
          obtain ⟨rfl, rfl⟩ := Prod.mk.inj (Option.some.inj read)
          rw [if_neg noPoint, List.cons_append]

theorem sign_split (text : List Char) : text = (sign text).1 ++ (sign text).2 := by
  cases text with
  | nil => rfl
  | cons letter text =>
      rw [sign]
      split <;> rfl

theorem sign_append
    {text : List Char} (more : List Char)
    (filled : text ≠ []) :
    sign (text ++ more) = ((sign text).1, (sign text).2 ++ more) := by
  cases text with
  | nil => exact absurd rfl filled
  | cons letter text =>
      rw [List.cons_append, sign, sign]
      split <;> rfl

theorem spells_exponent : Spells exponent where
  spelled {text} _ _ read := by
    cases text with
    | nil =>
        obtain ⟨rfl, rfl⟩ := Prod.mk.inj (Option.some.inj read)
        rfl
    | cons letter text =>
        rw [exponent] at read
        split at read
        · obtain ⟨⟨digits, left⟩, begun, same⟩ := Option.map_eq_some_iff.mp read
          obtain ⟨rfl, rfl⟩ := Prod.mk.inj same
          rw [List.cons_append, List.append_assoc, ← (digits1_eq_some_iff.mp begun).1,
            ← sign_split]
        · obtain ⟨rfl, rfl⟩ := Prod.mk.inj (Option.some.inj read)
          rfl
  readsOn {text} _ _ more ended read := by
    cases text with
    | nil =>
        obtain ⟨rfl, rfl⟩ := Prod.mk.inj (Option.some.inj read)
        exact exponent_of_ended ended
    | cons letter text =>
        rw [exponent] at read
        rw [List.cons_append, exponent]
        split at read
        · rename_i isLetter
          obtain ⟨⟨digits, left⟩, begun, same⟩ := Option.map_eq_some_iff.mp read
          obtain ⟨rfl, rfl⟩ := Prod.mk.inj same
          have filled : text ≠ [] := by
            rintro rfl
            cases begun
          rw [if_pos isLetter, sign_append more filled,
            digits1_append ended.noDigitFirst begun, Option.map_some]
        · rename_i noLetter
          obtain ⟨rfl, rfl⟩ := Prod.mk.inj (Option.some.inj read)
          rw [if_neg noLetter, List.cons_append]

theorem numeral_eq_some_iff
    {text whole further rest : List Char} :
    numeral text = some ((whole, further), rest) ↔
      ∃ left right point power, wholePart text = some (whole, left) ∧
        decimals left = some (point, right) ∧ exponent right = some (power, rest) ∧
        further = point ++ power := by
  simp only [numeral, bind, Option.bind_eq_some_iff, Prod.exists, Option.some.injEq,
    Prod.mk.injEq]
  constructor
  · rintro ⟨_, left, begun, point, right, went, power, _, ended, ⟨rfl, rfl⟩, rfl⟩
    exact ⟨left, right, point, power, begun, went, ended, rfl⟩
  · rintro ⟨left, right, point, power, begun, went, ended, rfl⟩
    exact ⟨whole, left, begun, point, right, went, power, rest, ended, ⟨rfl, rfl⟩, rfl⟩

theorem numeral_append
    {text whole further rest more : List Char}
    (ended : Ended more)
    (read : numeral text = some ((whole, further), rest)) :
    numeral (text ++ more) = some ((whole, further), rest ++ more) := by
  obtain ⟨left, right, point, power, begun, went, stopped, same⟩ := numeral_eq_some_iff.mp read
  exact numeral_eq_some_iff.mpr ⟨left ++ more, right ++ more, point, power,
    spells_wholePart.readsOn ended begun, spells_decimals.readsOn ended went,
    spells_exponent.readsOn ended stopped, same⟩

theorem numeral_spelled
    {text whole further rest : List Char}
    (read : numeral text = some ((whole, further), rest)) :
    text = whole ++ further ++ rest := by
  obtain ⟨left, right, point, power, begun, went, stopped, rfl⟩ := numeral_eq_some_iff.mp read
  rw [spells_wholePart.spelled begun, spells_decimals.spelled went,
    spells_exponent.spelled stopped]
  simp only [List.append_assoc]

theorem numeral_begins
    {text whole further rest : List Char}
    (read : numeral text = some ((whole, further), rest)) :
    ∃ first letters, text = first :: letters ∧ first.isDigit = true := by
  obtain ⟨left, right, point, power, begun, _⟩ := numeral_eq_some_iff.mp read
  obtain ⟨rfl, filled, areDigits, _⟩ :=
    digits1_eq_some_iff.mp (wholePart_eq_some_iff.mp begun).1
  obtain ⟨first, digits, rfl⟩ := List.exists_cons_of_ne_nil filled
  exact ⟨first, digits ++ left, rfl, areDigits first List.mem_cons_self⟩

theorem isUnsignedDecimal_iff
    {text : List Char} :
    isUnsignedDecimal text = true ↔
      ∃ whole further, further ≠ [] ∧ numeral text = some ((whole, further), []) := by
  unfold isUnsignedDecimal
  constructor
  · intro proper
    split at proper
    · rename_i whole further rest read
      obtain ⟨filled, nothing⟩ := Bool.and_eq_true_iff.mp proper
      obtain rfl := List.isEmpty_iff.mp nothing
      exact ⟨whole, further, by simpa using filled, read⟩
    · cases proper
  · rintro ⟨whole, further, filled, read⟩
    simp [read, filled]

theorem magnitude_decimal
    (negative : Bool) {text rest : List Char}
    (ended : Ended rest)
    (unsigned : isUnsignedDecimal text = true)
    (proper : isDecimal ((if negative then ['-'] else []) ++ text) = true) :
    magnitude .kept negative (text ++ rest) = some (.decimal ⟨_, proper⟩, rest) := by
  obtain ⟨whole, further, filled, read⟩ := isUnsignedDecimal_iff.mp unsigned
  obtain rfl : text = whole ++ further := by simpa using numeral_spelled read
  have notWhole : further.isEmpty = false := by simpa using filled
  unfold magnitude
  rw [numeral_append ended read]
  simp only [bind, Option.bind_some, List.nil_append, number?, notWhole, Bool.false_eq_true,
    if_false, List.append_assoc, proper, dif_pos, Option.map_some, reduceCtorEq]

theorem value_of_digit
    {first : Char} (depth : Nat) (rest : List Char)
    (isDigit : first.isDigit = true) :
    value .kept depth (first :: rest) = magnitude .kept false (first :: rest) := by
  have differs (letter : Char) (notDigit : letter.isDigit = false) : first ≠ letter :=
    ne_of_isDigit isDigit notDigit
  rw [value.eq_def]
  simp [differs 'n' (by decide), differs 't' (by decide), differs 'f' (by decide),
    differs '"' (by decide), differs '-' (by decide), differs '[' (by decide),
    differs '\x7b' (by decide)]

theorem letters_ofNat (whole : Nat) : (Json.int (.ofNat whole)).letters = Nat.toDigits 10 whole :=
  Nat.toList_repr

theorem letters_negSucc (lesser : Nat) :
    (Json.int (.negSucc lesser)).letters = '-' :: Nat.toDigits 10 (lesser + 1) := by
  have shown : toString (Int.negSucc lesser) = "-" ++ Nat.repr (lesser + 1) := rfl
  rw [letters, shown, String.toList_append, Nat.toList_repr]
  rfl

theorem value_decimal
    (depth : Nat) (number : Decimal) {rest : List Char}
    (ended : Ended rest) :
    value .kept depth (number.letters ++ rest) = some (.decimal number, rest) := by
  obtain ⟨letters, proper⟩ := number
  unfold isDecimal at proper
  split at proper
  · rename_i text
    rw [List.cons_append, value.eq_def]
    exact magnitude_decimal true ended proper proper
  · rename_i text
    obtain ⟨whole, further, _, read⟩ := isUnsignedDecimal_iff.mp proper
    obtain ⟨first, letters, rfl, isDigit⟩ := numeral_begins read
    rw [List.cons_append, value_of_digit depth _ isDigit]
    exact magnitude_decimal false ended proper _

theorem Decimal.begins (number : Decimal) :
    ∃ first rest, number.letters = first :: rest ∧ (first.isDigit = true ∨ first = '-') := by
  obtain ⟨letters, proper⟩ := number
  unfold isDecimal at proper
  split at proper
  · exact ⟨'-', _, rfl, .inr rfl⟩
  · obtain ⟨_, _, _, read⟩ := isUnsignedDecimal_iff.mp proper
    obtain ⟨first, rest, rfl, isDigit⟩ := numeral_begins read
    exact ⟨first, rest, rfl, .inl isDigit⟩

theorem toDigits_begin (whole : Nat) :
    ∃ first digits, Nat.toDigits 10 whole = first :: digits ∧ first.isDigit = true := by
  obtain ⟨first, digits, split⟩ :=
    List.exists_cons_of_ne_nil (Nat.toDigits_ne_nil (n := whole) (b := 10))
  have member : first ∈ Nat.toDigits 10 whole := split ▸ List.mem_cons_self
  exact ⟨first, digits, split, isDigit_of_toDigits member⟩

theorem value_int
    (depth : Nat) (held : Int) {rest : List Char}
    (ended : Ended rest) :
    value .kept depth ((Json.int held).letters ++ rest) =
      if -(2 ^ 63) ≤ held ∧ held < 2 ^ 64 then some (.int held, rest) else none := by
  cases held with
  | ofNat whole =>
      obtain ⟨first, digits, split, isDigit⟩ := toDigits_begin whole
      have range : inRange false whole = true ↔
          -(2 ^ 63) ≤ Int.ofNat whole ∧ Int.ofNat whole < 2 ^ 64 := by
        simp only [inRange, Bool.false_eq_true, if_false, decide_eq_true_eq, Int.ofNat_eq_natCast]
        omega
      rw [letters_ofNat, split, List.cons_append, value_of_digit depth _ isDigit,
        ← List.cons_append, ← split, magnitude_toDigits false whole ended]
      simp only [range, Bool.false_eq_true, if_false, Int.ofNat_eq_natCast]
  | negSucc lesser =>
      have range : inRange true (lesser + 1) = true ↔
          -(2 ^ 63) ≤ Int.negSucc lesser ∧ Int.negSucc lesser < 2 ^ 64 := by
        simp only [inRange, if_true, Bool.and_eq_true, decide_eq_true_eq]
        omega
      have read := magnitude_toDigits true (lesser + 1) ended
      simp only [range, if_true] at read
      rw [letters_negSucc, List.cons_append, value.eq_def]
      exact read

end Numbers

section Lists

/-- Texts one after another with commas between them. -/
def joined : List (List Char) → List Char
  | [] => []
  | [text] => text
  | text :: texts => text ++ ',' :: joined texts

theorem itemLetters_eq :
    ∀ items : List Json, itemLetters items = joined (items.map letters)
  | [] => rfl
  | [_] => rfl
  | item :: next :: items => by
      rw [itemLetters, itemLetters_eq (next :: items)]
      · rfl
      · exact List.cons_ne_nil next items

/-- A field as it is written. -/
def fieldText (field : String × Json) : List Char :=
  quote field.1 ++ ':' :: field.2.letters

theorem fieldLetters_eq :
    ∀ fields : List (String × Json), fieldLetters fields = joined (fields.map fieldText)
  | [] => rfl
  | [_] => rfl
  | field :: next :: fields => by
      rw [fieldLetters, fieldLetters_eq (next :: fields)]
      · simp [joined, fieldText]
      · exact List.cons_ne_nil next fields

/-- A text that begins with a mark at which an item ends. -/
def Stops (text : List Char) : Prop :=
  ∃ mark ∈ text.head?, mark = ',' ∨ mark = ']' ∨ mark = '\x7d'

/-- A text that begins as an item does, with neither a blank nor a closing mark. -/
def Opens (text : List Char) : Prop :=
  ∃ first ∈ text.head?, isBlank first = false ∧ first ≠ ']' ∧ first ≠ '\x7d'

theorem Stops.ended
    {text : List Char}
    (stops : Stops text) :
    Ended text := by
  obtain ⟨mark, isFirst, marks⟩ := stops
  intro first alsoFirst
  cases Option.mem_unique isFirst alsoFirst
  rcases marks with rfl | rfl | rfl <;> decide

theorem Opens.append
    {text : List Char} (rest : List Char)
    (opens : Opens text) :
    Opens (text ++ rest) := by
  obtain ⟨first, isFirst, opening⟩ := opens
  exact ⟨first, by simp [Option.mem_def.mp isFirst], opening⟩

theorem Opens.skipBlanks
    {text : List Char}
    (opens : Opens text) :
    skipBlanks text = text := by
  obtain ⟨first, isFirst, notBlank, _⟩ := opens
  cases text with
  | nil => cases isFirst
  | cons head text =>
      obtain rfl : head = first := by simpa using isFirst
      exact List.dropWhile_cons_of_neg (by simp [notBlank])

variable {α β : Type}

/-- The text of an item is taken off the front by a reader, with the given outcome. -/
structure Legible (item : Reader β) (text : List Char) (outcome : Option β) : Prop where
  opens : Opens text
  reads : ∀ rest, Stops rest → item (text ++ rest) = outcome.map (·, rest)

variable {close : Char} {item : Reader β} {write : α → List Char} {outcome : α → Option β}

theorem separated_joined
    {fuel : Nat} {entries : List α} (rest : List Char)
    (closes : close = ']' ∨ close = '\x7d')
    (filled : entries ≠ [])
    (enough : entries.length ≤ fuel)
    (legible : ∀ entry ∈ entries, Legible item (write entry) (outcome entry)) :
    separated close item fuel (joined (entries.map write) ++ close :: rest) =
      (entries.mapM outcome).map (·, rest) := by
  have closing : skipBlanks (close :: rest) = close :: rest ∧ close ≠ ',' := by
    rcases closes with rfl | rfl <;> exact ⟨rfl, by decide⟩
  induction entries generalizing fuel with
  | nil => exact absurd rfl filled
  | cons entry others ih =>
      obtain ⟨fuel, rfl⟩ := Nat.exists_eq_succ_of_ne_zero (Nat.ne_zero_of_lt enough)
      have isLegible := legible entry List.mem_cons_self
      cases others with
      | nil =>
          have stops : Stops (close :: rest) := ⟨close, rfl, .inr closes⟩
          simp only [List.map_cons, List.map_nil, joined, separated]
          rw [(isLegible.opens.append _).skipBlanks, isLegible.reads _ stops]
          cases result : outcome entry with
          | none => simp [result]
          | some held => simp [result, closing]
      | cons next others =>
          have stops (text : List Char) : Stops (',' :: text) := ⟨',', rfl, .inl rfl⟩
          have further := ih (List.cons_ne_nil _ _) (Nat.le_of_succ_le_succ enough)
            fun entry member => legible entry (List.mem_cons_of_mem _ member)
          simp only [List.map_cons, joined, separated, List.append_assoc, List.cons_append]
            at further ⊢
          rw [(isLegible.opens.append _).skipBlanks, isLegible.reads _ (stops _)]
          have comma (text : List Char) : skipBlanks (',' :: text) = ',' :: text := rfl
          cases result : outcome entry with
          | none => simp [result]
          | some held =>
              rw [List.mapM_cons, result]
              simp only [Option.map_some, bind, Option.bind_some, comma, further]
              cases (next :: others).mapM outcome <;> rfl

theorem length_joined
    {entries : List α}
    (opens : ∀ entry ∈ entries, Opens (write entry)) :
    entries.length ≤ (joined (entries.map write)).length := by
  induction entries with
  | nil => exact Nat.le_refl 0
  | cons entry others ih =>
      have positive : 1 ≤ (write entry).length := by
        obtain ⟨first, isFirst, _⟩ := opens entry List.mem_cons_self
        cases written : write entry with
        | nil => rw [written] at isFirst; cases isFirst
        | cons _ _ => simp
      have further := ih fun other member => opens other (List.mem_cons_of_mem _ member)
      cases others with
      | nil => exact positive
      | cons next others =>
          simp only [List.map_cons, joined, List.length_append, List.length_cons] at further ⊢
          omega

theorem enclosed_joined
    {entries : List α} (rest : List Char)
    (closes : close = ']' ∨ close = '\x7d')
    (legible : ∀ entry ∈ entries, Legible item (write entry) (outcome entry)) :
    enclosed close item (joined (entries.map write) ++ close :: rest) =
      (entries.mapM outcome).map (·, rest) := by
  cases entries with
  | nil => rcases closes with rfl | rfl <;> rfl
  | cons entry others =>
      have opens : Opens (joined ((entry :: others).map write) ++ close :: rest) := by
        have isFirst := (legible entry List.mem_cons_self).opens
        cases others with
        | nil => exact isFirst.append _
        | cons next others =>
            rw [List.map_cons, List.map_cons, joined]
            · exact (isFirst.append _).append _
            · exact List.cons_ne_nil _ _
      have enough : (entry :: others).length ≤
          (joined ((entry :: others).map write) ++ close :: rest).length + 1 := by
        have shorter := length_joined fun entry member => (legible entry member).opens
        rw [List.length_append]
        omega
      have read := separated_joined rest closes (List.cons_ne_nil _ _) enough legible
      unfold enclosed
      rw [opens.skipBlanks]
      obtain ⟨first, isFirst, _, notList, notFields⟩ := opens
      generalize joined ((entry :: others).map write) ++ close :: rest = text at *
      cases text with
      | nil => cases isFirst
      | cons head text =>
          obtain rfl : head = first := by simpa using isFirst
          have notClosing : head ≠ close := by
            rcases closes with rfl | rfl <;> assumption
          simp only [notClosing, if_false]
          exact read

end Lists

section Values

mutual

/-- Can the value be read again where lists and objects may be nested so deep?  Its whole
numbers must have 64 bits. -/
def fits : Nat → Json → Bool
  | _, .null => true
  | _, .bool _ => true
  | _, .int held => -(2 ^ 63) ≤ held && held < 2 ^ 64
  | _, .decimal _ => true
  | _, .str _ => true
  | 0, .arr _ => false
  | depth + 1, .arr items => fitsItems depth items
  | 0, .obj _ => false
  | depth + 1, .obj fields => fitsFields depth fields

def fitsItems : Nat → List Json → Bool
  | _, [] => true
  | depth, item :: items => fits depth item && fitsItems depth items

def fitsFields : Nat → List (String × Json) → Bool
  | _, [] => true
  | depth, field :: fields => fits depth field.2 && fitsFields depth fields

end

/-- What is read where a value stands. -/
def reread (depth : Nat) (held : Json) : Option Json :=
  if held.fits depth then some held else none

/-- What is read where a field stands, after what is done with its value. -/
def rereadField {γ : Type} (depth : Nat) (keep : Json → γ) (field : String × Json) :
    Option (String × γ) :=
  (field.2.reread depth).map fun held => (field.1, keep held)

theorem mapM_reread
    (depth : Nat) (items : List Json) :
    items.mapM (reread depth) = if fitsItems depth items then some items else none := by
  induction items with
  | nil => rfl
  | cons item items ih =>
      rw [List.mapM_cons, ih, fitsItems]
      cases fit : item.fits depth <;> cases fitsItems depth items <;> simp [reread, fit]

theorem mapM_rereadField
    {γ : Type} (depth : Nat) (keep : Json → γ) (fields : List (String × Json)) :
    fields.mapM (rereadField depth keep) =
      if fitsFields depth fields then some (fields.map fun field => (field.1, keep field.2))
      else none := by
  induction fields with
  | nil => rfl
  | cons field fields ih =>
      rw [List.mapM_cons, ih, fitsFields]
      cases fit : field.2.fits depth <;> cases fitsFields depth fields <;>
        simp [rereadField, reread, fit]

theorem opens_of_digit
    {first : Char} (rest : List Char)
    (isDigit : first.isDigit = true) :
    Opens (first :: rest) := by
  have differs (letter : Char) (notDigit : letter.isDigit = false) : first ≠ letter :=
    ne_of_isDigit isDigit notDigit
  refine ⟨first, rfl, ?_, differs ']' (by decide), differs '\x7d' (by decide)⟩
  simp [isBlank, differs ' ' (by decide), differs '\n' (by decide), differs '\t' (by decide),
    differs '\r' (by decide)]

theorem opens_letters (held : Json) : Opens held.letters := by
  cases held with
  | null => exact ⟨'n', rfl, by decide⟩
  | bool value => cases value <;> exact ⟨_, rfl, by decide⟩
  | int value =>
      cases value with
      | ofNat whole =>
          obtain ⟨first, digits, split, isDigit⟩ := toDigits_begin whole
          rw [letters_ofNat, split]
          exact opens_of_digit digits isDigit
      | negSucc lesser =>
          rw [letters_negSucc]
          exact ⟨'-', rfl, by decide⟩
  | decimal number =>
      obtain ⟨first, rest, split, isDigit | rfl⟩ := number.begins
      · rw [letters, split]
        exact opens_of_digit rest isDigit
      · rw [letters, split]
        exact ⟨'-', rfl, by decide⟩
  | str text => exact ⟨'"', rfl, by decide⟩
  | arr items => exact ⟨'[', rfl, by decide⟩
  | obj fields => exact ⟨'\x7b', rfl, by decide⟩

theorem legible_field
    {γ : Type} {read : String → Reader γ} {keep : Json → γ} {depth : Nat}
    (field : String × Json)
    (reads : ∀ rest, Ended rest → read field.1 (field.2.letters ++ rest) =
      (field.2.reread depth).map fun held => (keep held, rest)) :
    Legible (fieldOf .kept read) (fieldText field) (rereadField depth keep field) := by
  refine ⟨⟨'"', rfl, by decide⟩, fun rest stops => ?_⟩
  have colon (text : List Char) : skipBlanks (':' :: text) = ':' :: text := rfl
  simp only [fieldOf, fieldText, List.append_assoc, List.cons_append, quoted_quote, bind,
    Option.bind_some, colon]
  rw [((opens_letters field.2).append rest).skipBlanks, reads rest stops.ended, rereadField]
  cases field.2.reread depth <;> rfl

theorem value_letters
    (depth : Nat) (held : Json) {rest : List Char}
    (ended : Ended rest) :
    value .kept depth (held.letters ++ rest) = (held.reread depth).map (·, rest) := by
  -- What lists and objects hold is read one level deeper.
  induction depth using Nat.strongRecOn generalizing held rest with
  | ind depth ih =>
      cases held with
      | null =>
          rw [value.eq_def]
          rfl
      | bool truth =>
          rw [value.eq_def]
          cases truth <;> rfl
      | int whole =>
          rw [value_int depth whole ended]
          simp only [reread, fits, Bool.and_eq_true, decide_eq_true_eq]
          split <;> rfl
      | decimal number =>
          rw [letters, value_decimal depth number ended, reread, fits]
          rfl
      | str text =>
          have read := quoted_quote text rest
          rw [value.eq_def]
          simp only [letters, quote, List.cons_append] at read ⊢
          rw [read]
          rfl
      | arr items =>
          cases depth with
          | zero => rfl
          | succ depth =>
              have legible : ∀ item ∈ items,
                  Legible (value .kept depth) item.letters (item.reread depth) := fun item _ =>
                ⟨opens_letters item, fun rest stops =>
                  ih depth (Nat.lt_succ_self depth) item stops.ended⟩
              have read := enclosed_joined rest (.inl rfl) legible
              rw [← itemLetters_eq, mapM_reread] at read
              rw [value.eq_def]
              simp only [letters, List.append_assoc, List.cons_append, List.nil_append, read]
              by_cases fit : fitsItems depth items = true <;> simp [reread, fits, fit]
      | obj fields =>
          cases depth with
          | zero => rfl
          | succ depth =>
              have legible : ∀ field ∈ fields,
                  Legible (fieldOf .kept fun _ => value .kept depth) (fieldText field)
                    (rereadField depth id field) := fun field _ =>
                legible_field field fun rest ended =>
                  ih depth (Nat.lt_succ_self depth) field.2 ended
              have read := enclosed_joined rest (.inr rfl) legible
              rw [← fieldLetters_eq, mapM_rereadField] at read
              rw [value.eq_def]
              simp only [letters, List.append_assoc, List.cons_append, List.nil_append, read]
              by_cases fit : fitsFields depth fields = true <;> simp [reread, fits, fit]

end Values

section Records

variable {names : List String} {fields : List (String × Json)}

theorem legible_namedField
    (depth : Nat) {field : String × Json}
    (named : field.1 ∈ names) :
    Legible (fieldOf .kept fun key text =>
      if names.contains key then
        (value .kept depth text).map fun (held, rest) => (some held, rest)
      else (skip text).map fun (_, rest) => (none, rest))
      (fieldText field) (rereadField depth some field) := by
  refine legible_field field fun rest ended => ?_
  rw [if_pos (List.contains_iff_mem.mpr named), value_letters depth field.2 ended,
    Option.map_map]
  rfl

theorem namedFields_letters
    (depth : Nat) (rest : List Char)
    (named : ∀ field ∈ fields, field.1 ∈ names) :
    namedFields names depth (fieldLetters fields ++ '\x7d' :: rest) =
      if fitsFields depth fields then some (fields, rest) else none := by
  have read := enclosed_joined rest (.inr rfl) fun field member =>
    legible_namedField depth (named field member)
  rw [← fieldLetters_eq, mapM_rereadField] at read
  unfold namedFields
  rw [read]
  by_cases fit : fitsFields depth fields = true
  · simp only [fit, if_true, Option.map_some, bind, Option.bind_some, List.filterMap_map]
    exact congrArg (fun kept => some (kept, rest)) List.filterMap_some
  · simp [fit]

theorem whole?_of_reads
    {α : Type} {read : Reader α} {text : List Char} {outcome : Option α}
    (opens : Opens text)
    (reads : read text = outcome.map (·, [])) :
    whole? read (String.ofList text) = outcome := by
  unfold whole?
  rw [String.toList_ofList, opens.skipBlanks, reads]
  cases outcome <;> rfl

/-- A written value is read again as it was, if it fits. -/
theorem parse?_render (held : Json) :
    parse? held.render = if held.fits maxDepth then some held else none := by
  have reads := value_letters maxDepth held (show Ended [] by simp [Ended])
  rw [List.append_nil] at reads
  exact whole?_of_reads (opens_letters held) reads

theorem record?_render
    (required : Nat)
    (named : ∀ field ∈ fields, field.1 ∈ names)
    (distinct : (fields.map Prod.fst).Nodup) :
    record? names required (Json.obj fields).render =
      if fitsFields (maxDepth - 1) fields then some (Table.ofList fields) else none := by
  have reads : record names required maxDepth (Json.obj fields).letters =
      (if fitsFields (maxDepth - 1) fields then some fields else none).map (·, []) := by
    have read := namedFields_letters (maxDepth - 1) [] named
    have depth : maxDepth = (maxDepth - 1) + 1 := rfl
    rw [depth, letters, List.cons_append, record, read]
    by_cases fit : fitsFields (maxDepth - 1) fields = true <;> simp [fit, distinct]
  unfold record?
  rw [render, whole?_of_reads (opens_letters _) reads]
  split <;> rfl

end Records

end Statechart.Json
