/-!
# Numbers in JSON text

A number is a run of digits, perhaps followed by decimals and by a power of ten.  One that
has either of them is kept by its letters, and told from others by these alone: what it is
worth, and which of the numbers of a fixed size is nearest to it, is left open.
-/

namespace Statechart.Json

/-- A reader takes what it needs from the front of a text and leaves the rest. -/
abbrev Reader (α : Type) := List Char → Option (α × List Char)

/-- The value of a run of decimal digits. -/
def digitsValue (digits : List Char) : Nat :=
  digits.foldl (fun value digit => value * 10 + (digit.toNat - 48)) 0

def digits1 : Reader (List Char) := fun text =>
  let digits := text.takeWhile Char.isDigit
  if digits.isEmpty then none else some (digits, text.dropWhile Char.isDigit)

/-- The digits of a number before any point: no zero stands before another digit. -/
def wholePart : Reader (List Char) := fun text => do
  let (digits, rest) ← digits1 text
  if digits.head? = some '0' && digits.length > 1 then none else some (digits, rest)

/-- A point and decimals, if a point stands there. -/
def decimals : Reader (List Char)
  | [] => some ([], [])
  | letter :: text =>
      if letter = '.' then
        (digits1 text).map fun (digits, rest) => (letter :: digits, rest)
      else some ([], letter :: text)

/-- A sign, if one stands there, and the rest of the text. -/
def sign : List Char → List Char × List Char
  | [] => ([], [])
  | letter :: text =>
      if letter = '+' || letter = '-' then ([letter], text) else ([], letter :: text)

/-- The letter of an exponent, its sign and its digits, if such a letter stands there. -/
def exponent : Reader (List Char)
  | [] => some ([], [])
  | letter :: text =>
      if letter = 'e' || letter = 'E' then
        (digits1 (sign text).2).map fun (digits, rest) =>
          (letter :: ((sign text).1 ++ digits), rest)
      else some ([], letter :: text)

/-- A number without its sign: its first digits, and the letters of its decimals and of its
exponent. -/
def numeral : Reader (List Char × List Char) := fun text => do
  let (whole, rest) ← wholePart text
  let (decimals, rest) ← decimals rest
  let (exponent, rest) ← exponent rest
  some ((whole, decimals ++ exponent), rest)

/-- Is this a number without sign that has decimals or an exponent? -/
def isUnsignedDecimal (text : List Char) : Bool :=
  match numeral text with
  | some ((_, further), rest) => !further.isEmpty && rest.isEmpty
  | none => false

/-- Is this a number that has decimals or an exponent? -/
def isDecimal : List Char → Bool
  | '-' :: text => isUnsignedDecimal text
  | text => isUnsignedDecimal text

/-- A number with decimals or an exponent, by its letters. -/
structure Decimal where
  letters : List Char
  proper : isDecimal letters = true
  deriving DecidableEq

end Statechart.Json
