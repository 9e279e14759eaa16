import Statechart.Json.Parser
import Statechart.Json.Printer

/-!
# Identifiers of checkpoints

A number of 128 bits.  It is written as thirty-two lower-case hexadecimal digits in
groups of eight, four, four, four and twelve, joined by hyphens.  It may be read with
digits of either case, without hyphens, in braces or after `urn:uuid:`.
-/

namespace Statechart

/-- A number of 128 bits. -/
structure Uuid where
  value : Nat
  deriving DecidableEq, Inhabited

namespace Uuid

def hexDigits? (letters : List Char) : Option Nat :=
  letters.foldlM (fun value letter => do
    return value * 16 + (← Json.hexValue? letter)) 0

def plain? (letters : List Char) : Option Uuid :=
  if letters.length = 32 then (hexDigits? letters).map Uuid.mk else none

def grouped? (letters : List Char) : Option Uuid :=
  if letters.length = 36 &&
      letters.zipIdx.all fun (letter, position) =>
        (letter = '-') == ([8, 13, 18, 23].contains position) then
    plain? (letters.filter fun letter => letter ≠ '-')
  else none

/-- Read an identifier without what may stand around it. -/
def bare? (letters : List Char) : Option (List Char) :=
  match letters with
  | '\x7b' :: rest =>
      match rest.getLast? with
      | some '\x7d' => some rest.dropLast
      | _ => none
  | letters => "urn:uuid:".toList.isPrefixOf? letters

def parse? (text : String) : Option Uuid :=
  let letters := text.toList
  match plain? letters, grouped? letters with
  | some id, _ => some id
  | none, some id => some id
  | none, none => (bare? letters).bind grouped?

/-- The lowest `count` hexadecimal digits of a number. -/
def digits (value : Nat) (count : Nat) : String :=
  String.ofList ((List.range count).reverse.map fun position =>
    Json.hexDigit (value >>> (4 * position) % 16))

def text (id : Uuid) : String :=
  "-".intercalate
    [digits (id.value >>> 96) 8, digits (id.value >>> 80) 4,
      digits (id.value >>> 64) 4, digits (id.value >>> 48) 4, digits id.value 12]

end Uuid

end Statechart
