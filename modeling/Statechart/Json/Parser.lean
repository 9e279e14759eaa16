import Statechart.Json.Basic

/-!
# Reading JSON text

`Json.parse?` reads a whole text; what follows the value may only be blank.  Lists and
objects may be nested `maxDepth` deep.  Numbers without decimals and exponent must be
integers of 64 bits, signed or unsigned.  Fields stay as written.

`Json.record?` reads a value with named fields: an object in which no named field is
repeated and other fields are skipped, or the list of the named fields in their order.
What is skipped is held to the grammar only, not to the depth or the range of values.
-/

namespace Statechart.Json

/-- How deep lists and objects may be nested. -/
def maxDepth : Nat := 127

/-- What is demanded of a value besides the grammar. -/
inductive Strictness where
  /-- The value is kept: escapes denote characters and whole numbers have 64 bits. -/
  | kept
  /-- The value is thrown away. -/
  | skipped
  deriving DecidableEq

/-- Blank characters between the parts of a text. -/
def isBlank (letter : Char) : Bool :=
  letter = ' ' || letter = '\n' || letter = '\t' || letter = '\r'

def skipBlanks (text : List Char) : List Char :=
  text.dropWhile isBlank

def expect (word : List Char) : Reader Unit := fun text =>
  (word.isPrefixOf? text).map fun rest => ((), rest)

/-- The value of a hexadecimal digit of either case. -/
def hexValue? (letter : Char) : Option Nat :=
  let code := letter.toNat
  if 48 ≤ code && code ≤ 57 then some (code - 48)
  else if 97 ≤ code && code ≤ 102 then some (code - 87)
  else if 65 ≤ code && code ≤ 70 then some (code - 55)
  else none

def hexWord : Reader Nat
  | first :: second :: third :: fourth :: rest => do
      let high := (← hexValue? first) * 16 + (← hexValue? second)
      let low := (← hexValue? third) * 16 + (← hexValue? fourth)
      some (high * 256 + low, rest)
  | _ => none

/-- The first half of a pair that together denotes a character beyond U+FFFF. -/
def isLeading (unit : Nat) : Bool := 0xD800 ≤ unit && unit ≤ 0xDBFF

def isTrailing (unit : Nat) : Bool := 0xDC00 ≤ unit && unit ≤ 0xDFFF

/-- The character of an escape after its backslash and `u`. -/
def unicodeEscape (strictness : Strictness) : Reader Char := fun text => do
  let (unit, rest) ← hexWord text
  if strictness = .skipped then some ('?', rest)
  else if isTrailing unit then none
  else if isLeading unit then
    match rest with
    | '\\' :: 'u' :: more => do
        let (second, rest) ← hexWord more
        if isTrailing second then
          some (Char.ofNat (0x10000 + (unit - 0xD800) * 0x400 + (second - 0xDC00)), rest)
        else none
    | _ => none
  else some (Char.ofNat unit, rest)

/-- The characters of a string up to its closing quote.  `fuel` bounds their number. -/
def stringBody (strictness : Strictness) : Nat → List Char → Reader (List Char)
  | 0, _, _ => none
  | fuel + 1, seen, text =>
      match text with
      | [] => none
      | '"' :: rest => some (seen.reverse, rest)
      | '\\' :: '"' :: rest => stringBody strictness fuel ('"' :: seen) rest
      | '\\' :: '\\' :: rest => stringBody strictness fuel ('\\' :: seen) rest
      | '\\' :: '/' :: rest => stringBody strictness fuel ('/' :: seen) rest
      | '\\' :: 'b' :: rest => stringBody strictness fuel ('\x08' :: seen) rest
      | '\\' :: 'f' :: rest => stringBody strictness fuel ('\x0c' :: seen) rest
      | '\\' :: 'n' :: rest => stringBody strictness fuel ('\n' :: seen) rest
      | '\\' :: 'r' :: rest => stringBody strictness fuel ('\r' :: seen) rest
      | '\\' :: 't' :: rest => stringBody strictness fuel ('\t' :: seen) rest
      | '\\' :: 'u' :: rest => do
          let (letter, rest) ← unicodeEscape strictness rest
          stringBody strictness fuel (letter :: seen) rest
      | '\\' :: _ => none
      | letter :: rest =>
          if letter.toNat < 32 then none
          else stringBody strictness fuel (letter :: seen) rest

def quoted (strictness : Strictness) : Reader String
  | '"' :: text => do
      let (letters, rest) ← stringBody strictness (text.length + 1) [] text
      some (String.ofList letters, rest)
  | _ => none

/-- The largest magnitude of an integer with this sign, minus zero being none. -/
def inRange (negative : Bool) (magnitude : Nat) : Bool :=
  if negative then 0 < magnitude && magnitude ≤ 1 <<< 63 else magnitude < 1 <<< 64

/-- The number that stands for its first digits and further letters. -/
def number? (negative : Bool) (whole further : List Char) : Option Json :=
  if further.isEmpty then
    let magnitude := digitsValue whole
    if inRange negative magnitude then
      some (.int (if negative then -(magnitude : Int) else magnitude))
    else none
  else
    let letters := (if negative then ['-'] else []) ++ whole ++ further
    if proper : isDecimal letters = true then some (.decimal ⟨letters, proper⟩) else none

def magnitude (strictness : Strictness) (negative : Bool) : Reader Json := fun text => do
  let ((whole, further), rest) ← numeral text
  if strictness = .skipped then some (.null, rest)
  else (number? negative whole further).map (·, rest)

/-- Items separated by commas up to `close`; the opening mark has been read.  `fuel`
bounds their number. -/
def separated {α : Type} (close : Char) (item : Reader α) : Nat → Reader (List α)
  | 0, _ => none
  | fuel + 1, text => do
      let (first, rest) ← item (skipBlanks text)
      match skipBlanks rest with
      | ',' :: more => do
          let (others, rest) ← separated close item fuel more
          some (first :: others, rest)
      | letter :: more => if letter = close then some ([first], more) else none
      | [] => none

/-- Items separated by commas up to `close`, or no item at all. -/
def enclosed {α : Type} (close : Char) (item : Reader α) : Reader (List α) := fun text =>
  match skipBlanks text with
  | letter :: rest =>
      if letter = close then some ([], rest)
      else separated close item (text.length + 1) (letter :: rest)
  | [] => none

/-- A field: a quoted key, a colon and what `value` reads for that key. -/
def fieldOf {α : Type} (strictness : Strictness) (value : String → Reader α) :
    Reader (String × α) := fun text => do
  let (key, rest) ← quoted strictness text
  match skipBlanks rest with
  | ':' :: more => do
      let (held, rest) ← value key (skipBlanks more)
      some ((key, held), rest)
  | _ => none

/-- A value without leading blanks, nested at most `depth` deep. -/
def value (strictness : Strictness) : Nat → Reader Json
  | depth, text =>
    match text with
    | 'n' :: _ => (expect ['n', 'u', 'l', 'l'] text).map fun (_, rest) => (.null, rest)
    | 't' :: _ => (expect ['t', 'r', 'u', 'e'] text).map fun (_, rest) => (.bool true, rest)
    | 'f' :: _ =>
        (expect ['f', 'a', 'l', 's', 'e'] text).map fun (_, rest) => (.bool false, rest)
    | '"' :: _ => (quoted strictness text).map fun (held, rest) => (.str held, rest)
    | '-' :: rest => magnitude strictness true rest
    | '[' :: rest =>
        match depth with
        | 0 => none
        | depth + 1 => do
            let (items, rest) ← enclosed ']' (value strictness depth) rest
            some (.arr items, rest)
    | '\x7b' :: rest =>
        match depth with
        | 0 => none
        | depth + 1 => do
            let (fields, rest) ←
              enclosed '\x7d' (fieldOf strictness fun _ => value strictness depth) rest
            some (.obj fields, rest)
    | _ => magnitude strictness false text

/-- A value that is thrown away; no text nests deeper than it is long. -/
def skip : Reader Json := fun text =>
  value .skipped text.length text

/-- Fields of a record as read: those with a name, in the order written. -/
def namedFields (names : List String) (depth : Nat) : Reader (List (String × Json)) :=
  fun text => do
    let (fields, rest) ← enclosed '\x7d' (fieldOf .kept fun key text =>
      if names.contains key then
        (value .kept depth text).map fun (held, rest) => (some held, rest)
      else (skip text).map fun (_, rest) => (none, rest)) text
    some (fields.filterMap fun (key, held) => held.map fun held => (key, held), rest)

/-- A record: an object in which no named field is repeated, or the list of the named
fields, of which at least `required` must stand there. -/
def record (names : List String) (required : Nat) : Nat → Reader (List (String × Json))
  | 0, _ => none
  | depth + 1, text =>
      match text with
      | '\x7b' :: rest => do
          let (fields, rest) ← namedFields names depth rest
          if (fields.map Prod.fst).Nodup then some (fields, rest) else none
      | '[' :: rest => do
          let (items, rest) ← enclosed ']' (value .kept depth) rest
          if required ≤ items.length && items.length ≤ names.length then
            some (names.zip items, rest)
          else none
      | _ => none

/-- Read a whole text: blanks may stand around the value. -/
def whole? {α : Type} (read : Reader α) (text : String) : Option α := do
  let (held, rest) ← read (skipBlanks text.toList)
  if (skipBlanks rest).isEmpty then some held else none

/-- The value of a whole text, its fields as written. -/
def parse? (text : String) : Option Json :=
  whole? (value .kept maxDepth) text

/-- The fields of a record given as a whole text. -/
def record? (names : List String) (required : Nat) (text : String) :
    Option (Table String Json) :=
  (whole? (record names required maxDepth) text).map Table.ofList

/-- The records of a list given as a whole text. -/
def records? (names : List String) (required : Nat) (text : String) :
    Option (List (Table String Json)) :=
  whole? (fun text =>
    match text with
    | '[' :: rest =>
        (enclosed ']' (record names required (maxDepth - 1)) rest).map fun (held, rest) =>
          (held.map Table.ofList, rest)
    | _ => none) text

end Statechart.Json
