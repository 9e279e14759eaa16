import Statechart.Json.Basic

/-!
# Compact JSON text

`Json.render` writes a value without any space.  In a string only the quote, the
backslash and the characters below U+0020 are escaped.
-/

namespace Statechart.Json

/-- The lower-case hexadecimal digit of a number below sixteen. -/
def hexDigit (value : Nat) : Char :=
  if value < 10 then Char.ofNat (48 + value) else Char.ofNat (87 + value)

def escape (letter : Char) : List Char :=
  if letter = '"' then ['\\', '"']
  else if letter = '\\' then ['\\', '\\']
  else if letter = '\x08' then ['\\', 'b']
  else if letter = '\x0c' then ['\\', 'f']
  else if letter = '\n' then ['\\', 'n']
  else if letter = '\r' then ['\\', 'r']
  else if letter = '\t' then ['\\', 't']
  else if letter.toNat < 32 then
    ['\\', 'u', '0', '0', hexDigit (letter.toNat / 16), hexDigit (letter.toNat % 16)]
  else [letter]

def quote (text : String) : List Char :=
  '"' :: text.toList.flatMap escape ++ ['"']

mutual

def letters : Json → List Char
  | .null => ['n', 'u', 'l', 'l']
  | .bool true => ['t', 'r', 'u', 'e']
  | .bool false => ['f', 'a', 'l', 's', 'e']
  | .int value => (toString value).toList
  | .decimal number => number.letters
  | .str text => quote text
  | .arr items => '[' :: itemLetters items ++ [']']
  | .obj fields => '\x7b' :: fieldLetters fields ++ ['\x7d']

/-- The items of a list, separated by commas. -/
def itemLetters : List Json → List Char
  | [] => []
  | [item] => item.letters
  | item :: items => item.letters ++ ',' :: itemLetters items

/-- The fields of an object, separated by commas. -/
def fieldLetters : List (String × Json) → List Char
  | [] => []
  | [field] => quote field.1 ++ ':' :: field.2.letters
  | field :: fields => quote field.1 ++ ':' :: field.2.letters ++ ',' :: fieldLetters fields

end

def render (value : Json) : String :=
  String.ofList value.letters

/-- How a value reads inside a message: a string as it is, all else as compact text. -/
def shown : Json → String
  | .str text => text
  | value => value.render

end Statechart.Json
