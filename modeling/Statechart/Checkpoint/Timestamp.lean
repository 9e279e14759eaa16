/-!
# Points in time

A point in time is read from a date, a time of day and an offset, in the manner of
`2024-01-02T03:04:05.678+09:00`, and written in the same manner without offset.  Blanks
may stand before and after the numbers, years beyond four digits need a sign, and a
sixtieth second is kept apart from the next minute's first.
-/

namespace Statechart

/-- Time since the beginning of 1970, leap seconds not counted.  Within a leap second
there are more than 1000000000 nanoseconds. -/
structure Timestamp where
  seconds : Int
  nanos : Nat
  deriving DecidableEq, Inhabited

/-- A day of the calendar. -/
structure Date where
  year : Int
  month : Nat
  day : Nat
  deriving DecidableEq, Inhabited

namespace Date

def isLeap (year : Int) : Bool :=
  year % 4 = 0 && (year % 100 ≠ 0 || year % 400 = 0)

def monthLength (year : Int) (month : Nat) : Nat :=
  match month with
  | 2 => if isLeap year then 29 else 28
  | 4 | 6 | 9 | 11 => 30
  | _ => 31

/-- Is there such a year?  Years have a fixed range. -/
def hasYear (year : Int) : Bool := -262143 ≤ year && year ≤ 262142

def isValid (date : Date) : Bool :=
  hasYear date.year && 1 ≤ date.month && date.month ≤ 12 && 1 ≤ date.day &&
    date.day ≤ monthLength date.year date.month

/-- The months since the last March, with which a year begins here so that a leap day
ends it. -/
def marchMonth (date : Date) : Nat := (date.month + 9) % 12

/-- The year that began with the last March. -/
def marchYear (date : Date) : Int :=
  if date.month ≤ 2 then date.year - 1 else date.year

/-- The days since the first of March of the year 0. -/
def dayNumber (date : Date) : Int :=
  let year := date.marchYear
  365 * year + year / 4 - year / 100 + year / 400 +
    ((153 * date.marchMonth + 2) / 5 + date.day - 1 : Nat)

/-- The number of the first day of 1970. -/
def epoch : Int := 719468

def ofDayNumber (number : Int) : Date :=
  let era := number / 146097
  let dayOfEra := (number % 146097).toNat
  let yearOfEra :=
    (dayOfEra - dayOfEra / 1460 + dayOfEra / 36524 - dayOfEra / 146096) / 365
  let dayOfYear := dayOfEra - (365 * yearOfEra + yearOfEra / 4 - yearOfEra / 100)
  let month := (5 * dayOfYear + 2) / 153
  { year := era * 400 + yearOfEra + (if month < 10 then 0 else 1)
    month := if month < 10 then month + 3 else month - 9
    day := dayOfYear - (153 * month + 2) / 5 + 1 }

end Date

namespace Timestamp

def isWhite (letter : Char) : Bool :=
  let code := letter.toNat
  (0x9 ≤ code && code ≤ 0xD) || code = 0x20 || code = 0x85 || code = 0xA0 ||
    code = 0x1680 || (0x2000 ≤ code && code ≤ 0x200A) || code = 0x2028 ||
    code = 0x2029 || code = 0x202F || code = 0x205F || code = 0x3000

def trim (text : List Char) : List Char := text.dropWhile isWhite

def value (digits : List Char) : Nat :=
  digits.foldl (fun value digit => value * 10 + (digit.toNat - 48)) 0

/-- The digits at the front of a text, at most `width` of them, and the rest. -/
def splitDigits (width : Nat) (text : List Char) : List Char × List Char :=
  let digits := (text.take width).takeWhile Char.isDigit
  (digits, text.drop digits.length)

/-- A number of at most `width` digits, after white space. -/
def number (width : Nat) (text : List Char) : Option (Nat × List Char) :=
  match splitDigits width (trim text) with
  | ([], _) => none
  | (digits, rest) => some (value digits, rest)

/-- A mark, after white space. -/
def mark (letter : Char) (text : List Char) : Option (List Char) :=
  match trim text with
  | first :: rest => if first = letter then some rest else none
  | [] => none

/-- A year: four digits at most, or any number of them after a sign. -/
def year (text : List Char) : Option (Int × List Char) :=
  match trim text with
  | '-' :: rest =>
      match splitDigits rest.length rest with
      | ([], _) => none
      | (digits, rest) => some (-(value digits : Int), rest)
  | '+' :: rest =>
      match splitDigits rest.length rest with
      | ([], _) => none
      | (digits, rest) => some ((value digits : Int), rest)
  | text => (number 4 text).map fun (value, rest) => ((value : Int), rest)

/-- A fraction of a second in nanoseconds; digits after the ninth do not count. -/
def fraction (text : List Char) : Option (Nat × List Char) :=
  match text with
  | '.' :: rest =>
      match splitDigits 9 rest with
      | ([], _) => none
      | (digits, rest) =>
          let nanos := value (digits ++ List.replicate (9 - digits.length) '0')
          some (nanos, rest.dropWhile Char.isDigit)
  | _ => some (0, text)

def pair : List Char → Option (Nat × List Char)
  | first :: second :: rest =>
      if first.isDigit && second.isDigit then some (value [first, second], rest) else none
  | _ => none

/-- An offset in seconds, after its sign. -/
def offset (text : List Char) : Option (Nat × List Char) := do
  let (hours, rest) ← pair text
  let (minutes, rest) ← pair (rest.dropWhile fun letter => letter = ':' || isWhite letter)
  if minutes < 60 then some (hours * 3600 + minutes * 60, rest) else none

/-- The letters of the name of the zone without offset, in either case. -/
def isZoneName (letters : List Char) : Bool :=
  letters.map Char.toUpper = ['U', 'T', 'C']

def zone (text : List Char) : Option (Int × List Char) :=
  if isZoneName (text.take 3) then some (0, text.drop 3)
  else
    match text with
    | 'Z' :: rest => some (0, rest)
    | 'z' :: rest => some (0, rest)
    | '+' :: rest => (offset rest).map fun (value, rest) => ((value : Int), rest)
    | '-' :: rest => (offset rest).map fun (value, rest) => (-(value : Int), rest)
    | '−' :: rest => (offset rest).map fun (value, rest) => (-(value : Int), rest)
    | _ => none

def date (text : List Char) : Option (Date × List Char) := do
  let (year, rest) ← year text
  let (month, rest) ← number 2 (← mark '-' rest)
  let (day, rest) ← number 2 (← mark '-' rest)
  let date : Date := { year, month, day }
  if date.isValid then some (date, rest) else none

/-- A time of day in seconds, and nanoseconds. -/
def timeOfDay (text : List Char) : Option ((Nat × Nat) × List Char) := do
  let (hour, rest) ← number 2 text
  let (minute, rest) ← number 2 (← mark ':' rest)
  let (second, rest) ← number 2 (← mark ':' rest)
  let (nanos, rest) ← fraction rest
  if hour < 24 && minute < 60 && second ≤ 60 then
    let whole := hour * 3600 + minute * 60 + min second 59
    some ((whole, if second = 60 then 1000000000 + nanos else nanos), rest)
  else none

def separator : List Char → Option (List Char)
  | letter :: rest =>
      if letter = 'T' || letter = 't' || letter = ' ' then some rest else none
  | [] => none

def dateOf (time : Timestamp) : Date :=
  Date.ofDayNumber (Date.epoch + time.seconds / 86400)

def parse? (text : String) : Option Timestamp := do
  let (date, rest) ← date text.toList
  let ((whole, nanos), rest) ← timeOfDay (← separator rest)
  let (offset, rest) ← zone (trim rest)
  let time : Timestamp :=
    { seconds := (date.dayNumber - Date.epoch) * 86400 + whole - offset, nanos }
  if (trim rest).isEmpty && offset.natAbs < 86400 && Date.hasYear time.dateOf.year then
    some time
  else none

def padded (width value : Nat) : String :=
  let digits := toString value
  String.ofList (List.replicate (width - digits.length) '0') ++ digits

/-- A year: four digits, with a sign in front if that is not enough. -/
def yearText (year : Int) : String :=
  if 0 ≤ year && year ≤ 9999 then padded 4 year.toNat
  else (if year < 0 then "-" else "+") ++ padded 4 year.natAbs

/-- A fraction of a second with as many digits as needed: none, three, six or nine. -/
def fractionText (nanos : Nat) : String :=
  if nanos = 0 then ""
  else if nanos % 1000000 = 0 then "." ++ padded 3 (nanos / 1000000)
  else if nanos % 1000 = 0 then "." ++ padded 6 (nanos / 1000)
  else "." ++ padded 9 nanos

def text (time : Timestamp) : String :=
  let date := time.dateOf
  let second := (time.seconds % 86400).toNat
  let leap := 1000000000 ≤ time.nanos
  yearText date.year ++ "-" ++ padded 2 date.month ++ "-" ++ padded 2 date.day ++ "T" ++
    padded 2 (second / 3600) ++ ":" ++ padded 2 (second / 60 % 60) ++ ":" ++
    padded 2 (if leap then second % 60 + 1 else second % 60) ++
    fractionText (if leap then time.nanos - 1000000000 else time.nanos) ++ "Z"

end Timestamp

end Statechart
