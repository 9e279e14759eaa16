import Statechart.Json.Number
import Statechart.Table

/-!
# JSON values

Payloads, contexts and outputs are JSON values.  Their numbers are integers, or decimals
that are kept as they are written.  An object is a list of fields.  As read from a text the
fields stand as written; `Json.canonical` puts them in key order and lets the last of equal
keys win, and two canonical values without decimals are equal exactly when they are the same
JSON.
-/

namespace Statechart

/-- A JSON value. -/
inductive Json where
  | null
  | bool (value : Bool)
  | int (value : Int)
  | decimal (number : Json.Decimal)
  | str (value : String)
  | arr (items : List Json)
  | obj (fields : List (String × Json))
  deriving Inhabited

namespace Json

mutual

def same : Json → Json → Bool
  | .null, .null => true
  | .bool left, .bool right => left == right
  | .int left, .int right => left == right
  | .decimal left, .decimal right => left == right
  | .str left, .str right => left == right
  | .arr left, .arr right => sameItems left right
  | .obj left, .obj right => sameFields left right
  | _, _ => false

def sameItems : List Json → List Json → Bool
  | [], [] => true
  | left :: lefts, right :: rights => left.same right && sameItems lefts rights
  | _, _ => false

def sameFields : List (String × Json) → List (String × Json) → Bool
  | [], [] => true
  | left :: lefts, right :: rights =>
      left.1 == right.1 && left.2.same right.2 && sameFields lefts rights
  | _, _ => false

end

mutual

theorem eq_of_same {left right : Json} (equal : left.same right = true) : left = right := by
  cases left <;> cases right <;> simp_all [same]
  case arr.arr => exact eq_of_sameItems equal
  case obj.obj => exact eq_of_sameFields equal

theorem eq_of_sameItems {left right : List Json} (equal : sameItems left right = true) :
    left = right := by
  cases left <;> cases right <;> simp_all [sameItems]
  exact ⟨eq_of_same equal.1, eq_of_sameItems equal.2⟩

theorem eq_of_sameFields {left right : List (String × Json)}
    (equal : sameFields left right = true) : left = right := by
  match left, right with
  | [], [] => rfl
  | [], _ :: _ => simp [sameFields] at equal
  | _ :: _, [] => simp [sameFields] at equal
  | (leftKey, leftValue) :: lefts, (rightKey, rightValue) :: rights =>
      simp only [sameFields, Bool.and_eq_true, beq_iff_eq] at equal
      rw [equal.1.1, eq_of_same equal.1.2, eq_of_sameFields equal.2]

end

mutual

theorem same_self (value : Json) : value.same value = true := by
  cases value with
  | null => rfl
  | bool value => simp [same]
  | int value => simp [same]
  | decimal number => simp [same]
  | str value => simp [same]
  | arr items => exact sameItems_self items
  | obj fields => exact sameFields_self fields

theorem sameItems_self (items : List Json) : sameItems items items = true := by
  cases items with
  | nil => rfl
  | cons item items => simp [sameItems, same_self item, sameItems_self items]

theorem sameFields_self (fields : List (String × Json)) :
    sameFields fields fields = true := by
  match fields with
  | [] => rfl
  | (key, value) :: rest => simp [sameFields, same_self value, sameFields_self rest]

end

instance : DecidableEq Json := fun left right =>
  if equal : left.same right = true then isTrue (eq_of_same equal)
  else isFalse fun same => equal (same ▸ same_self left)

mutual

/-- Fields in key order, the last of equal keys winning, at every level. -/
def canonical : Json → Json
  | .null => .null
  | .bool value => .bool value
  | .int value => .int value
  | .decimal number => .decimal number
  | .str value => .str value
  | .arr items => .arr (canonicalItems items)
  | .obj fields => .obj (Table.ofList (canonicalFields fields))

def canonicalItems : List Json → List Json
  | [] => []
  | item :: items => item.canonical :: canonicalItems items

/-- Field counterpart of `canonical`; the fields still stand as written. -/
def canonicalFields : List (String × Json) → List (String × Json)
  | [] => []
  | field :: fields => (field.1, field.2.canonical) :: canonicalFields fields

end

/-- The object with these fields, the last of equal keys winning. -/
def ofFields (fields : List (String × Json)) : Json :=
  .obj (Table.ofList fields)

def field? (value : Json) (key : String) : Option Json :=
  match value with
  | .obj fields => Table.get? fields key
  | _ => none

/-- The object with one field set; anything but an object starts a fresh one. -/
def setField (value : Json) (key : String) (held : Json) : Json :=
  match value with
  | .obj fields => .obj (Table.insert key held fields)
  | _ => .obj [(key, held)]

def asString? : Json → Option String
  | .str text => some text
  | _ => none

def asList? : Json → Option (List Json)
  | .arr items => some items
  | _ => none

/-- An integer of the unsigned kind with this many values. -/
def asBelow? (bound : Nat) : Json → Option Nat
  | .int value => if 0 ≤ value && value.toNat < bound then some value.toNat else none
  | _ => none

def asStrings? (value : Json) : Option (List String) := do
  (← value.asList?).mapM asString?

def ofStrings (texts : List String) : Json :=
  .arr (texts.map .str)

end Json

end Statechart
