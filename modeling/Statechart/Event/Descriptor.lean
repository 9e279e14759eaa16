import Statechart.Event.Basic

/-!
# Event descriptors

What a transition listens for: one event type, a stem with all its dotted extensions,
every event, or no event at all.  When several descriptors of one state match an event,
the lower rank is tried first: exact ones, then stems, longer ones before shorter ones,
then the wildcard.
-/

namespace Statechart

/-- What a transition listens for. -/
inductive Descriptor where
  /-- One event type. -/
  | exact (type : String)
  /-- A stem and every dotted extension of it. -/
  | family (stem : String)
  /-- Every event. -/
  | wildcard
  /-- No event: taken as soon as it is enabled. -/
  | always
  deriving DecidableEq, Inhabited

namespace Descriptor

/-- The stem before a final point and star, if there is one. -/
def stem? (letters : List Char) : Option (List Char) :=
  match (['.', '*'].reverse).isPrefixOf? letters.reverse with
  | some (last :: rest) => some (last :: rest).reverse
  | _ => none

/-- Read a descriptor; the empty text names no event. -/
def parse? (text : String) : Option Descriptor :=
  if text = "" then none
  else if text = "*" then some .wildcard
  else
    match stem? text.toList with
    | some letters => some (.family (String.ofList letters))
    | none => some (.exact text)

/-- Does the type extend the stem by a point and more, or equal it? -/
def extendsStem (stem type : List Char) : Bool :=
  match stem.isPrefixOf? type with
  | some [] => true
  | some (letter :: _) => letter = '.'
  | none => false

/-- Does an event of this type concern the descriptor? -/
def hears : Descriptor → String → Bool
  | .exact expected, type => expected = type
  | .family stem, type => extendsStem stem.toList type.toList
  | .wildcard, _ => true
  | .always, _ => false

def isAlways : Descriptor → Bool
  | .always => true
  | _ => false

/-- The class of a descriptor, lower classes being tried first. -/
def tier : Descriptor → Nat
  | .exact _ => 0
  | .family _ => 1
  | .wildcard => 2
  | .always => 3

/-- How specific a descriptor is within its class. -/
def weight : Descriptor → Nat
  | .family stem => stem.utf8ByteSize
  | _ => 0

def precedes (left right : Descriptor) : Bool :=
  left.tier < right.tier || (left.tier = right.tier && right.weight ≤ left.weight)

def text : Descriptor → String
  | .exact type => type
  | .family stem => stem ++ ".*"
  | .wildcard => "*"
  | .always => "(always)"

end Descriptor

end Statechart
