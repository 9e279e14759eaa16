import Statechart.Json.Parser
import Statechart.Text

/-!
# State values

The active states seen as a tree of keys: a compound state whose active child is a leaf
is that child's key, and every other state maps the keys of its active children to their
values.  A dotted path matches when it leads from the top into the value.
-/

namespace Statechart

/-- The keys of the active states as a tree. -/
inductive StateValue where
  | leaf (key : String)
  | branch (children : List (String × StateValue))
  deriving Inhabited

namespace StateValue

mutual

/-- Does a path of keys lead into the value? -/
def leadsInto : StateValue → List String → Bool
  | _, [] => true
  | .leaf key, head :: rest => rest.isEmpty && key = head
  | .branch children, head :: rest => anyLeadsInto children head rest

/-- Does the child named `head` exist and the rest of the path lead into it? -/
def anyLeadsInto : List (String × StateValue) → String → List String → Bool
  | [], _, _ => false
  | child :: children, head, rest =>
      if child.1 = head then child.2.leadsInto rest else anyLeadsInto children head rest

end

/-- Does a dotted path, its empty segments dropped, lead into the value? -/
def hasPath (value : StateValue) (path : String) : Bool :=
  value.leadsInto ((Text.segments path).filter fun segment => segment ≠ "")

mutual

/-- The text of a value: nested single keys are joined by points. -/
def text : StateValue → String
  | .leaf key => key
  | .branch [(key, .branch [])] => key
  | .branch [(key, child)] => key ++ "." ++ child.text
  | .branch children => "\x7b" ++ childrenText children ++ "\x7d"

/-- The keys and values of several children, separated by commas. -/
def childrenText : List (String × StateValue) → String
  | [] => ""
  | [child] => child.1 ++ ": " ++ child.2.text
  | child :: children => child.1 ++ ": " ++ child.2.text ++ ", " ++ childrenText children

end

mutual

/-- A leaf is a string, a branch an object. -/
def toJson : StateValue → Json
  | .leaf key => .str key
  | .branch children => .obj (childrenJson children)

def childrenJson : List (String × StateValue) → List (String × Json)
  | [] => []
  | child :: children => (child.1, child.2.toJson) :: childrenJson children

end

mutual

/-- Strings are leaves and objects are branches, the last of equal keys winning. -/
def ofJson? : Json → Option StateValue
  | .str key => some (.leaf key)
  | .obj fields => (childrenOfJson? fields).map fun children => .branch (Table.ofList children)
  | _ => none

def childrenOfJson? : List (String × Json) → Option (List (String × StateValue))
  | [] => some []
  | field :: fields => do
      let child ← ofJson? field.2
      let children ← childrenOfJson? fields
      some ((field.1, child) :: children)

end

def parse? (text : String) : Option StateValue :=
  (Json.parse? text).bind ofJson?

end StateValue

end Statechart
