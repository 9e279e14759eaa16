import Statechart.Duration
import Statechart.Json.Basic
import Statechart.Json.Parser

/-!
# Events

An event is a type, which is a dotted name, and a payload.  Some names are kept for the
events that the interpreter itself produces: starting, stopping, the completion of states
and actors, the failure of actors and the end of a delay.
-/

namespace Statechart

/-- Something that happened: its type and what came with it. -/
structure Event where
  type : String
  data : Json := .null
  deriving DecidableEq, Inhabited

namespace Event

/-- Type of the event that runs the first entry actions. -/
def initType : String := "statechart.init"

/-- Type of the event that runs the last exit actions of a stopped interpreter. -/
def stopType : String := "statechart.stop"

def named (type : String) : Event := { type }

/-- The event an interpreter starts with; its payload is the input. -/
def init (input : Json) : Event := { type := initType, data := input }

def stop : Event := named stopType

def doneState (state : String) (output : Json) : Event :=
  { type := "done.state." ++ state, data := output }

def doneActor (actor : String) (output : Json) : Event :=
  { type := "done.actor." ++ actor, data := output }

def errorActor (actor message : String) : Event :=
  { type := "error.actor." ++ actor, data := .str message }

/-- Type of the event that ends a delay of a state; delays are told apart by their whole
milliseconds. -/
def afterType (delay : Duration) (state : String) : String :=
  "after." ++ toString delay.millis ++ "." ++ state

/-- Does the event report the failure of a child actor? -/
def isActorError (event : Event) : Bool :=
  "error.actor.".toList.isPrefixOf event.type.toList

def get? (event : Event) (key : String) : Option Json :=
  event.data.field? key

/-- The record of an event; a null payload is left out. -/
def toJson (event : Event) : Json :=
  match event.data with
  | .null => .obj [("type", .str event.type)]
  | data => .obj [("data", data), ("type", .str event.type)]

/-- Read an event from the text of its record. -/
def parse? (text : String) : Option Event := do
  let fields ← Json.record? ["type", "data"] 1 text
  let type ← (← Table.get? fields "type").asString?
  let data := ((Table.get? fields "data").getD .null).canonical
  some { type, data }

end Event

end Statechart
