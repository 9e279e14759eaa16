import Statechart.Actor.Envelope
import Statechart.Actor.Logic
import Statechart.StableSort

/-!
# Registries

The actors of one interpreter by id, and a ledger of those that have been removed.  An id
may be used again; the serial number in an origin tells the actors that bore it apart.
`ι` stands for a child interpreter.
-/

namespace Statechart

/-- What a running actor holds. -/
inductive Process (ι : Type) where
  /-- A child machine, and whether its end has been reported. -/
  | machine (child : ι) (reported : Bool)
  /-- What a callback has set up, and the events that it has been given. -/
  | callback (setup : CallbackSetup) (heard : List Event)
  | custom (logic : CustomLogic) (input : Json) (heard : List Event)
  | promise
  | stream
  | timer

namespace Process

variable {ι : Type}

def kind : Process ι → ActorKind
  | .machine _ _ => .machine
  | .callback _ _ => .callback
  | .custom _ _ _ => .custom
  | .promise => .promise
  | .stream => .stream
  | .timer => .timer

/-- What an actor other than a machine does with an event, and what it holds then. -/
def hear (event : Event) : Process ι → Response × Process ι
  | .machine child reported => ({}, .machine child reported)
  | .callback setup heard =>
      match setup.receiver with
      | none => ({}, .callback setup heard)
      | some receiver =>
          ({ commands := receiver heard event }, .callback setup (heard ++ [event]))
  | .custom logic input heard =>
      (logic.receive input heard event, .custom logic input (heard ++ [event]))
  | .promise => ({}, .promise)
  | .stream => ({}, .stream)
  | .timer =>
      ({ failure := some (.receive event.type "timers do not accept events") }, .timer)

end Process

/-- A running actor. -/
structure Actor (ι : Type) where
  serial : Nat
  /-- The state that the actor ends with. -/
  owner : Option StateId
  /-- The depth of the owner: deeper actors are stopped first. -/
  depth : Nat
  process : Process ι

/-- The actors of an interpreter. -/
structure Registry (ι : Type) where
  /-- In the order of their ids. -/
  actors : List (String × Actor ι)
  /-- The serial number of the next actor. -/
  nextSerial : Nat
  /-- How many ids have been made up. -/
  anonymous : Nat
  /-- The actors that have been removed, the last one first, and how they ended. -/
  closed : List (Origin × ActorStatus)

namespace Registry

variable {ι : Type}

def empty : Registry ι :=
  { actors := [], nextSerial := 0, anonymous := 0, closed := [] }

def actor? (registry : Registry ι) (id : String) : Option (Actor ι) :=
  Table.get? registry.actors id

/-- Is the actor that signed so still running? -/
def accepts (registry : Registry ι) (origin : Origin) : Bool :=
  match registry.actor? origin.id with
  | some actor => actor.serial = origin.serial
  | none => false

/-- The origin of the actor that bears an id. -/
def origin? (registry : Registry ι) (id : String) : Option Origin :=
  (registry.actor? id).map fun actor => { id, serial := actor.serial }

/-- How far the actor of an origin has come. -/
def status (registry : Registry ι) (origin : Origin) : ActorStatus :=
  if registry.accepts origin then .active
  else
    match registry.closed.find? fun entry => entry.1 = origin with
    | some entry => entry.2
    | none => .active

def register (registry : Registry ι) (id : String) : Origin × Registry ι :=
  ({ id, serial := registry.nextSerial },
    { registry with nextSerial := registry.nextSerial + 1 })

def enroll (registry : Registry ι) (id : String) (actor : Actor ι) : Registry ι :=
  { registry with actors := Table.insert id actor registry.actors }

def remove (registry : Registry ι) (id : String) : Registry ι :=
  { registry with actors := Table.erase registry.actors id }

/-- Note in the ledger how an actor ended. -/
def close (registry : Registry ι) (origin : Origin) (status : ActorStatus) : Registry ι :=
  { registry with closed := (origin, status) :: registry.closed }

/-- Let the actor that bears an id hold something else. -/
def update (registry : Registry ι) (id : String) (process : Process ι) : Registry ι :=
  { registry with
    actors := Table.modify registry.actors id fun actor => { actor with process } }

def freshId (registry : Registry ι) (stem : String) : String × Registry ι :=
  let count := registry.anonymous + 1
  (stem ++ "[" ++ toString count ++ "]", { registry with anonymous := count })

/-- May the left actor be stopped before the right one?  Deeper ones go first, and among
equally deep ones the younger. -/
def stopsBefore (left right : String × Actor ι) : Bool :=
  right.2.depth < left.2.depth ||
    (left.2.depth = right.2.depth && right.2.serial ≤ left.2.serial)

/-- The ids of certain actors in the order in which they are stopped. -/
def doomed (registry : Registry ι) (chosen : Actor ι → Bool) : List String :=
  (sortStably stopsBefore (registry.actors.filter fun entry => chosen entry.2)).map Prod.fst

/-- The running actors that are no timers, by id. -/
def children (registry : Registry ι) : List (String × ActorKind) :=
  (registry.actors.map fun (id, actor) => (id, actor.process.kind)).filter fun child =>
    child.2 ≠ .timer

end Registry

end Statechart
