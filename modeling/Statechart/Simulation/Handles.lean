import Statechart.Simulation.World

/-!
# Handles

What is kept of an actor or of an observer from outside.  A handle belongs to one of the
interpreters that a world has had; once that has been replaced its actors stay as they
were, and nothing reaches them.
-/

namespace Statechart

/-- A handle of an actor. -/
structure ActorRef where
  /-- Which of the world's interpreters started the actor, counted from the first. -/
  incarnation : Nat
  origin : Origin
  kind : ActorKind
  deriving DecidableEq

/-- A handle of an observer. -/
structure Subscription where
  /-- Which of the world's interpreters is observed, counted from the first. -/
  incarnation : Nat
  ticket : Nat
  deriving DecidableEq

namespace World

/-- One of the interpreters that the world has had. -/
def interpreterAt (world : World) (incarnation : Nat) : Interpreter :=
  world.retired[incarnation]?.getD world.interpreter

def incarnation (world : World) : Nat := world.retired.length

/-- A handle of the actor that bears an id. -/
def reference? (world : World) (id : String) : Option ActorRef :=
  (world.interpreter.supervisor.registry.actor? id).map fun actor =>
    { incarnation := world.incarnation
      origin := { id, serial := actor.serial }
      kind := actor.process.kind }

/-- How far the actor of a handle has come. -/
def statusOf (world : World) (ref : ActorRef) : ActorStatus :=
  (world.interpreterAt ref.incarnation).supervisor.registry.status ref.origin

/-- Send an event to whichever actor bears the id of the handle's; does anyone read it? -/
def sendTo (world : World) (ref : ActorRef) (event : Event) : Bool × World :=
  if ref.incarnation = world.incarnation then
    world.post (.forward ref.origin.id event)
  else (false, world)

def subscribe (world : World) (listener : Listener) (react : Snapshot → List Reaction) :
    Subscription × World :=
  let board := world.interpreter.board
  ({ incarnation := world.incarnation, ticket := board.nextTicket },
    { world with
      interpreter := { world.interpreter with board := board.subscribe listener react } })

def isSubscribed (world : World) (subscription : Subscription) : Bool :=
  (world.interpreterAt subscription.incarnation).board.isActive subscription.ticket

def unsubscribe (world : World) (subscription : Subscription) : World :=
  let cancel := fun (interpreter : Interpreter) =>
    { interpreter with board := interpreter.board.cancel subscription.ticket }
  if subscription.incarnation = world.incarnation then
    { world with interpreter := cancel world.interpreter }
  else { world with retired := world.retired.modify subscription.incarnation cancel }

end World

end Statechart
