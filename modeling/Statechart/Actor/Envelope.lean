import Statechart.Event.Basic

/-!
# Envelopes

What lies in the mailbox of an interpreter: events from outside or from its actors,
events to be passed on to an actor, notices that a child has mail, the ends of delays,
and the order to stop.  An actor signs with its origin, so that what comes from one that
has been removed meanwhile can be told apart.
-/

namespace Statechart

/-- One actor among all that ever bore its id: no two actors of an interpreter have the
same serial number. -/
structure Origin where
  id : String
  serial : Nat
  deriving DecidableEq, Inhabited

/-- What happens at the end of a delay. -/
inductive Delivery where
  /-- The interpreter gets an event. -/
  | event (event : Event)
  /-- A child actor gets an event. -/
  | forward (child : String) (event : Event)
  /-- The interpreter that this one is a child of gets an event. -/
  | parent (event : Event)
  deriving DecidableEq

/-- An item in a mailbox. -/
inductive Envelope where
  /-- An event, signed if an actor sent it.  A terminal event is the last of its actor. -/
  | event (sender : Option Origin) (event : Event) (terminal : Bool)
  /-- An event for a child actor. -/
  | forward (child : String) (event : Event)
  /-- A child has mail. -/
  | wake (child : String)
  /-- A delay is over. -/
  | timerFired (timer : Origin) (delivery : Delivery)
  | stop
  deriving DecidableEq

namespace Envelope

def plain (event : Event) : Envelope := .event none event false

/-- An event from an actor that goes on. -/
def sent (sender : Origin) (event : Event) : Envelope := .event (some sender) event false

def completed (sender : Origin) (output : Json) : Envelope :=
  .event (some sender) (Event.doneActor sender.id output) true

def failed (sender : Origin) (message : String) : Envelope :=
  .event (some sender) (Event.errorActor sender.id message) true

end Envelope

end Statechart
