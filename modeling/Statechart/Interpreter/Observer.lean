import Statechart.Interpreter.Snapshot

/-!
# Observers

Whoever observes an interpreter is shown each new snapshot and may react to it, by
turning away or by sending an event.  A board keeps the observers in the order in which
they came; a ticket, given out once, tells each of them apart.
-/

namespace Statechart

/-- Who is shown snapshots. -/
inductive Listener where
  /-- Told about snapshots, failures and the end. -/
  | observer (name : String)
  /-- Told about snapshots only. -/
  | closure (name : String)
  /-- Shows the newest snapshot to whoever holds the interpreter's handle. -/
  | handle
  deriving DecidableEq

namespace Listener

/-- Is the listener told about failures and about the end? -/
def hearsEnd : Listener → Bool
  | .observer _ => true
  | .closure _ | .handle => false

end Listener

/-- What an observer does about a snapshot. -/
inductive Reaction where
  /-- It wants to see no more. -/
  | unsubscribe
  /-- It sends the interpreter an event. -/
  | post (event : Event)
  deriving DecidableEq

/-- One who observes. -/
structure Observer where
  ticket : Nat
  listener : Listener
  react : Snapshot → List Reaction

/-- The observers of an interpreter. -/
structure Board where
  nextTicket : Nat := 0
  observers : List Observer := []
  /-- The tickets of those that turned away. -/
  cancelled : List Nat := []

namespace Board

/-- Has the holder of a ticket not turned away? -/
def isActive (board : Board) (ticket : Nat) : Bool :=
  !board.cancelled.contains ticket

def subscribe (board : Board) (listener : Listener) (react : Snapshot → List Reaction) :
    Board :=
  { board with
    nextTicket := board.nextTicket + 1
    observers := board.observers ++ [{ ticket := board.nextTicket, listener, react }] }

/-- Let the holder of a ticket turn away. -/
def cancel (board : Board) (ticket : Nat) : Board :=
  { board with cancelled := ticket :: board.cancelled }

def prune (board : Board) : Board :=
  { board with observers := board.observers.filter fun observer =>
      board.isActive observer.ticket }

def clear (board : Board) : Board :=
  { board with observers := [] }

end Board

end Statechart
