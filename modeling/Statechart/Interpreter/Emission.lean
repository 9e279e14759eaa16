import Statechart.Actor.Envelope
import Statechart.Interpreter.Observer

/-!
# Emissions

What comes out of an interpreter while it works, in order: what can be seen from outside,
mail for the interpreter that it is a child of, and errands for the surroundings, which
keep time and run tasks.
-/

namespace Statechart

/-- Something that can be seen from outside. -/
inductive Activity where
  | entered (state : String)
  | exited (state : String)
  | logged (machine : String) (label : Option String) (text : String)
  | effect (value : Json)
  /-- An actor makes something known. -/
  | actor (id text : String)
  | published (listener : Listener) (snapshot : Snapshot)
  | failed (listener : Listener) (failure : Failure)
  | completed (listener : Listener)
  | conflict (conflict : Conflict)
  /-- No transition took up an event while these states were active. -/
  | unhandled (event : String) (states : List String)
  deriving DecidableEq

/-- What is asked of the surroundings. -/
inductive Errand where
  /-- Deliver an envelope after a delay on the clock. -/
  | alarm (delay : Duration) (envelope : Envelope)
  /-- Run a task that delivers envelopes one after another, some after a pause. -/
  | script (steps : List (Option Duration × Envelope))
  deriving DecidableEq

/-- What comes out of an interpreter. -/
inductive Emission where
  /-- Something is seen of the interpreter at a path of child machines; an empty path leads
  to the interpreter itself. -/
  | activity (path : List Origin) (activity : Activity)
  /-- Mail for the interpreter that this one is a child of. -/
  | upward (envelope : Envelope)
  /-- An errand for the interpreter at a path of child machines.  An errand with a holder
  ends with that actor. -/
  | commission (path : List Origin) (holder : Option Origin) (errand : Errand)
  /-- The end of an actor that held an errand. -/
  | revoke (path : List Origin) (holder : Origin)
  deriving DecidableEq

end Statechart
