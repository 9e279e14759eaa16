import Statechart.Entry
import Statechart.Machine
import Statechart.StableSort

/-!
# Selecting transitions

For every active leaf, in document order, the transitions of the leaf and then of the
states that it lies in are tried until one is open.  Of two transitions that would leave
a common state the one found first is kept; the other is reported as a conflict.
-/

namespace Statechart

/-- A candidate found open, and where it stands. -/
structure Choice (L : Type) where
  ref : TransitionRef
  candidate : Candidate L

namespace Choice

/-- What taking the choice does to the tree of states. -/
def move {L : Type} (choice : Choice L) : Move :=
  { source := choice.ref.source
    targets := choice.candidate.targets
    reenter := choice.candidate.reenter }

end Choice

/-- A transition that gave way to one found earlier. -/
structure Conflict where
  event : String
  kept : String
  discarded : String
  deriving DecidableEq

namespace Conflict

def message (conflict : Conflict) : String :=
  "Transition from '" ++ conflict.discarded ++ "' on '" ++ conflict.event ++
    "' conflicts with the transition from '" ++ conflict.kept ++ "' and was discarded"

end Conflict

/-- The transitions of one step and those that gave way. -/
structure Selection (L : Type) where
  chosen : List (Choice L)
  conflicts : List Conflict

/-- Which transitions are looked at: those that hear an event, or those without one. -/
inductive Trigger where
  | event
  | eventless
  deriving DecidableEq

namespace Trigger

/-- Is a transition with this descriptor looked at? -/
def admits (trigger : Trigger) (event : Event) (descriptor : Descriptor) : Bool :=
  match trigger with
  | .event => descriptor.hears event.type
  | .eventless => descriptor.isAlways

end Trigger

/-- The first choice whose guard holds; a guard that fails ends the search. -/
def firstOpen {L : Type} (sight : Guard.Sight) :
    List (Choice L) → Except GuardError (Option (Choice L))
  | [] => .ok none
  | choice :: choices =>
      match choice.candidate.guard with
      | none => .ok (some choice)
      | some guard =>
          match guard.check sight with
          | .ok true => .ok (some choice)
          | .ok false => firstOpen sight choices
          | .error error => .error error

namespace Machine

variable {L : Type}

/-- The candidates of a state for a trigger, in the order in which they are tried. -/
def choices (machine : Machine L) (trigger : Trigger) (event : Event) (state : StateId) :
    List (Choice L) :=
  let admitted := (machine.conduct state).transitions.zipIdx.filter fun numbered =>
    trigger.admits event numbered.1.descriptor
  let ordered := sortStably (fun (left, _) (right, _) =>
    left.descriptor.precedes right.descriptor) admitted
  ordered.flatMap fun (transition, index) =>
    transition.candidates.zipIdx.map fun (candidate, position) =>
      { ref := { source := state, transition := index, candidate := position }, candidate }

/-- The first open choice of the first of these states that has one. -/
def firstChoice (machine : Machine L) (trigger : Trigger) (sight : Guard.Sight) :
    List StateId → Except GuardError (Option (Choice L))
  | [] => .ok none
  | state :: states =>
      match firstOpen sight (machine.choices trigger sight.event state) with
      | .ok (some choice) => .ok (some choice)
      | .ok none => firstChoice machine trigger sight states
      | .error error => .error error

/-- Add a choice unless it was found before. -/
def addChoice (found : List (Choice L)) : Option (Choice L) → List (Choice L)
  | none => found
  | some choice =>
      if found.any fun other => other.ref = choice.ref then found else found ++ [choice]

/-- The choices of several leaves, each found once, added to those found before. -/
def enabledFrom (machine : Machine L) (trigger : Trigger) (sight : Guard.Sight) :
    List StateId → List (Choice L) → Except GuardError (List (Choice L))
  | [], found => .ok found
  | leaf :: leaves, found =>
      match machine.firstChoice trigger sight (leaf :: machine.chart.ancestors leaf) with
      | .ok choice => enabledFrom machine trigger sight leaves (addChoice found choice)
      | .error error => .error error

/-- The first kept choice that leaves a state which this one leaves too. -/
def rival? (machine : Machine L) (active : Configuration) (history : HistoryRecords)
    (kept : List (Choice L)) (choice : Choice L) : Option (Choice L) :=
  let exits := machine.chart.exitsOf active history choice.move
  kept.find? fun other =>
    !StateSet.disjoint (machine.chart.exitsOf active history other.move) exits

/-- Keep the choices that leave no state which a kept one leaves. -/
def withoutConflicts (machine : Machine L) (active : Configuration)
    (history : HistoryRecords) (event : Event) (enabled : List (Choice L)) : Selection L :=
  enabled.foldl (fun selection choice =>
    match machine.rival? active history selection.chosen choice with
    | some rival =>
        { selection with
          conflicts := selection.conflicts ++
            [{ event := event.type
               kept := machine.chart.id rival.ref.source
               discarded := machine.chart.id choice.ref.source }] }
    | none => { selection with chosen := selection.chosen ++ [choice] })
    { chosen := [], conflicts := [] }

/-- The transitions to take on an event, or without one. -/
def select (machine : Machine L) (trigger : Trigger) (active : Configuration)
    (history : HistoryRecords) (context : Json) (event : Event) :
    Except GuardError (Selection L) :=
  match machine.enabledFrom trigger { chart := machine.chart, active, context, event }
      (machine.chart.leaves active) [] with
  | .ok enabled => .ok (machine.withoutConflicts active history event enabled)
  | .error error => .error error

end Machine

end Statechart
