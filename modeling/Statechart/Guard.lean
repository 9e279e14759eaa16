import Statechart.Configuration
import Statechart.Event.Basic

/-!
# Guards

A guard decides whether a transition may be taken.  It looks at the context, the event
and the active states, and changes nothing.  A test may fail instead of giving a verdict;
the failure ends the evaluation, as does the first verdict that settles a conjunction or
a disjunction.
-/

namespace Statechart

/-- A test that gave no verdict. -/
structure GuardError where
  guard : String
  event : String
  reason : String
  deriving DecidableEq

namespace GuardError

def message (error : GuardError) : String :=
  "Guard '" ++ error.guard ++ "' failed on event '" ++ error.event ++ "': " ++ error.reason

end GuardError

/-- A condition on context, event and active states, perhaps with a name of its own. -/
inductive Guard where
  /-- A test of context and event, which may fail. -/
  | test (name : Option String) (verdict : Json → Event → Except String Bool)
  /-- Is the state that a reference names active? -/
  | inState (name : Option String) (reference : String)
  | not (name : Option String) (guard : Guard)
  | and (name : Option String) (guards : List Guard)
  | or (name : Option String) (guards : List Guard)

instance : Inhabited Guard := ⟨.and none []⟩

namespace Guard

def named (name : String) : Guard → Guard
  | .test _ verdict => .test (some name) verdict
  | .inState _ reference => .inState (some name) reference
  | .not _ guard => .not (some name) guard
  | .and _ guards => .and (some name) guards
  | .or _ guards => .or (some name) guards

mutual

/-- The name of a guard: its own, or what it is made of. -/
def name : Guard → String
  | .test given _ => given.getD "guard"
  | .inState given reference => given.getD ("in(" ++ reference ++ ")")
  | .not given guard => given.getD ("not(" ++ guard.name ++ ")")
  | .and given guards => given.getD ("and(" ++ ", ".intercalate (names guards) ++ ")")
  | .or given guards => given.getD ("or(" ++ ", ".intercalate (names guards) ++ ")")

def names : List Guard → List String
  | [] => []
  | guard :: guards => guard.name :: names guards

end

mutual

/-- The references to states in a guard, from left to right. -/
def references : Guard → List String
  | .test _ _ => []
  | .inState _ reference => [reference]
  | .not _ guard => guard.references
  | .and _ guards => referencesIn guards
  | .or _ guards => referencesIn guards

def referencesIn : List Guard → List String
  | [] => []
  | guard :: guards => guard.references ++ referencesIn guards

end

/-- What a guard looks at. -/
structure Sight where
  chart : Chart
  active : Configuration
  context : Json
  event : Event

mutual

def check (sight : Sight) : Guard → Except GuardError Bool
  | .test given verdict =>
      match verdict sight.context sight.event with
      | .ok holds => .ok holds
      | .error reason =>
          .error { guard := given.getD "guard", event := sight.event.type, reason }
  | .inState given reference =>
      match sight.chart.find? reference with
      | some state => .ok (sight.active.contains state)
      | none =>
          .error
            { guard := given.getD ("in(" ++ reference ++ ")")
              event := sight.event.type
              reason := "unknown state '" ++ reference ++ "'" }
  | .not _ guard =>
      match guard.check sight with
      | .ok holds => .ok !holds
      | .error error => .error error
  | .and _ guards => checkAll sight guards
  | .or _ guards => checkAny sight guards

/-- Do all guards hold?  The first that does not settles it. -/
def checkAll (sight : Sight) : List Guard → Except GuardError Bool
  | [] => .ok true
  | guard :: guards =>
      match guard.check sight with
      | .ok true => checkAll sight guards
      | .ok false => .ok false
      | .error error => .error error

/-- Does some guard hold?  The first that does settles it. -/
def checkAny (sight : Sight) : List Guard → Except GuardError Bool
  | [] => .ok false
  | guard :: guards =>
      match guard.check sight with
      | .ok true => .ok true
      | .ok false => checkAny sight guards
      | .error error => .error error

end

end Guard

end Statechart
