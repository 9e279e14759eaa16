/-!
# Faults of a description

What can be wrong with a described machine, and the wording of each fault.
-/

namespace Statechart

/-- A fault of a described machine. -/
inductive DefinitionError where
  | missingContext
  | invalidKey (parent key : String)
  | duplicateId (id : String)
  | duplicateKey (parent key : String)
  | invalidInitial (state initial : String)
  | missingInitial (state : String)
  | emptyParallel (state : String)
  | unexpectedChildren (state kind : String)
  | finalWithTransitions (state : String)
  | invalidDescriptor (state descriptor : String)
  | unknownTarget (source target : String)
  | conflictingTargets (source first second : String)
  | invalidHistoryDefault (state target : String)
  | unknownGuardState (state reference : String)
  | duplicateInvokeId (id : String)
  deriving DecidableEq

namespace DefinitionError

def message : DefinitionError → String
  | .missingContext =>
      "Context not specified. Call .context(value) or .context_from(factory) before .build()"
  | .invalidKey parent key =>
      "Invalid state key '" ++ key ++ "' under '" ++ parent ++
        "': keys must be non-empty and contain no '.' or '#'"
  | .duplicateId id => "Duplicate state id '" ++ id ++ "'"
  | .duplicateKey parent key =>
      "State '" ++ parent ++ "' has more than one child named '" ++ key ++ "'"
  | .invalidInitial state initial =>
      "State '" ++ state ++ "' has no child '" ++ initial ++ "' to start in"
  | .missingInitial state => "Compound state '" ++ state ++ "' has no child it can start in"
  | .emptyParallel state => "Parallel state '" ++ state ++ "' has no regions"
  | .unexpectedChildren state kind => kind ++ " state '" ++ state ++ "' cannot have children"
  | .finalWithTransitions state =>
      "Final state '" ++ state ++ "' cannot have outgoing transitions"
  | .invalidDescriptor state descriptor =>
      "Invalid event descriptor '" ++ descriptor ++ "' on state '" ++ state ++ "'"
  | .unknownTarget source target =>
      "Transition from '" ++ source ++ "' targets unknown state '" ++ target ++ "'"
  | .conflictingTargets source first second =>
      "Transition from '" ++ source ++ "' targets '" ++ first ++ "' and '" ++ second ++
        "', which cannot be active together"
  | .invalidHistoryDefault state target =>
      "Default target '" ++ target ++ "' of history state '" ++ state ++
        "' is not inside its parent"
  | .unknownGuardState state reference =>
      "Guard on a transition from '" ++ state ++ "' refers to unknown state '" ++
        reference ++ "'"
  | .duplicateInvokeId id => "Duplicate invoke id '" ++ id ++ "'"

def kind : DefinitionError → String
  | .missingContext => "MissingContext"
  | .invalidKey _ _ => "InvalidKey"
  | .duplicateId _ => "DuplicateId"
  | .duplicateKey _ _ => "DuplicateKey"
  | .invalidInitial _ _ => "InvalidInitial"
  | .missingInitial _ => "MissingInitial"
  | .emptyParallel _ => "EmptyParallel"
  | .unexpectedChildren _ _ => "UnexpectedChildren"
  | .finalWithTransitions _ => "FinalWithTransitions"
  | .invalidDescriptor _ _ => "InvalidDescriptor"
  | .unknownTarget _ _ => "UnknownTarget"
  | .conflictingTargets _ _ _ => "ConflictingTargets"
  | .invalidHistoryDefault _ _ => "InvalidHistoryDefault"
  | .unknownGuardState _ _ => "UnknownGuardState"
  | .duplicateInvokeId _ => "DuplicateInvokeId"

/-- The wording of all faults found together, one to a line. -/
def report (errors : List DefinitionError) : String :=
  "Invalid machine definition (" ++ toString errors.length ++ " errors)" ++
    String.join (errors.map fun error => "\n  - " ++ error.message)

end DefinitionError

end Statechart
