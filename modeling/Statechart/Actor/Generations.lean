import Statechart.Actor.Logic

/-!
# Generations

A machine can start machines that start machines in turn, but only as deep as they are
nested in its description.  `Machine.generations` counts the levels, the machine itself
included.
-/

namespace Statechart

mutual

/-- How many levels of machines a logic has. -/
def ActorLogic.generations : ActorLogic → Nat
  | .machine machine => machine.generations
  | .callback _ => 0
  | .custom _ => 0
  | .promise _ => 0
  | .stream _ => 0

/-- How many levels of machines a machine has. -/
def Machine.generations : Machine ActorLogic → Nat
  | ⟨_, conducts, _⟩ => 1 + conductsGenerations conducts

def conductsGenerations : List (Conduct ActorLogic) → Nat
  | [] => 0
  | conduct :: conducts => max conduct.generations (conductsGenerations conducts)

/-- How many levels of machines a state can start. -/
def Conduct.generations : Conduct ActorLogic → Nat
  | ⟨transitions, entry, exit, invocations, _, _⟩ =>
      max (transitionsGenerations transitions)
        (max (actionsGenerations entry)
          (max (actionsGenerations exit) (invocationsGenerations invocations)))

def transitionsGenerations : List (Transition ActorLogic) → Nat
  | [] => 0
  | transition :: transitions =>
      max transition.generations (transitionsGenerations transitions)

/-- How many levels of machines a transition can start. -/
def Transition.generations : Transition ActorLogic → Nat
  | ⟨_, candidates⟩ => candidatesGenerations candidates

def candidatesGenerations : List (Candidate ActorLogic) → Nat
  | [] => 0
  | candidate :: candidates =>
      max candidate.generations (candidatesGenerations candidates)

/-- How many levels of machines a candidate can start. -/
def Candidate.generations : Candidate ActorLogic → Nat
  | ⟨_, _, actions, _⟩ => actionsGenerations actions

def actionsGenerations : List (Action ActorLogic) → Nat
  | [] => 0
  | action :: actions => max action.generations (actionsGenerations actions)

/-- How many levels of machines an action can start. -/
def Action.generations : Action ActorLogic → Nat
  | .spawn _ logic _ => logic.generations
  | .assign _ _ => 0
  | .raise _ _ _ => 0
  | .send _ _ _ _ => 0
  | .cancel _ => 0
  | .log _ _ => 0
  | .stopChild _ => 0
  | .effect _ _ => 0

def invocationsGenerations : List (Invocation ActorLogic) → Nat
  | [] => 0
  | invocation :: invocations =>
      max invocation.generations (invocationsGenerations invocations)

/-- How many levels of machines an invocation can start. -/
def Invocation.generations : Invocation ActorLogic → Nat
  | ⟨_, logic, _⟩ => logic.generations

end

end Statechart
