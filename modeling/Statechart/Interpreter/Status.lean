import Statechart.Action
import Statechart.Guard

/-!
# The life of an interpreter

An interpreter is started once and ends in one of three ways: it is stopped, its machine
completes, or a step fails.
-/

namespace Statechart

/-- How far an interpreter has come. -/
inductive Status where
  | notStarted
  | running
  | stopped
  | done
  | error
  deriving DecidableEq

namespace Status

def isTerminal : Status → Bool
  | .stopped | .done | .error => true
  | .notStarted | .running => false

/-- Who has been started and has not ended runs. -/
theorem eq_running
    {status : Status}
    (started : status ≠ .notStarted)
    (unended : ¬ status.isTerminal = true) :
    status = .running := by
  cases status <;> simp_all [isTerminal]

theorem started_of_terminal
    {status : Status}
    (ended : status.isTerminal = true) :
    status ≠ .notStarted := by
  rintro rfl
  cases ended

theorem rests_of_terminal
    {status : Status}
    (ended : status.isTerminal = true) :
    status ≠ .running := by
  rintro rfl
  cases ended

def text : Status → String
  | .notStarted => "NotStarted"
  | .running => "Running"
  | .stopped => "Stopped"
  | .done => "Done"
  | .error => "Error"

def all : List Status := [.notStarted, .running, .stopped, .done, .error]

def ofText? (text : String) : Option Status :=
  all.find? fun status => status.text = text

end Status

/-- What does not come to an end. -/
inductive Stall where
  /-- Completing what is entered. -/
  | entry
  /-- Dealing with the mail: there is always more of it. -/
  | mailbox
  deriving DecidableEq

namespace Stall

def kind : Stall → String
  | .entry => "EndlessEntry"
  | .mailbox => "Unsettled"

def message : Stall → String
  | .entry => "Entering states does not come to an end"
  | .mailbox => "The mailbox does not run empty"

end Stall

/-- Why a step fails: a guard or an action does, or the step takes too many microsteps.

The last case is none of these and never happens to an interpreter.  It stands where
something would go on for ever, so that every operation has a result here; what comes after
it, the status and the events that follow a failure included, comes after nothing. -/
inductive Failure where
  | guard (error : GuardError)
  | action (error : ActionError)
  /-- The step for an event does not come to rest within the limit. -/
  | loop (limit : Nat) (event : String)
  | stalled (stall : Stall)
  deriving DecidableEq

namespace Failure

def kind : Failure → String
  | .guard _ => "Guard"
  | .action _ => "Action"
  | .loop _ _ => "InfiniteLoop"
  | .stalled stall => stall.kind

def message : Failure → String
  | .guard error => error.message
  | .action error => error.message
  | .loop limit event =>
      "Exceeded " ++ toString limit ++ " microsteps while processing event '" ++ event ++ "'"
  | .stalled stall => stall.message

end Failure

end Statechart
