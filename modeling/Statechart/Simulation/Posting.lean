import Statechart.Clock
import Statechart.Interpreter.Lifecycle

/-!
# Postings

Mail from the surroundings is for one interpreter in the tree, found by the path of child
machines that leads to it.  Every interpreter on the way up is told that there is mail
below.  Once a machine on the path has been removed the mail is lost.
-/

namespace Statechart

/-- An envelope on its way to the interpreter at a path. -/
structure Posting where
  path : List Origin
  /-- The actor that the posting ends with. -/
  holder : Option Origin
  envelope : Envelope

namespace Posting

/-- Does an actor of the interpreter at a path hold the posting? -/
def isHeldBy (posting : Posting) (path : List Origin) (holder : Origin) : Bool :=
  posting.path = path && posting.holder = some holder

end Posting

namespace Registry

/-- The child machine of an origin, and whether its end has been reported. -/
def childMachine? (registry : Registry Interpreter) (origin : Origin) :
    Option (Interpreter × Bool) :=
  match registry.actor? origin.id with
  | some { serial, process := .machine child reported, .. } =>
      if serial = origin.serial then some (child, reported) else none
  | _ => none

end Registry

namespace Interpreter

/-- Put an envelope into the mailbox of the interpreter at a path, and a notice of it into every
mailbox on the way down, in one step.  A posting takes two: the envelope is queued before the
notices are sent, so until then a machine may have mail that nobody above it knows of. -/
def accept? (envelope : Envelope) : List Origin → Interpreter → Option Interpreter
  | [], interpreter =>
      some (interpreter.onSupervisor fun supervisor => supervisor.keep envelope)
  | origin :: path, interpreter => do
      let (child, reported) ← interpreter.supervisor.registry.childMachine? origin
      let child ← accept? envelope path child
      return interpreter.onSupervisor fun supervisor =>
        (supervisor.update origin.id (.machine child reported)).keep (.wake origin.id)

/-- Mail for a machine further down is accepted by the child on the way to it. -/
theorem accept?_cons
    {envelope : Envelope} {origin : Origin} {path : List Origin}
    {before after : Interpreter} :
    accept? envelope (origin :: path) before = some after ↔
      ∃ child reported grown,
        before.supervisor.registry.childMachine? origin = some (child, reported) ∧
          accept? envelope path child = some grown ∧
          (before.onSupervisor fun supervisor =>
            (supervisor.update origin.id (.machine grown reported)).keep (.wake origin.id)) =
              after := by
  simp only [accept?, Option.bind_eq_bind, Option.bind_eq_some_iff, Prod.exists]
  exact ⟨fun ⟨child, reported, found, grown, grew, same⟩ =>
      ⟨child, reported, grown, found, grew, Option.some.inj same⟩,
    fun ⟨child, reported, grown, found, grew, same⟩ =>
      ⟨child, reported, found, grown, grew, congrArg some same⟩⟩

end Interpreter

end Statechart
