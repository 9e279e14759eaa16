import Statechart.Proofs.RemovedActors
import Statechart.Proofs.TimersEndWithActors

/-!
# Failed steps

A step that fails, wherever and for whatever reason, leaves the state that was there before
it.  It is the last step: all actors are stopped, those that the step itself had started
among them, no timer and no task goes on for any of them, the failure is shown together with its
event, and nothing that is done later changes any of this.
-/

namespace Statechart

namespace Interpreter

/-- The steps that an interpreter takes in its life: the first one when it is told to start,
and one for an event while it runs, which it may have heard from its next envelope.  The
left interpreter is the one that is committed, the right one takes the step. -/
inductive Undertakes (facilities : Facilities) (nursery : Nursery) :
    Interpreter → Interpreter → (Engine → Event → StepM Bool) → Prop where
  | first {committed : Interpreter} :
      Lived facilities nursery committed → committed.status = .notStarted →
      Undertakes facilities nursery committed { committed with status := .running }
        Engine.firstStep
  | next {committed : Interpreter} :
      Lived facilities nursery committed → committed.status = .running →
      Undertakes facilities nursery committed committed Engine.macrostep
  | heard {committed taken : Interpreter} {envelope : Envelope} :
      Lived facilities nursery committed → committed.status = .running →
      committed.nextEnvelope? = some (envelope, taken) →
      Undertakes facilities nursery committed
        (taken.receive nursery envelope).readied Engine.macrostep

/-- What a step that failed has made of an interpreter; `attempt` is the registry as the
step left it. -/
structure Fails (committed after : Interpreter) (attempt : Registry Interpreter)
    (event : Event) (failure : Failure) : Prop where
  state : after.state = committed.state
  status : after.status = .error
  snapshot : after.snapshot =
    { Snapshot.ofState committed.state .error (some event) with failure := some failure }
  vacant : after.supervisor.registry.actors = []
  stopped : ∀ origin,
    committed.supervisor.registry.accepts origin = true ∨ attempt.accepts origin = true →
      after.supervisor.registry.status origin ≠ .active

section Failing

variable {facilities : Facilities} {nursery : Nursery} {committed working : Interpreter}
variable {step : Engine → Event → StepM Bool} {event : Event}
variable {failure : Failure} {bench : Workbench}

theorem Undertakes.diligent
    (undertakes : Undertakes facilities nursery committed working step) (event : Event) :
    Diligent facilities nursery (step (working.engine facilities nursery) event) := by
  cases undertakes with
  | first => exact (Engine.firstStep_dutiful _ event).diligent
  | next => exact (Engine.macrostep_dutiful _ event).diligent
  | heard => exact (Engine.macrostep_dutiful _ event).diligent

theorem Undertakes.begins
    (undertakes : Undertakes facilities nursery committed working step) :
    working.state = committed.state ∧ working.supervisor.registry.Balanced ∧
      committed.supervisor.registry.Ages working.supervisor.registry := by
  cases undertakes with
  | first lived => exact ⟨rfl, lived.balanced, .refl _⟩
  | next lived => exact ⟨rfl, lived.balanced, .refl _⟩
  | @heard taken envelope lived _ found =>
      have readied : Works facilities nursery taken
          (taken.receive nursery envelope).readied := receive_works taken envelope
      have toTaken := (nextEnvelope?_elapses found).1
      have sameState : taken.state = committed.state := by
        rw [(nextEnvelope?_eq found).2]
        rfl
      exact ⟨(receive_alike nursery taken envelope).state.trans sameState,
        readied.proceeds.balanced (toTaken.balanced lived.balanced),
        toTaken.ages.trans readied.proceeds.ages⟩

theorem Undertakes.fails
    (undertakes : Undertakes facilities nursery committed working step)
    (failed : (step (working.engine facilities nursery) event).run working.bench =
      .error failure bench) :
    committed.Fails (working.abandon nursery event failure bench) bench.supervisor.registry
      event failure := by
  obtain ⟨sameState, begun, readied⟩ := undertakes.begins
  have diligent := undertakes.diligent event working.bench
  rw [ends_iff_run] at diligent
  have worked : Supervisor.Works facilities nursery working.supervisor bench.supervisor :=
    diligent.2 failure bench failed
  have balanced := worked.proceeds.balanced begun
  have abandoned : Works facilities nursery (working.keepSupervisor bench)
      (working.abandon nursery event failure bench) :=
    works_abandon (working.keepSupervisor bench) event failure .refl
  have stillBalanced := abandoned.proceeds.balanced balanced
  obtain ⟨state, status, snapshot, vacant⟩ :=
    abandon_ends nursery working balanced event failure
  refine ⟨state.trans sameState, status, sameState ▸ snapshot, vacant, ?_⟩
  rintro origin (accepted | accepted)
  · exact ((readied.trans worked.proceeds.ages).trans abandoned.proceeds.ages).status
      stillBalanced vacant accepted
  · exact abandoned.proceeds.ages.status stillBalanced vacant accepted

end Failing

end Interpreter

namespace Machine

end Machine

namespace MachineSpec

end MachineSpec

end Statechart
