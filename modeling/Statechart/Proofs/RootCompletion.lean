import Statechart.Proofs.Finishing
import Statechart.Proofs.StateInvariants

/-!
# Machines end in time

An interpreter that was not restored is done exactly when the root of its machine has
completed: no step that goes well leaves it running with a completed root, and none makes it
end before.
-/

namespace Statechart

/-- The status fits whether the root has completed. -/
def Chart.punctual (chart : Chart) : Standard
  | .notStarted, state => state.done = false ∧ state.active = []
  | .running, state => state.done = false ∧ ¬ chart.Completed state.active Chart.root
  | .done, state => chart.Completed state.active Chart.root
  | .stopped, _ => True
  | .error, _ => True

theorem Workbench.Exact.met
    {chart : Chart} {bench : Workbench}
    (exact : bench.Exact chart) :
    chart.punctual.Met bench.state where
  done done last same := by
    change chart.Completed last.active Chart.root
    rw [same]
    exact exact.mp done
  undone undone := ⟨undone, mt exact.mpr (Bool.eq_false_iff.mp undone)⟩

theorem Machine.upholds_punctual
    {machine : Machine ActorLogic}
    (formed : machine.WellFormed)
    (rootOpen : machine.chart.isFinal Chart.root = false)
    (regioned : machine.chart.Regioned) :
    machine.Upholds machine.chart.punctual false where
  excused := by
    rintro status state (rfl | rfl)
    · trivial
    · trivial
  firstStep := by
    rintro engine event bench rfl asked
    have exact : Ends (Occasion.start.step engine event) bench _ _ :=
      Engine.step_exact formed.chart rootOpen regioned asked
    exact exact.mono (fun _ _ exact => exact.met) fun _ _ _ => trivial
  macrostep := by
    rintro engine event bench rfl asked
    have exact : Ends (Occasion.event.step engine event) bench _ _ :=
      Engine.step_exact formed.chart rootOpen regioned asked
    exact exact.mono (fun _ _ exact => exact.met) fun _ _ _ => trivial
  resume := by
    rintro ⟨⟩

theorem Interpreter.Born.punctual
    {machine : Machine ActorLogic} {start : Interpreter}
    (born : Born machine start) :
    start.Stands machine machine.chart.punctual false :=
  born.stands fun _ => ⟨rfl, rfl⟩

namespace MachineSpec

open Interpreter

variable {spec : MachineSpec ActorLogic} {machine : Machine ActorLogic}

/-- Completion is detected exactly, unless there are parallel states without regions.  After
every step that goes well, the first one or one for an event, in the life of an interpreter
that was not restored, the status is done if the root of the machine has completed in the
active states, and running if not.  And whatever is done with the world around a new
interpreter, it is not done before its root has completed and does not run on afterwards. -/
theorem done_iff_root_completed
    (built : spec.build = .ok machine)
    (ordinaryRoot : spec.HasOrdinaryRoot)
    (regioned : machine.chart.Regioned) :
    (∀ (facilities : Facilities) (nursery : Nursery) (start committed working : Interpreter)
        (step : Engine → Event → StepM Bool) (event : Event) (after : Interpreter),
      Born machine start → Passes facilities nursery start committed →
      Undertakes facilities nursery committed working step →
      (run facilities nursery event step).run working = .ok () after →
        (after.status = .done ↔
          machine.chart.hasCompleted after.state.active Chart.root = true) ∧
        (after.status = .running ↔
          machine.chart.hasCompleted after.state.active Chart.root = false)) ∧
    ∀ (facilities : Facilities) (settings : Settings) (operations : List Operation)
        (world : World),
      world = (World.around facilities (create machine settings)).run operations →
        (world.interpreter.status = .done →
          machine.chart.hasCompleted world.interpreter.state.active Chart.root = true) ∧
        (world.interpreter.status = .running →
          machine.chart.hasCompleted world.interpreter.state.active Chart.root = false) := by
  have formed := build_machine_wellFormed built ordinaryRoot
  have upheld := Machine.upholds_punctual formed (build_root_open built ordinaryRoot) regioned
  have completed_iff : ∀ active, machine.chart.hasCompleted active Chart.root = true ↔
      machine.chart.Completed active Chart.root := fun _ => Chart.hasCompleted_iff formed.chart
  have open_iff : ∀ active, machine.chart.hasCompleted active Chart.root = false ↔
      ¬ machine.chart.Completed active Chart.root := fun active => by
    rw [← Bool.not_eq_true, completed_iff]
  constructor
  · intro facilities nursery start committed working step event after born passes undertakes ran
    have stands := passes.stands upheld born.punctual
    obtain ⟨runs, origin, running, met⟩ := undertakes.met upheld stands event
    obtain ⟨handled, bench, stepped, rfl⟩ := run_eq_ok ran
    rw [ends_iff_run] at met
    obtain ⟨settled, _, outcome⟩ :=
      settle_stands runs origin running (met.1 handled bench stepped) event handled
    have meets := settled.meets
    rw [completed_iff, open_iff]
    rcases outcome with ⟨_, status⟩ | ⟨_, status, _⟩
    · rw [status] at meets ⊢
      exact ⟨iff_of_true rfl meets, iff_of_false (by decide) (absurd meets)⟩
    · rw [status] at meets ⊢
      exact ⟨iff_of_false (by decide) meets.2, iff_of_true rfl meets.2⟩
  · intro facilities settings operations world begun
    have passes : Passes facilities (Nursery.ofGenerations facilities machine.generations)
        (create machine settings) world.interpreter := by
      rw [begun]
      exact World.run_course facilities (.of_create machine settings) [] operations rfl
    have meets := (passes.stands upheld (Born.alone settings).punctual).meets
    rw [completed_iff, open_iff]
    constructor
    · intro done
      rw [done] at meets
      exact meets
    · intro running
      rw [running] at meets
      exact meets.2

/-- Two voices that each come to their end when told. -/
def duet : MachineSpec ActorLogic :=
  let voice (key cue : String) : StateSpec ActorLogic :=
    .mk { key, initial := some "singing" }
      [.mk { key := "singing", transitions := [(.on cue, .toTarget "silent")] } [],
       .mk { key := "silent", kind := .final } []]
  { root := .mk { key := "m", kind := .parallel } [voice "high" "HUSH", voice "low" "QUIET"]
    context := some fun _ => .null }

/-- With one voice silent the duet goes on; with both it is done. -/
theorem done_iff_root_completed_duet :
    let machine : Machine ActorLogic := duet.machine fun _ => .null
    let facilities : Facilities := ⟨false, true, 1000⟩
    let nursery := Nursery.ofGenerations facilities machine.generations
    let world := (World.around facilities (create machine {})).run
      [.start, .send (Event.named "HUSH")]
    let after := leftBy (process facilities nursery (Event.named "QUIET")) world.interpreter
    world.interpreter.status = .running ∧
      machine.chart.hasCompleted world.interpreter.state.active Chart.root = false ∧
      after.status = .done ∧
      machine.chart.hasCompleted after.state.active Chart.root = true := by
  intro machine facilities nursery world after
  have running : world.interpreter.status = .running := by decide +kernel
  have built : duet.build = .ok machine := build_of_faultless (by decide +kernel) rfl
  obtain ⟨steps, runs⟩ := done_iff_root_completed built (.inr rfl)
    (by decide +kernel)
  have passes := World.run_course facilities (.of_create machine {}) []
    [.start, .send (Event.named "HUSH")] rfl
  obtain ⟨_, ran⟩ : ∃ given, (process facilities nursery (Event.named "QUIET")).run
      world.interpreter = .ok given after :=
    run_of_failureOf?_none (by decide +kernel)
  have done : after.status = .done := by decide +kernel
  have lived : Lived facilities nursery world.interpreter :=
    (fresh_create machine {}).lived.passes passes
  have exact := (steps facilities nursery _ world.interpreter _ _ _ after (.alone {}) passes
    (.next lived running) ran).1
  exact ⟨running, (runs facilities {} _ world rfl).2 running, done, exact.mp done⟩

end MachineSpec

end Statechart
