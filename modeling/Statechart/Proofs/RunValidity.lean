import Statechart.Proofs.PlainMoves
import Statechart.Proofs.Runs

/-!
# Snapshots of a run

Which steps keep a configuration valid is known exactly: the lawful ones.  If a machine
takes no others, every snapshot after the first step of any run shows a valid
configuration.
-/

namespace Statechart.MachineSpec

variable {spec : MachineSpec ActorLogic} {machine : Machine ActorLogic}

/-- A step from a valid configuration that is reached leads to a valid one exactly if it
is lawful; so all that a machine reaches is valid exactly if it steps lawfully, which it
does if it declares plain moves only.  Then, once the first step of a run has been taken,
every snapshot that the interpreter holds or shows from there on is valid, whatever is
done with it. -/
theorem snapshots_valid_iff_lawful
    (built : spec.build = .ok machine)
    (ordinaryRoot : spec.HasOrdinaryRoot) :
    (∀ active history moves entries, machine.Reaches active history →
      machine.Steps active history moves entries → machine.chart.check active = none →
        (machine.chart.check
            (machine.chart.succeeding active history moves entries) = none ↔
          machine.chart.Lawful active history moves entries)) ∧
    (machine.StepsLawfully ↔
      ∀ active history, machine.Reaches active history →
        machine.chart.check active = none) ∧
    (machine.Plain → machine.StepsLawfully) ∧
    (machine.StepsLawfully →
      ∀ (facilities : Facilities) (settings : Settings) (before after : List Operation)
        (started world : World),
        started = (World.around facilities (Interpreter.create machine settings)).run before →
        world = started.run after →
        started.interpreter.snapshot.HasEntered →
          ∀ snapshot, snapshot = world.interpreter.snapshot ∨ ShownIn world.account snapshot →
            machine.chart.check snapshot.active = none) := by
  have formed := build_machine_wellFormed built ordinaryRoot
  simp only [Chart.check_eq_none_iff formed.chart]
  refine ⟨?_, Machine.stepsLawfully_iff_valid formed,
    fun plain => plain.stepsLawfully formed, ?_⟩
  · rintro active history moves entries ⟨visits, chronicle⟩ steps valid
    exact steps.valid_iff_lawful formed valid (chronicle.tenable formed).sound
  · rintro lawful facilities settings before after started world begun same entered
      snapshot shown
    have atStart : started.Accounted machine False := by
      rw [begun]
      exact World.run_of_create_accounted formed facilities settings before
    have accounted : world.Accounted machine True := by
      rw [same]
      exact World.run_accounted formed after (atStart.enter entered)
    obtain ⟨visits, chronicle⟩ := accounted.reaches shown
    exact chronicle.valid formed lawful

/-- A player that has been started shows a valid configuration when told to play. -/
theorem snapshots_valid_of_player :
    let machine : Machine ActorLogic := player.machine fun _ => .null
    let started := (World.around ⟨false, true, 1000⟩ (Interpreter.create machine {})).run
      [.start]
    let world := started.run [.send (Event.named "PLAY")]
    machine.StepsLawfully ∧ started.interpreter.snapshot.HasEntered ∧
      machine.chart.check world.interpreter.snapshot.active = none := by
  intro machine started world
  have built : player.build = .ok machine := build_of_faultless (by decide +kernel) rfl
  have plain : machine.Plain := by decide +kernel
  obtain ⟨_, _, steps, shown⟩ := snapshots_valid_iff_lawful built (.inr rfl)
  have lawful := steps plain
  have entered : started.interpreter.snapshot.HasEntered := .inl (by decide +kernel)
  exact ⟨lawful, entered, shown lawful _ _ _ _ _ _ rfl rfl entered _ (.inl rfl)⟩

/-- A parallel root that leads to a state below one of its regions. -/
def lopsided : MachineSpec L :=
  { root := .mk
      { key := "m", kind := .parallel, transitions := [(.on "E", .toTarget ".A.a2")] }
      [.mk { key := "A" } [.mk { key := "a1" } [], .mk { key := "a2" } []],
       .mk { key := "B" } []]
    context := some fun _ => .null }

/-- The root leaves both of its regions and enters only the one that it leads to. -/
theorem snapshot_not_valid_lopsided :
    let machine : Machine ActorLogic := lopsided.machine fun _ => .null
    let started := (World.around ⟨false, true, 1000⟩ (Interpreter.create machine {})).run
      [.start]
    let world := started.run [.send (Event.named "E")]
    lopsided.build = .ok machine ∧ started.interpreter.snapshot.HasEntered ∧
      world.interpreter.status = .running ∧
      world.interpreter.snapshot.active = [0, 1, 3] ∧
      machine.chart.check world.interpreter.snapshot.active ≠ none :=
  ⟨build_of_faultless (by decide +kernel) rfl, .inl (by decide +kernel), by decide +kernel,
    by decide +kernel, by decide +kernel⟩

end Statechart.MachineSpec
