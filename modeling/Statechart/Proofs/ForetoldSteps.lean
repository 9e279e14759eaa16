import Statechart.Proofs.MicrostepLimits
import Statechart.Proofs.StateInvariants

/-!
# When a step can be foretold

Foretelling and the engine agree on any bench.  What an interpreter promises, though, is read
off what can be foretold: it promises to take up an event exactly if transitions are selected
for it and planning their step ends.  In the life of an interpreter that is new, or restored
with sound records, planning always ends, so that the promise is kept to the letter.
-/

namespace Statechart

section Foretelling

variable {machine : Machine ActorLogic} {engine : Engine}
variable {event : Event} {bench : Workbench}

/-- Foretelling does not end exactly if transitions are selected whose step cannot be planned
to the end. -/
theorem resolve_endless_iff_select
    (formed : engine.machine.chart.WellFormed) :
    engine.machine.resolve bench.state.active bench.state.history bench.state.context
        event = .error .endlessEntry ↔
      ∃ chosen after, (engine.select .event event).run bench = .ok chosen after ∧
        ¬ bench.PlanningEnds engine.machine.chart chosen := by
  rw [Machine.resolve_endless_iff, select_run]
  cases engine.machine.select .event bench.state.active bench.state.history
      bench.state.context event with
  | error reason => simp
  | ok selection =>
      simp [Workbench.PlanningEnds, Chart.entries_eq_none_iff_endless formed]

/-- A snapshot of a state promises to take up an event exactly if the engine selects
transitions for it and planning their step ends. -/
theorem can_iff_selects
    {snapshot : Snapshot}
    (formed : machine.chart.WellFormed)
    (runs : engine.machine = machine)
    (shows : snapshot.Shows bench.state .running) :
    snapshot.can machine event = true ↔
      ∃ chosen after, chosen ≠ [] ∧ (engine.select .event event).run bench = .ok chosen after ∧
        bench.PlanningEnds machine.chart chosen := by
  subst runs
  unfold Snapshot.can
  rw [shows.active, shows.history, shows.context, shows.status, select_run]
  cases selected : engine.machine.select .event bench.state.active bench.state.history
      bench.state.context event with
  | error reason => simp [Machine.resolve, selected]
  | ok selection =>
      cases planned : engine.machine.chart.entries?
          (engine.machine.chart.recordedBy bench.state.active bench.state.history
            (selection.chosen.map Choice.move)) (selection.chosen.map Choice.move) with
      | none =>
          have endless : ¬ bench.PlanningEnds engine.machine.chart selection.chosen :=
            (Chart.entries_eq_none_iff_endless formed).mp planned
          have resolved := Machine.resolve_endless_iff.mpr ⟨selection, selected, planned⟩
          simp [resolved, endless]
      | some entries =>
          have ends : bench.PlanningEnds engine.machine.chart selection.chosen :=
            ⟨entries, (Chart.entries_eq_some_iff formed).mp planned⟩
          have resolved := Machine.resolve_ok_iff.mpr
            ⟨selection, entries, selected, planned, rfl⟩
          simp [resolved, Machine.foretold, ends]

theorem can_iff_selects_of_tenable
    {snapshot : Snapshot}
    (formed : machine.chart.WellFormed)
    (runs : engine.machine = machine)
    (tenable : bench.Tenable machine.chart)
    (shows : snapshot.Shows bench.state .running) :
    snapshot.can machine event = true ↔
      ∃ chosen after, chosen ≠ [] ∧
        (engine.select .event event).run bench = .ok chosen after := by
  have ends : ∀ chosen, bench.PlanningEnds machine.chart chosen :=
    tenable.planningEnds formed
  simp [can_iff_selects formed runs shows, ends]

end Foretelling

namespace MachineSpec

variable {spec : MachineSpec ActorLogic} {machine : Machine ActorLogic}

/-- Foretelling and the engine agree, in any state: foretelling fails with a guard error
exactly if the engine's first selection does, and does not end exactly if planning the step
for what is selected does not; what is foretold is what the engine does; and a first
microstep that goes well ends where foretelling says.  From whatever a built machine can
reach, foretelling fails for a guard only.  A running interpreter, however its life began,
promises to take up an event exactly if its first selection for the event finds transitions
and planning their step ends.  If it was new at first or restored with sound records, that is
whenever the first selection finds transitions. -/
theorem resolve_foretells_engine_iff
    (built : spec.build = .ok machine)
    (ordinaryRoot : spec.HasOrdinaryRoot) :
    (∀ (engine : Engine) (bench : Workbench) (event : Event), engine.machine = machine →
      (∀ reason, machine.resolve bench.state.active bench.state.history
          bench.state.context event = .error (.guard reason) ↔
        (engine.select .event event).run bench = .error (.guard reason) bench) ∧
      (machine.resolve bench.state.active bench.state.history bench.state.context event =
          .error .endlessEntry ↔
        ∃ chosen after, (engine.select .event event).run bench = .ok chosen after ∧
          ¬ bench.PlanningEnds machine.chart chosen) ∧
      (∀ resolution, machine.resolve bench.state.active bench.state.history
          bench.state.context event = .ok resolution →
        engine.Foretells event bench resolution) ∧
      ∀ chosen ready after, (engine.select .event event).run bench = .ok chosen ready →
        (engine.microstep event chosen).run ready = .ok () after →
          ∃ resolution, machine.resolve bench.state.active bench.state.history
              bench.state.context event = .ok resolution ∧
            after.state.active = resolution.active ∧
              after.state.history = resolution.history) ∧
    (∀ active history context event error, machine.Reaches active history →
      machine.resolve active history context event = .error error →
        ∃ reason, error = .guard reason) ∧
    (∀ (facilities : Facilities) (settings : Settings) (operations : List Operation)
        (world : World),
      world = (World.around facilities (Interpreter.create machine settings)).run
        operations →
      world.interpreter.status = .running →
        machine.Reaches world.interpreter.state.active world.interpreter.state.history) ∧
    ∀ (facilities : Facilities) (nursery : Nursery) (start interpreter : Interpreter)
        (event : Event),
      start.Fresh → start.machine = machine →
      Interpreter.Passes facilities nursery start interpreter →
      interpreter.status = .running →
        (interpreter.snapshot.can machine event = true ↔
          ∃ chosen after, chosen ≠ [] ∧
            ((interpreter.engine facilities nursery).select .event event).run
              interpreter.bench = .ok chosen after ∧
            interpreter.bench.PlanningEnds machine.chart chosen) ∧
        (machine.SetsOut start →
          (interpreter.snapshot.can machine event = true ↔
            ∃ chosen after, chosen ≠ [] ∧
              ((interpreter.engine facilities nursery).select .event event).run
                interpreter.bench = .ok chosen after)) := by
  have formed := build_machine_wellFormed built ordinaryRoot
  refine ⟨?_, ?_, ?_, ?_⟩
  · rintro engine bench event rfl
    exact ⟨fun reason => resolve_guard_iff_select, resolve_endless_iff_select formed.chart,
      fun resolution => foretells_of_resolve,
      fun chosen ready after => resolves_of_microstep⟩
  · rintro active history context event error ⟨visits, chronicle⟩ failed
    have tenable := chronicle.tenable formed
    rcases Machine.resolve_of_sound formed.chart tenable.ordinary tenable.sound with
      ⟨reason, guarded⟩ | ⟨resolution, resolved, _⟩
    · exact ⟨reason, Except.error.inj (failed.symm.trans guarded)⟩
    · rw [resolved] at failed
      cases failed
  · rintro facilities settings operations world rfl running
    have accounted := World.run_of_create_accounted formed facilities settings operations
    exact (running_reaches accounted running).2.1
  · rintro facilities nursery start interpreter event fresh rfl passes running
    obtain ⟨runs, shows⟩ := passes.shows fresh running
    refine ⟨can_iff_selects formed.chart runs shows, fun setsOut => ?_⟩
    have recollects := passes.recollects (Machine.maintains_tenable formed)
      (setsOut.recollects formed)
    exact can_iff_selects_of_tenable formed.chart runs recollects.kept shows

/-- A player that has been started promises to take up what its first selection finds a
transition for, and does what is foretold. -/
theorem resolve_foretells_player :
    let machine : Machine ActorLogic := player.machine fun _ => .null
    let facilities : Facilities := ⟨false, true, 1000⟩
    let nursery := Nursery.ofGenerations facilities machine.generations
    let interpreter :=
      ((World.around facilities (Interpreter.create machine {})).run [.start]).interpreter
    let engine := interpreter.engine facilities nursery
    let event := Event.named "PLAY"
    interpreter.status = .running ∧
      (∃ resolution, engine.Foretells event interpreter.bench resolution) ∧
      interpreter.snapshot.can machine event = true ∧
      ∃ chosen after, chosen ≠ [] ∧
        (engine.select .event event).run interpreter.bench = .ok chosen after := by
  intro machine facilities nursery interpreter engine event
  have built : player.build = .ok machine := build_of_faultless (by decide +kernel) rfl
  have running : interpreter.status = .running := by decide +kernel
  have promised : interpreter.snapshot.can machine event = true := by decide +kernel
  have begins : Interpreter.Begins machine _ := .of_create machine {}
  obtain ⟨_, runs, lived, _⟩ :=
    (World.becomes_run [.start] (World.around facilities _)).lives facilities begins
  obtain ⟨agrees, _, _, promises⟩ := resolve_foretells_engine_iff built (.inr rfl)
  have resolves : (machine.resolve interpreter.bench.state.active
      interpreter.bench.state.history interpreter.bench.state.context event).isOk = true := by
    decide +kernel
  refine ⟨running, ?_, promised,
    ((promises facilities nursery _ _ event begins.fresh rfl lived running).2
      (.born (.alone {}))).mp promised⟩
  obtain ⟨_, _, does, _⟩ := agrees engine interpreter.bench event runs
  cases resolved : machine.resolve interpreter.bench.state.active
      interpreter.bench.state.history interpreter.bench.state.context event with
  | error failure =>
      rw [resolved] at resolves
      cases resolves
  | ok resolution => exact ⟨resolution, does resolution resolved⟩

/-- Restored with the record of the shelf naming itself, the bookshelf runs and has no mail, and
the first selection for `RETURN` finds a transition; but it is not promised. -/
theorem resolve_foretells_not_bookshelf :
    let machine : Machine ActorLogic := bookshelf.machine fun _ => .null
    let facilities : Facilities := ⟨false, true, 1000⟩
    let nursery := Nursery.ofGenerations facilities machine.generations
    ∃ start, bookshelf.build = .ok machine ∧
      Interpreter.restore machine (shelved ["m.shelf.open"]) {} = .ok start ∧
      let interpreter := ((World.around facilities start).run [.start]).interpreter
      interpreter.status = .running ∧ interpreter.supervisor.inbox = [] ∧
        (∃ chosen after, chosen ≠ [] ∧
          ((interpreter.engine facilities nursery).select .event (Event.named "RETURN")).run
            interpreter.bench = .ok chosen after) ∧
        interpreter.snapshot.can machine (Event.named "RETURN") = false := by
  intro machine facilities nursery
  refine ⟨_, build_of_faultless (by decide +kernel) rfl, restore_shelved, ?_⟩
  intro interpreter
  refine ⟨by decide +kernel, by decide +kernel, ?_, by decide +kernel⟩
  have finds : (match ((interpreter.engine facilities nursery).select .event
      (Event.named "RETURN")).run interpreter.bench with
    | .ok chosen _ => chosen.isEmpty
    | .error _ _ => true) = false := by decide +kernel
  cases selected : ((interpreter.engine facilities nursery).select .event
      (Event.named "RETURN")).run interpreter.bench with
  | ok chosen after =>
      rw [selected] at finds
      exact ⟨chosen, after, List.isEmpty_eq_false_iff.mp finds, rfl⟩
  | error reason after =>
      rw [selected] at finds
      cases finds

end MachineSpec

end Statechart
