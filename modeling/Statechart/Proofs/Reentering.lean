import Statechart.Proofs.MicrostepLimits
import Statechart.Proofs.ReentrantMoves
import Statechart.Proofs.StateScripts

/-!
# Leaving a state and entering it again

A step may take a single transition that insists on leaving its source, although all targets
are the source or lie in it.  Then the source is left unless it is the root, and entered again
if a target stands for something.  Where both happen, the step for the event begins with the
renewal of the source: its exit actions, the end of its actors, its entry actions and new
actors for its invocations and delays.
-/

namespace Statechart

/-- The bench once the transitions of a resolution have been selected. -/
def Workbench.ready (resolution : Resolution ActorLogic) (bench : Workbench) : Workbench :=
  { bench with conflicts := bench.conflicts ++ resolution.conflicts }

/-- The step for an event begins with the microstep that a resolution foretells.  Unless an
action fails, that microstep renews the state. -/
structure Engine.Reenters (engine : Engine) (event : Event) (state : StateId)
    (resolution : Resolution ActorLogic) (bench : Workbench) : Prop where
  begins : ∀ budget, engine.limit = budget + 1 →
    (engine.macrostep event).run bench =
      (do engine.microstep event resolution.chosen
          engine.stabilize event.type budget event
          return true : StepM Bool).run (bench.ready resolution)
  renews : Ends (engine.microstep event resolution.chosen) (bench.ready resolution)
    (fun _ after => engine.Renews event state
      (engine.machine.script resolution.history resolution.exits resolution.chosen
        resolution.entries)
      ((bench.ready resolution).onState fun held => { held with history := resolution.history })
      after)
    (fun reason _ => reason.OfAction)

section Renewing

variable {engine : Engine} {event : Event} {state : StateId} {bench after : Workbench}
variable {resolution : Resolution ActorLogic}

theorem renews_of_enact
    (balanced : bench.supervisor.registry.Balanced)
    (isLeft : state ∈ resolution.exits)
    (isEntered : state ∈ resolution.entries)
    (enacted : (engine.enact event resolution).run bench = .ok () after) :
    engine.Renews event state
      (engine.machine.script resolution.history resolution.exits resolution.chosen
        resolution.entries)
      (bench.onState fun held => { held with history := resolution.history }) after := by
  unfold Engine.enact at enacted
  rw [run_modify_bind] at enacted
  obtain ⟨_, _, played, same⟩ := run_bind_eq_ok.mp enacted
  cases same
  obtain ⟨front, between, back, parts⟩ := engine.machine.script_parts isLeft isEntered
    resolution.history resolution.chosen
  rw [parts] at played ⊢
  exact Engine.renews_of_run balanced played

theorem reenters_of_resolve
    (resolved : engine.machine.resolve bench.state.active bench.state.history
      bench.state.context event = .ok resolution)
    (balanced : bench.supervisor.registry.Balanced)
    (taken : resolution.chosen ≠ [])
    (isLeft : state ∈ resolution.exits)
    (isEntered : state ∈ resolution.entries) :
    engine.Reenters event state resolution bench := by
  have foretells := foretells_of_resolve resolved
  constructor
  · intro budget limit
    unfold Engine.macrostep
    rw [run_bind_of_ok foretells.selects, if_neg (by simpa using taken), limit]
    rfl
  · rw [ends_iff_run]
    constructor
    · intro _ after ran
      rw [foretells.enacts (bench.ready resolution) rfl] at ran
      exact renews_of_enact balanced isLeft isEntered ran
    · intro reason after failed
      refine (Engine.microstep_blamed failed).resolve_right fun unplanned => ?_
      obtain ⟨selection, entries, _, planned, rfl⟩ := Machine.resolve_ok_iff.mp resolved
      cases planned.symm.trans unplanned.2

end Renewing

namespace MachineSpec

variable {spec : MachineSpec ActorLogic} {machine : Machine ActorLogic}

/-- Let an event in a valid configuration select a single transition that insists on leaving its
source, with at least one target and all targets equal to the source or inside it.  The step
can be foretold.  It leaves the source exactly if that is not the root.  It enters the root
exactly if the root is a target, and any other source exactly if some target stands for
something, as all targets do if no parallel state is without regions.  Wherever it does both,
the step of an engine for the event, the books of whose actors are in balance as they always
are, begins with the renewal of the source, unless one of the actions to be carried out fails. -/
theorem reentry_renews_iff
    (built : spec.build = .ok machine)
    (ordinaryRoot : spec.HasOrdinaryRoot)
    {active : Configuration} {history : HistoryRecords}
    (valid : machine.chart.check active = none)
    (sound : machine.chart.Sound history)
    {context : Json} {event : Event} {selection : Selection ActorLogic}
    (selected : machine.select .event active history context event = .ok selection)
    {choice : Choice ActorLogic}
    (alone : selection.chosen = [choice])
    (reentrant : choice.move.Reentrant machine.chart) :
    ∃ resolution, machine.resolve active history context event = .ok resolution ∧
      (choice.move.source ∈ resolution.exits ↔ choice.move.source ≠ Chart.root) ∧
      (choice.move.source ∈ resolution.entries ↔
        choice.move.source ∈ choice.move.targets ∨
          choice.move.source ≠ Chart.root ∧
            ∃ target ∈ choice.move.targets,
              machine.chart.standsFor resolution.history target ≠ []) ∧
      (machine.chart.Regioned → machine.chart.Recorded history →
        ∀ target, machine.chart.standsFor resolution.history target ≠ []) ∧
      (choice.move.source ∈ resolution.exits → choice.move.source ∈ resolution.entries →
        ∀ (engine : Engine) (bench : Workbench), engine.machine = machine →
          bench.state.active = active → bench.state.history = history →
          bench.state.context = context → bench.supervisor.registry.Balanced →
            engine.Reenters event choice.move.source resolution bench) := by
  have formed := build_machine_wellFormed built ordinaryRoot
  have isValid := (Chart.check_eq_none_iff formed.chart).mp valid
  have moves : selection.chosen.map Choice.move = [choice.move] := by rw [alone]; rfl
  have fits := Machine.select_fits formed.chart formed.lead isValid selected choice.move
    (moves ▸ List.mem_singleton_self _)
  have inRange := isValid.inRange _ fits.sourceActive
  have ordinary := isValid.ordinary _ fits.sourceActive
  have recordedSound := Chart.recordedBy_sound formed.chart isValid.ordinary sound [choice.move]
  obtain ⟨entries, planned⟩ := Chart.entries_end formed.chart recordedSound [choice.move]
  have resolved := Machine.resolve_ok_iff.mpr
    ⟨selection, entries, selected, moves ▸ planned, rfl⟩
  refine ⟨_, resolved, ?_, ?_, ?_, ?_⟩
  · simp only [Machine.foretold, moves]
    exact Chart.source_left_iff formed.chart isValid fits.sourceActive reentrant
  · simp only [Machine.foretold, moves]
    exact Chart.source_entered_iff formed.chart recordedSound inRange ordinary reentrant planned
  · intro regioned recorded
    exact (recorded.left valid fun _ isLeft => (Chart.mem_exits.mp isLeft).1).stands formed.chart
      regioned (build_defaulted built ordinaryRoot)
  · rintro isLeft isEntered engine bench rfl rfl rfl rfl balanced
    refine reenters_of_resolve resolved balanced ?_ isLeft isEntered
    simp [Machine.foretold, alone]

/-- A form that is saved now and then by an actor and closed when nothing is done for a while;
it can be loaded again, all at once. -/
def form : MachineSpec ActorLogic :=
  { root := .mk { key := "m", initial := some "form" }
      [.mk
        { key := "form"
          entry := [.log none fun _ _ => "enter form"]
          exit := [.log none fun _ _ => "exit form"]
          invokes := [{ id := some "saver", logic := .callback fun _ => {} }]
          transitions := [(.on "RELOAD", { targets := [".clean"], reenter := true })]
          after := [(.ofMillis 10, .toTarget "closed")] }
        [.mk { key := "clean" } [], .mk { key := "dirty" } []],
       .mk { key := "closed" } []]
    context := some fun _ => .null }

/-- Loading the form again leaves it and enters it, and the step begins with its renewal. -/
theorem reentry_renews_form :
    let machine : Machine ActorLogic := form.machine fun _ => .null
    let world := (World.around ⟨false, true, 1000⟩ (Interpreter.create machine {})).run [.start]
    let engine := world.interpreter.engine world.facilities world.nursery
    let bench := world.interpreter.bench
    let event := Event.named "RELOAD"
    failureOf? (engine.macrostep event) bench = none ∧
      ∃ resolution, machine.resolve bench.state.active bench.state.history
          bench.state.context event = .ok resolution ∧
        1 ∈ resolution.exits ∧ 1 ∈ resolution.entries ∧
        engine.Reenters event 1 resolution bench := by
  intro machine world engine bench event
  have built : form.build = .ok machine := build_of_faultless (by decide +kernel) rfl
  have formed := build_machine_wellFormed built (.inl rfl)
  obtain ⟨selection, selected, chosen⟩ := Machine.select_of_moves
    (show (machine.select .event bench.state.active bench.state.history bench.state.context
      event).map _ = .ok [⟨1, [2], true⟩] by decide +kernel)
  obtain ⟨choice, alone, move⟩ := List.map_eq_singleton_iff.mp chosen
  have reentrant : choice.move.Reentrant machine.chart := by
    rw [move]
    exact ⟨rfl, by decide, by decide +kernel⟩
  have accounted : world.Accounted machine False :=
    World.run_of_create_accounted formed _ {} [.start]
  obtain ⟨runs, ⟨_, chronicle⟩, _⟩ := running_reaches accounted (by decide +kernel)
  have balanced : bench.supervisor.registry.Balanced :=
    ⟨by decide +kernel, by decide +kernel, by decide +kernel⟩
  obtain ⟨resolution, resolved, left, entered, _, renews⟩ := reentry_renews_iff built (.inl rfl)
    (by decide +kernel) (chronicle.tenable formed).sound selected alone reentrant
  rw [move] at left entered renews
  have isLeft : 1 ∈ resolution.exits := left.mpr (by decide)
  have stands : machine.chart.standsFor resolution.history 2 = [2] :=
    Chart.standsFor_ordinary (by decide +kernel)
  have isEntered : 1 ∈ resolution.entries :=
    entered.mpr (.inr ⟨by decide, 2, by decide, by simp [stands]⟩)
  exact ⟨by decide +kernel, resolution, resolved, isLeft, isEntered,
    renews isLeft isEntered engine bench runs rfl rfl rfl balanced⟩

/-- A machine whose root insists on being left for itself. -/
def restless : MachineSpec ActorLogic :=
  { root := .mk
      { key := "m"
        initial := some "a"
        transitions := [(.on "E", { targets := ["#m"], reenter := true })] }
      [.mk { key := "a" } []]
    context := some fun _ => .null }

/-- The root is entered again without having been left. -/
theorem reentry_not_complete_restless :
    let machine : Machine ActorLogic := restless.machine fun _ => .null
    let event := Event.named "E"
    restless.build = .ok machine ∧ machine.chart.check [0, 1] = none ∧
      machine.chart.initialConfiguration = [0, 1] ∧
      (machine.select .event [0, 1] [] .null event).map (fun selection =>
        selection.chosen.map Choice.move) = .ok [⟨0, [0], true⟩] ∧
      (machine.resolve [0, 1] [] .null event).map (fun resolution =>
        (resolution.exits, resolution.entries)) = .ok ([1], [0, 1]) := by
  intro machine event
  exact ⟨build_of_faultless (by decide +kernel) rfl, by decide +kernel, by decide +kernel,
    by decide +kernel, by decide +kernel⟩

end MachineSpec

end Statechart
