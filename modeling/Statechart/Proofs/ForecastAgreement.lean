import Statechart.Proofs.Isolation
import Statechart.Proofs.Runs

/-!
# What is foretold comes true

`Machine.resolve` foretells a step from the active states, the records, the context and
the event alone; the engine carries the step out on a bench that changes on the way.
`Engine.Foretells` says that the two agree: the same transitions are selected, the step is
the playing of the script read off the resolution, whose actions are those of the
resolution in the same order, and it ends with the foretold active states and records.
-/

namespace Statechart

namespace Engine

variable (engine : Engine) (event : Event)

/-- Carry out what a resolution foretells. -/
def enact (resolution : Resolution ActorLogic) : StepM Unit := do
  modify (Workbench.onState fun state => { state with history := resolution.history })
  let _ ← engine.play event
    (engine.machine.script resolution.history resolution.exits resolution.chosen
      resolution.entries) []
  return ()

/-- The step for an event from its resolution onwards. -/
def follow (resolution : Resolution ActorLogic) : StepM Bool :=
  if resolution.chosen.isEmpty then do
    engine.stabilize event.type engine.limit event
    return false
  else
    match engine.limit with
    | 0 => throw (.loop 0 event.type)
    | budget + 1 => do
        engine.enact event resolution
        engine.stabilize event.type budget event
        return true

/-- On a bench like this the step for the event does what the resolution says. -/
structure Foretells (bench : Workbench) (resolution : Resolution ActorLogic) : Prop where
  selects : (engine.select .event event).run bench = .ok resolution.chosen
    { bench with conflicts := bench.conflicts ++ resolution.conflicts }
  follows : (engine.macrostep event).run bench = (engine.follow event resolution).run
    { bench with conflicts := bench.conflicts ++ resolution.conflicts }
  enacts : ∀ ready : Workbench, ready.state = bench.state →
    (engine.microstep event resolution.chosen).run ready =
      (engine.enact event resolution).run ready
  performs : (engine.machine.script resolution.history resolution.exits resolution.chosen
    resolution.entries).filterMap Beat.action? = resolution.actions
  actions : resolution.actions =
    (resolution.exits.flatMap fun state => (engine.machine.conduct state).exit) ++
      (resolution.chosen.flatMap fun choice => choice.candidate.actions) ++
      resolution.entries.flatMap fun state => (engine.machine.conduct state).entry
  exitsFromLast : resolution.exits.Pairwise (· > ·)
  entriesFromFirst : resolution.entries.Pairwise (· < ·)
  arrives : ∀ ready after : Workbench, ready.state = bench.state →
    (engine.microstep event resolution.chosen).run ready = .ok () after →
      after.state.active = resolution.active ∧ after.state.history = resolution.history

end Engine

section Foretelling

variable {machine : Machine ActorLogic} {engine : Engine}
variable {event : Event} {bench : Workbench}

theorem select_run
    (trigger : Trigger) :
    (engine.select trigger event).run bench =
      match engine.machine.select trigger bench.state.active bench.state.history
          bench.state.context event with
      | .error error => .error (.guard error) bench
      | .ok selection =>
          .ok selection.chosen
            { bench with conflicts := bench.conflicts ++ selection.conflicts } := by
  unfold Engine.select
  refine (run_get_bind _ _).trans ?_
  cases engine.machine.select trigger bench.state.active bench.state.history
      bench.state.context event with
  | error reason => rfl
  | ok selection => rfl

/-- Foretelling fails because of a guard exactly if the guard fails the engine while it
selects. -/
theorem resolve_guard_iff_select
    {reason : GuardError} :
    engine.machine.resolve bench.state.active bench.state.history bench.state.context
        event = .error (.guard reason) ↔
      (engine.select .event event).run bench = .error (.guard reason) bench := by
  rw [Machine.resolve_guard_iff, select_run]
  cases engine.machine.select .event bench.state.active bench.state.history
      bench.state.context event with
  | error other => simp
  | ok selection => simp

/-- The engine does what the resolution says. -/
theorem foretells_of_resolve
    {resolution : Resolution ActorLogic}
    (resolved : engine.machine.resolve bench.state.active bench.state.history
      bench.state.context event = .ok resolution) :
    engine.Foretells event bench resolution := by
  obtain ⟨selection, entries, selected, planned, rfl⟩ := Machine.resolve_ok_iff.mp resolved
  have selects : (engine.select .event event).run bench = .ok selection.chosen
      { bench with conflicts := bench.conflicts ++ selection.conflicts } := by
    rw [select_run, selected]
  have enacts : ∀ ready : Workbench, ready.state = bench.state →
      (engine.microstep event selection.chosen).run ready =
        (engine.enact event (engine.machine.foretold bench.state.active bench.state.history
          selection entries)).run ready := by
    intro ready sameState
    rw [Engine.microstep_eq_play engine event (by rw [sameState]; exact planned), sameState]
    rfl
  refine
    { selects := selects
      follows := ?_
      enacts := enacts
      performs := engine.machine.script_actions _ _ _ _
      actions := rfl
      exitsFromLast := Chart.exits_descending _ _ _ _
      entriesFromFirst := Chart.entries_ordered planned
      arrives := ?_ }
  · unfold Engine.macrostep Engine.follow
    refine (run_bind_of_ok selects _).trans ?_
    by_cases idle : selection.chosen.isEmpty = true
    · simp only [Machine.foretold, idle, if_true]
    · simp only [Machine.foretold, idle]
      cases engine.limit with
      | zero => rfl
      | succ budget => exact run_bind_congr (enacts _ rfl) fun _ _ _ => rfl
  · intro ready after sameState ran
    have ends := Engine.microstep_ends engine event
      (show engine.machine.chart.entries?
        (engine.machine.chart.recordedBy ready.state.active ready.state.history
          (selection.chosen.map Choice.move)) (selection.chosen.map Choice.move) =
        some entries by rw [sameState]; exact planned)
    rw [ends_iff_run, sameState] at ends
    obtain ⟨active, history, _⟩ := ends.1 () after ran
    exact ⟨active, history⟩

theorem resolves_of_microstep
    {chosen : List (Choice ActorLogic)} {ready after : Workbench}
    (selects : (engine.select .event event).run bench = .ok chosen ready)
    (ran : (engine.microstep event chosen).run ready = .ok () after) :
    ∃ resolution, engine.machine.resolve bench.state.active bench.state.history
        bench.state.context event = .ok resolution ∧
      after.state.active = resolution.active ∧
        after.state.history = resolution.history := by
  rw [select_run] at selects
  cases selected : engine.machine.select .event bench.state.active bench.state.history
      bench.state.context event with
  | error reason => simp [selected] at selects
  | ok selection =>
      simp only [selected, EStateM.Result.ok.injEq] at selects
      obtain ⟨rfl, rfl⟩ := selects
      cases planned : engine.machine.chart.entries?
          (engine.machine.chart.recordedBy bench.state.active bench.state.history
            (selection.chosen.map Choice.move))
          (selection.chosen.map Choice.move) with
      | none =>
          have fails := Engine.microstep_fails engine event
            { bench with conflicts := bench.conflicts ++ selection.conflicts } planned
          rw [ends_iff_run] at fails
          exact absurd (fails.1 () after ran) not_false
      | some entries =>
          have resolved := Machine.resolve_ok_iff.mpr
            ⟨selection, entries, selected, planned, rfl⟩
          exact ⟨_, resolved, (foretells_of_resolve resolved).arrives
            { bench with conflicts := bench.conflicts ++ selection.conflicts } after rfl ran⟩

/-- The state that a running interpreter holds can be reached, and its snapshot shows it. -/
theorem running_reaches
    {world : World} {entered : Prop}
    (accounted : world.Accounted machine entered)
    (running : world.interpreter.status = .running) :
    world.interpreter.machine = machine ∧
      machine.Reaches world.interpreter.state.active world.interpreter.state.history ∧
      world.interpreter.snapshot.Shows world.interpreter.state .running := by
  obtain ⟨told, fits, _, _, _⟩ := accounted
  obtain ⟨visits, chronicle, _⟩ := (fits.underway running).follows
  exact ⟨fits.runs, ⟨visits, chronicle⟩, running ▸ fits.shows⟩

end Foretelling

end Statechart
