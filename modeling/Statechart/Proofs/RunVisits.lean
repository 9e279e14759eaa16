import Statechart.Proofs.PlainMoves
import Statechart.Proofs.Runs

/-!
# The visits of a run

A run that enters no state which stays active enters and leaves each state in turn, and
leaves every state again before it ends.  Which steps enter no such state is known
exactly: those that enter nothing but states strictly inside the domains of their moves.
-/

namespace Statechart

/-- When the state with this id was entered and when it was left, as told. -/
def visitsTo (id : String) (account : List Activity) : List Bool :=
  account.filterMap fun
    | .entered state => if state = id then some true else none
    | .exited state => if state = id then some false else none
    | _ => none

namespace Machine

variable {machine : Machine ActorLogic} (formed : machine.WellFormed)
variable {visits : List Visit} {active : Configuration} {history : HistoryRecords}

include formed in
theorem Chronicle.visits_in_range
    (chronicle : machine.Chronicle visits active history) :
    ∀ visit ∈ visits, visit.state < machine.chart.size := by
  induction chronicle with
  | start started =>
      intro visit member
      obtain ⟨state, isEntered, rfl⟩ := List.mem_map.mp member
      exact (Chart.initialEntries_valid formed.chart started).inRange state isEntered
  | step earlier steps ih =>
      have tenable := earlier.tenable formed
      intro visit member
      rcases List.mem_append.mp member with before | now
      · exact ih visit before
      · rcases List.mem_append.mp now with left | entered
        · obtain ⟨state, isLeft, rfl⟩ := List.mem_map.mp left
          exact tenable.inRange state (Chart.mem_exits.mp isLeft).1
        · obtain ⟨state, isEntered, rfl⟩ := List.mem_map.mp entered
          exact steps.in_range formed tenable state isEntered

theorem visitsTo_map
    (distinct : ∀ first second, first < machine.chart.size → second < machine.chart.size →
      machine.chart.id first = machine.chart.id second → first = second)
    (inRange : ∀ visit ∈ visits, visit.state < machine.chart.size)
    {state : StateId}
    (isState : state < machine.chart.size) :
    visitsTo (machine.chart.id state) (visits.map (Visit.activity machine.chart)) =
      visitsOf state visits := by
  induction visits with
  | nil => rfl
  | cons visit visits ih =>
      have later := ih fun other member => inRange other (List.mem_cons_of_mem visit member)
      have here := inRange visit List.mem_cons_self
      have same : machine.chart.id visit.state = machine.chart.id state ↔
          visit.state = state :=
        ⟨distinct _ _ here isState, fun equal => by rw [equal]⟩
      obtain ⟨visited, entering⟩ := visit
      unfold visitsTo visitsOf at later ⊢
      by_cases equal : visited = state
      · subst equal
        cases entering <;> simp [Visit.activity, later]
      · cases entering <;> simp [Visit.activity, later, same, equal]

/-- Leaving all active states ends the visits of every state. -/
theorem toggles_conclude
    (ordered : active.Ordered)
    {state : StateId}
    (toggles : Toggles (visitsOf state visits) (decide (state ∈ active))) :
    Toggles (visitsOf state (visits ++ visitAll false active.reverse)) false := by
  have left := toggles.leaveAll (List.pairwise_reverse.mpr (ordered.nodup.imp Ne.symm))
    fun isLeft => List.mem_reverse.mp isLeft
  simpa using left

end Machine

/-- The state is active and has not been left at the end of the run. -/
def Interpreter.Holds (interpreter : Interpreter) (state : StateId) : Prop :=
  interpreter.status ≠ .stopped ∧ interpreter.status ≠ .done ∧
    state ∈ interpreter.state.active

instance (interpreter : Interpreter) (state : StateId) :
    Decidable (interpreter.Holds state) :=
  inferInstanceAs (Decidable (_ ∧ _ ∧ _))

section Committed

variable {machine : Machine ActorLogic} (formed : machine.WellFormed)
variable (distinct : ∀ first second, first < machine.chart.size →
  second < machine.chart.size → machine.chart.id first = machine.chart.id second →
    first = second)
variable (freshly : machine.StepsFreshly)

include formed distinct freshly

/-- What an interpreter has told begins with visits in turn; only a failed step adds
others. -/
theorem Interpreter.Standing.committed
    {entered : Prop} {told : List Activity} {interpreter : Interpreter}
    (standing : interpreter.Standing machine entered told) :
    ∃ committed rest, told = committed ++ rest ∧
      (interpreter.status ≠ .error → rest = []) ∧
      ∀ state < machine.chart.size,
        Toggles (visitsTo (machine.chart.id state) committed)
          (decide (interpreter.Holds state)) := by
  have nothing : interpreter.state.active = [] → ∀ state,
      Toggles (visitsTo (machine.chart.id state) []) (decide (interpreter.Holds state)) := by
    intro inactive state
    rw [decide_eq_false (by simp [Interpreter.Holds, inactive])]
    exact .none
  have chronicled : ∀ visits,
      machine.Chronicle visits interpreter.state.active interpreter.state.history →
      interpreter.status ≠ .stopped → interpreter.status ≠ .done →
      ∀ state < machine.chart.size,
        Toggles (visitsTo (machine.chart.id state)
          (visits.map (Visit.activity machine.chart)))
          (decide (interpreter.Holds state)) := by
    intro visits chronicle unstopped undone state isState
    rw [Machine.visitsTo_map distinct (chronicle.visits_in_range formed) isState]
    simpa [Interpreter.Holds, unstopped, undone] using
      chronicle.toggles freshly state
  cases standing with
  | unstarted _ _ untold inactive =>
      exact ⟨[], [], untold, fun _ => rfl, fun state _ => nothing inactive state⟩
  | running visits status chronicle same =>
      exact ⟨_, [], by rw [same, List.append_nil], fun _ => rfl,
        chronicled visits chronicle (by rw [status]; decide) (by rw [status]; decide)⟩
  | withdrawn _ _ untold inactive =>
      exact ⟨[], [], untold, fun _ => rfl, fun state _ => nothing inactive state⟩
  | concluded visits status chronicle same =>
      refine ⟨_, [], by rw [same, List.append_nil], fun _ => rfl, ?_⟩
      intro state isState
      have tenable := chronicle.tenable formed
      have inRange : ∀ visit ∈ visits ++ visitAll false interpreter.state.active.reverse,
          visit.state < machine.chart.size := by
        intro visit member
        rcases List.mem_append.mp member with before | left
        · exact chronicle.visits_in_range formed visit before
        · obtain ⟨other, isLeft, rfl⟩ := List.mem_map.mp left
          exact tenable.inRange other (List.mem_reverse.mp isLeft)
      have ended : ¬ interpreter.Holds state := by
        rcases status with stopped | done
        · simp [Interpreter.Holds, stopped]
        · simp [Interpreter.Holds, done]
      rw [Machine.visitsTo_map distinct inRange isState, decide_eq_false ended]
      exact Machine.toggles_conclude tenable.ordered (chronicle.toggles freshly state)
  | stillborn _ status inactive =>
      exact ⟨[], told, rfl, fun fine => absurd status fine,
        fun state _ => nothing inactive state⟩
  | failed visits rest status chronicle same =>
      exact ⟨_, rest, same, fun fine => absurd status fine,
        chronicled visits chronicle (by rw [status]; decide) (by rw [status]; decide)⟩

end Committed

namespace MachineSpec

variable {spec : MachineSpec ActorLogic} {machine : Machine ActorLogic}

/-- Each state is entered and left in turn, whatever is reached, exactly if no step enters
a state that stays active, and a step from a valid configuration enters none exactly if it
is contained in the domains of its moves; no step of a machine that declares plain moves
only does.  Then this holds of every run too: but for the visits of a step that failed,
the entries and exits of each state alternate, beginning with an entry, and once the
interpreter is stopped or done each state has been left as often as it was entered. -/
theorem visits_alternate_iff_fresh
    (built : spec.build = .ok machine)
    (ordinaryRoot : spec.HasOrdinaryRoot) :
    (machine.StepsFreshly ↔
      ∀ visits active history, machine.Chronicle visits active history →
        ∀ state, Toggles (visitsOf state visits) (decide (state ∈ active))) ∧
    (∀ active history moves entries, machine.Reaches active history →
      machine.Steps active history moves entries → machine.chart.check active = none →
        ((∀ state ∈ entries, state ∉ machine.chart.staying active history moves) ↔
          machine.chart.Contained history moves entries)) ∧
    (machine.Plain → machine.StepsFreshly) ∧
    (machine.StepsFreshly →
      ∀ (facilities : Facilities) (settings : Settings) (operations : List Operation)
        (world : World),
        world = (World.around facilities (Interpreter.create machine settings)).run
          operations →
        ∃ committed failed, visitsIn world.account = committed ++ failed ∧
          (world.interpreter.status ≠ .error → failed = []) ∧
          ∀ state < machine.chart.size,
            let visits := visitsTo (machine.chart.id state) committed
            (false :: visits).IsChain (· ≠ ·) ∧
              (false :: visits).getLast? = some (decide (world.interpreter.Holds state)) ∧
              (world.interpreter.status = .stopped ∨ world.interpreter.status = .done →
                visits.count true = visits.count false)) := by
  have formed := build_machine_wellFormed built ordinaryRoot
  refine ⟨Machine.stepsFreshly_iff_toggles, ?_,
    fun plain => plain.stepsFreshly formed, ?_⟩
  · rintro active history moves entries ⟨visits, chronicle⟩ steps valid
    exact steps.fresh_iff_contained formed ((Chart.check_eq_none_iff formed.chart).mp valid)
      (chronicle.tenable formed).sound
  · rintro freshly facilities settings operations world same
    have accounted : world.Accounted machine False := by
      rw [same]
      exact World.run_of_create_accounted formed facilities settings operations
    obtain ⟨told, fits, quiet, visits, _⟩ := accounted
    obtain ⟨committed, failed, split, unfailed, toggles⟩ := fits.standing.committed formed
      (fun first second firstInRange secondInRange =>
        build_ids_distinct built firstInRange secondInRange) freshly
    rw [quiet, List.append_nil] at split
    refine ⟨committed, failed, visits.trans split, unfailed, ?_⟩
    intro state isState
    obtain ⟨chain, last⟩ := (toggles state isState).alternates
    refine ⟨chain, last, ?_⟩
    intro ended
    have left : ¬ world.interpreter.Holds state := by
      rcases ended with stopped | done
      · simp [Interpreter.Holds, stopped]
      · simp [Interpreter.Holds, done]
    have balanced := (toggles state isState).balanced
    rw [decide_eq_false left] at balanced
    exact balanced

/-- A player that is told to play and then stopped has entered and left each state in
turn. -/
theorem visits_alternate_of_player :
    let machine : Machine ActorLogic := player.machine fun _ => .null
    let world := (World.around ⟨false, true, 1000⟩ (Interpreter.create machine {})).run
      [.start, .send (Event.named "PLAY"), .stop]
    machine.StepsFreshly ∧ world.interpreter.status = .stopped ∧
      ∃ committed, visitsIn world.account = committed ∧
        ∀ state < machine.chart.size,
          let visits := visitsTo (machine.chart.id state) committed
          (false :: visits).IsChain (· ≠ ·) ∧ visits.count true = visits.count false := by
  intro machine world
  have built : player.build = .ok machine := build_of_faultless (by decide +kernel) rfl
  have plain : machine.Plain := by decide +kernel
  obtain ⟨_, _, steps, ran⟩ := visits_alternate_iff_fresh built (.inr rfl)
  have freshly := steps plain
  obtain ⟨committed, failed, split, unfailed, visited⟩ := ran freshly _ _ _ world rfl
  have stopped : world.interpreter.status = .stopped := by decide +kernel
  rw [unfailed (by rw [stopped]; decide), List.append_nil] at split
  refine ⟨freshly, stopped, committed, split, ?_⟩
  intro state isState
  obtain ⟨chain, _, balanced⟩ := visited state isState
  exact ⟨chain, balanced (.inl stopped)⟩

/-- A move that targets its own region makes the region beside it be entered twice before
it is left once. -/
theorem visits_not_alternate_mirror :
    let machine : Machine ActorLogic := mirror.machine fun _ => .null
    let world := (World.around ⟨false, true, 1000⟩ (Interpreter.create machine {})).run
      [.start, .send (Event.named "E"), .stop]
    mirror.build = .ok machine ∧ world.interpreter.status = .stopped ∧
      visitsTo "m.B" (visitsIn world.account) = [true, true, false] :=
  ⟨build_of_faultless (by decide +kernel) rfl, by decide +kernel, by decide +kernel⟩

end MachineSpec

end Statechart
