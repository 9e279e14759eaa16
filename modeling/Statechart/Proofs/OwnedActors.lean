import Statechart.Proofs.IdleInterpreters
import Statechart.Proofs.Owners
import Statechart.Proofs.RemovedActors

/-!
# Actors end with their states

If a machine takes tidy steps only, no actor outlives the state that it ends with, whatever
its interpreter goes through.
-/

namespace Statechart

/-- The machine reaches where the bench is, and all actors end with active states. -/
structure Workbench.Orderly (machine : Machine ActorLogic) (bench : Workbench) : Prop where
  reaches : machine.Reaches bench.state.active bench.state.history
  balanced : bench.supervisor.registry.Balanced
  owned : bench.supervisor.registry.OwnedWithin (· ∈ bench.state.active)

theorem Workbench.Orderly.stands
    {machine : Machine ActorLogic} {before after : Workbench}
    (orderly : before.Orderly machine)
    (stands : before.Stands after) :
    after.Orderly machine := by
  constructor
  · rw [stands.active, stands.history]
    exact orderly.reaches
  · rw [stands.supervisor]
    exact orderly.balanced
  · rw [stands.supervisor, stands.active]
    exact orderly.owned

namespace Engine

variable (engine : Engine) {machine : Machine ActorLogic} (formed : machine.WellFormed)
variable (tidily : machine.StepsTidily) (runs : engine.machine = machine)

include formed tidily runs

theorem microstep_orderly
    (event : Event) {chosen : List (Choice ActorLogic)} {bench : Workbench}
    (orderly : bench.Orderly machine)
    (selects : machine.Selects bench.state.active bench.state.history chosen) :
    Ends (engine.microstep event chosen) bench
      (fun _ after => after.Orderly machine) (fun _ _ => True) := by
  subst runs
  obtain ⟨visits, chronicle⟩ := orderly.reaches
  have tenable := chronicle.tenable formed
  obtain ⟨entries, planned⟩ := Chart.entries_end formed.chart
    (Chart.recordedBy_sound formed.chart tenable.ordinary tenable.sound
      (chosen.map Choice.move)) (chosen.map Choice.move)
  have tidy := tidily _ _ _ _ orderly.reaches selects planned
  have owned := microstep_owned engine event formed planned tidy orderly.balanced orderly.owned
  apply (((microstep_ends engine event planned).and
    ((microstep_dutiful engine event chosen).diligent bench)).and owned).mono
  · intro _ after stepped
    obtain ⟨⟨⟨active, history, _⟩, works⟩, owned⟩ := stepped
    have worked : Supervisor.Works engine.facilities engine.nursery bench.supervisor
        after.supervisor := works
    refine ⟨?_, worked.proceeds.balanced orderly.balanced, owned⟩
    rw [active, history]
    exact ⟨_, chronicle.step (selects.steps planned)⟩
  · exact fun _ _ _ => trivial

theorem stabilize_orderly
    (trigger : String) (budget : Nat) (current : Event) {bench : Workbench}
    (orderly : bench.Orderly machine) :
    Ends (engine.stabilize trigger budget current) bench
      (fun _ after => after.Orderly machine) (fun _ _ => True) := by
  induction budget generalizing current bench with
  | zero =>
      rw [stabilize, ends_bind, ends_get]
      dsimp only
      split
      · exact orderly.stands ⟨rfl, rfl, rfl⟩
      · rw [ends_bind]
        apply (seek_ends engine bench.state.raised current bench).mono
        · intro found middle sought
          cases found with
          | none => exact orderly.stands sought.1
          | some taken => trivial
        · exact fun _ _ _ => trivial
  | succ budget ih =>
      rw [stabilize, ends_bind, ends_get]
      dsimp only
      split
      · exact orderly.stands ⟨rfl, rfl, rfl⟩
      · rw [ends_bind]
        apply (seek_ends engine bench.state.raised current bench).mono
        · intro found middle sought
          obtain ⟨stands, selects⟩ := sought
          cases found with
          | none => exact orderly.stands stands
          | some taken =>
              obtain ⟨event, chosen⟩ := taken
              simp only [ends_bind]
              apply (microstep_orderly engine formed tidily runs event (orderly.stands stands)
                (runs ▸ selects event chosen rfl)).mono
              · exact fun _ stepped stillOrderly => ih event stillOrderly
              · exact fun _ _ _ => trivial
        · exact fun _ _ _ => trivial

theorem macrostep_orderly
    (event : Event) {bench : Workbench}
    (orderly : bench.Orderly machine) :
    Ends (engine.macrostep event) bench
      (fun _ after => after.Orderly machine) (fun _ _ => True) := by
  unfold macrostep
  rw [ends_bind]
  apply (select_ends engine .event event bench).mono
  · intro chosen middle selected
    obtain ⟨stands, selects⟩ := selected
    have onward := orderly.stands stands
    split
    · simp only [ends_bind, ends_pure]
      exact stabilize_orderly engine formed tidily runs _ _ event onward
    · split
      · trivial
      · simp only [ends_bind, ends_pure]
        apply (microstep_orderly engine formed tidily runs event onward (runs ▸ selects)).mono
        · exact fun _ stepped stillOrderly =>
            stabilize_orderly engine formed tidily runs _ _ event stillOrderly
        · exact fun _ _ _ => trivial
  · exact fun _ _ _ => trivial

theorem firstStep_orderly
    (event : Event) {bench : Workbench}
    (inactive : bench.state.active = [])
    (forgetful : bench.state.history = HistoryRecords.empty)
    (vacant : bench.supervisor.registry.actors = [])
    (balanced : bench.supervisor.registry.Balanced) :
    Ends (engine.firstStep event) bench
      (fun _ after => after.Orderly machine) (fun _ _ => True) := by
  subst runs
  obtain ⟨entries, started⟩ := Chart.initialEntries_end formed.chart
  unfold firstStep
  split
  · trivial
  · rw [started, enterPlanned]
    simp only [ends_bind, ends_pure]
    have areAllowed : ∀ state ∈ entries, state ∈ StateSet.ofList entries := by
      simp [StateSet.ofList]
    have owned := enterAll_owned engine event [] areAllowed
      (Registry.ownedWithin_of_vacant vacant)
    have played := play_ends engine event (entries.flatMap engine.machine.enterScript) [] bench
    have entered : Ends (engine.enterAll event entries []) bench
        (fun _ after => Played engine.machine.chart (entries.flatMap engine.machine.enterScript)
          bench after) (fun _ _ => True) := by
      rw [← play_enterScripts, ends_bind]
      exact played.mono (fun _ _ done => done) fun _ _ _ => trivial
    apply ((entered.and ((enterAll_dutiful engine event entries []).diligent bench)).and owned).mono
    · intro _ middle begun
      obtain ⟨⟨played, works⟩, owned⟩ := begun
      have worked : Supervisor.Works engine.facilities engine.nursery bench.supervisor
          middle.supervisor := works
      have scripted : entries.flatMap engine.machine.enterScript =
          engine.machine.script HistoryRecords.empty [] [] entries := rfl
      have active : middle.state.active = StateSet.ofList entries := by
        rw [played.active, inactive, scripted, Machine.script_active, StateSet.removeAll_nil]
        rfl
      apply stabilize_orderly engine formed tidily rfl
      refine ⟨?_, worked.proceeds.balanced balanced, active ▸ owned⟩
      rw [active, played.history, forgetful]
      exact ⟨_, .start started⟩
    · exact fun _ _ _ => trivial

end Engine

namespace Interpreter

/-- The interpreter runs the machine from its start, or from where the machine reaches, and
all actors end with active states. -/
structure Orderly (machine : Machine ActorLogic) (interpreter : Interpreter) : Prop where
  runs : interpreter.machine = machine
  unstarted : interpreter.status = .notStarted → interpreter.restored = false →
    interpreter.state.active = [] ∧ interpreter.state.history = HistoryRecords.empty
  reaches : interpreter.status = .running ∨
      interpreter.status = .notStarted ∧ interpreter.restored = true →
    machine.Reaches interpreter.state.active interpreter.state.history
  owned : interpreter.supervisor.registry.OwnedWithin (· ∈ interpreter.state.active)

section Ordering

variable {machine : Machine ActorLogic} {before after : Interpreter}

theorem Orderly.alike
    (orderly : before.Orderly machine)
    (alike : before.Alike after)
    (owned : after.supervisor.registry.OwnedWithin (· ∈ before.state.active)) :
    after.Orderly machine := by
  constructor
  · exact alike.machine.trans orderly.runs
  · rw [alike.status, alike.restored, alike.state]
    exact orderly.unstarted
  · rw [alike.status, alike.restored, alike.state]
    exact orderly.reaches
  · rw [alike.state]
    exact owned

theorem Orderly.stays
    (orderly : before.Orderly machine)
    (stays : before.Stays after) :
    after.Orderly machine :=
  orderly.alike stays.toAlike (stays.registry ▸ orderly.owned)

theorem Orderly.bench
    (orderly : before.Orderly machine)
    (running : before.status = .running)
    (balanced : before.supervisor.registry.Balanced) :
    before.bench.Orderly machine :=
  ⟨orderly.reaches (.inl running), balanced, orderly.owned⟩

theorem orderly_of_ended
    (runs : after.machine = machine)
    (ended : after.status.isTerminal = true)
    (vacant : after.supervisor.registry.actors = []) :
    after.Orderly machine := by
  constructor
  · exact runs
  · exact fun unstarted => absurd unstarted (Status.started_of_terminal ended)
  · rintro (running | ⟨unstarted, _⟩)
    · exact absurd running (Status.rests_of_terminal ended)
    · exact absurd unstarted (Status.started_of_terminal ended)
  · exact Registry.ownedWithin_of_vacant vacant

variable (facilities : Facilities) (nursery : Nursery)

theorem run_orderly
    {step : Engine → Event → StepM Bool} {event : Event}
    (runs : before.machine = machine)
    (running : before.status = .running)
    (balanced : before.supervisor.registry.Balanced)
    (diligent : Diligent facilities nursery (step (before.engine facilities nursery) event))
    (stepped : Ends (step (before.engine facilities nursery) event) before.bench
      (fun _ bench => bench.Orderly machine) (fun _ _ => True)) :
    (leftBy (run facilities nursery event step) before).Orderly machine := by
  apply Ends.leftBy
  have worked := diligent before.bench
  rw [ends_iff_run] at worked stepped
  simp only [run, ends_bind, ends_get]
  split
  · rename_i handled bench ran
    have orderly := stepped.1 handled bench ran
    have settled : Works facilities nursery before
        (before.settle facilities nursery event handled bench) :=
      works_settle before event handled (worked.1 handled bench ran)
    rcases settle_ends facilities nursery before orderly.balanced event handled with
      ⟨status, vacant⟩ | ⟨status, state, registry⟩
    · exact orderly_of_ended (settled.machine.trans runs) (by rw [status]; rfl) vacant
    · have stillRunning := status.trans running
      constructor
      · exact settled.machine.trans runs
      · intro unstarted
        cases stillRunning.symm.trans unstarted
      · intro _
        rw [state]
        exact orderly.reaches
      · rw [state, registry]
        exact orderly.owned
  · rename_i failure bench ran
    have works : Supervisor.Works facilities nursery before.supervisor bench.supervisor :=
      worked.2 failure bench ran
    have abandoned : Works facilities nursery before
        (before.abandon nursery event failure bench) :=
      works_abandon before event failure works
    obtain ⟨_, status, _, vacant⟩ :=
      abandon_ends nursery before (works.proceeds.balanced balanced) event failure
    exact orderly_of_ended (abandoned.machine.trans runs) (by rw [status]; rfl) vacant

end Ordering

theorem receive_owned
    {allowed : StateId → Prop} (nursery : Nursery) {interpreter : Interpreter}
    (owned : interpreter.supervisor.registry.OwnedWithin allowed)
    (envelope : Envelope) :
    (interpreter.receive nursery envelope).readied.supervisor.registry.OwnedWithin
      allowed := by
  have turned : ∀ {before after : Registry Interpreter},
      before.OwnedWithin allowed →
        after = before ∨ (∃ id process, after = before.update id process) →
          after.OwnedWithin allowed := by
    intro before after owned turned
    rcases turned with rfl | ⟨id, process, rfl⟩
    · exact owned
    · exact Registry.ownedWithin_update owned id process
  have handles : Handles nursery fun after =>
      after.supervisor.registry.OwnedWithin allowed := by
    constructor
    · exact fun _ _ id _ owned => Supervisor.ownedWithin_dismiss nursery owned _ id
    · intro after id event owned
      obtain ⟨registry, turns, hears⟩ :=
        Supervisor.deliver_turns after.supervisor nursery id event
      exact hears.registry ▸ turned owned (turns.imp_right fun found => ⟨id, found⟩)
    · intro after id owned
      obtain ⟨registry, turns, hears⟩ := Supervisor.wake_turns after.supervisor nursery id
      exact hears.registry ▸ turned owned (turns.imp_right fun found => ⟨id, found⟩)
    · intro after event owned
      have same := (Supervisor.hears_sendUp after.supervisor event).registry
      exact same.symm ▸ owned
  exact handles.receive owned envelope

section Living

variable {machine : Machine ActorLogic} {facilities : Facilities} {nursery : Nursery}
variable {start before after : Interpreter} {dealings : List Dealing}

theorem stop_orderly
    (orderly : before.Orderly machine)
    (settled : before.Settled)
    (balanced : before.supervisor.registry.Balanced) :
    (leftBy (stop facilities nursery) before).Orderly machine := by
  apply Ends.leftBy
  simp only [stop, ends_bind, ends_get]
  split
  · have works : Works facilities nursery before
        (before.conclude facilities nursery Event.stop .stopped).2 :=
      works_conclude before _ (by decide)
    obtain ⟨status, vacant⟩ := conclude_ends facilities nursery balanced Event.stop .stopped
    have concluded : (before.conclude facilities nursery Event.stop .stopped).2.Orderly machine :=
      orderly_of_ended (works.machine.trans orderly.runs) (by rw [status]; rfl) vacant
    simp only [stopRunning, ends_bind, ends_get, ends_set]
    split <;> exact concluded
  · rename_i unstarted
    have vacant := settled.rests (by rw [unstarted]; decide)
    have withdrawn : ({ before with deferred := [], status := .stopped } :
        Interpreter).refresh.Orderly machine :=
      orderly_of_ended orderly.runs rfl vacant
    exact withdrawn.stays (stays_complete _)
  all_goals exact orderly

theorem resume_owned
    (engine : Engine) (event : Event) {bench : Workbench}
    (owned : bench.supervisor.registry.OwnedWithin (· ∈ bench.state.active)) :
    (engine.resume event bench).supervisor.registry.OwnedWithin (· ∈ bench.state.active) ∧
      bench.Kept (engine.resume event bench) := by
  have resumed : ∀ (states : List StateId) (bench : Workbench) (allowed : StateId → Prop),
      (∀ state ∈ states, allowed state) → bench.supervisor.registry.OwnedWithin allowed →
        (states.foldl (fun bench state => engine.delayAll state
            (engine.invokeAll event state bench)) bench).supervisor.registry.OwnedWithin
          allowed := by
    intro states
    induction states with
    | nil => exact fun bench allowed _ owned => owned
    | cons state states ih =>
        intro bench allowed areAllowed owned
        have isAllowed := areAllowed state List.mem_cons_self
        exact ih _ allowed (fun other member => areAllowed other (List.mem_cons_of_mem _ member))
          (Engine.delayAll_owned engine isAllowed
            (Engine.invokeAll_owned engine event isAllowed owned))
  refine ⟨resumed _ bench _ (fun state member => member) owned, ?_⟩
  exact Workbench.kept_foldl (fun bench state =>
    (Engine.kept_invokeAll engine event state bench).trans
      (Engine.kept_delayAll engine state _)) _ bench

theorem resume_orderly
    (runs : before.machine = machine)
    (running : before.status = .running)
    (reaches : machine.Reaches before.state.active before.state.history)
    (vacant : before.supervisor.registry.actors = [])
    (event : Event) :
    (before.resume facilities nursery event).Orderly machine := by
  unfold resume
  split
  · have concluded : ({ before with status := .done } : Interpreter).refresh.Orderly machine :=
      orderly_of_ended runs rfl vacant
    exact concluded.stays ((stays_publish _).trans (stays_complete _))
  · have unowned : before.bench.supervisor.registry.OwnedWithin (· ∈ before.bench.state.active) :=
      Registry.ownedWithin_of_vacant vacant
    obtain ⟨owned, kept⟩ := resume_owned (before.engine facilities nursery) event unowned
    apply Orderly.stays _ (stays_publish _)
    constructor
    · exact runs
    · intro unstarted
      cases running.symm.trans unstarted
    · intro _
      change machine.Reaches ((before.engine facilities nursery).resume event
        before.bench).state.active ((before.engine facilities nursery).resume event
          before.bench).state.history
      rw [kept.active, kept.history]
      exact reaches
    · change ((before.engine facilities nursery).resume event
        before.bench).supervisor.registry.OwnedWithin (· ∈ ((before.engine facilities
          nursery).resume event before.bench).state.active)
      rw [kept.active]
      exact owned

variable (formed : machine.WellFormed) (tidily : machine.StepsTidily)

include formed tidily

theorem dispatch_orderly
    {taken : Interpreter}
    (orderly : taken.Orderly machine)
    (running : taken.status = .running)
    (balanced : taken.supervisor.registry.Balanced)
    (envelope : Envelope) :
    (leftBy (dispatch facilities nursery envelope) taken).Orderly machine := by
  by_cases stops : envelope = .stop
  · subst stops
    exact stop_orderly orderly (settled_of_running running) balanced
  · have works : Works facilities nursery taken
        (taken.receive nursery envelope).readied := receive_works taken envelope
    have alike := receive_alike nursery taken envelope
    have readied := orderly.alike alike (receive_owned nursery orderly.owned envelope)
    have stillRunning := alike.status.trans running
    have stillBalanced := works.proceeds.balanced balanced
    rw [leftBy_dispatch taken stops]
    cases (taken.receive nursery envelope).heard with
    | none => exact readied
    | some event =>
        exact run_orderly facilities nursery readied.runs stillRunning stillBalanced
          (Engine.macrostep_dutiful _ event).diligent
          (Engine.macrostep_orderly _ formed tidily readied.runs event
            (readied.bench stillRunning stillBalanced))

theorem Interlude.orderly
    (interlude : Interlude facilities nursery before after)
    (orderly : before.Orderly machine)
    (settled : before.Settled)
    (balanced : before.supervisor.registry.Balanced) :
    after.Orderly machine := by
  have vacant : before.status = .notStarted → before.supervisor.registry.actors = [] :=
    fun unstarted => settled.rests (by rw [unstarted]; decide)
  cases interlude with
  | begin unstarted new =>
      let begun : Interpreter := { before with status := .running }
      have runs : begun.machine = machine := orderly.runs
      have blank : begun.bench.state.active = [] ∧
          begun.bench.state.history = HistoryRecords.empty := orderly.unstarted unstarted new
      have stepped := Engine.firstStep_orderly (begun.engine facilities nursery) formed tidily
        runs (Event.init before.settings.input) blank.1 blank.2 (vacant unstarted) balanced
      exact run_orderly facilities nursery runs rfl balanced (Engine.firstStep_dutiful _ _).diligent
        stepped
  | resume unstarted restored =>
      let begun : Interpreter := { before with status := .running }
      have runs : begun.machine = machine := orderly.runs
      exact resume_orderly runs rfl (orderly.reaches (.inr ⟨unstarted, restored⟩))
        (vacant unstarted) _
  | redeem => exact orderly.stays (stays_recallDeferred before)
  | defer event => exact orderly.stays ⟨⟨rfl, rfl, rfl, rfl, rfl⟩, rfl⟩
  | accept envelope path accepted =>
      apply orderly.alike (World.accept_silent accepted).toAlike
      cases path with
      | nil =>
          obtain rfl := Option.some.inj accepted
          exact orderly.owned
      | cons origin path =>
          obtain ⟨_, _, grown, _, _, rfl⟩ := accept?_cons.mp accepted
          exact Registry.ownedWithin_update orderly.owned origin.id _
  | stop => exact stop_orderly orderly settled balanced
  | clear => exact orderly.stays ⟨⟨rfl, rfl, rfl, rfl, rfl⟩, rfl⟩
  | watch board => exact orderly.stays ⟨⟨rfl, rfl, rfl, rfl, rfl⟩, rfl⟩

theorem Course.orderly
    (course : Course facilities nursery start dealings after)
    (orderly : start.Orderly machine)
    (settled : start.Settled)
    (balanced : start.supervisor.registry.Balanced) :
    after.Orderly machine := by
  induction course with
  | rest => exact orderly
  | @deal _ before taken envelope lived running found ih =>
      obtain ⟨lasts, status⟩ := nextEnvelope?_elapses found
      have stays : before.Stays taken := by
        rw [(nextEnvelope?_eq found).2]
        exact ⟨⟨rfl, rfl, rfl, rfl, rfl⟩, rfl⟩
      exact dispatch_orderly formed tidily (ih.stays stays) (status.trans running)
        (lasts.balanced (lived.lasts.balanced balanced)) envelope
  | pause lived interlude ih =>
      exact interlude.orderly formed tidily ih (lived.settled settled balanced)
        (lived.lasts.balanced balanced)
  | unload _ ih => exact ih.stays (stays_drained _)

end Living

theorem orderly_create
    (machine : Machine ActorLogic) (settings : Settings) :
    (create machine settings).Orderly machine where
  runs := rfl
  unstarted := fun _ _ => ⟨rfl, rfl⟩
  reaches := by
    intro unended
    rcases unended with running | ⟨_, restored⟩
    · cases running
    · cases restored
  owned := Registry.ownedWithin_of_vacant rfl

end Interpreter

namespace MachineSpec

variable {spec : MachineSpec ActorLogic} {machine : Machine ActorLogic}

open Interpreter in
/-- If a machine takes tidy steps only, then at each moment of the life of an interpreter of
it, from its start or from a restored state that the machine reaches, each actor that ends
with a state ends with an active one; so no actor is left of a state that has been left.
In a valid configuration a step is tidy exactly if no domain that a transition starts an
actor for is left for good, and the domain of a transition that leaves something itself
never is.  A machine with plain moves only takes tidy steps if it has no parallel states or
starts no actor in a transition without targets. -/
theorem actors_end_with_states
    (built : spec.build = .ok machine)
    (ordinaryRoot : spec.HasOrdinaryRoot) :
    (∀ active history chosen entries, machine.Reaches active history →
      machine.Selects active history chosen →
      machine.chart.entries?
          (machine.chart.recordedBy active history (chosen.map Choice.move))
          (chosen.map Choice.move) = some entries →
      machine.chart.check active = none →
        (machine.Tidy active history chosen entries ↔
          ∀ choice ∈ chosen, choice.candidate.actions.any Action.spawns = true →
            let domain := machine.chart.domain
              (machine.chart.recordedBy active history (chosen.map Choice.move)) choice.move
            domain ∈ machine.chart.exits active history (chosen.map Choice.move) →
              domain ∈ entries)) ∧
    (∀ active history chosen, machine.Selects active history chosen →
      ∀ choice ∈ chosen, machine.chart.exitsOf active history choice.move ≠ [] →
        machine.chart.domain history choice.move ∉
          machine.chart.exits active history (chosen.map Choice.move)) ∧
    (machine.Plain → machine.Sequential ∨ machine.SpawnsOnTheWay → machine.StepsTidily) ∧
    (machine.StepsTidily →
      (∀ (facilities : Facilities) (nursery : Nursery) (start after : Interpreter)
          (dealings : List Dealing),
        start.Fresh → start.Orderly machine →
        Course facilities nursery start dealings after →
          ∀ entry ∈ after.supervisor.registry.actors, ∀ state,
            entry.2.owner = some state → state ∈ after.state.active) ∧
      (∀ (facilities : Facilities) (settings : Settings) (operations : List Operation)
          (world : World),
        world = (World.around facilities (create machine settings)).run operations →
          ∀ entry ∈ world.interpreter.supervisor.registry.actors, ∀ state,
            entry.2.owner = some state → state ∈ world.interpreter.state.active)) := by
  have formed := build_machine_wellFormed built ordinaryRoot
  refine ⟨?_, ?_, fun plain apart => plain.stepsTidily formed apart, fun tidily => ?_⟩
  · intro active history chosen entries reaches selects planned checked
    obtain ⟨visits, chronicle⟩ := reaches
    exact selects.tidy_iff formed planned ((Chart.check_eq_none_iff formed.chart).mp checked)
      (chronicle.tenable formed).sound
  · exact fun active history chosen selects choice member leaves =>
      selects.domain_not_left formed member leaves
  · have lives : ∀ (facilities : Facilities) (nursery : Nursery) (start after : Interpreter)
        (dealings : List Dealing),
        start.Fresh → start.Orderly machine →
        Course facilities nursery start dealings after →
          after.supervisor.registry.OwnedWithin (· ∈ after.state.active) := by
      intro facilities nursery start after dealings fresh orderly course
      exact (course.orderly formed tidily orderly fresh.settled fresh.balanced).owned
    refine ⟨lives, ?_⟩
    intro facilities settings operations world ran
    obtain ⟨dealings, course⟩ :=
      World.run_course facilities (.of_create machine settings) [] operations rfl
    have owned := lives facilities _ _ _ dealings (fresh_create machine settings)
      (orderly_create machine settings) course
    rw [ran]
    exact owned

/-- Away from home there is a guide and a limit to the stay; a companion joins on the way
for good. -/
def journey : MachineSpec ActorLogic :=
  { root := .mk { key := "m", initial := some "home" }
      [.mk
        { key := "home"
          transitions := [(.on "GO",
            { targets := ["away"]
              actions := [.spawn (some "companion") (.callback fun _ => {}) none] })] } [],
       .mk
        { key := "away"
          entry := [.spawn (some "guide") (.callback fun _ => {}) none]
          after := [(.ofMillis 10, .toTarget "home")] } []]
    context := some fun _ => .null }

/-- On the journey all actors end with active states, and back home only the companion is
left. -/
theorem actors_end_with_states_journey :
    let machine : Machine ActorLogic := journey.machine fun _ => .null
    let facilities : Facilities := ⟨false, true, 1000⟩
    let away := (World.around facilities (Interpreter.create machine {})).run
      [.start, .send (Event.named "GO")]
    let home := (World.around facilities (Interpreter.create machine {})).run
      [.start, .send (Event.named "GO"), .advance (.ofMillis 10), .flush]
    machine.StepsTidily ∧
      away.interpreter.supervisor.registry.actors.map
          (fun entry => (entry.1, entry.2.owner)) =
        [("after.10.m.away", some 2), ("companion", some 0), ("guide", some 2)] ∧
      (∀ entry ∈ away.interpreter.supervisor.registry.actors, ∀ state,
        entry.2.owner = some state → state ∈ away.interpreter.state.active) ∧
      home.interpreter.supervisor.registry.actors.map (fun entry => (entry.1, entry.2.owner)) =
        [("companion", some 0)] ∧
      ∀ entry ∈ home.interpreter.supervisor.registry.actors, ∀ state,
        entry.2.owner = some state → state ∈ home.interpreter.state.active := by
  intro machine facilities away home
  have built : journey.build = .ok machine := build_of_faultless (by decide +kernel) rfl
  have plain : machine.Plain := by decide +kernel
  have sequential : machine.Sequential := by decide +kernel
  obtain ⟨_, _, steps, owned⟩ := actors_end_with_states built (.inl (by decide))
  have tidily := steps plain (.inl sequential)
  have inRuns := (owned tidily).2 facilities {}
  exact ⟨tidily, by decide +kernel, inRuns _ away rfl, by decide +kernel, inRuns _ home rfl⟩

/-- Two regions, of which one starts an actor on the spot for the event that makes the other
leave both. -/
def desertion : MachineSpec ActorLogic :=
  { root := .mk { key := "m", initial := some "P" }
      [.mk { key := "P", kind := .parallel }
        [.mk
          { key := "A"
            transitions := [(.on "E",
              { actions := [.spawn (some "w") (.callback fun _ => {}) none] })] } [],
         .mk { key := "B", transitions := [(.on "E", .toTarget "#m.out")] } []],
       .mk { key := "out" } []]
    context := some fun _ => .null }

/-- The region that the actor ends with has been left when the actor is started. -/
theorem actor_outlives_state_desertion :
    let machine : Machine ActorLogic := desertion.machine fun _ => .null
    let world := (World.around ⟨false, true, 1000⟩ (Interpreter.create machine {})).run
      [.start, .send (Event.named "E")]
    desertion.build = .ok machine ∧ world.interpreter.status = .running ∧
      machine.chart.check world.interpreter.state.active = none ∧
      world.interpreter.state.active = [0, 4] ∧
      world.interpreter.supervisor.registry.actors.map
          (fun entry => (entry.1, entry.2.owner)) =
        [("w", some 2)] :=
  ⟨build_of_faultless (by decide +kernel) rfl, by decide +kernel, by decide +kernel,
    by decide +kernel, by decide +kernel⟩

end MachineSpec

end Statechart
