import Statechart.Proofs.Alarms
import Statechart.Proofs.FailedSteps
import Statechart.Proofs.FreshIds
import Statechart.Proofs.StateScripts
import Statechart.Proofs.StepEndings

/-!
# Arrivals

In the course of a step states are entered one after another.  Wherever in a life this is about
to happen, the actors are a mix of what the machine has started, and all that has come out about
actors is about such that have been started.
-/

namespace Statechart

/-- The work on the right bench has gone on from the left one: the supervisor has done deeds,
and the actors have changed as the machine has it. -/
structure Engine.Manages (engine : Engine) (before after : Workbench) : Prop where
  works : Supervisor.Works engine.facilities engine.nursery before.supervisor after.supervisor
  shifts : engine.machine.Shifts before.supervisor.registry after.supervisor.registry

namespace Engine

section Moments

variable (engine : Engine)

/-- In the course of a step a microstep for these transitions is about to begin. -/
inductive Commences (occasion : Occasion) (event : Event) (bench : Workbench) :
    Moment → List (Choice ActorLogic) → Prop where
  | taken {ready : Workbench} {chosen : List (Choice ActorLogic)} :
      occasion = .event → (engine.select .event event).run bench = .ok chosen ready →
      chosen ≠ [] → Commences occasion event bench ⟨event, ready⟩ chosen
  | further {count : Nat} {last ready : Moment} {chosen : List (Choice ActorLogic)} :
      engine.Takes occasion event bench count last → engine.Finds last chosen ready →
      chosen ≠ [] → Commences occasion event bench ready chosen

/-- In the course of a step this state is about to be entered, at the start or in a microstep;
all before it has gone well.  The states that have been announced as completed since the entry
into states began are listed. -/
inductive Arrives (occasion : Occasion) (event : Event) (bench : Workbench) (state : StateId) :
    Moment → List StateId → Prop where
  | start {above below announced : List StateId} {entering : Workbench} :
      occasion = .start →
      engine.machine.chart.initialEntries? = some (above ++ state :: below) →
      (engine.play event (above.flatMap engine.machine.enterScript) []).run bench =
        .ok announced entering →
      Arrives occasion event bench state ⟨event, entering⟩ announced
  | microstep {moment : Moment} {chosen : List (Choice ActorLogic)} {history : HistoryRecords}
      {above below announced : List StateId} {entering : Workbench} :
      engine.Commences occasion event bench moment chosen →
      engine.machine.chart.recordedBy moment.bench.state.active moment.bench.state.history
        (chosen.map Choice.move) = history →
      engine.machine.chart.entries? history (chosen.map Choice.move) =
        some (above ++ state :: below) →
      (engine.play moment.event
          (engine.machine.script history
            (engine.machine.chart.exits moment.bench.state.active moment.bench.state.history
              (chosen.map Choice.move))
            chosen above) []).run
          (moment.bench.onState fun state => { state with history }) = .ok announced entering →
      Arrives occasion event bench state ⟨moment.event, entering⟩ announced

end Moments

section Managing

variable {engine : Engine} {occasion : Occasion} {event : Event}
variable {bench first middle last : Workbench} {before ready after : Moment}
variable {chosen : List (Choice ActorLogic)} {count cost opened : Nat}

theorem Manages.refl (bench : Workbench) : engine.Manages bench bench :=
  ⟨.refl, .refl⟩

theorem Manages.trans
    (earlier : engine.Manages first middle)
    (later : engine.Manages middle last) :
    engine.Manages first last :=
  ⟨earlier.works.trans later.works, earlier.shifts.trans later.shifts⟩

theorem manages_of_supervisor
    (same : last.supervisor = first.supervisor) :
    engine.Manages first last :=
  ⟨same ▸ .refl, same ▸ .refl⟩

theorem manages_of_run
    {answer : Type} {operation : StepM answer} {result : answer}
    (dutiful : Dutiful engine operation)
    (abiding : Abiding engine.machine operation)
    (ran : operation.run first = .ok result last) :
    engine.Manages first last :=
  ⟨((ends_iff_run.mp (dutiful first)).1 result last ran).chores.works,
    (ends_iff_run.mp (abiding first)).1 result last ran⟩

theorem manages_select
    {trigger : Trigger}
    (selected : (engine.select trigger event).run first = .ok chosen last) :
    engine.Manages first last := by
  have ends := select_ends engine trigger event first
  rw [ends_iff_run] at ends
  exact manages_of_supervisor (ends.1 chosen last selected).1.supervisor

theorem Finds.manages
    (finds : engine.Finds before chosen ready) :
    engine.Manages before.bench ready.bench := by
  cases finds with
  | eventless _ selected _ => exact manages_select selected
  | raised _ idle _ selected =>
      have later := manages_select selected
      exact (manages_select idle).trans ⟨later.works, later.shifts⟩

theorem manages_microstep
    (selects : engine.machine.Selects first.state.active first.state.history chosen)
    (ran : (engine.microstep event chosen).run first = .ok () last) :
    engine.Manages first last :=
  manages_of_run (microstep_dutiful engine event chosen)
    (microstep_abiding engine event (declares_of_selects engine selects)) ran

theorem Round.manages
    (round : engine.Round before cost after) :
    engine.Manages before.bench after.bench := by
  cases round with
  | microstep finds _ ran => exact finds.manages.trans (manages_microstep finds.selects ran)
  | drop finds => exact finds.manages

theorem Rounds.manages
    (rounds : engine.Rounds before count after) :
    engine.Manages before.bench after.bench := by
  induction rounds with
  | none => exact .refl _
  | further _ round ih => exact ih.trans round.manages

theorem Opens.manages
    (opens : engine.Opens occasion event bench opened after) :
    engine.Manages bench after.bench := by
  cases opens with
  | entry entered =>
      exact manages_of_run (enterPlanned_dutiful engine event _)
        (enterPlanned_abiding engine event _) entered
  | ignored ignored => exact manages_select ignored
  | taken selected _ ran =>
      exact (manages_select selected).trans (manages_microstep (select_selects selected) ran)

theorem Takes.manages
    (takes : engine.Takes occasion event bench count after) :
    engine.Manages bench after.bench := by
  obtain ⟨opens, rounds⟩ := takes
  exact opens.manages.trans rounds.manages

theorem Commences.manages
    (commences : engine.Commences occasion event bench ready chosen) :
    engine.Manages bench ready.bench := by
  cases commences with
  | taken _ selected _ => exact manages_select selected
  | further takes finds _ => exact takes.manages.trans finds.manages

theorem Commences.selects
    (commences : engine.Commences occasion event bench ready chosen) :
    engine.machine.Selects ready.bench.state.active ready.bench.state.history chosen := by
  cases commences with
  | taken _ selected _ => exact select_selects selected
  | further _ finds _ => exact finds.selects

theorem script_does
    (declared : engine.Declares chosen)
    (history : HistoryRecords) (exits entries : List StateId) :
    ∀ beat ∈ engine.machine.script history exits chosen entries, ∀ action,
      beat.action? = some action → action ∈ engine.machine.actions := by
  intro beat member action acts
  have isAction : action ∈ (engine.machine.script history exits chosen entries).filterMap
      Beat.action? := List.mem_filterMap.mpr ⟨beat, member, acts⟩
  rw [Machine.script_actions, Machine.stepActions, List.mem_append, List.mem_append] at isAction
  rcases isAction with (isExit | taken) | isEntry
  · obtain ⟨state, _, own⟩ := List.mem_flatMap.mp isExit
    exact Machine.mem_actions_of_exit own
  · obtain ⟨choice, isChosen, own⟩ := List.mem_flatMap.mp taken
    exact Machine.mem_actions_of_declared (declared choice isChosen) own
  · obtain ⟨state, _, own⟩ := List.mem_flatMap.mp isEntry
    exact Machine.mem_actions_of_entry own

theorem Arrives.manages
    {state : StateId} {announced : List StateId}
    (arrives : engine.Arrives occasion event bench state after announced) :
    engine.Manages bench after.bench := by
  cases arrives with
  | @start above below _ _ _ _ ran =>
      have declared : engine.Declares [] := fun _ member => (List.not_mem_nil member).elim
      have does := script_does declared [] [] above
      exact manages_of_run (play_dutiful engine event _ _)
        (play_abiding engine event does []) ran
  | microstep commences _ _ ran =>
      have does := script_does (declares_of_selects engine commences.selects)
      have played := manages_of_run (play_dutiful engine _ _ _)
        (play_abiding engine _ (does _ _ _) []) ran
      exact commences.manages.trans ⟨played.works, played.shifts⟩

end Managing

end Engine

/-- All actors are a mix of what the machine has started, and all that has come out about
actors is about such that have been started. -/
structure Supervisor.Manned (machine : Machine ActorLogic) (supervisor : Supervisor Interpreter) :
    Prop where
  staffed : machine.Staffed supervisor.registry
  dated : supervisor.Dated

namespace Interpreter

section Manning

variable {facilities : Facilities} {nursery : Nursery}
variable {start before after committed working : Interpreter} {dealings : List Dealing}

theorem Works.dated
    (works : Works facilities nursery before after)
    (balanced : before.supervisor.registry.Balanced)
    (dated : before.supervisor.Dated) :
    after.supervisor.Dated :=
  Supervisor.Works.dated works.works balanced dated

theorem Interlude.dated
    (interlude : Interlude facilities nursery before after)
    (balanced : before.supervisor.registry.Balanced)
    (dated : before.supervisor.Dated) :
    after.supervisor.Dated := by
  cases interlude with
  | begin =>
      have works : Works facilities nursery { before with status := .running } _ :=
        firstStep_works (Event.init before.settings.input) _
      exact works.dated balanced dated
  | resume =>
      have works : Works facilities nursery { before with status := .running } _ :=
        resume_works (Event.init before.settings.input) _
      exact works.dated balanced dated
  | redeem =>
      have works : Works facilities nursery before before.recallDeferred :=
        recallDeferred_works before
      exact works.dated balanced dated
  | defer event => exact dated
  | accept envelope path accepted =>
      have issued := (accept_turns accepted).2.2.1.ages.issued
      intro emission member
      rw [(accept_outbox accepted).1] at member
      exact Emission.isIssuedBelow_mono (dated emission member) issued
  | stop =>
      have works : Works facilities nursery before _ := (stop_works before).leftBy
      exact works.dated balanced dated
  | clear => exact dated
  | watch board => exact dated

theorem Course.dated
    (course : Course facilities nursery start dealings after)
    (balanced : start.supervisor.registry.Balanced)
    (dated : start.supervisor.Dated) :
    after.supervisor.Dated := by
  induction course with
  | rest => exact dated
  | @deal _ middle taken envelope walked running found ih =>
      have same := (nextEnvelope?_eq found).2
      have takenDated : taken.supervisor.Dated := by
        rw [same]
        exact ih
      have works : Works facilities nursery taken _ := dispatch_works taken envelope
      exact works.dated ((nextEnvelope?_elapses found).1.balanced (walked.lasts.balanced balanced))
        takenDated
  | pause walked interlude ih => exact interlude.dated (walked.lasts.balanced balanced) ih
  | unload => exact fun _ member => (List.not_mem_nil member).elim

theorem Course.manned
    (course : Course facilities nursery start dealings after)
    (fresh : start.Fresh)
    (quiet : start.supervisor.outbox = []) :
    after.supervisor.Manned start.machine where
  staffed := course.staffed fresh
  dated := course.dated fresh.balanced fun emission member => by
    rw [quiet] at member
    cases member

variable {machine : Machine ActorLogic} {step : Engine → Event → StepM Bool}

theorem Undertakes.manned
    (undertakes : Undertakes facilities nursery committed working step)
    (runs : committed.machine = machine)
    (manned : committed.supervisor.Manned machine) :
    working.machine = machine ∧ working.supervisor.Manned machine ∧
      committed.supervisor.registry.Ages working.supervisor.registry := by
  have ages := undertakes.begins.2.2
  cases undertakes with
  | first => exact ⟨runs, manned, ages⟩
  | next => exact ⟨runs, manned, ages⟩
  | @heard taken envelope _ _ found =>
      have same := (nextEnvelope?_eq found).2
      have takenRuns : taken.machine = machine := by
        rw [same]
        exact runs
      have takenManned : taken.supervisor.Manned machine := by
        rw [same]
        exact ⟨manned.staffed, manned.dated⟩
      have works : Works facilities nursery taken
          (taken.receive nursery envelope).readied := receive_works taken envelope
      have restaffs : taken.Restaffs (taken.receive nursery envelope).readied :=
        (restaffs_handles nursery taken).receive (Stays.refl taken).restaffs envelope
      exact ⟨restaffs.machine.trans takenRuns,
        ⟨takenManned.staffed.shifts (takenRuns ▸ restaffs.shifts),
          works.dated takenManned.staffed.balanced takenManned.dated⟩, ages⟩

theorem Undertakes.arrives
    {occasion : Occasion} {event : Event} {state : StateId} {moment : Moment}
    {announced : List StateId}
    (undertakes : Undertakes facilities nursery committed working occasion.step)
    (runs : committed.machine = machine)
    (manned : committed.supervisor.Manned machine)
    (arrives : (working.engine facilities nursery).Arrives occasion event working.bench state
      moment announced) :
    working.machine = machine ∧ moment.bench.supervisor.Manned machine ∧
      committed.supervisor.registry.nextSerial ≤
        moment.bench.supervisor.registry.nextSerial := by
  obtain ⟨sameMachine, begun, ages⟩ := undertakes.manned runs manned
  have manages := arrives.manages
  have works : Supervisor.Works facilities nursery working.supervisor moment.bench.supervisor :=
    manages.works
  have shifts : machine.Shifts working.supervisor.registry moment.bench.supervisor.registry :=
    sameMachine ▸ manages.shifts
  exact ⟨sameMachine,
    ⟨begun.staffed.shifts shifts,
      Supervisor.Works.dated works begun.staffed.balanced begun.dated⟩,
    ages.issued.trans works.proceeds.ages.issued⟩

end Manning

end Interpreter

end Statechart
