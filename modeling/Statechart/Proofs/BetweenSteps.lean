import Statechart.Proofs.RecordInvariants
import Statechart.Proofs.TwinInterpreters

/-!
# What an interpreter rests in

A step goes on until no raised event is left, so between steps no interpreter holds any.  One
that runs shows the state that it holds, and is not done.  And one whose machine acts alone
has no actor at any time, so nothing else is hidden in it but its mail.
-/

namespace Statechart

namespace Engine

section Calming

variable (engine : Engine)

theorem select_state
    (trigger : Trigger) (event : Event) (bench : Workbench) :
    Ends (engine.select trigger event) bench (fun _ after => after.state = bench.state)
      (fun _ _ => True) := by
  simp only [select, ends_bind, ends_get]
  split
  · trivial
  · rfl

theorem seek_calms
    {raised : List Event} (current : Event) {bench : Workbench}
    (held : bench.state.raised = raised) :
    Ends (engine.seek raised current) bench
      (fun found after => found = none → after.state.raised = []) (fun _ _ => True) := by
  induction raised generalizing current bench with
  | nil =>
      unfold seek
      rw [ends_bind]
      refine (select_state engine .eventless current bench).mono ?_ (fun _ _ _ => trivial)
      intro eventless after same
      split
      · intro found
        cases found
      · exact fun _ => same ▸ held
  | cons next rest ih =>
      unfold seek
      rw [ends_bind]
      refine (select_state engine .eventless current bench).mono ?_ (fun _ _ _ => trivial)
      intro eventless middle same
      split
      · intro found
        cases found
      · rw [ends_bind, ends_modify, ends_bind]
        refine (select_state engine .event next _).mono ?_ (fun _ _ _ => trivial)
        intro chosen after popped
        split
        · intro found
          cases found
        · exact ih next (congrArg StepState.raised popped)

theorem stabilize_calms
    (trigger : String) (budget : Nat) (current : Event) (bench : Workbench) :
    Ends (engine.stabilize trigger budget current) bench
      (fun _ after => after.state.raised = []) (fun _ _ => True) := by
  induction budget generalizing current bench with
  | zero =>
      unfold stabilize
      rw [ends_bind, ends_get]
      dsimp only
      split
      · rfl
      · rw [ends_bind]
        refine (seek_calms engine current rfl).mono ?_ (fun _ _ _ => trivial)
        rintro (_ | taken) after calms
        · exact calms rfl
        · trivial
  | succ budget ih =>
      unfold stabilize
      rw [ends_bind, ends_get]
      dsimp only
      split
      · rfl
      · rw [ends_bind]
        refine (seek_calms engine current rfl).mono ?_ (fun _ _ _ => trivial)
        rintro (_ | taken) after calms
        · exact calms rfl
        · rw [ends_bind]
          exact (ends_somehow _ after).mono (fun _ middle _ => ih taken.1 middle)
            (fun _ _ _ => trivial)

theorem firstStep_calms
    (event : Event) (bench : Workbench) :
    Ends (engine.firstStep event) bench (fun _ after => after.state.raised = [])
      (fun _ _ => True) := by
  unfold firstStep
  split
  · trivial
  · simp only [ends_bind, ends_pure]
    exact (ends_somehow _ bench).mono (fun _ middle _ => stabilize_calms engine _ _ event middle)
      (fun _ _ _ => trivial)

theorem macrostep_calms
    (event : Event) (bench : Workbench) :
    Ends (engine.macrostep event) bench (fun _ after => after.state.raised = [])
      (fun _ _ => True) := by
  unfold macrostep
  rw [ends_bind]
  refine (ends_somehow _ bench).mono (fun chosen middle _ => ?_) (fun _ _ _ => trivial)
  split
  · simp only [ends_bind, ends_pure]
    exact stabilize_calms engine _ _ event middle
  · split
    · trivial
    · simp only [ends_bind, ends_pure]
      exact (ends_somehow _ middle).mono
        (fun _ later _ => stabilize_calms engine _ _ event later) (fun _ _ _ => trivial)

end Calming

end Engine

namespace Interpreter

/-- The interpreter is alone and holds no raised event. -/
structure Lone (machine : Machine ActorLogic) (interpreter : Interpreter) : Prop where
  runs : interpreter.machine = machine
  alone : interpreter.supervisor.Alone
  calm : interpreter.state.raised = []

/-- Besides, while it runs it is not done and shows what it holds. -/
structure Composed (machine : Machine ActorLogic) (interpreter : Interpreter) : Prop
    extends interpreter.Lone machine where
  shows : interpreter.status = .running → interpreter.state.done = false ∧
    interpreter.snapshot =
      Snapshot.ofState interpreter.state .running interpreter.snapshot.lastEvent

section Composing

variable {machine : Machine ActorLogic} {facilities : Facilities} {nursery : Nursery}
variable {before after interpreter : Interpreter}

theorem Lone.alike
    (lone : before.Lone machine)
    (alike : before.Alike after)
    (alone : after.supervisor.Alone) :
    after.Lone machine where
  runs := alike.machine.trans lone.runs
  alone := alone
  calm := by
    rw [alike.state]
    exact lone.calm

theorem Composed.alike
    (composed : before.Composed machine)
    (alike : before.Alike after)
    (alone : after.supervisor.Alone) :
    after.Composed machine where
  toLone := composed.toLone.alike alike alone
  shows running := by
    rw [alike.state, alike.snapshot]
    exact composed.shows (alike.status ▸ running)

theorem Composed.publish
    (composed : interpreter.Composed machine) :
    interpreter.publish.Composed machine :=
  composed.alike (stays_publish interpreter).toAlike
    ((tellings_publish interpreter).alone composed.alone)

theorem Composed.tellEnd
    (composed : interpreter.Composed machine)
    (tell : Listener → Activity) :
    (interpreter.tellEnd tell).Composed machine :=
  composed.alike (stays_tellEnd interpreter tell).toAlike
    ((tellings_tellEnd interpreter tell).alone composed.alone)

theorem Composed.complete
    (composed : interpreter.Composed machine) :
    interpreter.complete.Composed machine :=
  composed.alike (stays_complete interpreter).toAlike (composed.tellEnd .completed).alone

theorem Lone.composed
    (lone : interpreter.Lone machine)
    (rests : interpreter.status ≠ .running) :
    interpreter.Composed machine :=
  { lone with shows := fun running => absurd running rests }

theorem Lone.refresh
    (lone : interpreter.Lone machine)
    (undone : interpreter.status = .running → interpreter.state.done = false) :
    interpreter.refresh.Composed machine where
  runs := lone.runs
  alone := lone.alone
  calm := lone.calm
  shows running := by
    refine ⟨undone running, ?_⟩
    change Snapshot.ofState interpreter.state interpreter.status _ = _
    rw [show interpreter.status = .running from running]
    rfl

theorem Lone.reported
    {bench : Workbench}
    (lone : interpreter.Lone machine)
    (alone : bench.supervisor.Alone)
    (event : Event) (handled : Bool) :
    (interpreter.reported event handled bench).Lone machine := by
  have kept : (interpreter.keepSupervisor bench).Lone machine := ⟨lone.runs, alone, lone.calm⟩
  exact kept.alike (stays_reported interpreter event handled bench).toAlike
    ((tellings_reported interpreter event handled bench).alone alone)

theorem Lone.fail
    (lone : interpreter.Lone machine)
    (failure : Failure) :
    (interpreter.fail nursery failure).Composed machine := by
  have stopped : (interpreter.supervisor.stopAll nursery).Alone := by
    unfold Supervisor.stopAll
    rw [lone.alone.stopWhere]
    exact lone.alone
  unfold Interpreter.fail
  refine Composed.complete (Composed.tellEnd (Composed.publish (Lone.composed ?_ ?_)) _)
  · exact ⟨lone.runs, stopped, lone.calm⟩
  · exact fun running => by cases running

variable (solitary : machine.Solitary)

include solitary

theorem Lone.acts
    (lone : interpreter.Lone machine) :
    (interpreter.engine facilities nursery).machine.Solitary := by
  rw [← lone.runs] at solitary
  exact solitary

theorem Lone.conclude
    (lone : interpreter.Lone machine)
    (event : Event) {status : Status}
    (rests : status ≠ .running) :
    (interpreter.conclude facilities nursery event status).2.Composed machine := by
  have twins : interpreter.bench.Twins interpreter.bench := ⟨rfl, lone.alone.twins, rfl⟩
  have alone : ((interpreter.engine facilities nursery).exitAll event
      interpreter.bench).2.supervisor.Alone :=
    (Engine.exitAll_twins event (lone.acts solitary) twins).2.supervisor.leftAlone
  have ended : ({ interpreter.commit ((interpreter.engine facilities nursery).exitAll event
      interpreter.bench).2 with status } : Interpreter).Lone machine :=
    ⟨lone.runs, alone, rfl⟩
  exact (ended.refresh fun running => absurd running rests).publish.complete

/-- However a step ends that goes alike for twins and leaves no raised event, the interpreter
is composed after it. -/
theorem Lone.run
    {step : Engine → Event → StepM Bool}
    (lone : interpreter.Lone machine)
    (event : Event)
    (twinned : Twinned (step (interpreter.engine facilities nursery) event))
    (calms : Ends (step (interpreter.engine facilities nursery) event) interpreter.bench
      (fun _ after => after.state.raised = []) (fun _ _ => True)) :
    (leftBy (Interpreter.run facilities nursery event step) interpreter).Composed machine := by
  have alone : interpreter.bench.supervisor.Alone := lone.alone
  have stepped := (twinned.alone alone).and calms
  rw [ends_iff_run] at stepped
  apply Ends.leftBy
  simp only [Interpreter.run, ends_bind, ends_get]
  split
  · rename_i handled bench ran
    obtain ⟨alone, calm⟩ := stepped.1 handled bench ran
    have reported := lone.reported alone event handled
    have taken : (interpreter.steppedTo event handled bench).Lone machine :=
      ⟨reported.runs, reported.alone, calm⟩
    rw [ends_set, settle_eq]
    split
    · exact taken.conclude solitary event (by decide)
    · rename_i undone
      exact (taken.refresh fun _ => Bool.eq_false_iff.mpr undone).publish
  · rename_i failure bench ran
    have reported := lone.reported (stepped.2 failure bench ran).1 event true
    have marked : ((interpreter.reported event true bench).withLastEvent event).Lone machine :=
      ⟨reported.runs, reported.alone, reported.calm⟩
    exact marked.fail failure

theorem Composed.stop
    (composed : interpreter.Composed machine) :
    (leftBy (stop facilities nursery) interpreter).Composed machine := by
  refine Ends.leftBy ?_
  simp only [Interpreter.stop, ends_bind, ends_get]
  split
  · have concluded : (interpreter.conclude facilities nursery Event.stop
        .stopped).2.Composed machine :=
      composed.toLone.conclude solitary Event.stop (by decide)
    simp only [stopRunning, ends_bind, ends_get, ends_set]
    split <;> exact concluded
  · refine Composed.complete (Lone.composed ?_ ?_)
    · exact ⟨composed.runs, composed.alone, composed.calm⟩
    · exact fun running => by cases running
  all_goals exact composed

theorem Lone.resume
    (lone : interpreter.Lone machine)
    (event : Event) :
    (interpreter.resume facilities nursery event).Composed machine := by
  unfold Interpreter.resume
  split
  · refine Composed.complete (Composed.publish (Lone.composed ?_ ?_))
    · exact ⟨lone.runs, lone.alone, lone.calm⟩
    · exact fun running => by cases running
  · rename_i undone
    rw [Engine.resume_eq event (lone.acts solitary)]
    have resumed : ((interpreter.commit interpreter.bench).withLastEvent event).Lone machine :=
      ⟨lone.runs, lone.alone, lone.calm⟩
    exact (resumed.refresh fun _ => Bool.eq_false_iff.mpr undone).publish

theorem Composed.dispatch
    (composed : interpreter.Composed machine)
    (envelope : Envelope) :
    (leftBy (dispatch facilities nursery envelope) interpreter).Composed machine := by
  by_cases stops : envelope = .stop
  · subst stops
    exact composed.stop solitary
  · rw [leftBy_dispatch interpreter stops, receive_alone composed.alone]
    cases envelope.unsigned? with
    | none => exact composed
    | some event =>
        exact composed.toLone.run solitary event
          (Engine.macrostep_twinned event (composed.toLone.acts solitary))
          (Engine.macrostep_calms _ event _)

theorem Advances.composed
    (advances : Advances facilities nursery before after)
    (composed : before.Composed machine) :
    after.Composed machine := by
  induction advances with
  | refl => exact composed
  | @tail middle _ _ last ih =>
      cases last with
      | @deal taken envelope running found =>
          have taken : taken.Composed machine := by
            rw [(nextEnvelope?_eq found).2]
            exact ih.alike ⟨rfl, rfl, rfl, rfl, rfl⟩ (ih.alone.withMail _ _)
          exact taken.dispatch solitary envelope
      | pursue pursuit =>
          have begun : ({ middle with status := .running } : Interpreter).Lone machine :=
            ⟨ih.runs, ih.alone, ih.calm⟩
          cases pursuit with
          | begin =>
              exact begun.run solitary _ (Engine.firstStep_twinned _ (begun.acts solitary))
                (Engine.firstStep_calms _ _ _)
          | resume => exact begun.resume solitary _
          | redeem =>
              rw [recallDeferred_eq]
              exact ih.alike ⟨rfl, rfl, rfl, rfl, rfl⟩ (ih.alone.withMail _ _)
          | defer event => exact ih.alike ⟨rfl, rfl, rfl, rfl, rfl⟩ ih.alone
          | keep envelope => exact ih.alike ⟨rfl, rfl, rfl, rfl, rfl⟩ (ih.alone.keep envelope)
          | stop => exact ih.stop solitary
          | clear =>
              exact ih.alike ⟨rfl, rfl, rfl, rfl, rfl⟩ (ih.alone.withMail _ _)

end Composing

theorem Composed.state_eq
    {machine : Machine ActorLogic} {interpreter : Interpreter}
    (composed : interpreter.Composed machine)
    (running : interpreter.status = .running) :
    interpreter.state =
      { active := interpreter.snapshot.active
        context := interpreter.snapshot.context
        history := interpreter.snapshot.history
        output := interpreter.snapshot.output } := by
  obtain ⟨undone, shown⟩ := composed.shows running
  have calm := composed.calm
  rw [shown]
  generalize interpreter.state = state at undone calm ⊢
  cases state
  cases undone
  cases calm
  rfl

/-- New or restored, an interpreter begins composed. -/
theorem Begins.composed
    {machine : Machine ActorLogic} {start : Interpreter}
    (begins : Begins machine start) :
    start.Composed machine := by
  obtain ⟨runs, unstarted, idle, _⟩ := begins.idle
  have alone : start.supervisor.Alone := by
    rw [idle]
    exact ⟨rfl, rfl⟩
  refine Lone.composed ⟨runs, alone, ?_⟩ (by rw [unstarted]; decide)
  obtain ⟨settings, rfl | ⟨checkpoint, restored⟩⟩ := begins
  · rfl
  · unfold restore at restored
    split at restored
    · cases restored
    · obtain rfl := Except.ok.inj restored
      rfl

end Interpreter

namespace World

variable {machine : Machine ActorLogic} (solitary : machine.Solitary) {before after : World}

include solitary

theorem Change.composed
    (change : before.Change after)
    (composed : before.interpreter.Composed machine) :
    after.interpreter.Composed machine := by
  rcases change_cases change with
    ⟨_, _, asked, rfl⟩ | ⟨_, _, _, accepted, rfl⟩ | ⟨_, _, rfl⟩ | ⟨_, interpreter, _⟩
  · rw [perform_leaves, takeUp_interpreter]
    have left := (perform_advances asked before).composed solitary composed
    exact left.alike ⟨rfl, rfl, rfl, rfl, rfl⟩ (left.alone.withMail _ _)
  · rw [Interpreter.accept_vacant (by rw [composed.alone.unstaffed]; rfl) accepted]
    exact composed.alike ⟨rfl, rfl, rfl, rfl, rfl⟩ (composed.alone.keep _)
  · exact composed.alike ⟨rfl, rfl, rfl, rfl, rfl⟩ composed.alone
  · rwa [interpreter]

theorem Becomes.composed
    (becomes : before.Becomes after)
    (composed : before.interpreter.Composed machine) :
    after.interpreter.Composed machine :=
  becomes.keeps (fun change => change.composed solitary) composed

end World

end Statechart
