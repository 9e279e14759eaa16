import Statechart.Proofs.Publishing
import Statechart.Proofs.RegistryBalance

/-!
# Dealing with one envelope

Dealing with an envelope begins with the actors: one may be removed, one may be given
something to do.  Either nothing more happens, or the interpreter takes the step for one
event: that of the envelope, or the failure of the actor that was given something to do.
All of this is work of the supervisor.
-/

namespace Statechart

namespace Interpreter

/-- Both run the same machine, the right one has not gone back to before its start, and it
comes from the left one by work of the supervisor. -/
structure Works (facilities : Facilities) (nursery : Nursery)
    (before after : Interpreter) : Prop where
  machine : after.machine = before.machine
  started : after.status = .notStarted → before.status = .notStarted
  works : Supervisor.Works facilities nursery before.supervisor after.supervisor

/-- Like `Works`, but no actor is given something to do. -/
structure Routine (facilities : Facilities) (nursery : Nursery)
    (before after : Interpreter) : Prop where
  machine : after.machine = before.machine
  started : after.status = .notStarted → before.status = .notStarted
  routines : Supervisor.Routines facilities nursery before.supervisor after.supervisor

section Working

variable {facilities : Facilities} {nursery : Nursery}

theorem Works.ofStatus
    {before after : Interpreter}
    (machine : after.machine = before.machine)
    (status : after.status = before.status)
    (works : Supervisor.Works facilities nursery before.supervisor after.supervisor) :
    Works facilities nursery before after :=
  ⟨machine, fun unstarted => status.symm.trans unstarted, works⟩

theorem Works.refl (interpreter : Interpreter) :
    Works facilities nursery interpreter interpreter :=
  .ofStatus rfl rfl .refl

theorem Works.trans
    {first second third : Interpreter}
    (earlier : Works facilities nursery first second)
    (later : Works facilities nursery second third) :
    Works facilities nursery first third :=
  ⟨later.machine.trans earlier.machine, fun unstarted => earlier.started (later.started unstarted),
    earlier.works.trans later.works⟩

theorem Works.proceeds
    {before after : Interpreter}
    (works : Works facilities nursery before after) :
    before.supervisor.Proceeds after.supervisor :=
  works.works.proceeds

theorem Routine.works
    {before after : Interpreter}
    (routine : Routine facilities nursery before after) :
    Works facilities nursery before after :=
  ⟨routine.machine, routine.started, routine.routines.works⟩

theorem Routine.ofStatus
    {before after : Interpreter}
    (machine : after.machine = before.machine)
    (status : after.status = before.status)
    (routines : Supervisor.Routines facilities nursery before.supervisor after.supervisor) :
    Routine facilities nursery before after :=
  ⟨machine, fun unstarted => status.symm.trans unstarted, routines⟩

theorem Routine.refl (interpreter : Interpreter) :
    Routine facilities nursery interpreter interpreter :=
  .ofStatus rfl rfl .refl

theorem Routine.trans
    {first second third : Interpreter}
    (earlier : Routine facilities nursery first second)
    (later : Routine facilities nursery second third) :
    Routine facilities nursery first third :=
  ⟨later.machine.trans earlier.machine, fun unstarted => earlier.started (later.started unstarted),
    earlier.routines.trans later.routines⟩

theorem Tells.routine
    {kind : Activity → Prop} {before after : Interpreter}
    (tells : Tells kind before after) :
    Routine facilities nursery before after := by
  cases tells with
  | reveal isOfKind => exact .ofStatus rfl rfl (.single (.reveal before.supervisor _))
  | react ticket reaction =>
      cases reaction with
      | unsubscribe => exact .ofStatus rfl rfl .refl
      | post event => exact .ofStatus rfl rfl (.single (.post before.supervisor _))
  | prune => exact .ofStatus rfl rfl .refl

theorem Tellings.routine
    {kind : Activity → Prop} {before after : Interpreter}
    (tellings : Tellings kind before after) :
    Routine facilities nursery before after :=
  fulfils_of_steps Routine.refl Routine.trans Tells.routine tellings

variable (interpreter : Interpreter)

theorem works_dismiss
    {status : ActorStatus}
    (ended : status ≠ .active) (id : String) :
    Works facilities nursery interpreter
      (interpreter.onSupervisor fun supervisor => supervisor.dismiss nursery status id) :=
  .ofStatus rfl rfl (.single (.dismiss interpreter.supervisor id ended))

theorem routine_publish : Routine facilities nursery interpreter interpreter.publish :=
  (tellings_publish interpreter).routine

theorem routine_tellEnd
    (tell : Listener → Activity) :
    Routine facilities nursery interpreter (interpreter.tellEnd tell) :=
  (tellings_tellEnd interpreter tell).routine

theorem routine_complete : Routine facilities nursery interpreter interpreter.complete :=
  (routine_tellEnd interpreter _).trans (.ofStatus rfl rfl .refl)

theorem routine_refresh : Routine facilities nursery interpreter interpreter.refresh :=
  .ofStatus rfl rfl .refl

theorem routine_withLastEvent
    (event : Event) :
    Routine facilities nursery interpreter (interpreter.withLastEvent event) :=
  .ofStatus rfl rfl .refl

theorem routine_reported
    (event : Event) (handled : Bool) {bench : Workbench}
    (routines : Supervisor.Routines facilities nursery interpreter.supervisor
      bench.supervisor) :
    Routine facilities nursery interpreter (interpreter.reported event handled bench) := by
  have kept : Routine facilities nursery interpreter (interpreter.keepSupervisor bench) :=
    .ofStatus rfl rfl routines
  exact kept.trans (tellings_reported interpreter event handled bench).routine

theorem routine_conclude
    (event : Event) {status : Status}
    (ended : status ≠ .notStarted) :
    Routine facilities nursery interpreter
      (interpreter.conclude facilities nursery event status).2 := by
  have exited : Routine facilities nursery interpreter
      ({ interpreter.commit ((interpreter.engine facilities nursery).exitAll event
        interpreter.bench).2 with status } : Interpreter).refresh :=
    ⟨rfl, fun unstarted => absurd unstarted ended,
      (Engine.toils_exitAll (interpreter.engine facilities nursery) event
        interpreter.bench).chores.routines⟩
  exact (exited.trans (routine_publish _)).trans (routine_complete _)

theorem routine_fail
    (failure : Failure) :
    Routine facilities nursery interpreter (interpreter.fail nursery failure) := by
  unfold fail
  dsimp only
  refine Routine.trans ?_
    (((routine_publish _).trans (routine_tellEnd _ _)).trans (routine_complete _))
  exact ⟨rfl, (fun unstarted => by cases unstarted),
    (Supervisor.chores_stopWhere interpreter.supervisor _).routines⟩

theorem routine_settle
    (event : Event) (handled : Bool) {bench : Workbench}
    (routines : Supervisor.Routines facilities nursery interpreter.supervisor
      bench.supervisor) :
    Routine facilities nursery interpreter
      (interpreter.settle facilities nursery event handled bench) := by
  have reported := routine_reported interpreter event handled routines
  have taken : Routine facilities nursery interpreter
      (interpreter.steppedTo event handled bench) :=
    ⟨reported.machine, reported.started, reported.routines⟩
  rw [settle_eq]
  split
  · exact taken.trans (routine_conclude _ event (by decide))
  · exact (taken.trans (routine_refresh _)).trans (routine_publish _)

theorem routine_abandon
    (event : Event) (failure : Failure) {bench : Workbench}
    (routines : Supervisor.Routines facilities nursery interpreter.supervisor
      bench.supervisor) :
    Routine facilities nursery interpreter
      (interpreter.abandon nursery event failure bench) := by
  have reported := routine_reported interpreter event true routines
  exact (reported.trans (routine_withLastEvent _ event)).trans (routine_fail _ failure)

/-- Taking a step is routine, however it ends. -/
theorem run_routine
    {step : Engine → Event → StepM Bool}
    (event : Event)
    (dutiful : Dutiful (interpreter.engine facilities nursery)
      (step (interpreter.engine facilities nursery) event)) :
    Ends (run facilities nursery event step) interpreter
      (fun _ after => Routine facilities nursery interpreter after)
      (fun _ after => Routine facilities nursery interpreter after) := by
  have stepped := dutiful interpreter.bench
  rw [ends_iff_run] at stepped
  simp only [run, ends_bind, ends_get]
  split
  · rename_i handled bench ran
    exact routine_settle interpreter event handled
      (stepped.1 handled bench ran).chores.routines
  · rename_i failure bench ran
    exact routine_abandon interpreter event failure
      (stepped.2 failure bench ran).chores.routines

theorem process_routine
    (event : Event) :
    Ends (process facilities nursery event) interpreter
      (fun _ after => Routine facilities nursery interpreter after)
      (fun _ after => Routine facilities nursery interpreter after) :=
  run_routine interpreter event (Engine.macrostep_dutiful _ event)

theorem stop_routine :
    Ends (stop facilities nursery) interpreter
      (fun _ after => Routine facilities nursery interpreter after)
      (fun _ after => Routine facilities nursery interpreter after) := by
  simp only [stop, ends_bind, ends_get]
  split
  · have concluded : Routine facilities nursery interpreter
        (interpreter.conclude facilities nursery Event.stop .stopped).2 :=
      routine_conclude interpreter _ (by decide)
    simp only [stopRunning, ends_bind, ends_get, ends_set]
    split <;> exact concluded
  · refine Routine.trans ?_ (routine_complete _)
    exact ⟨rfl, (fun unstarted => by cases unstarted), .refl⟩
  all_goals exact .refl interpreter

theorem stop_works :
    Ends (stop facilities nursery) interpreter
      (fun _ after => Works facilities nursery interpreter after)
      (fun _ after => Works facilities nursery interpreter after) :=
  (stop_routine interpreter).mono (fun _ _ routine => routine.works)
    (fun _ _ routine => routine.works)

theorem works_conclude
    (event : Event) {status : Status}
    (ended : status ≠ .notStarted) :
    Works facilities nursery interpreter
      (interpreter.conclude facilities nursery event status).2 :=
  (routine_conclude interpreter event ended).works

theorem works_settle
    (event : Event) (handled : Bool) {bench : Workbench}
    (works : Supervisor.Works facilities nursery interpreter.supervisor bench.supervisor) :
    Works facilities nursery interpreter
      (interpreter.settle facilities nursery event handled bench) := by
  have kept : Works facilities nursery interpreter (interpreter.keepSupervisor bench) :=
    .ofStatus rfl rfl works
  exact kept.trans (routine_settle (interpreter.keepSupervisor bench) event handled .refl).works

theorem works_abandon
    (event : Event) (failure : Failure) {bench : Workbench}
    (works : Supervisor.Works facilities nursery interpreter.supervisor bench.supervisor) :
    Works facilities nursery interpreter
      (interpreter.abandon nursery event failure bench) := by
  have kept : Works facilities nursery interpreter (interpreter.keepSupervisor bench) :=
    .ofStatus rfl rfl works
  exact kept.trans (routine_abandon (interpreter.keepSupervisor bench) event failure .refl).works

end Working

/-- What dealing with an envelope comes to before any step is taken: the event that the
interpreter then takes a step for, if there is one, and the interpreter until then. -/
structure Reception where
  heard : Option Event
  readied : Interpreter

section Receiving

variable (facilities : Facilities) (nursery : Nursery)

/-- An actor that cannot go on is removed, and its failure is heard as an event. -/
def reproach (child : String) (error : Option ActorError) (interpreter : Interpreter) :
    Reception :=
  match error with
  | none => { heard := none, readied := interpreter }
  | some error =>
      { heard := some (Event.errorActor child error.message)
        readied := interpreter.onSupervisor fun supervisor =>
          supervisor.dismiss nursery .error child }

def receiveForward (child : String) (event : Event) (interpreter : Interpreter) : Reception :=
  let (error, supervisor) := interpreter.supervisor.deliver nursery child event
  { interpreter with supervisor }.reproach nursery child error

def receiveWake (child : String) (interpreter : Interpreter) : Reception :=
  let (error, supervisor) := interpreter.supervisor.wake nursery child
  { interpreter with supervisor }.reproach nursery child error

def receiveDelivery (delivery : Delivery) (interpreter : Interpreter) : Reception :=
  match delivery with
  | .event event => { heard := some event, readied := interpreter }
  | .forward child event => interpreter.receiveForward nursery child event
  | .parent event =>
      { heard := none
        readied := interpreter.onSupervisor fun supervisor => supervisor.sendUp event }

def receiveEvent (sender : Option Origin) (event : Event) (terminal : Bool)
    (interpreter : Interpreter) : Reception :=
  match sender with
  | none => { heard := some event, readied := interpreter }
  | some origin =>
      if interpreter.supervisor.registry.accepts origin then
        { heard := some event
          readied :=
            if terminal then
              interpreter.onSupervisor fun supervisor =>
                supervisor.dismiss nursery (closingStatus event) origin.id
            else interpreter }
      else { heard := none, readied := interpreter }

/-- What an envelope comes to; the order to stop is not a matter of the actors. -/
def receive (interpreter : Interpreter) : Envelope → Reception
  | .event sender event terminal => interpreter.receiveEvent nursery sender event terminal
  | .forward child event => interpreter.receiveForward nursery child event
  | .wake child => interpreter.receiveWake nursery child
  | .timerFired timer delivery =>
      if interpreter.supervisor.registry.accepts timer then
        (interpreter.onSupervisor fun supervisor =>
          supervisor.dismiss nursery .done timer.id).receiveDelivery nursery delivery
      else { heard := none, readied := interpreter }
  | .stop => { heard := none, readied := interpreter }

/-- Take the step for what was heard. -/
def heed : Option Event → Handling Unit
  | none => pure ()
  | some event => process facilities nursery event

def Reception.outcome (reception : Reception) : EStateM.Result Failure Interpreter Unit :=
  (heed facilities nursery reception.heard).run reception.readied

variable {facilities nursery} (interpreter : Interpreter)

theorem afterwards_run
    (child : String) (error : Option ActorError) :
    (afterwards facilities nursery child error).run interpreter =
      (interpreter.reproach nursery child error).outcome facilities nursery := by
  cases error <;> rfl

theorem forward_run
    (child : String) (event : Event) :
    (forward facilities nursery child event).run interpreter =
      (interpreter.receiveForward nursery child event).outcome facilities nursery :=
  afterwards_run _ child _

theorem wakeChild_run
    (child : String) :
    (wakeChild facilities nursery child).run interpreter =
      (interpreter.receiveWake nursery child).outcome facilities nursery :=
  afterwards_run _ child _

theorem makeDelivery_run
    (delivery : Delivery) :
    (makeDelivery facilities nursery delivery).run interpreter =
      (interpreter.receiveDelivery nursery delivery).outcome facilities nursery := by
  cases delivery with
  | event event => rfl
  | forward child event => exact forward_run interpreter child event
  | parent event => rfl

theorem finishActor_run
    (origin : Origin) (status : ActorStatus) :
    (finishActor nursery origin status).run interpreter =
      if interpreter.supervisor.registry.accepts origin then
        .ok true (interpreter.onSupervisor fun supervisor =>
          supervisor.dismiss nursery status origin.id)
      else .ok false interpreter := by
  have finished : (finishActor nursery origin status).run interpreter =
      .ok (interpreter.supervisor.finish nursery origin status).1
        { interpreter with
          supervisor := (interpreter.supervisor.finish nursery origin status).2 } := rfl
  rw [finished]
  simp only [Supervisor.finish]
  split
  · rfl
  · cases interpreter
    rfl

theorem dispatchEvent_run
    (sender : Option Origin) (event : Event) (terminal : Bool) :
    (dispatchEvent facilities nursery sender event terminal).run interpreter =
      (interpreter.receiveEvent nursery sender event terminal).outcome facilities nursery := by
  cases sender with
  | none => rfl
  | some origin =>
      unfold dispatchEvent receiveEvent
      rw [run_get_bind]
      dsimp only
      split
      · rename_i accepted
        cases terminal with
        | false => rfl
        | true =>
            have finished : (finishActor nursery origin (closingStatus event)).run interpreter =
                .ok true _ :=
              (finishActor_run interpreter origin _).trans (if_pos accepted)
            exact run_bind_of_ok finished _
      · rfl

/-- Dealing with an envelope that is not the order to stop: the actors first, then at most
one step. -/
theorem dispatch_run
    {envelope : Envelope}
    (goesOn : envelope ≠ .stop) :
    (dispatch facilities nursery envelope).run interpreter =
      (interpreter.receive nursery envelope).outcome facilities nursery := by
  cases envelope with
  | event sender event terminal => exact dispatchEvent_run interpreter sender event terminal
  | forward child event => exact forward_run interpreter child event
  | wake child => exact wakeChild_run interpreter child
  | timerFired timer delivery =>
      have finished : (finishActor nursery timer .done).run interpreter = _ :=
        finishActor_run interpreter timer .done
      simp only [dispatch, receive]
      split
      · rename_i accepted
        rw [if_pos accepted] at finished
        exact (run_bind_of_ok finished _).trans (makeDelivery_run _ delivery)
      · rename_i rejected
        rw [if_neg rejected] at finished
        exact run_bind_of_ok finished _
  | stop => exact absurd rfl goesOn

end Receiving

/-- Whatever is done to the actors on account of an envelope leaves interpreters good. -/
structure Handles (nursery : Nursery) (good : Interpreter → Prop) : Prop where
  dismiss : ∀ interpreter {status : ActorStatus} id, status ≠ .active → good interpreter →
    good (interpreter.onSupervisor fun supervisor => supervisor.dismiss nursery status id)
  deliver : ∀ interpreter id event, good interpreter →
    good { interpreter with
      supervisor := (interpreter.supervisor.deliver nursery id event).2 }
  wake : ∀ interpreter id, good interpreter →
    good { interpreter with supervisor := (interpreter.supervisor.wake nursery id).2 }
  sendUp : ∀ interpreter event, good interpreter →
    good (interpreter.onSupervisor fun supervisor => supervisor.sendUp event)

theorem closingStatus_ended
    (event : Event) :
    closingStatus event ≠ .active := by
  unfold closingStatus
  split <;> decide

section Handling

variable {facilities : Facilities} {nursery : Nursery} {good : Interpreter → Prop}
variable {interpreter : Interpreter}
variable (handles : Handles nursery good) (isGood : good interpreter)

include handles isGood

theorem Handles.reproach
    (child : String) (error : Option ActorError) :
    good (interpreter.reproach nursery child error).readied := by
  cases error with
  | none => exact isGood
  | some error => exact handles.dismiss interpreter child (by decide) isGood

theorem Handles.receiveForward
    (child : String) (event : Event) :
    good (interpreter.receiveForward nursery child event).readied :=
  handles.reproach (handles.deliver interpreter child event isGood) child _

theorem Handles.receiveDelivery
    (delivery : Delivery) :
    good (interpreter.receiveDelivery nursery delivery).readied := by
  cases delivery with
  | event event => exact isGood
  | forward child event => exact handles.receiveForward isGood child event
  | parent event => exact handles.sendUp interpreter event isGood

/-- What holds whatever is done to the actors holds when an envelope has been received. -/
theorem Handles.receive
    (envelope : Envelope) :
    good (interpreter.receive nursery envelope).readied := by
  cases envelope with
  | event sender event terminal =>
      cases sender with
      | none => exact isGood
      | some origin =>
          simp only [Interpreter.receive, receiveEvent]
          split
          · split
            · exact handles.dismiss interpreter origin.id (closingStatus_ended event) isGood
            · exact isGood
          · exact isGood
  | forward child event => exact handles.receiveForward isGood child event
  | wake child => exact handles.reproach (handles.wake interpreter child isGood) child _
  | timerFired timer delivery =>
      simp only [Interpreter.receive]
      split
      · exact handles.receiveDelivery
          (handles.dismiss interpreter timer.id (by decide) isGood) delivery
      · exact isGood
  | stop => exact isGood

end Handling

section Effort

variable {facilities : Facilities} {nursery : Nursery} (interpreter : Interpreter)

theorem works_handles :
    Handles nursery fun after => Works facilities nursery interpreter after where
  dismiss := fun middle _ id ended works => works.trans (works_dismiss middle ended id)
  deliver := fun middle id event works =>
    works.trans (.ofStatus rfl rfl (.single (.deliver middle.supervisor id event)))
  wake := fun middle id works =>
    works.trans (.ofStatus rfl rfl (.single (.wake middle.supervisor id)))
  sendUp := fun middle event works =>
    works.trans (.ofStatus rfl rfl (.single (.sendUp middle.supervisor event)))

theorem receive_works
    (envelope : Envelope) :
    Works facilities nursery interpreter
      (interpreter.receive nursery envelope).readied :=
  (works_handles interpreter).receive (.refl interpreter) envelope

theorem heed_works
    (heard : Option Event) :
    Ends (heed facilities nursery heard) interpreter
      (fun _ after => Works facilities nursery interpreter after)
      (fun _ after => Works facilities nursery interpreter after) := by
  cases heard with
  | none => exact .refl interpreter
  | some event =>
      exact (process_routine interpreter event).mono (fun _ _ routine => routine.works)
        (fun _ _ routine => routine.works)

theorem leftBy_dispatch
    {envelope : Envelope}
    (goesOn : envelope ≠ .stop) :
    leftBy (dispatch facilities nursery envelope) interpreter =
      leftBy (heed facilities nursery (interpreter.receive nursery envelope).heard)
        (interpreter.receive nursery envelope).readied := by
  unfold leftBy
  rw [dispatch_run interpreter goesOn]
  rfl

theorem received_works
    {envelope : Envelope}
    (goesOn : envelope ≠ .stop) :
    Works facilities nursery (interpreter.receive nursery envelope).readied
      (leftBy (dispatch facilities nursery envelope) interpreter) := by
  rw [leftBy_dispatch interpreter goesOn]
  exact (heed_works _ _).leftBy

theorem dispatch_works
    (envelope : Envelope) :
    Works facilities nursery interpreter
      (leftBy (dispatch facilities nursery envelope) interpreter) := by
  by_cases stops : envelope = .stop
  · subst stops
    exact (stop_works interpreter).leftBy
  · exact (receive_works interpreter envelope).trans (received_works interpreter stops)

end Effort

end Interpreter

end Statechart
