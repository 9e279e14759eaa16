import Statechart.Interpreter.Basic

/-!
# Supervision

How an interpreter starts its actors, passes events on to them, wakes its child machines
and stops what has to be stopped.  Whatever a child machine lets out on such an occasion
comes out of its parent too, addressed from there: mail for the parent goes into its
mailbox, and whatever has a path gets the child's origin in front of it.
-/

namespace Statechart

/-- What a new actor is to do. -/
inductive Job where
  | logic (logic : ActorLogic)
  /-- Wait, then make a delivery. -/
  | timer (delay : Duration) (delivery : Delivery)

/-- The order to start an actor. -/
structure SpawnOrder where
  id : String
  owner : Option StateId
  depth : Nat
  job : Job
  input : Json := .null

/-- What has come of starting an actor. -/
structure Launch where
  process : Process Interpreter
  failure : Option ActorError := none

namespace StreamItem

/-- What a stream delivers, item by item; it ends at the first failure. -/
def script (sender : Origin) : List StreamItem → List (Option Duration × Envelope)
  | [] => [(none, .completed sender .null)]
  | { delay, item := .ok event } :: items =>
      (delay, .sent sender event) :: script sender items
  | { delay, item := .error message } :: _ => [(delay, .failed sender message)]

end StreamItem

namespace PromisePlan

def script (sender : Origin) (plan : PromisePlan) : List (Option Duration × Envelope) :=
  match plan.result with
  | none => []
  | some (.ok output) => [(plan.delay, .completed sender output)]
  | some (.error message) => [(plan.delay, .failed sender message)]

end PromisePlan

namespace Supervisor

/-- Let out what a child machine let out. -/
def absorbOne (child : Origin) (supervisor : Supervisor Interpreter) :
    Emission → Supervisor Interpreter
  | .activity path activity => supervisor.emit (.activity (child :: path) activity)
  | .upward envelope => supervisor.post envelope
  | .commission path holder errand =>
      supervisor.emit (.commission (child :: path) holder errand)
  | .revoke path holder => supervisor.emit (.revoke (child :: path) holder)

/-- Let out all that a child machine let out. -/
def absorb (child : Origin) (supervisor : Supervisor Interpreter)
    (emissions : List Emission) : Supervisor Interpreter :=
  emissions.foldl (absorbOne child) supervisor

/-- Let a child machine do something: why it failed, if it did, the child afterwards, and
the supervisor with what the child let out. -/
def attend (supervisor : Supervisor Interpreter) (self : Origin) (child : Interpreter)
    (task : Handling Unit) : Option Failure × Interpreter × Supervisor Interpreter :=
  match task.run child with
  | .ok _ child =>
      (none, child.drained, supervisor.absorb self child.supervisor.outbox)
  | .error failure child =>
      (some failure, child.drained, supervisor.absorb self child.supervisor.outbox)

/-- Report the completion of a child machine unless its end has been reported. -/
def reportEnd (supervisor : Supervisor Interpreter) (self : Origin) (child : Interpreter)
    (reported : Bool) : Process Interpreter × Supervisor Interpreter :=
  if !reported && child.status = .done then
    (.machine child true,
      supervisor.post (.completed self (child.state.output.getD .null)))
  else (.machine child reported, supervisor)

def obey (self : Origin) (supervisor : Supervisor Interpreter) :
    ActorCommand → Supervisor Interpreter
  | .send event => supervisor.post (.sent self event)
  | .later delay event =>
      supervisor.emit (.commission [] none (.alarm delay (.sent self event)))
  | .complete output => supervisor.post (.completed self output)
  | .fail message => supervisor.post (.failed self message)
  | .note text => supervisor.reveal (.actor self.id text)

def obeyAll (self : Origin) (supervisor : Supervisor Interpreter)
    (commands : List ActorCommand) : Supervisor Interpreter :=
  commands.foldl (obey self) supervisor

/-- Run a task for an actor, if tasks are run. -/
def launchTask (facilities : Facilities) (supervisor : Supervisor Interpreter)
    (self : Origin) (process : Process Interpreter)
    (script : List (Option Duration × Envelope)) : Launch × Supervisor Interpreter :=
  if facilities.runtime then
    ({ process }, supervisor.emit (.commission [] (some self) (.script script)))
  else ({ process, failure := some .noRuntime }, supervisor)

def launchMachine (nursery : Nursery) (supervisor : Supervisor Interpreter)
    (self : Origin) (machine : Machine ActorLogic) (input : Json) :
    Launch × Supervisor Interpreter :=
  match supervisor.attend self (Interpreter.child machine self input) nursery.start with
  | (some failure, child, supervisor) =>
      ({ process := .machine child true, failure := some (.start failure.message) },
        supervisor)
  | (none, child, supervisor) =>
      let (process, supervisor) := supervisor.reportEnd self child false
      ({ process }, supervisor)

def launch (facilities : Facilities) (nursery : Nursery)
    (supervisor : Supervisor Interpreter) (self : Origin) (input : Json) :
    Job → Launch × Supervisor Interpreter
  | .timer delay delivery =>
      if facilities.keepsTime then
        ({ process := .timer },
          supervisor.emit
            (.commission [] (some self) (.alarm delay (.timerFired self delivery))))
      else ({ process := .timer, failure := some .noRuntime }, supervisor)
  | .logic (.machine machine) => supervisor.launchMachine nursery self machine input
  | .logic (.callback setup) =>
      let setup := setup input
      ({ process := .callback setup [], failure := setup.failure.map .start },
        supervisor.obeyAll self setup.commands)
  | .logic (.custom logic) =>
      let response := logic.start input
      ({ process := .custom logic input [], failure := response.failure },
        supervisor.obeyAll self response.commands)
  | .logic (.promise plan) =>
      supervisor.launchTask facilities self .promise ((plan input).script self)
  | .logic (.stream items) =>
      supervisor.launchTask facilities self .stream (StreamItem.script self (items input))

/-- End what an actor does.  What it asks for on this occasion is still done. -/
def release (nursery : Nursery) (supervisor : Supervisor Interpreter) (self : Origin) :
    Process Interpreter → Supervisor Interpreter
  | .machine child _ => (supervisor.attend self child nursery.stop).2.2
  | .callback setup heard => supervisor.obeyAll self (setup.cleanup heard)
  | .custom logic input heard => supervisor.obeyAll self (logic.stop input heard)
  | .promise => supervisor.emit (.revoke [] self)
  | .stream => supervisor.emit (.revoke [] self)
  | .timer => supervisor.emit (.revoke [] self)

/-- Remove the actor that bears an id, if there is one, and end what it does. -/
def dismiss (nursery : Nursery) (status : ActorStatus)
    (supervisor : Supervisor Interpreter) (id : String) : Supervisor Interpreter :=
  match supervisor.registry.actor? id with
  | none => supervisor
  | some actor =>
      let self : Origin := { id, serial := actor.serial }
      let supervisor := { supervisor with registry := supervisor.registry.remove id }
      let supervisor := supervisor.release nursery self actor.process
      { supervisor with registry := supervisor.registry.close self status }

/-- Remove an actor that signed with this origin; does it still run? -/
def finish (nursery : Nursery) (supervisor : Supervisor Interpreter) (origin : Origin)
    (status : ActorStatus) : Bool × Supervisor Interpreter :=
  if supervisor.registry.accepts origin then
    (true, supervisor.dismiss nursery status origin.id)
  else (false, supervisor)

def stopWhere (nursery : Nursery) (supervisor : Supervisor Interpreter)
    (chosen : Actor Interpreter → Bool) : Supervisor Interpreter :=
  (supervisor.registry.doomed chosen).foldl (dismiss nursery .stopped) supervisor

/-- Stop the actors that end with a state. -/
def stopOwnedBy (nursery : Nursery) (supervisor : Supervisor Interpreter)
    (state : StateId) : Supervisor Interpreter :=
  supervisor.stopWhere nursery fun actor => actor.owner = some state

def stopAll (nursery : Nursery) (supervisor : Supervisor Interpreter) :
    Supervisor Interpreter :=
  supervisor.stopWhere nursery fun _ => true

def cancelTimer (nursery : Nursery) (supervisor : Supervisor Interpreter) (id : String) :
    Supervisor Interpreter :=
  match supervisor.registry.actor? id with
  | some { process := .timer, .. } => supervisor.dismiss nursery .stopped id
  | _ => supervisor

/-- Start an actor.  One that bears the same id is stopped before; one that cannot be
started reports that and stays until the report is read. -/
def spawn (facilities : Facilities) (nursery : Nursery)
    (supervisor : Supervisor Interpreter) (order : SpawnOrder) :
    Supervisor Interpreter :=
  let supervisor := supervisor.dismiss nursery .stopped order.id
  let (self, registry) := supervisor.registry.register order.id
  let (launch, supervisor) :=
    { supervisor with registry }.launch facilities nursery self order.input order.job
  let supervisor :=
    match launch.failure with
    | some error => supervisor.post (.failed self error.message)
    | none => supervisor
  let actor : Actor Interpreter :=
    { serial := self.serial
      owner := order.owner
      depth := order.depth
      process := launch.process }
  { supervisor with registry := supervisor.registry.enroll order.id actor }

def update (supervisor : Supervisor Interpreter) (id : String)
    (process : Process Interpreter) : Supervisor Interpreter :=
  { supervisor with registry := supervisor.registry.update id process }

/-- Let a child machine do something and report its end; `blame` says what its failure
means. -/
def tend (supervisor : Supervisor Interpreter) (self : Origin) (child : Interpreter)
    (reported : Bool) (task : Handling Unit) (blame : Failure → ActorError) :
    Option ActorError × Supervisor Interpreter :=
  match supervisor.attend self child task with
  | (some failure, child, supervisor) =>
      (some (blame failure), supervisor.update self.id (.machine child true))
  | (none, child, supervisor) =>
      let (process, supervisor) := supervisor.reportEnd self child reported
      (none, supervisor.update self.id process)

/-- Give an actor an event; why it cannot go on, if it cannot. -/
def deliver (nursery : Nursery) (supervisor : Supervisor Interpreter) (id : String)
    (event : Event) : Option ActorError × Supervisor Interpreter :=
  match supervisor.registry.actor? id with
  | none => (none, supervisor)
  | some actor =>
      let self : Origin := { id, serial := actor.serial }
      match actor.process with
      | .machine child reported =>
          supervisor.tend self child reported (nursery.receive event) fun failure =>
            .receive event.type failure.message
      | process =>
          let (response, process) := process.hear event
          (response.failure, (supervisor.obeyAll self response.commands).update id process)

/-- Let a child machine look into its mailbox; why it cannot go on, if it cannot. -/
def wake (nursery : Nursery) (supervisor : Supervisor Interpreter) (id : String) :
    Option ActorError × Supervisor Interpreter :=
  match supervisor.registry.actor? id with
  | some { serial, process := .machine child reported, .. } =>
      supervisor.tend { id, serial } child reported nursery.wake fun failure =>
        .failed failure.message
  | _ => (none, supervisor)

end Supervisor

end Statechart
