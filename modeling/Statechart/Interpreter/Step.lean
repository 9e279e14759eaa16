import Statechart.Interpreter.Completion
import Statechart.Interpreter.Supervision

/-!
# Steps

A microstep leaves states, takes transitions and enters states, and carries out their
actions on the way.  The step for an event is one microstep for the transitions that take
it up, followed by further ones until the machine has come to rest: transitions without
event go first, then the raised events in their order.  The number of microsteps is
limited.

A step works on a bench.  When it fails, what its actors did and what has been let out
stays, but the interpreter keeps the state that it had before.
-/

namespace Statechart

/-- What a step works with. -/
structure Engine where
  machine : Machine ActorLogic
  facilities : Facilities
  nursery : Nursery
  /-- How many microsteps a step may have. -/
  limit : Nat

/-- What a step works on. -/
structure Workbench where
  state : StepState
  supervisor : Supervisor Interpreter
  /-- The transitions that gave way in this step. -/
  conflicts : List Conflict

/-- A part of a step; a failed one keeps the bench as it left it. -/
abbrev StepM (α : Type) := EStateM Failure Workbench α

namespace Workbench

def onState (change : StepState → StepState) (bench : Workbench) : Workbench :=
  { bench with state := change bench.state }

def onSupervisor (change : Supervisor Interpreter → Supervisor Interpreter)
    (bench : Workbench) : Workbench :=
  { bench with supervisor := change bench.supervisor }

def reveal (activity : Activity) (bench : Workbench) : Workbench :=
  bench.onSupervisor fun supervisor => supervisor.reveal activity

/-- An id: the given one, or one made up from a stem. -/
def nameOr (given : Option String) (stem : String) (bench : Workbench) :
    String × Workbench :=
  match given with
  | some id => (id, bench)
  | none =>
      let (id, registry) := bench.supervisor.registry.freshId stem
      (id, bench.onSupervisor fun supervisor => { supervisor with registry })

end Workbench

namespace Recipient

/-- The delivery that is made after a delay. -/
def delivery (recipient : Recipient) (event : Event) : Delivery :=
  match recipient with
  | .self => .event event
  | .parent => .parent event
  | .child id => .forward id event

end Recipient

namespace Engine

def spawn (engine : Engine) (order : SpawnOrder) (bench : Workbench) : Workbench :=
  bench.onSupervisor fun supervisor =>
    supervisor.spawn engine.facilities engine.nursery order

def schedule (engine : Engine) (id : Option String) (delay : Duration)
    (delivery : Delivery) (bench : Workbench) : Workbench :=
  let (id, bench) := bench.nameOr id "delay"
  engine.spawn { id, owner := none, depth := 0, job := .timer delay delivery } bench

/-- Send an event at once.  What is for the interpreter itself or a child waits in the
mailbox until the step is over. -/
def send (recipient : Recipient) (event : Event) (bench : Workbench) : Workbench :=
  bench.onSupervisor fun supervisor =>
    match recipient with
    | .self => supervisor.keep (.plain event)
    | .child id => supervisor.keep (.forward id event)
    | .parent => supervisor.sendUp event

def obey (bench : Workbench) : Command → Workbench
  | .raise event => bench.onState fun state => state.raise event
  | .send recipient event => send recipient event bench

/-- Carry out one action; an actor that it starts ends with `owner`. -/
def perform (engine : Engine) (event : Event) (owner : StateId) :
    Action ActorLogic → StepM Unit
  | .assign name update => do
      match update (← get).state.context event with
      | .ok context => modify (Workbench.onState fun state => { state with context })
      | .error reason => throw (.action { action := name, reason })
  | .raise make delay id => do
      let raised := make (← get).state.context event
      match delay with
      | some delay => modify (engine.schedule id delay (.event raised))
      | none => modify (Workbench.onState fun state => state.raise raised)
  | .send recipient make delay id => do
      let sent := make (← get).state.context event
      match delay with
      | some delay => modify (engine.schedule id delay (recipient.delivery sent))
      | none => modify (send recipient sent)
  | .cancel id =>
      modify (Workbench.onSupervisor fun supervisor =>
        supervisor.cancelTimer engine.nursery id)
  | .log label text => do
      let line := text (← get).state.context event
      modify (Workbench.reveal (.logged engine.machine.id label line))
  | .spawn id logic input => do
      let (id, bench) := (← get).nameOr id (engine.machine.id ++ ":spawn")
      let input :=
        match input with
        | some make => make bench.state.context event
        | none => .null
      set (engine.spawn
        { id
          owner := some owner
          depth := engine.machine.chart.depth owner
          job := .logic logic
          input } bench)
  | .stopChild id =>
      modify (Workbench.onSupervisor fun supervisor =>
        supervisor.dismiss engine.nursery .stopped id)
  | .effect name run => do
      let report := run (← get).state.context event
      modify fun bench =>
        report.notes.foldl (fun bench note => bench.reveal (.effect note)) bench
      match report.failure with
      | some reason => throw (.action { action := name, reason })
      | none => modify fun bench => report.commands.foldl obey bench

/-- Carry out several actions, one after another. -/
def performAll (engine : Engine) (event : Event) (owner : StateId) :
    List (Action ActorLogic) → StepM Unit
  | [] => pure ()
  | action :: actions => do
      engine.perform event owner action
      performAll engine event owner actions

/-- Leave a state: its exit actions, then the end of its actors. -/
def leave (engine : Engine) (event : Event) (state : StateId) : StepM Unit := do
  let chart := engine.machine.chart
  modify (Workbench.reveal (.exited (chart.id state)))
  engine.performAll event ((chart.parent? state).getD state)
    (engine.machine.conduct state).exit
  modify fun bench =>
    { bench with
      supervisor := bench.supervisor.stopOwnedBy engine.nursery state
      state := { bench.state with active := bench.state.active.remove state } }

def leaveAll (engine : Engine) (event : Event) : List StateId → StepM Unit
  | [] => pure ()
  | state :: states => do
      engine.leave event state
      leaveAll engine event states

/-- Carry out the actions of the taken transitions. -/
def takeAll (engine : Engine) (event : Event) : List (Choice ActorLogic) → StepM Unit
  | [] => pure ()
  | choice :: choices => do
      let domain := engine.machine.chart.domain (← get).state.history choice.move
      engine.performAll event domain choice.candidate.actions
      takeAll engine event choices

def invokeAll (engine : Engine) (event : Event) (state : StateId) (bench : Workbench) :
    Workbench :=
  (engine.machine.conduct state).invocations.foldl (fun bench invocation =>
    engine.spawn
      { id := invocation.id
        owner := some state
        depth := engine.machine.chart.depth state
        job := .logic invocation.logic
        input :=
          match invocation.input with
          | some make => make bench.state.context event
          | none => .null } bench) bench

def delayAll (engine : Engine) (state : StateId) (bench : Workbench) : Workbench :=
  (engine.machine.conduct state).timeouts.foldl (fun bench timeout =>
    engine.spawn
      { id := timeout.event
        owner := some state
        depth := engine.machine.chart.depth state
        job := .timer timeout.delay (.event (Event.named timeout.event)) } bench) bench

/-- Enter a state: its entry actions, its invocations and delays, and what follows if it
is final.  `announced` are the completed states announced so far. -/
def enter (engine : Engine) (event : Event) (state : StateId)
    (announced : List StateId) : StepM (List StateId) := do
  let machine := engine.machine
  modify fun bench =>
    (bench.onState fun held => { held with active := held.active.insert state }).reveal
      (.entered (machine.chart.id state))
  engine.performAll event state (machine.conduct state).entry
  modify fun bench => engine.delayAll state (engine.invokeAll event state bench)
  if machine.chart.isFinal state then
    let bench ← get
    let (held, announced) := machine.complete state event bench.state announced
    set { bench with state := held }
    return announced
  else return announced

def enterAll (engine : Engine) (event : Event) :
    List StateId → List StateId → StepM Unit
  | [], _ => pure ()
  | state :: states, announced => do
      let announced ← engine.enter event state announced
      enterAll engine event states announced

def enterPlanned (engine : Engine) (event : Event) : Option StateSet → StepM Unit
  | none => throw (.stalled .entry)
  | some entries => engine.enterAll event entries []

/-- Take transitions: leave, act, enter. -/
def microstep (engine : Engine) (event : Event) (chosen : List (Choice ActorLogic)) :
    StepM Unit := do
  let chart := engine.machine.chart
  let moves := chosen.map Choice.move
  let before := (← get).state
  let exits := chart.exits before.active before.history moves
  let history := chart.recordHistory before.active before.history exits
  modify (Workbench.onState fun state => { state with history })
  engine.leaveAll event exits
  engine.takeAll event chosen
  engine.enterPlanned event (chart.entries? history moves)

/-- The transitions to take on an event, or without one. -/
def select (engine : Engine) (trigger : Trigger) (event : Event) :
    StepM (List (Choice ActorLogic)) := do
  let bench ← get
  match engine.machine.select trigger bench.state.active bench.state.history
      bench.state.context event with
  | .error error => throw (.guard error)
  | .ok selection =>
      set { bench with conflicts := bench.conflicts ++ selection.conflicts }
      return selection.chosen

/-- What to do next: the transitions without event, or those for the first raised event
that is taken up; raised events before that one are dropped. -/
def seek (engine : Engine) :
    List Event → Event → StepM (Option (Event × List (Choice ActorLogic)))
  | raised, current => do
      let eventless ← engine.select .eventless current
      if !eventless.isEmpty then return some (current, eventless)
      else
        match raised with
        | [] => return none
        | next :: rest =>
            modify (Workbench.onState fun state => { state with raised := rest })
            let chosen ← engine.select .event next
            if !chosen.isEmpty then return some (next, chosen)
            else seek engine rest next

/-- Go on until the machine has come to rest or is done.  `budget` microsteps are left to
the step for the event of type `trigger`. -/
def stabilize (engine : Engine) (trigger : String) : Nat → Event → StepM Unit
  | budget, current => do
      let state := (← get).state
      if state.done then
        modify (Workbench.onState fun state => { state with raised := [] })
      else
        match ← engine.seek state.raised current with
        | none => pure ()
        | some (event, chosen) =>
            match budget with
            | 0 => throw (.loop engine.limit trigger)
            | budget + 1 => do
                engine.microstep event chosen
                stabilize engine trigger budget event

/-- The first step: entering the first states counts as its first microstep. -/
def firstStep (engine : Engine) (event : Event) : StepM Bool :=
  match engine.limit with
  | 0 => throw (.loop 0 event.type)
  | budget + 1 => do
      engine.enterPlanned event engine.machine.chart.initialEntries?
      engine.stabilize event.type budget event
      return true

/-- The step for an event; has a transition taken it up? -/
def macrostep (engine : Engine) (event : Event) : StepM Bool := do
  let chosen ← engine.select .event event
  if chosen.isEmpty then
    engine.stabilize event.type engine.limit event
    return false
  else
    match engine.limit with
    | 0 => throw (.loop 0 event.type)
    | budget + 1 => do
        engine.microstep event chosen
        engine.stabilize event.type budget event
        return true

/-- Start the actors of the active states without entering these. -/
def resume (engine : Engine) (event : Event) (bench : Workbench) : Workbench :=
  bench.state.active.foldl (fun bench state =>
    engine.delayAll state (engine.invokeAll event state bench)) bench

/-- Carry out the exit actions of these states, even if some fail; the first failure is
kept. -/
def exitEach (engine : Engine) (event : Event) :
    List StateId → Option Failure → Workbench → Option Failure × Workbench
  | [], failure, bench => (failure, bench)
  | state :: states, failure, bench =>
      let bench := bench.reveal (.exited (engine.machine.chart.id state))
      match (engine.performAll event state (engine.machine.conduct state).exit).run bench with
      | .ok _ bench => exitEach engine event states failure bench
      | .error error bench =>
          exitEach engine event states (some (failure.getD error)) bench

/-- Carry out all exit actions and stop all actors, those started by exit actions too.
The active states are kept, to show where the machine has ended. -/
def exitAll (engine : Engine) (event : Event) (bench : Workbench) :
    Option Failure × Workbench :=
  let stopAll := Workbench.onSupervisor fun supervisor => supervisor.stopAll engine.nursery
  let bench := stopAll bench
  let (failure, bench) := engine.exitEach event bench.state.active.reverse none bench
  (failure, (stopAll bench).onState fun state => { state with raised := [] })

end Engine

end Statechart
