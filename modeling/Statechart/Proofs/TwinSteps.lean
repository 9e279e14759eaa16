import Statechart.Proofs.AlikeOutcomes
import Statechart.Proofs.Macrostep
import Statechart.Proofs.ObserverExpectations

/-!
# Steps of machines that act alone

A machine acts alone if its states invoke no actors and keep no delays, and its actions
start no actors and delay no events.  The interpreter of such a machine never has an actor.
So if it is not itself one, nothing but its state and its mail matters to a step: on two
benches with the same state and the same mail each part of a step goes alike, whatever has
come out of them before.
-/

namespace Statechart

/-- Does the action neither start an actor nor delay an event? -/
def Action.isImmediate {L : Type} : Action L → Bool
  | .raise _ delay _ => delay.isNone
  | .send _ _ delay _ => delay.isNone
  | .spawn _ _ _ => false
  | .assign _ _ | .cancel _ | .log _ _ | .stopChild _ | .effect _ _ => true

/-- All actions of a state and of its transitions. -/
def Conduct.actions {L : Type} (conduct : Conduct L) : List (Action L) :=
  conduct.entry ++ conduct.exit ++
    conduct.transitions.flatMap fun transition =>
      transition.candidates.flatMap Candidate.actions

/-- Nothing is invoked or kept waiting, and all actions are immediate. -/
structure Conduct.Solitary {L : Type} (conduct : Conduct L) : Prop where
  invocations : conduct.invocations = []
  timeouts : conduct.timeouts = []
  immediate : ∀ action ∈ conduct.actions, action.isImmediate = true

instance {L : Type} (conduct : Conduct L) : Decidable conduct.Solitary :=
  decidable_of_iff (conduct.invocations = [] ∧ conduct.timeouts = [] ∧
      ∀ action ∈ conduct.actions, action.isImmediate = true)
    ⟨fun ⟨invocations, timeouts, immediate⟩ => ⟨invocations, timeouts, immediate⟩,
      fun solitary => ⟨solitary.invocations, solitary.timeouts, solitary.immediate⟩⟩

/-- The machine acts alone. -/
def Machine.Solitary {L : Type} (machine : Machine L) : Prop :=
  ∀ conduct ∈ machine.conducts, conduct.Solitary

instance {L : Type} (machine : Machine L) : Decidable machine.Solitary :=
  inferInstanceAs (Decidable (∀ conduct ∈ machine.conducts, conduct.Solitary))

section Solitude

variable {L : Type} {machine : Machine L}

theorem Machine.Solitary.conduct
    (solitary : machine.Solitary) (state : StateId) :
    (machine.conduct state).Solitary := by
  unfold Machine.conduct
  cases found : machine.conducts[state]? with
  | none => exact ⟨rfl, rfl, fun _ member => by cases member⟩
  | some conduct => exact solitary conduct (List.mem_of_getElem? found)

theorem Machine.Solitary.chosen
    {machine : Machine ActorLogic} {active : Configuration} {history : HistoryRecords}
    {chosen : List (Choice ActorLogic)}
    (solitary : machine.Solitary)
    (selects : machine.Selects active history chosen) :
    ∀ choice ∈ chosen, ∀ action ∈ choice.candidate.actions, action.isImmediate = true := by
  obtain ⟨_, _, _, selection, selected, rfl⟩ := selects
  intro choice isChosen action member
  obtain ⟨transition, isTransition, isCandidate⟩ :=
    (Machine.select_offers_above selected choice isChosen).declared
  exact (solitary.conduct choice.ref.source).immediate action
    (List.mem_append_right _ (List.mem_flatMap.mpr ⟨transition, isTransition,
      List.mem_flatMap.mpr ⟨choice.candidate, isCandidate, member⟩⟩))

theorem Machine.Solitary.entry
    (solitary : machine.Solitary) (state : StateId) :
    ∀ action ∈ (machine.conduct state).entry, action.isImmediate = true :=
  fun action member => (solitary.conduct state).immediate action
    (List.mem_append_left _ (List.mem_append_left _ member))

theorem Machine.Solitary.exit
    (solitary : machine.Solitary) (state : StateId) :
    ∀ action ∈ (machine.conduct state).exit, action.isImmediate = true :=
  fun action member => (solitary.conduct state).immediate action
    (List.mem_append_left _ (List.mem_append_right _ member))

end Solitude

/-- Does it tell of something that is done, and not only what somebody is shown? -/
def Activity.isDeed : Activity → Bool
  | .published _ _ | .failed _ _ | .completed _ => false
  | _ => true

namespace Supervisor

/-- The deeds of the interpreter itself that have come out. -/
def deeds (supervisor : Supervisor Interpreter) : List Activity :=
  (supervisor.outbox.filterMap Emission.seen?).filter Activity.isDeed

/-- The interpreter has never had an actor and is not one itself. -/
structure Alone (supervisor : Supervisor Interpreter) : Prop where
  unlinked : supervisor.link = none
  unstaffed : supervisor.registry = Registry.empty

theorem deeds_reveal
    (supervisor : Supervisor Interpreter) (activity : Activity) :
    (supervisor.reveal activity).deeds =
      supervisor.deeds ++ [activity].filter Activity.isDeed := by
  unfold deeds reveal emit
  rw [List.filterMap_append, List.filter_append]
  congr 1
  cases activity with
  | published listener snapshot => cases listener <;> rfl
  | _ => rfl

theorem deeds_post
    (supervisor : Supervisor Interpreter) (envelope : Envelope) :
    (supervisor.post envelope).deeds = supervisor.deeds := by
  unfold deeds post
  dsimp only [keep]
  split
  · rfl
  · simp [emit, Emission.seen?]

section Solitude

variable {supervisor : Supervisor Interpreter} (alone : supervisor.Alone)

include alone

theorem Alone.withMail
    (inbox : List Envelope) (outbox : List Emission) :
    Alone { supervisor with inbox, outbox } :=
  ⟨alone.unlinked, alone.unstaffed⟩

theorem Alone.reveal
    (activity : Activity) :
    (supervisor.reveal activity).Alone :=
  alone.withMail _ _

theorem Alone.keep
    (envelope : Envelope) :
    (supervisor.keep envelope).Alone :=
  alone.withMail _ _

theorem Alone.actor?
    (id : String) :
    supervisor.registry.actor? id = none := by
  rw [alone.unstaffed]
  rfl

theorem Alone.accepts
    (origin : Origin) :
    supervisor.registry.accepts origin = false := by
  unfold Registry.accepts
  rw [alone.actor?]

theorem Alone.dismiss
    (nursery : Nursery) (status : ActorStatus) (id : String) :
    supervisor.dismiss nursery status id = supervisor := by
  unfold Supervisor.dismiss
  rw [alone.actor?]

theorem Alone.stopWhere
    (nursery : Nursery) (chosen : Actor Interpreter → Bool) :
    supervisor.stopWhere nursery chosen = supervisor := by
  unfold Supervisor.stopWhere
  rw [alone.unstaffed]
  rfl

theorem Alone.cancelTimer
    (nursery : Nursery) (id : String) :
    supervisor.cancelTimer nursery id = supervisor := by
  unfold Supervisor.cancelTimer
  rw [alone.actor?]

theorem Alone.post
    (envelope : Envelope) :
    supervisor.post envelope = supervisor.keep envelope := by
  unfold Supervisor.post
  simp only [Supervisor.keep, alone.unlinked]

theorem Alone.sendUp
    (event : Event) :
    supervisor.sendUp event = supervisor := by
  unfold Supervisor.sendUp
  rw [alone.unlinked]

theorem Alone.deliver
    (nursery : Nursery) (id : String) (event : Event) :
    supervisor.deliver nursery id event = (none, supervisor) := by
  unfold Supervisor.deliver
  rw [alone.actor?]

theorem Alone.wake
    (nursery : Nursery) (id : String) :
    supervisor.wake nursery id = (none, supervisor) := by
  unfold Supervisor.wake
  rw [alone.actor?]

end Solitude

/-- Both are alone with the same mail, and have told of the same deeds. -/
structure Twins (left right : Supervisor Interpreter) : Prop where
  leftAlone : left.Alone
  rightAlone : right.Alone
  inbox : left.inbox = right.inbox
  deeds : left.deeds = right.deeds

theorem Alone.twins
    {supervisor : Supervisor Interpreter}
    (alone : supervisor.Alone) :
    supervisor.Twins supervisor :=
  ⟨alone, alone, rfl, rfl⟩

section Pairs

variable {left right : Supervisor Interpreter} (twins : left.Twins right)

include twins

theorem Twins.reveal
    (activity : Activity) :
    (left.reveal activity).Twins (right.reveal activity) where
  leftAlone := twins.leftAlone.reveal activity
  rightAlone := twins.rightAlone.reveal activity
  inbox := twins.inbox
  deeds := by rw [deeds_reveal, deeds_reveal, twins.deeds]

theorem Twins.keep
    (envelope : Envelope) :
    (left.keep envelope).Twins (right.keep envelope) where
  leftAlone := twins.leftAlone.keep envelope
  rightAlone := twins.rightAlone.keep envelope
  inbox := congrArg (· ++ [envelope]) twins.inbox
  deeds := twins.deeds

theorem Twins.withInbox
    (inbox : List Envelope) :
    Twins { left with inbox } { right with inbox } :=
  ⟨twins.leftAlone.withMail _ _, twins.rightAlone.withMail _ _, rfl, twins.deeds⟩

end Pairs

end Supervisor

namespace Workbench

/-- The same state lies on both benches, and the same conflicts have been found. -/
structure Twins (left right : Workbench) : Prop where
  state : left.state = right.state
  supervisor : left.supervisor.Twins right.supervisor
  conflicts : left.conflicts = right.conflicts

section Pairs

variable {left right : Workbench} (twins : left.Twins right)

include twins

theorem Twins.onState
    (change : StepState → StepState) :
    (left.onState change).Twins (right.onState change) :=
  ⟨congrArg change twins.state, twins.supervisor, twins.conflicts⟩

theorem Twins.reveal
    (activity : Activity) :
    (left.reveal activity).Twins (right.reveal activity) :=
  ⟨twins.state, twins.supervisor.reveal activity, twins.conflicts⟩

theorem Twins.onSupervisor
    {change : Supervisor Interpreter → Supervisor Interpreter}
    (idle : ∀ supervisor : Supervisor Interpreter, supervisor.Alone →
      change supervisor = supervisor) :
    (left.onSupervisor change).Twins (right.onSupervisor change) := by
  unfold Workbench.onSupervisor
  rw [idle _ twins.supervisor.leftAlone, idle _ twins.supervisor.rightAlone]
  exact ⟨twins.state, twins.supervisor, twins.conflicts⟩

theorem Twins.send
    (recipient : Recipient) (event : Event) :
    (Engine.send recipient event left).Twins (Engine.send recipient event right) := by
  cases recipient with
  | self => exact ⟨twins.state, twins.supervisor.keep _, twins.conflicts⟩
  | child id => exact ⟨twins.state, twins.supervisor.keep _, twins.conflicts⟩
  | parent => exact twins.onSupervisor fun _ alone => alone.sendUp event

theorem Twins.obey
    (command : Command) :
    (Engine.obey left command).Twins (Engine.obey right command) := by
  cases command with
  | raise event => exact twins.onState fun state => state.raise event
  | send recipient event => exact twins.send recipient event

end Pairs

end Workbench

/-- From twin benches a part of a step ends in the same way and leaves twins. -/
def Twinned {answer : Type} (step : StepM answer) : Prop :=
  ∀ left right : Workbench, left.Twins right →
    EndAlike step step left right (fun _ left right => left.Twins right)
      (fun _ left right => left.Twins right)

section Parts

variable {answer result : Type}

theorem twinned_pure
    (given : answer) :
    Twinned (pure given) :=
  fun _ _ twins => endAlike_pure twins

theorem twinned_throw
    (failure : Failure) :
    Twinned (throw failure : StepM answer) :=
  fun _ _ twins => endAlike_throw twins

theorem twinned_modify
    {change : Workbench → Workbench}
    (keeps : ∀ left right : Workbench, left.Twins right → (change left).Twins (change right)) :
    Twinned (modify change) :=
  fun left right twins => endAlike_modify (keeps left right twins)

theorem Twinned.bind
    {first : StepM answer} {next : answer → StepM result}
    (begin : Twinned first)
    (further : ∀ given, Twinned (next given)) :
    Twinned (first >>= next) :=
  fun left right twins => endAlike_bind ((begin left right twins).mono
    (fun given _ _ stillTwins => further given _ _ stillTwins) fun _ _ _ stillTwins => stillTwins)

theorem Twinned.alone
    {step : StepM answer} {bench : Workbench}
    (twinned : Twinned step)
    (alone : bench.supervisor.Alone) :
    Ends step bench (fun _ after => after.supervisor.Alone)
      (fun _ after => after.supervisor.Alone) :=
  (twinned bench bench ⟨rfl, alone.twins, rfl⟩).ends
    (fun _ _ _ twins => twins.supervisor.leftAlone)
    (fun _ _ _ twins => twins.supervisor.leftAlone)

end Parts

namespace Engine

section Steps

variable {engine : Engine} (event : Event)

theorem perform_twinned
    (owner : StateId) {action : Action ActorLogic}
    (immediate : action.isImmediate = true) :
    Twinned (engine.perform event owner action) := by
  intro left right twins
  cases action with
  | assign name update =>
      refine endAlike_get_bind ?_
      rw [twins.state]
      split
      · exact endAlike_modify (twins.onState _)
      · exact endAlike_throw twins
  | raise make delay id =>
      refine endAlike_get_bind ?_
      rw [Option.isNone_iff_eq_none.mp immediate, twins.state]
      exact endAlike_modify (twins.onState _)
  | send recipient make delay id =>
      refine endAlike_get_bind ?_
      rw [Option.isNone_iff_eq_none.mp immediate, twins.state]
      exact endAlike_modify (twins.send recipient _)
  | cancel id =>
      exact endAlike_modify (twins.onSupervisor fun _ alone => alone.cancelTimer _ id)
  | log label text =>
      refine endAlike_get_bind ?_
      rw [twins.state]
      exact endAlike_modify (twins.reveal _)
  | spawn id logic input => cases immediate
  | stopChild id =>
      exact endAlike_modify (twins.onSupervisor fun _ alone => alone.dismiss _ _ id)
  | effect name run =>
      refine endAlike_get_bind ?_
      rw [twins.state]
      generalize run right.state.context event = report
      have noted := List.foldl_rel (l := report.notes) twins fun note _ _ _ twins =>
        Workbench.Twins.reveal twins (.effect note)
      refine endAlike_bind (endAlike_modify ?_)
      split
      · exact endAlike_throw noted
      · exact endAlike_modify
          (List.foldl_rel noted fun command _ _ _ twins => Workbench.Twins.obey twins command)

theorem performAll_twinned
    (owner : StateId) {actions : List (Action ActorLogic)}
    (immediate : ∀ action ∈ actions, action.isImmediate = true) :
    Twinned (engine.performAll event owner actions) := by
  induction actions with
  | nil => exact twinned_pure ()
  | cons action actions ih =>
      rw [List.forall_mem_cons] at immediate
      exact (perform_twinned event owner immediate.1).bind fun _ => ih immediate.2

theorem takeAll_twinned
    {choices : List (Choice ActorLogic)}
    (immediate : ∀ choice ∈ choices, ∀ action ∈ choice.candidate.actions,
      action.isImmediate = true) :
    Twinned (engine.takeAll event choices) := by
  induction choices with
  | nil => exact twinned_pure ()
  | cons choice choices ih =>
      rw [List.forall_mem_cons] at immediate
      intro left right twins
      refine endAlike_get_bind ?_
      rw [twins.state]
      exact ((performAll_twinned event _ immediate.1).bind fun _ => ih immediate.2) _ _ twins

theorem select_twinned
    (trigger : Trigger) :
    Twinned (engine.select trigger event) := by
  intro left right twins
  refine endAlike_get_bind ?_
  rw [twins.state]
  split
  · exact endAlike_throw twins
  · refine endAlike_bind (endAlike_set (endAlike_pure ?_))
    exact ⟨rfl, twins.supervisor, congrArg (· ++ _) twins.conflicts⟩

theorem seek_twinned
    (raised : List Event) (current : Event) :
    Twinned (engine.seek raised current) := by
  induction raised generalizing current with
  | nil =>
      unfold seek
      refine (select_twinned current .eventless).bind fun eventless => ?_
      split <;> exact twinned_pure _
  | cons next rest ih =>
      unfold seek
      refine (select_twinned current .eventless).bind fun eventless => ?_
      split
      · exact twinned_pure _
      · refine (twinned_modify fun _ _ twins => twins.onState _).bind fun _ => ?_
        refine (select_twinned next .event).bind fun chosen => ?_
        split
        · exact twinned_pure _
        · exact ih next

variable (solitary : engine.machine.Solitary)

include solitary

theorem leave_twinned
    (state : StateId) :
    Twinned (engine.leave event state) := by
  refine (twinned_modify fun _ _ twins => twins.reveal _).bind fun _ => ?_
  refine (performAll_twinned event _ (solitary.exit state)).bind fun _ => ?_
  have idle : ∀ supervisor : Supervisor Interpreter, supervisor.Alone →
      supervisor.stopOwnedBy engine.nursery state = supervisor :=
    fun _ alone => alone.stopWhere _ _
  exact twinned_modify fun _ _ twins => (twins.onSupervisor idle).onState fun held =>
    { held with active := held.active.remove state }

theorem leaveAll_twinned
    (states : List StateId) :
    Twinned (engine.leaveAll event states) := by
  induction states with
  | nil => exact twinned_pure ()
  | cons state states ih => exact (leave_twinned event solitary state).bind fun _ => ih

theorem delayAll_invokeAll
    (state : StateId) (bench : Workbench) :
    engine.delayAll state (engine.invokeAll event state bench) = bench := by
  unfold delayAll invokeAll
  rw [(solitary.conduct state).invocations, (solitary.conduct state).timeouts]
  rfl

theorem resume_eq
    (bench : Workbench) :
    engine.resume event bench = bench := by
  unfold resume
  simp only [delayAll_invokeAll event solitary]
  exact List.foldl_fixed _

theorem enter_twinned
    (state : StateId) (announced : List StateId) :
    Twinned (engine.enter event state announced) := by
  refine (twinned_modify fun _ _ twins => (twins.onState _).reveal _).bind fun _ => ?_
  refine (performAll_twinned event state (solitary.entry state)).bind fun _ => ?_
  refine (twinned_modify fun _ _ twins => ?_).bind fun _ => ?_
  · rwa [delayAll_invokeAll event solitary, delayAll_invokeAll event solitary]
  · split
    · intro left right twins
      refine endAlike_get_bind ?_
      rw [twins.state]
      refine endAlike_bind (endAlike_set (endAlike_pure ?_))
      exact ⟨rfl, twins.supervisor, twins.conflicts⟩
    · exact twinned_pure announced

theorem enterAll_twinned
    (states announced : List StateId) :
    Twinned (engine.enterAll event states announced) := by
  induction states generalizing announced with
  | nil => exact twinned_pure ()
  | cons state states ih =>
      exact (enter_twinned event solitary state announced).bind fun announced => ih announced

theorem enterPlanned_twinned
    (entries : Option StateSet) :
    Twinned (engine.enterPlanned event entries) := by
  cases entries with
  | none => exact twinned_throw _
  | some entries => exact enterAll_twinned event solitary entries []

theorem microstep_twinned
    {active : Configuration} {history : HistoryRecords} {chosen : List (Choice ActorLogic)}
    (selects : engine.machine.Selects active history chosen) :
    Twinned (engine.microstep event chosen) := by
  intro left right twins
  refine endAlike_get_bind ?_
  dsimp only
  rw [twins.state]
  refine Twinned.bind (twinned_modify fun _ _ twins => twins.onState _) (fun _ => ?_) _ _ twins
  refine (leaveAll_twinned event solitary _).bind fun _ => ?_
  refine (takeAll_twinned event (solitary.chosen selects)).bind fun _ => ?_
  exact enterPlanned_twinned event solitary _

theorem stabilize_twinned
    (trigger : String) (budget : Nat) (current : Event) :
    Twinned (engine.stabilize trigger budget current) := by
  induction budget generalizing current with
  | zero =>
      intro left right twins
      unfold stabilize
      refine endAlike_get_bind ?_
      dsimp only
      rw [twins.state]
      split
      · exact endAlike_modify (twins.onState _)
      · refine (seek_twinned _ current).bind (fun found => ?_) _ _ twins
        cases found with
        | none => exact twinned_pure ()
        | some taken => exact twinned_throw _
  | succ budget ih =>
      intro left right twins
      unfold stabilize
      refine endAlike_get_bind ?_
      dsimp only
      rw [twins.state]
      split
      · exact endAlike_modify (twins.onState _)
      · have sought := (seek_twinned right.state.raised current left right twins).and
          (seek_ends engine right.state.raised current left)
        refine endAlike_bind (sought.mono ?_ fun _ _ _ failed => failed.1)
        rintro (_ | ⟨event, chosen⟩) middle other ⟨stillTwins, _, finds⟩
        · exact endAlike_pure stillTwins
        · exact (microstep_twinned event solitary (finds event chosen rfl)).bind
            (fun _ => ih event) middle other stillTwins

theorem firstStep_twinned : Twinned (engine.firstStep event) := by
  unfold firstStep
  split
  · exact twinned_throw _
  · exact (enterPlanned_twinned event solitary _).bind fun _ =>
      (stabilize_twinned solitary _ _ event).bind fun _ => twinned_pure true

theorem macrostep_twinned : Twinned (engine.macrostep event) := by
  intro left right twins
  have selected := (select_twinned event .event left right twins).and
    (select_ends engine .event event left)
  refine endAlike_bind (selected.mono ?_ fun _ _ _ failed => failed.1)
  rintro chosen middle other ⟨stillTwins, _, selects⟩
  split
  · exact (stabilize_twinned solitary _ _ event).bind (fun _ => twinned_pure false) _ _
      stillTwins
  · split
    · exact endAlike_throw stillTwins
    · exact (microstep_twinned event solitary selects).bind
        (fun _ => (stabilize_twinned solitary _ _ event).bind fun _ => twinned_pure true) _ _
        stillTwins

theorem exitEach_twins
    (states : List StateId) (failure : Option Failure) {left right : Workbench}
    (twins : left.Twins right) :
    (engine.exitEach event states failure left).1 =
        (engine.exitEach event states failure right).1 ∧
      (engine.exitEach event states failure left).2.Twins
        (engine.exitEach event states failure right).2 := by
  induction states generalizing failure left right with
  | nil => exact ⟨rfl, twins⟩
  | cons state states ih =>
      unfold exitEach
      dsimp only
      have performed : Twinned (engine.performAll event state
          (engine.machine.conduct state).exit) :=
        performAll_twinned event state (solitary.exit state)
      cases performed _ _ (twins.reveal (.exited (engine.machine.chart.id state))) with
      | well leftRan rightRan stillTwins =>
          rw [leftRan, rightRan]
          exact ih failure stillTwins
      | ill leftRan rightRan stillTwins =>
          rw [leftRan, rightRan]
          exact ih _ stillTwins

theorem exitAll_twins
    {left right : Workbench}
    (twins : left.Twins right) :
    (engine.exitAll event left).1 = (engine.exitAll event right).1 ∧
      (engine.exitAll event left).2.Twins (engine.exitAll event right).2 := by
  have stopped : ∀ left right : Workbench, left.Twins right →
      (left.onSupervisor fun supervisor => supervisor.stopAll engine.nursery).Twins
        (right.onSupervisor fun supervisor => supervisor.stopAll engine.nursery) :=
    fun _ _ twins => twins.onSupervisor fun _ alone => alone.stopWhere _ _
  have begun := stopped left right twins
  unfold exitAll
  dsimp only
  rw [begun.state]
  obtain ⟨failure, left⟩ := exitEach_twins event solitary _ none begun
  exact ⟨failure, (stopped _ _ left).onState _⟩

end Steps

end Engine

end Statechart
