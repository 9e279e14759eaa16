import Statechart.Proofs.OwnedActors
import Statechart.Proofs.TwinSteps

/-!
# Whom a machine has started

A machine says which actors its interpreter starts: one for each invocation and each delay
of a state that is entered, and those of its actions, which bear an id that the action gives
them or one made up for them.  Whatever an interpreter goes through, its actors change in
these ways only, besides being removed and going on with what they do.
-/

namespace Statechart

section Naming

variable {L : Type}

/-- The id that the action gives to the actor that it starts. -/
def Action.givenId? : Action L → Option String
  | .raise _ (some _) id => id
  | .send _ _ (some _) id => id
  | .spawn id _ _ => id
  | _ => none

/-- What the id of the actor that the action starts is made up from, if the action gives it
none; `home` is the id of the machine. -/
def Action.stem? (home : String) : Action L → Option String
  | .raise _ (some _) none => some "delay"
  | .send _ _ (some _) none => some "delay"
  | .spawn none _ _ => some (home ++ ":spawn")
  | _ => none

/-- The ids of what is started when the state is entered. -/
def Conduct.standingIds (conduct : Conduct L) : List String :=
  conduct.invocations.map Invocation.id ++ conduct.timeouts.map Timeout.event

namespace Machine

variable (machine : Machine L)

def actions : List (Action L) :=
  machine.conducts.flatMap Conduct.actions

/-- The ids that the machine declares for its actors: those of its invocations and delays
and those that its actions give. -/
def declaredIds : List String :=
  machine.conducts.flatMap Conduct.standingIds ++ machine.actions.filterMap Action.givenId?

/-- What the machine has ids made up from. -/
def stems : List String :=
  machine.actions.filterMap (Action.stem? machine.id)

variable {machine}

theorem mem_conducts_of_mem
    {item : Type} {state : StateId} {found : item} (part : Conduct L → List item)
    (idle : part Conduct.idle = [])
    (member : found ∈ part (machine.conduct state)) :
    machine.conduct state ∈ machine.conducts := by
  unfold conduct at member ⊢
  cases here : machine.conducts[state]? with
  | none => simp [here, idle] at member
  | some conduct => exact List.mem_of_getElem? here

theorem mem_actions
    {state : StateId} {action : Action L}
    (member : action ∈ (machine.conduct state).actions) :
    action ∈ machine.actions :=
  List.mem_flatMap.mpr ⟨_, mem_conducts_of_mem Conduct.actions rfl member, member⟩

theorem mem_actions_of_entry
    {state : StateId} {action : Action L}
    (member : action ∈ (machine.conduct state).entry) :
    action ∈ machine.actions := by
  have isOwn : action ∈ (machine.conduct state).actions := by simp [Conduct.actions, member]
  exact mem_actions isOwn

theorem mem_actions_of_exit
    {state : StateId} {action : Action L}
    (member : action ∈ (machine.conduct state).exit) :
    action ∈ machine.actions := by
  have isOwn : action ∈ (machine.conduct state).actions := by simp [Conduct.actions, member]
  exact mem_actions isOwn

theorem mem_actions_of_declared
    {choice : Choice L} {action : Action L}
    (declared : ∃ transition ∈ (machine.conduct choice.ref.source).transitions,
      choice.candidate ∈ transition.candidates)
    (member : action ∈ choice.candidate.actions) :
    action ∈ machine.actions := by
  obtain ⟨transition, isTransition, isCandidate⟩ := declared
  have isOwn : action ∈ (machine.conduct choice.ref.source).actions :=
    List.mem_append_right _ (List.mem_flatMap.mpr ⟨transition, isTransition,
      List.mem_flatMap.mpr ⟨choice.candidate, isCandidate, member⟩⟩)
  exact mem_actions isOwn

theorem mem_declaredIds_of_standing
    {state : StateId} {id : String}
    (member : id ∈ (machine.conduct state).standingIds) :
    id ∈ machine.declaredIds :=
  List.mem_append_left _ (List.mem_flatMap.mpr
    ⟨_, mem_conducts_of_mem Conduct.standingIds rfl member, member⟩)

theorem mem_declaredIds_of_invocation
    {state : StateId} {invocation : Invocation L}
    (member : invocation ∈ (machine.conduct state).invocations) :
    invocation.id ∈ machine.declaredIds := by
  have standing : invocation.id ∈ (machine.conduct state).standingIds :=
    List.mem_append_left _ (List.mem_map_of_mem member)
  exact mem_declaredIds_of_standing standing

theorem mem_declaredIds_of_timeout
    {state : StateId} {timeout : Timeout}
    (member : timeout ∈ (machine.conduct state).timeouts) :
    timeout.event ∈ machine.declaredIds := by
  have standing : timeout.event ∈ (machine.conduct state).standingIds :=
    List.mem_append_right _ (List.mem_map_of_mem member)
  exact mem_declaredIds_of_standing standing

theorem mem_declaredIds_of_given
    {action : Action L} {id : String}
    (isAction : action ∈ machine.actions)
    (given : action.givenId? = some id) :
    id ∈ machine.declaredIds :=
  List.mem_append_right _ (List.mem_filterMap.mpr ⟨action, isAction, given⟩)

end Machine

end Naming

namespace Machine

/-- One change of the actors that an interpreter of the machine brings about. -/
inductive Shift (machine : Machine ActorLogic) :
    Registry Interpreter → Registry Interpreter → Prop where
  | dismiss (registry : Registry Interpreter) {status : ActorStatus} (id : String) :
      status ≠ .active → Shift machine registry (registry.dismissed status id)
  /-- An actor goes on with something else of the same kind. -/
  | tend {registry : Registry Interpreter} {id : String} {actor : Actor Interpreter}
      {process : Process Interpreter} :
      registry.actor? id = some actor → process.kind = actor.process.kind →
      Shift machine registry (registry.update id process)
  | invoke (registry : Registry Interpreter) {state : StateId}
      {invocation : Invocation ActorLogic} (depth : Nat) {process : Process Interpreter} :
      invocation ∈ (machine.conduct state).invocations → process.kind ≠ .timer →
      Shift machine registry (registry.staffed invocation.id (some state) depth process)
  | delay (registry : Registry Interpreter) {state : StateId} {timeout : Timeout}
      (depth : Nat) :
      timeout ∈ (machine.conduct state).timeouts →
      Shift machine registry (registry.staffed timeout.event (some state) depth .timer)
  /-- An action starts an actor under the id that it gives it; timers end with no state. -/
  | named (registry : Registry Interpreter) {action : Action ActorLogic} {id : String}
      (owner : Option StateId) (depth : Nat) (process : Process Interpreter) :
      action ∈ machine.actions → action.givenId? = some id →
      (process.kind = .timer → owner = none) →
      Shift machine registry (registry.staffed id owner depth process)
  /-- An action starts an actor under an id that is made up. -/
  | nameless (registry : Registry Interpreter) {action : Action ActorLogic} {stem : String}
      (owner : Option StateId) (depth : Nat) (process : Process Interpreter) :
      action ∈ machine.actions → action.stem? machine.id = some stem →
      (process.kind = .timer → owner = none) →
      Shift machine registry
        ((registry.freshId stem).2.staffed (registry.freshId stem).1 owner depth process)

/-- The actors of an interpreter of the machine come from the left ones to the right ones. -/
abbrev Shifts (machine : Machine ActorLogic) :
    Registry Interpreter → Registry Interpreter → Prop :=
  Relation.ReflTransGen machine.Shift

/-- The registry comes from an empty one by any mix of what the machine has started. -/
def Staffed (machine : Machine ActorLogic) (registry : Registry Interpreter) : Prop :=
  machine.Shifts Registry.empty registry

theorem Staffed.shifts
    {machine : Machine ActorLogic} {before after : Registry Interpreter}
    (staffed : machine.Staffed before)
    (shifts : machine.Shifts before after) :
    machine.Staffed after :=
  staffed.trans shifts

end Machine

namespace Supervisor

variable {machine : Machine ActorLogic} (supervisor : Supervisor Interpreter)
variable (facilities : Facilities) (nursery : Nursery)

section Kinds

theorem launchMachine_kind
    (self : Origin) (child : Machine ActorLogic) (input : Json) :
    (launchMachine nursery supervisor self child input).1.process.kind = .machine := by
  unfold launchMachine
  split
  · rfl
  · rename_i grown attending _
    obtain ⟨told, same⟩ := reportEnd_process attending self grown false
    dsimp only
    rw [same]
    rfl

theorem launch_kind
    (self : Origin) (input : Json) (job : Job) :
    (launch facilities nursery supervisor self input job).1.process.kind = .timer ↔
      ∃ delay delivery, job = .timer delay delivery := by
  cases job with
  | timer delay delivery =>
      simp only [launch]
      split <;> simp [Process.kind]
  | logic logic =>
      cases logic with
      | machine child => simp [launch, launchMachine_kind]
      | callback setup => simp [launch, Process.kind]
      | custom logic => simp [launch, Process.kind]
      | promise plan =>
          simp only [launch, launchTask]
          split <;> simp [Process.kind]
      | stream items =>
          simp only [launch, launchTask]
          split <;> simp [Process.kind]

theorem tend_kind
    (self : Origin) (child : Interpreter) (reported : Bool) (task : Handling Unit)
    (blame : Failure → ActorError) :
    ∃ process : Process Interpreter, process.kind = .machine ∧
      (supervisor.tend self child reported task blame).2.registry =
        supervisor.registry.update self.id process := by
  have attended := (hears_attend supervisor self child task).registry
  unfold tend
  split
  · rename_i grown attending tended
    rw [tended] at attended
    exact ⟨.machine grown true, rfl,
      congrArg (fun registry => Registry.update registry self.id _) attended⟩
  · rename_i grown attending tended
    rw [tended] at attended
    obtain ⟨told, same⟩ := reportEnd_process attending self grown reported
    have heard := (hears_reportEnd attending self grown reported).registry.trans attended
    exact ⟨.machine grown told, rfl, by
      dsimp only [update]
      rw [same, heard]⟩

end Kinds

section Shifting

open Machine

theorem shifts_of_registry
    {before after : Registry Interpreter}
    (same : after = before) :
    machine.Shifts before after :=
  same ▸ .refl

theorem shifts_dismiss
    {status : ActorStatus}
    (ended : status ≠ .active) (id : String) :
    machine.Shifts supervisor.registry (supervisor.dismiss nursery status id).registry := by
  rw [registry_dismiss]
  exact .single (.dismiss supervisor.registry id ended)

theorem shifts_stopWhere
    (chosen : Actor Interpreter → Bool) :
    machine.Shifts supervisor.registry (supervisor.stopWhere nursery chosen).registry := by
  unfold stopWhere
  generalize supervisor.registry.doomed chosen = ids
  induction ids generalizing supervisor with
  | nil => exact .refl
  | cons id ids ih => exact (shifts_dismiss supervisor nursery (by decide) id).trans (ih _)

theorem shifts_cancelTimer
    (id : String) :
    machine.Shifts supervisor.registry (supervisor.cancelTimer nursery id).registry := by
  unfold cancelTimer
  split
  · exact shifts_dismiss supervisor nursery (by decide) id
  · exact .refl

theorem shifts_deliver
    (id : String) (event : Event) :
    machine.Shifts supervisor.registry
      (supervisor.deliver nursery id event).2.registry := by
  cases found : supervisor.registry.actor? id with
  | none =>
      unfold deliver
      rw [found]
  | some actor =>
      rcases actor.process.machine_or_not with ⟨child, reported, isMachine⟩ | noMachine
      · obtain ⟨process, kind, same⟩ := tend_kind supervisor ⟨id, actor.serial⟩ child reported
          (nursery.receive event) fun failure => .receive event.type failure.message
        rw [deliver_machine found isMachine, same]
        exact .single (.tend found (kind.trans (congrArg Process.kind isMachine).symm))
      · rw [deliver_of_noMachine found noMachine]
        dsimp only [update]
        rw [(hears_obeyAll supervisor _ _).registry]
        exact .single (.tend found (Process.hear_kind event _))

theorem shifts_wake
    (id : String) :
    machine.Shifts supervisor.registry (supervisor.wake nursery id).2.registry := by
  unfold wake
  split
  · rename_i serial owner depth child reported found
    obtain ⟨process, kind, same⟩ := tend_kind supervisor { id, serial } child reported
      nursery.wake fun failure => .failed failure.message
    rw [same]
    exact .single (.tend found kind)
  · exact .refl

end Shifting

end Supervisor

/-- However the part of a step ends, the actors have changed as the machine has it. -/
def Abiding {answer : Type} (machine : Machine ActorLogic) (operation : StepM answer) : Prop :=
  ∀ bench : Workbench, Ends operation bench
    (fun _ after => machine.Shifts bench.supervisor.registry after.supervisor.registry)
    (fun _ after => machine.Shifts bench.supervisor.registry after.supervisor.registry)

section Abidance

variable {machine : Machine ActorLogic} {answer result : Type}

theorem abiding_pure
    (given : answer) :
    Abiding machine (pure given) :=
  fun _ => .refl

theorem abiding_throw
    (failure : Failure) :
    Abiding machine (throw failure : StepM answer) :=
  fun _ => .refl

theorem abiding_get : Abiding machine (get : StepM Workbench) :=
  fun _ => .refl

theorem abiding_modify
    {change : Workbench → Workbench}
    (shifts : ∀ bench : Workbench,
      machine.Shifts bench.supervisor.registry (change bench).supervisor.registry) :
    Abiding machine (modify change : StepM Unit) :=
  shifts

theorem abiding_still
    {change : Workbench → Workbench}
    (still : ∀ bench, (change bench).supervisor.registry = bench.supervisor.registry) :
    Abiding machine (modify change : StepM Unit) :=
  fun bench => Supervisor.shifts_of_registry (still bench)

theorem Abiding.after
    {operation : StepM answer} {registry : Registry Interpreter} {middle : Workbench}
    (abiding : Abiding machine operation)
    (shifts : machine.Shifts registry middle.supervisor.registry) :
    Ends operation middle
      (fun _ after => machine.Shifts registry after.supervisor.registry)
      (fun _ after => machine.Shifts registry after.supervisor.registry) :=
  (abiding middle).mono (fun _ _ later => shifts.trans later) (fun _ _ later => shifts.trans later)

theorem Abiding.bind
    {first : StepM answer} {next : answer → StepM result}
    (begin : Abiding machine first)
    (further : ∀ given, Abiding machine (next given)) :
    Abiding machine (first >>= next) := by
  intro bench
  rw [ends_bind]
  exact (begin bench).mono (fun given _ earlier => (further given).after earlier)
    (fun _ _ shifts => shifts)

end Abidance

namespace Engine

variable (engine : Engine) (event : Event)

theorem registry_spawn
    (order : SpawnOrder) (bench : Workbench) :
    (engine.spawn order bench).supervisor.registry =
      bench.supervisor.registry.staffed order.id order.owner order.depth
        (bench.supervisor.launched engine.facilities engine.nursery order).1.process :=
  (Supervisor.spawn_turns bench.supervisor engine.facilities engine.nursery order).registry

theorem shifts_foldl
    {item : Type} {machine : Machine ActorLogic} {step : Workbench → item → Workbench}
    (items : List item)
    (shifts : ∀ (bench : Workbench), ∀ next ∈ items,
      machine.Shifts bench.supervisor.registry (step bench next).supervisor.registry)
    (bench : Workbench) :
    machine.Shifts bench.supervisor.registry (items.foldl step bench).supervisor.registry :=
  List.foldlRecOn
    (motive := fun after : Workbench =>
      machine.Shifts bench.supervisor.registry after.supervisor.registry)
    items step .refl fun middle earlier next member => earlier.trans (shifts middle next member)

theorem shifts_invokeAll
    (state : StateId) (bench : Workbench) :
    engine.machine.Shifts bench.supervisor.registry
      (engine.invokeAll event state bench).supervisor.registry := by
  refine shifts_foldl _ (fun bench invocation member => ?_) bench
  rw [registry_spawn]
  refine .single (.invoke _ _ member fun isTimer => ?_)
  obtain ⟨_, _, job⟩ := (Supervisor.launch_kind _ _ _ _ _ _).mp isTimer
  cases job

theorem launched_timer
    (bench : Workbench) {order : SpawnOrder} {delay : Duration} {delivery : Delivery}
    (job : order.job = .timer delay delivery) :
    (bench.supervisor.launched engine.facilities engine.nursery order).1.process = .timer := by
  unfold Supervisor.launched
  rw [job]
  simp only [Supervisor.launch]
  split <;> rfl

theorem shifts_delayAll
    (state : StateId) (bench : Workbench) :
    engine.machine.Shifts bench.supervisor.registry
      (engine.delayAll state bench).supervisor.registry := by
  refine shifts_foldl _ (fun bench timeout member => ?_) bench
  rw [registry_spawn, launched_timer engine bench rfl]
  exact .single (.delay _ _ member)

theorem shifts_spawn
    {action : Action ActorLogic} {given : Option String} {stem : String} {bench : Workbench}
    {order : SpawnOrder}
    (isAction : action ∈ engine.machine.actions)
    (givenId : action.givenId? = given)
    (stemOf : given = none → action.stem? engine.machine.id = some stem)
    (named : order.id = (bench.nameOr given stem).1)
    (unowned : (∃ delay delivery, order.job = .timer delay delivery) → order.owner = none) :
    engine.machine.Shifts bench.supervisor.registry
      (engine.spawn order (bench.nameOr given stem).2).supervisor.registry := by
  rw [registry_spawn, named]
  have timers : ∀ supervisor : Supervisor Interpreter,
      (supervisor.launched engine.facilities engine.nursery order).1.process.kind = .timer →
        order.owner = none :=
    fun supervisor isTimer => unowned ((Supervisor.launch_kind _ _ _ _ _ _).mp isTimer)
  cases given with
  | some id => exact .single (.named _ _ _ _ isAction givenId (timers _))
  | none => exact .single (.nameless _ _ _ _ isAction (stemOf rfl) (timers _))

theorem shifts_schedule
    {action : Action ActorLogic} {given : Option String} (delay : Duration)
    (delivery : Delivery) (bench : Workbench)
    (isAction : action ∈ engine.machine.actions)
    (givenId : action.givenId? = given)
    (stemOf : given = none → action.stem? engine.machine.id = some "delay") :
    engine.machine.Shifts bench.supervisor.registry
      (engine.schedule given delay delivery bench).supervisor.registry :=
  shifts_spawn engine isAction givenId stemOf rfl fun _ => rfl

theorem registry_send
    (recipient : Recipient) (bench : Workbench) :
    (send recipient event bench).supervisor.registry = bench.supervisor.registry := by
  cases recipient with
  | self => rfl
  | child id => rfl
  | parent => exact (Supervisor.hears_sendUp bench.supervisor event).registry

theorem registry_obey
    (bench : Workbench) (command : Command) :
    (obey bench command).supervisor.registry = bench.supervisor.registry := by
  cases command with
  | raise event => rfl
  | send recipient event => exact registry_send event recipient bench

theorem perform_abiding
    {action : Action ActorLogic}
    (isAction : action ∈ engine.machine.actions) (owner : StateId) :
    Abiding engine.machine (engine.perform event owner action) := by
  cases action with
  | assign name update =>
      refine abiding_get.bind fun bench => ?_
      split
      · exact abiding_modify fun _ => .refl
      · exact abiding_throw _
  | raise make delay id =>
      refine abiding_get.bind fun bench => ?_
      dsimp only
      split
      · exact abiding_modify fun bench =>
          shifts_schedule engine _ _ bench isAction rfl (by rintro rfl; rfl)
      · exact abiding_modify fun _ => .refl
  | send recipient make delay id =>
      refine abiding_get.bind fun bench => ?_
      dsimp only
      split
      · exact abiding_modify fun bench =>
          shifts_schedule engine _ _ bench isAction rfl (by rintro rfl; rfl)
      · exact abiding_modify fun bench =>
          Supervisor.shifts_of_registry (registry_send _ recipient bench)
  | cancel id =>
      exact abiding_modify fun bench =>
        Supervisor.shifts_cancelTimer bench.supervisor engine.nursery id
  | log label text => exact abiding_get.bind fun _ => abiding_modify fun _ => .refl
  | spawn id logic input =>
      intro bench
      simp only [perform, ends_bind, ends_get]
      refine shifts_spawn engine isAction rfl (by rintro rfl; rfl) rfl ?_
      rintro ⟨_, _, job⟩
      cases job
  | stopChild id =>
      exact abiding_modify fun bench =>
        Supervisor.shifts_dismiss bench.supervisor engine.nursery (by decide) id
  | effect name run =>
      refine abiding_get.bind fun bench => ?_
      dsimp only
      refine (abiding_modify ?_).bind fun _ => ?_
      · exact shifts_foldl _ fun _ _ _ => .refl
      · split
        · exact abiding_throw _
        · exact abiding_modify (shifts_foldl _ fun bench command _ =>
            Supervisor.shifts_of_registry (registry_obey bench command))

theorem performAll_abiding
    {actions : List (Action ActorLogic)}
    (areActions : ∀ action ∈ actions, action ∈ engine.machine.actions) (owner : StateId) :
    Abiding engine.machine (engine.performAll event owner actions) := by
  induction actions with
  | nil => exact abiding_pure ()
  | cons action actions ih =>
      obtain ⟨isAction, others⟩ := List.forall_mem_cons.mp areActions
      exact (perform_abiding engine event isAction owner).bind fun _ => ih others

/-- The machine declares all these choices. -/
def Declares (chosen : List (Choice ActorLogic)) : Prop :=
  ∀ choice ∈ chosen, ∃ transition ∈ (engine.machine.conduct choice.ref.source).transitions,
    choice.candidate ∈ transition.candidates

theorem beat_abiding
    {beat : Beat}
    (does : ∀ action, beat.action? = some action → action ∈ engine.machine.actions)
    (announced : List StateId) :
    Abiding engine.machine (engine.beat event announced beat) := by
  cases beat with
  | leaving state =>
      refine Abiding.bind (abiding_still fun bench => ?_) fun _ => abiding_pure _
      rfl
  | acting owner action =>
      exact (perform_abiding engine event (does action rfl) owner).bind fun _ => abiding_pure _
  | left state =>
      exact (abiding_modify fun bench =>
        Supervisor.shifts_stopWhere bench.supervisor engine.nursery _).bind fun _ => abiding_pure _
  | entering state =>
      refine Abiding.bind (abiding_still fun bench => ?_) fun _ => abiding_pure _
      rfl
  | settling state =>
      refine (abiding_modify fun bench => ?_).bind fun _ => ?_
      · exact (shifts_invokeAll engine event state bench).trans (shifts_delayAll engine state _)
      · split
        · intro bench
          simp only [ends_bind, ends_get, ends_set, ends_pure]
          exact .refl
        · exact abiding_pure announced

theorem play_abiding
    {beats : List Beat}
    (does : ∀ beat ∈ beats, ∀ action, beat.action? = some action →
      action ∈ engine.machine.actions)
    (announced : List StateId) :
    Abiding engine.machine (engine.play event beats announced) := by
  induction beats generalizing announced with
  | nil => exact abiding_pure announced
  | cons beat beats ih =>
      obtain ⟨here, others⟩ := List.forall_mem_cons.mp does
      rw [play_cons]
      exact (beat_abiding engine event here announced).bind (ih others)

theorem leave_abiding
    (state : StateId) :
    Abiding engine.machine (engine.leave event state) := by
  refine Abiding.bind (abiding_still fun bench => ?_) fun _ => ?_
  · rfl
  refine (performAll_abiding engine event (fun _ => Machine.mem_actions_of_exit) _).bind
    fun _ => ?_
  exact abiding_modify fun bench => Supervisor.shifts_stopWhere bench.supervisor engine.nursery _

theorem leaveAll_abiding
    (states : List StateId) :
    Abiding engine.machine (engine.leaveAll event states) := by
  induction states with
  | nil => exact abiding_pure ()
  | cons state states ih => exact (leave_abiding engine event state).bind fun _ => ih

theorem takeAll_abiding
    {chosen : List (Choice ActorLogic)}
    (declared : engine.Declares chosen) :
    Abiding engine.machine (engine.takeAll event chosen) := by
  induction chosen with
  | nil => exact abiding_pure ()
  | cons choice chosen ih =>
      obtain ⟨here, others⟩ := List.forall_mem_cons.mp declared
      exact abiding_get.bind fun bench =>
        (performAll_abiding engine event
          (fun _ => Machine.mem_actions_of_declared here) _).bind fun _ => ih others

theorem enter_abiding
    (state : StateId) (announced : List StateId) :
    Abiding engine.machine (engine.enter event state announced) := by
  rw [← play_enterScript]
  refine play_abiding engine event ?_ announced
  intro beat member action acts
  simp only [Machine.enterScript, List.mem_append, List.mem_cons, List.mem_map,
    List.not_mem_nil, or_false] at member
  rcases member with (rfl | ⟨entry, isEntry, rfl⟩) | rfl
  · cases acts
  · obtain rfl := Option.some.inj acts
    exact Machine.mem_actions_of_entry isEntry
  · cases acts

theorem enterAll_abiding
    (states announced : List StateId) :
    Abiding engine.machine (engine.enterAll event states announced) := by
  induction states generalizing announced with
  | nil => exact abiding_pure ()
  | cons state states ih =>
      exact (enter_abiding engine event state announced).bind fun announced => ih announced

theorem enterPlanned_abiding
    (entries : Option StateSet) :
    Abiding engine.machine (engine.enterPlanned event entries) := by
  cases entries with
  | none => exact abiding_throw _
  | some entries => exact enterAll_abiding engine event entries []

theorem microstep_abiding
    {chosen : List (Choice ActorLogic)}
    (declared : engine.Declares chosen) :
    Abiding engine.machine (engine.microstep event chosen) := by
  refine abiding_get.bind fun bench => ?_
  refine Abiding.bind (abiding_still fun bench => ?_) fun _ => ?_
  · rfl
  exact (leaveAll_abiding engine event _).bind fun _ =>
    (takeAll_abiding engine event declared).bind fun _ => enterPlanned_abiding engine event _

theorem declares_of_selects
    {active : Configuration} {history : HistoryRecords} {chosen : List (Choice ActorLogic)}
    (selects : engine.machine.Selects active history chosen) :
    engine.Declares chosen := by
  obtain ⟨trigger, context, event, selection, selected, rfl⟩ := selects
  exact fun choice member => (Machine.select_offers_above selected choice member).declared

theorem stabilize_abiding
    (trigger : String) (budget : Nat) (current : Event) :
    Abiding engine.machine (engine.stabilize trigger budget current) := by
  induction budget generalizing current with
  | zero =>
      unfold stabilize
      refine abiding_get.bind fun bench => ?_
      dsimp only
      split
      · exact abiding_still fun _ => rfl
      · intro bench
        rw [ends_bind]
        refine (seek_ends engine _ current bench).mono ?_
          (fun _ _ stands => Supervisor.shifts_of_registry (congrArg _ stands.supervisor))
        rintro found middle ⟨stands, _⟩
        have same := congrArg Supervisor.registry stands.supervisor
        cases found with
        | none => exact Supervisor.shifts_of_registry same
        | some taken => exact Supervisor.shifts_of_registry same
  | succ budget ih =>
      unfold stabilize
      refine abiding_get.bind fun bench => ?_
      dsimp only
      split
      · exact abiding_still fun _ => rfl
      · intro bench
        rw [ends_bind]
        refine (seek_ends engine _ current bench).mono ?_
          (fun _ _ stands => Supervisor.shifts_of_registry (congrArg _ stands.supervisor))
        rintro found middle ⟨stands, selects⟩
        have same := congrArg Supervisor.registry stands.supervisor
        cases found with
        | none => exact Supervisor.shifts_of_registry same
        | some taken =>
            obtain ⟨event, chosen⟩ := taken
            have declared := declares_of_selects engine (selects event chosen rfl)
            exact ((microstep_abiding engine event declared).bind fun _ => ih event).after
              (Supervisor.shifts_of_registry same)

theorem firstStep_abiding : Abiding engine.machine (engine.firstStep event) := by
  unfold firstStep
  split
  · exact abiding_throw _
  · exact (enterPlanned_abiding engine event _).bind fun _ =>
      (stabilize_abiding engine _ _ event).bind fun _ => abiding_pure true

theorem macrostep_abiding : Abiding engine.machine (engine.macrostep event) := by
  intro bench
  unfold macrostep
  rw [ends_bind]
  refine (select_ends engine .event event bench).mono ?_
    (fun _ _ stands => Supervisor.shifts_of_registry (congrArg _ stands.supervisor))
  rintro chosen middle ⟨stands, selects⟩
  have same : engine.machine.Shifts bench.supervisor.registry middle.supervisor.registry :=
    Supervisor.shifts_of_registry (congrArg _ stands.supervisor)
  have declared := declares_of_selects engine selects
  split
  · exact ((stabilize_abiding engine _ _ event).bind fun _ => abiding_pure false).after same
  · split
    · exact same
    · exact ((microstep_abiding engine event declared).bind fun _ =>
        (stabilize_abiding engine _ _ event).bind fun _ => abiding_pure true).after same

theorem shifts_resume
    (bench : Workbench) :
    engine.machine.Shifts bench.supervisor.registry
      (engine.resume event bench).supervisor.registry :=
  shifts_foldl _ (fun bench state _ => (shifts_invokeAll engine event state bench).trans
    (shifts_delayAll engine state _)) bench

theorem shifts_exitEach
    (states : List StateId) (failure : Option Failure) (bench : Workbench) :
    engine.machine.Shifts bench.supervisor.registry
      (engine.exitEach event states failure bench).2.supervisor.registry := by
  induction states generalizing failure bench with
  | nil => exact .refl
  | cons state states ih =>
      have areActions : ∀ action ∈ (engine.machine.conduct state).exit,
          action ∈ engine.machine.actions := fun _ => Machine.mem_actions_of_exit
      have performed := performAll_abiding engine event areActions state
        (bench.reveal (.exited (engine.machine.chart.id state)))
      rw [ends_iff_run] at performed
      unfold exitEach
      dsimp only
      split
      · rename_i middle ran
        exact (performed.1 _ middle ran).trans (ih failure middle)
      · rename_i error middle ran
        exact (performed.2 error middle ran).trans (ih _ middle)

theorem shifts_exitAll
    (bench : Workbench) :
    engine.machine.Shifts bench.supervisor.registry
      (engine.exitAll event bench).2.supervisor.registry := by
  have stopped : ∀ supervisor : Supervisor Interpreter, engine.machine.Shifts
      supervisor.registry (supervisor.stopAll engine.nursery).registry :=
    fun supervisor => supervisor.shifts_stopWhere engine.nursery _
  let cleared := bench.onSupervisor fun supervisor => supervisor.stopAll engine.nursery
  exact ((stopped bench.supervisor).trans
    (shifts_exitEach engine event bench.state.active.reverse none cleared)).trans (stopped _)

end Engine

namespace Interpreter

/-- Both run the same machine, and the actors have changed as this has it. -/
structure Restaffs (before after : Interpreter) : Prop where
  machine : after.machine = before.machine
  shifts : before.machine.Shifts before.supervisor.registry after.supervisor.registry

theorem Restaffs.trans
    {first second third : Interpreter}
    (earlier : first.Restaffs second)
    (later : second.Restaffs third) :
    first.Restaffs third :=
  ⟨later.machine.trans earlier.machine,
    earlier.shifts.trans (earlier.machine ▸ later.shifts)⟩

theorem Stays.restaffs
    {before after : Interpreter}
    (stays : before.Stays after) :
    before.Restaffs after :=
  ⟨stays.machine, Supervisor.shifts_of_registry stays.registry⟩

section Abiding

variable (facilities : Facilities) (nursery : Nursery) (interpreter : Interpreter)

theorem restaffs_conclude
    (event : Event) (status : Status) :
    interpreter.Restaffs (interpreter.conclude facilities nursery event status).2 := by
  have told := (stays_publish ({ interpreter.commit ((interpreter.engine facilities
    nursery).exitAll event interpreter.bench).2 with status } : Interpreter).refresh).trans
      (stays_complete _)
  refine ⟨told.machine, ?_⟩
  have exited := Engine.shifts_exitAll (interpreter.engine facilities nursery) event
    interpreter.bench
  exact exited.trans (Supervisor.shifts_of_registry told.registry)

theorem restaffs_fail
    (failure : Failure) :
    interpreter.Restaffs (interpreter.fail nursery failure) := by
  unfold fail
  dsimp only
  refine Restaffs.trans ⟨?_, ?_⟩
    (((stays_publish _).trans (stays_tellEnd _ _)).trans (stays_complete _)).restaffs
  · rfl
  · exact Supervisor.shifts_stopWhere interpreter.supervisor nursery _

theorem restaffs_settle
    (event : Event) (handled : Bool) {bench : Workbench}
    (shifts : interpreter.machine.Shifts interpreter.supervisor.registry
      bench.supervisor.registry) :
    interpreter.Restaffs (interpreter.settle facilities nursery event handled bench) := by
  have told := stays_reported interpreter event handled bench
  have taken : interpreter.Restaffs (interpreter.steppedTo event handled bench) :=
    ⟨told.machine, shifts.trans (Supervisor.shifts_of_registry told.registry)⟩
  rw [settle_eq]
  split
  · exact taken.trans (restaffs_conclude facilities nursery _ event .done)
  · have shown := (stays_publish (interpreter.steppedTo event handled bench).refresh).restaffs
    exact taken.trans ⟨shown.machine, shown.shifts⟩

theorem restaffs_abandon
    (event : Event) (failure : Failure) {bench : Workbench}
    (shifts : interpreter.machine.Shifts interpreter.supervisor.registry
      bench.supervisor.registry) :
    interpreter.Restaffs (interpreter.abandon nursery event failure bench) := by
  have told := stays_reported interpreter event true bench
  have kept : interpreter.Restaffs
      ((interpreter.reported event true bench).withLastEvent event) :=
    ⟨told.machine, shifts.trans (Supervisor.shifts_of_registry told.registry)⟩
  rw [abandon_eq]
  exact kept.trans (restaffs_fail nursery _ failure)

theorem run_restaffs
    (event : Event) {step : Engine → Event → StepM Bool}
    (abiding : Abiding interpreter.machine (step (interpreter.engine facilities nursery) event)) :
    Ends (run facilities nursery event step) interpreter
      (fun _ after => interpreter.Restaffs after) (fun _ after => interpreter.Restaffs after) := by
  have stepped := abiding interpreter.bench
  rw [ends_iff_run] at stepped
  simp only [run, ends_bind, ends_get]
  split
  · rename_i handled bench ran
    exact restaffs_settle facilities nursery interpreter event handled (stepped.1 handled bench ran)
  · rename_i failure bench ran
    exact restaffs_abandon nursery interpreter event failure (stepped.2 failure bench ran)

theorem stop_restaffs :
    Ends (stop facilities nursery) interpreter
      (fun _ after => interpreter.Restaffs after) (fun _ after => interpreter.Restaffs after) := by
  have still : interpreter.Restaffs interpreter := (Stays.refl interpreter).restaffs
  simp only [stop, ends_bind, ends_get]
  split
  · have concluded := restaffs_conclude facilities nursery interpreter Event.stop .stopped
    simp only [stopRunning, ends_bind, ends_get, ends_set]
    split <;> exact concluded
  · have told := stays_complete
      ({ interpreter with deferred := [], status := .stopped } : Interpreter).refresh
    exact ⟨told.machine, Supervisor.shifts_of_registry told.registry⟩
  all_goals exact still

theorem resume_restaffs
    (event : Event) :
    interpreter.Restaffs (interpreter.resume facilities nursery event) := by
  unfold Interpreter.resume
  split
  · have told := (stays_publish _).trans (stays_complete
      ({ interpreter with status := .done } : Interpreter).refresh.publish)
    exact ⟨told.machine, Supervisor.shifts_of_registry told.registry⟩
  · refine Restaffs.trans ⟨?_, ?_⟩ (stays_publish _).restaffs
    · rfl
    · exact Engine.shifts_resume (interpreter.engine facilities nursery) event interpreter.bench

theorem restaffs_handles :
    Handles nursery fun after => interpreter.Restaffs after where
  dismiss := fun middle _ id ended restaffs => restaffs.trans
    ⟨rfl, Supervisor.shifts_dismiss middle.supervisor nursery ended id⟩
  deliver := fun middle id event restaffs => restaffs.trans
    ⟨rfl, Supervisor.shifts_deliver middle.supervisor nursery id event⟩
  wake := fun middle id restaffs => restaffs.trans
    ⟨rfl, Supervisor.shifts_wake middle.supervisor nursery id⟩
  sendUp := fun middle event restaffs => restaffs.trans
    ⟨rfl, Supervisor.shifts_of_registry
      (Supervisor.hears_sendUp middle.supervisor event).registry⟩

theorem dispatch_restaffs
    (envelope : Envelope) :
    interpreter.Restaffs (leftBy (dispatch facilities nursery envelope) interpreter) := by
  by_cases stops : envelope = .stop
  · subst stops
    exact (stop_restaffs facilities nursery interpreter).leftBy
  · have received : interpreter.Restaffs
        (interpreter.receive nursery envelope).readied :=
      (restaffs_handles nursery interpreter).receive (Stays.refl interpreter).restaffs
        envelope
    rw [leftBy_dispatch interpreter stops]
    cases (interpreter.receive nursery envelope).heard with
    | none => exact received
    | some event =>
        exact received.trans
          (run_restaffs facilities nursery _ event (Engine.macrostep_abiding _ event)).leftBy

variable {facilities nursery} {start before after : Interpreter} {dealings : List Dealing}

theorem Interlude.restaffs
    (interlude : Interlude facilities nursery before after) :
    before.Restaffs after := by
  cases interlude with
  | begin =>
      have begun := (run_restaffs facilities nursery { before with status := .running }
        (Event.init before.settings.input) (Engine.firstStep_abiding _ _)).leftBy
      exact ⟨begun.machine, begun.shifts⟩
  | resume =>
      have resumed := resume_restaffs facilities nursery { before with status := .running }
        (Event.init before.settings.input)
      exact ⟨resumed.machine, resumed.shifts⟩
  | redeem => exact (stays_recallDeferred before).restaffs
  | defer event => exact ⟨rfl, .refl⟩
  | accept envelope path accepted =>
      cases path with
      | nil =>
          obtain rfl := Option.some.inj accepted
          exact ⟨rfl, .refl⟩
      | cons origin path =>
          obtain ⟨child, reported, grown, found, _, rfl⟩ := accept?_cons.mp accepted
          obtain ⟨actor, bears, _, process⟩ := Registry.childMachine?_eq_some.mp found
          exact ⟨rfl, .single (.tend bears (by rw [process]; rfl))⟩
  | stop => exact (stop_restaffs facilities nursery before).leftBy
  | clear => exact ⟨rfl, .refl⟩
  | watch board => exact ⟨rfl, .refl⟩

theorem Course.restaffs
    (course : Course facilities nursery start dealings after) :
    start.Restaffs after := by
  induction course with
  | rest => exact (Stays.refl start).restaffs
  | @deal _ _ taken envelope _ _ found ih =>
      have taken : _ = taken := (nextEnvelope?_eq found).2.symm
      refine Restaffs.trans (ih.trans ?_) (dispatch_restaffs facilities nursery _ envelope)
      rw [(nextEnvelope?_eq found).2]
      exact ⟨rfl, .refl⟩
  | pause _ interlude ih => exact ih.trans interlude.restaffs
  | unload _ ih => exact ih.trans (stays_drained _).restaffs

/-- So the actors of an interpreter that began without any are a mix of what its machine has
started. -/
theorem Course.staffed
    (course : Course facilities nursery start dealings after)
    (fresh : start.Fresh) :
    start.machine.Staffed after.supervisor.registry := by
  have shifts := course.restaffs.shifts
  rwa [fresh.unstaffed] at shifts

end Abiding

end Interpreter

end Statechart
