import Mathlib.Data.List.Infix
import Statechart.Interpreter.Supervision

/-!
# What actors can do to their supervisor

Whatever an actor does while it is started, given an event, woken or stopped, all that its
supervisor notices is that there is more mail and that more has come out, none of it seen of
the interpreter itself.  The registry is changed by the supervisor alone, in a few ways that
`Registry.Turns` lists.
-/

namespace Statechart

/-- Does it come of the actors?  Nothing is then seen of the interpreter itself but what an
actor makes known. -/
def Emission.isOfActors : Emission → Bool
  | .activity [] (.actor _ _) => true
  | .activity [] _ => false
  | _ => true

/-- More has been added at the end, all of it of one kind. -/
def Added {α : Type} (kind : α → Bool) (before after : List α) : Prop :=
  ∃ more, after = before ++ more ∧ ∀ item ∈ more, kind item = true

section Adding

variable {α β : Type} {kind : α → Bool}

theorem Added.refl (items : List α) : Added kind items items :=
  ⟨[], (List.append_nil _).symm, fun _ member => by cases member⟩

theorem Added.one
    (items : List α) {item : α}
    (isOfKind : kind item = true) :
    Added kind items (items ++ [item]) :=
  ⟨[item], rfl, List.forall_mem_singleton.mpr isOfKind⟩

theorem Added.trans
    {first second third : List α}
    (earlier : Added kind first second)
    (later : Added kind second third) :
    Added kind first third := by
  obtain ⟨some, rfl, areOfKind⟩ := earlier
  obtain ⟨others, rfl, othersAreOfKind⟩ := later
  exact ⟨some ++ others, List.append_assoc _ _ _,
    List.forall_mem_append.mpr ⟨areOfKind, othersAreOfKind⟩⟩

theorem Added.mono
    {wider : α → Bool} {before after : List α}
    (added : Added kind before after)
    (widens : ∀ item, kind item = true → wider item = true) :
    Added wider before after := by
  obtain ⟨more, same, areOfKind⟩ := added
  exact ⟨more, same, fun item member => widens item (areOfKind item member)⟩

end Adding

/-- More has come out, all of it of the actors. -/
abbrev AddedByActors : List Emission → List Emission → Prop :=
  Added Emission.isOfActors

namespace Process

variable {ι : Type}

theorem hear_kind
    (event : Event) (process : Process ι) :
    (process.hear event).2.kind = process.kind := by
  cases process with
  | callback setup heard =>
      simp only [hear]
      split <;> rfl
  | _ => rfl

theorem machine_or_not (process : Process ι) :
    (∃ child reported, process = .machine child reported) ∨ process.kind ≠ .machine := by
  cases process with
  | machine child reported => exact .inl ⟨child, reported, rfl⟩
  | _ => exact .inr nofun

end Process

namespace Supervisor

/-- There is more mail, and more has come of the actors; nothing else is different. -/
structure Hears {ι : Type} (before after : Supervisor ι) : Prop where
  link : after.link = before.link
  registry : after.registry = before.registry
  inbox : before.inbox <+: after.inbox
  outbox : AddedByActors before.outbox after.outbox

section Hearing

variable {ι : Type}

theorem Hears.refl (supervisor : Supervisor ι) : supervisor.Hears supervisor :=
  ⟨rfl, rfl, List.prefix_rfl, .refl _⟩

theorem Hears.trans
    {first second third : Supervisor ι}
    (earlier : first.Hears second)
    (later : second.Hears third) :
    first.Hears third :=
  ⟨later.link.trans earlier.link, later.registry.trans earlier.registry,
    earlier.inbox.trans later.inbox, earlier.outbox.trans later.outbox⟩

variable (supervisor : Supervisor ι)

theorem hears_emit
    {emission : Emission}
    (isOfActors : emission.isOfActors = true) :
    supervisor.Hears (supervisor.emit emission) :=
  ⟨rfl, rfl, List.prefix_rfl, .one _ isOfActors⟩

theorem hears_keep
    (envelope : Envelope) :
    supervisor.Hears (supervisor.keep envelope) :=
  ⟨rfl, rfl, List.prefix_append _ _, .refl _⟩

theorem hears_post
    (envelope : Envelope) :
    supervisor.Hears (supervisor.post envelope) := by
  have kept := hears_keep supervisor envelope
  unfold post
  dsimp only
  split
  · exact kept
  · exact kept.trans (hears_emit _ rfl)

theorem hears_failure
    (self : Origin) (failure : Option ActorError) :
    supervisor.Hears
      (match failure with
      | some error => supervisor.post (.failed self error.message)
      | none => supervisor) := by
  cases failure with
  | some error => exact hears_post supervisor _
  | none => exact .refl supervisor

theorem hears_sendUp
    (event : Event) :
    supervisor.Hears (supervisor.sendUp event) := by
  unfold sendUp
  split
  · exact .refl supervisor
  · exact hears_emit supervisor rfl

theorem Hears.update
    {before after : Supervisor Interpreter}
    (hears : before.Hears after)
    (id : String) (process : Process Interpreter) :
    { before with registry := before.registry.update id process }.Hears
      (after.update id process) :=
  ⟨hears.link, congrArg (fun registry => Registry.update registry id process) hears.registry,
    hears.inbox, hears.outbox⟩

theorem hears_foldl
    {item : Type} {step : Supervisor ι → item → Supervisor ι}
    (hears : ∀ (supervisor : Supervisor ι) (next : item),
      supervisor.Hears (step supervisor next))
    (items : List item) (supervisor : Supervisor ι) :
    supervisor.Hears (items.foldl step supervisor) :=
  List.foldlRecOn (motive := supervisor.Hears) items step (.refl supervisor)
    fun middle earlier next _ => earlier.trans (hears middle next)

end Hearing

section Actors

variable (supervisor : Supervisor Interpreter) (facilities : Facilities)
variable (nursery : Nursery) (self : Origin)

theorem hears_absorb
    (emissions : List Emission) :
    supervisor.Hears (supervisor.absorb self emissions) := by
  refine hears_foldl (fun supervisor emission => ?_) emissions supervisor
  cases emission with
  | activity path activity => exact hears_emit supervisor rfl
  | upward envelope => exact hears_post supervisor envelope
  | commission path holder errand => exact hears_emit supervisor rfl
  | revoke path holder => exact hears_emit supervisor rfl

theorem hears_attend
    (child : Interpreter) (task : Handling Unit) :
    supervisor.Hears (supervisor.attend self child task).2.2 := by
  unfold attend
  split
  · exact hears_absorb supervisor self _
  · exact hears_absorb supervisor self _

theorem hears_reportEnd
    (child : Interpreter) (reported : Bool) :
    supervisor.Hears (supervisor.reportEnd self child reported).2 := by
  unfold reportEnd
  split
  · exact hears_post supervisor _
  · exact .refl supervisor

theorem reportEnd_process
    (child : Interpreter) (reported : Bool) :
    ∃ told, (supervisor.reportEnd self child reported).1 = .machine child told := by
  unfold reportEnd
  split
  · exact ⟨true, rfl⟩
  · exact ⟨reported, rfl⟩

theorem hears_obeyAll
    (commands : List ActorCommand) :
    supervisor.Hears (supervisor.obeyAll self commands) := by
  refine hears_foldl (fun supervisor command => ?_) commands supervisor
  cases command with
  | send event => exact hears_post supervisor _
  | later delay event => exact hears_emit supervisor rfl
  | complete output => exact hears_post supervisor _
  | fail message => exact hears_post supervisor _
  | note text => exact hears_emit supervisor rfl

theorem hears_launchTask
    (process : Process Interpreter) (script : List (Option Duration × Envelope)) :
    supervisor.Hears (launchTask facilities supervisor self process script).2 := by
  unfold launchTask
  split
  · exact hears_emit supervisor rfl
  · exact .refl supervisor

theorem hears_launchMachine
    (machine : Machine ActorLogic) (input : Json) :
    supervisor.Hears (launchMachine nursery supervisor self machine input).2 := by
  have attended := hears_attend supervisor self (Interpreter.child machine self input)
    nursery.start
  unfold launchMachine
  split
  · rename_i started
    rw [started] at attended
    exact attended
  · rename_i child attending started
    rw [started] at attended
    exact attended.trans (hears_reportEnd attending self child false)

theorem hears_launch
    (input : Json) (job : Job) :
    supervisor.Hears (launch facilities nursery supervisor self input job).2 := by
  cases job with
  | timer delay delivery =>
      simp only [launch]
      split
      · exact hears_emit supervisor rfl
      · exact .refl supervisor
  | logic logic =>
      cases logic with
      | machine machine => exact hears_launchMachine supervisor nursery self machine input
      | callback setup => exact hears_obeyAll supervisor self _
      | custom logic => exact hears_obeyAll supervisor self _
      | promise plan => exact hears_launchTask supervisor facilities self _ _
      | stream items => exact hears_launchTask supervisor facilities self _ _

theorem hears_release
    (process : Process Interpreter) :
    supervisor.Hears (release nursery supervisor self process) := by
  cases process with
  | machine child reported => exact hears_attend supervisor self child nursery.stop
  | callback setup heard => exact hears_obeyAll supervisor self _
  | custom logic input heard => exact hears_obeyAll supervisor self _
  | promise => exact hears_emit supervisor rfl
  | stream => exact hears_emit supervisor rfl
  | timer => exact hears_emit supervisor rfl

/-- What is heard of a child machine that is given something to do, and what becomes of
it. -/
theorem tend_turns
    (child : Interpreter) (reported : Bool) (task : Handling Unit)
    (blame : Failure → ActorError) :
    ∃ process, { supervisor with registry := supervisor.registry.update self.id process }.Hears
      (supervisor.tend self child reported task blame).2 := by
  have attended := hears_attend supervisor self child task
  unfold tend
  split
  · rename_i grown attending tended
    rw [tended] at attended
    exact ⟨.machine grown true, attended.link,
      congrArg (fun registry => Registry.update registry self.id _) attended.registry,
      attended.inbox, attended.outbox⟩
  · rename_i grown attending tended
    rw [tended] at attended
    have heard := attended.trans (hears_reportEnd attending self grown reported)
    exact ⟨(attending.reportEnd self grown reported).1, heard.link,
      congrArg (fun registry => Registry.update registry self.id _) heard.registry,
      heard.inbox, heard.outbox⟩

end Actors

end Supervisor

namespace Registry

variable {ι : Type}

/-- The registry after the actor that bears an id, if there is one, has been removed. -/
def dismissed (registry : Registry ι) (status : ActorStatus) (id : String) : Registry ι :=
  match registry.actor? id with
  | none => registry
  | some actor => (registry.remove id).close { id, serial := actor.serial } status

/-- The registry after an actor has been started, and one that bore its id stopped. -/
def staffed (registry : Registry ι) (id : String) (owner : Option StateId) (depth : Nat)
    (process : Process ι) : Registry ι :=
  let (self, registry) := (registry.dismissed .stopped id).register id
  registry.enroll id { serial := self.serial, owner, depth, process }

/-- What a deed can make of a registry. -/
inductive Turns : Registry ι → Registry ι → Prop where
  | stay (registry : Registry ι) : Turns registry registry
  | name (registry : Registry ι) (stem : String) : Turns registry (registry.freshId stem).2
  | dismiss (registry : Registry ι) {status : ActorStatus} (id : String) :
      status ≠ .active → Turns registry (registry.dismissed status id)
  | staff (registry : Registry ι) (id : String) (owner : Option StateId) (depth : Nat)
      (process : Process ι) :
      Turns registry (registry.staffed id owner depth process)
  | update (registry : Registry ι) (id : String) (process : Process ι) :
      Turns registry (registry.update id process)

end Registry

namespace Supervisor

variable (supervisor : Supervisor Interpreter) (facilities : Facilities)
variable (nursery : Nursery)

theorem dismiss_turns
    (status : ActorStatus) (id : String) :
    { supervisor with registry := supervisor.registry.dismissed status id }.Hears
      (supervisor.dismiss nursery status id) := by
  unfold dismiss Registry.dismissed
  cases supervisor.registry.actor? id with
  | none => exact .refl supervisor
  | some actor =>
      have released := hears_release
        { supervisor with registry := supervisor.registry.remove id } nursery
        { id, serial := actor.serial } actor.process
      exact ⟨released.link,
        congrArg (fun registry => Registry.close registry _ status) released.registry,
        released.inbox, released.outbox⟩

/-- The process that a started actor runs, the failure of its start and the supervisor
after that. -/
def launched (order : SpawnOrder) : Launch × Supervisor Interpreter :=
  let supervisor := supervisor.dismiss nursery .stopped order.id
  let (self, registry) := supervisor.registry.register order.id
  { supervisor with registry }.launch facilities nursery self order.input order.job

theorem spawn_turns
    (order : SpawnOrder) :
    { supervisor with
      registry := supervisor.registry.staffed order.id order.owner order.depth
        (supervisor.launched facilities nursery order).1.process }.Hears
      (supervisor.spawn facilities nursery order) := by
  have dismissed := dismiss_turns supervisor nursery .stopped order.id
  have given : (supervisor.dismiss nursery .stopped order.id).registry =
      supervisor.registry.dismissed .stopped order.id := dismissed.registry
  have launching := hears_launch
    { supervisor.dismiss nursery .stopped order.id with
      registry := ((supervisor.dismiss nursery .stopped order.id).registry.register
        order.id).2 } facilities nursery
    ((supervisor.dismiss nursery .stopped order.id).registry.register order.id).1
    order.input order.job
  have heard := launching.trans
    (hears_failure (supervisor.launched facilities nursery order).2
      ((supervisor.dismiss nursery .stopped order.id).registry.register order.id).1
      (supervisor.launched facilities nursery order).1.failure)
  constructor
  · exact heard.link.trans dismissed.link
  · refine (congrArg (fun registry => Registry.enroll registry order.id _)
      heard.registry).trans ?_
    unfold Registry.staffed
    rw [← given]
    rfl
  · exact dismissed.inbox.trans heard.inbox
  · exact dismissed.outbox.trans heard.outbox

section Delivering

variable {supervisor nursery} {id : String} {actor : Actor Interpreter}

theorem deliver_machine
    {child : Interpreter} {reported : Bool}
    (found : supervisor.registry.actor? id = some actor)
    (process : actor.process = .machine child reported) (event : Event) :
    supervisor.deliver nursery id event =
      supervisor.tend ⟨id, actor.serial⟩ child reported (nursery.receive event) fun failure =>
        .receive event.type failure.message := by
  unfold deliver
  rw [found]
  dsimp only
  rw [process]

theorem deliver_of_noMachine
    (found : supervisor.registry.actor? id = some actor)
    (noMachine : actor.process.kind ≠ .machine) (event : Event) :
    supervisor.deliver nursery id event =
      ((actor.process.hear event).1.failure,
        (supervisor.obeyAll ⟨id, actor.serial⟩ (actor.process.hear event).1.commands).update id
          (actor.process.hear event).2) := by
  obtain ⟨serial, owner, depth, process⟩ := actor
  unfold deliver
  rw [found]
  cases process with
  | machine child reported => exact absurd rfl noMachine
  | _ => rfl

end Delivering

/-- Giving an actor an event changes at most what that actor holds. -/
theorem deliver_turns
    (id : String) (event : Event) :
    ∃ registry, (registry = supervisor.registry ∨
        ∃ process, registry = supervisor.registry.update id process) ∧
      { supervisor with registry }.Hears (supervisor.deliver nursery id event).2 := by
  cases found : supervisor.registry.actor? id with
  | none =>
      unfold deliver
      rw [found]
      exact ⟨_, .inl rfl, .refl supervisor⟩
  | some actor =>
      rcases actor.process.machine_or_not with ⟨child, reported, isMachine⟩ | noMachine
      · rw [deliver_machine found isMachine]
        obtain ⟨process, heard⟩ := tend_turns supervisor ⟨id, actor.serial⟩ child reported
          (nursery.receive event) fun failure => .receive event.type failure.message
        exact ⟨_, .inr ⟨process, rfl⟩, heard⟩
      · rw [deliver_of_noMachine found noMachine]
        exact ⟨_, .inr ⟨_, rfl⟩, (hears_obeyAll supervisor _ _).update id _⟩

/-- Letting a child machine look into its mailbox changes at most that machine. -/
theorem wake_turns
    (id : String) :
    ∃ registry, (registry = supervisor.registry ∨
        ∃ process, registry = supervisor.registry.update id process) ∧
      { supervisor with registry }.Hears (supervisor.wake nursery id).2 := by
  unfold wake
  split
  · rename_i serial owner depth child reported _
    obtain ⟨process, heard⟩ := tend_turns supervisor { id, serial } child reported
      nursery.wake fun failure => .failed failure.message
    exact ⟨_, .inr ⟨process, rfl⟩, heard⟩
  · exact ⟨_, .inl rfl, .refl supervisor⟩

end Supervisor

end Statechart
