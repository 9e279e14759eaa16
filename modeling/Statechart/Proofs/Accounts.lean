import Statechart.Proofs.ActorEffects

/-!
# What an interpreter tells of itself

An interpreter tells which states it enters and leaves and which snapshots it shows.  This
account is read off what has come out of it.  Nothing that its actors do adds to the
account, and neither does what comes out of its child machines.
-/

namespace Statechart

namespace Emission

/-- A state that the interpreter itself entered or left, or a snapshot that it showed. -/
def told? : Emission → Option Activity
  | .activity [] (.entered state) => some (.entered state)
  | .activity [] (.exited state) => some (.exited state)
  | .activity [] (.published listener snapshot) => some (.published listener snapshot)
  | _ => none

theorem told_of_actors
    {emission : Emission}
    (isOfActors : emission.isOfActors = true) :
    emission.told? = none := by
  cases emission with
  | activity path activity =>
      cases path with
      | nil => cases activity <;> first | rfl | cases isOfActors
      | cons origin path => rfl
  | upward envelope => rfl
  | commission path holder errand => rfl
  | revoke path holder => rfl

end Emission

/-- Is a state entered or left? -/
def Activity.isVisit : Activity → Bool
  | .entered _ => true
  | .exited _ => true
  | _ => false

/-- The states entered and left in an account. -/
def visitsIn (account : List Activity) : List Activity :=
  account.filter Activity.isVisit

/-- The account tells that this snapshot was shown. -/
def ShownIn (account : List Activity) (snapshot : Snapshot) : Prop :=
  ∃ listener, .published listener snapshot ∈ account

section Accounts

variable {first second : List Activity} {snapshot : Snapshot}

theorem visitsIn_append :
    visitsIn (first ++ second) = visitsIn first ++ visitsIn second :=
  List.filter_append first second

theorem shownIn_append :
    ShownIn (first ++ second) snapshot ↔ ShownIn first snapshot ∨ ShownIn second snapshot := by
  simp [ShownIn, exists_or]

theorem visitsIn_of_visits
    (areVisits : ∀ activity ∈ first, activity.isVisit = true) :
    visitsIn first = first :=
  List.filter_eq_self.mpr areVisits

theorem not_shownIn_of_visits
    (areVisits : ∀ activity ∈ first, activity.isVisit = true) :
    ¬ ShownIn first snapshot := by
  rintro ⟨listener, member⟩
  cases areVisits _ member

end Accounts

namespace Supervisor

/-- The states entered and left and the snapshots shown, in order. -/
def account {ι : Type} (supervisor : Supervisor ι) : List Activity :=
  supervisor.outbox.filterMap Emission.told?

section Mail

variable {ι : Type} (supervisor : Supervisor ι)

@[simp]
theorem account_emit
    (emission : Emission) :
    (supervisor.emit emission).account =
      supervisor.account ++ emission.told?.toList := by
  cases told : emission.told? <;> simp [account, emit, told]

theorem Hears.account
    {before after : Supervisor ι}
    (hears : before.Hears after) :
    after.account = before.account := by
  obtain ⟨more, same, areOfActors⟩ := hears.outbox
  have untold : more.filterMap Emission.told? = [] :=
    List.filterMap_eq_nil_iff.mpr fun emission member =>
      Emission.told_of_actors (areOfActors emission member)
  unfold Supervisor.account
  rw [same, List.filterMap_append, untold, List.append_nil]

@[simp]
theorem account_keep
    (envelope : Envelope) :
    (supervisor.keep envelope).account = supervisor.account :=
  rfl

@[simp]
theorem account_post
    (envelope : Envelope) :
    (supervisor.post envelope).account = supervisor.account :=
  (hears_post supervisor envelope).account

@[simp]
theorem account_sendUp
    (event : Event) :
    (supervisor.sendUp event).account = supervisor.account :=
  (hears_sendUp supervisor event).account

end Mail

theorem account_foldl
    {item : Type} {step : Supervisor Interpreter → item → Supervisor Interpreter}
    (silent : ∀ supervisor next, (step supervisor next).account = supervisor.account)
    (items : List item) (supervisor : Supervisor Interpreter) :
    (items.foldl step supervisor).account = supervisor.account := by
  induction items generalizing supervisor with
  | nil => rfl
  | cons next items ih => rw [List.foldl_cons, ih, silent]

section Actors

variable (supervisor : Supervisor Interpreter) (facilities : Facilities)
variable (nursery : Nursery)

@[simp]
theorem account_dismiss
    (status : ActorStatus) (id : String) :
    (dismiss nursery status supervisor id).account = supervisor.account :=
  (dismiss_turns supervisor nursery status id).account

@[simp]
theorem account_finish
    (origin : Origin) (status : ActorStatus) :
    (finish nursery supervisor origin status).2.account = supervisor.account := by
  unfold finish
  split <;> simp

@[simp]
theorem account_stopWhere
    (chosen : Actor Interpreter → Bool) :
    (supervisor.stopWhere nursery chosen).account = supervisor.account :=
  account_foldl (fun supervisor id => account_dismiss supervisor nursery .stopped id)
    (supervisor.registry.doomed chosen) supervisor

@[simp]
theorem account_stopOwnedBy
    (state : StateId) :
    (supervisor.stopOwnedBy nursery state).account = supervisor.account :=
  account_stopWhere supervisor nursery _

@[simp]
theorem account_stopAll :
    (supervisor.stopAll nursery).account = supervisor.account :=
  account_stopWhere supervisor nursery _

@[simp]
theorem account_cancelTimer
    (id : String) :
    (supervisor.cancelTimer nursery id).account = supervisor.account := by
  unfold cancelTimer
  split <;> simp

@[simp]
theorem account_spawn
    (order : SpawnOrder) :
    (supervisor.spawn facilities nursery order).account = supervisor.account :=
  (spawn_turns supervisor facilities nursery order).account

theorem account_deliver
    (id : String) (event : Event) :
    (supervisor.deliver nursery id event).2.account = supervisor.account := by
  obtain ⟨_, _, hears⟩ := deliver_turns supervisor nursery id event
  exact hears.account

theorem account_wake
    (id : String) :
    (supervisor.wake nursery id).2.account = supervisor.account := by
  obtain ⟨_, _, hears⟩ := wake_turns supervisor nursery id
  exact hears.account

end Actors

end Supervisor

end Statechart
