import Statechart.Proofs.Owners

/-!
# States that are left or entered in a script

When a script leaves a state, the exit actions of the state are carried out, and afterwards
all actors that ended with it have been stopped.  When it enters a state, the entry actions
are carried out, and afterwards there runs a new actor for each invocation and each delay of
the state.
-/

namespace Statechart

namespace Registry

variable {ι : Type}

/-- The actor of an origin runs, and ends with this owner. -/
def Employs (registry : Registry ι) (origin : Origin) (owner : Option StateId) : Prop :=
  ∃ actor, registry.actor? origin.id = some actor ∧ actor.serial = origin.serial ∧
    actor.owner = owner

/-- An actor that ends with a state bears the id, and its serial number is not before this
one. -/
def Serves (registry : Registry ι) (state : StateId) (serial : Nat) (id : String) : Prop :=
  ∃ actor, registry.actor? id = some actor ∧ actor.owner = some state ∧ serial ≤ actor.serial

section Employing

variable {registry : Registry ι} {origin : Origin} {owner : Option StateId}

theorem employs_dismissed
    (employed : registry.Employs origin owner)
    (status : ActorStatus) (id : String) :
    (registry.dismissed status id).Employs origin owner ∨
      (origin, status) ∈ (registry.dismissed status id).closed := by
  obtain ⟨actor, found, serial, owned⟩ := employed
  by_cases same : origin.id = id
  · subst same
    rw [dismissed_of_some status found, serial]
    exact .inr List.mem_cons_self
  · exact .inl ⟨actor, by rw [actor?_dismissed, if_neg same, found], serial, owned⟩

theorem employs_staffed
    (employed : registry.Employs origin owner)
    (id : String) (other : Option StateId) (depth : Nat) (process : Process ι) :
    (registry.staffed id other depth process).Employs origin owner ∨
      (origin, .stopped) ∈ (registry.staffed id other depth process).closed := by
  rcases employs_dismissed employed .stopped id with ⟨actor, found, serial, owned⟩ | stopped
  · rw [actor?_dismissed] at found
    split at found
    · cases found
    · rename_i different
      exact .inl ⟨actor, by rw [actor?_staffed, if_neg different, found], serial, owned⟩
  · exact .inr stopped

theorem Employs.not_within
    {state : StateId}
    (employed : registry.Employs origin (some state)) :
    ¬ registry.OwnedWithin (· ≠ state) := by
  obtain ⟨actor, found, _, owned⟩ := employed
  exact fun within => within _ (Table.mem_of_get? found) state owned rfl

end Employing

end Registry

namespace Supervisor

variable {facilities : Facilities} {nursery : Nursery}
variable {before after : Supervisor Interpreter} {origin : Origin} {owner : Option StateId}

theorem Chore.employs
    (chore : Chore facilities nursery before after)
    (employed : before.registry.Employs origin owner) :
    after.registry.Employs origin owner ∨ (origin, .stopped) ∈ after.registry.closed := by
  cases chore with
  | keep envelope => exact .inl ((hears_keep before envelope).registry ▸ employed)
  | sendUp event => exact .inl ((hears_sendUp before event).registry ▸ employed)
  | reveal isOfStep => exact .inl employed
  | name stem => exact .inl employed
  | dismiss id =>
      rw [registry_dismiss]
      exact Registry.employs_dismissed employed .stopped id
  | spawn order =>
      rw [(spawn_turns before facilities nursery order).registry]
      exact Registry.employs_staffed employed order.id order.owner order.depth _

theorem Chores.employs
    (chores : Chores facilities nursery before after)
    (employed : before.registry.Employs origin owner) :
    after.registry.Employs origin owner ∨ (origin, .stopped) ∈ after.registry.closed := by
  induction chores with
  | refl => exact .inl employed
  | tail _ last ih =>
      rcases ih with goesOn | stopped
      · exact last.employs goesOn
      · exact .inr (last.deed.turns.1.ages.closed.subset stopped)

theorem Chores.stops
    {state : StateId}
    (chores : Chores facilities nursery before after)
    (released : after.registry.OwnedWithin (· ≠ state))
    (employed : before.registry.Employs origin (some state)) :
    (origin, .stopped) ∈ after.registry.closed :=
  (chores.employs employed).resolve_left fun goesOn => goesOn.not_within released

theorem serves_spawn
    {state : StateId} {serial : Nat} {id : String} {order : SpawnOrder}
    (owned : order.owner = some state)
    (issued : serial ≤ before.registry.nextSerial)
    (either : id = order.id ∨ before.registry.Serves state serial id) :
    (before.spawn facilities nursery order).registry.Serves state serial id := by
  unfold Registry.Serves
  rw [actor?_spawn]
  split
  · exact ⟨_, rfl, owned, issued⟩
  · rename_i different
    exact either.resolve_left different

end Supervisor

namespace Engine

variable (engine : Engine) (event : Event)

theorem foldl_spawn_serves
    {item : Type} {order : Workbench → item → SpawnOrder} (name : item → String)
    {state : StateId} {serial : Nat}
    (named : ∀ bench next, (order bench next).id = name next)
    (owned : ∀ bench next, (order bench next).owner = some state)
    (items : List item) {bench : Workbench}
    (issued : serial ≤ bench.supervisor.registry.nextSerial)
    {id : String}
    (either : id ∈ items.map name ∨ bench.supervisor.registry.Serves state serial id) :
    (items.foldl (fun bench next => engine.spawn (order bench next) bench)
      bench).supervisor.registry.Serves state serial id := by
  induction items generalizing bench with
  | nil => exact either.resolve_left List.not_mem_nil
  | cons next items ih =>
      have chores := (toils_spawn engine (order bench next) bench).chores
      refine ih (issued.trans chores.works.proceeds.ages.issued) ?_
      rw [List.map_cons, List.mem_cons, or_assoc] at either
      rcases either with isNext | later | already
      · exact .inr (Supervisor.serves_spawn (owned bench next) issued
          (.inl (isNext.trans (named bench next).symm)))
      · exact .inl later
      · exact .inr (Supervisor.serves_spawn (owned bench next) issued (.inr already))

theorem invokeAll_serves
    {state : StateId} {serial : Nat} {bench : Workbench} {id : String}
    (issued : serial ≤ bench.supervisor.registry.nextSerial)
    (either : id ∈ (engine.machine.conduct state).invocations.map Invocation.id ∨
      bench.supervisor.registry.Serves state serial id) :
    (engine.invokeAll event state bench).supervisor.registry.Serves state serial id := by
  unfold invokeAll
  exact foldl_spawn_serves engine Invocation.id (fun _ _ => rfl) (fun _ _ => rfl) _ issued either

theorem delayAll_serves
    {state : StateId} {serial : Nat} {bench : Workbench} {id : String}
    (issued : serial ≤ bench.supervisor.registry.nextSerial)
    (either : id ∈ (engine.machine.conduct state).timeouts.map Timeout.event ∨
      bench.supervisor.registry.Serves state serial id) :
    (engine.delayAll state bench).supervisor.registry.Serves state serial id := by
  unfold delayAll
  exact foldl_spawn_serves engine Timeout.event (fun _ _ => rfl) (fun _ _ => rfl) _ issued either

theorem enter_serves
    (state : StateId) (announced : List StateId) (bench : Workbench) :
    Ends (engine.enter event state announced) bench
      (fun _ after => ∀ id,
        id ∈ (engine.machine.conduct state).invocations.map Invocation.id ∨
          id ∈ (engine.machine.conduct state).timeouts.map Timeout.event →
        after.supervisor.registry.Serves state bench.supervisor.registry.nextSerial id)
      (fun _ _ => True) := by
  simp only [enter, ends_bind, ends_modify]
  refine ((performAll_dutiful engine event state _).diligent _).mono ?_ (fun _ _ _ => trivial)
  intro _ acted works
  have proceeds : Supervisor.Works engine.facilities engine.nursery bench.supervisor
      acted.supervisor := .head (.reveal bench.supervisor _) works
  have issued := proceeds.proceeds.ages.issued
  have invoked := (toils_invokeAll engine event state acted).chores.works.proceeds.ages.issued
  have started : ∀ id,
      id ∈ (engine.machine.conduct state).invocations.map Invocation.id ∨
        id ∈ (engine.machine.conduct state).timeouts.map Timeout.event →
      (engine.delayAll state (engine.invokeAll event state acted)).supervisor.registry.Serves
        state bench.supervisor.registry.nextSerial id := fun id isOwn =>
    delayAll_serves engine (issued.trans invoked)
      (isOwn.symm.imp_right fun isInvoked => invokeAll_serves engine event issued (.inl isInvoked))
  split
  · exact started
  · exact started

theorem leave_stops
    (state : StateId) {bench : Workbench}
    (balanced : bench.supervisor.registry.Balanced) :
    Ends (engine.leave event state) bench
      (fun _ after => after.supervisor.registry.OwnedWithin (· ≠ state))
      (fun _ _ => True) := by
  refine (leave_owned engine event (fun _ => trivial) balanced
    (fun _ _ _ _ => trivial)).mono ?_ (fun _ _ _ => trivial)
  exact fun _ after left => left.2.mono fun _ kept => kept.2

theorem beat_dutiful
    (beat : Beat) (announced : List StateId) :
    Dutiful engine (engine.beat event announced beat) := by
  cases beat with
  | leaving state =>
      exact (dutiful_modify (toils_reveal engine rfl)).bind fun _ => dutiful_pure _
  | acting owner action =>
      exact (perform_dutiful engine event owner action).bind fun _ => dutiful_pure _
  | left state =>
      refine Dutiful.bind (dutiful_modify fun bench => ?_) fun _ => dutiful_pure _
      exact ⟨bench.supervisor.chores_stopWhere _, .refl⟩
  | entering state =>
      refine Dutiful.bind (dutiful_modify fun bench => ?_) fun _ => dutiful_pure _
      exact ⟨.single (.reveal bench.supervisor rfl), .refl⟩
  | settling state =>
      refine Dutiful.bind (dutiful_modify fun bench => ?_) fun _ => ?_
      · exact (toils_invokeAll engine event state bench).trans (toils_delayAll engine state _)
      · split
        · intro bench
          simp only [ends_bind, ends_get, ends_set, ends_pure]
          refine ⟨.refl, ?_⟩
          rw [history_complete]
        · exact dutiful_pure announced

theorem play_dutiful
    (beats : List Beat) (announced : List StateId) :
    Dutiful engine (engine.play event beats announced) := by
  induction beats generalizing announced with
  | nil => exact dutiful_pure announced
  | cons beat beats ih =>
      rw [play_cons]
      exact (beat_dutiful engine event beat announced).bind ih

/-- Playing a script leaves a state and enters it again later.  After its exit actions, all
actors that ended with it at first have been stopped, and no other ends with it.  After its
entry actions, the ids of its invocations and delays are borne by actors that end with it and
were not there before. -/
inductive Renews (state : StateId) : List Beat → Workbench → Workbench → Prop where
  | intro {front between back : List Beat}
      {start leaving left entering entered last : Workbench}
      {announced announcedThen announcedLater announcedLast : List StateId} :
      (engine.play event front []).run start = .ok announced leaving →
      (engine.leave event state).run leaving = .ok () left →
      (engine.play event between announced).run left = .ok announcedThen entering →
      (engine.enter event state announcedThen).run entering = .ok announcedLater entered →
      (engine.play event back announcedLater).run entered = .ok announcedLast last →
      (∀ origin, start.supervisor.registry.Employs origin (some state) →
        (origin, .stopped) ∈ left.supervisor.registry.closed) →
      left.supervisor.registry.OwnedWithin (· ≠ state) →
      (∀ id, id ∈ (engine.machine.conduct state).invocations.map Invocation.id ∨
          id ∈ (engine.machine.conduct state).timeouts.map Timeout.event →
        entered.supervisor.registry.Serves state entering.supervisor.registry.nextSerial id) →
      Renews state
        (front ++ engine.machine.leaveScript state ++ between ++
          engine.machine.enterScript state ++ back)
        start last

section Playing

variable {engine event}
variable {state : StateId} {front between back : List Beat} {start last : Workbench}
variable {announcedLast : List StateId}

theorem run_play_parts
    (ran : (engine.play event (front ++ between ++ back) []).run start =
      .ok announcedLast last) :
    ∃ announced middle announcedThen later,
      (engine.play event front []).run start = .ok announced middle ∧
        (engine.play event between announced).run middle = .ok announcedThen later ∧
          (engine.play event back announcedThen).run later = .ok announcedLast last := by
  rw [play_append, play_append] at ran
  obtain ⟨announcedThen, later, parts, rest⟩ := run_bind_eq_ok.mp ran
  obtain ⟨announced, middle, first, second⟩ := run_bind_eq_ok.mp parts
  exact ⟨announced, middle, announcedThen, later, first, second, rest⟩

theorem renews_of_run
    (balanced : start.supervisor.registry.Balanced)
    (ran : (engine.play event
        (front ++ engine.machine.leaveScript state ++ between ++
          engine.machine.enterScript state ++ back) []).run start = .ok announcedLast last) :
    engine.Renews event state
      (front ++ engine.machine.leaveScript state ++ between ++
        engine.machine.enterScript state ++ back)
      start last := by
  obtain ⟨announcedThen, entering, announcedLater, entered, before, enters, after⟩ :=
    run_play_parts ran
  obtain ⟨announced, leaving, _, left, first, leaves, onward⟩ := run_play_parts before
  rw [play_enterScript] at enters
  rw [play_leaveScript] at leaves
  obtain ⟨_, _, ran, same⟩ := run_bind_eq_ok.mp leaves
  cases same
  have toils := (ends_iff_run.mp (play_dutiful engine event front [] start)).1 _ _ first
  have toilsLeaving := (ends_iff_run.mp (leave_dutiful engine event state _)).1 _ _ ran
  have released := (ends_iff_run.mp (leave_stops engine event state
    (toils.chores.works.proceeds.balanced balanced))).1 _ _ ran
  have serves := (ends_iff_run.mp (enter_serves engine event state announcedThen entering)).1 _ _
    enters
  exact .intro first ran onward enters after
    (fun _ => Supervisor.Chores.stops (toils.chores.trans toilsLeaving.chores) released)
    released serves

end Playing

end Engine

theorem Machine.script_parts
    (machine : Machine ActorLogic) {state : StateId} {exits entries : List StateId}
    (isLeft : state ∈ exits)
    (isEntered : state ∈ entries)
    (history : HistoryRecords) (chosen : List (Choice ActorLogic)) :
    ∃ front between back, machine.script history exits chosen entries =
      front ++ machine.leaveScript state ++ between ++ machine.enterScript state ++ back := by
  obtain ⟨earlier, later, rfl⟩ := List.append_of_mem isLeft
  obtain ⟨above, below, rfl⟩ := List.append_of_mem isEntered
  refine ⟨earlier.flatMap machine.leaveScript,
    later.flatMap machine.leaveScript ++ chosen.flatMap (machine.takeScript history) ++
      above.flatMap machine.enterScript,
    below.flatMap machine.enterScript, ?_⟩
  simp only [script, List.flatMap_append, List.flatMap_cons, List.append_assoc]

end Statechart
