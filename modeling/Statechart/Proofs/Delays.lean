import Statechart.Proofs.Priorities
import Statechart.Proofs.StateEntries
import Statechart.Proofs.TimersEndWithActors

/-!
# Delays

Every delay that is declared for a state is to have a timer of its own.  Delays are told apart
by their length when the timers are counted, but by their whole milliseconds when the timers
and the events that they deliver are named.  So every delay has its timer, and its event tries
what is declared after this delay, exactly if no two delays of the state have the same whole
milliseconds.
-/

namespace Statechart

variable {L : Type}

theorem Event.afterType_inj
    {delay other : Duration} {id : String} :
    Event.afterType delay id = Event.afterType other id ↔ delay.millis = other.millis := by
  unfold Event.afterType
  rw [String.append_left_inj, String.append_left_inj, String.append_right_inj]
  constructor
  · intro same
    have digits := congrArg String.toList same
    rw [Nat.toString_eq_repr, Nat.toString_eq_repr, Nat.toList_repr, Nat.toList_repr] at digits
    exact Registry.toDigits_injective digits
  · exact congrArg toString

namespace StateHead

variable {head : StateHead L} {id : String}

/-- The delays that are declared for the state. -/
def delays (head : StateHead L) : List Duration :=
  head.after.map Prod.fst

/-- No two delays of the state have the same whole milliseconds. -/
def TellsDelays (head : StateHead L) : Prop :=
  ∀ delay ∈ head.delays, ∀ other ∈ head.delays, delay.millis = other.millis → delay = other

instance (head : StateHead L) : Decidable head.TellsDelays :=
  inferInstanceAs (Decidable (∀ delay ∈ head.delays, ∀ other ∈ head.delays,
    delay.millis = other.millis → delay = other))

/-- What is declared for the state on its cues. -/
def cued (head : StateHead L) (id : String) : List (Descriptor × TransitionSpec L) :=
  head.transitions.filterMap fun transition =>
    (transition.1.descriptor? id).map fun descriptor => (descriptor, transition.2)

/-- What is declared for the state after its delays. -/
def delayed (head : StateHead L) (id : String) : List (Descriptor × TransitionSpec L) :=
  head.after.map fun item => (.exact (Event.afterType item.1 id), item.2)

/-- What is declared for the state on its actors. -/
def invoked (head : StateHead L) (id : String) : List (Descriptor × TransitionSpec L) :=
  head.invokes.zipIdx.flatMap fun item => declaredBy id item.1 item.2

theorem declared_eq (head : StateHead L) (id : String) :
    head.declared id = head.cued id ++ head.delayed id ++ head.invoked id :=
  rfl

theorem afterAbout_iff :
    (∀ delay ∈ head.delays, (head.after.filter fun item => item.1.millis = delay.millis) =
      head.after.filter fun item => item.1 = delay) ↔ head.TellsDelays := by
  constructor
  · intro same delay isDelay other isOther alike
    obtain ⟨item, isItem, rfl⟩ := List.mem_map.mp isOther
    have member : item ∈ head.after.filter fun item => item.1.millis = delay.millis :=
      List.mem_filter.mpr ⟨isItem, decide_eq_true alike.symm⟩
    rw [same delay isDelay] at member
    exact (of_decide_eq_true (List.mem_filter.mp member).2).symm
  · intro tells delay isDelay
    refine List.filter_congr fun item isItem => decide_eq_decide.mpr ⟨fun alike => ?_, ?_⟩
    · exact tells _ (List.mem_map_of_mem isItem) delay isDelay alike
    · rintro rfl
      rfl

/-- The timers that the state starts: one for each delay, with the event that is named after
it. -/
theorem timeouts_spec (head : StateHead L) (id : String) :
    (∀ timeout ∈ head.timeouts id, timeout.delay ∈ head.delays ∧
      timeout.event = Event.afterType timeout.delay id) ∧
    (∀ delay ∈ head.delays, ∃ timeout ∈ head.timeouts id, timeout.delay = delay) ∧
    ((head.timeouts id).map Timeout.delay).Nodup := by
  unfold timeouts delays
  induction head.after using List.reverseRecOn with
  | nil => simp
  | append_singleton after item ih =>
      obtain ⟨delay, spec⟩ := item
      obtain ⟨sound, complete, distinct⟩ := ih
      rw [List.foldl_append, List.foldl_cons, List.foldl_nil, List.map_append]
      generalize after.foldl _ [] = known at sound complete distinct ⊢
      dsimp only
      split
      · rename_i isKnown
        obtain ⟨older, isOlder, same⟩ := List.any_eq_true.mp isKnown
        refine ⟨fun timeout member => ?_, fun delay member => ?_, distinct⟩
        · exact ⟨List.mem_append_left _ (sound timeout member).1, (sound timeout member).2⟩
        · rcases List.mem_append.mp member with earlier | last
          · exact complete delay earlier
          · rw [List.map_singleton, List.mem_singleton] at last
            exact ⟨older, isOlder, (of_decide_eq_true same).trans last.symm⟩
      · rename_i isNew
        refine ⟨fun timeout member => ?_, fun delay member => ?_, ?_⟩
        · rcases List.mem_append.mp member with earlier | last
          · exact ⟨List.mem_append_left _ (sound timeout earlier).1, (sound timeout earlier).2⟩
          · obtain rfl := List.mem_singleton.mp last
            exact ⟨List.mem_append_right _ List.mem_cons_self, rfl⟩
        · rcases List.mem_append.mp member with earlier | last
          · obtain ⟨timeout, isTimeout, same⟩ := complete delay earlier
            exact ⟨timeout, List.mem_append_left _ isTimeout, same⟩
          · rw [List.map_singleton, List.mem_singleton] at last
            exact ⟨_, List.mem_append_right _ List.mem_cons_self, last.symm⟩
        · rw [List.map_append, List.nodup_append]
          refine ⟨distinct, List.nodup_singleton _, fun delay earlier other last same => ?_⟩
          obtain ⟨timeout, member, rfl⟩ := List.mem_map.mp earlier
          rw [List.map_singleton, List.mem_singleton] at last
          exact isNew (List.any_eq_true.mpr ⟨timeout, member, decide_eq_true (same.trans last)⟩)

end StateHead

namespace Timeout

/-- The timers of which no later one has the same event. -/
def lasting : List Timeout → List Timeout
  | [] => []
  | timeout :: later =>
      if timeout.event ∈ later.map Timeout.event then lasting later
      else timeout :: lasting later

variable {timeouts : List Timeout}

theorem lasting_sublist (timeouts : List Timeout) :
    (lasting timeouts).Sublist timeouts := by
  induction timeouts with
  | nil => exact .slnil
  | cons timeout later ih =>
      unfold lasting
      split
      · exact ih.cons timeout
      · exact ih.cons_cons timeout

/-- Each event is that of one that lasts. -/
theorem exists_lasting
    {event : String}
    (member : event ∈ timeouts.map Timeout.event) :
    ∃ timeout ∈ lasting timeouts, timeout.event = event := by
  induction timeouts with
  | nil => cases member
  | cons timeout later ih =>
      unfold lasting
      split
      · rename_i isLater
        rcases List.mem_cons.mp member with rfl | further
        · exact ih isLater
        · exact ih further
      · rcases List.mem_cons.mp member with rfl | further
        · exact ⟨timeout, List.mem_cons_self, rfl⟩
        · obtain ⟨found, isFound, same⟩ := ih further
          exact ⟨found, List.mem_cons_of_mem _ isFound, same⟩

theorem lasting_nodup (timeouts : List Timeout) :
    ((lasting timeouts).map Timeout.event).Nodup := by
  induction timeouts with
  | nil => exact .nil
  | cons timeout later ih =>
      unfold lasting
      split
      · exact ih
      · rename_i last
        refine List.nodup_cons.mpr ⟨fun member => last ?_, ih⟩
        exact ((lasting_sublist later).map _).subset member

end Timeout

namespace Registry

/-- Is this a timer that ends with the state? -/
def timesFor {ι : Type} (registry : Registry ι) (state : StateId) (origin : Origin) : Bool :=
  match registry.actor? origin.id with
  | some actor =>
      actor.serial = origin.serial && actor.owner = some state && actor.process.kind = .timer
  | none => false

theorem timesFor_iff
    {ι : Type} {registry : Registry ι} {state : StateId} {origin : Origin} :
    registry.timesFor state origin = true ↔
      ∃ actor, registry.actor? origin.id = some actor ∧ actor.serial = origin.serial ∧
        actor.owner = some state ∧ actor.process.kind = .timer := by
  unfold timesFor
  cases registry.actor? origin.id with
  | none => simp
  | some actor => simp [and_assoc]

theorem accepts_of_timesFor
    {ι : Type} {registry : Registry ι} {state : StateId} {origin : Origin}
    (times : registry.timesFor state origin = true) :
    registry.accepts origin = true := by
  obtain ⟨actor, found, serial, _⟩ := timesFor_iff.mp times
  exact accepts_iff.mpr ⟨actor, found, serial⟩

end Registry

namespace Machine

variable {machine : Machine ActorLogic} {registry before after : Registry Interpreter}

/-- The timers that end with states are those for the delays of the states. -/
def TimesDelays (machine : Machine ActorLogic) (registry : Registry Interpreter) : Prop :=
  ∀ entry ∈ registry.actors, entry.2.process.kind = .timer → ∀ state,
    entry.2.owner = some state → entry.1 ∈ (machine.conduct state).timeouts.map Timeout.event

theorem timesDelays_dismissed
    (times : machine.TimesDelays registry) (status : ActorStatus) (id : String) :
    machine.TimesDelays (registry.dismissed status id) := by
  intro entry member
  rw [Registry.actors_dismissed] at member
  exact times entry (Table.mem_erase.mp member).1

theorem timesDelays_staffed
    (times : machine.TimesDelays registry)
    (id : String) (owner : Option StateId) (depth : Nat) (process : Process Interpreter)
    (own : process.kind = .timer → ∀ state, owner = some state →
      id ∈ (machine.conduct state).timeouts.map Timeout.event) :
    machine.TimesDelays (registry.staffed id owner depth process) := by
  intro entry member
  rcases Table.mem_of_mem_insert member with rfl | earlier
  · exact own
  · exact timesDelays_dismissed times .stopped id entry earlier

theorem Shift.timesDelays
    (shift : machine.Shift before after)
    (balanced : before.Balanced)
    (times : machine.TimesDelays before) :
    machine.TimesDelays after := by
  cases shift with
  | dismiss id ended => exact timesDelays_dismissed times _ id
  | @tend id actor process found kind =>
      intro entry member
      obtain ⟨⟨other, earlier⟩, isMember, rfl⟩ := List.mem_map.mp member
      dsimp only
      split
      · -- What the actor goes on with is of the same kind.
        rename_i same
        have isActor : (other, earlier) = (id, actor) :=
          List.inj_on_of_nodup_map balanced.distinct isMember (Table.mem_of_get? found) same
        cases isActor
        rw [kind]
        exact times _ isMember
      · exact times _ isMember
  | invoke depth member noTimer =>
      exact timesDelays_staffed times _ _ depth _ fun isTimer => absurd isTimer noTimer
  | delay depth member =>
      refine timesDelays_staffed times _ _ depth _ fun _ state same => ?_
      obtain rfl := Option.some.inj same
      exact List.mem_map_of_mem member
  | named owner depth process isAction given free =>
      refine timesDelays_staffed times _ owner depth process fun isTimer state same => ?_
      rw [free isTimer] at same
      cases same
  | @nameless _ stem owner depth process isAction nameless free =>
      have counted : machine.TimesDelays (before.freshId stem).2 := times
      refine timesDelays_staffed counted _ owner depth process fun isTimer state same => ?_
      rw [free isTimer] at same
      cases same

theorem Staffed.timesDelays
    (staffed : machine.Staffed registry) :
    machine.TimesDelays registry := by
  induction staffed with
  | refl => exact fun _ member => by cases member
  | tail earlier last ih => exact last.timesDelays (Staffed.balanced earlier) ih

end Machine

namespace Supervisor

variable {supervisor : Supervisor Interpreter} {state : StateId} {first : Nat}
variable {timeouts : List Timeout}

/-- The timer keeps the delay: it ends with the state, and one alarm is set for it, which
delivers the event after this delay. -/
def KeepsDelay (supervisor : Supervisor Interpreter) (state : StateId) (timeout : Timeout)
    (origin : Origin) : Prop :=
  supervisor.registry.timesFor state origin = true ∧
    Emission.alarms origin supervisor.outbox =
      [(timeout.delay, .timerFired origin (.event (Event.named timeout.event)))]

/-- The timers that end with the state keep these delays, each one of them, and have been
started since. -/
structure KeepsDelays (supervisor : Supervisor Interpreter) (state : StateId) (first : Nat)
    (timeouts : List Timeout) : Prop where
  known : ∀ origin, supervisor.registry.timesFor state origin = true →
    origin.id ∈ timeouts.map Timeout.event
  kept : ∀ timeout ∈ timeouts, ∃ serial, first ≤ serial ∧
    supervisor.KeepsDelay state timeout ⟨timeout.event, serial⟩

theorem KeepsDelays.of_times
    (keeps : supervisor.KeepsDelays state first timeouts)
    {origin : Origin}
    (times : supervisor.registry.timesFor state origin = true) :
    ∃ timeout ∈ timeouts, origin.id = timeout.event ∧ first ≤ origin.serial ∧
      supervisor.KeepsDelay state timeout origin := by
  obtain ⟨timeout, member, same⟩ := List.mem_map.mp (keeps.known origin times)
  obtain ⟨serial, issued, kept⟩ := keeps.kept timeout member
  obtain rfl := Registry.eq_of_accepts (Registry.accepts_of_timesFor kept.1)
    (Registry.accepts_of_timesFor times) same
  exact ⟨timeout, member, rfl, issued, kept⟩

end Supervisor

namespace Engine

variable (engine : Engine) (event : Event)

/-- Starting timers one after another: each that has no later one with its event is kept, and
nothing happens to actors with other ids. -/
theorem foldl_delay_keeps
    (keepsTime : engine.facilities.keepsTime = true)
    (state : StateId) (depth : Nat) (timeouts : List Timeout) {bench : Workbench}
    (balanced : bench.supervisor.registry.Balanced)
    (dated : bench.supervisor.Dated) :
    let after := timeouts.foldl (fun bench timeout =>
      engine.spawn
        { id := timeout.event
          owner := some state
          depth
          job := .timer timeout.delay (.event (Event.named timeout.event)) } bench) bench
    (∀ timeout ∈ Timeout.lasting timeouts, ∃ serial,
      bench.supervisor.registry.nextSerial ≤ serial ∧
        after.supervisor.KeepsDelay state timeout ⟨timeout.event, serial⟩) ∧
    ∀ origin, origin.id ∉ timeouts.map Timeout.event →
      after.supervisor.registry.actor? origin.id = bench.supervisor.registry.actor? origin.id ∧
        Emission.alarms origin after.supervisor.outbox =
          Emission.alarms origin bench.supervisor.outbox := by
  induction timeouts generalizing bench with
  | nil =>
      intro after
      exact ⟨fun _ member => (List.not_mem_nil member).elim, fun _ _ => ⟨rfl, rfl⟩⟩
  | cons timeout later ih =>
      intro after
      let order : SpawnOrder :=
        { id := timeout.event
          owner := some state
          depth
          job := .timer timeout.delay (.event (Event.named timeout.event)) }
      let started := engine.spawn order bench
      have chores := (toils_spawn engine order bench).chores.works
      have proceeds := Supervisor.Works.proceeds chores
      obtain ⟨keeps, others⟩ := ih (proceeds.balanced balanced)
        (Supervisor.Works.dated chores balanced dated)
      obtain ⟨own, spared⟩ := Supervisor.alarms_spawn_timer engine.nursery keepsTime
        dated balanced timeout.event (some state) depth timeout.delay
          (.event (Event.named timeout.event))
      have bears : ∀ id, started.supervisor.registry.actor? id = _ :=
        Supervisor.actor?_spawn bench.supervisor order
      constructor
      · intro kept member
        unfold Timeout.lasting at member
        split at member
        · obtain ⟨serial, issued, keptThen⟩ := keeps kept member
          exact ⟨serial, proceeds.ages.issued.trans issued, keptThen⟩
        · rename_i last
          rcases List.mem_cons.mp member with rfl | further
          · obtain ⟨sameActor, sameAlarms⟩ := others
              ⟨kept.event, bench.supervisor.registry.nextSerial⟩ last
            have isTimer : (bench.supervisor.launched engine.facilities engine.nursery
                order).1.process.kind = .timer :=
              (Supervisor.launch_kind _ _ _ _ _ _).mpr ⟨_, _, rfl⟩
            exact ⟨_, le_refl _, Registry.timesFor_iff.mpr
              ⟨_, sameActor.trans ((bears _).trans (if_pos rfl)), rfl, rfl, isTimer⟩,
              sameAlarms.trans own⟩
          · obtain ⟨serial, issued, keptThen⟩ := keeps kept further
            exact ⟨serial, proceeds.ages.issued.trans issued, keptThen⟩
      · intro origin unknown
        obtain ⟨different, further⟩ := not_or.mp (mt List.mem_cons.mpr unknown)
        obtain ⟨sameActor, sameAlarms⟩ := others origin further
        refine ⟨sameActor.trans ((bears origin.id).trans (if_neg different)),
          sameAlarms.trans (spared origin different)⟩

theorem enter_keepsDelays
    (keepsTime : engine.facilities.keepsTime = true)
    (state : StateId) (announced : List StateId) {bench : Workbench}
    (staffed : engine.machine.Staffed bench.supervisor.registry)
    (dated : bench.supervisor.Dated) :
    Ends (engine.enter event state announced) bench
      (fun _ after => after.supervisor.KeepsDelays state bench.supervisor.registry.nextSerial
        (Timeout.lasting (engine.machine.conduct state).timeouts))
      (fun _ _ => True) := by
  have kept : Ends (engine.enter event state announced) bench
      (fun _ after => ∀ timeout ∈ Timeout.lasting (engine.machine.conduct state).timeouts,
        ∃ serial, bench.supervisor.registry.nextSerial ≤ serial ∧
          after.supervisor.KeepsDelay state timeout ⟨timeout.event, serial⟩)
      (fun _ _ => True) := by
    simp only [enter, ends_bind, ends_modify]
    refine ((performAll_dutiful engine event state _).diligent _).mono ?_ (fun _ _ _ => trivial)
    intro _ acted works
    have worked : Supervisor.Works engine.facilities engine.nursery bench.supervisor
        (engine.invokeAll event state acted).supervisor :=
      (Relation.ReflTransGen.head (.reveal bench.supervisor _) works).trans
        (toils_invokeAll engine event state acted).chores.works
    have proceeds := Supervisor.Works.proceeds worked
    have balanced := proceeds.balanced staffed.balanced
    have delayed := (foldl_delay_keeps engine keepsTime state
      (engine.machine.chart.depth state) (engine.machine.conduct state).timeouts balanced
      (Supervisor.Works.dated worked staffed.balanced dated)).1
    have started : ∀ timeout ∈ Timeout.lasting (engine.machine.conduct state).timeouts,
        ∃ serial, bench.supervisor.registry.nextSerial ≤ serial ∧
          (engine.delayAll state (engine.invokeAll event state acted)).supervisor.KeepsDelay
            state timeout ⟨timeout.event, serial⟩ := by
      intro timeout member
      obtain ⟨serial, issued, keeps⟩ := delayed timeout member
      exact ⟨serial, proceeds.ages.issued.trans issued, keeps⟩
    split
    · exact started
    · exact started
  refine (kept.and (enter_abiding engine event state announced bench)).mono ?_
    (fun _ _ _ => trivial)
  rintro _ after ⟨keeps, shifts⟩
  refine ⟨fun origin times => ?_, keeps⟩
  obtain ⟨actor, found, _, owned, isTimer⟩ := Registry.timesFor_iff.mp times
  have named := (staffed.shifts shifts).timesDelays _ (Table.mem_of_get? found) isTimer state owned
  obtain ⟨timeout, lasts, same⟩ := Timeout.exists_lasting named
  exact List.mem_map.mpr ⟨timeout, lasts, same⟩

end Engine

section Telling

variable {head : StateHead L} {id : String} {supervisor : Supervisor Interpreter}
variable {state : StateId} {first : Nat}

theorem StateHead.delays_last_iff
    (head : StateHead L) (id : String) :
    (∀ delay ∈ head.delays, delay ∈ (Timeout.lasting (head.timeouts id)).map Timeout.delay) ↔
      head.TellsDelays := by
  obtain ⟨sound, complete, distinct⟩ := head.timeouts_spec id
  have isLasting := Timeout.lasting_sublist (head.timeouts id)
  constructor
  · intro last delay isDelay other isOther alike
    obtain ⟨timeout, lasts, rfl⟩ := List.mem_map.mp (last delay isDelay)
    obtain ⟨rival, rivalLasts, rfl⟩ := List.mem_map.mp (last other isOther)
    have sameEvent : timeout.event = rival.event := by
      rw [(sound timeout (isLasting.subset lasts)).2, (sound rival (isLasting.subset rivalLasts)).2]
      exact Event.afterType_inj.mpr alike
    rw [List.inj_on_of_nodup_map (Timeout.lasting_nodup _) lasts rivalLasts sameEvent]
  · intro tells delay isDelay
    obtain ⟨timeout, member, rfl⟩ := complete delay isDelay
    obtain ⟨found, lasts, same⟩ := Timeout.exists_lasting (List.mem_map_of_mem member)
    refine List.mem_map.mpr ⟨found, lasts, tells _ (sound found (isLasting.subset lasts)).1 _
      isDelay ?_⟩
    rw [(sound found (isLasting.subset lasts)).2, (sound timeout member).2] at same
    exact Event.afterType_inj.mp same

theorem StateHead.eq_of_delay
    {timeout other : Timeout}
    (lasts : timeout ∈ Timeout.lasting (head.timeouts id))
    (otherLasts : other ∈ Timeout.lasting (head.timeouts id))
    (same : timeout.delay = other.delay) :
    timeout = other := by
  have isLasting := Timeout.lasting_sublist (head.timeouts id)
  exact List.inj_on_of_nodup_map (head.timeouts_spec id).2.2 (isLasting.subset lasts)
    (isLasting.subset otherLasts) same

theorem Supervisor.KeepsDelays.unique_iff
    (keeps : supervisor.KeepsDelays state first (Timeout.lasting (head.timeouts id))) :
    (∀ delay ∈ head.delays, ∃! origin,
      supervisor.KeepsDelay state ⟨delay, Event.afterType delay id⟩ origin) ↔
        head.TellsDelays := by
  have isLasting := Timeout.lasting_sublist (head.timeouts id)
  -- A timer that keeps the delay is the one for the delay that lasts.
  have found : ∀ {delay : Duration} {origin : Origin},
      supervisor.KeepsDelay state ⟨delay, Event.afterType delay id⟩ origin →
        ∃ timeout ∈ Timeout.lasting (head.timeouts id), timeout.delay = delay ∧
          origin.id = timeout.event := by
    rintro delay origin ⟨times, alarms⟩
    obtain ⟨timeout, lasts, named, _, _, alarmsToo⟩ := keeps.of_times times
    have same := List.singleton_inj.mp (alarmsToo.symm.trans alarms)
    exact ⟨timeout, lasts, congrArg Prod.fst same, named⟩
  rw [← StateHead.delays_last_iff head id]
  refine forall₂_congr fun delay isDelay => ⟨?_, fun member => ?_⟩
  · rintro ⟨origin, kept, _⟩
    obtain ⟨timeout, lasts, rfl, _⟩ := found kept
    exact List.mem_map_of_mem lasts
  · obtain ⟨timeout, lasts, rfl⟩ := List.mem_map.mp member
    obtain ⟨serial, _, kept⟩ := keeps.kept timeout lasts
    have named := ((head.timeouts_spec id).1 timeout (isLasting.subset lasts)).2
    have own : (⟨timeout.delay, Event.afterType timeout.delay id⟩ : Timeout) = timeout := by
      rw [← named]
    rw [own]
    refine ⟨_, kept, fun origin keptToo => ?_⟩
    rw [← own] at keptToo
    obtain ⟨other, otherLasts, same, bears⟩ := found keptToo
    obtain rfl := StateHead.eq_of_delay otherLasts lasts same
    exact Registry.eq_of_accepts (Registry.accepts_of_timesFor keptToo.1)
      (Registry.accepts_of_timesFor kept.1) bears

end Telling

namespace World

variable {world : World} {supervisor : Supervisor Interpreter} {state : StateId}
variable {first : Nat}

/-- Whoever has a timer set on the clock and is an actor of the interpreter itself has a serial
number below this one. -/
def SetBelow (world : World) (serial : Nat) : Prop :=
  ∀ timer ∈ world.clock.pending, ∀ holder,
    timer.alarm.payload.isHeldBy [] holder = true → holder.serial < serial

/-- The world once all that has come out so far has been attended to. -/
def attending (world : World) (supervisor : Supervisor Interpreter) : World :=
  supervisor.outbox.foldl attend world

/-- When the timers that end with the state are due, once all that has come out so far has been
attended to. -/
def dues (world : World) (supervisor : Supervisor Interpreter) (state : StateId) :
    List Duration :=
  ((world.attending supervisor).clock.pending.filter fun timer =>
    timer.alarm.payload.path = [] &&
      timer.alarm.payload.holder.any (supervisor.registry.timesFor state)).map
    PendingTimer.deadline

/-- The time after a delay that begins now. -/
def dueAfter (world : World) (delay : Duration) : Duration :=
  ⟨world.clock.now.nanos + delay.nanos⟩

theorem alarmsOf_of_kept
    (simulated : world.facilities.simulated = true)
    (below : world.SetBelow first)
    {timeout : Timeout} {origin : Origin}
    (young : first ≤ origin.serial)
    (kept : supervisor.KeepsDelay state timeout origin) :
    (world.attending supervisor).alarmsOf origin =
      [(world.dueAfter timeout.delay,
        .timerFired origin (.event (Event.named timeout.event)))] := by
  have none : world.alarmsOf origin = [] := by
    unfold alarmsOf
    rw [List.map_eq_nil_iff, List.filter_eq_nil_iff]
    exact fun timer member isHeld => absurd (below timer member origin isHeld) (not_lt.mpr young)
  have attended := attendAll_alarms simulated none supervisor.outbox
  rw [kept.2] at attended
  exact List.perm_singleton.mp attended

variable {L : Type} {head : StateHead L} {id : String}

theorem dueAfter_inj
    {delay other : Duration} :
    world.dueAfter delay = world.dueAfter other ↔ delay = other := by
  cases delay
  cases other
  simp [dueAfter]

theorem nodup_dueAfter
    (world : World) :
    ((Timeout.lasting (head.timeouts id)).map fun timeout => world.dueAfter timeout.delay).Nodup :=
  List.nodup_map_iff_inj_on ((Timeout.lasting_nodup _).of_map _) |>.mpr
    fun _ lasts _ otherLasts same => StateHead.eq_of_delay lasts otherLasts (dueAfter_inj.mp same)

theorem deadline_of_kept
    (simulated : world.facilities.simulated = true)
    (below : world.SetBelow first)
    {timeout : Timeout} {origin : Origin}
    (young : first ≤ origin.serial)
    (kept : supervisor.KeepsDelay state timeout origin)
    {timer : PendingTimer Posting}
    (member : timer ∈ (world.attending supervisor).clock.pending)
    (isHeld : timer.alarm.payload.isHeldBy [] origin = true) :
    timer.deadline = world.dueAfter timeout.delay := by
  have among : (timer.deadline, timer.alarm.payload.envelope) ∈
      (world.attending supervisor).alarmsOf origin :=
    List.mem_map.mpr ⟨timer, List.mem_filter.mpr ⟨member, isHeld⟩, rfl⟩
  rw [alarmsOf_of_kept simulated below young kept, List.mem_singleton] at among
  exact congrArg Prod.fst among

theorem dues_perm
    (simulated : world.facilities.simulated = true)
    (below : world.SetBelow first)
    (keeps : supervisor.KeepsDelays state first (Timeout.lasting (head.timeouts id))) :
    (world.dues supervisor state).Perm
      ((Timeout.lasting (head.timeouts id)).map fun timeout => world.dueAfter timeout.delay) := by
  let isOwn (timer : PendingTimer Posting) : Bool :=
    timer.alarm.payload.path = [] &&
      timer.alarm.payload.holder.any (supervisor.registry.timesFor state)
  have own_iff : ∀ {timer : PendingTimer Posting}, isOwn timer = true ↔
      ∃ origin, timer.alarm.payload.isHeldBy [] origin = true ∧
        supervisor.registry.timesFor state origin = true := by
    intro timer
    simp only [isOwn, Posting.isHeldBy, Bool.and_eq_true, decide_eq_true_eq, Option.any_eq_true]
    constructor
    · rintro ⟨atTop, origin, holder, times⟩
      exact ⟨origin, ⟨atTop, holder⟩, times⟩
    · rintro ⟨origin, ⟨atTop, holder⟩, times⟩
      exact ⟨atTop, origin, holder, times⟩
  refine List.perm_iff_count.mpr fun deadline => ?_
  by_cases isDue : deadline ∈ (Timeout.lasting (head.timeouts id)).map fun timeout =>
      world.dueAfter timeout.delay
  · rw [List.count_eq_one_of_mem (nodup_dueAfter world) isDue]
    obtain ⟨timeout, lasts, rfl⟩ := List.mem_map.mp isDue
    obtain ⟨serial, young, kept⟩ := keeps.kept timeout lasts
    have single := congrArg List.length (alarmsOf_of_kept simulated below young kept)
    unfold alarmsOf at single
    rw [List.length_map] at single
    refine Eq.trans ?_ single
    unfold dues
    rw [List.count_eq_length_filter, List.filter_map, List.length_map, List.filter_filter]
    refine congrArg List.length (List.filter_congr fun timer isPending => Bool.eq_iff_iff.mpr ?_)
    refine Bool.and_eq_true_iff.trans ⟨?_, fun isHeld => ⟨?_, own_iff.mpr ⟨_, isHeld, kept.1⟩⟩⟩
    · -- What is due at this time is held by the timer that keeps the delay.
      rintro ⟨same, own⟩
      obtain ⟨origin, isHeld, times⟩ := own_iff.mp own
      obtain ⟨other, otherLasts, named, otherYoung, otherKept⟩ := keeps.of_times times
      have due := deadline_of_kept simulated below otherYoung otherKept isPending isHeld
      obtain rfl := StateHead.eq_of_delay otherLasts lasts
        (dueAfter_inj.mp (due.symm.trans (beq_iff_eq.mp same)))
      obtain rfl := Registry.eq_of_accepts (Registry.accepts_of_timesFor otherKept.1)
        (Registry.accepts_of_timesFor kept.1) named
      exact isHeld
    · exact beq_iff_eq.mpr (deadline_of_kept simulated below young kept isPending isHeld)
  · rw [List.count_eq_zero_of_not_mem isDue]
    refine List.count_eq_zero_of_not_mem fun member => isDue ?_
    obtain ⟨timer, isTimer, rfl⟩ := List.mem_map.mp member
    obtain ⟨isPending, own⟩ := List.mem_filter.mp isTimer
    obtain ⟨origin, isHeld, times⟩ := own_iff.mp own
    obtain ⟨timeout, lasts, _, young, kept⟩ := keeps.of_times times
    rw [deadline_of_kept simulated below young kept isPending isHeld]
    exact List.mem_map_of_mem lasts

/-- One timer that ends with the state is due after each delay exactly if the delays are told
apart. -/
theorem dues_count_iff
    (simulated : world.facilities.simulated = true)
    (below : world.SetBelow first)
    (keeps : supervisor.KeepsDelays state first (Timeout.lasting (head.timeouts id))) :
    (∀ delay ∈ head.delays,
      (world.dues supervisor state).count (world.dueAfter delay) = 1) ↔ head.TellsDelays := by
  rw [← StateHead.delays_last_iff head id]
  refine forall₂_congr fun delay _ => ?_
  rw [(dues_perm simulated below keeps).count_eq]
  constructor
  · intro once
    have member := List.count_pos_iff.mp (once ▸ Nat.one_pos)
    obtain ⟨timeout, lasts, same⟩ := List.mem_map.mp member
    exact List.mem_map.mpr ⟨timeout, lasts, dueAfter_inj.mp same⟩
  · intro member
    obtain ⟨timeout, lasts, rfl⟩ := List.mem_map.mp member
    exact List.count_eq_one_of_mem (nodup_dueAfter world) (List.mem_map_of_mem lasts)

end World

namespace World

section Setting

variable {machine : Machine ActorLogic} {start : Interpreter} {world : World}

theorem Tended.setBelow
    (tended : world.Tended) :
    world.SetBelow world.interpreter.supervisor.registry.nextSerial := by
  intro timer member holder isHeld
  have awaits : world.Awaits ⟨[], holder⟩ := .inl ⟨timer, member, isHeld⟩
  obtain ⟨actor, found, serial, _⟩ := tended.holders _ awaits
  have accepted := Registry.accepts_iff.mpr ⟨actor, found, serial⟩
  exact tended.reared.lived.balanced.serial_lt (Registry.serial_mem_of_accepts accepted)

end Setting

end World

section Trying

variable {machine : Machine L} {trigger : Trigger} {event : Event} {state : StateId}
variable {declared : List (Descriptor × TransitionSpec L)}

/-- The candidates of a state are made of what is declared, in turn. -/
theorem Machine.choices_candidates
    (groups : machine.chart.Groups state declared (machine.conduct state).transitions) :
    (machine.choices trigger event state).map Choice.candidate =
      (trigger.inTurn event declared).map fun turn => machine.chart.candidate state turn.1.2 := by
  have embodied : List.Forall₂ (machine.Embodies state) (machine.choices trigger event state)
      (trigger.inTurn event declared) := choices_embody groups
  generalize machine.choices trigger event state = choices at embodied ⊢
  generalize trigger.inTurn event declared = turns at embodied ⊢
  induction embodied with
  | nil => rfl
  | cons embodies _ ih => rw [List.map_cons, List.map_cons, embodies.candidate, ih]

variable {head : StateHead L} {id : String}

theorem Trigger.inTurn_specs
    (trigger : Trigger) (event : Event) (declared : List (Descriptor × TransitionSpec L)) :
    (trigger.inTurn event declared).map (fun turn => turn.1.2) =
      (trigger.ranks event).flatMap fun rank =>
        (declared.filter fun item =>
          trigger.admits event item.1 && item.1.rank = rank).map Prod.snd := by
  unfold inTurn
  rw [List.map_flatMap]
  congr 1
  funext rank
  refine (List.map_map (g := Prod.snd) (f := Prod.fst)).symm.trans ?_
  rw [List.zipIdx_map_fst]

theorem StateHead.declaredBy_ne_after
    {invoke : InvokeSpec L} {position : Nat} {item : Descriptor × TransitionSpec L}
    (member : item ∈ declaredBy id invoke position) (delay : Duration) :
    ∃ type, item.1 = .exact type ∧ type ≠ Event.afterType delay id := by
  have other : ∀ {name : String}, name.toList.head? ≠ some 'a' →
      name ≠ Event.afterType delay id := by
    rintro _ different rfl
    exact different (by simp [Event.afterType])
  unfold declaredBy at member
  rcases List.mem_append.mp member with done | failed
  · obtain ⟨_, _, rfl⟩ := List.mem_map.mp done
    exact ⟨_, rfl, other (by simp [Event.doneActor])⟩
  · obtain ⟨_, _, rfl⟩ := List.mem_map.mp failed
    exact ⟨_, rfl, other (by simp [Event.errorActor])⟩

/-- Among what is declared for just one event after a delay is what is declared after delays
of as many whole milliseconds. -/
theorem StateHead.declared_exact
    (head : StateHead L) (id : String) (delay : Duration) :
    ((head.declared id).filter fun item => item.1 = .exact (Event.afterType delay id)).map
        Prod.snd =
      ((head.cued id).filter fun item => item.1 = .exact (Event.afterType delay id)).map Prod.snd ++
        (head.after.filter fun item => item.1.millis = delay.millis).map Prod.snd := by
  have others : (head.invoked id).filter (fun item =>
      item.1 = .exact (Event.afterType delay id)) = [] := by
    rw [List.filter_eq_nil_iff]
    intro item member same
    obtain ⟨_, _, own⟩ := List.mem_flatMap.mp member
    obtain ⟨type, named, different⟩ := declaredBy_ne_after own delay
    exact different (Descriptor.exact.inj (named.symm.trans (of_decide_eq_true same)))
  rw [declared_eq, List.filter_append, List.filter_append, others, List.append_nil,
    List.map_append, delayed, List.filter_map, List.map_map]
  have same : ∀ item ∈ head.after,
      decide (Descriptor.exact (Event.afterType item.1 id) = .exact (Event.afterType delay id)) =
        decide (item.1.millis = delay.millis) := by
    intro item _
    rw [decide_eq_decide, Descriptor.exact.injEq, Event.afterType_inj]
  exact congrArg (_ ++ ·) (congrArg (List.map Prod.snd) (List.filter_congr same))

/-- What is declared for more than one event is declared on cues. -/
theorem StateHead.declared_inexact
    (head : StateHead L) (id : String) (event : Event)
    {rank : Descriptor.Rank} (inexact : rank ≠ .exact) :
    ((head.declared id).filter fun item =>
        Trigger.event.admits event item.1 && item.1.rank = rank) =
      ((head.cued id).filter fun item => item.1.rank ≠ .exact).filter fun item =>
        Trigger.event.admits event item.1 && item.1.rank = rank := by
  have unnamed : ∀ items : List (Descriptor × TransitionSpec L),
      (∀ item ∈ items, ∃ type, item.1 = .exact type) →
        items.filter (fun item =>
          Trigger.event.admits event item.1 && item.1.rank = rank) = [] := by
    intro items named
    rw [List.filter_eq_nil_iff]
    intro item member concerned
    obtain ⟨type, same⟩ := named item member
    rw [same] at concerned
    exact inexact (of_decide_eq_true (Bool.and_eq_true_iff.mp concerned).2).symm
  have delayed := unnamed (head.delayed id) fun item member => by
    obtain ⟨_, _, rfl⟩ := List.mem_map.mp member
    exact ⟨_, rfl⟩
  have others := unnamed (head.invoked id) fun item member => by
    obtain ⟨_, _, own⟩ := List.mem_flatMap.mp member
    obtain ⟨type, named, _⟩ := declaredBy_ne_after own ⟨0⟩
    exact ⟨type, named⟩
  rw [declared_eq, List.filter_append, List.filter_append, delayed, others, List.append_nil,
    List.append_nil, List.filter_filter]
  refine List.filter_congr fun item _ => ?_
  by_cases same : item.1.rank = rank
  · simp [same, inexact]
  · simp [same]

/-- For the event after a delay a state tries what is declared on a cue for just this event,
then what is declared after delays of as many whole milliseconds, then what is declared on
cues for a stem of the event or for all events. -/
theorem StateHead.inTurn_after
    (head : StateHead L) (id : String) (delay : Duration) :
    let event := Event.named (Event.afterType delay id)
    (Trigger.event.inTurn event (head.declared id)).map (fun turn => turn.1.2) =
      ((head.cued id).filter fun item => item.1 = .exact event.type).map Prod.snd ++
        (head.after.filter fun item => item.1.millis = delay.millis).map Prod.snd ++
          (Trigger.event.inTurn event
            ((head.cued id).filter fun item => item.1.rank ≠ .exact)).map fun turn => turn.1.2 := by
  intro event
  have exact_iff : ∀ items : List (Descriptor × TransitionSpec L),
      (items.filter fun item => Trigger.event.admits event item.1 && item.1.rank = .exact) =
        items.filter fun item => item.1 = .exact event.type := by
    intro items
    refine List.filter_congr fun item _ => ?_
    cases item.1 <;> simp [Trigger.admits, Descriptor.hears, Descriptor.rank]
  have nothing : (((head.cued id).filter fun item => item.1.rank ≠ .exact).filter fun item =>
      item.1 = .exact event.type) = [] := by
    rw [List.filter_eq_nil_iff]
    intro item member same
    have rank := of_decide_eq_true (List.mem_filter.mp member).2
    rw [of_decide_eq_true same] at rank
    exact rank rfl
  have exact : ((head.declared id).filter fun item => item.1 = .exact event.type).map Prod.snd =
      ((head.cued id).filter fun item => item.1 = .exact event.type).map Prod.snd ++
        (head.after.filter fun item => item.1.millis = delay.millis).map Prod.snd :=
    head.declared_exact id delay
  let further : List Descriptor.Rank :=
    (List.range (event.type.length + 1)).reverse.map .stem ++ [.wildcard]
  have ranks : Trigger.event.ranks event = .exact :: further := rfl
  have others : further.flatMap (fun rank => ((head.declared id).filter fun item =>
        Trigger.event.admits event item.1 && item.1.rank = rank).map Prod.snd) =
      further.flatMap fun rank => (((head.cued id).filter fun item =>
        item.1.rank ≠ .exact).filter fun item =>
          Trigger.event.admits event item.1 && item.1.rank = rank).map Prod.snd := by
    refine List.flatMap_congr fun rank member => ?_
    rw [head.declared_inexact id event]
    rintro rfl
    simp [further] at member
  rw [Trigger.inTurn_specs, Trigger.inTurn_specs, ranks, List.flatMap_cons, List.flatMap_cons,
    exact_iff, exact_iff, others, exact, nothing, List.map_nil, List.nil_append]

end Trying

namespace MachineSpec

variable {spec : MachineSpec ActorLogic} {machine : Machine ActorLogic}

theorem build_timeouts
    (built : spec.build = .ok machine)
    {state : StateId} {head : StateHead ActorLogic}
    (described : spec.root.heads[state]? = some head) :
    (machine.conduct state).timeouts = head.timeouts (machine.chart.id state) := by
  obtain ⟨_, _, conducted⟩ := build_conduct built described
  rw [conducted]
  rfl

open Interpreter in
/-- Each delay of a state has its own timer, and its event tries what is declared after this
delay, exactly if no two delays of the state have the same whole milliseconds. Whenever the
state is entered in a life, then exactly if this is so one timer that ends with the state keeps
each delay, an alarm for it having been commissioned once and not called off; and with a
simulated clock one timer that ends with the state is due after each delay from now on. A timer
that fires delivers its event if it still runs, and nothing otherwise; the state then tries what
is declared on a cue for just this event, what is declared after delays of as many milliseconds,
and what is declared for a stem of it or for all events. -/
theorem delays_kept_iff
    (built : spec.build = .ok machine)
    {state : StateId} {head : StateHead ActorLogic}
    (described : spec.root.heads[state]? = some head) :
    let id := machine.chart.id state
    (∀ (facilities : Facilities) (nursery : Nursery) (start committed working : Interpreter)
        (lived : List Dealing) (occasion : Occasion) (event : Event) (moment : Moment)
        (announced : List StateId),
      facilities.keepsTime = true → start.Fresh → start.machine = machine →
      start.supervisor.outbox = [] → Course facilities nursery start lived committed →
      Undertakes facilities nursery committed working occasion.step →
      (working.engine facilities nursery).Arrives occasion event working.bench state moment
        announced →
        Ends ((working.engine facilities nursery).enter moment.event state announced)
          moment.bench
          (fun _ after =>
            (∀ delay ∈ head.delays, ∃! origin, after.supervisor.KeepsDelay state
              ⟨delay, Event.afterType delay id⟩ origin) ↔ head.TellsDelays)
          (fun _ _ => True)) ∧
    (∀ (facilities : Facilities) (start committed working : Interpreter) (world : World)
        (occasion : Occasion) (event : Event) (moment : Moment) (announced : List StateId),
      facilities.simulated = true → Begins machine start →
      (World.around facilities start).Becomes world →
      let nursery := Nursery.ofGenerations facilities machine.generations
      Advances facilities nursery world.interpreter committed →
      Undertakes facilities nursery committed working occasion.step →
      (working.engine facilities nursery).Arrives occasion event working.bench state moment
        announced →
        Ends ((working.engine facilities nursery).enter moment.event state announced)
          moment.bench
          (fun _ after =>
            (∀ delay ∈ head.delays,
              (world.dues after.supervisor state).count (world.dueAfter delay) = 1) ↔
                head.TellsDelays)
          (fun _ _ => True)) ∧
    (∀ (facilities : Facilities) (nursery : Nursery) (interpreter : Interpreter)
        (timer : Origin) (event : Event),
      (dispatch facilities nursery (.timerFired timer (.event event))).run interpreter =
        if interpreter.supervisor.registry.accepts timer then
          (process facilities nursery event).run (interpreter.onSupervisor fun supervisor =>
            supervisor.dismiss nursery .done timer.id)
        else .ok () interpreter) ∧
    (∀ delay, let event := Event.named (Event.afterType delay id)
      (machine.choices .event event state).map Choice.candidate =
        (((head.cued id).filter fun item => item.1 = .exact event.type).map Prod.snd ++
          (head.after.filter fun item => item.1.millis = delay.millis).map Prod.snd ++
            (Trigger.event.inTurn event ((head.cued id).filter fun item =>
              item.1.rank ≠ .exact)).map fun turn => turn.1.2).map
                (machine.chart.candidate state)) ∧
    ((∀ delay ∈ head.delays, (head.after.filter fun item => item.1.millis = delay.millis) =
      head.after.filter fun item => item.1 = delay) ↔ head.TellsDelays) := by
  intro id
  have timeouts := build_timeouts built described
  -- Wherever the state is about to be entered, entering it has the timers kept that last.
  have keeps : ∀ {facilities : Facilities} {nursery : Nursery} {committed working : Interpreter}
      {occasion : Occasion} {event : Event} {moment : Moment} {announced : List StateId},
      facilities.keepsTime = true → committed.machine = machine →
      committed.supervisor.Manned machine →
      Undertakes facilities nursery committed working occasion.step →
      (working.engine facilities nursery).Arrives occasion event working.bench state moment
        announced →
        committed.supervisor.registry.nextSerial ≤
          moment.bench.supervisor.registry.nextSerial ∧
        Ends ((working.engine facilities nursery).enter moment.event state announced)
          moment.bench
          (fun _ after => after.supervisor.KeepsDelays state
            moment.bench.supervisor.registry.nextSerial (Timeout.lasting (head.timeouts id)))
          (fun _ _ => True) := by
    intro facilities nursery committed working occasion event moment announced keepsTime runs
      manned undertakes arrives
    obtain ⟨sameMachine, mannedThen, issued⟩ := undertakes.arrives runs manned arrives
    have engaged : (working.engine facilities nursery).machine = machine := sameMachine
    have entered := Engine.enter_keepsDelays (working.engine facilities nursery) moment.event
      keepsTime state announced (engaged.symm ▸ mannedThen.staffed) mannedThen.dated
    rw [engaged, timeouts] at entered
    exact ⟨issued, entered⟩
  refine ⟨?_, ?_, ?_, ?_, StateHead.afterAbout_iff⟩
  · rintro facilities nursery start committed working lived occasion event moment announced
      keepsTime fresh rfl quiet course undertakes arrives
    obtain ⟨_, entered⟩ := keeps keepsTime course.lasts.machine (course.manned fresh quiet)
      undertakes arrives
    exact entered.mono (fun _ _ kept => kept.unique_iff) (fun _ _ _ => trivial)
  · intro facilities start committed working world occasion event moment announced simulated
      begins becomes nursery advances undertakes arrives
    obtain ⟨sameFacilities, _, begun, _⟩ := becomes.lives facilities begins
    obtain ⟨_, further⟩ := advances.passes
    obtain ⟨_, lived⟩ := begun
    have course := lived.trans further
    have runs : committed.machine = machine := course.lasts.machine.trans begins.idle.1
    have manned : committed.supervisor.Manned machine :=
      begins.idle.1 ▸ course.manned begins.fresh begins.quiet
    have tended : world.Tended :=
      becomes.keeps World.Change.tended (World.tended_around facilities begins.fresh begins.quiet)
    have keepsTime : facilities.keepsTime = true := by simp [Facilities.keepsTime, simulated]
    obtain ⟨issued, entered⟩ := keeps keepsTime runs manned undertakes arrives
    have below : world.SetBelow moment.bench.supervisor.registry.nextSerial :=
      fun timer member holder isHeld => (tended.setBelow timer member holder isHeld).trans_le
        (further.lasts.ages.issued.trans issued)
    exact entered.mono
      (fun _ _ kept => World.dues_count_iff (sameFacilities ▸ simulated) below kept)
      (fun _ _ _ => trivial)
  · intro facilities nursery interpreter timer event
    have goesOn : Envelope.timerFired timer (.event event) ≠ .stop := by simp
    rw [dispatch_run interpreter goesOn]
    simp only [receive]
    split <;> rfl
  · intro delay event
    have groups := (build_declared built described).2
    rw [Machine.choices_candidates groups, ← head.inTurn_after id delay, List.map_map]
    rfl

/-- A state that is left after a while, for one of two others. -/
def lapse (after : List (Duration × TransitionSpec ActorLogic)) : MachineSpec ActorLogic :=
  { root := .mk { key := "m", initial := some "s" }
      [.mk { key := "s", after } [], .mk { key := "a" } [], .mk { key := "b" } []]
    context := some fun _ => .null }

open Interpreter in
/-- Of two delays with different whole milliseconds each has its timer. -/
theorem delays_kept_iff_lapse :
    let machine : Machine ActorLogic :=
      (lapse [(.ofMicros 1000, .toTarget "a"), (.ofMicros 2500, .toTarget "b")]).machine
        fun _ => .null
    let facilities : Facilities := ⟨false, true, 1000⟩
    let nursery := Nursery.ofGenerations facilities machine.generations
    let world := World.around facilities (create machine {})
    let working : Interpreter := { world.interpreter with status := .running }
    let engine := working.engine facilities nursery
    let entering := leftBy (engine.play (Event.init .null) (machine.enterScript 0) [])
      working.bench
    let entered := leftBy (engine.enter (Event.init .null) 1 []) entering
    (world.dues entered.supervisor 1).count (world.dueAfter (.ofMicros 1000)) = 1 ∧
      (world.dues entered.supervisor 1).count (world.dueAfter (.ofMicros 2500)) = 1 ∧
      (world.dues entered.supervisor 1).length = 2 := by
  intro machine facilities nursery world working engine entering entered
  have built : (lapse [(.ofMicros 1000, .toTarget "a"),
      (.ofMicros 2500, .toTarget "b")]).build = .ok machine :=
    build_of_faultless (by decide +kernel) rfl
  obtain ⟨head, described, declared⟩ : ∃ head, (lapse [(.ofMicros 1000, .toTarget "a"),
      (.ofMicros 2500, .toTarget "b")]).root.heads[1]? = some head ∧
        head.delays = [.ofMicros 1000, .ofMicros 2500] := ⟨_, rfl, rfl⟩
  have tells : head.TellsDelays := by
    unfold StateHead.TellsDelays
    rw [declared]
    decide
  have played : (engine.play (Event.init .null) (machine.enterScript 0) []).run working.bench =
      .ok [] entering := rfl
  have planned : engine.machine.chart.initialEntries? = some ([0] ++ 1 :: []) := by
    decide +kernel
  have arrives : engine.Arrives .start (Event.init .null) working.bench 1
      ⟨Event.init .null, entering⟩ [] := .start rfl planned played
  obtain ⟨_, runs, _⟩ := delays_kept_iff built described
  have kept := runs facilities (create machine {}) world.interpreter working world .start _ _ _
    rfl ⟨{}, .inl rfl⟩ .refl .refl (.first (fresh_create machine {}).lived rfl) arrives
  have went : (engine.enter (Event.init .null) 1 []).run entering = .ok [] entered := rfl
  rw [ends_iff_run] at kept
  have once := (kept.1 _ _ went).mpr tells
  rw [declared] at once
  obtain ⟨first, second, _⟩ := List.forall_mem_cons.mp once |>.imp_right List.forall_mem_cons.mp
  exact ⟨first, second, by decide +kernel⟩

open Interpreter in
/-- Two delays with the same whole milliseconds share one timer, that for the second one; what
is declared after the first one is tried when it fires. -/
theorem delays_merged_lapse :
    let machine : Machine ActorLogic :=
      (lapse [(.ofMicros 1000, .toTarget "a"), (.ofMicros 1500, .toTarget "b")]).machine
        fun _ => .null
    let facilities : Facilities := ⟨false, true, 1000⟩
    let nursery := Nursery.ofGenerations facilities machine.generations
    let world := World.around facilities (create machine {})
    let working : Interpreter := { world.interpreter with status := .running }
    let engine := working.engine facilities nursery
    let entering := leftBy (engine.play (Event.init .null) (machine.enterScript 0) [])
      working.bench
    let entered := leftBy (engine.enter (Event.init .null) 1 []) entering
    (lapse [(.ofMicros 1000, .toTarget "a"), (.ofMicros 1500, .toTarget "b")]).build = .ok machine ∧
      Undertakes facilities nursery world.interpreter working Occasion.start.step ∧
      engine.Arrives .start (Event.init .null) working.bench 1 ⟨Event.init .null, entering⟩ [] ∧
      (engine.enter (Event.init .null) 1 []).run entering = .ok [] entered ∧
      (world.dues entered.supervisor 1).count (world.dueAfter (.ofMicros 1000)) = 0 ∧
      world.dues entered.supervisor 1 = [world.dueAfter (.ofMicros 1500)] ∧
      (machine.choices .event (Event.named (Event.afterType (.ofMicros 1500) "m.s")) 1).map
        (fun choice => choice.candidate.targets) = [[2], [3]] ∧
      (world.run [.start, .advance (.ofMicros 1000), .flush]).interpreter.state.active = [0, 1] ∧
      (world.run [.start, .advance (.ofMicros 1500), .flush]).interpreter.state.active = [0, 2] := by
  intro machine facilities nursery world working engine entering entered
  have planned : engine.machine.chart.initialEntries? = some ([0] ++ 1 :: []) := by
    decide +kernel
  exact ⟨build_of_faultless (by decide +kernel) rfl, .first (fresh_create machine {}).lived rfl,
    .start rfl planned rfl, rfl, by decide +kernel, by decide +kernel, by decide +kernel,
    by decide +kernel, by decide +kernel⟩

end MachineSpec

end Statechart
