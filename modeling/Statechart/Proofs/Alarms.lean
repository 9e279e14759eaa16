import Statechart.Proofs.Changes
import Statechart.Proofs.Clocks
import Statechart.Proofs.RegistryBalance
import Statechart.Proofs.RemovedSenders
import Statechart.Proofs.SupervisorDeeds

/-!
# Alarms

A timer has an alarm set for it when it starts, and whoever is removed has its alarms called
off.  Nothing else that an interpreter does concerns the alarms that are set for an actor of
its own, so what is set for one can be read off what has come out since it was started.
-/

namespace Statechart

namespace Emission

/-- Of the actors of the interpreter itself it concerns this one, if it concerns any. -/
def isOnlyAbout (self : Option Origin) : Emission → Bool
  | .commission [] (some holder) _ => some holder = self
  | .revoke [] holder => some holder = self
  | _ => true

/-- The actor of the interpreter itself that it concerns, if it concerns one, has a serial
number below this one. -/
def isIssuedBelow (serial : Nat) : Emission → Bool
  | .commission [] (some holder) _ => holder.serial < serial
  | .revoke [] holder => holder.serial < serial
  | _ => true

/-- The alarms that are set for an actor of the interpreter itself after an emission, each
with what it delivers. -/
def alarmsAfter (origin : Origin) (alarms : List (Duration × Envelope)) :
    Emission → List (Duration × Envelope)
  | .commission [] (some holder) (.alarm delay envelope) =>
      if holder = origin then alarms ++ [(delay, envelope)] else alarms
  | .revoke [] holder => if holder = origin then [] else alarms
  | _ => alarms

/-- The alarms that are set for an actor by what has come out, one after another. -/
def alarms (origin : Origin) (emissions : List Emission) : List (Duration × Envelope) :=
  emissions.foldl (alarmsAfter origin) []

variable {emission : Emission} {self : Option Origin} {origin : Origin}
variable {emissions more : List Emission}

theorem alarmsAfter_of_isOnlyAbout
    (about : emission.isOnlyAbout self = true)
    (other : some origin ≠ self) (alarms : List (Duration × Envelope)) :
    emission.alarmsAfter origin alarms = alarms := by
  have different : ∀ {holder : Origin}, decide (some holder = self) = true → holder ≠ origin := by
    rintro _ isSelf rfl
    exact other (of_decide_eq_true isSelf)
  unfold alarmsAfter
  split
  · exact if_neg (different about)
  · exact if_neg (different about)
  · rfl

theorem alarmsAfter_of_isIssuedBelow
    {serial : Nat}
    (issued : emission.isIssuedBelow serial = true)
    (young : serial ≤ origin.serial) (alarms : List (Duration × Envelope)) :
    emission.alarmsAfter origin alarms = alarms := by
  have other : ∀ {holder : Origin}, decide (holder.serial < serial) = true → holder ≠ origin := by
    rintro _ old rfl
    exact absurd (of_decide_eq_true old) (not_lt.mpr young)
  unfold alarmsAfter
  split
  · exact if_neg (other issued)
  · exact if_neg (other issued)
  · rfl

theorem isIssuedBelow_of_isOnlyAbout
    {serial : Nat}
    (about : emission.isOnlyAbout self = true)
    (issued : ∀ origin, self = some origin → origin.serial < serial) :
    emission.isIssuedBelow serial = true := by
  have isSelf : ∀ {holder : Origin}, decide (some holder = self) = true →
      decide (holder.serial < serial) = true :=
    fun same => decide_eq_true (issued _ (of_decide_eq_true same).symm)
  unfold isIssuedBelow
  split
  · exact isSelf about
  · exact isSelf about
  · rfl

theorem isIssuedBelow_mono
    {serial later : Nat}
    (issued : emission.isIssuedBelow serial = true)
    (grows : serial ≤ later) :
    emission.isIssuedBelow later = true := by
  unfold isIssuedBelow at issued ⊢
  split
  · exact decide_eq_true ((of_decide_eq_true issued).trans_le grows)
  · exact decide_eq_true ((of_decide_eq_true issued).trans_le grows)
  · rfl

theorem foldl_alarmsAfter_same
    (same : ∀ emission ∈ emissions, ∀ alarms, emission.alarmsAfter origin alarms = alarms)
    (alarms : List (Duration × Envelope)) :
    emissions.foldl (alarmsAfter origin) alarms = alarms := by
  induction emissions with
  | nil => rfl
  | cons emission emissions ih =>
      obtain ⟨first, rest⟩ := List.forall_mem_cons.mp same
      rw [List.foldl_cons, first, ih rest]

theorem alarms_of_added
    (added : Added (isOnlyAbout self) emissions more)
    (other : some origin ≠ self) :
    alarms origin more = alarms origin emissions := by
  obtain ⟨news, rfl, about⟩ := added
  unfold alarms
  rw [List.foldl_append]
  exact foldl_alarmsAfter_same
    (fun emission member => alarmsAfter_of_isOnlyAbout (about emission member) other) _

end Emission

namespace Supervisor

open Emission

section Speaking

variable (supervisor : Supervisor Interpreter) (facilities : Facilities) (nursery : Nursery)
variable (self : Origin) (concerned : Option Origin)

/-- More has come out, none of which concerns another actor of the interpreter itself. -/
abbrev SpeaksOf (concerned : Option Origin) (before after : Supervisor Interpreter) : Prop :=
  Added (isOnlyAbout concerned) before.outbox after.outbox

theorem speaksOf_post
    (envelope : Envelope) :
    SpeaksOf concerned supervisor (supervisor.post envelope) := by
  unfold post
  dsimp only
  split
  · exact .refl _
  · exact .one _ rfl

theorem speaksOf_sendUp
    (event : Event) :
    SpeaksOf concerned supervisor (supervisor.sendUp event) := by
  unfold sendUp
  split
  · exact .refl _
  · exact .one _ rfl

theorem speaksOf_foldl
    {item : Type} {step : Supervisor Interpreter → item → Supervisor Interpreter}
    (speaks : ∀ (supervisor : Supervisor Interpreter) (next : item),
      SpeaksOf concerned supervisor (step supervisor next))
    (items : List item) :
    SpeaksOf concerned supervisor (items.foldl step supervisor) :=
  List.foldlRecOn (motive := SpeaksOf concerned supervisor) items step (.refl _)
    fun middle earlier next _ => earlier.trans (speaks middle next)

theorem speaksOf_attend
    (child : Interpreter) (task : Handling Unit) :
    SpeaksOf concerned supervisor (supervisor.attend self child task).2.2 := by
  have absorbed : ∀ emissions,
      SpeaksOf concerned supervisor (supervisor.absorb self emissions) := by
    refine speaksOf_foldl supervisor concerned fun supervisor emission => ?_
    cases emission with
    | activity path activity => exact .one _ rfl
    | upward envelope => exact speaksOf_post supervisor concerned envelope
    | commission path holder errand => exact .one _ rfl
    | revoke path holder => exact .one _ rfl
  unfold attend
  split <;> exact absorbed _

theorem speaksOf_reportEnd
    (child : Interpreter) (reported : Bool) :
    SpeaksOf concerned supervisor (supervisor.reportEnd self child reported).2 := by
  unfold reportEnd
  split
  · exact speaksOf_post supervisor concerned _
  · exact .refl _

theorem speaksOf_obeyAll
    (commands : List ActorCommand) :
    SpeaksOf concerned supervisor (supervisor.obeyAll self commands) := by
  refine speaksOf_foldl supervisor concerned (fun supervisor command => ?_) commands
  cases command with
  | send event => exact speaksOf_post supervisor concerned _
  | later delay event => exact .one _ rfl
  | complete output => exact speaksOf_post supervisor concerned _
  | fail message => exact speaksOf_post supervisor concerned _
  | note text => exact .one _ rfl

theorem speaksOf_tend
    (child : Interpreter) (reported : Bool) (task : Handling Unit)
    (blame : Failure → ActorError) :
    SpeaksOf concerned supervisor (supervisor.tend self child reported task blame).2 := by
  have attended := speaksOf_attend supervisor self concerned child task
  unfold tend
  split
  · rename_i grown attending tended
    rw [tended] at attended
    exact attended
  · rename_i grown attending tended
    rw [tended] at attended
    exact attended.trans (speaksOf_reportEnd attending self concerned grown reported)

theorem speaksOf_launchTask
    (process : Process Interpreter) (script : List (Option Duration × Envelope)) :
    SpeaksOf (some self) supervisor
      (launchTask facilities supervisor self process script).2 := by
  unfold launchTask
  split
  · exact .one _ (decide_eq_true rfl)
  · exact .refl _

theorem speaksOf_launchMachine
    (machine : Machine ActorLogic) (input : Json) :
    SpeaksOf concerned supervisor
      (launchMachine nursery supervisor self machine input).2 := by
  have attended := speaksOf_attend supervisor self concerned
    (Interpreter.child machine self input) nursery.start
  unfold launchMachine
  split
  · rename_i started
    rw [started] at attended
    exact attended
  · rename_i child attending started
    rw [started] at attended
    exact attended.trans (speaksOf_reportEnd attending self concerned child false)

theorem speaksOf_launch
    (input : Json) (job : Job) :
    SpeaksOf (some self) supervisor
      (launch facilities nursery supervisor self input job).2 := by
  cases job with
  | timer delay delivery =>
      simp only [launch]
      split
      · exact .one _ (decide_eq_true rfl)
      · exact .refl _
  | logic logic =>
      cases logic with
      | machine machine => exact speaksOf_launchMachine supervisor nursery self _ machine input
      | callback setup => exact speaksOf_obeyAll supervisor self _ _
      | custom logic => exact speaksOf_obeyAll supervisor self _ _
      | promise plan => exact speaksOf_launchTask supervisor facilities self _ _
      | stream items => exact speaksOf_launchTask supervisor facilities self _ _

theorem speaksOf_release
    (process : Process Interpreter) :
    SpeaksOf (some self) supervisor (release nursery supervisor self process) := by
  cases process with
  | machine child reported => exact speaksOf_attend supervisor self _ child nursery.stop
  | callback setup heard => exact speaksOf_obeyAll supervisor self _ _
  | custom logic input heard => exact speaksOf_obeyAll supervisor self _ _
  | promise => exact .one _ (decide_eq_true rfl)
  | stream => exact .one _ (decide_eq_true rfl)
  | timer => exact .one _ (decide_eq_true rfl)

theorem speaksOf_deliver
    (id : String) (event : Event) :
    SpeaksOf concerned supervisor (supervisor.deliver nursery id event).2 := by
  cases found : supervisor.registry.actor? id with
  | none =>
      unfold deliver
      rw [found]
      exact .refl _
  | some actor =>
      rcases actor.process.machine_or_not with ⟨child, reported, isMachine⟩ | noMachine
      · rw [deliver_machine found isMachine]
        exact speaksOf_tend supervisor _ concerned child reported _ _
      · rw [deliver_of_noMachine found noMachine]
        exact speaksOf_obeyAll supervisor _ concerned _

theorem speaksOf_wake
    (id : String) :
    SpeaksOf concerned supervisor (supervisor.wake nursery id).2 := by
  unfold wake
  split
  · exact speaksOf_tend supervisor _ concerned _ _ _ _
  · exact .refl _

theorem speaksOf_dismiss
    (status : ActorStatus) (id : String) :
    SpeaksOf (supervisor.registry.origin? id) supervisor
      (supervisor.dismiss nursery status id) := by
  unfold dismiss Registry.origin?
  cases supervisor.registry.actor? id with
  | none => exact .refl _
  | some actor =>
      exact speaksOf_release { supervisor with registry := supervisor.registry.remove id }
        nursery ⟨id, actor.serial⟩ actor.process

theorem nextSerial_dismiss
    (status : ActorStatus) (id : String) :
    (supervisor.dismiss nursery status id).registry.nextSerial =
      supervisor.registry.nextSerial := by
  rw [registry_dismiss supervisor status id]
  exact Registry.nextSerial_dismissed status id

/-- What comes out when an actor is started is about this actor, besides what comes of the
one that bore its id. -/
theorem speaksOf_spawn
    (order : SpawnOrder) :
    SpeaksOf (some ⟨order.id, supervisor.registry.nextSerial⟩)
      (supervisor.dismiss nursery .stopped order.id)
      (supervisor.spawn facilities nursery order) := by
  let vacated := supervisor.dismiss nursery .stopped order.id
  have serial : vacated.registry.nextSerial = supervisor.registry.nextSerial :=
    nextSerial_dismiss supervisor nursery .stopped order.id
  let self : Origin := ⟨order.id, vacated.registry.nextSerial⟩
  let readied : Supervisor Interpreter :=
    { vacated with registry := (vacated.registry.register order.id).2 }
  have launched : SpeaksOf (some self) vacated
      (readied.launch facilities nursery self order.input order.job).2 :=
    speaksOf_launch readied facilities nursery self order.input order.job
  rw [← serial]
  unfold spawn
  dsimp only
  split
  · exact launched.trans (speaksOf_post _ (some self) _)
  · exact launched

end Speaking

/-- All that has come out about actors of the interpreter itself is about such that have been
started. -/
def Dated (supervisor : Supervisor Interpreter) : Prop :=
  ∀ emission ∈ supervisor.outbox,
    emission.isIssuedBelow supervisor.registry.nextSerial = true

section Dating

variable {facilities : Facilities} {nursery : Nursery}
variable {before after supervisor : Supervisor Interpreter} {concerned : Option Origin}

theorem Dated.speaks
    (dated : before.Dated)
    (speaks : SpeaksOf concerned before after)
    (issued : ∀ origin, concerned = some origin → origin.serial < after.registry.nextSerial)
    (ages : before.registry.nextSerial ≤ after.registry.nextSerial) :
    after.Dated := by
  obtain ⟨news, same, about⟩ := speaks
  intro emission member
  rw [same] at member
  rcases List.mem_append.mp member with old | new
  · exact isIssuedBelow_mono (dated emission old) ages
  · exact isIssuedBelow_of_isOnlyAbout (about emission new) issued

theorem Dated.alarms_young
    (dated : supervisor.Dated)
    {origin : Origin}
    (young : supervisor.registry.nextSerial ≤ origin.serial) :
    alarms origin supervisor.outbox = [] :=
  foldl_alarmsAfter_same
    (fun emission member => alarmsAfter_of_isIssuedBelow (dated emission member) young) []

theorem Dated.dismiss
    (dated : supervisor.Dated)
    (balanced : supervisor.registry.Balanced)
    (status : ActorStatus) (id : String) :
    (supervisor.dismiss nursery status id).Dated := by
  have serial := nextSerial_dismiss supervisor nursery status id
  refine dated.speaks (speaksOf_dismiss supervisor nursery status id) ?_ serial.ge
  intro origin found
  rw [serial]
  obtain ⟨actor, bears, rfl⟩ := Option.map_eq_some_iff.mp found
  have runs : supervisor.registry.accepts ⟨id, actor.serial⟩ = true :=
    Registry.accepts_iff.mpr ⟨actor, bears, rfl⟩
  exact balanced.serial_lt (Registry.serial_mem_of_accepts runs)

theorem Deed.dated
    (deed : Deed facilities nursery before after)
    (balanced : before.registry.Balanced)
    (dated : before.Dated) :
    after.Dated := by
  have ages := deed.turns.1.ages.issued
  have said : SpeaksOf none before after → after.Dated :=
    fun speaks => dated.speaks speaks (fun _ nobody => by cases nobody) ages
  cases deed with
  | keep envelope => exact dated
  | post envelope => exact said (speaksOf_post before none envelope)
  | sendUp event => exact said (speaksOf_sendUp before none event)
  | reveal activity => exact said (.one _ rfl)
  | name stem => exact dated
  | dismiss id ended => exact dated.dismiss balanced _ id
  | spawn order =>
      have vacated : (before.dismiss nursery .stopped order.id).Dated :=
        dated.dismiss balanced .stopped order.id
      have serial := nextSerial_dismiss before nursery .stopped order.id
      have issued : before.registry.nextSerial <
          (before.spawn facilities nursery order).registry.nextSerial := by
        rw [(spawn_turns before facilities nursery order).registry]
        unfold Registry.staffed
        simp [Registry.register, Registry.enroll, Registry.nextSerial_dismissed]
      refine vacated.speaks (speaksOf_spawn before facilities nursery order) ?_
        (serial.trans_le ages)
      rintro origin ⟨⟩
      exact issued
  | deliver id event => exact said (speaksOf_deliver before nursery none id event)
  | wake id => exact said (speaksOf_wake before nursery none id)

theorem Works.dated
    (works : Works facilities nursery before after)
    (balanced : before.registry.Balanced)
    (dated : before.Dated) :
    after.Dated := by
  induction works with
  | refl => exact dated
  | tail earlier last ih =>
      exact last.dated ((Works.proceeds earlier).balanced balanced) ih

variable (nursery) in
theorem alarms_spawn_timer
    (keepsTime : facilities.keepsTime = true)
    (dated : before.Dated)
    (balanced : before.registry.Balanced)
    (id : String) (owner : Option StateId) (depth : Nat) (delay : Duration)
    (delivery : Delivery) :
    let self : Origin := ⟨id, before.registry.nextSerial⟩
    let after := before.spawn facilities nursery
      { id, owner, depth, job := .timer delay delivery }
    alarms self after.outbox = [(delay, .timerFired self delivery)] ∧
      ∀ origin, origin.id ≠ id → alarms origin after.outbox = alarms origin before.outbox := by
  intro self after
  have serial := nextSerial_dismiss before nursery .stopped id
  have outbox : after.outbox = (before.dismiss nursery .stopped id).outbox ++
      [.commission [] (some self) (.alarm delay (.timerFired self delivery))] := by
    simp only [after, self, spawn, launch, keepsTime, if_true, ← serial]
    rfl
  constructor
  · have none : alarms self (before.dismiss nursery .stopped id).outbox = [] :=
      (dated.dismiss balanced .stopped id).alarms_young serial.le
    unfold alarms at none ⊢
    rw [outbox, List.foldl_append, none]
    exact if_pos rfl
  · intro origin other
    have vacated : alarms origin (before.dismiss nursery .stopped id).outbox =
        alarms origin before.outbox := by
      refine alarms_of_added (speaksOf_dismiss before nursery .stopped id) fun same => other ?_
      exact (Registry.origin?_eq_some same.symm).1
    rw [← vacated, outbox]
    refine alarms_of_added (.one _ (decide_eq_true rfl)) fun same => other ?_
    exact congrArg Origin.id (Option.some.inj same)

end Dating

end Supervisor

theorem Clock.line_perm
    {α : Type} (timer : PendingTimer α) (timers : List (PendingTimer α)) :
    (line timer timers).Perm (timer :: timers) := by
  induction timers with
  | nil => exact .refl _
  | cons first rest ih =>
      unfold line
      split
      · exact .refl _
      · exact (ih.cons first).trans (.swap timer first rest)

namespace World

/-- What the clock will deliver for an actor of the interpreter itself, and when. -/
def alarmsOf (world : World) (origin : Origin) : List (Duration × Envelope) :=
  (world.clock.pending.filter fun timer => timer.alarm.payload.isHeldBy [] origin).map
    fun timer => (timer.deadline, timer.alarm.payload.envelope)

/-- When an alarm that is set now is due, and what it delivers. -/
def due (world : World) (alarm : Duration × Envelope) : Duration × Envelope :=
  (⟨world.clock.now.nanos + alarm.1.nanos⟩, alarm.2)

section Attending

variable {world : World} {origin : Origin}

theorem attend_now
    (world : World) (emission : Emission) :
    (world.attend emission).clock.now = world.clock.now := by
  cases emission with
  | activity path activity =>
      simp only [attend]
      unfold observe
      split <;> rfl
  | upward envelope => rfl
  | commission path holder errand =>
      simp only [attend]
      unfold commission
      split
      · split_ifs <;> rfl
      · rfl
  | revoke path holder => rfl

theorem alarmsOf_of_clock
    {other : World}
    (same : other.clock = world.clock) :
    other.alarmsOf origin = world.alarmsOf origin := by
  unfold alarmsOf
  rw [same]

theorem commission_alarms
    (simulated : world.facilities.simulated = true)
    (path : List Origin) (holder : Option Origin) (delay : Duration) (envelope : Envelope) :
    ((world.attend (.commission path holder (.alarm delay envelope))).alarmsOf origin).Perm
      (if path = [] ∧ holder = some origin then
        world.due (delay, envelope) :: world.alarmsOf origin
      else world.alarmsOf origin) := by
  let posting : Posting := { path, holder, envelope }
  have clock : (world.attend (.commission path holder (.alarm delay envelope))).clock =
      world.clock.schedule delay (.report posting) := by
    simp only [attend, commission, simulated, if_true, posting]
  have isHeld : posting.isHeldBy [] origin = true ↔ path = [] ∧ holder = some origin := by
    simp [posting, Posting.isHeldBy]
  unfold alarmsOf
  rw [clock]
  refine (((Clock.line_perm _ _).filter _).map _).trans ?_
  split
  · rename_i isOwn
    rw [List.filter_cons_of_pos (by exact isHeld.mpr isOwn)]
    exact .refl _
  · rename_i isOther
    rw [List.filter_cons_of_neg (by exact mt isHeld.mp isOther)]

theorem revoke_alarms
    (path : List Origin) (holder : Origin) :
    (world.attend (.revoke path holder)).alarmsOf origin =
      if path = [] ∧ holder = origin then [] else world.alarmsOf origin := by
  have remaining : (world.attend (.revoke path holder)).alarmsOf origin =
      (world.clock.pending.filter fun timer => timer.alarm.payload.isHeldBy [] origin &&
        !timer.alarm.payload.isHeldBy path holder).map
          fun timer => (timer.deadline, timer.alarm.payload.envelope) :=
    congrArg (List.map _) List.filter_filter
  rw [remaining]
  split
  · rename_i isOwn
    obtain ⟨rfl, rfl⟩ := isOwn
    simp
  · rename_i isOther
    unfold alarmsOf
    congr 1
    refine List.filter_congr fun timer _ => ?_
    -- What is held by this actor is not held by the other one.
    by_cases isHeld : timer.alarm.payload.isHeldBy [] origin = true
    · have apart : timer.alarm.payload.isHeldBy path holder = false := by
        rw [← Bool.not_eq_true]
        simp only [Posting.isHeldBy, Bool.and_eq_true, decide_eq_true_eq] at isHeld ⊢
        rintro ⟨samePath, sameHolder⟩
        exact isOther ⟨samePath.symm.trans isHeld.1,
          Option.some.inj (sameHolder.symm.trans isHeld.2)⟩
      rw [isHeld, apart]
      rfl
    · rw [Bool.not_eq_true] at isHeld
      rw [isHeld, Bool.false_and]

theorem attend_alarms
    (simulated : world.facilities.simulated = true)
    {alarms : List (Duration × Envelope)}
    (known : (world.alarmsOf origin).Perm (alarms.map world.due)) (emission : Emission) :
    ((world.attend emission).alarmsOf origin).Perm
      ((emission.alarmsAfter origin alarms).map world.due) := by
  cases emission with
  | activity path activity =>
      have same : (world.attend (.activity path activity)).clock = world.clock := by
        simp only [attend]
        unfold observe
        split <;> rfl
      rw [alarmsOf_of_clock same]
      exact known
  | upward envelope => exact known
  | commission path holder errand =>
      cases errand with
      | script steps =>
          have same : (world.attend (.commission path holder (.script steps))).clock =
              world.clock := rfl
          rw [alarmsOf_of_clock same]
          simpa [Emission.alarmsAfter] using known
      | alarm delay envelope =>
          refine (commission_alarms simulated path holder delay envelope).trans ?_
          split
          · rename_i isOwn
            obtain ⟨rfl, rfl⟩ := isOwn
            rw [Emission.alarmsAfter, if_pos rfl, List.map_append]
            exact (known.cons _).trans (List.perm_append_singleton _ _).symm
          · rename_i isOther
            have same : (Emission.commission path holder (.alarm delay envelope)).alarmsAfter
                origin alarms = alarms := by
              unfold Emission.alarmsAfter
              split <;> simp_all
            rw [same]
            exact known
  | revoke path holder =>
      rw [revoke_alarms]
      split
      · rename_i isOwn
        obtain ⟨rfl, rfl⟩ := isOwn
        rw [Emission.alarmsAfter, if_pos rfl]
        exact .refl _
      · rename_i isOther
        have same : (Emission.revoke path holder).alarmsAfter origin alarms = alarms := by
          unfold Emission.alarmsAfter
          split <;> simp_all
        rw [same]
        exact known

/-- If nothing was set for an actor, what is set for it afterwards is what has come out for
it, due from now on. -/
theorem attendAll_alarms
    (simulated : world.facilities.simulated = true)
    (none : world.alarmsOf origin = []) (emissions : List Emission) :
    ((emissions.foldl attend world).alarmsOf origin).Perm
      ((Emission.alarms origin emissions).map world.due) := by
  have attended : ∀ (emissions : List Emission) (world : World)
      (alarms : List (Duration × Envelope)), world.facilities.simulated = true →
      (world.alarmsOf origin).Perm (alarms.map world.due) →
        ((emissions.foldl attend world).alarmsOf origin).Perm
          ((emissions.foldl (Emission.alarmsAfter origin) alarms).map world.due) := by
    intro emissions
    induction emissions with
    | nil => exact fun _ _ _ known => known
    | cons emission emissions ih =>
        intro world alarms simulated known
        have now : (world.attend emission).due = world.due := by
          funext alarm
          unfold due
          rw [attend_now]
        have first := attend_alarms simulated known emission
        rw [← now] at first ⊢
        refine ih _ _ ?_ first
        rw [attend_facilities]
        exact simulated
  refine attended emissions world [] simulated ?_
  rw [none]
  exact .refl _

end Attending

end World

end Statechart
