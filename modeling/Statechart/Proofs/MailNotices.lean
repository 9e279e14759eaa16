import Statechart.Proofs.ChildMachines
import Statechart.Proofs.RemovedSenders

/-!
# Notices of mail

A child machine deals with its mail only when its parent lets it.  So as long as it has some,
a notice of that lies in the mailbox of the parent, or else the child is at its end, and the
last that the parent hears of it, whereupon it is removed, lies there.  No chore and no notice
that is read leaves a child machine forgotten.
-/

namespace Statechart

namespace Interpreter

/-- The child machine of this origin is not forgotten by the one whose mailbox this is. -/
inductive Heeded (good : Interpreter → Prop) (inbox : List Envelope) (self : Origin)
    (child : Interpreter) : Prop where
  /-- It has ended, and will be removed. -/
  | leaving (event : Event) : .event (some self) event true ∈ inbox → Heeded good inbox self child
  | resting : good child → child.supervisor.inbox = [] → Heeded good inbox self child
  /-- There is a notice of its mail. -/
  | noticed : good child → .wake self.id ∈ inbox → Heeded good inbox self child

theorem Heeded.mono
    {good : Interpreter → Prop} {inbox more : List Envelope} {self : Origin}
    {child : Interpreter}
    (heeded : child.Heeded good inbox self)
    (mail : inbox ⊆ more) :
    child.Heeded good more self := by
  cases heeded with
  | leaving event waiting => exact .leaving event (mail waiting)
  | resting isGood empty => exact .resting isGood empty
  | noticed isGood waiting => exact .noticed isGood (mail waiting)

end Interpreter

namespace Registry

/-- No child machine is forgotten. -/
def Heeds (good : Interpreter → Prop) (inbox : List Envelope)
    (registry : Registry Interpreter) : Prop :=
  ∀ origin child reported, registry.childMachine? origin = some (child, reported) →
    child.Heeded good inbox origin

section Finding

variable {registry : Registry Interpreter} {origin : Origin} {child : Interpreter}
variable {reported : Bool}

theorem accepts_of_childMachine?
    (found : registry.childMachine? origin = some (child, reported)) :
    registry.accepts origin = true := by
  obtain ⟨actor, bears, serial, _⟩ := childMachine?_eq_some.mp found
  exact accepts_iff.mpr ⟨actor, bears, serial⟩

theorem childMachine?_of_vacant
    (vacant : registry.actors = []) (origin : Origin) :
    registry.childMachine? origin = none := by
  unfold childMachine? actor? Table.get?
  rw [vacant]
  rfl

theorem childMachine?_of_dismissed
    {status : ActorStatus} {id : String}
    (found : (registry.dismissed status id).childMachine? origin = some (child, reported)) :
    origin.id ≠ id ∧ registry.childMachine? origin = some (child, reported) := by
  obtain ⟨actor, bears, holds⟩ := childMachine?_eq_some.mp found
  rw [actor?_dismissed] at bears
  split at bears
  · cases bears
  · rename_i other
    exact ⟨other, childMachine?_eq_some.mpr ⟨actor, bears, holds⟩⟩

theorem childMachine?_of_staffed
    {id : String} {owner : Option StateId} {depth : Nat} {process : Process Interpreter}
    (found : (registry.staffed id owner depth process).childMachine? origin =
      some (child, reported)) :
    registry.childMachine? origin = some (child, reported) ∨
      origin = { id, serial := registry.nextSerial } ∧ process = .machine child reported := by
  obtain ⟨actor, bears, serial, holds⟩ := childMachine?_eq_some.mp found
  rw [actor?_staffed] at bears
  split at bears
  · rename_i same
    obtain rfl := Option.some.inj bears
    obtain ⟨originId, originSerial⟩ := origin
    exact .inr ⟨congr (congrArg Origin.mk same) serial.symm, holds⟩
  · exact .inl (childMachine?_eq_some.mpr ⟨actor, bears, serial, holds⟩)

theorem childMachine?_of_update
    {id : String} {process : Process Interpreter}
    (found : (registry.update id process).childMachine? origin = some (child, reported)) :
    origin.id ≠ id ∧ registry.childMachine? origin = some (child, reported) ∨
      origin.id = id ∧ registry.accepts origin = true ∧ process = .machine child reported := by
  obtain ⟨actor, bears, serial, holds⟩ := childMachine?_eq_some.mp found
  rw [actor?_update] at bears
  obtain ⟨before, bore, rfl⟩ := Option.map_eq_some_iff.mp bears
  by_cases same : origin.id = id
  · rw [if_pos same] at serial holds
    exact .inr ⟨same, accepts_iff.mpr ⟨before, bore, serial⟩, holds⟩
  · rw [if_neg same] at serial holds
    exact .inl ⟨same, childMachine?_eq_some.mpr ⟨before, bore, serial, holds⟩⟩

end Finding

section Heeding

variable {good : Interpreter → Prop} {inbox more : List Envelope}
variable {registry : Registry Interpreter}

theorem heeds_of_vacant
    (vacant : registry.actors = []) :
    registry.Heeds good inbox := by
  intro origin child reported found
  rw [childMachine?_of_vacant vacant] at found
  cases found

theorem Heeds.mono
    (heeds : registry.Heeds good inbox)
    (mail : inbox ⊆ more) :
    registry.Heeds good more :=
  fun origin child reported found => (heeds origin child reported found).mono mail

theorem Heeds.dismissed
    (heeds : registry.Heeds good inbox)
    (status : ActorStatus) (id : String) :
    (registry.dismissed status id).Heeds good inbox :=
  fun origin child reported found =>
    heeds origin child reported (childMachine?_of_dismissed found).2

theorem Heeds.take
    {envelope : Envelope}
    (heeds : registry.Heeds good (envelope :: inbox))
    (noNotice : ∀ id, envelope ≠ .wake id)
    (noEnd : ∀ origin event, envelope = .event (some origin) event true →
      registry.accepts origin = false) :
    registry.Heeds good inbox := by
  intro origin child reported found
  cases heeds origin child reported found with
  | leaving event waiting =>
      rcases List.mem_cons.mp waiting with last | later
      · have rejected := noEnd origin event last.symm
        exact absurd ((accepts_of_childMachine? found).symm.trans rejected) (by decide)
      · exact .leaving event later
  | resting isGood empty => exact .resting isGood empty
  | noticed isGood waiting =>
      rcases List.mem_cons.mp waiting with notice | later
      · exact absurd notice.symm (noNotice origin.id)
      · exact .noticed isGood later

/-- What is said of all child machines but the one that bears an id. -/
def HeedsOthers (good : Interpreter → Prop) (inbox : List Envelope) (id : String)
    (registry : Registry Interpreter) : Prop :=
  ∀ origin child reported, registry.childMachine? origin = some (child, reported) →
    origin.id ≠ id → child.Heeded good inbox origin

variable {id : String}

theorem Heeds.others
    (heeds : registry.Heeds good inbox)
    (id : String) :
    registry.HeedsOthers good inbox id :=
  fun origin child reported found _ => heeds origin child reported found

theorem Heeds.takeNotice
    (heeds : registry.Heeds good (.wake id :: inbox)) :
    registry.HeedsOthers good inbox id := by
  intro origin child reported found other
  cases heeds origin child reported found with
  | leaving event waiting =>
      rcases List.mem_cons.mp waiting with last | later
      · cases last
      · exact .leaving event later
  | resting isGood empty => exact .resting isGood empty
  | noticed isGood waiting =>
      rcases List.mem_cons.mp waiting with notice | later
      · exact absurd (Envelope.wake.inj notice) other
      · exact .noticed isGood later

theorem HeedsOthers.dismissed
    (others : registry.HeedsOthers good inbox id)
    (status : ActorStatus) :
    (registry.dismissed status id).Heeds good inbox := by
  intro origin child reported found
  obtain ⟨other, earlier⟩ := childMachine?_of_dismissed found
  exact others origin child reported earlier other

theorem HeedsOthers.update
    (others : registry.HeedsOthers good inbox id)
    (process : Process Interpreter) :
    (registry.update id process).HeedsOthers good inbox id := by
  intro origin child reported found other
  rcases childMachine?_of_update found with ⟨_, earlier⟩ | ⟨same, _⟩
  · exact others origin child reported earlier other
  · exact absurd same other

theorem HeedsOthers.heeds_update
    {self : Origin} {child : Interpreter} {reported : Bool}
    (others : registry.HeedsOthers good inbox self.id)
    (accepted : registry.accepts self = true)
    (heeded : child.Heeded good inbox self) :
    (registry.update self.id (.machine child reported)).Heeds good inbox := by
  intro origin other told found
  rcases childMachine?_of_update found with ⟨apart, earlier⟩ | ⟨same, isOrigin, process⟩
  · exact others origin other told earlier apart
  · obtain rfl := eq_of_accepts isOrigin accepted same
    cases process
    exact heeded

theorem HeedsOthers.heeds_update_of_noMachine
    {process : Process Interpreter}
    (others : registry.HeedsOthers good inbox id)
    (noMachine : process.kind ≠ .machine) :
    (registry.update id process).Heeds good inbox := by
  intro origin other told found
  rcases childMachine?_of_update found with ⟨apart, earlier⟩ | ⟨_, _, rfl⟩
  · exact others origin other told earlier apart
  · exact absurd rfl noMachine

end Heeding

end Registry

/-- What the nursery does with child machines leaves them good, and if it goes well it lets
them deal with all their mail, or adds none. -/
structure Nursery.Attends (nursery : Nursery) (good : Interpreter → Prop) : Prop where
  start : ∀ machine self input,
    Ends nursery.start (Interpreter.child machine self input)
      (fun _ after => good after.drained ∧ after.supervisor.inbox = []) (fun _ _ => True)
  receive : ∀ event child, good child →
    Ends (nursery.receive event) child
      (fun _ after => good after.drained ∧
        (after.supervisor.inbox = [] ∨ after.supervisor.inbox = child.supervisor.inbox))
      (fun _ _ => True)
  wake : ∀ child, good child →
    Ends nursery.wake child
      (fun _ after => good after.drained ∧ after.supervisor.inbox = []) (fun _ _ => True)

namespace Supervisor

variable {good : Interpreter → Prop} {facilities : Facilities} {nursery : Nursery}

/-- No child machine is forgotten. -/
def Heeds (good : Interpreter → Prop) (supervisor : Supervisor Interpreter) : Prop :=
  supervisor.registry.Heeds good supervisor.inbox

section Heeding

variable {before after : Supervisor Interpreter} (attends : nursery.Attends good)

theorem inbox_post
    (supervisor : Supervisor Interpreter) (envelope : Envelope) :
    (supervisor.post envelope).inbox = supervisor.inbox ++ [envelope] := by
  unfold post
  dsimp only
  split <;> rfl

theorem spawn_inbox
    (supervisor : Supervisor Interpreter) (order : SpawnOrder) :
    (supervisor.spawn facilities nursery order).inbox =
      (match (supervisor.launched facilities nursery order).1.failure with
        | some error =>
            (supervisor.launched facilities nursery order).2.post (.failed
              { id := order.id
                serial := (supervisor.dismiss nursery .stopped order.id).registry.nextSerial }
              error.message)
        | none => (supervisor.launched facilities nursery order).2).inbox :=
  rfl

theorem Hears.heeds
    (hears : before.Hears after)
    (heeds : before.Heeds good) :
    after.Heeds good := by
  unfold Heeds
  rw [hears.registry]
  exact heeds.mono hears.inbox.subset

theorem Heeds.dismiss
    (heeds : before.Heeds good)
    (status : ActorStatus) (id : String) :
    (before.dismiss nursery status id).Heeds good :=
  (dismiss_turns before nursery status id).heeds (heeds.dismissed status id)

include attends

theorem launchMachine_heeded
    (supervisor : Supervisor Interpreter) (self : Origin) (machine : Machine ActorLogic)
    (input : Json) {child : Interpreter} {reported : Bool}
    (runs : (launchMachine nursery supervisor self machine input).1.process =
      .machine child reported)
    (started : (launchMachine nursery supervisor self machine input).1.failure = none)
    (inbox : List Envelope) :
    child.Heeded good inbox self := by
  have ends := attends.start machine self input
  rw [ends_iff_run] at ends
  unfold launchMachine attend at runs started
  cases ran : nursery.start.run (Interpreter.child machine self input) with
  | error failure after =>
      rw [ran] at started
      cases started
  | ok _ after =>
      obtain ⟨isGood, empty⟩ := ends.1 _ after ran
      rw [ran] at runs
      obtain ⟨told, process⟩ := reportEnd_process
        (supervisor.absorb self after.supervisor.outbox) self after.drained false
      cases process.symm.trans runs
      exact .resting isGood empty

theorem launch_heeded
    (supervisor : Supervisor Interpreter) (self : Origin) (input : Json) (job : Job)
    {child : Interpreter} {reported : Bool}
    (runs : (launch facilities nursery supervisor self input job).1.process =
      .machine child reported)
    (started : (launch facilities nursery supervisor self input job).1.failure = none)
    (inbox : List Envelope) :
    child.Heeded good inbox self := by
  cases job with
  | timer delay delivery =>
      simp only [launch] at runs
      split at runs <;> cases runs
  | logic logic =>
      cases logic with
      | machine machine =>
          exact launchMachine_heeded attends supervisor self machine input runs started inbox
      | callback setup => cases runs
      | custom logic => cases runs
      | promise plan =>
          simp only [launch, launchTask] at runs
          split at runs <;> cases runs
      | stream items =>
          simp only [launch, launchTask] at runs
          split at runs <;> cases runs

/-- A child machine that cannot be started reports its end. -/
theorem spawn_heeds
    (order : SpawnOrder)
    (heeds : before.Heeds good) :
    (before.spawn facilities nursery order).Heeds good := by
  have turned := spawn_turns before facilities nursery order
  intro origin child reported found
  rw [turned.registry] at found
  rcases Registry.childMachine?_of_staffed found with earlier | ⟨rfl, runs⟩
  · exact (heeds origin child reported earlier).mono turned.inbox.subset
  · have registry : (before.dismiss nursery .stopped order.id).registry =
        before.registry.dismissed .stopped order.id := registry_dismiss before .stopped order.id
    have serial : (before.dismiss nursery .stopped order.id).registry.nextSerial =
        before.registry.nextSerial :=
      (congrArg Registry.nextSerial registry).trans
        (Registry.nextSerial_dismissed .stopped order.id)
    cases failed : (before.launched facilities nursery order).1.failure with
    | none =>
        rw [← serial]
        exact launch_heeded attends _ _ order.input order.job runs failed _
    | some error =>
        refine .leaving (Event.errorActor order.id error.message) ?_
        rw [← serial, spawn_inbox, failed, inbox_post]
        exact List.mem_append_right _ List.mem_cons_self

theorem Routine.heeds
    (routine : Routine facilities nursery before after)
    (heeds : before.Heeds good) :
    after.Heeds good := by
  cases routine with
  | chore chore =>
      cases chore with
      | keep envelope => exact (hears_keep before envelope).heeds heeds
      | sendUp event => exact (hears_sendUp before event).heeds heeds
      | reveal => exact heeds
      | name stem => exact heeds
      | dismiss id => exact heeds.dismiss .stopped id
      | spawn order => exact spawn_heeds attends order heeds
  | post envelope => exact (hears_post before envelope).heeds heeds
  | reveal activity => exact heeds

theorem Routines.heeds
    (routines : Routines facilities nursery before after)
    (heeds : before.Heeds good) :
    after.Heeds good := by
  induction routines with
  | refl => exact heeds
  | tail _ last ih => exact last.heeds attends ih

omit attends

/-- The child machine that is given something to do is not forgotten if all goes well; the
others are not in any case. -/
theorem tend_heeds
    {self : Origin} {child : Interpreter} {task : Handling Unit} {blame : Failure → ActorError}
    (reported : Bool)
    (others : before.registry.HeedsOthers good before.inbox self.id)
    (accepted : before.registry.accepts self = true)
    (ends : Ends task child (fun _ after => after.drained.Heeded good before.inbox self)
      (fun _ _ => True))
    (well : (before.tend self child reported task blame).1 = none) :
    (before.tend self child reported task blame).2.Heeds good := by
  rw [ends_iff_run] at ends
  unfold tend attend at well ⊢
  cases ran : task.run child with
  | error failure after =>
      rw [ran] at well
      cases well
  | ok _ after =>
      have heeded := ends.1 _ after ran
      have absorbed := hears_absorb before self after.supervisor.outbox
      have heard := absorbed.trans (hears_reportEnd _ self after.drained reported)
      obtain ⟨told, process⟩ := reportEnd_process
        (before.absorb self after.supervisor.outbox) self after.drained reported
      have updated : (before.registry.update self.id (.machine after.drained told)).Heeds
          good before.inbox :=
        others.heeds_update accepted heeded
      dsimp only
      rw [process]
      unfold update Heeds
      rw [heard.registry]
      exact updated.mono heard.inbox.subset

theorem Hears.heedsOthers
    {id : String}
    (hears : before.Hears after)
    (others : before.registry.HeedsOthers good before.inbox id) :
    after.registry.HeedsOthers good after.inbox id := by
  rw [hears.registry]
  exact fun origin child reported found other =>
    (others origin child reported found other).mono hears.inbox.subset

theorem deliver_heedsOthers
    {id : String}
    (others : before.registry.HeedsOthers good before.inbox id)
    (event : Event) :
    (before.deliver nursery id event).2.registry.HeedsOthers good
      (before.deliver nursery id event).2.inbox id := by
  obtain ⟨registry, turned, hears⟩ := deliver_turns before nursery id event
  apply hears.heedsOthers
  rcases turned with rfl | ⟨process, rfl⟩
  · exact others
  · exact others.update process

theorem wake_heedsOthers
    {id : String}
    (others : before.registry.HeedsOthers good before.inbox id) :
    (before.wake nursery id).2.registry.HeedsOthers good (before.wake nursery id).2.inbox
      id := by
  obtain ⟨registry, turned, hears⟩ := wake_turns before nursery id
  apply hears.heedsOthers
  rcases turned with rfl | ⟨process, rfl⟩
  · exact others
  · exact others.update process

include attends

theorem deliver_heeds
    {id : String} {event : Event}
    (heeds : before.Heeds good)
    (well : (before.deliver nursery id event).1 = none) :
    (before.deliver nursery id event).2.Heeds good := by
  cases found : before.registry.actor? id with
  | none =>
      unfold deliver
      rw [found]
      exact heeds
  | some actor =>
      rcases actor.process.machine_or_not with ⟨child, reported, isMachine⟩ | noMachine
      · rw [deliver_machine found isMachine] at well ⊢
        let self : Origin := ⟨id, actor.serial⟩
        have isChild : before.registry.childMachine? self = some (child, reported) :=
          Registry.childMachine?_eq_some.mpr ⟨_, found, rfl, isMachine⟩
        have ends : Ends (nursery.receive event) child
            (fun _ after => after.drained.Heeded good before.inbox self)
            (fun _ _ => True) := by
          have received := attends.receive event child
          cases heeds self child reported isChild with
          | leaving last waiting =>
              exact (ends_somehow _ child).mono (fun _ _ _ => .leaving last waiting)
                (fun _ _ _ => trivial)
          | resting isGood empty =>
              refine (received isGood).mono (fun _ _ given => ?_) (fun _ _ _ => trivial)
              exact .resting given.1
                (given.2.elim (fun none => none) fun same => same.trans empty)
          | noticed isGood waiting =>
              exact (received isGood).mono (fun _ _ given => .noticed given.1 waiting)
                (fun _ _ _ => trivial)
        exact tend_heeds reported (heeds.others id)
          (Registry.accepts_of_childMachine? isChild) ends well
      · rw [deliver_of_noMachine found noMachine]
        have obeyed := (hears_obeyAll before ⟨id, actor.serial⟩
          (actor.process.hear event).1.commands).heeds heeds
        exact (obeyed.others id).heeds_update_of_noMachine
          ((Process.hear_kind event _).trans_ne noMachine)

theorem wake_heeds
    {id : String}
    (heeds : before.registry.Heeds good (.wake id :: before.inbox))
    (well : (before.wake nursery id).1 = none) :
    (before.wake nursery id).2.Heeds good := by
  have others := heeds.takeNotice
  unfold wake at well ⊢
  split at well
  · rename_i serial owner depth child reported found
    let self : Origin := { id, serial }
    have isChild : before.registry.childMachine? self = some (child, reported) :=
      Registry.childMachine?_eq_some.mpr ⟨_, found, rfl, rfl⟩
    have ends : Ends nursery.wake child
        (fun _ after => after.drained.Heeded good before.inbox self) (fun _ _ => True) := by
      have woken : good child → Ends nursery.wake child
          (fun _ after => after.drained.Heeded good before.inbox self) (fun _ _ => True) :=
        fun isGood => (attends.wake child isGood).mono
          (fun _ _ given => .resting given.1 given.2) (fun _ _ _ => trivial)
      cases heeds self child reported isChild with
      | leaving last waiting =>
          refine (ends_somehow _ child).mono (fun _ _ _ => .leaving last ?_) (fun _ _ _ => trivial)
          rcases List.mem_cons.mp waiting with notice | later
          · cases notice
          · exact later
      | resting isGood => exact woken isGood
      | noticed isGood => exact woken isGood
    exact tend_heeds reported others (Registry.accepts_of_childMachine? isChild) ends well
  · rename_i noMachine
    intro origin child reported found
    refine others origin child reported found ?_
    rintro rfl
    obtain ⟨⟨serial, owner, depth, process⟩, bears, _, holds⟩ :=
      Registry.childMachine?_eq_some.mp found
    cases holds
    exact noMachine _ _ _ _ _ bears

end Heeding

end Supervisor

namespace Interpreter

section Receiving

variable {good : Interpreter → Prop} {facilities : Facilities} {nursery : Nursery}
variable {before after interpreter : Interpreter} (attends : nursery.Attends good)

theorem reproach_heeds
    {child : String} {error : Option ActorError}
    (others : interpreter.supervisor.registry.HeedsOthers good interpreter.supervisor.inbox
      child)
    (well : error = none → interpreter.supervisor.Heeds good) :
    (interpreter.reproach nursery child error).readied.supervisor.Heeds good := by
  cases error with
  | none => exact well rfl
  | some error =>
      exact (Supervisor.dismiss_turns interpreter.supervisor nursery .error child).heeds
        (others.dismissed .error)

include attends

theorem Routine.heeds
    (routine : Routine facilities nursery before after)
    (heeds : before.supervisor.Heeds good) :
    after.supervisor.Heeds good :=
  routine.routines.heeds attends heeds

theorem receiveForward_heeds
    (child : String) (event : Event)
    (heeds : interpreter.supervisor.Heeds good) :
    (interpreter.receiveForward nursery child event).readied.supervisor.Heeds
      good :=
  reproach_heeds (Supervisor.deliver_heedsOthers (heeds.others child) event)
    (Supervisor.deliver_heeds attends heeds)

theorem receiveDelivery_heeds
    (delivery : Delivery)
    (heeds : interpreter.supervisor.Heeds good) :
    (interpreter.receiveDelivery nursery delivery).readied.supervisor.Heeds
      good := by
  cases delivery with
  | event event => exact heeds
  | forward child event => exact receiveForward_heeds attends child event heeds
  | parent event => exact (Supervisor.hears_sendUp interpreter.supervisor event).heeds heeds

/-- Once an envelope is taken out of the mailbox and the actors have been seen to, no child
machine is forgotten. -/
theorem receive_heeds
    {envelope : Envelope}
    (heeds : interpreter.supervisor.registry.Heeds good
      (envelope :: interpreter.supervisor.inbox)) :
    (interpreter.receive nursery envelope).readied.supervisor.Heeds good := by
  cases envelope with
  | event sender event terminal =>
      have noNotice : ∀ id, Envelope.event sender event terminal ≠ .wake id := by rintro _ ⟨⟩
      cases sender with
      | none => exact heeds.take noNotice (by rintro _ _ ⟨⟩)
      | some origin =>
          simp only [receive, receiveEvent]
          split
          · split
            · refine (Supervisor.dismiss_turns interpreter.supervisor nursery _ origin.id).heeds ?_
              refine (heeds.dismissed (closingStatus event) origin.id).take noNotice ?_
              rintro _ _ ⟨⟩
              exact Registry.not_accepts_dismissed _ origin
            · rename_i goesOn
              refine heeds.take noNotice ?_
              rintro _ _ ⟨⟩
              exact absurd rfl goesOn
          · rename_i rejected
            refine heeds.take noNotice ?_
            rintro _ _ ⟨⟩
            exact Bool.eq_false_iff.mpr rejected
  | forward child event =>
      exact receiveForward_heeds attends child event
        (heeds.take (by rintro _ ⟨⟩) (by rintro _ _ ⟨⟩))
  | wake child =>
      exact reproach_heeds (Supervisor.wake_heedsOthers heeds.takeNotice)
        (Supervisor.wake_heeds attends heeds)
  | timerFired timer delivery =>
      have taken : interpreter.supervisor.Heeds good :=
        heeds.take (by rintro _ ⟨⟩) (by rintro _ _ ⟨⟩)
      simp only [receive]
      split
      · exact receiveDelivery_heeds attends delivery (taken.dismiss .done timer.id)
      · exact taken
  | stop => exact heeds.take (by rintro _ ⟨⟩) (by rintro _ _ ⟨⟩)

end Receiving

end Interpreter

end Statechart
