import Statechart.Proofs.Courses

/-!
# Removed actors are silent

Mail that a removed actor has signed does nothing, however late it is read.  Serial numbers
are given out once, so a removed actor never comes back, whoever bears its id afterwards;
and the last that is heard of an actor is heard once.
-/

namespace Statechart

namespace Envelope

/-- The actor that signed an envelope. -/
def signer? : Envelope → Option Origin
  | .event sender _ _ => sender
  | .timerFired timer _ => some timer
  | .forward _ _ | .wake _ | .stop => none

end Envelope

namespace Interpreter

section Receiving

variable (facilities : Facilities) (nursery : Nursery)

/-- The actor that bears an id, if it has failed. -/
def failing (supervisor : Supervisor Interpreter) (child : String)
    (error : Option ActorError) : List Origin :=
  match error with
  | none => []
  | some _ => (supervisor.registry.origin? child).toList

def forwardPartings (supervisor : Supervisor Interpreter) (child : String) (event : Event) :
    List Origin :=
  failing supervisor child (supervisor.deliver nursery child event).1

/-- The actors of which the last is heard with an envelope: one that sent its last event,
a timer that fired, and one that fails on being given something to do. -/
def partings (interpreter : Interpreter) : Envelope → List Origin
  | .event (some origin) _ true =>
      if interpreter.supervisor.registry.accepts origin then [origin] else []
  | .event _ _ _ => []
  | .forward child event => forwardPartings nursery interpreter.supervisor child event
  | .wake child =>
      failing interpreter.supervisor child (interpreter.supervisor.wake nursery child).1
  | .timerFired timer delivery =>
      if interpreter.supervisor.registry.accepts timer then
        timer :: match delivery with
          | .forward child event =>
              forwardPartings nursery
                (interpreter.supervisor.dismiss nursery .done timer.id) child event
          | .event _ | .parent _ => []
      else []
  | .stop => []

end Receiving

end Interpreter

namespace Dealing

/-- The actors of which the last is heard in this dealing. -/
def partings (nursery : Nursery) (dealing : Dealing) : List Origin :=
  dealing.interpreter.partings nursery dealing.envelope

/-- Nothing at all comes of the dealing. -/
def IsSilent (facilities : Facilities) (nursery : Nursery) (dealing : Dealing) : Prop :=
  (Interpreter.dispatch facilities nursery dealing.envelope).run dealing.interpreter =
    .ok () dealing.interpreter

end Dealing

namespace Registry

variable {ι : Type} {registry : Registry ι}

theorem origin?_eq_some
    {id : String} {origin : Origin}
    (found : registry.origin? id = some origin) :
    origin.id = id ∧ registry.accepts origin = true := by
  obtain ⟨actor, bears, rfl⟩ := Option.map_eq_some_iff.mp found
  exact ⟨rfl, accepts_iff.mpr ⟨actor, bears, rfl⟩⟩

theorem origin?_of_accepts
    {origin : Origin}
    (accepted : registry.accepts origin = true) :
    registry.origin? origin.id = some origin := by
  obtain ⟨actor, found, serial⟩ := accepts_iff.mp accepted
  unfold origin?
  rw [found, Option.map_some, serial]

/-- No two running actors bear one id. -/
theorem eq_of_accepts
    {first second : Origin}
    (accepted : registry.accepts first = true)
    (other : registry.accepts second = true)
    (same : first.id = second.id) :
    first = second := by
  have named := origin?_of_accepts accepted
  rw [same, origin?_of_accepts other] at named
  exact (Option.some.inj named).symm

theorem not_accepts_dismissed
    (status : ActorStatus) (origin : Origin) :
    (registry.dismissed status origin.id).accepts origin = false := by
  rw [Bool.eq_false_iff]
  intro accepted
  obtain ⟨actor, found, _⟩ := accepts_iff.mp accepted
  rw [actor?_dismissed, if_pos rfl] at found
  cases found

end Registry

namespace Interpreter

variable {facilities : Facilities} {nursery : Nursery}

theorem Works.closes
    {before after : Interpreter} {origin : Origin}
    (works : Works facilities nursery before after)
    (accepted : before.supervisor.registry.accepts origin = true)
    (rejected : after.supervisor.registry.accepts origin = false) :
    after.supervisor.registry.HasClosed origin := by
  rcases works.proceeds.ages.leaves origin accepted with goesOn | closed
  · rw [rejected] at goesOn
    cases goesOn
  · exact closed

section Parting

variable {interpreter : Interpreter} {origin : Origin}

theorem mem_failing
    {supervisor : Supervisor Interpreter} {child : String} {error : Option ActorError}
    (member : origin ∈ failing supervisor child error) :
    (∃ reason, error = some reason) ∧ origin.id = child ∧
      supervisor.registry.accepts origin = true := by
  cases error with
  | none => cases member
  | some reason =>
      exact ⟨⟨reason, rfl⟩, Registry.origin?_eq_some (Option.mem_toList.mp member)⟩

theorem reproach_rejects
    (reason : ActorError) (origin : Origin) (interpreter : Interpreter) :
    (interpreter.reproach nursery origin.id (some reason)).readied.supervisor.registry.accepts
      origin = false := by
  simp only [reproach, onSupervisor, Supervisor.registry_dismiss]
  exact Registry.not_accepts_dismissed .error origin

theorem forwardPartings_closed
    {child : String} {event : Event}
    (member : origin ∈ forwardPartings nursery interpreter.supervisor child event) :
    interpreter.supervisor.registry.accepts origin = true ∧
      (interpreter.receiveForward nursery child
        event).readied.supervisor.registry.HasClosed origin := by
  obtain ⟨⟨reason, failed⟩, rfl, accepted⟩ := mem_failing member
  have works : Works ⟨false, false, 0⟩ nursery interpreter
      (interpreter.receiveForward nursery origin.id event).readied :=
    (works_handles interpreter).receiveForward (.refl interpreter) origin.id event
  refine ⟨accepted, works.closes accepted ?_⟩
  unfold receiveForward
  dsimp only
  rw [failed]
  exact reproach_rejects reason origin _

/-- A timer that has fired is removed before its delivery is made; who cannot take the
delivery is removed after that. -/
theorem timerPartings_closed
    {timer : Origin} {delivery : Delivery}
    (member : origin ∈ interpreter.partings nursery (.timerFired timer delivery)) :
    interpreter.supervisor.registry.accepts origin = true ∧
      (interpreter.receive nursery
        (.timerFired timer delivery)).readied.supervisor.registry.HasClosed origin := by
  simp only [partings] at member
  split at member
  · rename_i accepted
    simp only [receive, accepted, if_true]
    rcases List.mem_cons.mp member with rfl | failing
    · let taken := interpreter.onSupervisor fun supervisor =>
        supervisor.dismiss nursery .done origin.id
      have dismissed : Works ⟨false, false, 0⟩ nursery interpreter taken :=
        works_dismiss interpreter (by decide) origin.id
      have rejected : taken.supervisor.registry.accepts origin = false := by
        simp only [taken, onSupervisor, Supervisor.registry_dismiss]
        exact Registry.not_accepts_dismissed .done origin
      have delivered : Works ⟨false, false, 0⟩ nursery taken
          (taken.receiveDelivery nursery delivery).readied :=
        (works_handles taken).receiveDelivery (.refl taken) delivery
      exact ⟨accepted,
        delivered.proceeds.ages.hasClosed (dismissed.closes accepted rejected)⟩
    · cases delivery with
      | event event => cases failing
      | parent event => cases failing
      | forward child event =>
          change origin ∈ forwardPartings nursery
            (interpreter.onSupervisor fun supervisor =>
              supervisor.dismiss nursery .done timer.id).supervisor child event at failing
          obtain ⟨stillAccepted, closed⟩ := forwardPartings_closed failing
          refine ⟨?_, closed⟩
          simp only [onSupervisor, Supervisor.registry_dismiss] at stillAccepted
          exact Registry.accepts_of_dismissed stillAccepted
  · cases member

/-- An actor of which the last is heard runs until then, and is removed at once. -/
theorem parting_closed
    {envelope : Envelope}
    (member : origin ∈ interpreter.partings nursery envelope) :
    interpreter.supervisor.registry.accepts origin = true ∧
      (interpreter.receive nursery envelope).readied.supervisor.registry.HasClosed
        origin := by
  have works : Works ⟨false, false, 0⟩ nursery interpreter
      (interpreter.receive nursery envelope).readied :=
    receive_works interpreter envelope
  cases envelope with
  | event sender event terminal =>
      cases sender with
      | none => cases member
      | some sender =>
          cases terminal with
          | false => cases member
          | true =>
              simp only [partings] at member
              split at member
              · rename_i accepted
                obtain rfl := List.mem_singleton.mp member
                refine ⟨accepted, works.closes accepted ?_⟩
                simp only [receive, receiveEvent, accepted, if_true, onSupervisor,
                  Supervisor.registry_dismiss]
                exact Registry.not_accepts_dismissed _ origin
              · cases member
  | forward child event => exact forwardPartings_closed member
  | wake child =>
      obtain ⟨⟨reason, failed⟩, rfl, accepted⟩ := mem_failing member
      refine ⟨accepted, works.closes accepted ?_⟩
      simp only [receive, receiveWake]
      rw [failed]
      exact reproach_rejects reason origin _
  | timerFired timer delivery => exact timerPartings_closed member
  | stop => cases member

theorem nodup_failing
    (supervisor : Supervisor Interpreter) (child : String) (error : Option ActorError) :
    (failing supervisor child error).Nodup := by
  cases error with
  | none => exact List.nodup_nil
  | some _ =>
      simp only [failing]
      cases supervisor.registry.origin? child <;> simp

theorem nodup_partings
    (interpreter : Interpreter) (envelope : Envelope) :
    (interpreter.partings nursery envelope).Nodup := by
  cases envelope with
  | event sender event terminal =>
      cases sender with
      | none => exact List.nodup_nil
      | some sender =>
          cases terminal with
          | false => exact List.nodup_nil
          | true =>
              simp only [partings]
              split
              · exact List.nodup_singleton sender
              · exact List.nodup_nil
  | forward child event => exact nodup_failing _ child _
  | wake child => exact nodup_failing _ child _
  | timerFired timer delivery =>
      simp only [partings]
      split
      · cases delivery with
        | event event => exact List.nodup_singleton timer
        | parent event => exact List.nodup_singleton timer
        | forward child event =>
            refine List.nodup_cons.mpr ⟨?_, nodup_failing _ child _⟩
            intro member
            obtain ⟨_, _, accepted⟩ := mem_failing member
            rw [Supervisor.registry_dismiss, Registry.not_accepts_dismissed] at accepted
            cases accepted
      · exact List.nodup_nil
  | stop => exact List.nodup_nil

theorem dispatch_rejected
    {envelope : Envelope}
    (signed : envelope.signer? = some origin)
    (rejected : interpreter.supervisor.registry.accepts origin = false) :
    (dispatch facilities nursery envelope).run interpreter = .ok () interpreter := by
  have rejects : ¬ interpreter.supervisor.registry.accepts origin = true := by
    rw [rejected]
    decide
  cases envelope with
  | event sender event terminal =>
      obtain rfl : sender = some origin := signed
      rw [dispatch_run interpreter (by simp)]
      simp only [receive, receiveEvent]
      rw [if_neg rejects]
      rfl
  | timerFired timer delivery =>
      obtain rfl : timer = origin := Option.some.inj signed
      rw [dispatch_run interpreter (by simp)]
      simp only [receive]
      rw [if_neg rejects]
      rfl
  | forward child event => cases signed
  | wake child => cases signed
  | stop => cases signed

end Parting

section Coursing

variable {start before middle after : Interpreter} {origin : Origin}
variable {dealings earlier later : List Dealing} {dealing : Dealing}

theorem Course.closes
    (course : Course facilities nursery before dealings after)
    (accepted : before.supervisor.registry.accepts origin = true)
    (rejected : after.supervisor.registry.accepts origin = false) :
    after.supervisor.registry.HasClosed origin := by
  rcases course.lasts.ages.leaves origin accepted with goesOn | closed
  · rw [rejected] at goesOn
    cases goesOn
  · exact closed

/-- Dealing with an envelope in which the last is heard of an actor removes it. -/
theorem dispatch_closes
    {taken : Interpreter} {envelope : Envelope}
    (member : origin ∈ taken.partings nursery envelope) :
    (leftBy (dispatch facilities nursery envelope)
      taken).supervisor.registry.HasClosed origin := by
  have goesOn : envelope ≠ .stop := by
    rintro rfl
    cases member
  have works : Works facilities nursery _ _ := received_works taken goesOn
  exact works.proceeds.ages.hasClosed (parting_closed member).2

/-- Removed actors stay removed: what they have signed is dealt with in silence, and their
last has been heard before. -/
theorem Course.silent
    (course : Course facilities nursery before dealings after)
    (balanced : before.supervisor.registry.Balanced)
    (closed : before.supervisor.registry.HasClosed origin) :
    after.supervisor.registry.HasClosed origin ∧
      ∀ dealing ∈ dealings,
        (dealing.envelope.signer? = some origin → dealing.IsSilent facilities nursery) ∧
          origin ∉ dealing.partings nursery := by
  refine ⟨course.lasts.ages.hasClosed closed, ?_⟩
  intro dealing member
  obtain ⟨earlier, later, rfl⟩ := List.append_of_mem member
  obtain ⟨middle, begun, _, found, _⟩ := course.split
  have lasted := begun.lasts.trans (nextEnvelope?_elapses found).1
  have rejected := (lasted.balanced balanced).not_accepts (lasted.ages.hasClosed closed)
  refine ⟨fun signed => dispatch_rejected signed rejected, fun parts => ?_⟩
  have accepted := (parting_closed parts).1
  rw [rejected] at accepted
  cases accepted

/-- The last is heard of each actor once at most, and the actor is removed then. -/
theorem Course.partings
    (course : Course facilities nursery start dealings after)
    (balanced : start.supervisor.registry.Balanced) :
    (dealings.flatMap (Dealing.partings nursery)).Nodup ∧
      ∀ origin ∈ dealings.flatMap (Dealing.partings nursery),
        after.supervisor.registry.HasClosed origin := by
  induction course with
  | rest => exact ⟨List.nodup_nil, fun _ member => by cases member⟩
  | @deal dealings before taken envelope walked running found ih =>
      obtain ⟨nodup, closed⟩ := ih
      have lasted := walked.lasts.trans (nextEnvelope?_elapses found).1
      have dealt : Course facilities nursery before _ _ := .deal .rest running found
      rw [List.flatMap_append]
      constructor
      · refine List.nodup_append'.mpr ⟨nodup, ?_, ?_⟩
        · rw [List.flatMap_singleton]
          exact nodup_partings taken envelope
        · intro origin earlier now
          rw [List.flatMap_singleton] at now
          have silent := (dealt.silent (walked.lasts.balanced balanced)
            (closed origin earlier)).2 _ List.mem_cons_self
          exact silent.2 now
      · intro origin member
        rcases List.mem_append.mp member with before | now
        · exact dealt.lasts.ages.hasClosed (closed origin before)
        · rw [List.flatMap_singleton] at now
          exact dispatch_closes now
  | pause _ interlude ih =>
      exact ⟨ih.1, fun origin member => interlude.elapses.ages.hasClosed (ih.2 origin member)⟩
  | unload _ ih => exact ih

end Coursing

end Interpreter

end Statechart
