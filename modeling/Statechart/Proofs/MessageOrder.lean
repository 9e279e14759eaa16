import Statechart.Proofs.Building
import Statechart.Proofs.RemovedActors

/-!
# The last words of an actor

An actor's events lie in the mailbox of its interpreter in the order in which it sent them,
and as long as it runs each of them is heard.  A failure that is reported through the
mailbox is read after all of them.  A failure on being given something to do is heard at
once: whatever of the actor still lies in the mailbox then is never heard.
-/

namespace Statechart

namespace Envelope

/-- The event in an envelope that an actor has signed. -/
def voice? (origin : Origin) : Envelope → Option Event
  | .event (some sender) spoken _ => if sender = origin then some spoken else none
  | .event none _ _ | .forward _ _ | .wake _ | .timerFired _ _ | .stop => none

end Envelope

/-- The events that an actor has signed, in the order of the envelopes. -/
def voices (origin : Origin) (envelopes : List Envelope) : List Event :=
  envelopes.filterMap (Envelope.voice? origin)

namespace Dealing

/-- The event that a step is taken for in the dealing. -/
def heard? (nursery : Nursery) (dealing : Dealing) : Option Event :=
  (dealing.interpreter.receive nursery dealing.envelope).heard

/-- The events of an actor that steps are taken for, in the order of the dealings. -/
def heardFrom (nursery : Nursery) (origin : Origin) (dealings : List Dealing) :
    List Event :=
  dealings.filterMap fun dealing =>
    (dealing.envelope.voice? origin).bind fun _ => dealing.heard? nursery

end Dealing

theorem Envelope.voice?_eq_some
    {origin : Origin} {envelope : Envelope} {event : Event}
    (voice : envelope.voice? origin = some event) :
    ∃ terminal, envelope = .event (some origin) event terminal := by
  cases envelope with
  | event sender spoken terminal =>
      cases sender with
      | none => cases voice
      | some sender =>
          simp only [voice?] at voice
          split at voice
          · rename_i same
            obtain rfl := Option.some.inj voice
            exact ⟨terminal, by rw [same]⟩
          · cases voice
  | forward child event => cases voice
  | wake child => cases voice
  | timerFired timer delivery => cases voice
  | stop => cases voice

namespace Interpreter

variable {facilities : Facilities} {nursery : Nursery}
variable {born before after taken : Interpreter} {origin : Origin}
variable {dealings later : List Dealing} {envelope : Envelope}

theorem heard_of_voice
    {event : Event}
    (voice : envelope.voice? origin = some event) :
    (taken.receive nursery envelope).heard =
      if taken.supervisor.registry.accepts origin then some event else none := by
  obtain ⟨terminal, rfl⟩ := Envelope.voice?_eq_some voice
  simp only [receive, receiveEvent]
  split <;> rfl

/-- All that was dealt with while an actor ran on was heard, in the order in which it was
sent. -/
theorem Course.hears
    (course : Course facilities nursery born dealings after)
    (balanced : born.supervisor.registry.Balanced)
    (began : born.supervisor.registry.accepts origin = true)
    (goesOn : after.supervisor.registry.accepts origin = true) :
    Dealing.heardFrom nursery origin dealings =
      voices origin (dealings.map Dealing.envelope) := by
  have issued : origin.serial < born.supervisor.registry.nextSerial :=
    balanced.serial_lt (Registry.serial_mem_of_accepts began)
  unfold Dealing.heardFrom voices
  rw [List.filterMap_map]
  refine List.filterMap_congr fun dealing member => ?_
  obtain ⟨earlier, later, rfl⟩ := List.append_of_mem member
  obtain ⟨middle, begun, _, found, onward⟩ := course.split
  have toDealing := begun.lasts.trans (nextEnvelope?_elapses found).1
  have dealt : Works facilities nursery dealing.interpreter _ :=
    dispatch_works dealing.interpreter dealing.envelope
  have toEnd := dealt.lasts.trans onward.lasts
  have accepted : dealing.interpreter.supervisor.registry.accepts origin = true :=
    toEnd.ages.newcomer origin goesOn (issued.trans_le toDealing.ages.issued)
  cases voice : dealing.envelope.voice? origin with
  | none => simp [voice]
  | some event =>
      have heard : dealing.heard? nursery = _ := heard_of_voice voice
      rw [accepted, if_pos rfl] at heard
      simp [voice, heard]

theorem Course.hears_nothing
    (course : Course facilities nursery before later after)
    (balanced : before.supervisor.registry.Balanced)
    (closed : before.supervisor.registry.HasClosed origin) :
    Dealing.heardFrom nursery origin later = [] := by
  unfold Dealing.heardFrom
  rw [List.filterMap_eq_nil_iff]
  intro dealing member
  obtain ⟨earlier, rest, rfl⟩ := List.append_of_mem member
  obtain ⟨middle, begun, _, found, _⟩ := course.split
  have lasted := begun.lasts.trans (nextEnvelope?_elapses found).1
  have rejected := (lasted.balanced balanced).not_accepts (lasted.ages.hasClosed closed)
  cases voice : dealing.envelope.voice? origin with
  | none => rfl
  | some event =>
      have heard : dealing.heard? nursery = _ := heard_of_voice voice
      rw [rejected] at heard
      exact heard

theorem receiveForward_heard
    {child : String} {event : Event}
    (member : origin ∈ forwardPartings nursery taken.supervisor child event) :
    ∃ error : ActorError, (taken.receiveForward nursery child event).heard =
      some (Event.errorActor origin.id error.message) := by
  obtain ⟨⟨error, failed⟩, rfl, _⟩ := mem_failing member
  refine ⟨error, ?_⟩
  unfold receiveForward
  dsimp only
  rw [failed]
  rfl

theorem failure_heard
    (member : origin ∈ taken.partings nursery envelope)
    (unsigned : envelope.signer? ≠ some origin) :
    ∃ error : ActorError, (taken.receive nursery envelope).heard =
      some (Event.errorActor origin.id error.message) := by
  cases envelope with
  | event sender event terminal =>
      cases sender with
      | none => cases member
      | some sender =>
          cases terminal with
          | false => cases member
          | true =>
              simp only [partings] at member
              split at member
              · exact absurd (congrArg some (List.mem_singleton.mp member).symm) unsigned
              · cases member
  | forward child event => exact receiveForward_heard member
  | wake child =>
      obtain ⟨⟨error, failed⟩, rfl, _⟩ := mem_failing member
      refine ⟨error, ?_⟩
      simp only [receive, receiveWake]
      rw [failed]
      rfl
  | timerFired timer delivery =>
      simp only [partings] at member
      split at member
      · rename_i accepted
        simp only [receive, accepted, if_true]
        rcases List.mem_cons.mp member with rfl | failing
        · exact absurd rfl unsigned
        · cases delivery with
          | event event => cases failing
          | parent event => cases failing
          | forward child event => exact receiveForward_heard failing
      · cases member
  | stop => cases member

end Interpreter

namespace Machine

open Interpreter in
/-- Let an actor run at some moment of its interpreter's life, and let its last be heard
later on.  All mail comes out of the mailbox in the order in which it was put in, and each
event of the actor that was read in between was heard, in that order.  If its last is an
event that it has signed, this event is heard, after all that it had sent before.  If it has
failed on being given something to do, its failure is heard at once, and then everything
that it has sent has been heard before exactly if nothing of it is left in the mailbox;
what is left is never heard.  Every run of a new or restored interpreter is such a life, for
all machines in it. -/
theorem last_words_heard_iff
    (machine : Machine ActorLogic) (facilities : Facilities) :
    (∀ (nursery : Nursery) (start born before taken : Interpreter)
        (lived dealings : List Dealing) (envelope : Envelope) (origin : Origin),
      start.Fresh → Course facilities nursery start lived born →
      Course facilities nursery born dealings before →
      before.status = .running → before.nextEnvelope? = some (envelope, taken) →
      born.supervisor.registry.accepts origin = true →
      origin ∈ taken.partings nursery envelope →
        let reception := taken.receive nursery envelope
        born.supervisor.inbox <+:
            dealings.map Dealing.envelope ++ envelope :: reception.readied.supervisor.inbox ∧
          Dealing.heardFrom nursery origin dealings =
            voices origin (dealings.map Dealing.envelope) ∧
          (∀ event, envelope.voice? origin = some event → reception.heard = some event) ∧
          (envelope.signer? ≠ some origin →
            (∃ error : ActorError,
              reception.heard = some (Event.errorActor origin.id error.message)) ∧
            (Dealing.heardFrom nursery origin dealings =
                voices origin (dealings.map Dealing.envelope ++
                  reception.readied.supervisor.inbox) ↔
              voices origin reception.readied.supervisor.inbox = [])) ∧
          ∀ later after,
            Course facilities nursery (leftBy (dispatch facilities nursery envelope) taken)
                later after →
              Dealing.heardFrom nursery origin later = []) ∧
    (∀ (start : Interpreter) (before after : List Operation) (first second : World),
      Begins machine start → first = (World.around facilities start).run before →
      second = first.run after →
        Reared facilities machine.generations first.interpreter ∧
          Passes facilities (Nursery.ofGenerations facilities machine.generations)
            first.interpreter second.interpreter) := by
  constructor
  · intro nursery start born before taken lived dealings envelope origin fresh toBorn course
      running found began parts reception
    have balanced := toBorn.lasts.balanced fresh.balanced
    have taking := (nextEnvelope?_elapses found).1
    obtain ⟨accepted, closed⟩ := parting_closed parts
    have stillRan : before.supervisor.registry.accepts origin = true := by
      rwa [(nextEnvelope?_eq found).2] at accepted
    have hears := course.hears balanced began stillRan
    have readied : Works facilities nursery taken reception.readied :=
      receive_works taken envelope
    have mail := course.mail (by rw [running]; rfl)
    rw [(nextEnvelope?_eq found).1] at mail
    refine ⟨?_, hears, ?_, ?_, ?_⟩
    · exact mail.trans ((List.prefix_append_right_inj _).mpr
        ((List.prefix_cons_inj _).mpr readied.proceeds.inbox))
    · intro event voice
      exact (heard_of_voice voice).trans (if_pos accepted)
    · intro unsigned
      refine ⟨failure_heard parts unsigned, ?_⟩
      rw [hears]
      unfold voices
      rw [List.filterMap_append, List.self_eq_append_right]
    · intro later after onward
      have dealt : Course facilities nursery born _ _ := .deal course running found
      exact onward.hears_nothing (dealt.lasts.balanced balanced) (dispatch_closes parts)
  · rintro start before after first second begins rfl rfl
    exact ⟨World.run_reared facilities begins before,
      World.run_course facilities begins before after rfl⟩

end Machine

namespace MachineSpec

/-- A root that starts a callback, which sends an event and then cannot start. -/
def starter : MachineSpec ActorLogic :=
  { root := .mk
      { key := "m"
        entry := [.spawn (some "w") (.callback fun _ =>
          { commands := [.send (Event.named "HELLO")], failure := some "boom" }) none] }
      []
    context := some fun _ => .null }

open Interpreter in
/-- The event that the callback has sent is heard before its failure to start. -/
theorem last_words_heard_starter :
    let machine : Machine ActorLogic := starter.machine fun _ => .null
    let facilities : Facilities := ⟨false, true, 1000⟩
    let nursery := Nursery.ofGenerations facilities machine.generations
    let start := create machine {}
    let worker : Origin := ⟨"w", 0⟩
    let hello := Envelope.sent worker (Event.named "HELLO")
    let report := Envelope.failed worker "Actor failed to start: boom"
    let born := leftBy (run facilities nursery (Event.init .null) Engine.firstStep)
      { start with status := .running }
    let greeted := born.onSupervisor fun supervisor => { supervisor with inbox := [report] }
    let before := leftBy (dispatch facilities nursery hello) greeted
    let taken := before.onSupervisor fun supervisor => { supervisor with inbox := [] }
    Course facilities nursery born [⟨greeted, hello⟩] before ∧
      before.nextEnvelope? = some (report, taken) ∧
      Dealing.heardFrom nursery worker [⟨greeted, hello⟩] =
        [Event.named "HELLO"] ∧
      (taken.receive nursery report).heard =
        some (Event.errorActor "w" "Actor failed to start: boom") := by
  intro machine facilities nursery start worker hello report born greeted before taken
  have begun : Course facilities nursery start [] born := .pause .rest (.begin start rfl rfl)
  have ready : born.supervisor.inbox = [hello, report] := by decide +kernel
  have left : before.supervisor.inbox = [report] := by decide +kernel
  have course : Course facilities nursery born [⟨greeted, hello⟩] before :=
    .deal .rest (by decide +kernel) (nextEnvelope?_of_inbox ready)
  have next : before.nextEnvelope? = some (report, taken) := nextEnvelope?_of_inbox left
  obtain ⟨_, heard, reported, _⟩ := (Machine.last_words_heard_iff machine facilities).1 nursery
    start born before taken [] _ report worker (fresh_create machine {}) begun course
    (by decide +kernel) next (by decide +kernel) (by decide +kernel)
  exact ⟨course, next, heard, reported _ rfl⟩

/-- A machine that answers its parent, and that fails on one event. -/
def pupil : MachineSpec ActorLogic :=
  { root := .mk
      { key := "kid"
        transitions :=
          [(.on "PING", { actions :=
              [.send .parent (fun _ _ => Event.named "HELLO") none none] }),
           (.on "BAD", { actions := [.assign "boom" fun _ _ => .error "boom"] })] }
      []
    context := some fun _ => .null }

/-- A root with the pupil as its child, which notes what it hears of it. -/
def teacher : MachineSpec ActorLogic :=
  { root := .mk
      { key := "m"
        entry := [.spawn (some "kid") (.machine (pupil.machine fun _ => .null)) none]
        transitions :=
          [(.on "HELLO", { actions := [.log none fun _ _ => "heard"] }),
           (.on "error.actor.kid", { actions := [.log none fun _ _ => "failed"] })] }
      []
    context := some fun _ => .null }

open Interpreter in
/-- The pupil answers, and before the answer is read it fails: its failure is heard and the
answer, though sent before, never is. -/
theorem last_words_lost_teacher :
    let machine : Machine ActorLogic := teacher.machine fun _ => .null
    let facilities : Facilities := ⟨false, true, 1000⟩
    let nursery := Nursery.ofGenerations facilities machine.generations
    let ping := Envelope.forward "kid" (Event.named "PING")
    let bad := Envelope.forward "kid" (Event.named "BAD")
    let kid : Origin := ⟨"kid", 0⟩
    let first := (World.around facilities (create machine {})).run
      [.start, .post ping, .post bad]
    let pinged := leftBy (dispatch facilities nursery ping)
      (first.interpreter.onSupervisor fun supervisor => { supervisor with inbox := [bad] })
    let second := first.run [.flush]
    teacher.build = .ok machine ∧
      first.interpreter.supervisor.inbox = [ping, bad] ∧
      pinged.supervisor.inbox = [bad, .sent kid (Event.named "HELLO")] ∧
      second.interpreter.status = .running ∧ second.interpreter.supervisor.inbox = [] ∧
      second.interpreter.supervisor.registry.closed = [(kid, .error)] ∧
      ⟨[], .logged "m" none "failed"⟩ ∈ second.log ∧
      ⟨[], .logged "m" none "heard"⟩ ∉ second.log :=
  ⟨build_of_faultless (by decide +kernel) rfl, by decide +kernel, by decide +kernel,
    by decide +kernel, by decide +kernel, by decide +kernel, by decide +kernel,
    by decide +kernel⟩

end MachineSpec

end Statechart
