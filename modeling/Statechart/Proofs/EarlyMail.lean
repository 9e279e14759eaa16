import Statechart.Proofs.Building
import Statechart.Proofs.DrainedMailboxes
import Statechart.Proofs.MessageOrder

/-!
# Events before the start

Before its start an interpreter can be sent events, which wait for the start or are dropped
as it is set to do; and events can be put into its mailbox, where they lie whatever it is
set to do.  The start takes the first step, puts the events that wait behind all mail, and
deals with the mail in its order.
-/

namespace Statechart

namespace Interpreter

/-- The right interpreter is set up as the left one, and the same events wait for a start. -/
structure Retains (before after : Interpreter) : Prop where
  settings : after.settings = before.settings
  deferred : after.deferred = before.deferred

section Retaining

variable {facilities : Facilities} {nursery : Nursery}

theorem Retains.refl (interpreter : Interpreter) : interpreter.Retains interpreter :=
  ⟨rfl, rfl⟩

theorem Retains.trans
    {first second third : Interpreter}
    (earlier : first.Retains second)
    (later : second.Retains third) :
    first.Retains third :=
  ⟨later.settings.trans earlier.settings, later.deferred.trans earlier.deferred⟩

theorem Tells.retains
    {kind : Activity → Prop} {before after : Interpreter}
    (tells : Tells kind before after) :
    before.Retains after := by
  cases tells with
  | reveal isOfKind => exact ⟨rfl, rfl⟩
  | react ticket reaction => cases reaction <;> exact ⟨rfl, rfl⟩
  | prune => exact ⟨rfl, rfl⟩

theorem Tellings.retains
    {kind : Activity → Prop} {before after : Interpreter}
    (tellings : Tellings kind before after) :
    before.Retains after :=
  fulfils_of_steps Retains.refl Retains.trans Tells.retains tellings

variable (interpreter : Interpreter)

theorem retains_publish : interpreter.Retains interpreter.publish :=
  (tellings_publish interpreter).retains

theorem retains_complete : interpreter.Retains interpreter.complete :=
  (tellings_tellEnd interpreter _).retains.trans ⟨rfl, rfl⟩

theorem retains_conclude
    (event : Event) (status : Status) :
    interpreter.Retains (interpreter.conclude facilities nursery event status).2 := by
  refine Retains.trans ?_ ((retains_publish _).trans (retains_complete _))
  exact ⟨rfl, rfl⟩

theorem retains_settle
    (event : Event) (handled : Bool) (bench : Workbench) :
    interpreter.Retains (interpreter.settle facilities nursery event handled bench) := by
  have kept : interpreter.Retains (interpreter.keepSupervisor bench) := ⟨rfl, rfl⟩
  have reported := kept.trans (tellings_reported interpreter event handled bench).retains
  have taken : interpreter.Retains (interpreter.steppedTo event handled bench) :=
    ⟨reported.settings, reported.deferred⟩
  rw [settle_eq]
  split
  · exact taken.trans (retains_conclude _ event .done)
  · refine taken.trans (Retains.trans ?_ (retains_publish _))
    exact ⟨rfl, rfl⟩

theorem retains_abandon
    (event : Event) (failure : Failure) (bench : Workbench) :
    interpreter.Retains (interpreter.abandon nursery event failure bench) := by
  have kept : interpreter.Retains (interpreter.keepSupervisor bench) := ⟨rfl, rfl⟩
  refine (kept.trans (tellings_reported interpreter event true bench).retains).trans ?_
  unfold abandon fail
  refine Retains.trans ?_ ((retains_publish _).trans
    ((tellings_tellEnd _ _).retains.trans (retains_complete _)))
  exact ⟨rfl, rfl⟩

theorem run_retains
    (event : Event) (step : Engine → Event → StepM Bool) :
    interpreter.Retains (leftBy (run facilities nursery event step) interpreter) := by
  apply Ends.leftBy
  simp only [run, ends_bind, ends_get]
  split
  · exact retains_settle interpreter event _ _
  · exact retains_abandon interpreter event _ _

theorem resume_retains
    (event : Event) :
    interpreter.Retains (interpreter.resume facilities nursery event) := by
  unfold resume
  split
  · refine Retains.trans ?_ ((retains_publish _).trans (retains_complete _))
    exact ⟨rfl, rfl⟩
  · refine Retains.trans ?_ (retains_publish _)
    exact ⟨rfl, rfl⟩

end Retaining

section Draining

variable (facilities : Facilities) (nursery : Nursery)

/-- How so much mail is dealt with, one envelope after another, until there is none left,
one cannot be dealt with, or the interpreter has ended. -/
def dealings : Nat → Interpreter → List Dealing
  | 0, _ => []
  | patience + 1, interpreter =>
      if interpreter.status.isTerminal then []
      else
        match interpreter.nextEnvelope? with
        | none => []
        | some (envelope, taken) =>
            { interpreter := taken, envelope } ::
              match (dispatch facilities nursery envelope).run taken with
              | .ok _ after => dealings patience after
              | .error _ _ => []

/-- The interpreter when its start has taken the first step, or has taken up what was
restored. -/
def awakened (interpreter : Interpreter) : Interpreter :=
  let event := Event.init interpreter.settings.input
  if interpreter.restored then
    ({ interpreter with status := .running } : Interpreter).resume facilities nursery event
  else
    leftBy (run facilities nursery event Engine.firstStep)
      { interpreter with status := .running }

/-- How the mail is dealt with at the start. -/
def firstDealings (interpreter : Interpreter) : List Dealing :=
  dealings facilities nursery facilities.patience
    (interpreter.awakened facilities nursery).recallDeferred

variable {facilities nursery}

/-- Dealing with all mail goes through these dealings, and unless the interpreter has ended
no mail is left. -/
theorem drain_deals
    (patience handled : Nat) {interpreter : Interpreter}
    (started : interpreter.status ≠ .notStarted) :
    Ends (drain facilities nursery patience handled) interpreter
      (fun _ after =>
        Course facilities nursery interpreter (dealings facilities nursery patience interpreter)
          after ∧
        (after.status = .running → after.supervisor.inbox = []))
      (fun _ _ => True) := by
  induction patience generalizing handled interpreter with
  | zero =>
      rw [drain, ends_bind, ends_get]
      split
      · rename_i ended
        exact ⟨.pause .rest (.clear interpreter ended), fun _ => rfl⟩
      · split
        · rename_i none
          exact ⟨.rest, fun _ => inbox_of_nextEnvelope? none⟩
        · trivial
  | succ patience ih =>
      rw [drain, dealings, ends_bind, ends_get]
      split
      · rename_i ended
        exact ⟨.pause .rest (.clear interpreter ended), fun _ => rfl⟩
      · rename_i unended
        cases found : interpreter.nextEnvelope? with
        | none => exact ⟨.rest, fun _ => inbox_of_nextEnvelope? found⟩
        | some next =>
            obtain ⟨envelope, taken⟩ := next
            simp only [ends_bind, ends_set]
            refine ends_iff_run.mpr ⟨fun _ middle ran => ?_, fun _ _ _ => trivial⟩
            have left : leftBy (dispatch facilities nursery envelope) taken = middle := by
              rw [leftBy, ran]
            have running := Status.eq_running started unended
            have dealt : Course facilities nursery interpreter [⟨taken, envelope⟩] middle :=
              left ▸ .deal .rest running found
            have stillStarted : middle.status ≠ .notStarted := by
              intro unstarted
              have works : Works facilities nursery taken middle :=
                left ▸ dispatch_works taken envelope
              have status :=
                (nextEnvelope?_elapses found).2.symm.trans (works.started unstarted)
              exact absurd (running.symm.trans status) (by decide)
            simp only [ran]
            exact (ih (handled + 1) stillStarted).mono
              (fun _ _ onward => ⟨dealt.trans onward.1, onward.2⟩) (fun _ _ _ => trivial)

variable {interpreter : Interpreter}

theorem awakened_started :
    (interpreter.awakened facilities nursery).status ≠ .notStarted := by
  have works : Works facilities nursery { interpreter with status := .running }
      (interpreter.awakened facilities nursery) := by
    unfold awakened
    split
    · exact resume_works _ _
    · exact firstStep_works _ _
  exact fun asleep => absurd (works.started asleep) (fun running => by cases running)

/-- Nothing that waits is dealt with before the mail is, and all mail of before comes first. -/
theorem awakened_keeps :
    (interpreter.awakened facilities nursery).deferred = interpreter.deferred ∧
      interpreter.supervisor.inbox <+:
        (interpreter.awakened facilities nursery).supervisor.inbox := by
  unfold awakened
  split
  · have works : Works facilities nursery { interpreter with status := .running } _ :=
      resume_works (Event.init interpreter.settings.input) _
    exact ⟨(resume_retains { interpreter with status := .running } _).deferred,
      works.proceeds.inbox⟩
  · have works : Works facilities nursery { interpreter with status := .running } _ :=
      firstStep_works (Event.init interpreter.settings.input) _
    exact ⟨(run_retains { interpreter with status := .running } _ _).deferred,
      works.proceeds.inbox⟩

/-- A start that goes well goes through its dealings, and if the interpreter goes on no mail
is left. -/
theorem start_deals
    (unstarted : interpreter.status = .notStarted) :
    Ends (start facilities nursery) interpreter
      (fun _ after =>
        Course facilities nursery (interpreter.awakened facilities nursery).recallDeferred
          (interpreter.firstDealings facilities nursery) after ∧
        (after.status = .running → after.supervisor.inbox = []))
      (fun _ _ => True) := by
  have begun : (interpreter.awakened facilities nursery).status ≠ .notStarted :=
    awakened_started
  have dealt : Ends (flush facilities nursery)
      (interpreter.awakened facilities nursery).recallDeferred
      (fun _ after =>
        Course facilities nursery (interpreter.awakened facilities nursery).recallDeferred
          (interpreter.firstDealings facilities nursery) after ∧
        (after.status = .running → after.supervisor.inbox = []))
      (fun _ _ => True) := by
    simp only [flush, ends_bind, ends_get]
    rw [if_neg (by exact begun)]
    exact drain_deals facilities.patience 0 begun
  simp only [start, ends_bind, ends_get, if_pos unstarted, ends_set]
  split
  · rename_i restored
    have woken : interpreter.awakened facilities nursery = _ := if_pos restored
    rw [woken] at dealt ⊢
    simp only [ends_set, ends_bind, ends_modify, ends_pure]
    exact dealt
  · rename_i new
    have woken : interpreter.awakened facilities nursery = _ := if_neg new
    rw [woken] at dealt ⊢
    simp only [ends_bind, ends_modify, ends_pure]
    exact (ends_leftBy _ _).mono (fun _ _ same => same ▸ dealt) (fun _ _ _ => trivial)

end Draining

end Interpreter

theorem filter_append_filter_eq_iff
    {item : Type} {first : item → Bool} {items : List item} :
    items.filter first ++ items.filter (fun item => !first item) = items ↔
      items.Pairwise fun earlier later => first later = true → first earlier = true := by
  induction items with
  | nil => simp
  | cons item items ih =>
      rw [List.pairwise_cons, ← ih]
      cases chosen : first item with
      | true => simp [chosen]
      | false =>
          simp only [List.filter_cons, chosen, Bool.not_false, if_true, Bool.false_eq_true,
            if_false, imp_false]
          constructor
          · intro same
            have none : items.filter first = [] := by
              cases found : items.filter first with
              | nil => rfl
              | cons head rest =>
                  have member : head ∈ items.filter first := found ▸ List.mem_cons_self
                  rw [found] at same
                  obtain rfl : head = item := (List.cons.inj same).1
                  exact absurd (chosen.symm.trans (List.mem_filter.mp member).2) (by decide)
            rw [none, List.nil_append] at same ⊢
            exact ⟨List.filter_eq_nil_iff.mp none, (List.cons.inj same).2⟩
          · rintro ⟨last, same⟩
            rw [List.filter_eq_nil_iff.mpr last, List.nil_append] at same ⊢
            rw [same]

/-- A way to give an interpreter an event before its start. -/
inductive EarlyCall where
  | send (event : Event)
  /-- Put it into the mailbox. -/
  | post (event : Event)
  deriving DecidableEq

namespace EarlyCall

def event : EarlyCall → Event
  | .send event => event
  | .post event => event

def isPost : EarlyCall → Bool
  | .send _ => false
  | .post _ => true

def operation : EarlyCall → Operation
  | .send event => .send event
  | .post event => .post (.plain event)

/-- The calls whose events wait for the start. -/
def waiting (preStart : PreStart) (calls : List EarlyCall) : List EarlyCall :=
  match preStart with
  | .defer => calls.filter fun call => !call.isPost
  | .drop => []

section Waiting

variable {calls : List EarlyCall}

theorem waiting_append
    (preStart : PreStart) (earlier later : List EarlyCall) :
    waiting preStart (earlier ++ later) = waiting preStart earlier ++ waiting preStart later := by
  cases preStart with
  | defer => exact List.filter_append earlier later
  | drop => rfl

theorem posted_append_waiting_eq_iff :
    calls.filter isPost ++ waiting .defer calls = calls ↔
      calls.Pairwise fun earlier later => later.isPost = true → earlier.isPost = true :=
  filter_append_filter_eq_iff

theorem posted_append_waiting_eq_nil_iff :
    calls.filter isPost ++ waiting .drop calls = [] ↔ ∀ call ∈ calls, call.isPost = false := by
  simp [waiting]

end Waiting

end EarlyCall

namespace Interpreter

theorem send_early
    {facilities : Facilities} {nursery : Nursery} {interpreter : Interpreter}
    (event : Event)
    (unstarted : interpreter.status = .notStarted) :
    leftBy (send facilities nursery event) interpreter =
      { interpreter with
        deferred := interpreter.deferred ++
          (EarlyCall.waiting interpreter.settings.preStart [.send event]).map
            EarlyCall.event } := by
  obtain ⟨machine, ⟨id, input, limit, preStart⟩, status, state, snapshot, supervisor, deferred,
    board, restored⟩ := interpreter
  obtain rfl : status = .notStarted := unstarted
  cases preStart with
  | defer => rfl
  | drop =>
      simp only [EarlyCall.waiting, List.map_nil, List.append_nil]
      rfl

end Interpreter

namespace World

/-- The right world is the left one after these calls. -/
structure CalledUpon (calls : List EarlyCall) (before after : World) : Prop where
  driven : after.stage = .driven
  unstarted : after.interpreter.status = .notStarted
  settings : after.interpreter.settings = before.interpreter.settings
  deferred : after.interpreter.deferred = before.interpreter.deferred ++
    (EarlyCall.waiting before.interpreter.settings.preStart calls).map EarlyCall.event
  inbox : after.interpreter.supervisor.inbox = before.interpreter.supervisor.inbox ++
    (calls.filter EarlyCall.isPost).map fun call => .plain call.event

section Calling

variable {calls : List EarlyCall} {world : World}
variable (driven : world.stage = .driven)
variable (unstarted : world.interpreter.status = .notStarted)

include driven unstarted

theorem calledUpon_once
    (call : EarlyCall) :
    CalledUpon [call] world (world.act call.operation) := by
  cases call with
  | send event =>
      have left : world.act (.send event) = world.takeUp (leftBy _ world.interpreter) :=
        perform_leaves (fun facilities nursery => Interpreter.send facilities nursery event) world
      rw [Interpreter.send_early event unstarted] at left
      have taken : (world.act (.send event)).interpreter = Interpreter.drained _ :=
        (congrArg World.interpreter left).trans (takeUp_interpreter world _)
      refine ⟨?_, ?_, ?_, ?_, ?_⟩
      · rw [EarlyCall.operation, left]
        exact (attendAll_stage _ _).trans driven
      · rw [EarlyCall.operation, taken]
        exact unstarted
      · rw [EarlyCall.operation, taken]
        rfl
      · rw [EarlyCall.operation, taken]
        rfl
      · rw [EarlyCall.operation, taken]
        exact (List.append_nil _).symm
  | post event =>
      have posted : world.act (.post (.plain event)) =
          { world with interpreter := world.interpreter.onSupervisor fun supervisor =>
              supervisor.keep (.plain event) } := by
        simp only [act, post, deliver, rouse, Interpreter.accept?, driven, Stage.isOver]
        rfl
      have none : EarlyCall.waiting world.interpreter.settings.preStart [.post event] = [] := by
        cases world.interpreter.settings.preStart <;> rfl
      rw [EarlyCall.operation, posted]
      refine ⟨driven, unstarted, rfl, ?_, rfl⟩
      rw [none]
      exact (List.append_nil _).symm

theorem calledUpon_run :
    CalledUpon calls world (world.run (calls.map EarlyCall.operation)) := by
  induction calls generalizing world with
  | nil =>
      have none : EarlyCall.waiting world.interpreter.settings.preStart [] = [] := by
        cases world.interpreter.settings.preStart <;> rfl
      refine ⟨driven, unstarted, rfl, ?_, (List.append_nil _).symm⟩
      rw [none]
      exact (List.append_nil _).symm
  | cons call calls ih =>
      have first := calledUpon_once driven unstarted call
      have others := ih first.driven first.unstarted
      refine ⟨others.driven, others.unstarted, others.settings.trans first.settings, ?_, ?_⟩
      · refine others.deferred.trans ?_
        rw [first.deferred, first.settings, List.append_assoc, ← List.map_append,
          ← EarlyCall.waiting_append, List.singleton_append]
      · refine others.inbox.trans ?_
        rw [first.inbox, List.append_assoc, ← List.map_append, ← List.filter_append,
          List.singleton_append]

end Calling

end World

namespace Dealing

theorem heard_of_plain
    {nursery : Nursery} {dealings : List Dealing} {events : List Event}
    (plain : dealings.map Dealing.envelope = events.map Envelope.plain) :
    dealings.map (heard? nursery) = events.map some := by
  induction dealings generalizing events with
  | nil => rw [List.map_eq_nil_iff.mp plain.symm, List.map_nil, List.map_nil]
  | cons dealing dealings ih =>
      cases events with
      | nil => cases plain
      | cons event events =>
          obtain ⟨here, others⟩ := List.cons.inj plain
          have heard : dealing.heard? nursery = some event := by
            rw [heard?, here]
            rfl
          rw [List.map_cons, List.map_cons, heard, ih others]

end Dealing

namespace Interpreter

/-- Let events be sent to an interpreter that has not been started, and others be put into
its mailbox, in any order, and let its start go well and the interpreter go on.  Then the
start deals with all mail: first with the events that were put into the mailbox, then with
the mail of its first step, then with the events that were sent, if they wait, and then with
what has come in meanwhile, and each of the events is heard.  So if events wait for the start
they are heard in the order of the calls exactly if all that were put into the mailbox were
so before any was sent; and if they are dropped none is heard exactly if none was put into
the mailbox. -/
theorem early_events_heard_iff
    (facilities : Facilities) (fresh : Interpreter) (calls : List EarlyCall)
    (unstarted : fresh.status = .notStarted)
    (undeferred : fresh.deferred = [])
    (unposted : fresh.supervisor.inbox = [])
    (goesWell : (((World.around facilities fresh).run
      (calls.map EarlyCall.operation)).perform start).1 = .ok ())
    (goesOn : (((World.around facilities fresh).run
      (calls.map EarlyCall.operation)).perform start).2.interpreter.status = .running) :
    let world := (World.around facilities fresh).run (calls.map EarlyCall.operation)
    let posted := calls.filter EarlyCall.isPost
    let waiting := EarlyCall.waiting fresh.settings.preStart calls
    let awakened := world.interpreter.awakened world.facilities world.nursery
    let dealings := world.interpreter.firstDealings world.facilities world.nursery
    (∃ left, Course world.facilities world.nursery awakened.recallDeferred dealings left ∧
        left.supervisor.inbox = [] ∧ (world.perform start).2.interpreter = left.drained) ∧
      (∃ first meanwhile second later : List Dealing,
        dealings = first ++ meanwhile ++ second ++ later ∧
          awakened.supervisor.inbox = (first ++ meanwhile).map Dealing.envelope ∧
          first.map (Dealing.heard? world.nursery) =
            (posted.map EarlyCall.event).map some ∧
          second.map (Dealing.heard? world.nursery) =
            (waiting.map EarlyCall.event).map some) ∧
      (fresh.settings.preStart = .defer →
        (posted ++ waiting = calls ↔
          calls.Pairwise fun earlier later => later.isPost = true → earlier.isPost = true)) ∧
      (fresh.settings.preStart = .drop →
        (posted ++ waiting = [] ↔ ∀ call ∈ calls, call.isPost = false)) := by
  intro world posted waiting awakened dealings
  have called : World.CalledUpon calls (World.around facilities fresh) world :=
    World.calledUpon_run rfl unstarted
  have deferred : world.interpreter.deferred = waiting.map EarlyCall.event := by
    rw [called.deferred]
    exact congrArg (· ++ _) undeferred
  have inbox : world.interpreter.supervisor.inbox =
      (posted.map EarlyCall.event).map Envelope.plain := by
    rw [called.inbox, List.map_map]
    exact congrArg (· ++ _) unposted
  have deals : Ends (start world.facilities world.nursery) world.interpreter _ _ :=
    start_deals called.unstarted
  obtain ⟨left, ran, same⟩ := World.perform_eq_ok goesWell
  have running : left.status = .running := by
    rw [same] at goesOn
    exact goesOn
  obtain ⟨course, read⟩ := (ends_iff_run.mp deals).1 () left ran
  refine ⟨⟨left, course, read running, same⟩, ?_, fun defers => ?_, fun drops => ?_⟩
  · obtain ⟨kept, mail, grown⟩ : awakened.deferred = world.interpreter.deferred ∧
        world.interpreter.supervisor.inbox <+: awakened.supervisor.inbox := awakened_keeps
    obtain ⟨rest, dealt⟩ := course.mail (by rw [running]; rfl)
    rw [recallDeferred_eq, kept, deferred, ← grown, inbox, read running, List.append_nil] at dealt
    obtain ⟨served, later, split, served', _⟩ := List.map_eq_append_iff.mp dealt.symm
    obtain ⟨early, second, rfl, early', isSecond⟩ := List.map_eq_append_iff.mp served'
    obtain ⟨first, meanwhile, rfl, isFirst, isMeanwhile⟩ := List.map_eq_append_iff.mp early'
    refine ⟨first, meanwhile, second, later, split, ?_, Dealing.heard_of_plain isFirst,
      Dealing.heard_of_plain isSecond⟩
    rw [← grown, inbox, List.map_append, isFirst, isMeanwhile]
  · have waits : waiting = EarlyCall.waiting .defer calls :=
      congrArg (EarlyCall.waiting · calls) defers
    rw [waits]
    exact EarlyCall.posted_append_waiting_eq_iff
  · have waits : waiting = EarlyCall.waiting .drop calls :=
      congrArg (EarlyCall.waiting · calls) drops
    rw [waits]
    exact EarlyCall.posted_append_waiting_eq_nil_iff

end Interpreter

namespace MachineSpec

/-- A gate that is opened and closed. -/
def gate : MachineSpec ActorLogic :=
  { root := .mk { key := "m" }
      [.mk { key := "closed", transitions := [(.on "OPEN", .toTarget "open")] } [],
       .mk { key := "open", transitions := [(.on "CLOSE", .toTarget "closed")] } []]
    context := some fun _ => .null }

open Interpreter in
/-- What is put into the mailbox first and what is sent then is heard in this order. -/
theorem early_events_heard_gate :
    let machine : Machine ActorLogic := gate.machine fun _ => .null
    let calls : List EarlyCall := [.post (Event.named "OPEN"), .send (Event.named "CLOSE")]
    let world := (World.around ⟨false, true, 1000⟩ (create machine {})).run
      (calls.map EarlyCall.operation)
    ∃ first meanwhile second later : List Dealing,
      world.interpreter.firstDealings world.facilities world.nursery =
          first ++ meanwhile ++ second ++ later ∧
        first.map (Dealing.heard? world.nursery) =
          [some (Event.named "OPEN")] ∧
        second.map (Dealing.heard? world.nursery) =
          [some (Event.named "CLOSE")] := by
  intro machine calls world
  obtain ⟨_, ⟨first, meanwhile, second, later, dealt, _, heardFirst, heardSecond⟩, _⟩ :=
    early_events_heard_iff ⟨false, true, 1000⟩ (create machine {}) calls rfl rfl rfl
      (by decide +kernel) (by decide +kernel)
  exact ⟨first, meanwhile, second, later, dealt, heardFirst, heardSecond⟩

open Interpreter in
/-- The gate is told to open and then to close: it hears the second before the first and
stays open.  And told to drop what it is sent before the start, it opens. -/
theorem early_events_not_heard_in_order_gate :
    let machine : Machine ActorLogic := gate.machine fun _ => .null
    let opening := Event.named "OPEN"
    let closing := Event.named "CLOSE"
    let ordered := (World.around ⟨false, true, 1000⟩ (create machine {})).run
      [.send opening, .post (.plain closing)]
    let dropped := (World.around ⟨false, true, 1000⟩ (create machine { preStart := .drop })).run
      [.send opening, .post (.plain opening)]
    (ordered.perform start).1 = .ok () ∧
      (ordered.perform start).2.interpreter.snapshot.status = .running ∧
      (ordered.interpreter.firstDealings ordered.facilities ordered.nursery).filterMap
        (Dealing.heard? ordered.nursery) = [closing, opening] ∧
      (ordered.perform start).2.interpreter.snapshot.active = [0, 2] ∧
    (dropped.perform start).1 = .ok () ∧
      (dropped.interpreter.firstDealings dropped.facilities dropped.nursery).filterMap
        (Dealing.heard? dropped.nursery) = [opening] := by
  decide +kernel

end MachineSpec

end Statechart
