import Statechart.Proofs.IdleInterpreters
import Statechart.Proofs.MailNotices

/-!
# Interpreters that forget nobody

As long as an interpreter goes on it forgets none of its child machines, whatever it is asked
for; and when it has dealt with its mail well, no mail is left in its mailbox.  A child machine
is an interpreter too, which forgets none of its own child machines, and so on.
-/

namespace Statechart

namespace Interpreter

section Failing

variable {facilities : Facilities} {nursery : Nursery} (interpreter : Interpreter)

theorem fail_status
    (failure : Failure) :
    (interpreter.fail nursery failure).status = .error := by
  unfold fail
  dsimp only
  exact (((stays_publish _).trans (stays_tellEnd _ _)).trans (stays_complete _)).status

theorem run_fails
    (event : Event) (step : Engine → Event → StepM Bool) :
    Ends (run facilities nursery event step) interpreter (fun _ _ => True)
      (fun _ after => after.status.isTerminal = true) := by
  simp only [run, ends_bind, ends_get]
  split
  · trivial
  · exact congrArg Status.isTerminal (fail_status _ _)

theorem stop_terminates :
    Ends (stop facilities nursery) interpreter (fun _ after => after.status.isTerminal = true)
      (fun _ after => after.status.isTerminal = true) := by
  simp only [stop, ends_bind, ends_get]
  split
  · have concluded : (interpreter.conclude facilities nursery Event.stop
        .stopped).2.status.isTerminal = true :=
      congrArg Status.isTerminal ((stays_publish _).trans (stays_complete _)).status
    simp only [stopRunning, ends_bind, ends_get, ends_set]
    split <;> exact concluded
  · exact congrArg Status.isTerminal (stays_complete _).status
  all_goals
    rename_i status
    exact congrArg Status.isTerminal status

theorem ends_dispatch
    {envelope : Envelope} {well : Unit → Interpreter → Prop}
    {ill : Failure → Interpreter → Prop}
    (goesOn : envelope ≠ .stop) :
    Ends (dispatch facilities nursery envelope) interpreter well ill ↔
      Ends (heed facilities nursery (interpreter.receive nursery envelope).heard)
        (interpreter.receive nursery envelope).readied well ill := by
  unfold Ends
  rw [dispatch_run interpreter goesOn]
  rfl

end Failing

/-- As long as it has not ended, the interpreter forgets none of its child machines. -/
def Watches (good : Interpreter → Prop) (interpreter : Interpreter) : Prop :=
  interpreter.status.isTerminal = false → interpreter.supervisor.Heeds good

/-- The interpreter has been started, forgets nobody, and has dealt with all its mail. -/
structure CatchesUp (good : Interpreter → Prop) (interpreter : Interpreter) : Prop where
  watches : interpreter.Watches good
  started : interpreter.status ≠ .notStarted
  read : interpreter.supervisor.inbox = []

/-- How an operation fails: the interpreter has ended or gives up, and forgets nobody. -/
structure BreaksOff (good : Interpreter → Prop) (failure : Failure)
    (interpreter : Interpreter) : Prop where
  watches : interpreter.Watches good
  ends : failure = .stalled .mailbox ∨ interpreter.status.isTerminal = true

/-- Nothing was to be done. -/
structure Unmoved (before after : Interpreter) : Prop where
  rests : before.status ≠ .running
  status : after.status = before.status
  supervisor : after.supervisor = before.supervisor

section Watching

variable {good : Interpreter → Prop} {facilities : Facilities} {nursery : Nursery}
variable {interpreter : Interpreter} (attends : nursery.Attends good)

theorem watches_of_ended
    (ended : interpreter.status.isTerminal = true) :
    interpreter.Watches good :=
  fun unended => absurd (ended.symm.trans unended) (by decide)

theorem inbox_of_nextEnvelope?
    (none : interpreter.nextEnvelope? = none) :
    interpreter.supervisor.inbox = [] := by
  unfold nextEnvelope? at none
  split at none
  · assumption
  · cases none

theorem Unmoved.watches
    {after : Interpreter}
    (unmoved : interpreter.Unmoved after)
    (watches : interpreter.Watches good) :
    after.Watches good := by
  intro unended
  rw [unmoved.supervisor]
  exact watches (unmoved.status ▸ unended)

theorem breaksOff_of_ended
    {failure : Failure}
    (ended : interpreter.status.isTerminal = true) :
    interpreter.BreaksOff good failure :=
  ⟨watches_of_ended ended, .inr ended⟩

include attends

theorem run_watches
    {step : Engine → Event → StepM Bool} {event : Event}
    (dutiful : Dutiful (interpreter.engine facilities nursery)
      (step (interpreter.engine facilities nursery) event))
    (heeds : interpreter.supervisor.Heeds good) :
    Ends (run facilities nursery event step) interpreter
      (fun _ after => after.Watches good) (fun failure after => after.BreaksOff good failure) :=
  ((run_routine interpreter event dutiful).and (run_fails interpreter event step)).mono
    (fun _ _ given _ => given.1.heeds attends heeds)
    (fun _ _ given => breaksOff_of_ended given.2)

theorem deal_watches
    {before : Interpreter} {envelope : Envelope}
    (running : before.status = .running)
    (found : before.nextEnvelope? = some (envelope, interpreter))
    (watches : before.Watches good) :
    Ends (dispatch facilities nursery envelope) interpreter
      (fun _ after => after.Watches good ∧ after.status ≠ .notStarted)
      (fun failure after => after.BreaksOff good failure) := by
  have dealt : Ends (dispatch facilities nursery envelope) interpreter
      (fun _ after => after.Watches good) (fun failure after => after.BreaksOff good failure) := by
    by_cases stops : envelope = .stop
    · subst stops
      exact (stop_terminates interpreter).mono (fun _ _ ended => watches_of_ended ended)
        (fun _ _ ended => breaksOff_of_ended ended)
    · have heeds := watches (congrArg Status.isTerminal running)
      obtain ⟨inbox, same⟩ := nextEnvelope?_eq found
      have heedsTaken : interpreter.supervisor.registry.Heeds good
          (envelope :: interpreter.supervisor.inbox) := by
        rw [← inbox, same]
        exact heeds
      have received : (interpreter.receive nursery envelope).readied.supervisor.Heeds
          good := receive_heeds attends heedsTaken
      rw [ends_dispatch interpreter stops]
      cases (interpreter.receive nursery envelope).heard with
      | none => exact fun _ => received
      | some event => exact run_watches attends (Engine.macrostep_dutiful _ event) received
  exact (dealt.and (deal_ends running found)).mono (fun _ _ given => ⟨given.1, given.2.2⟩)
    (fun _ _ given => given.1)

theorem drain_catchesUp
    (patience handled : Nat)
    (started : interpreter.status ≠ .notStarted)
    (watches : interpreter.Watches good) :
    Ends (drain facilities nursery patience handled) interpreter
      (fun _ after => after.CatchesUp good)
      (fun failure after => after.BreaksOff good failure) := by
  induction patience generalizing handled interpreter with
  | zero =>
      rw [drain, ends_bind, ends_get]
      split
      · rename_i ended
        exact ⟨watches_of_ended ended, started, rfl⟩
      · split
        · rename_i none
          exact ⟨watches, started, inbox_of_nextEnvelope? none⟩
        · exact ⟨watches, .inl rfl⟩
  | succ patience ih =>
      rw [drain, ends_bind, ends_get]
      split
      · rename_i ended
        exact ⟨watches_of_ended ended, started, rfl⟩
      · rename_i unended
        split
        · rename_i none
          exact ⟨watches, started, inbox_of_nextEnvelope? none⟩
        · rename_i envelope taken found
          simp only [ends_bind, ends_set]
          refine (deal_watches attends (Status.eq_running started unended) found watches).mono ?_
            (fun _ _ broken => broken)
          rintro _ middle ⟨stillWatches, stillStarted⟩
          exact ih (handled + 1) stillStarted stillWatches

theorem flush_catchesUp
    (started : interpreter.status ≠ .notStarted)
    (watches : interpreter.Watches good) :
    Ends (flush facilities nursery) interpreter (fun _ after => after.CatchesUp good)
      (fun failure after => after.BreaksOff good failure) := by
  simp only [flush, ends_bind, ends_get]
  rw [if_neg started]
  exact drain_catchesUp attends _ 0 started watches

theorem start_catchesUp
    (unstarted : interpreter.status = .notStarted)
    (heeds : interpreter.supervisor.Heeds good) :
    Ends (start facilities nursery) interpreter (fun _ after => after.CatchesUp good)
      (fun failure after => after.BreaksOff good failure) := by
  -- What follows the first step is the same for a new interpreter and a restored one.
  have onward : ∀ {middle : Interpreter},
      Routine facilities nursery { interpreter with status := .running } middle →
        middle.Watches good →
        Ends (flush facilities nursery) middle.recallDeferred
          (fun _ after => after.CatchesUp good)
          (fun failure after => after.BreaksOff good failure) := by
    intro middle routine watches
    have recalled : Routine facilities nursery middle middle.recallDeferred :=
      recallDeferred_routine middle
    refine flush_catchesUp attends ?_ fun unended => recalled.heeds attends (watches unended)
    exact fun rests => absurd (routine.started rests) (fun running => by cases running)
  simp only [start, ends_bind, ends_get]
  rw [if_pos unstarted]
  simp only [ends_bind, ends_set]
  split
  · have resumed : Routine facilities nursery { interpreter with status := .running }
        (({ interpreter with status := .running } : Interpreter).resume facilities nursery
          (Event.init interpreter.settings.input)) := resume_routine _ _
    simp only [ends_set, ends_bind, ends_modify, ends_pure]
    exact onward resumed fun _ => resumed.heeds attends heeds
  · have dutiful := Engine.firstStep_dutiful
      (({ interpreter with status := .running } : Interpreter).engine facilities nursery)
      (Event.init interpreter.settings.input)
    simp only [ends_bind, ends_modify, ends_pure]
    refine ((run_routine { interpreter with status := .running } _ dutiful).and
      (run_watches attends dutiful heeds)).mono ?_ (fun _ _ given => given.2)
    rintro _ middle ⟨routine, watches⟩
    exact onward routine watches

/-- Whoever is sent an event either deals with all mail, or does not run and lets its
mailbox be. -/
theorem send_mail
    (event : Event)
    (watches : interpreter.Watches good) :
    Ends (send facilities nursery event) interpreter
      (fun _ after => after.CatchesUp good ∨ interpreter.Unmoved after)
      (fun failure after => after.BreaksOff good failure) := by
  simp only [send, ends_bind, ends_get]
  split
  · rename_i unstarted _
    exact .inr ⟨by rw [unstarted]; decide, rfl, rfl⟩
  · rename_i unstarted _
    exact .inr ⟨by rw [unstarted]; decide, rfl, rfl⟩
  · rename_i running
    have kept : (interpreter.onSupervisor fun supervisor =>
        supervisor.keep (.plain event)).Watches good := fun unended =>
      (Supervisor.hears_keep interpreter.supervisor (.plain event)).heeds (watches unended)
    simp only [ends_bind, ends_set, ends_pure]
    refine (flush_catchesUp attends ?_ kept).mono (fun _ _ given => .inl given)
      (fun _ _ broken => broken)
    exact fun unstarted => absurd (running.symm.trans unstarted) (by decide)
  all_goals
    rename_i ended
    exact .inr ⟨by rw [ended]; decide, rfl, rfl⟩

theorem flush_mail
    (watches : interpreter.Watches good) :
    Ends (flush facilities nursery) interpreter
      (fun _ after => after.CatchesUp good ∨ interpreter.Unmoved after)
      (fun failure after => after.BreaksOff good failure) := by
  by_cases unstarted : interpreter.status = .notStarted
  · simp only [flush, ends_bind, ends_get]
    rw [if_pos unstarted]
    exact .inr ⟨by rw [unstarted]; decide, rfl, rfl⟩
  · exact (flush_catchesUp attends unstarted watches).mono (fun _ _ given => .inl given)
      (fun _ _ broken => broken)

theorem tick_mail
    (watches : interpreter.Watches good) :
    Ends (tick facilities nursery) interpreter
      (fun _ after => after.CatchesUp good ∨ interpreter.Unmoved after)
      (fun failure after => after.BreaksOff good failure) := by
  simp only [tick, ends_bind, ends_get]
  split
  · rename_i running
    have started : interpreter.status ≠ .notStarted :=
      fun unstarted => absurd (running.symm.trans unstarted) (by decide)
    split
    · rename_i none
      exact .inl ⟨watches, started, inbox_of_nextEnvelope? none⟩
    · rename_i envelope taken found
      simp only [ends_bind, ends_set, ends_pure]
      refine (deal_watches attends running found watches).mono ?_ (fun _ _ broken => broken)
      rintro _ middle ⟨stillWatches, stillStarted⟩
      exact (flush_catchesUp attends stillStarted stillWatches).mono
        (fun _ _ given => .inl given) (fun _ _ broken => broken)
  · simp only [ends_bind, ends_pure]
    exact flush_mail attends watches

end Watching

/-- The interpreter forgets none of its child machines as long as it has not ended, and no
more do these, as far as they are not about to be removed. -/
inductive Alert : Interpreter → Prop where
  | ended {interpreter : Interpreter} :
      interpreter.status.isTerminal = true → Alert interpreter
  | watching {interpreter : Interpreter} :
      (∀ origin child reported,
        interpreter.supervisor.registry.childMachine? origin = some (child, reported) →
          child.Heeded (fun child => child.status ≠ .notStarted) interpreter.supervisor.inbox
            origin) →
      (∀ origin child reported,
        interpreter.supervisor.registry.childMachine? origin = some (child, reported) →
          (∀ event, .event (some origin) event true ∉ interpreter.supervisor.inbox) →
            Alert child) →
      Alert interpreter

/-- A child machine that has been started and is alert. -/
structure Wakeful (child : Interpreter) : Prop where
  started : child.status ≠ .notStarted
  alert : child.Alert

theorem alert_iff
    {interpreter : Interpreter} :
    interpreter.Alert ↔ interpreter.Watches Wakeful := by
  constructor
  · intro alert
    cases alert with
    | ended ended => exact watches_of_ended ended
    | watching heeded alert =>
        intro _ origin child reported found
        by_cases leaves : ∃ event, .event (some origin) event true ∈ interpreter.supervisor.inbox
        · obtain ⟨event, waiting⟩ := leaves
          exact .leaving event waiting
        · have stays := not_exists.mp leaves
          have isAlert := alert origin child reported found stays
          cases heeded origin child reported found with
          | leaving event waiting => exact absurd waiting (stays event)
          | resting started empty => exact .resting ⟨started, isAlert⟩ empty
          | noticed started waiting => exact .noticed ⟨started, isAlert⟩ waiting
  · intro watches
    cases ended : interpreter.status.isTerminal with
    | true => exact .ended ended
    | false =>
        have heeds := watches ended
        apply Alert.watching
        · intro origin child reported found
          cases heeds origin child reported found with
          | leaving event waiting => exact .leaving event waiting
          | resting wakeful empty => exact .resting wakeful.started empty
          | noticed wakeful waiting => exact .noticed wakeful.started waiting
        · intro origin child reported found stays
          cases heeds origin child reported found with
          | leaving event waiting => exact absurd waiting (stays event)
          | resting wakeful => exact wakeful.alert
          | noticed wakeful => exact wakeful.alert

theorem CatchesUp.wakeful
    {interpreter : Interpreter}
    (catchesUp : interpreter.CatchesUp Wakeful) :
    interpreter.drained.Wakeful :=
  ⟨catchesUp.started, alert_iff.mpr catchesUp.watches⟩

theorem alert_of_vacant
    {interpreter : Interpreter}
    (vacant : interpreter.supervisor.registry.actors = []) :
    interpreter.Alert :=
  alert_iff.mpr fun _ => Registry.heeds_of_vacant vacant

theorem Alert.accept
    {envelope : Envelope} {path : List Origin} {before after : Interpreter}
    (alert : before.Alert)
    (accepted : accept? envelope path before = some after) :
    after.Alert := by
  have status := (accept_turns accepted).2.1
  induction path generalizing before after with
  | nil =>
      obtain rfl := Option.some.inj accepted
      rw [alert_iff] at alert ⊢
      exact fun unended =>
        (Supervisor.hears_keep before.supervisor envelope).heeds (alert unended)
  | cons origin path ih =>
      obtain ⟨child, reported, grown, found, grew, rfl⟩ := accept?_cons.mp accepted
      rw [alert_iff] at alert ⊢
      intro unended
      have heeds := alert unended
      have grownStatus := (accept_turns grew).2.1
      have grownWakeful : child.Wakeful → grown.Wakeful := fun wakeful =>
        ⟨grownStatus ▸ wakeful.started, ih wakeful.alert grew grownStatus⟩
      have updated : (before.supervisor.registry.update origin.id
          (.machine grown reported)).Heeds Wakeful
            (before.supervisor.inbox ++ [.wake origin.id]) := by
        have mail : before.supervisor.inbox ⊆ before.supervisor.inbox ++ [.wake origin.id] :=
          List.subset_append_left _ _
        refine Registry.HeedsOthers.heeds_update ((heeds.mono mail).others origin.id)
          (Registry.accepts_of_childMachine? found) ?_
        have notice : .wake origin.id ∈ before.supervisor.inbox ++ [.wake origin.id] :=
          List.mem_append_right _ List.mem_cons_self
        cases heeds origin child reported found with
        | leaving event waiting => exact .leaving event (mail waiting)
        | resting wakeful => exact .noticed (grownWakeful wakeful) notice
        | noticed wakeful => exact .noticed (grownWakeful wakeful) notice
      exact updated

/-- At each level, what an interpreter does with its child machines leaves them awake. -/
theorem attends_wakeful
    (facilities : Facilities) (generations : Nat) :
    (Nursery.ofGenerations facilities generations).Attends Wakeful := by
  induction generations with
  | zero =>
      exact
        { start := fun _ _ _ => trivial
          receive := fun _ _ _ => trivial
          wake := fun _ _ => trivial }
  | succ generations ih =>
      have caughtUp : ∀ {after : Interpreter}, after.CatchesUp Wakeful →
          after.drained.Wakeful ∧ after.supervisor.inbox = [] :=
        fun catchesUp => ⟨catchesUp.wakeful, catchesUp.read⟩
      constructor
      · intro machine self input
        have unstaffed : (Interpreter.child machine self input).supervisor.Heeds Wakeful :=
          Registry.heeds_of_vacant rfl
        exact (start_catchesUp ih rfl unstaffed).mono (fun _ _ given => caughtUp given)
          (fun _ _ _ => trivial)
      · intro event child wakeful
        refine (send_mail ih event (alert_iff.mp wakeful.alert)).mono ?_ (fun _ _ _ => trivial)
        rintro _ after (given | unmoved)
        · exact ⟨(caughtUp given).1, .inl given.read⟩
        · have watches := unmoved.watches (alert_iff.mp wakeful.alert)
          exact ⟨⟨unmoved.status ▸ wakeful.started, alert_iff.mpr watches⟩,
            .inr (congrArg Supervisor.inbox unmoved.supervisor)⟩
      · intro child wakeful
        simp only [Nursery.ofGenerations, ends_bind, ends_pure]
        exact (flush_catchesUp ih wakeful.started (alert_iff.mp wakeful.alert)).mono
          (fun _ _ given => caughtUp given) (fun _ _ _ => trivial)

end Interpreter

end Statechart
