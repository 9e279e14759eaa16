import Statechart.Proofs.Receptions
import Statechart.Simulation.Posting

/-!
# The course of an interpreter's life

An interpreter deals with one envelope after another.  In between it is started, stopped
and observed, mail comes in, and what has come out is taken away.  A course is any such
sequence, in any order that the interpreter itself allows; whatever is done with an
interpreter from outside is one.
-/

namespace Statechart

/-- An envelope, and the interpreter that deals with it once it has taken it out of its
mailbox. -/
structure Dealing where
  interpreter : Interpreter
  envelope : Envelope

namespace Interpreter

/-- What happens to an interpreter besides its dealing with mail. -/
inductive Interlude (facilities : Facilities) (nursery : Nursery) :
    Interpreter → Interpreter → Prop where
  | begin (before : Interpreter) :
      before.status = .notStarted → before.restored = false →
      Interlude facilities nursery before
        (leftBy (run facilities nursery (Event.init before.settings.input) Engine.firstStep)
          { before with status := .running })
  | resume (before : Interpreter) :
      before.status = .notStarted → before.restored = true →
      Interlude facilities nursery before
        (({ before with status := .running } : Interpreter).resume facilities nursery
          (Event.init before.settings.input))
  | redeem (before : Interpreter) :
      before.status ≠ .notStarted → Interlude facilities nursery before before.recallDeferred
  | defer (before : Interpreter) (event : Event) :
      before.status = .notStarted →
      Interlude facilities nursery before
        { before with deferred := before.deferred ++ [event] }
  | accept {before after : Interpreter} (envelope : Envelope) (path : List Origin) :
      accept? envelope path before = some after → Interlude facilities nursery before after
  | stop (before : Interpreter) :
      Interlude facilities nursery before (leftBy (stop facilities nursery) before)
  | clear (before : Interpreter) :
      before.status.isTerminal = true → Interlude facilities nursery before before.clearInbox
  | watch (before : Interpreter) (board : Board) :
      Interlude facilities nursery before { before with board }

/-- What an interpreter pursues besides dealing with mail while it is asked for
something: nobody comes to observe it, and no mail comes for the machines below. -/
inductive Pursuit (facilities : Facilities) (nursery : Nursery) :
    Interpreter → Interpreter → Prop where
  | begin (before : Interpreter) :
      before.status = .notStarted → before.restored = false →
      Pursuit facilities nursery before
        (leftBy (run facilities nursery (Event.init before.settings.input) Engine.firstStep)
          { before with status := .running })
  | resume (before : Interpreter) :
      before.status = .notStarted → before.restored = true →
      Pursuit facilities nursery before
        (({ before with status := .running } : Interpreter).resume facilities nursery
          (Event.init before.settings.input))
  | redeem (before : Interpreter) :
      before.status ≠ .notStarted → Pursuit facilities nursery before before.recallDeferred
  | defer (before : Interpreter) (event : Event) :
      before.status = .notStarted →
      Pursuit facilities nursery before
        { before with deferred := before.deferred ++ [event] }
  | keep (before : Interpreter) (envelope : Envelope) :
      Pursuit facilities nursery before
        (before.onSupervisor fun supervisor => supervisor.keep envelope)
  | stop (before : Interpreter) :
      Pursuit facilities nursery before (leftBy (stop facilities nursery) before)
  | clear (before : Interpreter) :
      before.status.isTerminal = true → Pursuit facilities nursery before before.clearInbox

/-- One thing that an interpreter does when it is asked for something; what has come out of
it stays there. -/
inductive Advance (facilities : Facilities) (nursery : Nursery) :
    Interpreter → Interpreter → Prop where
  | deal {before taken : Interpreter} {envelope : Envelope} :
      before.status = .running → before.nextEnvelope? = some (envelope, taken) →
      Advance facilities nursery before (leftBy (dispatch facilities nursery envelope) taken)
  | pursue {before after : Interpreter} :
      Pursuit facilities nursery before after → Advance facilities nursery before after

abbrev Advances (facilities : Facilities) (nursery : Nursery) :
    Interpreter → Interpreter → Prop :=
  Relation.ReflTransGen (Advance facilities nursery)

/-- The right interpreter comes from the left one, which meanwhile dealt with some mail. -/
inductive Course (facilities : Facilities) (nursery : Nursery) (start : Interpreter) :
    List Dealing → Interpreter → Prop where
  | rest : Course facilities nursery start [] start
  | deal {dealings : List Dealing} {before taken : Interpreter} {envelope : Envelope} :
      Course facilities nursery start dealings before →
      before.status = .running → before.nextEnvelope? = some (envelope, taken) →
      Course facilities nursery start (dealings ++ [{ interpreter := taken, envelope }])
        (leftBy (dispatch facilities nursery envelope) taken)
  | pause {dealings : List Dealing} {before after : Interpreter} :
      Course facilities nursery start dealings before →
      Interlude facilities nursery before after →
      Course facilities nursery start dealings after
  /-- What has come out is taken away. -/
  | unload {dealings : List Dealing} {before : Interpreter} :
      Course facilities nursery start dealings before →
      Course facilities nursery start dealings before.drained

/-- The right interpreter comes from the left one in the course of its life. -/
def Passes (facilities : Facilities) (nursery : Nursery)
    (before after : Interpreter) : Prop :=
  ∃ dealings, Course facilities nursery before dealings after

/-- An interpreter, new or restored, before its start. -/
structure Fresh (interpreter : Interpreter) : Prop where
  unstarted : interpreter.status = .notStarted
  unstaffed : interpreter.supervisor.registry = Registry.empty
  unposted : interpreter.supervisor.inbox = []

section Coursing

variable {facilities : Facilities} {nursery : Nursery}
variable {start before middle after : Interpreter}
variable {dealings earlier later : List Dealing}

theorem Course.trans
    (first : Course facilities nursery start earlier middle)
    (second : Course facilities nursery middle later after) :
    Course facilities nursery start (earlier ++ later) after := by
  induction second with
  | rest => rwa [List.append_nil]
  | deal _ running found ih =>
      rw [← List.append_assoc]
      exact .deal ih running found
  | pause _ interlude ih => exact .pause ih interlude
  | unload _ ih => exact .unload ih

/-- A course can be taken apart at each of its dealings. -/
theorem Course.split
    {dealing : Dealing}
    (course : Course facilities nursery start (earlier ++ dealing :: later) after) :
    ∃ before, Course facilities nursery start earlier before ∧ before.status = .running ∧
      before.nextEnvelope? = some (dealing.envelope, dealing.interpreter) ∧
      Course facilities nursery
        (leftBy (dispatch facilities nursery dealing.envelope) dealing.interpreter) later
        after := by
  generalize same : earlier ++ dealing :: later = dealings at course
  induction course generalizing later with
  | rest => simp at same
  | @deal dealings before taken envelope walked running found ih =>
      rcases List.eq_nil_or_concat' later with rfl | ⟨others, last, rfl⟩
      · obtain ⟨rfl, last⟩ := List.append_inj' same rfl
        obtain rfl := List.singleton_inj.mp last
        exact ⟨before, walked, running, found, .rest⟩
      · rw [← List.cons_append, ← List.append_assoc] at same
        obtain ⟨same, rest⟩ := List.append_inj' same rfl
        obtain ⟨before, begun, wasRunning, taken, onward⟩ := ih same
        obtain rfl := List.singleton_inj.mp rest
        exact ⟨before, begun, wasRunning, taken, .deal onward running found⟩
  | pause _ interlude ih =>
      obtain ⟨before, begun, wasRunning, taken, onward⟩ := ih same
      exact ⟨before, begun, wasRunning, taken, .pause onward interlude⟩
  | unload _ ih =>
      obtain ⟨before, begun, wasRunning, taken, onward⟩ := ih same
      exact ⟨before, begun, wasRunning, taken, .unload onward⟩

theorem Passes.refl (interpreter : Interpreter) :
    Passes facilities nursery interpreter interpreter :=
  ⟨[], .rest⟩

theorem Passes.trans
    (first : Passes facilities nursery before middle)
    (second : Passes facilities nursery middle after) :
    Passes facilities nursery before after := by
  obtain ⟨_, earlier⟩ := first
  obtain ⟨_, later⟩ := second
  exact ⟨_, earlier.trans later⟩

theorem Interlude.passes
    (interlude : Interlude facilities nursery before after) :
    Passes facilities nursery before after :=
  ⟨[], .pause .rest interlude⟩

theorem passes_drained (interpreter : Interpreter) :
    Passes facilities nursery interpreter interpreter.drained :=
  ⟨[], .unload .rest⟩

theorem Pursuit.interlude
    (pursuit : Pursuit facilities nursery before after) :
    Interlude facilities nursery before after := by
  cases pursuit with
  | begin unstarted new => exact .begin before unstarted new
  | resume unstarted restored => exact .resume before unstarted restored
  | redeem started => exact .redeem before started
  | defer event unstarted => exact .defer before event unstarted
  | keep envelope => exact .accept envelope [] rfl
  | stop => exact .stop before
  | clear ended => exact .clear before ended

theorem Pursuit.advances
    (pursuit : Pursuit facilities nursery before after) :
    Advances facilities nursery before after :=
  .single (.pursue pursuit)

/-- An interpreter advances in the course of its life. -/
theorem Advances.passes
    (advances : Advances facilities nursery before after) :
    Passes facilities nursery before after := by
  induction advances with
  | refl => exact .refl before
  | tail _ last ih =>
      cases last with
      | deal running found => exact ih.trans ⟨_, .deal .rest running found⟩
      | pursue pursuit => exact ih.trans pursuit.interlude.passes

end Coursing

section Keeping

variable {facilities : Facilities} {nursery : Nursery}
variable {start before after : Interpreter} {dealings : List Dealing}

theorem recallDeferred_routine
    (interpreter : Interpreter) :
    Routine facilities nursery interpreter interpreter.recallDeferred := by
  have kept : ∀ (events : List Event) (supervisor : Supervisor Interpreter),
      Supervisor.Routines facilities nursery supervisor
        (events.foldl (fun supervisor event => supervisor.keep (.plain event)) supervisor) := by
    intro events
    induction events with
    | nil => exact fun _ => .refl
    | cons event events ih =>
        exact fun supervisor => .head (.chore (.keep supervisor (.plain event))) (ih _)
  exact .ofStatus rfl rfl (kept interpreter.deferred interpreter.supervisor)

theorem recallDeferred_works
    (interpreter : Interpreter) :
    Works facilities nursery interpreter interpreter.recallDeferred :=
  (recallDeferred_routine interpreter).works

theorem firstStep_works
    (event : Event) (interpreter : Interpreter) :
    Works facilities nursery interpreter
      (leftBy (run facilities nursery event Engine.firstStep) interpreter) :=
  (run_routine interpreter event (Engine.firstStep_dutiful _ event)).leftBy.works

theorem resume_routine
    (event : Event) (interpreter : Interpreter) :
    Routine facilities nursery interpreter
      (interpreter.resume facilities nursery event) := by
  unfold resume
  split
  · refine Routine.trans ?_ ((routine_publish _).trans (routine_complete _))
    exact ⟨rfl, (fun unstarted => by cases unstarted), .refl⟩
  · refine Routine.trans ?_ (routine_publish _)
    exact .ofStatus rfl rfl
      (Engine.toils_resume (interpreter.engine facilities nursery) event
        interpreter.bench).chores.routines

theorem resume_works
    (event : Event) (interpreter : Interpreter) :
    Works facilities nursery interpreter (interpreter.resume facilities nursery event) :=
  (resume_routine event interpreter).works

theorem accept_turns
    {envelope : Envelope} {path : List Origin}
    (accepted : accept? envelope path before = some after) :
    after.machine = before.machine ∧ after.status = before.status ∧
      before.supervisor.registry.Turns after.supervisor.registry ∧
      before.supervisor.inbox <+: after.supervisor.inbox := by
  cases path with
  | nil =>
      obtain rfl := Option.some.inj accepted
      exact ⟨rfl, rfl, .stay _, List.prefix_append _ _⟩
  | cons origin path =>
      obtain ⟨child, reported, grown, _, _, rfl⟩ := accept?_cons.mp accepted
      exact ⟨rfl, rfl, .update _ origin.id _, List.prefix_append _ _⟩

/-- Mail makes nothing come out, and does not concern those who observe the interpreter. -/
theorem accept_outbox
    {envelope : Envelope} {path : List Origin}
    (accepted : accept? envelope path before = some after) :
    after.supervisor.outbox = before.supervisor.outbox ∧ after.board = before.board := by
  cases path with
  | nil =>
      obtain rfl := Option.some.inj accepted
      exact ⟨rfl, rfl⟩
  | cons origin path =>
      obtain ⟨_, _, _, _, _, rfl⟩ := accept?_cons.mp accepted
      exact ⟨rfl, rfl⟩

/-- Time goes by, and the books are kept. -/
structure Lasts (before after : Interpreter) : Prop where
  machine : after.machine = before.machine
  balanced : before.supervisor.registry.Balanced → after.supervisor.registry.Balanced
  ages : before.supervisor.registry.Ages after.supervisor.registry

theorem Lasts.refl (interpreter : Interpreter) : interpreter.Lasts interpreter :=
  ⟨rfl, fun balanced => balanced, .refl _⟩

theorem Lasts.trans
    {first second third : Interpreter}
    (earlier : first.Lasts second)
    (later : second.Lasts third) :
    first.Lasts third :=
  ⟨later.machine.trans earlier.machine, fun balanced => later.balanced (earlier.balanced balanced),
    earlier.ages.trans later.ages⟩

/-- Time goes by; as long as the interpreter has not ended its mail only grows. -/
structure Elapses (before after : Interpreter) : Prop extends before.Lasts after where
  mail : after.status.isTerminal = false →
    before.status.isTerminal = false ∧ before.supervisor.inbox <+: after.supervisor.inbox

theorem Works.lasts
    (works : Works facilities nursery before after) :
    before.Lasts after :=
  ⟨works.machine, works.proceeds.balanced, works.proceeds.ages⟩

theorem Works.elapses
    (works : Works facilities nursery before after)
    (unended : before.status.isTerminal = false) :
    before.Elapses after :=
  ⟨works.lasts, fun _ => ⟨unended, works.proceeds.inbox⟩⟩

theorem elapses_of_supervisor
    (machine : after.machine = before.machine)
    (status : after.status = before.status)
    (registry : after.supervisor.registry = before.supervisor.registry)
    (inbox : after.supervisor.inbox = before.supervisor.inbox) :
    before.Elapses after where
  machine := machine
  balanced := fun balanced => registry ▸ balanced
  ages := registry ▸ .refl _
  mail := fun unended => ⟨status ▸ unended, inbox ▸ List.prefix_rfl⟩

theorem stop_run_of_terminal
    (ended : before.status.isTerminal = true) :
    (stop facilities nursery).run before = .ok () before := by
  unfold stop
  rw [run_get_bind]
  cases status : before.status with
  | notStarted => simp [status, Status.isTerminal] at ended
  | running => simp [status, Status.isTerminal] at ended
  | stopped => rfl
  | done => rfl
  | error => rfl

theorem stop_of_terminal
    (ended : before.status.isTerminal = true) :
    leftBy (stop facilities nursery) before = before := by
  unfold leftBy
  rw [stop_run_of_terminal ended]

theorem Interlude.elapses
    (interlude : Interlude facilities nursery before after) :
    before.Elapses after := by
  -- The first step of a life is taken by an interpreter that already runs.
  have started : before.status = .notStarted →
      Works facilities nursery { before with status := .running } after →
        before.Elapses after := by
    intro unstarted works
    refine ⟨⟨works.machine, works.proceeds.balanced, works.proceeds.ages⟩, fun _ => ?_⟩
    exact ⟨by rw [unstarted]; rfl, works.proceeds.inbox⟩
  cases interlude with
  | begin unstarted =>
      exact started unstarted (firstStep_works _ _)
  | resume unstarted => exact started unstarted (resume_works _ _)
  | redeem =>
      have recalled : Works facilities nursery before before.recallDeferred :=
        recallDeferred_works before
      exact ⟨recalled.lasts, fun unended => ⟨unended, recalled.proceeds.inbox⟩⟩
  | defer event => exact elapses_of_supervisor rfl rfl rfl rfl
  | accept envelope path accepted =>
      obtain ⟨machine, status, turns, inbox⟩ := accept_turns accepted
      exact ⟨⟨machine, turns.balanced, turns.ages⟩, fun unended => ⟨status ▸ unended, inbox⟩⟩
  | stop =>
      have stopped : Works facilities nursery before
          (leftBy (Interpreter.stop facilities nursery) before) :=
        (stop_works before).leftBy
      cases ended : before.status.isTerminal with
      | false => exact stopped.elapses ended
      | true =>
          rw [stop_of_terminal ended]
          exact elapses_of_supervisor rfl rfl rfl rfl
  | clear ended =>
      exact ⟨⟨rfl, fun balanced => balanced, .refl _⟩,
        fun unended => absurd (ended.symm.trans unended) (by decide)⟩
  | watch board => exact elapses_of_supervisor rfl rfl rfl rfl

theorem dispatch_elapses
    {taken : Interpreter}
    (running : taken.status = .running) (envelope : Envelope) :
    taken.Elapses (leftBy (dispatch facilities nursery envelope) taken) :=
  (dispatch_works taken envelope).elapses (by rw [running]; rfl)

theorem nextEnvelope?_eq
    {taken : Interpreter} {envelope : Envelope}
    (found : before.nextEnvelope? = some (envelope, taken)) :
    before.supervisor.inbox = envelope :: taken.supervisor.inbox ∧
      taken = before.onSupervisor fun supervisor =>
        { supervisor with inbox := taken.supervisor.inbox } := by
  unfold nextEnvelope? at found
  split at found
  · cases found
  · rename_i first rest inbox
    obtain ⟨rfl, rfl⟩ := Prod.mk.inj (Option.some.inj found)
    exact ⟨inbox, rfl⟩

theorem nextEnvelope?_of_inbox
    {envelope : Envelope} {rest : List Envelope}
    (inbox : before.supervisor.inbox = envelope :: rest) :
    before.nextEnvelope? =
      some (envelope, before.onSupervisor fun supervisor => { supervisor with inbox := rest }) := by
  unfold nextEnvelope?
  rw [inbox]

theorem nextEnvelope?_elapses
    {taken : Interpreter} {envelope : Envelope}
    (found : before.nextEnvelope? = some (envelope, taken)) :
    before.Lasts taken ∧ taken.status = before.status := by
  obtain ⟨_, taken⟩ := nextEnvelope?_eq found
  rw [taken]
  exact ⟨⟨rfl, fun balanced => balanced, .refl _⟩, rfl⟩

theorem Fresh.balanced
    (fresh : start.Fresh) :
    start.supervisor.registry.Balanced :=
  fresh.unstaffed ▸ Registry.balanced_empty

theorem Course.lasts
    (course : Course facilities nursery start dealings after) :
    start.Lasts after := by
  induction course with
  | rest => exact .refl start
  | @deal _ _ taken envelope _ running found ih =>
      have dealt : Works facilities nursery taken
          (leftBy (dispatch facilities nursery envelope) taken) :=
        dispatch_works taken envelope
      exact (ih.trans (nextEnvelope?_elapses found).1).trans dealt.lasts
  | pause _ interlude ih => exact ih.trans interlude.elapses.toLasts
  | unload _ ih => exact ih.trans ⟨rfl, fun balanced => balanced, .refl _⟩

/-- As long as the interpreter has not ended, all its mail, old and new, has been dealt
with in the order in which it came, or still lies in its mailbox in that order. -/
theorem Course.mail
    (course : Course facilities nursery start dealings after)
    (unended : after.status.isTerminal = false) :
    start.supervisor.inbox <+:
      dealings.map Dealing.envelope ++ after.supervisor.inbox := by
  induction course with
  | rest => exact List.prefix_rfl
  | @deal dealings before taken envelope _ running found ih =>
      have earlier := ih (by rw [running]; rfl)
      have stillRunning : taken.status = .running :=
        (nextEnvelope?_elapses found).2.trans running
      have dealt := (dispatch_elapses stillRunning envelope).mail unended
      rw [(nextEnvelope?_eq found).1] at earlier
      rw [List.map_append, List.append_assoc]
      exact earlier.trans
        ((List.prefix_append_right_inj _).mpr ((List.prefix_cons_inj _).mpr dealt.2))
  | pause _ interlude ih =>
      obtain ⟨wasUnended, grown⟩ := interlude.elapses.mail unended
      exact (ih wasUnended).trans ((List.prefix_append_right_inj _).mpr grown)
  | unload _ ih => exact ih unended

/-- Mail that lay in the mailbox and does so no longer has been dealt with. -/
theorem Course.dealt
    {envelope : Envelope}
    (course : Course facilities nursery start dealings after)
    (unended : after.status.isTerminal = false)
    (waiting : envelope ∈ start.supervisor.inbox)
    (read : envelope ∉ after.supervisor.inbox) :
    ∃ dealing ∈ dealings, dealing.envelope = envelope := by
  have member := (course.mail unended).subset waiting
  rcases List.mem_append.mp member with dealt | still
  · exact List.mem_map.mp dealt
  · exact absurd still read

end Keeping

section Advancing

variable (facilities : Facilities) (nursery : Nursery)

theorem advances_keep
    (interpreter : Interpreter) (envelope : Envelope) :
    Advances facilities nursery interpreter
      (interpreter.onSupervisor fun supervisor => supervisor.keep envelope) :=
  Pursuit.advances (.keep interpreter envelope)

/-- The interpreter left behind has advanced there. -/
def Coursing {answer : Type} (operation : Handling answer) : Prop :=
  ∀ interpreter : Interpreter, Ends operation interpreter
    (fun _ after => Advances facilities nursery interpreter after)
    (fun _ after => Advances facilities nursery interpreter after)

variable {facilities nursery}

theorem coursing_of_leftBy
    {answer : Type} {operation : Handling answer}
    (advances : ∀ interpreter,
      Advances facilities nursery interpreter (leftBy operation interpreter)) :
    Coursing facilities nursery operation := by
  intro interpreter
  exact (ends_leftBy operation interpreter).mono (fun _ _ same => same ▸ advances interpreter)
    (fun _ _ same => same ▸ advances interpreter)

theorem stop_coursing : Coursing facilities nursery (stop facilities nursery) :=
  coursing_of_leftBy fun interpreter => Pursuit.advances (.stop interpreter)

theorem deal_ends
    {before taken : Interpreter} {envelope : Envelope}
    (running : before.status = .running)
    (found : before.nextEnvelope? = some (envelope, taken)) :
    Ends (dispatch facilities nursery envelope) taken
      (fun _ after => Advances facilities nursery before after ∧ after.status ≠ .notStarted)
      (fun _ after => Advances facilities nursery before after ∧ after.status ≠ .notStarted) := by
  have dealt : Advances facilities nursery before
      (leftBy (dispatch facilities nursery envelope) taken) := .single (.deal running found)
  have started : (leftBy (dispatch facilities nursery envelope) taken).status ≠ .notStarted := by
    intro unstarted
    have works : Works facilities nursery taken _ := dispatch_works taken envelope
    have status := (nextEnvelope?_elapses found).2.symm.trans (works.started unstarted)
    exact absurd (running.symm.trans status) (by decide)
  exact (ends_leftBy _ taken).mono (fun _ _ same => same ▸ ⟨dealt, started⟩)
    (fun _ _ same => same ▸ ⟨dealt, started⟩)

theorem drain_ends_advances
    (patience handled : Nat) {interpreter : Interpreter}
    (started : interpreter.status ≠ .notStarted) :
    Ends (drain facilities nursery patience handled) interpreter
      (fun _ after => Advances facilities nursery interpreter after)
      (fun _ after => Advances facilities nursery interpreter after) := by
  induction patience generalizing handled interpreter with
  | zero =>
      rw [drain, ends_bind, ends_get]
      split
      · rename_i ended
        exact Pursuit.advances (.clear interpreter ended)
      · split <;> exact .refl
  | succ patience ih =>
      rw [drain, ends_bind, ends_get]
      split
      · rename_i ended
        exact Pursuit.advances (.clear interpreter ended)
      · rename_i unended
        split
        · exact .refl
        · rename_i envelope taken found
          simp only [ends_bind, ends_set]
          refine (deal_ends (Status.eq_running started unended) found).mono ?_
            (fun _ _ dealt => dealt.1)
          rintro _ middle ⟨advances, stillStarted⟩
          exact (ih (handled + 1) stillStarted).mono (fun _ _ later => advances.trans later)
            (fun _ _ later => advances.trans later)

theorem flush_coursing : Coursing facilities nursery (flush facilities nursery) := by
  intro interpreter
  simp only [flush, ends_bind, ends_get]
  split
  · exact .refl
  · rename_i started
    exact drain_ends_advances _ 0 started

theorem Coursing.after
    {answer : Type} {operation : Handling answer} {before middle : Interpreter}
    (coursing : Coursing facilities nursery operation)
    (advances : Advances facilities nursery before middle) :
    Ends operation middle (fun _ after => Advances facilities nursery before after)
      (fun _ after => Advances facilities nursery before after) :=
  (coursing middle).mono (fun _ _ later => advances.trans later)
    (fun _ _ later => advances.trans later)

theorem send_coursing
    (event : Event) :
    Coursing facilities nursery (send facilities nursery event) := by
  intro interpreter
  simp only [send, ends_bind, ends_get]
  split
  · rename_i unstarted _
    exact Pursuit.advances (.defer interpreter event unstarted)
  · exact .refl
  · simp only [ends_bind, ends_set]
    exact flush_coursing.after (advances_keep facilities nursery interpreter (.plain event))
  all_goals exact .refl

theorem tick_coursing : Coursing facilities nursery (tick facilities nursery) := by
  intro interpreter
  simp only [tick, ends_bind, ends_get]
  split
  · rename_i running
    split
    · exact .refl
    · rename_i envelope taken found
      simp only [ends_bind, ends_set, ends_pure]
      exact (deal_ends running found).mono (fun _ _ dealt => flush_coursing.after dealt.1)
        (fun _ _ dealt => dealt.1)
  · simp only [ends_bind, ends_pure]
    exact flush_coursing interpreter

theorem start_coursing : Coursing facilities nursery (start facilities nursery) := by
  intro interpreter
  simp only [start, ends_bind, ends_get]
  split
  · rename_i unstarted
    simp only [ends_bind, ends_set]
    -- What follows the first step is the same for a new interpreter and a restored one.
    have onward : ∀ {middle : Interpreter}, Advances facilities nursery interpreter middle →
        Works facilities nursery { interpreter with status := .running } middle →
        Ends (flush facilities nursery) middle.recallDeferred
          (fun _ after => Advances facilities nursery interpreter after)
          (fun _ after => Advances facilities nursery interpreter after) := by
      intro middle advances works
      have started : middle.status ≠ .notStarted :=
        fun status => absurd (works.started status) (fun running => by cases running)
      exact flush_coursing.after (advances.trans (Pursuit.advances (.redeem middle started)))
    split
    · rename_i restored
      simp only [ends_set, ends_bind, ends_modify, ends_pure]
      exact onward (Pursuit.advances (.resume interpreter unstarted restored))
        (resume_works _ _)
    · rename_i restored
      have begun : Advances facilities nursery interpreter _ :=
        Pursuit.advances (.begin interpreter unstarted (Bool.eq_false_iff.mpr restored))
      simp only [ends_bind, ends_modify, ends_pure]
      exact (ends_leftBy _ _).mono (fun _ _ same => same ▸ onward begun (firstStep_works _ _))
        (fun _ _ same => same ▸ begun)
  · exact .refl

end Advancing

end Interpreter

end Statechart
