import Statechart.Proofs.EndedInterpreters
import Statechart.Proofs.TwinSteps

/-!
# Interpreters that answer alike

Two running interpreters of a machine that acts alone, with the same state and the same
mail, go through each step alike; so whatever is asked of them, they answer alike and stay
so until both have ended in the same way.  What has been seen of them before does not
matter, and neither does who observes them, unless somebody sends them something.
-/

namespace Statechart

/-- The snapshot but for the last event. -/
def Snapshot.undated (snapshot : Snapshot) : Snapshot :=
  { snapshot with lastEvent := none }

namespace Board

/-- Whoever observes sends nothing, whatever is shown. -/
def Heedless (board : Board) : Prop :=
  ∀ observer ∈ board.observers, ∀ shown, ∀ reaction ∈ observer.react shown,
    reaction = .unsubscribe

/-- The same observe, or nobody of those who observe sends anything. -/
def Echoes (left right : Board) : Prop :=
  left = right ∨ (left.Heedless ∧ right.Heedless)

theorem heedless_empty : ({} : Board).Heedless :=
  fun _ member => by cases member

theorem Heedless.of_subset
    {before after : Board}
    (heedless : before.Heedless)
    (subset : after.observers ⊆ before.observers) :
    after.Heedless :=
  fun observer member => heedless observer (subset member)

end Board

/-- The event in an envelope, if nobody has signed it. -/
def Envelope.unsigned? : Envelope → Option Event
  | .event none heard _ => some heard
  | _ => none

namespace Interpreter

/-- Both have come as far, show the same but for the last event, and have told of the same
deeds. -/
structure Matches (left right : Interpreter) : Prop where
  machine : left.machine = right.machine
  status : left.status = right.status
  shown : left.snapshot.undated = right.snapshot.undated
  deeds : left.supervisor.deeds = right.supervisor.deeds

section Matching

variable {first second third : Interpreter}

theorem Matches.refl (interpreter : Interpreter) : interpreter.Matches interpreter :=
  ⟨rfl, rfl, rfl, rfl⟩

theorem Matches.symm
    (same : first.Matches second) :
    second.Matches first :=
  ⟨same.machine.symm, same.status.symm, same.shown.symm, same.deeds.symm⟩

theorem Matches.trans
    (earlier : first.Matches second)
    (later : second.Matches third) :
    first.Matches third :=
  ⟨earlier.machine.trans later.machine, earlier.status.trans later.status,
    earlier.shown.trans later.shown, earlier.deeds.trans later.deeds⟩

theorem matches_reveal
    {activity : Activity} (interpreter : Interpreter)
    (shown : activity.isDeed = false) :
    interpreter.Matches (interpreter.reveal activity) := by
  refine ⟨rfl, rfl, rfl, ?_⟩
  change _ = (interpreter.supervisor.reveal activity).deeds
  rw [Supervisor.deeds_reveal, List.filter_cons_of_neg (by simp [shown]), List.filter_nil,
    List.append_nil]

theorem Tells.matches
    {kind : Activity → Prop} {before after : Interpreter}
    (shows : ∀ activity, kind activity → activity.isDeed = false)
    (tells : Tells kind before after) :
    before.Matches after := by
  cases tells with
  | reveal isOfKind => exact matches_reveal before (shows _ isOfKind)
  | react ticket reaction =>
      cases reaction with
      | unsubscribe => exact ⟨rfl, rfl, rfl, rfl⟩
      | post event => exact ⟨rfl, rfl, rfl, (Supervisor.deeds_post _ _).symm⟩
  | prune => exact ⟨rfl, rfl, rfl, rfl⟩

theorem Tellings.matches
    {kind : Activity → Prop} {before after : Interpreter}
    (tellings : Tellings kind before after)
    (shows : ∀ activity, kind activity → activity.isDeed = false) :
    before.Matches after :=
  fulfils_of_steps Matches.refl Matches.trans (Tells.matches shows) tellings

theorem matches_publish (interpreter : Interpreter) :
    interpreter.Matches interpreter.publish :=
  (tellings_publish interpreter).matches fun _ ⟨_, shown⟩ => shown ▸ rfl

theorem matches_complete (interpreter : Interpreter) :
    interpreter.Matches interpreter.complete := by
  have told : interpreter.Matches (interpreter.tellEnd .completed) :=
    (tellings_tellEnd interpreter _).matches fun _ ⟨_, shown⟩ => shown ▸ rfl
  exact told.trans ⟨rfl, rfl, rfl, rfl⟩

end Matching

section Solitude

variable {kind : Activity → Prop} {before after : Interpreter}

theorem Tells.alone
    (tells : Tells kind before after)
    (alone : before.supervisor.Alone) :
    after.supervisor.Alone := by
  cases tells with
  | reveal isOfKind => exact alone.reveal _
  | react ticket reaction =>
      cases reaction with
      | unsubscribe => exact alone
      | post event =>
          change (before.supervisor.post (.plain event)).Alone
          rw [alone.post]
          exact alone.keep _
  | prune => exact alone

theorem Tellings.alone
    (tellings : Tellings kind before after)
    (alone : before.supervisor.Alone) :
    after.supervisor.Alone := by
  induction tellings with
  | refl => exact alone
  | tail _ last ih => exact last.alone ih

theorem receive_alone
    {nursery : Nursery} {interpreter : Interpreter}
    (alone : interpreter.supervisor.Alone) (envelope : Envelope) :
    interpreter.receive nursery envelope =
      { heard := envelope.unsigned?, readied := interpreter } := by
  cases envelope with
  | event sender event terminal =>
      cases sender with
      | none => rfl
      | some origin =>
          simp only [receive, receiveEvent, alone.accepts, Bool.false_eq_true, if_false]
          rfl
  | forward child event =>
      simp only [receive, receiveForward, alone.deliver]
      cases interpreter
      rfl
  | wake child =>
      simp only [receive, receiveWake, alone.wake]
      cases interpreter
      rfl
  | timerFired timer delivery =>
      simp only [receive, alone.accepts, Bool.false_eq_true, if_false]
      rfl
  | stop => rfl

end Solitude

/-- Both run the same machine, which acts alone, and have the same state and mail; the same
observe them, or nobody who sends anything. -/
structure Twins (left right : Interpreter) : Prop where
  machine : left.machine = right.machine
  solitary : right.machine.Solitary
  limit : left.settings.maxMicrosteps = right.settings.maxMicrosteps
  leftRuns : left.status = .running
  rightRuns : right.status = .running
  state : left.state = right.state
  shown : left.snapshot.undated = right.snapshot.undated
  supervisor : left.supervisor.Twins right.supervisor
  board : left.board.Echoes right.board

/-- Both run as twins, or both have ended in the same way. -/
inductive Abreast (left right : Interpreter) : Prop where
  | running : left.Twins right → Abreast left right
  | ended : right.status.isTerminal = true → left.Matches right → Abreast left right

theorem Twins.matches
    {left right : Interpreter}
    (twins : left.Twins right) :
    left.Matches right :=
  ⟨twins.machine, twins.leftRuns.trans twins.rightRuns.symm, twins.shown,
    twins.supervisor.deeds⟩

theorem Abreast.matches
    {left right : Interpreter} :
    left.Abreast right → left.Matches right
  | .running twins => twins.matches
  | .ended _ same => same

/-- From these two an operation ends in the same way, and leaves them abreast. -/
abbrev Agree {answer : Type} (operation : Handling answer) (left right : Interpreter) : Prop :=
  EndAlike operation operation left right (fun _ left right => left.Abreast right)
    (fun _ left right => left.Abreast right)

section Publishing

/-- The snapshot has been shown, and nobody has sent anything. -/
structure Presented (before after : Interpreter) : Prop where
  same : ∃ outbox board,
    after = { before with supervisor := { before.supervisor with outbox }, board }
  deeds : after.supervisor.deeds = before.supervisor.deeds
  observers : after.board.observers ⊆ before.board.observers

theorem Presented.refl (interpreter : Interpreter) : interpreter.Presented interpreter := by
  refine ⟨⟨interpreter.supervisor.outbox, interpreter.board, ?_⟩, rfl, List.Subset.refl _⟩
  cases interpreter
  rfl

theorem Presented.trans
    {first second third : Interpreter}
    (earlier : first.Presented second)
    (later : second.Presented third) :
    first.Presented third := by
  obtain ⟨_, _, rfl⟩ := earlier.same
  obtain ⟨outbox, board, rfl⟩ := later.same
  exact ⟨⟨outbox, board, rfl⟩, later.deeds.trans earlier.deeds,
    List.Subset.trans later.observers earlier.observers⟩

theorem presented_present
    {observer : Observer} (interpreter : Interpreter)
    (heedless : ∀ shown, ∀ reaction ∈ observer.react shown, reaction = .unsubscribe) :
    interpreter.Presented (interpreter.present observer) := by
  unfold present
  split
  · have shown : interpreter.Presented
        (interpreter.reveal (.published observer.listener interpreter.snapshot)) :=
      ⟨⟨_, _, rfl⟩, (matches_reveal interpreter rfl).deeds.symm, List.Subset.refl _⟩
    refine List.foldlRecOn (motive := interpreter.Presented) _ _ shown ?_
    intro middle earlier reaction isReaction
    rw [heedless _ reaction isReaction]
    exact earlier.trans ⟨⟨_, _, rfl⟩, rfl, List.Subset.refl _⟩
  · exact .refl interpreter

theorem presented_publish
    {interpreter : Interpreter}
    (heedless : interpreter.board.Heedless) :
    interpreter.Presented interpreter.publish := by
  have presented : interpreter.Presented
      (interpreter.board.observers.foldl present interpreter) := by
    refine List.foldlRecOn (motive := interpreter.Presented) _ _ (.refl interpreter) ?_
    intro middle earlier observer member
    exact earlier.trans (presented_present middle (heedless observer member))
  exact presented.trans ⟨⟨_, _, rfl⟩, rfl, List.filter_sublist.subset⟩

theorem Twins.presented
    {left right leftAfter rightAfter : Interpreter}
    (twins : left.Twins right)
    (leftHeedless : left.board.Heedless)
    (rightHeedless : right.board.Heedless)
    (leftShown : left.Presented leftAfter)
    (rightShown : right.Presented rightAfter) :
    leftAfter.Twins rightAfter := by
  have deeds := leftShown.deeds.trans (twins.supervisor.deeds.trans rightShown.deeds.symm)
  have echoes : leftAfter.board.Echoes rightAfter.board :=
    .inr ⟨leftHeedless.of_subset leftShown.observers, rightHeedless.of_subset rightShown.observers⟩
  obtain ⟨_, _, rfl⟩ := leftShown.same
  obtain ⟨_, _, rfl⟩ := rightShown.same
  exact
    { twins with
      supervisor :=
        { leftAlone := twins.supervisor.leftAlone.withMail _ _
          rightAlone := twins.supervisor.rightAlone.withMail _ _
          inbox := twins.supervisor.inbox
          deeds }
      board := echoes }

/-- The same observe both, and are shown the same. -/
structure Watched (left right : Interpreter) : Prop where
  twins : left.Twins right
  snapshot : left.snapshot = right.snapshot
  board : left.board = right.board

theorem Watched.react
    {left right : Interpreter}
    (watched : left.Watched right)
    (ticket : Nat) (reaction : Reaction) :
    (react ticket left reaction).Watched (react ticket right reaction) := by
  obtain ⟨twins, snapshot, board⟩ := watched
  cases reaction with
  | unsubscribe =>
      have same : left.board.cancel ticket = right.board.cancel ticket := by rw [board]
      exact ⟨{ twins with board := .inl same }, snapshot, same⟩
  | post event =>
      have posted : (left.supervisor.post (.plain event)).Twins
          (right.supervisor.post (.plain event)) := by
        rw [twins.supervisor.leftAlone.post, twins.supervisor.rightAlone.post]
        exact twins.supervisor.keep _
      exact ⟨{ twins with supervisor := posted }, snapshot, board⟩

theorem Watched.present
    {left right : Interpreter}
    (watched : left.Watched right)
    (observer : Observer) :
    (left.present observer).Watched (right.present observer) := by
  unfold Interpreter.present
  rw [watched.board, watched.snapshot]
  split
  · refine List.foldl_rel ?_ fun reaction _ _ _ watched =>
      Watched.react watched observer.ticket reaction
    exact ⟨{ watched.twins with supervisor := watched.twins.supervisor.reveal _ },
      watched.snapshot, watched.board⟩
  · exact watched

theorem Watched.publish
    {left right : Interpreter}
    (watched : left.Watched right) :
    left.publish.Twins right.publish := by
  unfold Interpreter.publish
  rw [watched.board]
  have presented := List.foldl_rel (l := right.board.observers) watched
    fun observer _ _ _ watched => Watched.present watched observer
  exact { presented.twins with board := .inl (congrArg Board.prune presented.board) }

theorem Twins.publish
    {left right : Interpreter}
    (twins : left.Twins right)
    (snapshot : left.snapshot = right.snapshot) :
    left.publish.Twins right.publish := by
  rcases twins.board with same | ⟨leftHeedless, rightHeedless⟩
  · exact Watched.publish ⟨twins, snapshot, same⟩
  · exact twins.presented leftHeedless rightHeedless (presented_publish leftHeedless)
      (presented_publish rightHeedless)

end Publishing

section Steps

variable {facilities : Facilities} {nursery : Nursery}
variable {left right : Interpreter} (twins : left.Twins right)

include twins

theorem Twins.bench :
    left.bench.Twins right.bench :=
  ⟨twins.state, twins.supervisor, rfl⟩

theorem Twins.engine :
    left.engine facilities nursery = right.engine facilities nursery := by
  unfold Interpreter.engine
  rw [twins.machine, twins.limit]

theorem Twins.keepSupervisor
    {leftBench rightBench : Workbench}
    (benches : leftBench.Twins rightBench) :
    (left.keepSupervisor leftBench).Twins (right.keepSupervisor rightBench) :=
  { twins with supervisor := benches.supervisor }

theorem Twins.diagnose
    (activity : Activity) :
    (left.diagnose activity).Twins (right.diagnose activity) := by
  unfold Interpreter.diagnose
  rw [twins.supervisor.leftAlone.unlinked, twins.supervisor.rightAlone.unlinked]
  exact { twins with supervisor := twins.supervisor.reveal activity }

theorem Twins.diagnoseConflicts
    (conflicts : List Conflict) :
    (left.diagnoseConflicts conflicts).Twins (right.diagnoseConflicts conflicts) :=
  List.foldl_rel twins fun conflict _ _ _ twins => Twins.diagnose twins (.conflict conflict)

theorem Twins.diagnoseUnhandled
    (event : Event) :
    (left.diagnoseUnhandled event).Twins (right.diagnoseUnhandled event) := by
  have active : left.snapshot.active = right.snapshot.active := by
    simpa only [Snapshot.undated] using congrArg Snapshot.active twins.shown
  unfold Interpreter.diagnoseUnhandled
  rw [twins.machine, active]
  exact twins.diagnose _

theorem Twins.reported
    {leftBench rightBench : Workbench}
    (benches : leftBench.Twins rightBench)
    (event : Event) (handled : Bool) :
    (left.reported event handled leftBench).Twins
      (right.reported event handled rightBench) := by
  have diagnosed := (twins.keepSupervisor benches).diagnoseConflicts rightBench.conflicts
  unfold Interpreter.reported
  rw [benches.conflicts]
  dsimp only
  split
  · exact diagnosed
  · exact diagnosed.diagnoseUnhandled event

theorem Twins.withState
    (state : StepState) :
    ({ left with state } : Interpreter).Twins { right with state } :=
  { machine := twins.machine
    solitary := twins.solitary
    limit := twins.limit
    leftRuns := twins.leftRuns
    rightRuns := twins.rightRuns
    state := rfl
    shown := twins.shown
    supervisor := twins.supervisor
    board := twins.board }

theorem Twins.withLastEvent
    (event : Event) :
    (left.withLastEvent event).Twins (right.withLastEvent event) :=
  { twins with
    shown := congrArg (fun snapshot => { snapshot with lastEvent := none }) twins.shown }

theorem Twins.refreshed
    (event : left.snapshot.lastEvent = right.snapshot.lastEvent) :
    left.refresh.snapshot = right.refresh.snapshot := by
  change Snapshot.ofState _ _ _ = Snapshot.ofState _ _ _
  rw [twins.state, twins.leftRuns, twins.rightRuns, event]

theorem Twins.refresh :
    left.refresh.Twins right.refresh := by
  have shown : left.refresh.snapshot.undated = right.refresh.snapshot.undated := by
    change (Snapshot.ofState _ _ _).undated = (Snapshot.ofState _ _ _).undated
    rw [twins.state, twins.leftRuns, twins.rightRuns]
    rfl
  exact { twins with shown }

theorem Twins.conclude
    (facilities : Facilities) (nursery : Nursery) (event : Event) (status : Status) :
    (left.conclude facilities nursery event status).1 =
        (right.conclude facilities nursery event status).1 ∧
      (left.conclude facilities nursery event status).2.Matches
        (right.conclude facilities nursery event status).2 ∧
      (right.conclude facilities nursery event status).2.status = status := by
  unfold Interpreter.conclude
  rw [twins.engine]
  have acts : (right.engine facilities nursery).machine.Solitary := twins.solitary
  obtain ⟨failure, benches⟩ := Engine.exitAll_twins event acts twins.bench
  dsimp only
  generalize (right.engine facilities nursery).exitAll event left.bench = leftEnd
    at failure benches ⊢
  generalize (right.engine facilities nursery).exitAll event right.bench = rightEnd
    at failure benches ⊢
  have shown : ∀ interpreter : Interpreter,
      interpreter.Matches interpreter.publish.complete :=
    fun interpreter => (matches_publish interpreter).trans (matches_complete _)
  have refreshed : ({ left.commit leftEnd.2 with status } : Interpreter).refresh.Matches
      ({ right.commit rightEnd.2 with status } : Interpreter).refresh := by
    refine ⟨twins.machine, rfl, ?_, benches.supervisor.deeds⟩
    change (Snapshot.ofState leftEnd.2.state status _).undated =
      (Snapshot.ofState rightEnd.2.state status _).undated
    rw [benches.state]
    rfl
  exact ⟨failure, (shown _).symm.trans (refreshed.trans (shown _)), (shown _).status.symm⟩

theorem Twins.fail
    (nursery : Nursery) (failure : Failure) :
    (left.fail nursery failure).Matches (right.fail nursery failure) ∧
      (right.fail nursery failure).status = .error := by
  have shown : ∀ interpreter : Interpreter, interpreter.Matches
      (interpreter.publish.tellEnd fun listener => .failed listener failure).complete :=
    fun interpreter => ((matches_publish interpreter).trans
      ((tellings_tellEnd _ _).matches fun _ ⟨_, isFailed⟩ => isFailed ▸ rfl)).trans
        (matches_complete _)
  unfold Interpreter.fail
  refine ⟨(shown _).symm.trans (Matches.trans ?_ (shown _)), (shown _).status.symm⟩
  refine ⟨twins.machine, rfl, ?_, ?_⟩
  · change Snapshot.undated { Snapshot.ofState left.state .error _ with failure := some failure } =
      Snapshot.undated { Snapshot.ofState right.state .error _ with failure := some failure }
    rw [twins.state]
    rfl
  · change (left.supervisor.stopAll nursery).deeds = (right.supervisor.stopAll nursery).deeds
    unfold Supervisor.stopAll
    rw [twins.supervisor.leftAlone.stopWhere, twins.supervisor.rightAlone.stopWhere]
    exact twins.supervisor.deeds

theorem Twins.settle
    {leftBench rightBench : Workbench}
    (benches : leftBench.Twins rightBench)
    (event : Event) (handled : Bool) :
    (left.settle facilities nursery event handled leftBench).Abreast
      (right.settle facilities nursery event handled rightBench) := by
  have taken : (left.steppedTo event handled leftBench).Twins
      (right.steppedTo event handled rightBench) := by
    unfold steppedTo
    rw [benches.state]
    exact ((twins.reported benches event handled).withState rightBench.state).withLastEvent event
  rw [settle_eq, settle_eq, benches.state]
  split
  · obtain ⟨_, same, status⟩ := taken.conclude facilities nursery event .done
    exact .ended (by rw [status]; rfl) same
  · exact .running (taken.refresh.publish (taken.refreshed rfl))

theorem Twins.abandon
    {leftBench rightBench : Workbench}
    (benches : leftBench.Twins rightBench)
    (event : Event) (failure : Failure) :
    (left.abandon nursery event failure leftBench).Abreast
      (right.abandon nursery event failure rightBench) := by
  have reported := (twins.reported benches event true).withLastEvent event
  obtain ⟨same, status⟩ := reported.fail nursery failure
  rw [abandon_eq, abandon_eq]
  exact .ended (by rw [status]; rfl) same

theorem Twins.run
    {step : Engine → Event → StepM Bool}
    (event : Event)
    (twinned : Twinned (step (right.engine facilities nursery) event)) :
    Agree (Interpreter.run facilities nursery event step) left right := by
  refine endAlike_get_bind ?_
  rw [twins.engine]
  cases twinned _ _ twins.bench with
  | well leftRan rightRan benches =>
      rw [leftRan, rightRan]
      exact endAlike_set (twins.settle benches event _)
  | ill leftRan rightRan benches =>
      rw [leftRan, rightRan]
      exact endAlike_bind (endAlike_set (endAlike_throw (twins.abandon benches event _)))

theorem Twins.process
    (event : Event) :
    Agree (process facilities nursery event) left right :=
  twins.run event (Engine.macrostep_twinned event twins.solitary)

theorem Twins.stop :
    Agree (stop facilities nursery) left right := by
  obtain ⟨failure, same, status⟩ := twins.conclude facilities nursery Event.stop .stopped
  have ended : (left.conclude facilities nursery Event.stop .stopped).2.Abreast
      (right.conclude facilities nursery Event.stop .stopped).2 :=
    .ended (by rw [status]; rfl) same
  refine endAlike_get_bind ?_
  rw [twins.leftRuns, twins.rightRuns]
  refine endAlike_get_bind ?_
  dsimp only
  rw [failure]
  refine endAlike_bind (endAlike_set ?_)
  split
  · exact endAlike_throw ended
  · exact endAlike_pure ended

theorem Twins.dispatch
    (envelope : Envelope) :
    Agree (dispatch facilities nursery envelope) left right := by
  by_cases stops : envelope = .stop
  · subst stops
    exact twins.stop
  · have heeded : Agree (heed facilities nursery envelope.unsigned?) left right := by
      cases envelope.unsigned? with
      | none => exact endAlike_pure (.running twins)
      | some event => exact twins.process event
    refine heeded.of_run ?_ ?_
    · rw [dispatch_run left stops, receive_alone twins.supervisor.leftAlone]
      rfl
    · rw [dispatch_run right stops, receive_alone twins.supervisor.rightAlone]
      rfl

theorem Twins.nextEnvelope :
    left.nextEnvelope? = none ∧ right.nextEnvelope? = none ∨
      ∃ envelope leftTaken rightTaken,
        left.nextEnvelope? = some (envelope, leftTaken) ∧
          right.nextEnvelope? = some (envelope, rightTaken) ∧ leftTaken.Twins rightTaken := by
  unfold nextEnvelope?
  rw [twins.supervisor.inbox]
  cases right.supervisor.inbox with
  | nil => exact .inl ⟨rfl, rfl⟩
  | cons envelope rest =>
      exact .inr ⟨envelope, _, _, rfl, rfl,
        { twins with supervisor := twins.supervisor.withInbox rest }⟩

end Steps

section Abreast

variable {facilities : Facilities} {nursery : Nursery} {left right : Interpreter}

theorem drain_ended
    (terminal : right.status.isTerminal = true)
    (same : left.Matches right)
    (patience handled : Nat) :
    Agree (drain facilities nursery patience handled) left right := by
  have leftTerminal : left.status.isTerminal = true := same.status ▸ terminal
  have cleared : left.clearInbox.Matches right.clearInbox :=
    ⟨same.machine, same.status, same.shown, same.deeds⟩
  exact .well (drain_of_terminal facilities nursery leftTerminal patience handled)
    (drain_of_terminal facilities nursery terminal patience handled) (.ended terminal cleared)

variable (abreast : left.Abreast right)

include abreast

theorem Abreast.drain
    (patience handled : Nat) :
    Agree (drain facilities nursery patience handled) left right := by
  induction patience generalizing handled left right with
  | zero =>
      cases abreast with
      | running twins =>
          unfold Interpreter.drain
          refine endAlike_get_bind ?_
          rw [twins.leftRuns, twins.rightRuns]
          rcases twins.nextEnvelope with ⟨leftNone, rightNone⟩ | ⟨_, _, _, leftFound, rightFound, _⟩
          · rw [leftNone, rightNone]
            exact endAlike_pure (.running twins)
          · rw [leftFound, rightFound]
            exact endAlike_throw (.running twins)
      | ended terminal same => exact drain_ended terminal same 0 handled
  | succ patience ih =>
      cases abreast with
      | running twins =>
          unfold Interpreter.drain
          refine endAlike_get_bind ?_
          rw [twins.leftRuns, twins.rightRuns]
          rcases twins.nextEnvelope with
            ⟨leftNone, rightNone⟩ | ⟨envelope, _, _, leftFound, rightFound, taken⟩
          · rw [leftNone, rightNone]
            exact endAlike_pure (.running twins)
          · rw [leftFound, rightFound]
            refine endAlike_bind (endAlike_set ?_)
            refine endAlike_bind ((taken.dispatch envelope).mono ?_ fun _ _ _ abreast => abreast)
            intro _ _ _ abreast
            exact ih abreast (handled + 1)
      | ended terminal same => exact drain_ended terminal same (patience + 1) handled

theorem Abreast.send
    (event : Event) :
    Agree (send facilities nursery event) left right := by
  cases abreast with
  | running twins =>
      have kept : (left.onSupervisor fun supervisor => supervisor.keep (.plain event)).Twins
          (right.onSupervisor fun supervisor => supervisor.keep (.plain event)) :=
        { twins with supervisor := twins.supervisor.keep _ }
      refine endAlike_get_bind ?_
      rw [twins.leftRuns, twins.rightRuns]
      refine endAlike_bind (endAlike_set ?_)
      refine endAlike_bind (EndAlike.mono ?_ (fun _ _ _ abreast => endAlike_pure abreast)
        fun _ _ _ abreast => abreast)
      refine endAlike_get_bind ?_
      rw [if_neg (by rw [kept.leftRuns]; decide), if_neg (by rw [kept.rightRuns]; decide)]
      exact (Abreast.running kept).drain facilities.patience 0
  | ended terminal same =>
      have leftTerminal : left.status.isTerminal = true := same.status ▸ terminal
      exact .well (send_of_terminal facilities nursery leftTerminal event)
        (send_of_terminal facilities nursery terminal event) (.ended terminal same)

theorem Abreast.stop :
    Agree (stop facilities nursery) left right := by
  cases abreast with
  | running twins => exact twins.stop
  | ended terminal same =>
      have leftTerminal : left.status.isTerminal = true := same.status ▸ terminal
      exact .well (stop_run_of_terminal leftTerminal) (stop_run_of_terminal terminal)
        (.ended terminal same)

end Abreast

end Interpreter

end Statechart
