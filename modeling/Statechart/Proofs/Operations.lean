import Statechart.Proofs.Lifetime

/-!
# Operations keep interpreters accounted for

Each operation on an interpreter, from taking a step to dealing with all of its mail, ends
with an interpreter that is accounted for again, whether it goes well or fails.
-/

namespace Statechart

namespace Engine

variable (engine : Engine) (event : Event)

theorem exitEach_ends
    (states : List StateId) (failure : Option Failure) (bench : Workbench) :
    let after := (engine.exitEach event states failure bench).2
    after.state.active = bench.state.active ∧
      after.state.history = bench.state.history ∧
      after.supervisor.account = bench.supervisor.account ++
        states.map fun state => .exited (engine.machine.chart.id state) := by
  induction states generalizing failure bench with
  | nil => exact ⟨rfl, rfl, by simp [exitEach]⟩
  | cons state states ih =>
      have kept := performAll_kept engine event state
        (engine.machine.conduct state).exit
        (bench.reveal (.exited (engine.machine.chart.id state)))
      have left : (bench.reveal (.exited (engine.machine.chart.id state))).supervisor.account =
          bench.supervisor.account ++ [.exited (engine.machine.chart.id state)] := by
        simp [Workbench.reveal, Workbench.onSupervisor, Supervisor.reveal, Emission.told?]
      have further : ∀ (failure : Option Failure) (middle : Workbench),
          (bench.reveal (.exited (engine.machine.chart.id state))).Kept middle →
          let after := (engine.exitEach event states failure middle).2
          after.state.active = bench.state.active ∧
            after.state.history = bench.state.history ∧
            after.supervisor.account = bench.supervisor.account ++
              (state :: states).map fun state => .exited (engine.machine.chart.id state) := by
        intro failure middle kept
        obtain ⟨active, history, account⟩ := ih failure middle
        refine ⟨active.trans kept.active, history.trans kept.history, ?_⟩
        rw [account, kept.account, left, List.append_assoc]
        rfl
      rw [ends_iff_run] at kept
      unfold exitEach
      dsimp only
      split
      · rename_i after performed
        exact further failure after (kept.1 _ after performed)
      · rename_i reason after performed
        exact further _ after (kept.2 reason after performed)

/-- Concluding tells of the exit of every active state, the last one first. -/
theorem exitAll_ends
    (bench : Workbench) :
    let after := (engine.exitAll event bench).2
    after.state.active = bench.state.active ∧
      after.state.history = bench.state.history ∧
      after.supervisor.account = bench.supervisor.account ++
        bench.state.active.reverse.map fun state =>
          .exited (engine.machine.chart.id state) := by
  obtain ⟨active, history, account⟩ := exitEach_ends engine event bench.state.active.reverse
    none (bench.onSupervisor fun supervisor => supervisor.stopAll engine.nursery)
  refine ⟨active, history, ?_⟩
  refine (Supervisor.account_stopAll _ engine.nursery).trans (account.trans ?_)
  exact congrArg (· ++ _) (Supervisor.account_stopAll bench.supervisor engine.nursery)

end Engine

namespace Interpreter

variable {machine : Machine ActorLogic} (formed : machine.WellFormed)
variable {past : Past} (facilities : Facilities) (nursery : Nursery)

/-- A running interpreter with a chronicle, whatever it shows. -/
structure Underway (machine : Machine ActorLogic) (past : Past)
    (interpreter : Interpreter) : Prop where
  runs : interpreter.machine = machine
  fresh : interpreter.restored = false
  running : interpreter.status = .running
  follows : interpreter.bench.Follows machine past.account
  published : ∀ snapshot, ShownIn (past.account ++ interpreter.supervisor.account) snapshot →
    machine.Reaches snapshot.active snapshot.history

theorem Accounted.underway
    {interpreter : Interpreter}
    (accounted : interpreter.Accounted machine past)
    (running : interpreter.status = .running) :
    interpreter.Underway machine past where
  runs := accounted.runs
  fresh := accounted.fresh
  running := running
  follows := accounted.standing.of_running running
  published := fun snapshot shown =>
    (accounted.published snapshot shown).reaches (by rw [running]; decide)

theorem Underway.publish
    {interpreter : Interpreter}
    (underway : interpreter.Underway machine past) :
    interpreter.refresh.publish.Accounted machine past := by
  obtain ⟨visits, chronicle, told⟩ := underway.follows
  have refreshed : interpreter.refresh.Accounted machine past :=
    { runs := underway.runs
      fresh := underway.fresh
      shows := ⟨rfl, rfl, rfl, rfl⟩
      standing := .running visits underway.running chronicle told
      published := fun snapshot shown => .inl (underway.published snapshot shown) }
  exact refreshed.publishes (publishes_publish _) (.inl ⟨visits, chronicle⟩)

theorem Underway.conclude
    {interpreter : Interpreter}
    (underway : interpreter.Underway machine past)
    (event : Event) {status : Status}
    (ending : status = .stopped ∨ status = .done) :
    (interpreter.conclude facilities nursery event status).2.Accounted machine past ∧
      (interpreter.conclude facilities nursery event status).2.status = status := by
  obtain ⟨visits, chronicle, told⟩ := underway.follows
  obtain ⟨active, history, account⟩ :=
    (interpreter.engine facilities nursery).exitAll_ends event interpreter.bench
  unfold Interpreter.conclude
  generalize (interpreter.engine facilities nursery).exitAll event interpreter.bench =
    outcome at active history account ⊢
  obtain ⟨failure, bench⟩ := outcome
  have left : bench.supervisor.account = interpreter.bench.supervisor.account ++
      (visitAll false interpreter.state.active.reverse).map
        (Visit.activity machine.chart) := by
    rw [map_visitAll_leaving, ← underway.runs]
    exact account
  have concluded : ({ interpreter.commit bench with status } : Interpreter).refresh.Accounted
      machine past := by
    refine
      { runs := underway.runs
        fresh := underway.fresh
        shows := ⟨rfl, rfl, rfl, rfl⟩
        standing := .concluded visits ending ?_ ?_
        published := ?_ }
    · change machine.Chronicle visits bench.state.active bench.state.history
      rw [active, history]
      exact chronicle
    · change visitsIn (past.account ++ bench.supervisor.account) =
        (visits ++ visitAll false bench.state.active.reverse).map _
      rw [Engine.visitsIn_account left, told, active, List.map_append]
      rfl
    · intro snapshot shown
      change ShownIn (past.account ++ bench.supervisor.account) snapshot at shown
      rw [left, ← List.append_assoc] at shown
      rcases shownIn_append.mp shown with known | visited
      · exact .inl (underway.published snapshot known)
      · exact absurd visited
          (not_shownIn_of_visits (by simp [Visit.activity_isVisit]))
  have may : ({ interpreter.commit bench with status } : Interpreter).refresh.MayShow
      machine past.entered
      ({ interpreter.commit bench with status } : Interpreter).refresh.snapshot := by
    left
    refine ⟨visits, ?_⟩
    change machine.Chronicle visits bench.state.active bench.state.history
    rw [active, history]
    exact chronicle
  have shown := publishes_publish
    ({ interpreter.commit bench with status } : Interpreter).refresh
  exact ⟨(concluded.publishes shown may).silent (silent_complete _),
    (silent_complete _).status.trans shown.status⟩

theorem Accounted.depart
    {interpreter : Interpreter}
    (accounted : interpreter.Accounted machine past)
    (may : interpreter.MayShow machine past.entered interpreter.snapshot)
    (failure : Failure) :
    (interpreter.publish.tellEnd fun listener => .failed listener failure).complete.Accounted
        machine past ∧
      (interpreter.publish.tellEnd fun listener => .failed listener failure).complete.status =
        interpreter.status := by
  have shown := publishes_publish interpreter
  have told : interpreter.publish.Silent
      (interpreter.publish.tellEnd fun listener => .failed listener failure) :=
    silent_tellEnd interpreter.publish fun _ => rfl
  have whole := told.trans (silent_complete _)
  exact ⟨(accounted.publishes shown may).silent whole, whole.status.trans shown.status⟩

theorem fail_accounted
    (interpreter : Interpreter) (failure : Failure)
    (runs : interpreter.machine = machine)
    (fresh : interpreter.restored = false)
    (standing : ¬ past.entered ∧ interpreter.state.active = [] ∨ ∃ visits rest,
      machine.Chronicle visits interpreter.state.active interpreter.state.history ∧
        visitsIn (past.account ++ interpreter.supervisor.account) =
          visits.map (Visit.activity machine.chart) ++ rest)
    (published : ∀ snapshot, ShownIn (past.account ++ interpreter.supervisor.account) snapshot →
      machine.Reaches snapshot.active snapshot.history) :
    (interpreter.fail nursery failure).Accounted machine past ∧
      (interpreter.fail nursery failure).status = .error := by
  have account := Supervisor.account_stopAll interpreter.supervisor nursery
  unfold fail
  refine Accounted.depart ?_ ?_ failure
  · refine
      { runs := runs
        fresh := fresh
        shows := ⟨rfl, rfl, rfl, rfl⟩
        standing := ?_
        published := fun snapshot shown => .inl (published snapshot (account ▸ shown)) }
    rcases standing with ⟨early, inactive⟩ | ⟨earlier, rest, chronicle, told⟩
    · exact .stillborn early rfl inactive
    · exact .failed earlier rest rfl chronicle
        ((congrArg (fun account => visitsIn (past.account ++ account)) account).trans told)
  · rcases standing with ⟨early, inactive⟩ | ⟨visits, rest, chronicle, told⟩
    · exact .inr ⟨early, rfl, inactive⟩
    · exact .inl ⟨visits, chronicle⟩

/-- Accounted for, and not waiting for its start. -/
structure Begun (machine : Machine ActorLogic) (past : Past)
    (interpreter : Interpreter) : Prop extends interpreter.Accounted machine past where
  started : interpreter.status ≠ .notStarted

theorem Begun.silent
    {before after : Interpreter}
    (begun : before.Begun machine past)
    (silent : before.Silent after) :
    after.Begun machine past :=
  ⟨begun.toAccounted.silent silent, silent.status ▸ begun.started⟩

section Running

variable {interpreter : Interpreter} {event : Event} {bench : Workbench}
variable (runs : interpreter.machine = machine)
variable (fresh : interpreter.restored = false)
variable (published : ∀ snapshot,
  ShownIn (past.account ++ interpreter.supervisor.account) snapshot →
    machine.Reaches snapshot.active snapshot.history)
variable (told : Engine.ToldMore interpreter.bench bench)

include published told in
theorem published_on_bench
    (snapshot : Snapshot)
    (shown : ShownIn (past.account ++ bench.supervisor.account) snapshot) :
    machine.Reaches snapshot.active snapshot.history := by
  obtain ⟨visits, account, areVisits⟩ := told
  rw [account, ← List.append_assoc] at shown
  rcases shownIn_append.mp shown with known | new
  · exact published snapshot known
  · exact absurd new (not_shownIn_of_visits areVisits)

include runs fresh published told

variable (interpreter) in
theorem settle_accounted
    (running : interpreter.status = .running)
    (follows : bench.Follows machine past.account)
    (handled : Bool) :
    (interpreter.settle facilities nursery event handled bench).Begun machine past := by
  have reported := silent_reported interpreter event handled bench
  have underway : (interpreter.steppedTo event handled bench).Underway machine past := by
    refine
      { runs := reported.machine.trans runs
        fresh := reported.restored.trans fresh
        running := reported.status.trans running
        follows := ?_
        published := ?_ }
    · exact follows.kept ⟨rfl, rfl, reported.account⟩
    · intro snapshot shown
      apply published_on_bench published told
      rw [← show (interpreter.reported event handled bench).supervisor.account =
        bench.supervisor.account from reported.account]
      exact shown
  rw [settle_eq]
  split
  · obtain ⟨accounted, status⟩ :=
      underway.conclude facilities nursery event (.inr rfl : _ ∨ Status.done = .done)
    exact ⟨accounted, by rw [status]; decide⟩
  · refine ⟨underway.publish, ?_⟩
    rw [(publishes_publish _).status]
    exact fun unstarted => by simp [refresh, underway.running] at unstarted

variable (interpreter) in
theorem abandon_accounted
    (standing : ¬ past.entered ∧ interpreter.state.active = [] ∨
      interpreter.bench.Follows machine past.account)
    (failure : Failure) :
    (interpreter.abandon nursery event failure bench).Begun machine past := by
  have diagnosed := silent_reported interpreter event true bench
  rw [abandon_eq]
  generalize interpreter.reported event true bench = reported at diagnosed ⊢
  have reached := published_on_bench published told
  obtain ⟨more, account, areVisits⟩ := told
  have same : reported.supervisor.account = bench.supervisor.account := diagnosed.account
  have state : reported.state = interpreter.state := diagnosed.state
  have before : ¬ past.entered ∧ reported.state.active = [] ∨ ∃ visits rest,
      machine.Chronicle visits reported.state.active reported.state.history ∧
        visitsIn (past.account ++ reported.supervisor.account) =
          visits.map (Visit.activity machine.chart) ++ rest := by
    rw [state, same]
    rcases standing with inactive | ⟨earlier, chronicle, toldBefore⟩
    · exact .inl inactive
    · refine .inr ⟨earlier, more, chronicle, ?_⟩
      rw [account, ← List.append_assoc, visitsIn_append, visitsIn_of_visits areVisits]
      exact congrArg (· ++ more) toldBefore
  have shownBefore : ∀ snapshot,
      ShownIn (past.account ++ reported.supervisor.account) snapshot →
      machine.Reaches snapshot.active snapshot.history := by
    rw [same]
    exact reached
  have failed := fail_accounted nursery (reported.withLastEvent event) failure
    (diagnosed.machine.trans runs) (diagnosed.restored.trans fresh) before shownBefore
  exact ⟨failed.1, by rw [failed.2]; decide⟩

end Running

/-- A running interpreter that is accounted for is so after the operation too. -/
def Steady {answer : Type} (machine : Machine ActorLogic) (past : Past)
    (operation : Handling answer) : Prop :=
  ∀ interpreter : Interpreter, interpreter.Accounted machine past →
    interpreter.status = .running →
      Ends operation interpreter (fun _ after => after.Begun machine past)
        (fun _ after => after.Begun machine past)

section Handling

include formed

theorem process_steady
    (event : Event) :
    Steady machine past (process facilities nursery event) := by
  intro interpreter accounted running
  have underway := accounted.underway running
  have stepped := Engine.macrostep_follows (interpreter.engine facilities nursery) formed
    underway.runs event underway.follows
  rw [ends_iff_run] at stepped
  simp only [process, run, ends_bind, ends_get]
  split
  · rename_i handled bench ran
    obtain ⟨follows, told⟩ := stepped.1 handled bench ran
    exact settle_accounted facilities nursery interpreter underway.runs underway.fresh
      underway.published told running follows handled
  · rename_i failure bench ran
    exact abandon_accounted nursery interpreter underway.runs underway.fresh
      underway.published (stepped.2 failure bench ran) (.inr underway.follows) failure

theorem afterwards_steady
    (child : String) (error : Option ActorError) :
    Steady machine past (afterwards facilities nursery child error) := by
  intro interpreter accounted running
  cases error with
  | none => exact ⟨accounted, by rw [running]; decide⟩
  | some error =>
      have dismissed : interpreter.Silent
          (interpreter.onSupervisor fun supervisor =>
            supervisor.dismiss nursery .error child) :=
        silent_onSupervisor interpreter (by simp)
      exact process_steady formed facilities nursery _ _ (accounted.silent dismissed)
        (dismissed.status.trans running)

theorem forward_steady
    (child : String) (event : Event) :
    Steady machine past (forward facilities nursery child event) := by
  intro interpreter accounted running
  have delivered : interpreter.Silent
      { interpreter with
        supervisor := (interpreter.supervisor.deliver nursery child event).2 } :=
    ⟨⟨rfl, rfl, rfl, rfl, rfl⟩, Supervisor.account_deliver ..⟩
  exact afterwards_steady formed facilities nursery child _ _ (accounted.silent delivered)
    running

theorem wakeChild_steady
    (child : String) :
    Steady machine past (wakeChild facilities nursery child) := by
  intro interpreter accounted running
  have woken : interpreter.Silent
      { interpreter with supervisor := (interpreter.supervisor.wake nursery child).2 } :=
    ⟨⟨rfl, rfl, rfl, rfl, rfl⟩, Supervisor.account_wake ..⟩
  exact afterwards_steady formed facilities nursery child _ _ (accounted.silent woken)
    running

omit formed in
theorem finishActor_ends
    (origin : Origin) (status : ActorStatus) (interpreter : Interpreter) :
    Ends (finishActor nursery origin status) interpreter
      (fun _ after => interpreter.Silent after) (fun _ after => interpreter.Silent after) :=
  ⟨⟨rfl, rfl, rfl, rfl, rfl⟩, Supervisor.account_finish ..⟩

theorem makeDelivery_steady
    (delivery : Delivery) :
    Steady machine past (makeDelivery facilities nursery delivery) := by
  cases delivery with
  | event event => exact process_steady formed facilities nursery event
  | forward child event => exact forward_steady formed facilities nursery child event
  | parent event =>
      intro interpreter accounted running
      have sent : interpreter.Silent
          (interpreter.onSupervisor fun supervisor => supervisor.sendUp event) :=
        silent_onSupervisor interpreter (by simp)
      exact ⟨accounted.silent sent, by rw [sent.status, running]; decide⟩

omit formed in
theorem stopRunning_steady :
    Steady machine past (stopRunning facilities nursery) := by
  intro interpreter accounted running
  obtain ⟨concluded, status⟩ := (accounted.underway running).conclude facilities nursery
    Event.stop (.inl rfl : Status.stopped = .stopped ∨ _)
  have begun : (interpreter.conclude facilities nursery Event.stop .stopped).2.Begun
      machine past := ⟨concluded, by rw [status]; decide⟩
  simp only [stopRunning, ends_bind, ends_get, ends_set]
  split <;> exact begun

omit formed in
theorem Accounted.withdraw
    {interpreter : Interpreter}
    (accounted : interpreter.Accounted machine past)
    (unstarted : interpreter.status = .notStarted) :
    { interpreter with deferred := [], status := .stopped }.refresh.complete.Begun
      machine past := by
  have withdrawn : ({ interpreter with deferred := [], status := .stopped } :
      Interpreter).refresh.Begun machine past := by
    refine
      { runs := accounted.runs
        fresh := accounted.fresh
        shows := ⟨rfl, rfl, rfl, rfl⟩
        standing := ?_
        published := ?_
        started := fun same => by cases same }
    · obtain ⟨early, untold, inactive, _⟩ := accounted.standing.of_unstarted unstarted
      exact .withdrawn early rfl untold inactive
    · intro snapshot shown
      exact .inl ((accounted.published snapshot shown).reaches (by rw [unstarted]; decide))
  exact withdrawn.silent (silent_complete _)

omit formed in
theorem stop_ends
    {interpreter : Interpreter}
    (accounted : interpreter.Accounted machine past) :
    Ends (stop facilities nursery) interpreter
      (fun _ after => after.Begun machine past) (fun _ after => after.Begun machine past) := by
  simp only [stop, ends_bind, ends_get]
  split
  · rename_i running
    exact stopRunning_steady facilities nursery interpreter accounted running
  · rename_i unstarted
    exact accounted.withdraw unstarted
  all_goals
    rename_i ended
    exact ⟨accounted, by rw [ended]; decide⟩

theorem dispatchEvent_steady
    (sender : Option Origin) (event : Event) (terminal : Bool) :
    Steady machine past (dispatchEvent facilities nursery sender event terminal) := by
  intro interpreter accounted running
  cases sender with
  | none => exact process_steady formed facilities nursery event interpreter accounted running
  | some origin =>
      simp only [dispatchEvent, ends_bind, ends_get]
      split
      · split
        · simp only [ends_bind]
          refine (finishActor_ends nursery origin _ interpreter).mono ?_ ?_
          · intro _ middle finished
            exact process_steady formed facilities nursery event middle
              (accounted.silent finished) (finished.status.trans running)
          · intro _ middle finished
            exact ⟨accounted.silent finished, by rw [finished.status, running]; decide⟩
        · exact process_steady formed facilities nursery event interpreter accounted running
      · exact ⟨accounted, by rw [running]; decide⟩

theorem dispatch_steady
    (envelope : Envelope) :
    Steady machine past (dispatch facilities nursery envelope) := by
  cases envelope with
  | event sender event terminal =>
      exact dispatchEvent_steady formed facilities nursery sender event terminal
  | forward child event => exact forward_steady formed facilities nursery child event
  | wake child => exact wakeChild_steady formed facilities nursery child
  | timerFired timer delivery =>
      intro interpreter accounted running
      simp only [dispatch, ends_bind]
      refine (finishActor_ends nursery timer .done interpreter).mono ?_ ?_
      · intro found middle finished
        have stillRunning := finished.status.trans running
        split
        · exact makeDelivery_steady formed facilities nursery delivery middle
            (accounted.silent finished) stillRunning
        · exact ⟨accounted.silent finished, by rw [stillRunning]; decide⟩
      · intro _ middle finished
        exact ⟨accounted.silent finished, by rw [finished.status, running]; decide⟩
  | stop => exact fun interpreter accounted _ => stop_ends facilities nursery accounted

omit formed in
theorem nextEnvelope_silent
    {interpreter rest : Interpreter} {envelope : Envelope}
    (found : interpreter.nextEnvelope? = some (envelope, rest)) :
    interpreter.Silent rest := by
  unfold nextEnvelope? at found
  split at found
  · cases found
  · cases found
    exact silent_onSupervisor interpreter rfl

theorem drain_ends
    (patience handled : Nat) {interpreter : Interpreter}
    (begun : interpreter.Begun machine past) :
    Ends (drain facilities nursery patience handled) interpreter
      (fun _ after => after.Begun machine past) (fun _ after => after.Begun machine past) := by
  induction patience generalizing handled interpreter with
  | zero =>
      rw [drain, ends_bind, ends_get]
      split
      · exact begun.silent (silent_onSupervisor interpreter rfl)
      · split <;> exact begun
  | succ patience ih =>
      rw [drain, ends_bind, ends_get]
      split
      · exact begun.silent (silent_onSupervisor interpreter rfl)
      · rename_i unended
        split
        · exact begun
        · rename_i envelope rest found
          have taken := begun.silent (nextEnvelope_silent found)
          have running := Status.eq_running begun.started unended
          simp only [ends_bind, ends_set]
          refine (dispatch_steady formed facilities nursery envelope rest taken.toAccounted
            ((nextEnvelope_silent found).status.trans running)).mono ?_ (fun _ _ left => left)
          exact fun _ after dealt => ih (handled + 1) dealt

theorem flush_ends
    {interpreter : Interpreter}
    (accounted : interpreter.Accounted machine past) :
    Ends (flush facilities nursery) interpreter
      (fun _ after => after.Accounted machine past)
      (fun _ after => after.Accounted machine past) := by
  simp only [flush, ends_bind, ends_get]
  split
  · exact accounted
  · rename_i started
    exact (drain_ends formed facilities nursery _ 0 ⟨accounted, started⟩).mono
      (fun _ _ begun => begun.toAccounted) (fun _ _ begun => begun.toAccounted)

theorem send_ends
    (event : Event) {interpreter : Interpreter}
    (accounted : interpreter.Accounted machine past) :
    Ends (send facilities nursery event) interpreter
      (fun _ after => after.Accounted machine past)
      (fun _ after => after.Accounted machine past) := by
  simp only [send, ends_bind, ends_get]
  split
  · exact accounted.silent ⟨⟨rfl, rfl, rfl, rfl, rfl⟩, rfl⟩
  · exact accounted
  · simp only [ends_bind, ends_set]
    refine (flush_ends formed facilities nursery ?_).mono (fun _ _ dealt => dealt)
      (fun _ _ dealt => dealt)
    exact accounted.silent (silent_onSupervisor interpreter rfl)
  all_goals exact accounted

theorem tick_ends
    {interpreter : Interpreter}
    (accounted : interpreter.Accounted machine past) :
    Ends (tick facilities nursery) interpreter
      (fun _ after => after.Accounted machine past)
      (fun _ after => after.Accounted machine past) := by
  simp only [tick, ends_bind, ends_get]
  split
  · rename_i running
    split
    · exact accounted
    · rename_i envelope rest found
      have taken := nextEnvelope_silent found
      simp only [ends_bind, ends_set, ends_pure]
      refine (dispatch_steady formed facilities nursery envelope rest (accounted.silent taken)
        (taken.status.trans running)).mono ?_ (fun _ _ begun => begun.toAccounted)
      intro _ middle begun
      exact (flush_ends formed facilities nursery begun.toAccounted).mono
        (fun _ _ dealt => dealt) (fun _ _ dealt => dealt)
  · simp only [ends_bind, ends_pure]
    exact (flush_ends formed facilities nursery accounted).mono
      (fun _ _ dealt => dealt) (fun _ _ dealt => dealt)

theorem run_firstStep_ends
    (event : Event) {interpreter : Interpreter}
    (accounted : interpreter.Accounted machine past)
    (unstarted : interpreter.status = .notStarted) :
    Ends (run facilities nursery event Engine.firstStep)
      { interpreter with status := .running }
      (fun _ after => after.Begun machine past) (fun _ after => after.Begun machine past) := by
  have published : ∀ snapshot,
      ShownIn (past.account ++ interpreter.supervisor.account) snapshot →
        machine.Reaches snapshot.active snapshot.history := fun snapshot shown =>
    (accounted.published snapshot shown).reaches (by rw [unstarted]; decide)
  obtain ⟨early, untold, inactive, forgetful⟩ := accounted.standing.of_unstarted unstarted
  have stepped : Ends
      ((({ interpreter with status := .running } : Interpreter).engine facilities
        nursery).firstStep event)
      ({ interpreter with status := .running } : Interpreter).bench _ _ :=
    Engine.firstStep_follows _ formed accounted.runs event inactive forgetful untold
  rw [ends_iff_run] at stepped
  simp only [run, ends_bind, ends_get]
  split
  · rename_i handled bench ran
    obtain ⟨follows, told⟩ := stepped.1 handled bench ran
    exact settle_accounted facilities nursery { interpreter with status := .running }
      accounted.runs accounted.fresh published told rfl follows handled
  · rename_i failure bench ran
    exact abandon_accounted nursery { interpreter with status := .running }
      accounted.runs accounted.fresh published (stepped.2 failure bench ran)
      (.inl ⟨early, inactive⟩) failure

omit formed in
/-- Events that were put off become mail again, after what has come meanwhile. -/
theorem recallDeferred_eq
    (interpreter : Interpreter) :
    interpreter.recallDeferred =
      { interpreter with
        supervisor := { interpreter.supervisor with
          inbox := interpreter.supervisor.inbox ++ interpreter.deferred.map .plain }
        deferred := [] } := by
  have recalled : ∀ (events : List Event) (supervisor : Supervisor Interpreter),
      events.foldl (fun supervisor event => supervisor.keep (.plain event)) supervisor =
        { supervisor with inbox := supervisor.inbox ++ events.map .plain } := by
    intro events
    induction events with
    | nil => simp
    | cons event events ih =>
        intro supervisor
        rw [List.foldl_cons, ih, List.map_cons, List.append_cons]
        rfl
  unfold recallDeferred
  rw [recalled]

omit formed in
theorem recallDeferred_silent
    (interpreter : Interpreter) :
    interpreter.Silent interpreter.recallDeferred := by
  rw [recallDeferred_eq]
  exact ⟨⟨rfl, rfl, rfl, rfl, rfl⟩, rfl⟩

theorem start_ends
    {interpreter : Interpreter}
    (accounted : interpreter.Accounted machine past) :
    Ends (start facilities nursery) interpreter
      (fun _ after => after.Accounted machine past)
      (fun _ after => after.Accounted machine past) := by
  simp only [start, ends_bind, ends_get]
  split
  · rename_i unstarted
    have notRestored : ¬ interpreter.restored = true := by simp [accounted.fresh]
    simp only [ends_bind, ends_set]
    rw [if_neg notRestored]
    simp only [ends_bind, ends_modify]
    refine (run_firstStep_ends formed facilities nursery _ accounted unstarted).mono ?_
      (fun _ _ begun => begun.toAccounted)
    intro _ middle begun
    exact (flush_ends formed facilities nursery
      (begun.silent (recallDeferred_silent middle)).toAccounted).mono
      (fun _ _ dealt => dealt) (fun _ _ dealt => dealt)
  · exact accounted

end Handling

end Interpreter

end Statechart
