import Statechart.Interpreter.Lifecycle
import Statechart.Proofs.Macrostep
import Statechart.Proofs.Publishing

/-!
# What an interpreter has told at each point of its life

An interpreter is accounted for when its status fits what it has told so far: nothing
before the start; a chronicle that leads to its active states while it runs; after its end
the exits of all active states on top of that; and after a failed step whatever the step
told before it failed.  Every operation keeps interpreters accounted for.
-/

namespace Statechart

/-- The snapshot shows this state and this status. -/
structure Snapshot.Shows (snapshot : Snapshot) (state : StepState) (status : Status) :
    Prop where
  active : snapshot.active = state.active
  history : snapshot.history = state.history
  context : snapshot.context = state.context
  status : snapshot.status = status

namespace Interpreter

/-- The two differ at most in mail, actors, observers and what has come out. -/
structure Alike (before after : Interpreter) : Prop where
  machine : after.machine = before.machine
  restored : after.restored = before.restored
  status : after.status = before.status
  state : after.state = before.state
  snapshot : after.snapshot = before.snapshot

theorem Alike.refl (interpreter : Interpreter) : interpreter.Alike interpreter :=
  ⟨rfl, rfl, rfl, rfl, rfl⟩

theorem Alike.trans
    {first second third : Interpreter}
    (earlier : first.Alike second)
    (later : second.Alike third) :
    first.Alike third :=
  ⟨later.machine.trans earlier.machine, later.restored.trans earlier.restored,
    later.status.trans earlier.status, later.state.trans earlier.state,
    later.snapshot.trans earlier.snapshot⟩

/-- The two are alike, and nothing was told in between. -/
structure Silent (before after : Interpreter) : Prop extends before.Alike after where
  account : after.supervisor.account = before.supervisor.account

theorem Silent.refl (interpreter : Interpreter) : interpreter.Silent interpreter :=
  ⟨.refl interpreter, rfl⟩

theorem Silent.trans
    {first second third : Interpreter}
    (earlier : first.Silent second)
    (later : second.Silent third) :
    first.Silent third :=
  ⟨earlier.toAlike.trans later.toAlike, later.account.trans earlier.account⟩

/-- The two are alike, and at most the snapshot was shown in between. -/
structure Publishes (before after : Interpreter) : Prop extends before.Alike after where
  account : ∃ told, after.supervisor.account = before.supervisor.account ++ told ∧
    ∀ activity ∈ told, ∃ listener, activity = .published listener before.snapshot

theorem Silent.publishes
    {before after : Interpreter}
    (silent : before.Silent after) :
    before.Publishes after :=
  ⟨silent.toAlike, [], by simp [silent.account]⟩

theorem Publishes.trans
    {first second third : Interpreter}
    (earlier : first.Publishes second)
    (later : second.Publishes third) :
    first.Publishes third := by
  obtain ⟨told, account, shown⟩ := earlier.account
  obtain ⟨further, accountLater, shownLater⟩ := later.account
  refine ⟨earlier.toAlike.trans later.toAlike, told ++ further, ?_, ?_⟩
  · rw [accountLater, account, List.append_assoc]
  · intro activity member
    rcases List.mem_append.mp member with here | there
    · exact shown activity here
    · rw [← earlier.snapshot]
      exact shownLater activity there

section Silence

variable (interpreter : Interpreter)

theorem silent_onSupervisor
    {change : Supervisor Interpreter → Supervisor Interpreter}
    (silent : (change interpreter.supervisor).account = interpreter.supervisor.account) :
    interpreter.Silent (interpreter.onSupervisor change) :=
  ⟨⟨rfl, rfl, rfl, rfl, rfl⟩, silent⟩

theorem silent_react
    (ticket : Nat) (reaction : Reaction) :
    interpreter.Silent (react ticket interpreter reaction) := by
  cases reaction with
  | unsubscribe => exact ⟨⟨rfl, rfl, rfl, rfl, rfl⟩, rfl⟩
  | post event =>
      unfold react
      exact silent_onSupervisor interpreter (by simp)

variable {before after : Interpreter}

theorem Tells.silent
    {kind : Activity → Prop}
    (tells : Tells kind before after)
    (untold : ∀ activity, kind activity → Emission.told? (.activity [] activity) = none) :
    before.Silent after := by
  cases tells with
  | @reveal activity isOfKind =>
      exact silent_onSupervisor before (by simp [Supervisor.reveal, untold activity isOfKind])
  | react ticket reaction => exact silent_react before ticket reaction
  | prune => exact ⟨⟨rfl, rfl, rfl, rfl, rfl⟩, rfl⟩

theorem Tellings.silent
    {kind : Activity → Prop}
    (tellings : Tellings kind before after)
    (untold : ∀ activity, kind activity → Emission.told? (.activity [] activity) = none) :
    before.Silent after :=
  fulfils_of_steps Silent.refl Silent.trans (fun tells => tells.silent untold) tellings

theorem Tells.publishes
    (tells : Tells (Activity.Presents before.snapshot) before after) :
    before.Publishes after := by
  cases tells with
  | reveal presents =>
      obtain ⟨listener, rfl⟩ := presents
      exact ⟨⟨rfl, rfl, rfl, rfl, rfl⟩, [.published listener before.snapshot],
        by simp [Interpreter.reveal, onSupervisor, Supervisor.reveal, Emission.told?], by simp⟩
  | react ticket reaction => exact (silent_react before ticket reaction).publishes
  | prune => exact Silent.publishes ⟨⟨rfl, rfl, rfl, rfl, rfl⟩, rfl⟩

theorem Tellings.publishes
    (tellings : Tellings (Activity.Presents before.snapshot) before after) :
    before.Publishes after := by
  induction tellings with
  | refl => exact (Silent.refl before).publishes
  | tail _ last ih =>
      rw [← ih.snapshot] at last
      exact ih.trans last.publishes

theorem silent_reported
    (event : Event) (handled : Bool) (bench : Workbench) :
    (interpreter.keepSupervisor bench).Silent (interpreter.reported event handled bench) := by
  refine (tellings_reported interpreter event handled bench).silent ?_
  intro activity isReport
  cases activity <;> first | rfl | cases isReport

theorem silent_tellEnd
    {tell : Listener → Activity}
    (untold : ∀ listener, Emission.told? (.activity [] (tell listener)) = none) :
    interpreter.Silent (interpreter.tellEnd tell) := by
  refine (tellings_tellEnd interpreter tell).silent ?_
  rintro _ ⟨listener, rfl⟩
  exact untold listener

theorem silent_complete : interpreter.Silent interpreter.complete :=
  (silent_tellEnd interpreter fun _ => rfl).trans ⟨⟨rfl, rfl, rfl, rfl, rfl⟩, rfl⟩

theorem publishes_publish : interpreter.Publishes interpreter.publish :=
  (tellings_publish interpreter).publishes

end Silence

/-- What is known of an interpreter from before: what had been told, and whether its first
step had been taken. -/
structure Past where
  account : List Activity
  entered : Prop

/-- How the status of an interpreter fits what it has told; `entered` says that its first
step had been taken before. -/
inductive Standing (machine : Machine ActorLogic) (entered : Prop) (told : List Activity)
    (interpreter : Interpreter) : Prop where
  | unstarted :
      ¬ entered → interpreter.status = .notStarted → told = [] →
      interpreter.state.active = [] →
      interpreter.state.history = HistoryRecords.empty →
      Standing machine entered told interpreter
  | running (visits : List Visit) :
      interpreter.status = .running →
      machine.Chronicle visits interpreter.state.active interpreter.state.history →
      told = visits.map (Visit.activity machine.chart) →
      Standing machine entered told interpreter
  /-- Stopped before it was started. -/
  | withdrawn :
      ¬ entered → interpreter.status = .stopped → told = [] →
      interpreter.state.active = [] →
      Standing machine entered told interpreter
  /-- Stopped or done, all active states left. -/
  | concluded (visits : List Visit) :
      interpreter.status = .stopped ∨ interpreter.status = .done →
      machine.Chronicle visits interpreter.state.active interpreter.state.history →
      told = (visits ++ visitAll false interpreter.state.active.reverse).map
        (Visit.activity machine.chart) →
      Standing machine entered told interpreter
  /-- The first step failed. -/
  | stillborn :
      ¬ entered → interpreter.status = .error → interpreter.state.active = [] →
      Standing machine entered told interpreter
  /-- A later step failed, after it had told of some visits. -/
  | failed (visits : List Visit) (rest : List Activity) :
      interpreter.status = .error →
      machine.Chronicle visits interpreter.state.active interpreter.state.history →
      told = visits.map (Visit.activity machine.chart) ++ rest →
      Standing machine entered told interpreter

/-- The snapshot is of something that the machine reaches, unless the first step of the
interpreter has failed. -/
def MayShow (machine : Machine ActorLogic) (entered : Prop) (interpreter : Interpreter)
    (snapshot : Snapshot) : Prop :=
  machine.Reaches snapshot.active snapshot.history ∨
    ¬ entered ∧ interpreter.status = .error ∧ interpreter.state.active = []

/-- What the interpreter shows and has told, with what had been told before, fits its
status. -/
structure Accounted (machine : Machine ActorLogic) (past : Past)
    (interpreter : Interpreter) : Prop where
  runs : interpreter.machine = machine
  fresh : interpreter.restored = false
  shows : interpreter.snapshot.Shows interpreter.state interpreter.status
  standing : Standing machine past.entered
    (visitsIn (past.account ++ interpreter.supervisor.account)) interpreter
  published : ∀ snapshot, ShownIn (past.account ++ interpreter.supervisor.account) snapshot →
    interpreter.MayShow machine past.entered snapshot

section Keeping

variable {machine : Machine ActorLogic} {past : Past} {entered : Prop}
variable {told : List Activity} {before after : Interpreter}

theorem Standing.alike
    (standing : Standing machine entered told before)
    (alike : before.Alike after) :
    Standing machine entered told after := by
  cases standing with
  | unstarted early status untold inactive forgetful =>
      exact .unstarted early (alike.status.trans status) untold (alike.state ▸ inactive)
        (alike.state ▸ forgetful)
  | running visits status chronicle same =>
      exact .running visits (alike.status.trans status) (alike.state ▸ chronicle) same
  | withdrawn early status untold inactive =>
      exact .withdrawn early (alike.status.trans status) untold (alike.state ▸ inactive)
  | concluded visits status chronicle same =>
      exact .concluded visits (alike.status ▸ status) (alike.state ▸ chronicle)
        (alike.state ▸ same)
  | stillborn early status inactive =>
      exact .stillborn early (alike.status.trans status) (alike.state ▸ inactive)
  | failed visits rest status chronicle same =>
      exact .failed visits rest (alike.status.trans status) (alike.state ▸ chronicle) same

theorem Standing.of_running
    {interpreter : Interpreter}
    (standing : Standing machine entered told interpreter)
    (running : interpreter.status = .running) :
    ∃ visits, machine.Chronicle visits interpreter.state.active interpreter.state.history ∧
      told = visits.map (Visit.activity machine.chart) := by
  cases standing with
  | running visits _ chronicle same => exact ⟨visits, chronicle, same⟩
  | unstarted _ status => simp [running] at status
  | withdrawn _ status => simp [running] at status
  | concluded _ status => simp [running] at status
  | stillborn _ status => simp [running] at status
  | failed _ _ status => simp [running] at status

theorem Standing.of_unstarted
    {interpreter : Interpreter}
    (standing : Standing machine entered told interpreter)
    (unstarted : interpreter.status = .notStarted) :
    ¬ entered ∧ told = [] ∧ interpreter.state.active = [] ∧
      interpreter.state.history = HistoryRecords.empty := by
  cases standing with
  | unstarted early _ untold inactive forgetful => exact ⟨early, untold, inactive, forgetful⟩
  | running _ status => simp [unstarted] at status
  | withdrawn _ status => simp [unstarted] at status
  | concluded _ status => simp [unstarted] at status
  | stillborn _ status => simp [unstarted] at status
  | failed _ _ status => simp [unstarted] at status

theorem MayShow.reaches
    {interpreter : Interpreter} {snapshot : Snapshot}
    (may : interpreter.MayShow machine entered snapshot)
    (fine : interpreter.status ≠ .error) :
    machine.Reaches snapshot.active snapshot.history := by
  rcases may with reached | ⟨_, status, _⟩
  · exact reached
  · exact absurd status fine

theorem MayShow.alike
    {snapshot : Snapshot}
    (may : before.MayShow machine entered snapshot)
    (alike : before.Alike after) :
    after.MayShow machine entered snapshot := by
  unfold MayShow
  rw [alike.status, alike.state]
  exact may

theorem Accounted.silent
    (accounted : before.Accounted machine past)
    (silent : before.Silent after) :
    after.Accounted machine past where
  runs := silent.machine.trans accounted.runs
  fresh := silent.restored.trans accounted.fresh
  shows := by
    rw [silent.snapshot, silent.state, silent.status]
    exact accounted.shows
  standing := by
    rw [silent.account]
    exact accounted.standing.alike silent.toAlike
  published := by
    rw [silent.account]
    exact fun snapshot shown => (accounted.published snapshot shown).alike silent.toAlike

theorem Accounted.publishes
    (accounted : before.Accounted machine past)
    (publishes : before.Publishes after)
    (may : before.MayShow machine past.entered before.snapshot) :
    after.Accounted machine past := by
  obtain ⟨told, account, shown⟩ := publishes.account
  have invisible : visitsIn told = [] := by
    apply List.filter_eq_nil_iff.mpr
    intro activity member
    obtain ⟨listener, rfl⟩ := shown activity member
    simp [Activity.isVisit]
  have longer : past.account ++ after.supervisor.account =
      past.account ++ before.supervisor.account ++ told := by
    rw [account, List.append_assoc]
  constructor
  · exact publishes.machine.trans accounted.runs
  · exact publishes.restored.trans accounted.fresh
  · rw [publishes.snapshot, publishes.state, publishes.status]
    exact accounted.shows
  · rw [longer, visitsIn_append, invisible, List.append_nil]
    exact accounted.standing.alike publishes.toAlike
  · intro snapshot isShown
    rw [longer] at isShown
    rcases shownIn_append.mp isShown with known | ⟨listener, new⟩
    · exact (accounted.published snapshot known).alike publishes.toAlike
    · obtain ⟨_, same⟩ := shown _ new
      cases same
      exact may.alike publishes.toAlike

end Keeping

end Interpreter

/-- The first step has been taken: the interpreter runs or is done, or was left with active
states. -/
def Snapshot.HasEntered (snapshot : Snapshot) : Prop :=
  snapshot.status = .running ∨ snapshot.status = .done ∨ snapshot.active ≠ []

namespace Interpreter

variable {machine : Machine ActorLogic} {told : List Activity} {interpreter : Interpreter}

/-- Once the first step has been taken this is known for good. -/
theorem Accounted.enter
    {entered : Prop}
    (accounted : interpreter.Accounted machine { account := told, entered })
    (hasEntered : interpreter.snapshot.HasEntered) :
    interpreter.Accounted machine { account := told, entered := True } := by
  have shows := accounted.shows
  have neither : ∀ status, interpreter.status = status → interpreter.state.active = [] →
      status = .running ∨ status = .done := by
    rintro status rfl inactive
    rcases hasEntered with running | done | active
    · exact .inl (shows.status.symm.trans running)
    · exact .inr (shows.status.symm.trans done)
    · exact absurd (shows.active.trans inactive) active
  refine
    { runs := accounted.runs
      fresh := accounted.fresh
      shows := shows
      standing := ?_
      published := ?_ }
  · cases accounted.standing with
    | unstarted _ status _ inactive => simpa using neither _ status inactive
    | withdrawn _ status _ inactive => simpa using neither _ status inactive
    | stillborn _ status inactive => simpa using neither _ status inactive
    | running visits status chronicle same => exact .running visits status chronicle same
    | concluded visits status chronicle same =>
        exact .concluded visits status chronicle same
    | failed visits rest status chronicle same =>
        exact .failed visits rest status chronicle same
  · intro snapshot shown
    rcases accounted.published snapshot shown with reached | ⟨_, status, inactive⟩
    · exact .inl reached
    · simpa using neither _ status inactive

/-- After the first step every snapshot shows something that the machine reaches. -/
theorem Accounted.reaches
    (accounted : interpreter.Accounted machine { account := told, entered := True }) :
    machine.Reaches interpreter.snapshot.active interpreter.snapshot.history := by
  rw [accounted.shows.active, accounted.shows.history]
  cases accounted.standing with
  | unstarted early => exact absurd trivial early
  | withdrawn early => exact absurd trivial early
  | stillborn early => exact absurd trivial early
  | running visits _ chronicle => exact ⟨visits, chronicle⟩
  | concluded visits _ chronicle => exact ⟨visits, chronicle⟩
  | failed visits _ _ chronicle => exact ⟨visits, chronicle⟩

end Interpreter

end Statechart
