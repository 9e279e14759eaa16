import Mathlib.Logic.Relation
import Statechart.Interpreter.Lifecycle
import Statechart.Proofs.Outcomes

/-!
# The deeds of a supervisor

Whatever an interpreter does to its mailbox, its actors and what comes out of it is a
sequence of a few deeds: envelopes are put into the mailbox, things are let out, ids are
made up, actors are started, given something to do and removed.  What holds of every deed
holds of every step, however long, and of every envelope dealt with.

A step does no more than the chores among them: it neither gives actors something to do nor
tells anyone of its end.  Besides, it changes what the history states remember in one way
only.
-/

namespace Statechart

/-- Is it seen of an interpreter while it takes a step? -/
def Activity.isOfStep : Activity → Bool
  | .entered _ | .exited _ | .logged _ _ _ | .effect _ => true
  | _ => false

namespace Supervisor

/-- One thing that a supervisor does. -/
inductive Deed (facilities : Facilities) (nursery : Nursery) :
    Supervisor Interpreter → Supervisor Interpreter → Prop where
  | keep (supervisor : Supervisor Interpreter) (envelope : Envelope) :
      Deed facilities nursery supervisor (supervisor.keep envelope)
  | post (supervisor : Supervisor Interpreter) (envelope : Envelope) :
      Deed facilities nursery supervisor (supervisor.post envelope)
  | sendUp (supervisor : Supervisor Interpreter) (event : Event) :
      Deed facilities nursery supervisor (supervisor.sendUp event)
  | reveal (supervisor : Supervisor Interpreter) (activity : Activity) :
      Deed facilities nursery supervisor (supervisor.reveal activity)
  | name (supervisor : Supervisor Interpreter) (stem : String) :
      Deed facilities nursery supervisor
        { supervisor with registry := (supervisor.registry.freshId stem).2 }
  | dismiss (supervisor : Supervisor Interpreter) {status : ActorStatus} (id : String) :
      status ≠ .active →
      Deed facilities nursery supervisor (supervisor.dismiss nursery status id)
  | spawn (supervisor : Supervisor Interpreter) (order : SpawnOrder) :
      Deed facilities nursery supervisor (supervisor.spawn facilities nursery order)
  | deliver (supervisor : Supervisor Interpreter) (id : String) (event : Event) :
      Deed facilities nursery supervisor
        (supervisor.deliver nursery id event).2
  | wake (supervisor : Supervisor Interpreter) (id : String) :
      Deed facilities nursery supervisor (supervisor.wake nursery id).2

/-- The right supervisor comes from the left one by deeds. -/
abbrev Works (facilities : Facilities) (nursery : Nursery) :
    Supervisor Interpreter → Supervisor Interpreter → Prop :=
  Relation.ReflTransGen (Deed facilities nursery)

/-- One thing that a supervisor does while a step is taken. -/
inductive Chore (facilities : Facilities) (nursery : Nursery) :
    Supervisor Interpreter → Supervisor Interpreter → Prop where
  | keep (supervisor : Supervisor Interpreter) (envelope : Envelope) :
      Chore facilities nursery supervisor (supervisor.keep envelope)
  | sendUp (supervisor : Supervisor Interpreter) (event : Event) :
      Chore facilities nursery supervisor (supervisor.sendUp event)
  | reveal (supervisor : Supervisor Interpreter) {activity : Activity} :
      activity.isOfStep = true → Chore facilities nursery supervisor (supervisor.reveal activity)
  | name (supervisor : Supervisor Interpreter) (stem : String) :
      Chore facilities nursery supervisor
        { supervisor with registry := (supervisor.registry.freshId stem).2 }
  | dismiss (supervisor : Supervisor Interpreter) (id : String) :
      Chore facilities nursery supervisor (supervisor.dismiss nursery .stopped id)
  | spawn (supervisor : Supervisor Interpreter) (order : SpawnOrder) :
      Chore facilities nursery supervisor (supervisor.spawn facilities nursery order)

/-- The right supervisor comes from the left one by chores. -/
abbrev Chores (facilities : Facilities) (nursery : Nursery) :
    Supervisor Interpreter → Supervisor Interpreter → Prop :=
  Relation.ReflTransGen (Chore facilities nursery)

/-- One thing that a supervisor does without giving an actor something to do. -/
inductive Routine (facilities : Facilities) (nursery : Nursery) :
    Supervisor Interpreter → Supervisor Interpreter → Prop where
  | chore {before after : Supervisor Interpreter} :
      Chore facilities nursery before after → Routine facilities nursery before after
  | post (supervisor : Supervisor Interpreter) (envelope : Envelope) :
      Routine facilities nursery supervisor (supervisor.post envelope)
  | reveal (supervisor : Supervisor Interpreter) (activity : Activity) :
      Routine facilities nursery supervisor (supervisor.reveal activity)

/-- The right supervisor comes from the left one by routine. -/
abbrev Routines (facilities : Facilities) (nursery : Nursery) :
    Supervisor Interpreter → Supervisor Interpreter → Prop :=
  Relation.ReflTransGen (Routine facilities nursery)

section Working

variable {facilities : Facilities} {nursery : Nursery}

theorem Chore.deed
    {before after : Supervisor Interpreter}
    (chore : Chore facilities nursery before after) :
    Deed facilities nursery before after := by
  cases chore with
  | keep envelope => exact .keep before envelope
  | sendUp event => exact .sendUp before event
  | reveal isOfStep => exact .reveal before _
  | name stem => exact .name before stem
  | dismiss id => exact .dismiss before id (by decide)
  | spawn order => exact .spawn before order

theorem Chores.routines
    {before after : Supervisor Interpreter}
    (chores : Chores facilities nursery before after) :
    Routines facilities nursery before after :=
  Relation.ReflTransGen.mono (fun _ _ => Routine.chore) _ _ chores

theorem Routine.deed
    {before after : Supervisor Interpreter}
    (routine : Routine facilities nursery before after) :
    Deed facilities nursery before after := by
  cases routine with
  | chore chore => exact chore.deed
  | post envelope => exact .post before envelope
  | reveal activity => exact .reveal before activity

theorem Routines.works
    {before after : Supervisor Interpreter}
    (routines : Routines facilities nursery before after) :
    Works facilities nursery before after :=
  Relation.ReflTransGen.mono (fun _ _ => Routine.deed) _ _ routines

theorem Chores.works
    {before after : Supervisor Interpreter}
    (chores : Chores facilities nursery before after) :
    Works facilities nursery before after :=
  chores.routines.works

variable (supervisor : Supervisor Interpreter)

theorem chores_stopWhere
    (chosen : Actor Interpreter → Bool) :
    Chores facilities nursery supervisor (supervisor.stopWhere nursery chosen) := by
  unfold stopWhere
  generalize supervisor.registry.doomed chosen = ids
  induction ids generalizing supervisor with
  | nil => exact .refl
  | cons id ids ih => exact .head (.dismiss supervisor id) (ih _)

theorem works_stopWhere
    (chosen : Actor Interpreter → Bool) :
    Works facilities nursery supervisor (supervisor.stopWhere nursery chosen) :=
  (chores_stopWhere supervisor chosen).works

theorem chores_cancelTimer
    (id : String) :
    Chores facilities nursery supervisor (supervisor.cancelTimer nursery id) := by
  unfold cancelTimer
  split
  · exact .single (.dismiss supervisor id)
  · exact .refl

end Working

end Supervisor

/-- The right records come from the left ones as states are left. -/
abbrev Chart.Remembers (chart : Chart) : HistoryRecords → HistoryRecords → Prop :=
  Relation.ReflTransGen fun before after =>
    ∃ active exiting, after = chart.recordHistory active before exiting

/-- Only chores are done on the bench, and history states remember only what was left. -/
structure Engine.Toils (engine : Engine) (before after : Workbench) : Prop where
  chores : Supervisor.Chores engine.facilities engine.nursery before.supervisor after.supervisor
  history : engine.machine.chart.Remembers before.state.history after.state.history

/-- However the part of a step ends, its supervisor has only done deeds. -/
def Diligent {answer : Type} (facilities : Facilities) (nursery : Nursery)
    (operation : StepM answer) : Prop :=
  ∀ bench : Workbench, Ends operation bench
    (fun _ after => Supervisor.Works facilities nursery bench.supervisor after.supervisor)
    (fun _ after => Supervisor.Works facilities nursery bench.supervisor after.supervisor)

/-- However the part of a step ends, it has only toiled. -/
def Dutiful {answer : Type} (engine : Engine) (operation : StepM answer) : Prop :=
  ∀ bench : Workbench, Ends operation bench (fun _ after => engine.Toils bench after)
    (fun _ after => engine.Toils bench after)

namespace Engine

variable {engine : Engine}

theorem Toils.refl (bench : Workbench) : engine.Toils bench bench :=
  ⟨.refl, .refl⟩

theorem Toils.trans
    {first second third : Workbench}
    (earlier : engine.Toils first second)
    (later : engine.Toils second third) :
    engine.Toils first third :=
  ⟨earlier.chores.trans later.chores, earlier.history.trans later.history⟩

theorem Toils.chore
    {before after : Workbench}
    (chore : Supervisor.Chore engine.facilities engine.nursery before.supervisor
      after.supervisor)
    (state : after.state = before.state) :
    engine.Toils before after :=
  ⟨.single chore, state ▸ .refl⟩

theorem Toils.foldl
    {item : Type} {step : Workbench → item → Workbench}
    (toils : ∀ bench next, engine.Toils bench (step bench next))
    (items : List item) (bench : Workbench) :
    engine.Toils bench (items.foldl step bench) :=
  List.foldlRecOn (motive := engine.Toils bench) items step (.refl bench)
    fun middle earlier next _ => earlier.trans (toils middle next)

end Engine

section Diligence

variable {engine : Engine} {answer result : Type}

theorem Dutiful.diligent
    {operation : StepM answer}
    (dutiful : Dutiful engine operation) :
    Diligent engine.facilities engine.nursery operation :=
  fun bench => (dutiful bench).mono (fun _ _ toils => toils.chores.works)
    (fun _ _ toils => toils.chores.works)

theorem dutiful_pure
    (given : answer) :
    Dutiful engine (pure given) :=
  fun bench => .refl bench

theorem dutiful_throw
    (failure : Failure) :
    Dutiful engine (throw failure : StepM answer) :=
  fun bench => .refl bench

theorem Dutiful.after
    {operation : StepM answer} {before middle : Workbench}
    (dutiful : Dutiful engine operation)
    (toils : engine.Toils before middle) :
    Ends operation middle (fun _ after => engine.Toils before after)
      (fun _ after => engine.Toils before after) :=
  (dutiful middle).mono (fun _ _ later => toils.trans later) (fun _ _ later => toils.trans later)

theorem Dutiful.bind
    {first : StepM answer} {next : answer → StepM result}
    (begin : Dutiful engine first)
    (further : ∀ given, Dutiful engine (next given)) :
    Dutiful engine (first >>= next) := by
  intro bench
  rw [ends_bind]
  exact (begin bench).mono (fun given _ earlier => (further given).after earlier)
    (fun _ _ toils => toils)

theorem dutiful_get : Dutiful engine (get : StepM Workbench) :=
  fun bench => .refl bench

theorem dutiful_modify
    {change : Workbench → Workbench}
    (toils : ∀ bench, engine.Toils bench (change bench)) :
    Dutiful engine (modify change : StepM Unit) :=
  toils

theorem dutiful_onState
    {change : StepState → StepState}
    (history : ∀ state, (change state).history = state.history) :
    Dutiful engine (modify (Workbench.onState change) : StepM Unit) := by
  intro bench
  have same : (bench.onState change).state.history = bench.state.history :=
    history bench.state
  exact ⟨.refl, same ▸ .refl⟩

end Diligence

namespace Engine

variable (engine : Engine) (event : Event)

theorem toils_spawn
    (order : SpawnOrder) (bench : Workbench) :
    engine.Toils bench (engine.spawn order bench) :=
  .chore (.spawn bench.supervisor order) rfl

theorem toils_nameOr
    (given : Option String) (stem : String) (bench : Workbench) :
    engine.Toils bench (bench.nameOr given stem).2 := by
  cases given with
  | some id => exact .refl bench
  | none => exact .chore (.name bench.supervisor stem) rfl

theorem toils_schedule
    (id : Option String) (delay : Duration) (delivery : Delivery) (bench : Workbench) :
    engine.Toils bench (engine.schedule id delay delivery bench) :=
  (toils_nameOr engine id "delay" bench).trans (toils_spawn engine _ _)

theorem toils_send
    (recipient : Recipient) (bench : Workbench) :
    engine.Toils bench (send recipient event bench) := by
  cases recipient with
  | self => exact .chore (.keep bench.supervisor _) rfl
  | parent => exact .chore (.sendUp bench.supervisor event) rfl
  | child id => exact .chore (.keep bench.supervisor _) rfl

theorem toils_obey
    (bench : Workbench) (command : Command) :
    engine.Toils bench (obey bench command) := by
  cases command with
  | raise event => exact ⟨.refl, .refl⟩
  | send recipient event => exact toils_send engine event recipient bench

theorem toils_reveal
    {activity : Activity}
    (isOfStep : activity.isOfStep = true) (bench : Workbench) :
    engine.Toils bench (bench.reveal activity) :=
  .chore (.reveal bench.supervisor isOfStep) rfl

theorem toils_onSupervisor
    {change : Supervisor Interpreter → Supervisor Interpreter}
    (chores : ∀ supervisor, Supervisor.Chores engine.facilities engine.nursery supervisor
      (change supervisor))
    (bench : Workbench) :
    engine.Toils bench (bench.onSupervisor change) :=
  ⟨chores bench.supervisor, .refl⟩

theorem toils_invokeAll
    (state : StateId) (bench : Workbench) :
    engine.Toils bench (engine.invokeAll event state bench) :=
  .foldl (fun bench _ => toils_spawn engine _ bench) _ bench

theorem toils_delayAll
    (state : StateId) (bench : Workbench) :
    engine.Toils bench (engine.delayAll state bench) :=
  .foldl (fun bench _ => toils_spawn engine _ bench) _ bench

theorem perform_dutiful
    (owner : StateId) (action : Action ActorLogic) :
    Dutiful engine (engine.perform event owner action) := by
  cases action with
  | assign name update =>
      refine dutiful_get.bind fun bench => ?_
      split
      · exact dutiful_onState fun _ => rfl
      · exact dutiful_throw _
  | raise make delay id =>
      refine dutiful_get.bind fun bench => ?_
      dsimp only
      split
      · exact dutiful_modify (toils_schedule engine id _ _)
      · exact dutiful_onState fun _ => rfl
  | send recipient make delay id =>
      refine dutiful_get.bind fun bench => ?_
      dsimp only
      split
      · exact dutiful_modify (toils_schedule engine id _ _)
      · exact dutiful_modify (toils_send engine _ recipient)
  | cancel id =>
      exact dutiful_modify
        (toils_onSupervisor engine fun supervisor => supervisor.chores_cancelTimer id)
  | log label text =>
      exact dutiful_get.bind fun _ => dutiful_modify (toils_reveal engine rfl)
  | spawn id logic input =>
      intro bench
      simp only [perform, ends_bind, ends_get]
      exact (toils_nameOr engine id _ bench).trans (toils_spawn engine _ _)
  | stopChild id =>
      exact dutiful_modify
        (toils_onSupervisor engine fun supervisor => .single (.dismiss supervisor id))
  | effect name run =>
      refine dutiful_get.bind fun bench => ?_
      dsimp only
      refine (dutiful_modify ?_).bind fun _ => ?_
      · exact .foldl (fun bench _ => toils_reveal engine rfl bench) _
      · split
        · exact dutiful_throw _
        · exact dutiful_modify (.foldl (toils_obey engine) _)

theorem performAll_dutiful
    (owner : StateId) (actions : List (Action ActorLogic)) :
    Dutiful engine (engine.performAll event owner actions) := by
  induction actions with
  | nil => exact dutiful_pure ()
  | cons action actions ih =>
      exact (perform_dutiful engine event owner action).bind fun _ => ih

theorem leave_dutiful
    (state : StateId) :
    Dutiful engine (engine.leave event state) := by
  refine (dutiful_modify (toils_reveal engine rfl)).bind fun _ => ?_
  refine (performAll_dutiful engine event _ _).bind fun _ => ?_
  exact dutiful_modify fun bench => ⟨bench.supervisor.chores_stopWhere _, .refl⟩

theorem leaveAll_dutiful
    (states : List StateId) :
    Dutiful engine (engine.leaveAll event states) := by
  induction states with
  | nil => exact dutiful_pure ()
  | cons state states ih => exact (leave_dutiful engine event state).bind fun _ => ih

theorem takeAll_dutiful
    (choices : List (Choice ActorLogic)) :
    Dutiful engine (engine.takeAll event choices) := by
  induction choices with
  | nil => exact dutiful_pure ()
  | cons choice choices ih =>
      exact dutiful_get.bind fun bench =>
        (performAll_dutiful engine event _ _).bind fun _ => ih

theorem history_announce
    (completed : StateId) (output : Json) (state : StepState) :
    (engine.machine.announce completed output state).history = state.history := by
  unfold Machine.announce
  split <;> rfl

theorem history_climb
    (last : StateId) (above : List StateId) (state : StepState) (announced : List StateId) :
    (engine.machine.climb last above state announced).state.history = state.history := by
  induction above generalizing last state announced with
  | nil => rfl
  | cons ancestor above ih =>
      unfold Machine.climb
      split
      · exact (ih _ _ _).trans (history_announce engine _ _ _)
      · rfl

theorem history_complete
    (reached : StateId) (state : StepState) (announced : List StateId) :
    (engine.machine.complete reached event state announced).1.history = state.history := by
  have above : ∀ (reached : StateId) (above : List StateId) (output : Option Json)
      (state : StepState),
      (engine.machine.completeAbove reached above output state announced).1.history =
        state.history := by
    intro reached above output state
    unfold Machine.completeAbove
    dsimp only
    split <;> exact history_climb engine _ _ _ _
  unfold Machine.complete
  dsimp only
  split
  · rfl
  · split
    · exact above _ _ _ _
    · refine (above _ _ _ _).trans ?_
      split
      · exact history_announce engine _ _ _
      · rfl

theorem enter_dutiful
    (state : StateId) (announced : List StateId) :
    Dutiful engine (engine.enter event state announced) := by
  refine (dutiful_modify fun bench => ?_).bind fun _ => ?_
  · exact ⟨.single (.reveal bench.supervisor rfl), .refl⟩
  refine (performAll_dutiful engine event _ _).bind fun _ => ?_
  refine (dutiful_modify fun bench => ?_).bind fun _ => ?_
  · exact (toils_invokeAll engine event state bench).trans (toils_delayAll engine state _)
  · split
    · intro bench
      simp only [ends_bind, ends_get, ends_set, ends_pure]
      refine ⟨.refl, ?_⟩
      rw [history_complete]
    · exact dutiful_pure announced

theorem enterAll_dutiful
    (states announced : List StateId) :
    Dutiful engine (engine.enterAll event states announced) := by
  induction states generalizing announced with
  | nil => exact dutiful_pure ()
  | cons state states ih =>
      exact (enter_dutiful engine event state announced).bind fun announced => ih announced

theorem enterPlanned_dutiful
    (entries : Option StateSet) :
    Dutiful engine (engine.enterPlanned event entries) := by
  cases entries with
  | none => exact dutiful_throw _
  | some entries => exact enterAll_dutiful engine event entries []

theorem microstep_dutiful
    (chosen : List (Choice ActorLogic)) :
    Dutiful engine (engine.microstep event chosen) := by
  intro bench
  -- What is remembered is set at once; the rest of the microstep leaves it as it is.
  have onward := fun exits entries => (leaveAll_dutiful engine event exits).bind fun _ =>
    (takeAll_dutiful engine event chosen).bind fun _ => enterPlanned_dutiful engine event entries
  exact (onward _ _).after ⟨.refl, .single ⟨bench.state.active, _, rfl⟩⟩

theorem select_dutiful
    (trigger : Trigger) :
    Dutiful engine (engine.select trigger event) := by
  intro bench
  simp only [select, ends_bind, ends_get]
  split
  · exact .refl bench
  · exact ⟨.refl, .refl⟩

theorem seek_dutiful
    (raised : List Event) (current : Event) :
    Dutiful engine (engine.seek raised current) := by
  induction raised generalizing current with
  | nil =>
      unfold seek
      refine (select_dutiful engine current .eventless).bind fun eventless => ?_
      split
      · exact dutiful_pure _
      · exact dutiful_pure _
  | cons next rest ih =>
      unfold seek
      refine (select_dutiful engine current .eventless).bind fun eventless => ?_
      split
      · exact dutiful_pure _
      · have dropped : Dutiful engine
            (modify (Workbench.onState fun state => { state with raised := rest })) :=
          dutiful_onState fun _ => rfl
        refine dropped.bind fun _ => ?_
        refine (select_dutiful engine next .event).bind fun chosen => ?_
        split
        · exact dutiful_pure _
        · exact ih next

theorem stabilize_dutiful
    (trigger : String) (budget : Nat) (current : Event) :
    Dutiful engine (engine.stabilize trigger budget current) := by
  induction budget generalizing current with
  | zero =>
      unfold stabilize
      refine dutiful_get.bind fun bench => ?_
      dsimp only
      split
      · exact dutiful_onState fun _ => rfl
      · refine (seek_dutiful engine _ current).bind fun found => ?_
        cases found with
        | none => exact dutiful_pure ()
        | some taken => exact dutiful_throw _
  | succ budget ih =>
      unfold stabilize
      refine dutiful_get.bind fun bench => ?_
      dsimp only
      split
      · exact dutiful_onState fun _ => rfl
      · refine (seek_dutiful engine _ current).bind fun found => ?_
        cases found with
        | none => exact dutiful_pure ()
        | some taken =>
            exact (microstep_dutiful engine taken.1 taken.2).bind fun _ => ih taken.1

theorem firstStep_dutiful : Dutiful engine (engine.firstStep event) := by
  unfold firstStep
  split
  · exact dutiful_throw _
  · exact (enterPlanned_dutiful engine event _).bind fun _ =>
      (stabilize_dutiful engine _ _ event).bind fun _ => dutiful_pure true

theorem macrostep_dutiful : Dutiful engine (engine.macrostep event) := by
  unfold macrostep
  refine (select_dutiful engine event .event).bind fun chosen => ?_
  split
  · exact (stabilize_dutiful engine _ _ event).bind fun _ => dutiful_pure false
  · split
    · exact dutiful_throw _
    · exact (microstep_dutiful engine event chosen).bind fun _ =>
        (stabilize_dutiful engine _ _ event).bind fun _ => dutiful_pure true

theorem toils_resume
    (bench : Workbench) :
    engine.Toils bench (engine.resume event bench) :=
  .foldl (fun bench state => (toils_invokeAll engine event state bench).trans
    (toils_delayAll engine state _)) _ bench

theorem toils_exitEach
    (states : List StateId) (failure : Option Failure) (bench : Workbench) :
    engine.Toils bench (engine.exitEach event states failure bench).2 := by
  induction states generalizing failure bench with
  | nil => exact .refl bench
  | cons state states ih =>
      have told : engine.Toils bench
          (bench.reveal (.exited (engine.machine.chart.id state))) :=
        toils_reveal engine rfl bench
      have performed := (performAll_dutiful engine event state
        (engine.machine.conduct state).exit).after told
      rw [ends_iff_run] at performed
      unfold exitEach
      dsimp only
      split
      · rename_i middle ran
        exact (performed.1 _ middle ran).trans (ih failure middle)
      · rename_i error middle ran
        exact (performed.2 error middle ran).trans (ih _ middle)

theorem toils_exitAll
    (bench : Workbench) :
    engine.Toils bench (engine.exitAll event bench).2 := by
  have stopped : ∀ bench : Workbench, engine.Toils bench
      (bench.onSupervisor fun supervisor => supervisor.stopAll engine.nursery) :=
    toils_onSupervisor engine fun supervisor => supervisor.chores_stopWhere _
  exact (((stopped bench).trans (toils_exitEach engine event _ none _)).trans
    (stopped _)).trans ⟨.refl, .refl⟩

end Engine

end Statechart
