import Statechart.Interpreter.Step
import Statechart.Proofs.Accounts
import Statechart.Proofs.Containment
import Statechart.Proofs.Outcomes

/-!
# Microsteps as scripts

Everything that a microstep does can be written down before it begins: a list of beats,
each of which leaves or enters a state or carries out one action.  `microstep_eq_play` says
that a microstep is the playing of its script, although assignments and history records
change the bench in between.
-/

namespace Statechart

namespace Workbench

/-- The same states are active, the same is remembered and nothing was told. -/
structure Kept (before after : Workbench) : Prop where
  active : after.state.active = before.state.active
  history : after.state.history = before.state.history
  account : after.supervisor.account = before.supervisor.account

theorem Kept.refl (bench : Workbench) : bench.Kept bench :=
  ⟨rfl, rfl, rfl⟩

theorem Kept.trans
    {first second third : Workbench}
    (earlier : first.Kept second)
    (later : second.Kept third) :
    first.Kept third :=
  ⟨later.active.trans earlier.active, later.history.trans earlier.history,
    later.account.trans earlier.account⟩

/-- The same states are active, the same is remembered and the supervisor did nothing. -/
structure Stands (before after : Workbench) : Prop where
  active : after.state.active = before.state.active
  history : after.state.history = before.state.history
  supervisor : after.supervisor = before.supervisor

theorem Stands.refl (bench : Workbench) : bench.Stands bench :=
  ⟨rfl, rfl, rfl⟩

theorem Stands.trans
    {first second third : Workbench}
    (earlier : first.Stands second)
    (later : second.Stands third) :
    first.Stands third :=
  ⟨later.active.trans earlier.active, later.history.trans earlier.history,
    later.supervisor.trans earlier.supervisor⟩

theorem Stands.kept
    {before after : Workbench}
    (stands : before.Stands after) :
    before.Kept after :=
  ⟨stands.active, stands.history, by rw [stands.supervisor]⟩

theorem kept_foldl
    {item : Type} {step : Workbench → item → Workbench}
    (keeps : ∀ (bench : Workbench) (next : item), bench.Kept (step bench next))
    (items : List item) (bench : Workbench) :
    bench.Kept (items.foldl step bench) :=
  List.foldlRecOn (motive := bench.Kept) items step (.refl bench)
    fun middle earlier next _ => earlier.trans (keeps middle next)

theorem kept_onSupervisor
    {change : Supervisor Interpreter → Supervisor Interpreter} {bench : Workbench}
    (silent : (change bench.supervisor).account = bench.supervisor.account) :
    bench.Kept (bench.onSupervisor change) :=
  ⟨rfl, rfl, silent⟩

theorem kept_raise
    (event : Event) (bench : Workbench) :
    bench.Kept (bench.onState fun state => state.raise event) :=
  ⟨rfl, rfl, rfl⟩

theorem kept_nameOr
    (given : Option String) (stem : String) (bench : Workbench) :
    bench.Kept (bench.nameOr given stem).2 := by
  cases given with
  | some id => exact .refl bench
  | none => exact ⟨rfl, rfl, rfl⟩

end Workbench

namespace Engine

open Workbench

variable (engine : Engine) (event : Event)

theorem kept_spawn
    (order : SpawnOrder) (bench : Workbench) :
    bench.Kept (engine.spawn order bench) :=
  kept_onSupervisor (by simp)

theorem kept_schedule
    (id : Option String) (delay : Duration) (delivery : Delivery) (bench : Workbench) :
    bench.Kept (engine.schedule id delay delivery bench) :=
  (kept_nameOr id "delay" bench).trans (kept_spawn engine _ _)

theorem kept_send
    (recipient : Recipient) (event : Event) (bench : Workbench) :
    bench.Kept (send recipient event bench) := by
  cases recipient <;> exact kept_onSupervisor (by simp)

theorem kept_obey
    (bench : Workbench) (command : Command) :
    bench.Kept (obey bench command) := by
  cases command with
  | raise event => exact kept_raise event bench
  | send recipient event => exact kept_send recipient event bench

theorem kept_invokeAll
    (state : StateId) (bench : Workbench) :
    bench.Kept (engine.invokeAll event state bench) :=
  kept_foldl (fun bench _ => kept_spawn engine _ bench) _ bench

theorem kept_delayAll
    (state : StateId) (bench : Workbench) :
    bench.Kept (engine.delayAll state bench) :=
  kept_foldl (fun bench _ => kept_spawn engine _ bench) _ bench

theorem kept_resume
    (bench : Workbench) :
    bench.Kept (engine.resume event bench) :=
  kept_foldl (fun bench state => (kept_invokeAll engine event state bench).trans
    (kept_delayAll engine state _)) _ bench

theorem state_invokeAll
    (state : StateId) (bench : Workbench) :
    (engine.invokeAll event state bench).state = bench.state :=
  List.foldlRecOn (motive := fun after : Workbench => after.state = bench.state) _ _ rfl
    fun _ earlier _ _ => earlier

theorem state_delayAll
    (state : StateId) (bench : Workbench) :
    (engine.delayAll state bench).state = bench.state :=
  List.foldlRecOn (motive := fun after : Workbench => after.state = bench.state) _ _ rfl
    fun _ earlier _ _ => earlier

/-- What is started with a state leaves the state of the machine as it is. -/
theorem state_settling
    (state : StateId) (bench : Workbench) :
    (engine.delayAll state (engine.invokeAll event state bench)).state = bench.state :=
  (state_delayAll engine state _).trans (state_invokeAll engine event state bench)

/-- Taking up a restored state does not change it. -/
theorem state_resume
    (bench : Workbench) :
    (engine.resume event bench).state = bench.state :=
  List.foldlRecOn (motive := fun after : Workbench => after.state = bench.state) _ _ rfl
    fun middle earlier state _ => (state_settling engine event state middle).trans earlier

theorem perform_kept
    (owner : StateId) (action : Action ActorLogic) (bench : Workbench) :
    Ends (engine.perform event owner action) bench
      (fun _ after => bench.Kept after) fun _ after => bench.Kept after := by
  cases action with
  | assign name update =>
      simp only [perform, ends_bind, ends_get]
      split
      · exact ⟨rfl, rfl, rfl⟩
      · exact .refl bench
  | raise make delay id =>
      simp only [perform, ends_bind, ends_get]
      split
      · exact kept_schedule engine id _ _ bench
      · exact kept_raise _ bench
  | send recipient make delay id =>
      simp only [perform, ends_bind, ends_get]
      split
      · exact kept_schedule engine id _ _ bench
      · exact kept_send recipient _ bench
  | cancel id => exact kept_onSupervisor (by simp)
  | log label text => exact kept_onSupervisor (by simp [Supervisor.reveal, Emission.told?])
  | spawn id logic input =>
      simp only [perform, ends_bind, ends_get]
      exact (kept_nameOr id _ bench).trans (kept_spawn engine _ _)
  | stopChild id => exact kept_onSupervisor (by simp)
  | effect name run =>
      simp only [perform, ends_bind, ends_get, ends_modify]
      generalize run bench.state.context event = report
      have noted : bench.Kept
          (report.notes.foldl (fun bench note => bench.reveal (.effect note)) bench) :=
        kept_foldl (fun _ _ => kept_onSupervisor
          (by simp [Supervisor.reveal, Emission.told?])) _ bench
      split
      · exact noted
      · exact noted.trans (kept_foldl kept_obey _ _)

theorem performAll_kept
    (owner : StateId) (actions : List (Action ActorLogic)) (bench : Workbench) :
    Ends (engine.performAll event owner actions) bench
      (fun _ after => bench.Kept after) fun _ after => bench.Kept after := by
  induction actions generalizing bench with
  | nil => exact .refl bench
  | cons action actions ih =>
      simp only [performAll, ends_bind]
      refine (perform_kept engine event owner action bench).mono ?_ (fun _ _ kept => kept)
      intro _ middle earlier
      exact (ih middle).mono (fun _ _ later => earlier.trans later)
        fun _ _ later => earlier.trans later

end Engine

/-- One thing that a microstep does. -/
inductive Beat where
  /-- It is told that a state is left. -/
  | leaving (state : StateId)
  /-- An action is carried out; an actor that it starts ends with `owner`. -/
  | acting (owner : StateId) (action : Action ActorLogic)
  /-- The actors of a state end, and it is active no longer. -/
  | left (state : StateId)
  /-- A state becomes active, and it is told that it is entered. -/
  | entering (state : StateId)
  /-- The invocations and delays of a state start, and if it is final others may have
  completed. -/
  | settling (state : StateId)

namespace Beat

/-- The action that is carried out, if one is. -/
def action? : Beat → Option (Action ActorLogic)
  | .acting _ action => some action
  | _ => none

/-- What is told. -/
def told (chart : Chart) : Beat → List Activity
  | .leaving state => [.exited (chart.id state)]
  | .entering state => [.entered (chart.id state)]
  | _ => []

/-- The active states afterwards. -/
def activeAfter (active : Configuration) : Beat → Configuration
  | .left state => active.remove state
  | .entering state => active.insert state
  | _ => active

end Beat

namespace Machine

variable (machine : Machine ActorLogic)

/-- The beats for a state that is left. -/
def leaveScript (state : StateId) : List Beat :=
  .leaving state ::
    (machine.conduct state).exit.map (.acting ((machine.chart.parent? state).getD state)) ++
      [.left state]

/-- The beats for a transition that is taken. -/
def takeScript (history : HistoryRecords) (choice : Choice ActorLogic) : List Beat :=
  choice.candidate.actions.map (.acting (machine.chart.domain history choice.move))

/-- The beats for a state that is entered. -/
def enterScript (state : StateId) : List Beat :=
  .entering state :: (machine.conduct state).entry.map (.acting state) ++ [.settling state]

/-- All that a microstep does, in order. -/
def script (history : HistoryRecords) (exits : List StateId)
    (chosen : List (Choice ActorLogic)) (entries : List StateId) : List Beat :=
  exits.flatMap machine.leaveScript ++ chosen.flatMap (machine.takeScript history) ++
    entries.flatMap machine.enterScript

theorem script_actions
    (history : HistoryRecords) (exits entries : List StateId)
    (chosen : List (Choice ActorLogic)) :
    (machine.script history exits chosen entries).filterMap Beat.action? =
      machine.stepActions exits chosen entries := by
  have acted : ∀ (owner : StateId) (actions : List (Action ActorLogic)),
      (actions.map (Beat.acting owner)).filterMap Beat.action? = actions := by
    intro owner actions
    rw [List.filterMap_map]
    exact List.filterMap_some
  have leaves : ∀ state, (machine.leaveScript state).filterMap Beat.action? =
      (machine.conduct state).exit := by
    intro state
    simp [leaveScript, List.filterMap_cons, acted, Beat.action?]
  have enters : ∀ state, (machine.enterScript state).filterMap Beat.action? =
      (machine.conduct state).entry := by
    intro state
    simp [enterScript, List.filterMap_cons, acted, Beat.action?]
  have takes : ∀ choice, (machine.takeScript history choice).filterMap Beat.action? =
      choice.candidate.actions := fun choice => acted _ _
  simp only [script, stepActions, List.filterMap_append, List.filterMap_flatMap, leaves,
    enters, takes]

theorem foldl_acting
    (owner : StateId) (actions : List (Action ActorLogic)) (active : Configuration) :
    (actions.map (Beat.acting owner)).foldl Beat.activeAfter active = active := by
  induction actions with
  | nil => rfl
  | cons action actions ih => exact ih

theorem flatMap_acting
    (chart : Chart) (owner : StateId) (actions : List (Action ActorLogic)) :
    (actions.map (Beat.acting owner)).flatMap (Beat.told chart) = [] := by
  induction actions with
  | nil => rfl
  | cons action actions ih => exact ih

theorem foldl_leaveScript
    (state : StateId) (active : Configuration) :
    (machine.leaveScript state).foldl Beat.activeAfter active = active.remove state := by
  simp [leaveScript, foldl_acting, Beat.activeAfter]

theorem foldl_takeScript
    (history : HistoryRecords) (choice : Choice ActorLogic) (active : Configuration) :
    (machine.takeScript history choice).foldl Beat.activeAfter active = active :=
  foldl_acting _ _ active

theorem foldl_enterScript
    (state : StateId) (active : Configuration) :
    (machine.enterScript state).foldl Beat.activeAfter active =
      StateSet.insert state active := by
  simp [enterScript, foldl_acting, Beat.activeAfter]

/-- The states that are active after a script. -/
theorem script_active
    (history : HistoryRecords) (exits entries : List StateId)
    (chosen : List (Choice ActorLogic)) (active : Configuration) :
    (machine.script history exits chosen entries).foldl Beat.activeAfter active =
      (active.removeAll exits).insertAll entries := by
  have left : ∀ active : Configuration,
      (exits.flatMap machine.leaveScript).foldl Beat.activeAfter active =
        active.removeAll exits := by
    induction exits with
    | nil => exact fun active => (StateSet.removeAll_nil active).symm
    | cons state states ih =>
        intro active
        rw [List.flatMap_cons, List.foldl_append, foldl_leaveScript, ih,
          StateSet.removeAll_cons]
  have taken : ∀ active : Configuration,
      (chosen.flatMap (machine.takeScript history)).foldl Beat.activeAfter active =
        active := by
    induction chosen with
    | nil => exact fun active => rfl
    | cons choice chosen ih =>
        intro active
        rw [List.flatMap_cons, List.foldl_append, foldl_takeScript, ih]
  have entered : ∀ active : Configuration,
      (entries.flatMap machine.enterScript).foldl Beat.activeAfter active =
        active.insertAll entries := by
    induction entries with
    | nil => exact fun active => rfl
    | cons state states ih =>
        intro active
        rw [List.flatMap_cons, List.foldl_append, foldl_enterScript, ih,
          StateSet.insertAll_cons]
  rw [script, List.foldl_append, List.foldl_append, left, taken, entered]

/-- What a script tells: first the states that are left, then those that are entered. -/
theorem script_told
    (history : HistoryRecords) (exits entries : List StateId)
    (chosen : List (Choice ActorLogic)) (chart : Chart) :
    (machine.script history exits chosen entries).flatMap (Beat.told chart) =
      (exits.map fun state => .exited (chart.id state)) ++
        entries.map fun state => .entered (chart.id state) := by
  have leaves : ∀ state, (machine.leaveScript state).flatMap (Beat.told chart) =
      [.exited (chart.id state)] := by
    intro state
    simp [leaveScript, flatMap_acting, Beat.told]
  have takes : ∀ choice,
      (machine.takeScript history choice).flatMap (Beat.told chart) = [] :=
    fun choice => flatMap_acting chart _ _
  have enters : ∀ state, (machine.enterScript state).flatMap (Beat.told chart) =
      [.entered (chart.id state)] := by
    intro state
    simp [enterScript, flatMap_acting, Beat.told]
  simp [script, List.flatMap_assoc, leaves, takes, enters, List.map_eq_flatMap]

end Machine

section Completing

variable (machine : Machine ActorLogic)

/-- The same states are active and the same is remembered. -/
def StepState.SamePlaces (before after : StepState) : Prop :=
  after.active = before.active ∧ after.history = before.history

theorem StepState.SamePlaces.trans
    {first second third : StepState}
    (earlier : first.SamePlaces second)
    (later : second.SamePlaces third) :
    first.SamePlaces third :=
  ⟨later.1.trans earlier.1, later.2.trans earlier.2⟩

theorem samePlaces_announce
    (completed : StateId) (output : Json) (state : StepState) :
    state.SamePlaces (machine.announce completed output state) := by
  unfold Machine.announce
  split <;> exact ⟨rfl, rfl⟩

theorem samePlaces_climb
    (last : StateId) (above : List StateId) (state : StepState) (announced : List StateId) :
    state.SamePlaces (machine.climb last above state announced).state := by
  induction above generalizing last state announced with
  | nil => exact ⟨rfl, rfl⟩
  | cons ancestor above ih =>
      unfold Machine.climb
      split
      · exact (samePlaces_announce machine ancestor .null state).trans (ih _ _ _)
      · exact ⟨rfl, rfl⟩

theorem samePlaces_completeAbove
    (reached : StateId) (above : List StateId) (output : Option Json) (state : StepState)
    (announced : List StateId) :
    state.SamePlaces
      (machine.completeAbove reached above output state announced).1 := by
  have climbed := samePlaces_climb machine reached above state announced
  unfold Machine.completeAbove
  dsimp only
  split <;> exact climbed

theorem samePlaces_complete
    (reached : StateId) (event : Event) (state : StepState) (announced : List StateId) :
    state.SamePlaces (machine.complete reached event state announced).1 := by
  unfold Machine.complete
  dsimp only
  split
  · exact ⟨rfl, rfl⟩
  · rename_i parent above _
    split
    · exact samePlaces_completeAbove machine reached _ _ state announced
    · refine StepState.SamePlaces.trans ?_
        (samePlaces_completeAbove machine reached above _ _ announced)
      split
      · exact samePlaces_announce machine parent _ state
      · exact ⟨rfl, rfl⟩

end Completing

namespace Engine

variable (engine : Engine) (event : Event)

/-- Do what a beat says; `announced` are the completed states announced so far. -/
def beat (announced : List StateId) : Beat → StepM (List StateId)
  | .leaving state => do
      modify (Workbench.reveal (.exited (engine.machine.chart.id state)))
      return announced
  | .acting owner action => do
      engine.perform event owner action
      return announced
  | .left state => do
      modify fun bench =>
        { bench with
          supervisor := bench.supervisor.stopOwnedBy engine.nursery state
          state := { bench.state with active := bench.state.active.remove state } }
      return announced
  | .entering state => do
      modify fun bench =>
        (bench.onState fun held => { held with active := held.active.insert state }).reveal
          (.entered (engine.machine.chart.id state))
      return announced
  | .settling state => do
      modify fun bench => engine.delayAll state (engine.invokeAll event state bench)
      if engine.machine.chart.isFinal state then
        let bench ← get
        let (held, announced) :=
          engine.machine.complete state event bench.state announced
        set { bench with state := held }
        return announced
      else return announced

/-- Do what a script says. -/
def play (beats : List Beat) (announced : List StateId) : StepM (List StateId) :=
  beats.foldlM (engine.beat event) announced

theorem play_append
    (first second : List Beat) (announced : List StateId) :
    engine.play event (first ++ second) announced =
      engine.play event first announced >>= engine.play event second :=
  List.foldlM_append

theorem play_cons
    (beat : Beat) (beats : List Beat) (announced : List StateId) :
    engine.play event (beat :: beats) announced =
      engine.beat event announced beat >>= engine.play event beats :=
  List.foldlM_cons

theorem play_nil : engine.play event [] = pure :=
  rfl

theorem play_acting
    (owner : StateId) (actions : List (Action ActorLogic)) (announced : List StateId) :
    engine.play event (actions.map (.acting owner)) announced =
      do engine.performAll event owner actions; return announced := by
  induction actions generalizing announced with
  | nil => simp [play, performAll]
  | cons action actions ih =>
      rw [List.map_cons, play_cons, performAll]
      simp only [beat, bind_assoc, pure_bind, ih]

theorem play_leaveScript
    (state : StateId) (announced : List StateId) :
    engine.play event (engine.machine.leaveScript state) announced =
      do engine.leave event state; return announced := by
  unfold Machine.leaveScript leave
  simp only [List.cons_append, play_cons, play_append, play_nil, play_acting, beat,
    bind_assoc, pure_bind]

theorem play_enterScript
    (state : StateId) (announced : List StateId) :
    engine.play event (engine.machine.enterScript state) announced =
      engine.enter event state announced := by
  unfold Machine.enterScript enter
  simp only [List.cons_append, play_cons, play_append, play_nil, play_acting, beat,
    bind_assoc, pure_bind, bind_pure]

theorem play_leaveScripts
    (states : List StateId) (announced : List StateId) :
    engine.play event (states.flatMap engine.machine.leaveScript) announced =
      do engine.leaveAll event states; return announced := by
  induction states with
  | nil => simp [play, leaveAll]
  | cons state states ih =>
      rw [List.flatMap_cons, play_append, play_leaveScript, leaveAll]
      simp only [bind_assoc, pure_bind, ih]

theorem play_enterScripts
    (states : List StateId) (announced : List StateId) :
    (do let _ ← engine.play event (states.flatMap engine.machine.enterScript) announced
        return ()) =
      engine.enterAll event states announced := by
  induction states generalizing announced with
  | nil => simp [play, enterAll]
  | cons state states ih =>
      rw [List.flatMap_cons, play_append, play_enterScript, enterAll]
      simp only [bind_assoc, ih]

theorem play_takeScripts
    {history : HistoryRecords} {bench : Workbench}
    (remembers : bench.state.history = history)
    (chosen : List (Choice ActorLogic)) (announced : List StateId) :
    (engine.play event (chosen.flatMap (engine.machine.takeScript history)) announced).run
        bench =
      (do engine.takeAll event chosen; return announced : StepM _).run bench := by
  induction chosen generalizing bench with
  | nil => rfl
  | cons choice chosen ih =>
      have kept := performAll_kept engine event
        (engine.machine.chart.domain history choice.move) choice.candidate.actions bench
      rw [ends_iff_run] at kept
      rw [List.flatMap_cons, play_append, Machine.takeScript, play_acting, takeAll]
      simp only [bind_assoc, pure_bind]
      refine Eq.trans ?_ (run_get_bind _ _).symm
      rw [remembers]
      apply run_bind_congr rfl
      intro _ middle acted
      exact ih ((kept.1 _ middle acted).history.trans remembers)

/-- What a played script has done. -/
structure Played (chart : Chart) (beats : List Beat) (before after : Workbench) : Prop where
  active : after.state.active = beats.foldl Beat.activeAfter before.state.active
  history : after.state.history = before.state.history
  account : after.supervisor.account =
    before.supervisor.account ++ beats.flatMap (Beat.told chart)

/-- Nothing was told but that some states were entered or left. -/
def ToldMore (before after : Workbench) : Prop :=
  ∃ told, after.supervisor.account = before.supervisor.account ++ told ∧
    ∀ activity ∈ told, activity.isVisit = true

theorem ToldMore.of_kept
    {before after : Workbench}
    (kept : before.Kept after) :
    ToldMore before after :=
  ⟨[], by simp [kept.account]⟩

theorem ToldMore.trans
    {first second third : Workbench}
    (earlier : ToldMore first second)
    (later : ToldMore second third) :
    ToldMore first third := by
  obtain ⟨told, account, visits⟩ := earlier
  obtain ⟨further, accountLater, visitsLater⟩ := later
  refine ⟨told ++ further, by rw [accountLater, account, List.append_assoc], ?_⟩
  intro activity member
  rcases List.mem_append.mp member with here | there
  · exact visits activity here
  · exact visitsLater activity there

theorem Played.toldMore
    {chart : Chart} {beats : List Beat} {before after : Workbench}
    (played : Played chart beats before after) :
    ToldMore before after := by
  refine ⟨_, played.account, ?_⟩
  intro activity member
  obtain ⟨beat, _, told⟩ := List.mem_flatMap.mp member
  cases beat <;> simp_all [Beat.told, Activity.isVisit]

theorem beat_ends
    (beat : Beat) (announced : List StateId) (bench : Workbench) :
    Ends (engine.beat event announced beat) bench
      (fun _ after => Played engine.machine.chart [beat] bench after)
      (fun _ after => ToldMore bench after) := by
  cases beat with
  | leaving state =>
      constructor <;> simp [Beat.activeAfter, Beat.told, Workbench.reveal,
        Workbench.onSupervisor, Supervisor.reveal, Emission.told?]
  | acting owner action =>
      simp only [Engine.beat, ends_bind, ends_pure]
      refine (perform_kept engine event owner action bench).mono ?_ ?_
      · intro _ after kept
        exact ⟨kept.active, kept.history, by simp [kept.account, Beat.told]⟩
      · exact fun _ _ kept => .of_kept kept
  | left state =>
      constructor <;> simp [Beat.activeAfter, Beat.told]
  | entering state =>
      constructor <;> simp [Beat.activeAfter, Beat.told, Workbench.reveal,
        Workbench.onSupervisor, Workbench.onState, Supervisor.reveal, Emission.told?]
  | settling state =>
      have kept := (kept_invokeAll engine event state bench).trans
        (kept_delayAll engine state _)
      simp only [Engine.beat, ends_bind, ends_modify]
      split
      · have completed := samePlaces_complete engine.machine state event
          (engine.delayAll state (engine.invokeAll event state bench)).state announced
        exact ⟨completed.1.trans kept.active, completed.2.trans kept.history,
          by simp [kept.account, Beat.told]⟩
      · exact ⟨kept.active, kept.history, by simp [kept.account, Beat.told]⟩

theorem play_ends
    (beats : List Beat) (announced : List StateId) (bench : Workbench) :
    Ends (engine.play event beats announced) bench
      (fun _ after => Played engine.machine.chart beats bench after)
      (fun _ after => ToldMore bench after) := by
  induction beats generalizing announced bench with
  | nil => exact ⟨rfl, rfl, by simp⟩
  | cons beat beats ih =>
      rw [play_cons, ends_bind]
      refine (beat_ends engine event beat announced bench).mono ?_ (fun _ _ told => told)
      intro announced middle first
      refine (ih announced middle).mono ?_ ?_
      · intro _ after rest
        exact ⟨rest.active.trans (by rw [first.active]; rfl),
          rest.history.trans first.history,
          by rw [rest.account, first.account]; simp⟩
      · exact fun _ _ told => first.toldMore.trans told

section Stepping

variable {bench : Workbench} {chosen : List (Choice ActorLogic)} {entries : StateSet}
variable (planned : engine.machine.chart.entries?
  (engine.machine.chart.recordedBy bench.state.active bench.state.history
    (chosen.map Choice.move))
  (chosen.map Choice.move) = some entries)

include planned

/-- Where planning has an answer, a microstep is the playing of its script. -/
theorem microstep_eq_play :
    (engine.microstep event chosen).run bench =
      (do let _ ← engine.play event
            (engine.machine.script
              (engine.machine.chart.recordedBy bench.state.active bench.state.history
                (chosen.map Choice.move))
              (engine.machine.chart.exits bench.state.active bench.state.history
                (chosen.map Choice.move))
              chosen entries) []
          return () : StepM Unit).run
        (bench.onState fun state =>
          { state with
            history := engine.machine.chart.recordedBy bench.state.active
              bench.state.history (chosen.map Choice.move) }) := by
  have leaves := play_ends engine event
    ((engine.machine.chart.exits bench.state.active bench.state.history
      (chosen.map Choice.move)).flatMap engine.machine.leaveScript) []
    (bench.onState fun state =>
      { state with
        history := engine.machine.chart.recordedBy bench.state.active
          bench.state.history (chosen.map Choice.move) })
  rw [play_leaveScripts, ends_bind, ends_iff_run] at leaves
  unfold microstep Machine.script
  rw [play_append, play_append, play_leaveScripts]
  simp only [bind_assoc, pure_bind]
  refine (run_get_bind _ _).trans ?_
  change ((engine.leaveAll event _ >>= _ : StepM Unit)).run _ = _
  apply run_bind_congr rfl
  intro _ left leaving
  have remembers := (leaves.1 _ left leaving).history
  refine Eq.trans ?_
    (run_bind_congr (play_takeScripts engine event remembers chosen []).symm
      fun _ _ _ => rfl)
  simp only [bind_assoc, pure_bind]
  apply run_bind_congr rfl
  intro _ taken _
  rw [play_enterScripts]
  exact congrArg (fun plan => (engine.enterPlanned event plan).run taken) planned

/-- What a microstep does to the active states, the records and the account. -/
theorem microstep_ends :
    Ends (engine.microstep event chosen) bench
      (fun _ after =>
        after.state.active =
            engine.machine.chart.succeeding bench.state.active bench.state.history
              (chosen.map Choice.move) entries ∧
          after.state.history =
            engine.machine.chart.recordedBy bench.state.active bench.state.history
              (chosen.map Choice.move) ∧
          after.supervisor.account = bench.supervisor.account ++
            ((engine.machine.chart.exits bench.state.active bench.state.history
                (chosen.map Choice.move)).map fun state =>
              .exited (engine.machine.chart.id state)) ++
            entries.map fun state => .entered (engine.machine.chart.id state))
      (fun _ after => ToldMore bench after) := by
  have played := play_ends engine event
    (engine.machine.script
      (engine.machine.chart.recordedBy bench.state.active bench.state.history
        (chosen.map Choice.move))
      (engine.machine.chart.exits bench.state.active bench.state.history
        (chosen.map Choice.move))
      chosen entries) []
    (bench.onState fun state =>
      { state with
        history := engine.machine.chart.recordedBy bench.state.active
          bench.state.history (chosen.map Choice.move) })
  unfold Ends
  rw [microstep_eq_play engine event planned]
  apply ends_bind.mpr
  refine played.mono ?_ (fun _ _ told => told)
  intro _ after done
  refine ⟨?_, done.history, ?_⟩
  · rw [done.active, Machine.script_active]
    rfl
  · rw [done.account, Machine.script_told, List.append_assoc]
    rfl

end Stepping

theorem microstep_fails
    (bench : Workbench) {chosen : List (Choice ActorLogic)}
    (unplanned : engine.machine.chart.entries?
      (engine.machine.chart.recordedBy bench.state.active bench.state.history
        (chosen.map Choice.move))
      (chosen.map Choice.move) = none) :
    Ends (engine.microstep event chosen) bench (fun _ _ => False) (fun _ _ => True) := by
  unfold microstep
  simp only [ends_bind, ends_get, ends_modify]
  refine (ends_somehow _ _).mono ?_ (fun _ _ _ => trivial)
  intro _ left _
  refine (ends_somehow _ _).mono ?_ (fun _ _ _ => trivial)
  intro _ taken _
  have endless : engine.machine.chart.entries?
      (engine.machine.chart.recordHistory bench.state.active bench.state.history
        (engine.machine.chart.exits bench.state.active bench.state.history
          (chosen.map Choice.move)))
      (chosen.map Choice.move) = none := unplanned
  rw [endless]
  exact ends_throw.mpr trivial

end Engine

end Statechart
