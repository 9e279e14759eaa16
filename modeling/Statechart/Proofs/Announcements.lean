import Statechart.Proofs.CompletionClimbs
import Statechart.Proofs.Finishing
import Statechart.Proofs.StepValidity

/-!
# Announcements of parallel states

Each final state that a microstep enters is a culmination: as soon as its entry actions have
gone well, what it completes is announced.  Other states of a parallel state that is announced
may still have to be entered then; the announcement is in time exactly if none of these passes
for completed by its kind, and in this case all that completes within it has been announced
before.
-/

namespace Statechart

/-- No raised event is gone, and further ones have been raised behind them. -/
def Workbench.Raises (before after : Workbench) : Prop :=
  before.state.raised <+: after.state.raised

namespace Engine

section Raising

variable (engine : Engine) (event : Event)

theorem raises_foldl
    {item : Type} {step : Workbench → item → Workbench}
    (raises : ∀ (bench : Workbench) (next : item), bench.Raises (step bench next))
    (items : List item) (bench : Workbench) :
    bench.Raises (items.foldl step bench) :=
  List.foldlRecOn (motive := bench.Raises) items step List.prefix_rfl
    fun middle earlier next _ => earlier.trans (raises middle next)

theorem raises_of_state
    {before after : Workbench}
    (same : after.state = before.state) :
    before.Raises after := by
  rw [Workbench.Raises, same]

theorem raises_raise
    (raised : Event) (bench : Workbench) :
    bench.Raises (bench.onState fun state => state.raise raised) :=
  List.prefix_append _ _

theorem raises_reveal
    (activity : Activity) (bench : Workbench) :
    bench.Raises (bench.reveal activity) :=
  raises_of_state rfl

theorem perform_raises
    (owner : StateId) (action : Action ActorLogic) (bench : Workbench) :
    Ends (engine.perform event owner action) bench
      (fun _ after => bench.Raises after) (fun _ _ => True) := by
  cases action with
  | assign name update =>
      simp only [perform, ends_bind, ends_get]
      split
      · exact List.prefix_rfl
      · trivial
  | raise make delay id =>
      simp only [perform, ends_bind, ends_get]
      split
      · exact raises_of_state (state_schedule engine id _ _ bench)
      · exact raises_raise _ bench
  | send recipient make delay id =>
      simp only [perform, ends_bind, ends_get]
      split
      · exact raises_of_state (state_schedule engine id _ _ bench)
      · exact raises_of_state rfl
  | cancel id => exact raises_of_state rfl
  | log label text => exact raises_of_state rfl
  | spawn id logic input =>
      simp only [perform, ends_bind, ends_get]
      exact raises_of_state (state_nameOr id _ bench)
  | stopChild id => exact raises_of_state rfl
  | effect name run =>
      simp only [perform, ends_bind, ends_get, ends_modify]
      generalize run bench.state.context event = report
      have noted : bench.Raises
          (report.notes.foldl (fun bench note => bench.reveal (.effect note)) bench) :=
        raises_foldl (fun bench note => raises_reveal (.effect note) bench) _ _
      split
      · trivial
      · refine noted.trans (raises_foldl (fun bench command => ?_) _ _)
        cases command with
        | raise raised => exact raises_raise raised bench
        | send recipient sent => exact raises_of_state rfl

theorem beat_raises
    (beat : Beat) (announced : List StateId) (bench : Workbench) :
    Ends (engine.beat event announced beat) bench
      (fun _ after => bench.Raises after) (fun _ _ => True) := by
  cases beat with
  | leaving state => exact raises_of_state rfl
  | acting owner action =>
      simp only [Engine.beat, ends_bind, ends_pure]
      exact perform_raises engine event owner action bench
  | left state => exact List.prefix_rfl
  | entering state => exact List.prefix_rfl
  | settling state =>
      simp only [Engine.beat, ends_bind, ends_modify]
      have settled := state_settling engine event state bench
      split
      · simp only [ends_bind, ends_get, ends_set, ends_pure]
        rw [Workbench.Raises, settled]
        exact Machine.complete_raises
      · exact raises_of_state settled

theorem play_raises
    (beats : List Beat) (announced : List StateId) (bench : Workbench) :
    Ends (engine.play event beats announced) bench
      (fun _ after => bench.Raises after) (fun _ _ => True) := by
  induction beats generalizing announced bench with
  | nil => exact List.prefix_rfl
  | cons beat beats ih =>
      rw [play_cons, ends_bind]
      refine (beat_raises engine event beat announced bench).mono ?_ (fun _ _ _ => trivial)
      intro announced middle earlier
      exact (ih announced middle).mono (fun _ _ later => earlier.trans later)
        fun _ _ _ => trivial

theorem performAll_raises
    (owner : StateId) (actions : List (Action ActorLogic)) (bench : Workbench) :
    Ends (engine.performAll event owner actions) bench
      (fun _ after => bench.Raises after) (fun _ _ => True) := by
  have played := play_raises engine event (actions.map (.acting owner)) [] bench
  rw [play_acting, ends_bind] at played
  exact played

end Raising

section Knowing

variable (engine : Engine) (event : Event)

theorem play_quiet
    {beats : List Beat}
    (quiet : ∀ beat ∈ beats, ∀ state, beat ≠ .settling state)
    (announced : List StateId) (bench : Workbench) :
    Ends (engine.play event beats announced) bench
      (fun told _ => told = announced) (fun _ _ => True) := by
  induction beats generalizing bench with
  | nil => exact rfl
  | cons beat beats ih =>
      obtain ⟨here, further⟩ := List.forall_mem_cons.mp quiet
      rw [play_cons, ends_bind]
      cases beat with
      | settling state => exact absurd rfl (here state)
      | acting owner action =>
          simp only [Engine.beat, ends_bind, ends_pure]
          exact (ends_somehow _ _).mono (fun _ middle _ => ih further middle)
            fun _ _ _ => trivial
      | leaving state => exact ih further _
      | left state => exact ih further _
      | entering state => exact ih further _

variable {engine event} (formed : engine.machine.chart.WellFormed)
variable {announced : List StateId} {bench : Workbench}

include formed

theorem enter_known
    {state : StateId}
    (known : ∀ other ∈ announced, engine.machine.chart.Completed bench.state.active other) :
    Ends (engine.enter event state announced) bench
      (fun told after =>
        ∀ other ∈ told, engine.machine.chart.Completed after.state.active other)
      (fun _ _ => True) := by
  simp only [enter, ends_bind, ends_modify]
  refine (performAll_varies engine event _ _ _).mono ?_ (fun _ _ _ => trivial)
  rintro _ acted ⟨context, raised, varied⟩
  have settled := state_settling engine event state acted
  have grown : ∀ other ∈ announced,
      engine.machine.chart.Completed acted.state.active other := by
    intro other member
    rw [varied]
    exact (known other member).mono fun _ isActive _ => StateSet.mem_insert.mpr (.inr isActive)
  split
  · simp only [ends_bind, ends_get, ends_set, ends_pure]
    rw [settled]
    intro other member
    rw [(samePlaces_complete engine.machine state event acted.state announced).1]
    rcases Machine.complete_announced other member with earlier | completed
    · exact grown other earlier
    · exact (Chart.hasCompleted_iff formed).mp completed
  · rw [ends_pure, settled]
    exact grown

theorem play_enterScripts_known
    (states : List StateId)
    (known : ∀ other ∈ announced, engine.machine.chart.Completed bench.state.active other) :
    Ends (engine.play event (states.flatMap engine.machine.enterScript) announced) bench
      (fun told after =>
        ∀ other ∈ told, engine.machine.chart.Completed after.state.active other)
      (fun _ _ => True) := by
  induction states generalizing announced bench with
  | nil => exact known
  | cons state states ih =>
      rw [List.flatMap_cons, play_append, play_enterScript, ends_bind]
      exact (enter_known formed known).mono (fun _ _ grown => ih grown) fun _ _ _ => trivial

end Knowing

section Proceeding

variable (engine : Engine) (event : Event) (bench : Workbench)
variable (chosen : List (Choice ActorLogic))

/-- After a microstep has recorded what it leaves. -/
def recording : Workbench :=
  bench.onState fun state =>
    { state with
      history := engine.machine.chart.recordedBy bench.state.active bench.state.history
        (chosen.map Choice.move) }

/-- What a microstep does next, until it has entered these states. -/
def proceeding (states : List StateId) : StepM (List StateId) :=
  engine.play event
    (engine.machine.script
      (engine.machine.chart.recordedBy bench.state.active bench.state.history
        (chosen.map Choice.move))
      (engine.machine.chart.exits bench.state.active bench.state.history
        (chosen.map Choice.move))
      chosen states) []

/-- A state has become active, before its entry actions. -/
def entered (state : StateId) : Workbench :=
  (bench.onState fun held => { held with active := held.active.insert state }).reveal
    (.entered (engine.machine.chart.id state))

theorem proceeding_append
    (first second : List StateId) :
    engine.proceeding event bench chosen (first ++ second) =
      engine.proceeding event bench chosen first >>=
        engine.play event (second.flatMap engine.machine.enterScript) := by
  unfold proceeding Machine.script
  rw [List.flatMap_append, ← List.append_assoc, play_append]

end Proceeding

/-- In a microstep that enters these states a final one has become active and its entry actions
have gone well, so that the consequences are about to be drawn. -/
structure Culmination (engine : Engine) (event : Event) (bench : Workbench)
    (chosen : List (Choice ActorLogic)) (entries : StateSet) where
  /-- The states that have been entered before. -/
  earlier : List StateId
  /-- The final state. -/
  reached : StateId
  /-- The states that are still to be entered. -/
  later : List StateId
  /-- The completed states that have been announced. -/
  announced : List StateId
  /-- Before the final state is entered. -/
  entering : Workbench
  /-- After its entry actions. -/
  acted : Workbench
  split : entries = earlier ++ reached :: later
  isFinal : engine.machine.chart.isFinal reached = true
  begun : (engine.proceeding event bench chosen earlier).run (engine.recording bench chosen) =
    .ok announced entering
  acts : (engine.performAll event reached (engine.machine.conduct reached).entry).run
    (engine.entered entering reached) = .ok () acted

namespace Culmination

variable {engine : Engine} {event : Event} {bench : Workbench}
variable {chosen : List (Choice ActorLogic)} {entries : StateSet}

/-- The parallel states that are announced, in order. -/
def heralds (culmination : engine.Culmination event bench chosen entries) : List StateId :=
  engine.machine.chart.heralded culmination.acted.state.active
    (engine.machine.chart.rising culmination.reached) culmination.announced

/-- After the consequences have been drawn. -/
def after (culmination : engine.Culmination event bench chosen entries) : Workbench :=
  { engine.delayAll culmination.reached
      (engine.invokeAll event culmination.reached culmination.acted) with
    state := (engine.machine.complete culmination.reached event culmination.acted.state
      culmination.announced).1 }

/-- So far a microstep has come if all before has gone well. -/
def reaching
    (earlier : List StateId) (reached : StateId) (later announced : List StateId)
    (split : entries = earlier ++ reached :: later)
    (isFinal : engine.machine.chart.isFinal reached = true)
    (begun : answerOf? (engine.proceeding event bench chosen earlier)
      (engine.recording bench chosen) = some announced)
    (acts : answerOf? (engine.performAll event reached (engine.machine.conduct reached).entry)
      (engine.entered (leftBy (engine.proceeding event bench chosen earlier)
        (engine.recording bench chosen)) reached) = some ()) :
    engine.Culmination event bench chosen entries where
  earlier := earlier
  reached := reached
  later := later
  announced := announced
  entering := _
  acted := _
  split := split
  isFinal := isFinal
  begun := run_of_answerOf? begun
  acts := run_of_answerOf? acts

theorem exists_of_run
    {after : Workbench} {earlier later : List StateId} {reached : StateId}
    (planned : engine.machine.chart.entries?
      (engine.machine.chart.recordedBy bench.state.active bench.state.history
        (chosen.map Choice.move))
      (chosen.map Choice.move) = some entries)
    (ran : (engine.microstep event chosen).run bench = .ok () after)
    (split : entries = earlier ++ reached :: later)
    (isFinal : engine.machine.chart.isFinal reached = true) :
    ∃ culmination : engine.Culmination event bench chosen entries,
      culmination.earlier = earlier ∧ culmination.reached = reached := by
  rw [microstep_eq_play engine event planned, run_bind_eq_ok] at ran
  obtain ⟨_, _, played, _⟩ := ran
  have begun : (engine.proceeding event bench chosen entries).run
      (engine.recording bench chosen) = _ := played
  rw [split, proceeding_append, run_bind_eq_ok] at begun
  obtain ⟨announced, entering, begun, further⟩ := begun
  rw [List.flatMap_cons, play_append, play_enterScript, run_bind_eq_ok] at further
  obtain ⟨_, _, enters, _⟩ := further
  unfold enter at enters
  rw [run_modify_bind, run_bind_eq_ok] at enters
  obtain ⟨_, acted, acts, _⟩ := enters
  exact ⟨⟨earlier, reached, later, announced, entering, acted, split, isFinal, begun, acts⟩,
    rfl, rfl⟩

variable (culmination other : engine.Culmination event bench chosen entries)

theorem eq_of_earlier
    (same : culmination.earlier = other.earlier) :
    culmination = other := by
  obtain ⟨earlier, reached, later, announced, entering, acted, split, _, begun, acts⟩ :=
    culmination
  obtain ⟨_, _, _, _, _, _, otherSplit, _, otherBegun, otherActs⟩ := other
  obtain rfl := same
  obtain ⟨rfl, rfl⟩ := List.cons.inj (List.append_cancel_left (split.symm.trans otherSplit))
  obtain ⟨rfl, rfl⟩ := EStateM.Result.ok.inj (begun.symm.trans otherBegun)
  obtain ⟨_, rfl⟩ := EStateM.Result.ok.inj (acts.symm.trans otherActs)
  rfl

theorem enter_run :
    (engine.enter event culmination.reached culmination.announced).run culmination.entering =
      .ok (engine.machine.complete culmination.reached event culmination.acted.state
        culmination.announced).2 culmination.after := by
  have settled := state_settling engine event culmination.reached culmination.acted
  unfold enter after
  rw [run_modify_bind]
  refine (run_bind_of_ok culmination.acts _).trans ?_
  rw [run_modify_bind, if_pos culmination.isFinal, run_get_bind, settled]
  rfl

theorem entering_active :
    culmination.entering.state.active =
      engine.machine.chart.succeeding bench.state.active bench.state.history
        (chosen.map Choice.move) culmination.earlier := by
  have played := (ends_iff_run.mp (play_ends engine event _ _ _)).1 _ _ culmination.begun
  exact played.active.trans (Machine.script_active ..)

theorem acted_state :
    ∃ context raised, culmination.acted.state =
        { culmination.entering.state with
          active := culmination.entering.state.active.insert culmination.reached
          context
          raised := culmination.entering.state.raised ++ raised } := by
  obtain ⟨context, raised, same⟩ :=
    (ends_iff_run.mp (performAll_varies engine event _ _ _)).1 _ _ culmination.acts
  obtain ⟨further, isRaised⟩ :=
    (ends_iff_run.mp (performAll_raises engine event _ _ _)).1 _ _ culmination.acts
  refine ⟨context, further, ?_⟩
  rw [same] at isRaised ⊢
  obtain rfl : _ = raised := isRaised
  rfl

theorem acted_active :
    culmination.acted.state.active =
      culmination.entering.state.active.insert culmination.reached := by
  obtain ⟨_, _, same⟩ := culmination.acted_state
  rw [same]

theorem mem_acted_active
    {state : StateId} :
    state ∈ culmination.acted.state.active ↔
      (state = culmination.reached ∨ state ∈ culmination.earlier) ∨
        state ∈ engine.machine.chart.staying bench.state.active bench.state.history
          (chosen.map Choice.move) := by
  rw [acted_active, StateSet.mem_insert, entering_active, Chart.mem_succeeding, or_assoc]

theorem after_active :
    culmination.after.state.active = culmination.acted.state.active :=
  (samePlaces_complete engine.machine culmination.reached event _ _).1

theorem announced_completed
    (formed : engine.machine.chart.WellFormed) :
    ∀ state ∈ culmination.announced,
      engine.machine.chart.Completed culmination.entering.state.active state := by
  have begun := culmination.begun
  unfold proceeding Machine.script at begun
  rw [play_append, run_bind_eq_ok] at begun
  obtain ⟨told, middle, silent, entered⟩ := begun
  have nothing : told = [] := by
    refine (ends_iff_run.mp (play_quiet engine event ?_ _ _)).1 _ _ silent
    rintro beat member state rfl
    simp [Machine.leaveScript, Machine.takeScript] at member
  subst nothing
  exact (ends_iff_run.mp (play_enterScripts_known formed _
    fun _ member => absurd member List.not_mem_nil)).1 _ _ entered

theorem eq_or_before :
    culmination = other ∨
      (∃ between, other.earlier = culmination.earlier ++ culmination.reached :: between) ∨
      ∃ between, culmination.earlier = other.earlier ++ other.reached :: between := by
  have same := culmination.split.symm.trans other.split
  rcases List.append_eq_append_iff.mp same with ⟨between, further, rest⟩ | ⟨between, further, rest⟩
  · cases between with
    | nil => exact .inl (culmination.eq_of_earlier other (by simpa using further.symm))
    | cons first between =>
        obtain ⟨rfl, _⟩ := List.cons.inj rest
        exact .inr (.inl ⟨between, further⟩)
  · cases between with
    | nil => exact .inl (culmination.eq_of_earlier other (by simpa using further))
    | cons first between =>
        obtain ⟨rfl, _⟩ := List.cons.inj rest
        exact .inr (.inr ⟨between, further⟩)

section Before

variable {culmination other} {between : List StateId}
variable (before : other.earlier = culmination.earlier ++ culmination.reached :: between)

include before

theorem acted_subset_of_before :
    ∀ state ∈ culmination.acted.state.active, state ∈ other.entering.state.active := by
  intro state member
  rw [other.entering_active, Chart.mem_succeeding, before]
  refine culmination.mem_acted_active.mp member |>.imp_left fun entered => ?_
  rw [List.mem_append, List.mem_cons]
  exact entered.elim (fun here => .inr (.inl here)) .inl

theorem raises_of_before : culmination.after.Raises other.entering := by
  have begun := other.begun
  rw [before, proceeding_append, run_bind_eq_ok] at begun
  obtain ⟨told, middle, same, further⟩ := begun
  obtain ⟨rfl, rfl⟩ := EStateM.Result.ok.inj (same.symm.trans culmination.begun)
  rw [List.flatMap_cons, play_append, play_enterScript,
    run_bind_of_ok culmination.enter_run] at further
  exact (ends_iff_run.mp (play_raises engine event _ _ _)).1 _ _ further

end Before

section Timeliness

variable (formed : engine.machine.chart.WellFormed)
variable (planned : engine.machine.chart.entries?
  (engine.machine.chart.recordedBy bench.state.active bench.state.history
    (chosen.map Choice.move))
  (chosen.map Choice.move) = some entries)
variable (valid : engine.machine.chart.Valid bench.state.active)
variable (validAfter : engine.machine.chart.Valid
  (engine.machine.chart.succeeding bench.state.active bench.state.history
    (chosen.map Choice.move) entries))

include formed

theorem reached_below
    (rootOpen : engine.machine.chart.isFinal Chart.root = false) :
    ∃ parent, engine.machine.chart.parent? culmination.reached = some parent := by
  have completed : engine.machine.chart.Completed [] culmination.reached :=
    .final culmination.isFinal
  refine formed.parented completed.in_range fun isRoot => ?_
  have isFinal := culmination.isFinal
  rw [isRoot, rootOpen] at isFinal
  cases isFinal

omit formed in
theorem mem_entries
    {state : StateId}
    (entered : state = culmination.reached ∨ state ∈ culmination.earlier) :
    state ∈ entries := by
  rw [culmination.split, List.mem_append, List.mem_cons]
  exact entered.elim (fun here => .inr (.inl here)) .inl

omit formed in
theorem reached_active : culmination.reached ∈ culmination.acted.state.active :=
  culmination.mem_acted_active.mpr (.inl (.inl rfl))

omit formed in
theorem acted_subset_succeeding :
    ∀ state ∈ culmination.acted.state.active,
      state ∈ engine.machine.chart.succeeding bench.state.active bench.state.history
        (chosen.map Choice.move) entries := by
  intro state member
  rw [Chart.mem_succeeding]
  exact (culmination.mem_acted_active.mp member).imp_left culmination.mem_entries

include planned valid validAfter

theorem acted_moored :
    engine.machine.chart.Moored culmination.acted.state.active := by
  have lawful := Chart.lawful_of_valid formed valid validAfter
  intro state member parent below
  rw [mem_acted_active] at member ⊢
  rcases member with entered | stays
  · refine (lawful.moored state (culmination.mem_entries entered) parent below).imp_left
      fun parentEntered => ?_
    rw [culmination.split, List.mem_append, List.mem_cons] at parentEntered
    rcases parentEntered with earlier | here | later
    · exact .inr earlier
    · exact .inl here
    · -- What is entered later lies further down in the chart.
      have ordered := Chart.entries_ordered planned
      rw [culmination.split] at ordered
      obtain ⟨_, behind, before⟩ := List.pairwise_append.mp ordered
      have order : state < parent := by
        rcases entered with rfl | earlier
        · exact (List.pairwise_cons.mp behind).1 parent later
        · exact before state earlier parent (List.mem_cons_of_mem _ later)
      exact absurd (formed.parentBefore below) (Nat.lt_asymm order)
  · exact .inr (Chart.staying_closed formed valid stays
      (.inr (Chart.inside_of_parent formed below)))

/-- The regions of a parallel state that is announced have finished exactly if no state that is
still to be entered passes for completed within it. -/
theorem in_time_iff
    (rootOpen : engine.machine.chart.isFinal Chart.root = false)
    {outer : StateId}
    (heralded : outer ∈ culmination.heralds) :
    outer ∈ culmination.acted.state.active ∧
      ((∀ region ∈ engine.machine.chart.regions outer,
          engine.machine.chart.Finished culmination.acted.state.active region) ↔
        ∀ part ∈ culmination.later, engine.machine.chart.Comprises outer part →
          engine.machine.chart.Completed [] part → part ∈ culmination.acted.state.active) := by
  have moored := culmination.acted_moored formed planned valid validAfter
  obtain ⟨parallel, _, completed⟩ := Machine.mem_heralded heralded
  obtain ⟨parent, below⟩ := culmination.reached_below formed rootOpen
  have rises := (Machine.heralded_prefix _ _ _ _).subset heralded
  have inside := Machine.inside_of_rising formed below rises
  have reachedAfter := culmination.acted_subset_succeeding _ culmination.reached_active
  have outerAfter := validAfter.outerActive formed reachedAfter inside
  constructor
  · exact moored.outer formed culmination.reached_active inside
  · rw [((Chart.hasCompleted_iff formed).mp completed).regions_finished_iff formed parallel moored]
    constructor
    · exact fun all part _ => all part
    · intro late part comprises idle
      by_contra missing
      have partAfter := comprises.isActive validAfter outerAfter
      rw [Chart.mem_succeeding, culmination.split, List.mem_append, List.mem_cons] at partAfter
      rw [mem_acted_active] at missing
      rcases partAfter with (earlier | here | later) | stays
      · exact missing (.inl (.inr earlier))
      · exact missing (.inl (.inl here))
      · exact missing (culmination.mem_acted_active.mp (late part later comprises idle))
      · exact missing (.inr stays)

omit planned valid in
/-- What completes within a parallel state of which the regions have finished is announced by
then. -/
theorem nested_before
    {outer inner : StateId}
    (inTime : ∀ region ∈ engine.machine.chart.regions outer,
      engine.machine.chart.Finished culmination.acted.state.active region)
    (parallel : engine.machine.chart.isParallel inner = true)
    (inside : engine.machine.chart.isInside inner outer = true)
    (incomplete : ¬ engine.machine.chart.Completed other.entering.state.active inner)
    (completes : engine.machine.chart.Completed other.acted.state.active inner) :
    inner ∈ other.heralds ∧
      (other = culmination ∨
        other.reached ∈ culmination.earlier ∧ other.after.Raises culmination.entering) := by
  have completes' := other.acted_active ▸ completes
  obtain ⟨reachedInside, isHeralded⟩ := Machine.heralded_of_newly formed
    (other.announced_completed formed) parallel incomplete completes'
  rw [← other.acted_active] at isHeralded
  refine ⟨isHeralded, ?_⟩
  rcases culmination.eq_or_before other with same | ⟨between, before⟩ | ⟨between, before⟩
  · exact .inl same.symm
  · -- Nothing is left to complete.
    have reachedAfter := other.acted_subset_succeeding _ other.reached_active
    have innerAfter := validAfter.outerActive formed reachedAfter reachedInside
    obtain ⟨region, below, within⟩ := Chart.child_toward formed inside
    have regionAfter := validAfter.withinActive formed innerAfter within
    have finished := (inTime region ((Chart.mem_regions formed).mpr ⟨below,
      validAfter.ordinary region regionAfter⟩)).within formed validAfter
        culmination.acted_subset_succeeding innerAfter within
    exact absurd (finished.completed.mono fun state member _ =>
      acted_subset_of_before before state member) incomplete
  · refine .inr ⟨?_, raises_of_before before⟩
    rw [before]
    exact List.mem_append_right _ List.mem_cons_self

end Timeliness

end Culmination

end Engine

namespace MachineSpec

variable {spec : MachineSpec ActorLogic} {machine : Machine ActorLogic}

/-- Let a microstep of a built machine lead from a valid configuration to a valid one.  If it goes
well, it comes to the consequences of each final state that it enters.  Once such a state has been
entered and its entry actions have gone well, the consequences are drawn: the parent is announced
if it is compound, then parallel states around the final one, the inner before the outer, each
once in the microstep; a parallel root is announced by the machine's being done, and the machine's
output is made only then.  An announced state is active, and its regions are active and have
completed exactly if no state that is still to be entered, and is not active yet, is one that it
comprises and that passes for completed by its kind.  If they have, all parallel states in it that
complete in the microstep are announced before, at once as they complete.  It is always so if
every parallel state has regions and none of them is final. -/
theorem announced_in_time_iff
    (built : spec.build = .ok machine)
    (ordinaryRoot : spec.HasOrdinaryRoot)
    {engine : Engine} {event : Event} {bench : Workbench} {chosen : List (Choice ActorLogic)}
    {entries : StateSet}
    (runs : engine.machine = machine)
    (planned : machine.chart.entries?
      (machine.chart.recordedBy bench.state.active bench.state.history
        (chosen.map Choice.move))
      (chosen.map Choice.move) = some entries)
    (valid : machine.chart.Valid bench.state.active)
    (validAfter : machine.chart.Valid
      (machine.chart.succeeding bench.state.active bench.state.history
        (chosen.map Choice.move) entries)) :
    (∀ (after : Workbench) (earlier later : List StateId) (reached : StateId),
      (engine.microstep event chosen).run bench = .ok () after →
        entries = earlier ++ reached :: later → machine.chart.isFinal reached = true →
          ∃ culmination : engine.Culmination event bench chosen entries,
            culmination.earlier = earlier ∧ culmination.reached = reached) ∧
    (∀ culmination : engine.Culmination event bench chosen entries,
      (engine.enter event culmination.reached culmination.announced).run culmination.entering =
          .ok (culmination.heralds.reverse ++ culmination.announced) culmination.after ∧
        culmination.after.state.active = culmination.acted.state.active ∧
        (∃ told : List Event,
          (∀ raised ∈ told, ∃ parent,
            machine.chart.parent? culmination.reached = some parent ∧
              machine.chart.isCompound parent = true ∧
                ∃ output, raised = Event.doneState (machine.chart.id parent) output) ∧
          culmination.after.state.raised = culmination.acted.state.raised ++ told ++
            (culmination.heralds.filter (· ≠ Chart.root)).map fun outer =>
              Event.doneState (machine.chart.id outer) .null) ∧
        (machine.chart.isParallel Chart.root = true →
          (Chart.root ∈ culmination.heralds → culmination.after.state.done = true) ∧
          (Chart.root ∉ culmination.heralds →
            culmination.after.state.done = culmination.acted.state.done ∧
              culmination.after.state.output = culmination.acted.state.output)) ∧
        culmination.heralds.Pairwise (fun inner outer =>
          machine.chart.isInside inner outer = true) ∧
        ∀ outer ∈ culmination.heralds,
          machine.chart.isParallel outer = true ∧ outer ∉ culmination.announced ∧
            outer ∈ culmination.acted.state.active ∧
            ((∀ region ∈ machine.chart.regions outer,
                machine.chart.Finished culmination.acted.state.active region) ↔
              ∀ part ∈ culmination.later, machine.chart.Comprises outer part →
                machine.chart.Completed [] part →
                  part ∈ culmination.acted.state.active)) ∧
    (∀ culmination other : engine.Culmination event bench chosen entries,
      ∀ outer ∈ culmination.heralds,
        (∀ region ∈ machine.chart.regions outer,
          machine.chart.Finished culmination.acted.state.active region) →
        ∀ inner, machine.chart.isParallel inner = true →
          machine.chart.isInside inner outer = true →
          ¬ machine.chart.Completed other.entering.state.active inner →
          machine.chart.Completed other.acted.state.active inner →
            inner ∈ other.heralds ∧
              (other = culmination ∨ other.reached ∈ culmination.earlier ∧
                other.after.Raises culmination.entering)) ∧
    ((∀ outer, machine.chart.isParallel outer = true → machine.chart.regions outer ≠ [] ∧
        ∀ region ∈ machine.chart.regions outer, machine.chart.isFinal region = false) →
      ∀ culmination : engine.Culmination event bench chosen entries,
        ∀ outer ∈ culmination.heralds, ∀ region ∈ machine.chart.regions outer,
          machine.chart.Finished culmination.acted.state.active region) := by
  subst runs
  have formed := build_wellFormed built ordinaryRoot
  have rootOpen := build_root_open built ordinaryRoot
  refine ⟨fun after earlier later reached ran => Engine.Culmination.exists_of_run planned ran,
    fun culmination => ?_, ?_, ?_⟩
  · obtain ⟨parent, below⟩ := culmination.reached_below formed rootOpen
    obtain ⟨known, ⟨told, isTold, raised⟩, top, short⟩ := Machine.complete_heralds formed below
      event culmination.acted.state culmination.announced
    refine ⟨?_, culmination.after_active, ⟨told, fun event member => ⟨parent, below,
      isTold event member⟩, raised⟩, fun parallel => ?_, ?_, fun outer heralded => ?_⟩
    · rw [culmination.enter_run, known]
      rfl
    · have atTop : Chart.root ∈ culmination.heralds ↔ _ :=
        Machine.root_heralded_iff formed below parallel
      exact ⟨fun isDone => top (atTop.mp isDone), fun open' => short (mt atTop.mpr open')⟩
    · exact (Machine.rising_nested formed below).sublist
        (Machine.heralded_prefix _ _ _ _).sublist
    · obtain ⟨parallel, unannounced, _⟩ := Machine.mem_heralded heralded
      exact ⟨parallel, unannounced,
        culmination.in_time_iff formed planned valid validAfter rootOpen heralded⟩
  · intro culmination other outer _ inTime inner parallel inside incomplete completes
    exact culmination.nested_before other formed validAfter inTime parallel inside incomplete
      completes
  · intro ordinary culmination outer heralded
    refine (culmination.in_time_iff formed planned valid validAfter rootOpen heralded).2.mpr ?_
    intro part _ comprises idle
    obtain ⟨parent, parallel, isRegion⟩ := comprises.is_region
    have isFinal := idle.final_of_idle ordinary
    rw [(ordinary parent parallel).2 part isRegion] at isFinal
    cases isFinal

/-- A machine that comes to a parallel state. -/
def finale (regions : List (StateSpec ActorLogic)) : MachineSpec ActorLogic :=
  { root := .mk { key := "m", initial := some "idle" }
      [.mk { key := "idle", transitions := [(.on "GO", .toTarget "P")] } [],
       .mk { key := "P", kind := .parallel } regions]
    context := some fun _ => .null }

open Interpreter in
/-- The last of several regions completes the parallel state that is a region itself, and the one
around it. -/
theorem announced_in_time_iff_finale :
    let spec := finale
      [.mk { key := "A", initial := some "a" } [.mk { key := "a", kind := .final } []],
       .mk { key := "N", kind := .parallel }
        [.mk { key := "x", initial := some "y" } [.mk { key := "y", kind := .final } []]]]
    let machine : Machine ActorLogic := spec.machine fun _ => .null
    let engine := (create machine {}).engine ⟨false, true, 1000⟩
      (Nursery.ofGenerations ⟨false, true, 1000⟩ machine.generations)
    let bench := leftBy (engine.firstStep (Event.init .null)) (create machine {}).bench
    let event := Event.named "GO"
    ∃ culmination : engine.Culmination event bench (machine.choices .event event 1)
        [2, 3, 4, 5, 6, 7],
      culmination.reached = 7 ∧ culmination.heralds = [5, 2] ∧
        (∀ region ∈ machine.chart.regions 2,
          machine.chart.Finished culmination.acted.state.active region) ∧
        culmination.after.state.raised.map Event.type =
          ["done.state.m.P.A", "done.state.m.P.N.x", "done.state.m.P.N", "done.state.m.P"] := by
  intro spec machine engine bench event
  have built : spec.build = .ok machine := build_of_faultless (by decide +kernel) rfl
  have formed := build_wellFormed built (.inl rfl)
  have valid : machine.chart.Valid bench.state.active :=
    (Chart.check_eq_none_iff formed).mp (by decide +kernel)
  have validAfter := (Chart.check_eq_none_iff formed).mp
    (show machine.chart.check (machine.chart.succeeding bench.state.active bench.state.history
      ((machine.choices .event event 1).map Choice.move) [2, 3, 4, 5, 6, 7]) = none by
        decide +kernel)
  have runs : engine.machine = machine := rfl
  let culmination : engine.Culmination event bench (machine.choices .event event 1)
      [2, 3, 4, 5, 6, 7] :=
    .reaching [2, 3, 4, 5, 6] 7 [] [] rfl (by decide +kernel) (by decide +kernel)
      (by decide +kernel)
  obtain ⟨_, timely, _⟩ :=
    announced_in_time_iff built (.inl rfl) runs (by decide +kernel) valid validAfter
  have heralds : culmination.heralds = [5, 2] := by decide +kernel
  obtain ⟨_, _, _, _, _, spoken⟩ := timely culmination
  obtain ⟨_, _, _, inTime⟩ := spoken 2 (by rw [heralds]; decide)
  exact ⟨culmination, rfl, heralds,
    inTime.mpr fun _ later => absurd later List.not_mem_nil, by decide +kernel⟩

open Interpreter in
/-- Beside a final region the parallel state is announced before its other region is entered, and
so before what is announced of this. -/
theorem announced_early_finale :
    let spec := finale
      [.mk { key := "A", kind := .final } [],
       .mk { key := "N", kind := .parallel }
        [.mk { key := "x", kind := .final } [], .mk { key := "y", kind := .final } []]]
    let machine : Machine ActorLogic := spec.machine fun _ => .null
    let engine := (create machine {}).engine ⟨false, true, 1000⟩
      (Nursery.ofGenerations ⟨false, true, 1000⟩ machine.generations)
    let bench := leftBy (engine.firstStep (Event.init .null)) (create machine {}).bench
    let event := Event.named "GO"
    let after := leftBy (engine.microstep event (machine.choices .event event 1)) bench
    spec.build = .ok machine ∧
      (machine.select .event bench.state.active bench.state.history bench.state.context
        event).map (fun selection => selection.chosen.map Choice.move) =
          .ok ((machine.choices .event event 1).map Choice.move) ∧
      machine.chart.check bench.state.active = none ∧
      machine.chart.check after.state.active = none ∧
      machine.chart.regions 2 = [3, 4] ∧
      (∃ culmination : engine.Culmination event bench (machine.choices .event event 1)
          [2, 3, 4, 5, 6],
        culmination.reached = 3 ∧ culmination.heralds = [2] ∧
          culmination.acted.state.active = [0, 2, 3]) ∧
      (∃ culmination : engine.Culmination event bench (machine.choices .event event 1)
          [2, 3, 4, 5, 6],
        culmination.reached = 5 ∧ culmination.heralds = [4] ∧
          culmination.acted.state.active = [0, 2, 3, 4, 5]) ∧
      after.state.raised.map Event.type = ["done.state.m.P", "done.state.m.P.N"] := by
  intro spec machine engine bench event after
  refine ⟨build_of_faultless (by decide +kernel) rfl, by decide +kernel, by decide +kernel,
    by decide +kernel, by decide +kernel, ?_, ?_, by decide +kernel⟩
  · exact ⟨.reaching [2] 3 [4, 5, 6] [] rfl (by decide +kernel) (by decide +kernel)
      (by decide +kernel), rfl, by decide +kernel, by decide +kernel⟩
  · exact ⟨.reaching [2, 3, 4] 5 [6] [2] rfl (by decide +kernel) (by decide +kernel)
      (by decide +kernel), rfl, by decide +kernel, by decide +kernel⟩

end MachineSpec

end Statechart
