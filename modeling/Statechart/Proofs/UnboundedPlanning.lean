import Statechart.Proofs.Building
import Statechart.Proofs.EntryEnds

/-!
# Planning without a bound

A plan is completed by tasks that call for other tasks: to complete it below a state, to plan a
state that something stands for, to cover a region, to climb to a state above a target.  Here the
tasks are followed for as long as they call for others, with no bound on how deep that leads.
Whatever planning with a bound answers is then what following the tasks leads to, and the other way
round; and with sound records every list of tasks comes to an end, whatever is planned before.
So does replacing history states among targets by what they stand for.
-/

namespace Statechart

/-- Part of the work of planning what a step enters. -/
inductive PlanTask where
  /-- Complete the plan below a state. -/
  | below (state : StateId)
  /-- Complete the plan for a target, which is itself planned if it is entered anew. -/
  | plant (anew : Bool) (target : StateId)
  /-- See that something is planned in a region. -/
  | cover (region : StateId)
  /-- Pass a state above a target, which is itself planned if that is allowed. -/
  | climb (allowed : Bool) (above : StateId)

namespace PlanTask

/-- The plan after a task itself, before those that it calls for. -/
def mark (chart : Chart) (planned : StateSet) : PlanTask → StateSet
  | .below _ => planned
  | .plant anew target => if anew then chart.planUnlessHistory target planned else planned
  | .cover region => if chart.covered planned region then planned else planned.insert region
  | .climb allowed above => if allowed then planned.insert above else planned

/-- The tasks that a task calls for, one after another. -/
def calls (chart : Chart) (records : HistoryRecords) (planned : StateSet) :
    PlanTask → List PlanTask
  | .below state =>
      match chart.kind state with
      | .history _ defaults =>
          let restored := (records.memory? state).getD defaults
          restored.map (.plant true) ++
            match chart.parent? state with
            | none => []
            | some parent =>
                restored.flatMap fun target => (chart.between target parent).map (.climb true)
      | .compound initial => .plant true initial :: (chart.between initial state).map (.climb true)
      | .parallel => (chart.regions state).map .cover
      | .atomic | .final => []
  | .plant _ target => [.below target]
  | .cover region => if chart.covered planned region then [] else [.below region]
  | .climb _ above => if chart.isParallel above then (chart.regions above).map .cover else []

/-- The state that a task completes the plan for. -/
def completed? : PlanTask → Option StateId
  | .below state | .plant _ state => some state
  | .cover _ | .climb _ _ => none

/-- Work on a task as planning with a bound does it. -/
def perform (chart : Chart) (records : HistoryRecords) (fuel : Nat) (planned : StateSet)
    (task : PlanTask) : Option StateSet :=
  match task with
  | .below state => chart.enterBelow records fuel state planned
  | .plant _ target => chart.enterBelow records fuel target (task.mark chart planned)
  | .cover region =>
      if chart.covered planned region then some planned
      else chart.enterBelow records fuel region (planned.insert region)
  | .climb _ above =>
      if chart.isParallel above then
        chart.fillRegions (chart.enterBelow records fuel) above (task.mark chart planned)
      else some (task.mark chart planned)

end PlanTask

namespace Chart

/-- Work on tasks one after another. -/
def performAll (chart : Chart) (records : HistoryRecords) (fuel : Nat) (planned : StateSet)
    (tasks : List PlanTask) : Option StateSet :=
  tasks.foldlM (PlanTask.perform chart records fuel) planned

/-- Following tasks, and each time first those that a task calls for, leads from one plan to
another. -/
inductive Leads (chart : Chart) (records : HistoryRecords) :
    List PlanTask → StateSet → StateSet → Prop where
  | done {planned : StateSet} : Leads chart records [] planned planned
  | call {task : PlanTask} {tasks : List PlanTask} {before middle after : StateSet} :
      Leads chart records (task.calls chart records before) (task.mark chart before) middle →
      Leads chart records tasks middle after → Leads chart records (task :: tasks) before after

/-- Replacing history states among targets by what they stand for leads from one set to
another. -/
inductive Resolves (chart : Chart) (records : HistoryRecords) :
    List StateId → StateSet → StateSet → Prop where
  | done {set : StateSet} : Resolves chart records [] set set
  | ordinary {target : StateId} {targets : List StateId} {before after : StateSet} :
      chart.isHistory target = false →
      Resolves chart records targets (before.insert target) after →
      Resolves chart records (target :: targets) before after
  | recorded {target : StateId} {targets states : List StateId} {before after : StateSet} :
      chart.isHistory target = true → records.memory? target = some states →
      Resolves chart records targets (before.insertAll states) after →
      Resolves chart records (target :: targets) before after
  | byDefault {target : StateId} {targets defaults : List StateId} {memory : HistoryKind}
      {found before after : StateSet} :
      chart.kind target = .history memory defaults → records.memory? target = none →
      Resolves chart records defaults [] found →
      Resolves chart records targets (before.insertAll found) after →
      Resolves chart records (target :: targets) before after

/-- The tasks of a move: its targets, and then the states between its domain and what the targets
stand for. -/
def moveTasks (chart : Chart) (records : HistoryRecords) (move : Move) : List PlanTask :=
  let domain := chart.domain records move
  move.targets.map (fun target => .plant (entersAnew domain move target) target) ++
    (chart.effectiveTargets records move.targets).flatMap fun target =>
      (chart.between target domain).map fun above => .climb (chart.isInside above domain) above

/-- Planning what the moves enter comes to an end, however deep it leads. -/
def PlanningEnds (chart : Chart) (records : HistoryRecords) (moves : List Move) : Prop :=
  ∃ entries, chart.Leads records (moves.flatMap (chart.moveTasks records)) [] entries

section Leading

variable {chart : Chart} {records : HistoryRecords}
variable {tasks more : List PlanTask} {before middle after : StateSet}

theorem leads_singleton_iff
    {task : PlanTask} :
    chart.Leads records [task] before after ↔
      chart.Leads records (task.calls chart records before) (task.mark chart before) after := by
  constructor
  · rintro (_ | ⟨called, ⟨⟩⟩)
    exact called
  · exact fun called => .call called .done

theorem Leads.append
    (first : chart.Leads records tasks before middle)
    (second : chart.Leads records more middle after) :
    chart.Leads records (tasks ++ more) before after := by
  induction first with
  | done => exact second
  | call called _ _ ih => exact .call called (ih second)

theorem Leads.unique
    {other : StateSet}
    (leads : chart.Leads records tasks before after)
    (alsoLeads : chart.Leads records tasks before other) :
    after = other := by
  induction leads generalizing other with
  | done =>
      cases alsoLeads
      rfl
  | call _ _ calledIH restIH =>
      cases alsoLeads with
      | call called rest =>
          cases calledIH called
          exact restIH rest

theorem Leads.settles
    (leads : chart.Leads records tasks before after) :
    ∀ task ∈ tasks, ∀ target, task.completed? = some target → chart.Settles records target := by
  induction leads with
  | done => simp
  | @call first tasks before _ _ _ _ calledIH restIH =>
      intro task member target completes
      rcases List.mem_cons.mp member with rfl | later
      · cases task with
        | below state =>
            obtain rfl : state = target := Option.some.inj completes
            by_contra unsettled
            -- What does not settle restores something that does not, and that is planted next.
            obtain ⟨history, restored, stands, stillUnsettled⟩ := exists_unsettled unsettled
            refine stillUnsettled (calledIH (.plant true restored) ?_ restored rfl)
            cases kind : chart.kind state with
            | history memory defaults =>
                rw [standsFor, kind] at stands
                simpa [PlanTask.calls, kind] using .inl stands
            | _ => simp [isHistory, kind] at history
        | plant anew state =>
            obtain rfl : state = target := Option.some.inj completes
            exact calledIH (.below state) List.mem_cons_self state rfl
        | cover region => cases completes
        | climb allowed above => cases completes
      · exact restIH task later target completes

end Leading

section Performing

variable {chart : Chart} {records : HistoryRecords} {fuel : Nat}

theorem performAll_append
    (tasks more : List PlanTask) (before : StateSet) :
    chart.performAll records fuel before (tasks ++ more) =
      (chart.performAll records fuel before tasks).bind fun middle =>
        chart.performAll records fuel middle more :=
  List.foldlM_append

theorem performAll_flatMap
    {item : Type} (items : List item) (tasks : item → List PlanTask) (before : StateSet) :
    chart.performAll records fuel before (items.flatMap tasks) =
      items.foldlM (fun planned item => chart.performAll records fuel planned (tasks item))
        before := by
  induction items generalizing before with
  | nil => rfl
  | cons first items ih =>
      simp only [performAll] at ih
      simp only [performAll, List.flatMap_cons, List.foldlM_append, List.foldlM_cons, ih]

theorem performAll_plant
    (anew : StateId → Bool) (targets : List StateId) (before : StateSet) :
    chart.performAll records fuel before
        (targets.map fun target => .plant (anew target) target) =
      targets.foldlM (fun planned target => chart.enterBelow records fuel target
        (if anew target then chart.planUnlessHistory target planned else planned)) before := by
  rw [performAll, List.foldlM_map]
  rfl

theorem performAll_cover
    (parallel : StateId) (before : StateSet) :
    chart.performAll records fuel before ((chart.regions parallel).map .cover) =
      chart.fillRegions (chart.enterBelow records fuel) parallel before := by
  rw [performAll, List.foldlM_map]
  rfl

theorem performAll_climb
    (allowed : StateId → Bool) (line : List StateId) (before : StateSet) :
    chart.performAll records fuel before (line.map fun above => .climb (allowed above) above) =
      chart.enterAbove (chart.enterBelow records fuel) allowed line before := by
  rw [performAll, List.foldlM_map]
  rfl

theorem enterBelow_succ
    (state : StateId) (before : StateSet) :
    chart.enterBelow records (fuel + 1) state before =
      chart.performAll records fuel before
        ((PlanTask.below state).calls chart records before) := by
  cases kind : chart.kind state with
  | history memory defaults =>
      have planted : chart.performAll records fuel before
          (((records.memory? state).getD defaults).map (.plant true)) = _ :=
        performAll_plant (fun _ => true) _ before
      simp only [enterBelow, kind, PlanTask.calls, performAll_append, planted, if_true,
        Option.bind_eq_bind]
      congr 1
      funext middle
      cases chart.parent? state with
      | none => rfl
      | some parent => simp only [performAll_flatMap, performAll_climb (fun _ => true)]
  | compound initial =>
      simp only [enterBelow, kind, PlanTask.calls, ← performAll_climb (fun _ => true)]
      rfl
  | parallel => simp only [enterBelow, kind, PlanTask.calls, performAll_cover]
  | atomic => simp [enterBelow, kind, PlanTask.calls, performAll]
  | final => simp [enterBelow, kind, PlanTask.calls, performAll]

/-- What a move enters is planned by working on its tasks. -/
theorem planMove_eq_performAll
    (move : Move) (before : StateSet) :
    chart.planMove records move before =
      chart.performAll records chart.entryBound before (chart.moveTasks records move) := by
  unfold planMove moveTasks
  split
  · rename_i targetless
    simp [List.isEmpty_iff.mp targetless, effectiveTargets, effectiveWithin, performAll]
  · simp only [performAll_append, performAll_plant, performAll_flatMap, performAll_climb,
      Option.bind_eq_bind]

theorem leads_of_performAll
    {tasks : List PlanTask} {before after : StateSet}
    (each : ∀ task ∈ tasks, ∀ {before after},
      task.perform chart records fuel before = some after →
      chart.Leads records [task] before after)
    (performed : chart.performAll records fuel before tasks = some after) :
    chart.Leads records tasks before after := by
  induction tasks generalizing before with
  | nil =>
      obtain rfl : before = after := Option.some.inj performed
      exact .done
  | cons task tasks ih =>
      rw [performAll, List.foldlM_cons, Option.bind_eq_bind, Option.bind_eq_some_iff] at performed
      obtain ⟨middle, first, rest⟩ := performed
      exact (each task List.mem_cons_self first).append
        (ih (fun other member => each other (List.mem_cons_of_mem task member)) rest)

/-- What work on a task answers is what following it leads to, if this holds of completing the
plan below states. -/
theorem leads_of_perform
    {task : PlanTask} {before after : StateSet}
    (below : ∀ {state before after}, chart.enterBelow records fuel state before = some after →
      chart.Leads records [.below state] before after)
    (performed : task.perform chart records fuel before = some after) :
    chart.Leads records [task] before after := by
  -- Regions come first, as climbing past a parallel state covers those of it.
  have covers : ∀ region {before after},
      (PlanTask.cover region).perform chart records fuel before = some after →
      chart.Leads records [.cover region] before after := by
    intro region before after performed
    rw [leads_singleton_iff]
    by_cases covered : chart.covered before region = true
    · obtain rfl : before = after := by simpa [PlanTask.perform, covered] using performed
      simpa [PlanTask.calls, PlanTask.mark, covered] using .done
    · simp only [PlanTask.perform, PlanTask.calls, PlanTask.mark, if_neg covered] at performed ⊢
      exact below performed
  cases task with
  | below state => exact below performed
  | plant anew target => exact leads_singleton_iff.mpr (below performed)
  | cover region => exact covers region performed
  | climb allowed above =>
      rw [leads_singleton_iff]
      by_cases parallel : chart.isParallel above = true
      · simp only [PlanTask.perform, PlanTask.calls, if_pos parallel] at performed ⊢
        rw [← performAll_cover] at performed
        refine leads_of_performAll (fun task member => ?_) performed
        obtain ⟨region, _, rfl⟩ := List.mem_map.mp member
        exact covers region
      · simp only [PlanTask.perform, PlanTask.calls, if_neg parallel, Option.some.injEq]
          at performed ⊢
        rw [performed]
        exact .done

theorem leads_of_enterBelow
    {state : StateId} {before after : StateSet}
    (completed : chart.enterBelow records fuel state before = some after) :
    chart.Leads records [.below state] before after := by
  induction fuel generalizing state before after with
  | zero => simp [enterBelow] at completed
  | succ fuel ih =>
      rw [enterBelow_succ] at completed
      exact leads_singleton_iff.mpr
        (leads_of_performAll (fun _ _ => leads_of_perform ih) completed)

end Performing

section Ending

variable {chart : Chart} (formed : chart.WellFormed) {records : HistoryRecords}

include formed

/-- Planning with a bound answers what following the tasks leads to, and nothing else: the bound
never cuts off what comes to an end. -/
theorem entries_eq_some_iff
    {moves : List Move} {after : StateSet} :
    chart.entries? records moves = some after ↔
      chart.Leads records (moves.flatMap (chart.moveTasks records)) [] after := by
  have bounded : chart.entries? records moves =
      chart.performAll records chart.entryBound [] (moves.flatMap (chart.moveTasks records)) := by
    simp only [entries?, planMove_eq_performAll, performAll_flatMap]
  have forward : ∀ {after}, chart.entries? records moves = some after →
      chart.Leads records (moves.flatMap (chart.moveTasks records)) [] after := by
    intro after planned
    rw [bounded] at planned
    exact leads_of_performAll (fun _ _ => leads_of_perform leads_of_enterBelow) planned
  refine ⟨forward, fun leads => ?_⟩
  cases planned : chart.entries? records moves with
  | some other => rw [(forward planned).unique leads]
  | none =>
      obtain ⟨move, isMove, target, isTarget, unsettled⟩ :=
        (entries_eq_none_iff formed moves).mp planned
      have planted : .plant (entersAnew (chart.domain records move) move target) target ∈
          moves.flatMap (chart.moveTasks records) :=
        List.mem_flatMap.mpr ⟨move, isMove, List.mem_append_left _ (List.mem_map.mpr
          ⟨target, isTarget, rfl⟩)⟩
      exact absurd (leads.settles _ planted target rfl) unsettled

/-- Planning with a bound has no answer exactly if planning never ends. -/
theorem entries_eq_none_iff_endless
    {moves : List Move} :
    chart.entries? records moves = none ↔ ¬ chart.PlanningEnds records moves := by
  rw [Option.eq_none_iff_forall_ne_some]
  simp only [PlanningEnds, not_exists, ← entries_eq_some_iff formed, ne_eq]

/-- Planning ends exactly if all targets settle. -/
theorem planningEnds_iff_settles
    {moves : List Move} :
    chart.PlanningEnds records moves ↔
      ∀ move ∈ moves, ∀ target ∈ move.targets, chart.Settles records target := by
  have endless : ¬ chart.PlanningEnds records moves ↔
      ∃ move ∈ moves, ∃ target ∈ move.targets, ¬ chart.Settles records target :=
    (entries_eq_none_iff_endless formed).symm.trans (entries_eq_none_iff formed moves)
  simpa using not_congr endless

/-- With sound records all tasks come to an end. -/
theorem leads_of_sound
    (sound : chart.Sound records)
    (tasks : List PlanTask) (before : StateSet) :
    ∃ after, chart.Leads records tasks before after := by
  have below : ∀ state plan, ∃ after,
      chart.enterBelow records chart.entryBound state plan = some after := fun state plan =>
    enterTarget_ends formed (settles_of_sound formed sound state).settlesIn
      (twice_size_lt_entryBound chart) plan
  have regions : ∀ parallel plan, ∃ after,
      chart.fillRegions (chart.enterBelow records chart.entryBound) parallel plan = some after :=
    fillRegions_ends_of_size formed
      (Nat.lt_of_le_of_lt (Nat.le_add_right _ _) (twice_size_lt_entryBound chart))
  have each : ∀ (task : PlanTask) (plan : StateSet), ∃ after,
      task.perform chart records chart.entryBound plan = some after := by
    intro task plan
    cases task with
    | below state => exact below state plan
    | plant anew target => exact below target _
    | cover region =>
        by_cases covered : chart.covered plan region = true
        · exact ⟨plan, if_pos covered⟩
        · obtain ⟨after, completed⟩ := below region (plan.insert region)
          exact ⟨after, (if_neg covered).trans completed⟩
    | climb allowed above =>
        by_cases parallel : chart.isParallel above = true
        · obtain ⟨after, filled⟩ := regions above ((PlanTask.climb allowed above).mark chart plan)
          exact ⟨after, (if_pos parallel).trans filled⟩
        · exact ⟨_, if_neg parallel⟩
  obtain ⟨after, performed⟩ := foldlM_ends _ tasks (fun task _ => each task) before
  exact ⟨after, leads_of_performAll (fun _ _ => leads_of_perform leads_of_enterBelow) performed⟩

end Ending

section Resolving

variable {chart : Chart} {records : HistoryRecords}
variable {targets : List StateId} {before after : StateSet}

theorem Resolves.unique
    {other : StateSet}
    (resolves : chart.Resolves records targets before after)
    (alsoResolves : chart.Resolves records targets before other) :
    after = other := by
  induction resolves generalizing other with
  | done =>
      cases alsoResolves
      rfl
  | ordinary notHistory _ ih =>
      cases alsoResolves with
      | ordinary _ rest => exact ih rest
      | recorded history => simp [history] at notHistory
      | byDefault kind => simp [isHistory, kind] at notHistory
  | recorded history memory _ ih =>
      cases alsoResolves with
      | ordinary notHistory => simp [history] at notHistory
      | recorded _ sameMemory rest =>
          cases memory.symm.trans sameMemory
          exact ih rest
      | byDefault _ blank => simp [memory] at blank
  | byDefault kind blank _ _ defaultsIH ih =>
      cases alsoResolves with
      | ordinary notHistory => simp [isHistory, kind] at notHistory
      | recorded _ memory => simp [blank] at memory
      | byDefault sameKind _ defaults rest =>
          cases kind.symm.trans sameKind
          cases defaultsIH defaults
          exact ih rest

theorem resolves_foldl
    {step : StateSet → StateId → StateSet}
    (each : ∀ target ∈ targets, ∀ {rest before after},
      chart.Resolves records rest (step before target) after →
      chart.Resolves records (target :: rest) before after)
    (before : StateSet) :
    chart.Resolves records targets before (targets.foldl step before) := by
  induction targets generalizing before with
  | nil => exact .done
  | cons target targets ih =>
      exact each target List.mem_cons_self
        (ih (fun other member => each other (List.mem_cons_of_mem target member)) _)

/-- Replacing history states with a bound gives what it leads to without one, if this holds of
the defaults. -/
theorem resolves_effectiveWithin
    {fuel : Nat}
    (inner : ∀ target ∈ targets, ∀ {memory defaults},
      chart.kind target = .history memory defaults →
      chart.Resolves records defaults [] (chart.effectiveWithin records fuel defaults)) :
    chart.Resolves records targets [] (chart.effectiveWithin records (fuel + 1) targets) := by
  rw [effectiveWithin]
  refine resolves_foldl (fun target member => ?_) []
  intro rest before after resolves
  cases kind : chart.kind target with
  | history memory defaults =>
      cases recorded : records.memory? target with
      | some states =>
          exact .recorded (by simp [isHistory, kind]) recorded
            (by simpa [kind, recorded] using resolves)
      | none =>
          exact .byDefault kind recorded (inner target member kind)
            (by simpa [kind, recorded] using resolves)
  | _ => exact .ordinary (by simp [isHistory, kind]) (by simpa [kind] using resolves)

/-- The effective targets are what replacing history states among the targets leads to: a default
is no history state, so this never goes deeper than to the defaults. -/
theorem resolves_iff
    (formed : chart.WellFormed) :
    chart.Resolves records targets [] after ↔
      after = chart.effectiveTargets records targets := by
  obtain ⟨fuel, enough⟩ : ∃ fuel, chart.size = fuel + 1 :=
    ⟨chart.size - 1, (Nat.succ_pred_eq_of_pos formed.nonempty).symm⟩
  have resolves : chart.Resolves records targets [] (chart.effectiveTargets records targets) := by
    unfold effectiveTargets
    rw [enough]
    refine resolves_effectiveWithin fun target _ memory defaults kind => ?_
    refine resolves_effectiveWithin fun default isDefault _ _ defaultKind => ?_
    have history : chart.isHistory target = true := by simp [isHistory, kind]
    obtain ⟨parent, below⟩ := history_has_parent formed history
    have ordinary := (formed.defaultsBelow kind below default isDefault).1
    simp [isHistory, defaultKind] at ordinary
  constructor
  · exact fun other => other.unique resolves
  · rintro rfl
    exact resolves

end Resolving

end Chart

namespace MachineSpec

variable {L : Type} {spec : MachineSpec L} {machine : Machine L} {records : HistoryRecords}

/-- Planning what a step of a built machine enters ends, if its records name only ordinary states
below the parents of their history states.  Replacing history states among targets by what they
stand for leads to the effective targets and to nothing else.  Whatever is planned already, any
list of tasks leads, each task with all that it calls for, to one plan and no other; and from an
empty plan the tasks of any moves lead to what planning with a bound answers. -/
theorem planning_ends
    (built : spec.build = .ok machine)
    (ordinaryRoot : spec.HasOrdinaryRoot)
    (sound : machine.chart.Sound records) :
    (∀ targets effective, machine.chart.Resolves records targets [] effective ↔
      effective = machine.chart.effectiveTargets records targets) ∧
    (∀ tasks planned, ∃! after, machine.chart.Leads records tasks planned after) ∧
    ∀ moves, ∃ entries, machine.chart.entries? records moves = some entries ∧
      ∀ other, machine.chart.Leads records
          (moves.flatMap (machine.chart.moveTasks records)) [] other ↔ other = entries := by
  have formed := build_wellFormed built ordinaryRoot
  refine ⟨fun _ _ => Chart.resolves_iff formed, fun tasks planned => ?_, fun moves => ?_⟩
  · obtain ⟨after, leads⟩ := Chart.leads_of_sound formed sound tasks planned
    exact ⟨after, leads, fun other alsoLeads => alsoLeads.unique leads⟩
  · obtain ⟨entries, planned⟩ := Chart.entries_end formed sound moves
    have leads := (Chart.entries_eq_some_iff formed).mp planned
    refine ⟨entries, planned, fun other => ⟨fun alsoLeads => alsoLeads.unique leads, ?_⟩⟩
    rintro rfl
    exact leads

/-- A study: at the desk the lamp and the paper are left as they were. -/
def study : MachineSpec L :=
  { root := .mk { key := "study" }
      [.mk { key := "desk", initial := some "bare" }
          [.mk { key := "bare" } [],
           .mk { key := "used", kind := .parallel }
             [.mk { key := "lamp" } [.mk { key := "dark" } [], .mk { key := "lit" } []],
              .mk { key := "paper" } [.mk { key := "blank" } [], .mk { key := "written" } []]],
           .mk { key := "left", kind := .history .deep } []],
       .mk { key := "hall", transitions := [(.on "RETURN", .toTarget "desk.left")] } []]
    context := some fun _ => .null }

/-- Only the lit lamp is on record, so going back to the desk is to find the lamp lit and the paper
blank. -/
theorem planning_ends_study :
    let machine : Machine Unit := study.machine fun _ => .null
    machine.chart.Sound [(10, [6])] ∧
      machine.chart.Leads [(10, [6])]
        ([{ source := 11, targets := [10], reenter := false }].flatMap
          (machine.chart.moveTasks [(10, [6])])) [] [1, 3, 4, 6, 7, 8] := by
  intro machine
  have built : study.build = .ok machine := build_of_faultless (by decide +kernel) rfl
  have sound : machine.chart.Sound [(10, [6])] := by
    refine Chart.sound_of_entries (List.forall_mem_singleton.mpr
      (List.forall_mem_singleton.mpr ⟨by decide +kernel, ?_⟩))
    have below : machine.chart.parent? 10 = some 1 := by decide +kernel
    intro parent above
    obtain rfl := Option.some.inj (below.symm.trans above)
    decide +kernel
  obtain ⟨entries, planned, leads⟩ := (planning_ends built (.inl rfl) sound).2.2
    [{ source := 11, targets := [10], reenter := false }]
  refine ⟨sound, (leads _).mpr (Option.some.inj (Eq.trans ?_ planned))⟩
  decide +kernel

end MachineSpec

end Statechart
