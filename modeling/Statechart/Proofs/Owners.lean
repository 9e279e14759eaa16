import Statechart.Proofs.RegistryBalance
import Statechart.Proofs.Tidiness

/-!
# The states that actors end with

Leaving a state stops the actors that end with it.  So what an actor may end with narrows
while states are left, and widens when actions start new actors.  After a tidy step from
where every actor ends with an active state, every actor does so again.
-/

namespace Statechart

namespace Registry

/-- Each actor that ends with a state ends with an allowed one. -/
def OwnedWithin {ι : Type} (registry : Registry ι) (allowed : StateId → Prop) : Prop :=
  ∀ entry ∈ registry.actors, ∀ state, entry.2.owner = some state → allowed state

section Owning

variable {ι : Type} {registry : Registry ι} {allowed wider : StateId → Prop}

theorem OwnedWithin.mono
    (owned : registry.OwnedWithin allowed)
    (widens : ∀ state, allowed state → wider state) :
    registry.OwnedWithin wider :=
  fun entry member state owner => widens state (owned entry member state owner)

theorem ownedWithin_of_vacant
    (vacant : registry.actors = []) :
    registry.OwnedWithin allowed := by
  intro entry member
  rw [vacant] at member
  cases member

theorem ownedWithin_dismissed
    (owned : registry.OwnedWithin allowed)
    (status : ActorStatus) (id : String) :
    (registry.dismissed status id).OwnedWithin allowed := by
  intro entry member
  rw [actors_dismissed] at member
  exact owned entry (Table.mem_erase.mp member).1

theorem ownedWithin_staffed
    (owned : registry.OwnedWithin allowed)
    (id : String) {owner : Option StateId} (depth : Nat) (process : Process ι)
    (permitted : ∀ state, owner = some state → allowed state) :
    (registry.staffed id owner depth process).OwnedWithin allowed := by
  intro entry member
  rcases Table.mem_of_mem_insert member with rfl | earlier
  · exact permitted
  · exact ownedWithin_dismissed owned .stopped id entry earlier

theorem ownedWithin_update
    (owned : registry.OwnedWithin allowed)
    (id : String) (process : Process ι) :
    (registry.update id process).OwnedWithin allowed := by
  intro entry member
  obtain ⟨earlier, isMember, rfl⟩ := List.mem_map.mp member
  split
  · exact owned earlier isMember
  · exact owned earlier isMember

end Owning

end Registry

namespace Supervisor

section Owning

variable {allowed : StateId → Prop} {supervisor : Supervisor Interpreter}
variable (facilities : Facilities) (nursery : Nursery)

theorem ownedWithin_dismiss
    (owned : supervisor.registry.OwnedWithin allowed)
    (status : ActorStatus) (id : String) :
    (supervisor.dismiss nursery status id).registry.OwnedWithin allowed := by
  rw [registry_dismiss]
  exact Registry.ownedWithin_dismissed owned status id

theorem ownedWithin_cancelTimer
    (owned : supervisor.registry.OwnedWithin allowed)
    (id : String) :
    (supervisor.cancelTimer nursery id).registry.OwnedWithin allowed := by
  unfold cancelTimer
  split
  · exact ownedWithin_dismiss nursery owned _ id
  · exact owned

theorem ownedWithin_spawn
    (owned : supervisor.registry.OwnedWithin allowed)
    {order : SpawnOrder}
    (permitted : ∀ state, order.owner = some state → allowed state) :
    (supervisor.spawn facilities nursery order).registry.OwnedWithin allowed := by
  rw [(spawn_turns supervisor facilities nursery order).registry]
  exact Registry.ownedWithin_staffed owned order.id order.depth _ permitted

theorem ownedWithin_stopOwnedBy
    (balanced : supervisor.registry.Balanced)
    (owned : supervisor.registry.OwnedWithin allowed)
    (state : StateId) :
    (supervisor.stopOwnedBy nursery state).registry.OwnedWithin
      fun other => allowed other ∧ other ≠ state := by
  intro entry member other owner
  obtain ⟨isMember, spared⟩ := (mem_stopWhere balanced.distinct).mp member
  refine ⟨owned entry isMember other owner, ?_⟩
  rintro rfl
  simp [owner] at spared

end Owning

end Supervisor

namespace Engine

variable (engine : Engine) (event : Event) {allowed : StateId → Prop} {bench : Workbench}

theorem spawn_owned
    (owned : bench.supervisor.registry.OwnedWithin allowed)
    {order : SpawnOrder}
    (permitted : ∀ state, order.owner = some state → allowed state) :
    (engine.spawn order bench).supervisor.registry.OwnedWithin allowed :=
  Supervisor.ownedWithin_spawn _ _ owned permitted

theorem nameOr_owned
    (owned : bench.supervisor.registry.OwnedWithin allowed)
    (given : Option String) (stem : String) :
    (bench.nameOr given stem).2.supervisor.registry.OwnedWithin allowed := by
  cases given with
  | some id => exact owned
  | none => exact owned

theorem schedule_owned
    (owned : bench.supervisor.registry.OwnedWithin allowed)
    (id : Option String) (delay : Duration) (delivery : Delivery) :
    (engine.schedule id delay delivery bench).supervisor.registry.OwnedWithin allowed :=
  spawn_owned engine (nameOr_owned owned id "delay") fun _ unowned => by cases unowned

theorem send_owned
    (owned : bench.supervisor.registry.OwnedWithin allowed)
    (recipient : Recipient) :
    (send recipient event bench).supervisor.registry.OwnedWithin allowed := by
  cases recipient with
  | self => exact owned
  | child id => exact owned
  | parent =>
      have same := (Supervisor.hears_sendUp bench.supervisor event).registry
      exact same.symm ▸ owned

theorem foldl_owned
    {item : Type} {step : Workbench → item → Workbench}
    (keeps : ∀ (bench : Workbench) (next : item),
      bench.supervisor.registry.OwnedWithin allowed →
        (step bench next).supervisor.registry.OwnedWithin allowed)
    (items : List item)
    (owned : bench.supervisor.registry.OwnedWithin allowed) :
    (items.foldl step bench).supervisor.registry.OwnedWithin allowed := by
  induction items generalizing bench with
  | nil => exact owned
  | cons next items ih => exact ih (keeps bench next owned)

theorem obey_owned
    (owned : bench.supervisor.registry.OwnedWithin allowed)
    (command : Command) :
    (obey bench command).supervisor.registry.OwnedWithin allowed := by
  cases command with
  | raise event => exact owned
  | send recipient event => exact send_owned event owned recipient

theorem perform_owned
    {owner : StateId} {action : Action ActorLogic}
    (permitted : action.spawns = true → allowed owner)
    (owned : bench.supervisor.registry.OwnedWithin allowed) :
    Ends (engine.perform event owner action) bench
      (fun _ after => after.supervisor.registry.OwnedWithin allowed) (fun _ _ => True) := by
  cases action with
  | assign name update =>
      simp only [perform, ends_bind, ends_get]
      split
      · exact owned
      · trivial
  | raise make delay id =>
      simp only [perform, ends_bind, ends_get]
      split
      · exact schedule_owned engine owned id _ _
      · exact owned
  | send recipient make delay id =>
      simp only [perform, ends_bind, ends_get]
      split
      · exact schedule_owned engine owned id _ _
      · exact send_owned _ owned recipient
  | cancel id => exact Supervisor.ownedWithin_cancelTimer engine.nursery owned id
  | log label text => exact owned
  | spawn id logic input =>
      simp only [perform, ends_bind, ends_get]
      refine spawn_owned engine (nameOr_owned owned id _) ?_
      rintro _ ⟨⟩
      exact permitted rfl
  | stopChild id => exact Supervisor.ownedWithin_dismiss engine.nursery owned _ id
  | effect name run =>
      simp only [perform, ends_bind, ends_get, ends_modify]
      generalize run bench.state.context event = report
      have noted : (report.notes.foldl (fun bench note => bench.reveal (.effect note))
          bench).supervisor.registry.OwnedWithin allowed := by
        refine foldl_owned ?_ report.notes owned
        exact fun _ _ owned => owned
      split
      · trivial
      · exact foldl_owned (fun bench command owned => obey_owned owned command) _ noted

theorem performAll_owned
    {owner : StateId} {actions : List (Action ActorLogic)}
    (permitted : actions.any Action.spawns = true → allowed owner)
    (owned : bench.supervisor.registry.OwnedWithin allowed) :
    Ends (engine.performAll event owner actions) bench
      (fun _ after => after.supervisor.registry.OwnedWithin allowed) (fun _ _ => True) := by
  induction actions generalizing bench with
  | nil => exact owned
  | cons action actions ih =>
      simp only [performAll, ends_bind]
      refine (perform_owned engine event (fun spawns => permitted (by simp [spawns]))
        owned).mono ?_ (fun _ _ _ => trivial)
      exact fun _ middle stillOwned =>
        ih (fun spawns => permitted (by simp [spawns])) stillOwned

/-- Leaving a state stops the actors that end with it, those that its exit actions have
just started among them. -/
theorem leave_owned
    {state : StateId}
    (permitted : (engine.machine.conduct state).exit.any Action.spawns = true →
      allowed (engine.machine.exitOwner state))
    (balanced : bench.supervisor.registry.Balanced)
    (owned : bench.supervisor.registry.OwnedWithin allowed) :
    Ends (engine.leave event state) bench
      (fun _ after => after.supervisor.registry.Balanced ∧
        after.supervisor.registry.OwnedWithin fun other => allowed other ∧ other ≠ state)
      (fun _ _ => True) := by
  have stops : Ends (engine.leave event state) bench
      (fun _ after => after.supervisor.registry.OwnedWithin
        fun other => allowed other ∧ other ≠ state) (fun _ _ => True) := by
    simp only [leave, ends_bind, ends_modify]
    have worked := (performAll_dutiful engine event
      ((engine.machine.chart.parent? state).getD state)
      (engine.machine.conduct state).exit).diligent
      (bench.reveal (.exited (engine.machine.chart.id state)))
    refine (worked.and (performAll_owned engine event permitted owned)).mono ?_
      (fun _ _ _ => trivial)
    rintro _ middle ⟨works, stillOwned⟩
    have proceeds : Supervisor.Works engine.facilities engine.nursery bench.supervisor
        middle.supervisor := .head (.reveal bench.supervisor _) works
    exact Supervisor.ownedWithin_stopOwnedBy engine.nursery
      (proceeds.proceeds.balanced balanced) stillOwned state
  refine (((leave_dutiful engine event state).diligent bench).and stops).mono ?_
    (fun _ _ _ => trivial)
  rintro _ after ⟨works, stopped⟩
  have proceeds : Supervisor.Works engine.facilities engine.nursery bench.supervisor
      after.supervisor := works
  exact ⟨proceeds.proceeds.balanced balanced, stopped⟩

theorem leaveAll_owned
    (formed : engine.machine.WellFormed)
    {states : List StateId}
    (descending : states.Pairwise (· > ·))
    (permitted : ∀ state ∈ states,
      (engine.machine.conduct state).exit.any Action.spawns = true →
        allowed (engine.machine.exitOwner state))
    (balanced : bench.supervisor.registry.Balanced)
    (owned : bench.supervisor.registry.OwnedWithin allowed) :
    Ends (engine.leaveAll event states) bench
      (fun _ after => after.supervisor.registry.OwnedWithin
        fun other => allowed other ∧ other ∉ states)
      (fun _ _ => True) := by
  induction states generalizing allowed bench with
  | nil => exact owned.mono fun state isAllowed => ⟨isAllowed, List.not_mem_nil⟩
  | cons first rest ih =>
      obtain ⟨above, restDescending⟩ := List.pairwise_cons.mp descending
      simp only [leaveAll, ends_bind]
      refine (leave_owned engine event (permitted first List.mem_cons_self) balanced
        owned).mono ?_ (fun _ _ _ => trivial)
      rintro _ middle ⟨stillBalanced, stillOwned⟩
      have further : ∀ state ∈ rest,
          (engine.machine.conduct state).exit.any Action.spawns = true →
            allowed (engine.machine.exitOwner state) ∧
              engine.machine.exitOwner state ≠ first := by
        intro state member spawns
        refine ⟨permitted state (List.mem_cons_of_mem first member) spawns, ?_⟩
        have before : engine.machine.exitOwner state ≤ state := by
          unfold Machine.exitOwner
          cases below : engine.machine.chart.parent? state with
          | none => exact le_refl state
          | some parent => exact (formed.chart.parentBefore below).le
        exact (before.trans_lt (above state member)).ne
      refine (ih restDescending further stillBalanced stillOwned).mono ?_ (fun _ _ _ => trivial)
      intro _ after ownedAfter
      refine ownedAfter.mono ?_
      rintro state ⟨⟨isAllowed, different⟩, kept⟩
      exact ⟨isAllowed, by simp [different, kept]⟩

theorem takeAll_owned
    {history : HistoryRecords} {chosen : List (Choice ActorLogic)}
    (remembers : bench.state.history = history)
    (permitted : ∀ choice ∈ chosen, choice.candidate.actions.any Action.spawns = true →
      allowed (engine.machine.chart.domain history choice.move))
    (owned : bench.supervisor.registry.OwnedWithin allowed) :
    Ends (engine.takeAll event chosen) bench
      (fun _ after => after.supervisor.registry.OwnedWithin allowed) (fun _ _ => True) := by
  induction chosen generalizing bench with
  | nil => exact owned
  | cons choice chosen ih =>
      simp only [takeAll, ends_bind, ends_get]
      rw [remembers]
      refine ((performAll_kept engine event _ _ bench).and (performAll_owned engine event
        (permitted choice List.mem_cons_self) owned)).mono ?_ (fun _ _ _ => trivial)
      rintro _ middle ⟨kept, stillOwned⟩
      exact ih (kept.history.trans remembers)
        (fun other member => permitted other (List.mem_cons_of_mem choice member)) stillOwned

theorem invokeAll_owned
    {state : StateId}
    (isAllowed : allowed state)
    (owned : bench.supervisor.registry.OwnedWithin allowed) :
    (engine.invokeAll event state bench).supervisor.registry.OwnedWithin allowed :=
  foldl_owned (fun _ _ owned => spawn_owned engine owned (by rintro _ ⟨⟩; exact isAllowed)) _
    owned

theorem delayAll_owned
    {state : StateId}
    (isAllowed : allowed state)
    (owned : bench.supervisor.registry.OwnedWithin allowed) :
    (engine.delayAll state bench).supervisor.registry.OwnedWithin allowed :=
  foldl_owned (fun _ _ owned => spawn_owned engine owned (by rintro _ ⟨⟩; exact isAllowed)) _
    owned

theorem enter_owned
    {state : StateId} (announced : List StateId)
    (isAllowed : allowed state)
    (owned : bench.supervisor.registry.OwnedWithin allowed) :
    Ends (engine.enter event state announced) bench
      (fun _ after => after.supervisor.registry.OwnedWithin allowed) (fun _ _ => True) := by
  simp only [enter, ends_bind, ends_modify]
  have entered : ((bench.onState fun held =>
      { held with active := held.active.insert state }).reveal
        (.entered (engine.machine.chart.id state))).supervisor.registry.OwnedWithin allowed :=
    owned
  refine (performAll_owned engine event (fun _ => isAllowed) entered).mono ?_
    (fun _ _ _ => trivial)
  intro _ middle stillOwned
  have started := delayAll_owned engine isAllowed
    (invokeAll_owned engine event isAllowed stillOwned)
  split
  · exact started
  · exact started

theorem enterAll_owned
    {states : List StateId} (announced : List StateId)
    (areAllowed : ∀ state ∈ states, allowed state)
    (owned : bench.supervisor.registry.OwnedWithin allowed) :
    Ends (engine.enterAll event states announced) bench
      (fun _ after => after.supervisor.registry.OwnedWithin allowed) (fun _ _ => True) := by
  induction states generalizing announced bench with
  | nil => exact owned
  | cons state states ih =>
      simp only [enterAll, ends_bind]
      refine (enter_owned engine event announced (areAllowed state List.mem_cons_self)
        owned).mono ?_ (fun _ _ _ => trivial)
      exact fun announced middle stillOwned =>
        ih announced (fun other member => areAllowed other (List.mem_cons_of_mem state member))
          stillOwned

theorem microstep_owned
    (formed : engine.machine.WellFormed)
    {chosen : List (Choice ActorLogic)} {entries : StateSet}
    (planned : engine.machine.chart.entries?
      (engine.machine.chart.recordedBy bench.state.active bench.state.history
        (chosen.map Choice.move))
      (chosen.map Choice.move) = some entries)
    (tidy : engine.machine.Tidy bench.state.active bench.state.history chosen entries)
    (balanced : bench.supervisor.registry.Balanced)
    (owned : bench.supervisor.registry.OwnedWithin (· ∈ bench.state.active)) :
    Ends (engine.microstep event chosen) bench
      (fun _ after => after.supervisor.registry.OwnedWithin (· ∈ after.state.active))
      (fun _ _ => True) := by
  let moves := chosen.map Choice.move
  let exits := engine.machine.chart.exits bench.state.active bench.state.history moves
  let after := engine.machine.chart.succeeding bench.state.active bench.state.history moves
    entries
  let begun := bench.onState fun state =>
    { state with
      history := engine.machine.chart.recordedBy bench.state.active bench.state.history moves }
  -- While states are left, an actor may end with one that is yet to be left.
  have ownedAtFirst : begun.supervisor.registry.OwnedWithin
      fun state => state ∈ exits ∨ state ∈ after := by
    refine owned.mono fun state isActive => ?_
    by_cases left : state ∈ exits
    · exact .inl left
    · exact .inr (Chart.mem_succeeding.mpr
        (.inr (StateSet.mem_removeAll.mpr ⟨isActive, left⟩)))
  have leaves := play_ends engine event (exits.flatMap engine.machine.leaveScript) [] begun
  rw [play_leaveScripts, ends_bind] at leaves
  have carried : Ends (engine.microstep event chosen) bench
      (fun _ last => last.supervisor.registry.OwnedWithin (· ∈ after)) (fun _ _ => True) := by
    unfold microstep
    simp only [ends_bind, ends_get, ends_modify]
    refine (leaves.and (leaveAll_owned engine event formed
      (Chart.exits_descending _ _ _ moves) tidy.exits balanced ownedAtFirst)).mono ?_
      (fun _ _ _ => trivial)
    rintro _ left ⟨played, ownedOnceLeft⟩
    have ownedAfter : left.supervisor.registry.OwnedWithin (· ∈ after) :=
      ownedOnceLeft.mono fun state kept => kept.1.resolve_left kept.2
    refine (takeAll_owned engine event played.history tidy.takes ownedAfter).mono ?_
      (fun _ _ _ => trivial)
    intro _ taken stillOwned
    have same : engine.machine.chart.entries?
        (engine.machine.chart.recordHistory bench.state.active bench.state.history
          (engine.machine.chart.exits bench.state.active bench.state.history
            (chosen.map Choice.move)))
        (chosen.map Choice.move) = some entries := planned
    rw [same]
    exact enterAll_owned engine event []
      (fun state entered => Chart.mem_succeeding.mpr (.inl entered)) stillOwned
  refine ((microstep_ends engine event planned).and carried).mono ?_ (fun _ _ _ => trivial)
  rintro _ last ⟨⟨active, _, _⟩, stillOwned⟩
  rw [active]
  exact stillOwned

end Engine

end Statechart
