import Statechart.Proofs.FaithfulCheckpoints
import Statechart.Proofs.Isolation

/-!
# Where a machine can be restarted

A checkpoint is accepted if its active states are a valid configuration and its records are
for history states; what a record holds may be any states.  Steps only ever record states
that lie below the parent of the history state and can be active, so whatever starts with
such records keeps them, and planning a step from them ends.  From other records planning
ends exactly for the targets that settle.
-/

namespace Statechart

/-- What a step can be foretold from: a valid configuration with sound records is tenable. -/
theorem Chart.Valid.tenable
    {chart : Chart} {active : Configuration} {records : HistoryRecords}
    (valid : chart.Valid active)
    (ordered : active.Ordered)
    (sound : chart.Sound records) :
    chart.Tenable active records :=
  ⟨valid.inRange, valid.ordinary, ordered, sound⟩

section Resolving

variable {L : Type} {machine : Machine L} {active : Configuration} {history : HistoryRecords}
variable {context : Json} {event : Event}

/-- Foretelling a step does not end exactly if a selected transition has a target that does
not settle. -/
theorem Machine.resolve_endless_iff_unsettled
    (formed : machine.chart.WellFormed) :
    machine.resolve active history context event = .error .endlessEntry ↔
      ∃ selection, machine.select .event active history context event = .ok selection ∧
        ∃ choice ∈ selection.chosen, ∃ target ∈ choice.move.targets,
          ¬ machine.chart.Settles
            (machine.chart.recordedBy active history (selection.chosen.map Choice.move))
            target := by
  simp only [Machine.resolve_endless_iff, Chart.entries_eq_none_iff formed, List.mem_map,
    exists_exists_and_eq_and]

/-- From sound records only a guard keeps a step from being foretold, and what it records is
sound. -/
theorem Machine.resolve_of_sound
    (formed : machine.chart.WellFormed)
    (ordinary : ∀ state ∈ active, machine.chart.isHistory state = false)
    (sound : machine.chart.Sound history) :
    (∃ reason, machine.resolve active history context event = .error (.guard reason)) ∨
      ∃ resolution, machine.resolve active history context event = .ok resolution ∧
        machine.chart.Sound resolution.history := by
  cases selected : machine.select .event active history context event with
  | error reason => exact .inl ⟨reason, Machine.resolve_guard_iff.mpr selected⟩
  | ok selection =>
      obtain ⟨entries, _, resolved⟩ := Machine.resolve_of_select formed ordinary sound selected
      exact .inr ⟨_, resolved, Chart.recordedBy_sound formed ordinary sound _⟩

end Resolving

namespace MachineSpec

variable {spec : MachineSpec ActorLogic} {machine : Machine ActorLogic}

/-- A checkpoint that is accepted has a valid configuration and records for history states;
if no id begins with the mark, there is one for each such configuration with such records.
From what is accepted, foretelling a step does not end exactly if a selected transition has
a target that does not settle; with sound records it ends, and records what is sound.  And
the records are sound at every moment of every run of an interpreter that is new, or that is
restored from a checkpoint with sound records. -/
theorem restart_points_safe_iff
    (built : spec.build = .ok machine)
    (ordinaryRoot : spec.HasOrdinaryRoot) :
    (∀ (checkpoint : Checkpoint) (active : Configuration) (history : HistoryRecords),
      checkpoint.resolve machine.chart = .ok (active, history) →
        machine.chart.Valid active ∧ active.Ordered ∧ machine.chart.Keeps history ∧
        ∀ (context : Json) (event : Event),
          (machine.resolve active history context event = .error .endlessEntry ↔
            ∃ selection, machine.select .event active history context event = .ok selection ∧
              ∃ choice ∈ selection.chosen, ∃ target ∈ choice.move.targets,
                ¬ machine.chart.Settles
                  (machine.chart.recordedBy active history (selection.chosen.map Choice.move))
                  target) ∧
          (machine.chart.Sound history →
            (∃ reason,
              machine.resolve active history context event = .error (.guard reason)) ∨
            ∃ resolution, machine.resolve active history context event = .ok resolution ∧
              machine.chart.Sound resolution.history)) ∧
    (spec.NamesUnmarked → ∀ (active : Configuration) (history : HistoryRecords),
      machine.chart.Valid active → active.Ordered → machine.chart.Keeps history →
        ∃ checkpoint : Checkpoint, checkpoint.resolve machine.chart = .ok (active, history)) ∧
    ∀ (facilities : Facilities) (settings : Settings) (start : Interpreter)
        (operations : List Operation),
      (start = Interpreter.create machine settings ∨
        ∃ checkpoint active history,
          checkpoint.resolve machine.chart = .ok (active, history) ∧
          machine.chart.Sound history ∧
          Interpreter.restore machine checkpoint settings = .ok start) →
      machine.chart.Sound
        ((World.around facilities start).run operations).interpreter.snapshot.history := by
  have formed := build_machine_wellFormed built ordinaryRoot
  have accepted : ∀ {checkpoint : Checkpoint} {active : Configuration}
      {history : HistoryRecords}, checkpoint.resolve machine.chart = .ok (active, history) →
        machine.chart.Valid active ∧ active.Ordered := by
    intro checkpoint active history resolved
    obtain ⟨ordered, valid⟩ :=
      Chart.resolveConfiguration_eq_ok (Checkpoint.resolve_eq_ok resolved).1
    exact ⟨(Chart.check_eq_none_iff formed.chart).mp valid, ordered⟩
  refine ⟨?_, ?_, ?_⟩
  · intro checkpoint active history resolved
    obtain ⟨valid, ordered⟩ := accepted resolved
    refine ⟨valid, ordered, resolve_keeps built ordinaryRoot resolved, ?_⟩
    intro context event
    exact ⟨Machine.resolve_endless_iff_unsettled formed.chart,
      Machine.resolve_of_sound formed.chart valid.ordinary⟩
  · intro unmarked active history valid ordered keeps
    let snapshot : Snapshot :=
      { active, context := .null, history, status := .running, output := none
        lastEvent := none, failure := none }
    have named := build_wellNamed built
    have readBack : machine.chart.ReadsBack active history :=
      Chart.readsBack_of_reading
        (fun state within => Chart.reading_of_unmarked named within (unmarked.id built within))
        valid.inRange keeps
    exact ⟨Checkpoint.capture machine.chart snapshot ⟨1⟩ ⟨0, 0⟩,
      (Checkpoint.resolve_capture_iff _ _ named ordered
        ((Chart.check_eq_none_iff formed.chart).mpr valid) keeps).mpr readBack⟩
  · intro facilities settings start operations begun
    have becomes := World.becomes_run operations (World.around facilities start)
    have recollects : start.Recollects machine machine.chart.Tenable := by
      rcases begun with rfl | ⟨checkpoint, active, history, resolved, sound, restored⟩
      · have nothing : machine.chart.Tenable [] HistoryRecords.empty :=
          ⟨by simp, by simp, StateSet.ordered_nil, Chart.sound_empty machine.chart⟩
        exact ⟨rfl, nothing, nothing⟩
      · refine Interpreter.restore_recollects restored ?_
        intro _ _ again
        obtain ⟨rfl, rfl⟩ := Prod.mk.inj (Except.ok.inj (resolved.symm.trans again))
        obtain ⟨valid, ordered⟩ := accepted resolved
        exact valid.tenable ordered sound
    exact (becomes.recollects (Machine.maintains_tenable formed) recollects).shown.sound

/-- The bookshelf as it is written down at the table, with this remembered of the shelf. -/
def shelved (remembered : List String) : Checkpoint :=
  { version := 1
    id := ⟨1⟩
    machineId := "m"
    createdAt := ⟨0, 0⟩
    configuration := ["m", "m.table"]
    context := .null
    history := [("m.shelf.open", remembered)]
    status := .running
    output := none }

theorem restore_shelved :
    let machine : Machine ActorLogic := bookshelf.machine fun _ => .null
    Interpreter.restore machine (shelved ["m.shelf.open"]) {} =
      .ok (Interpreter.restoredTo machine {}
        { active := [0, 5], context := .null, history := [(4, [4])] }) := by
  intro machine
  have resolved : (shelved ["m.shelf.open"]).resolve machine.chart =
      .ok ([0, 5], [(4, [4])]) := by decide +kernel
  unfold Interpreter.restore
  rw [resolved]
  rfl

/-- With the second book remembered, going back is foretold, and what is remembered stays
sound. -/
theorem restart_point_safe_bookshelf :
    let machine : Machine ActorLogic := bookshelf.machine fun _ => .null
    (shelved ["m.shelf.second"]).resolve machine.chart = .ok ([0, 5], [(4, [3])]) ∧
      ∃ foretold,
        machine.resolve [0, 5] [(4, [3])] .null (Event.named "RETURN") = .ok foretold ∧
        machine.chart.Sound foretold.history := by
  intro machine
  have built : bookshelf.build = .ok machine := build_of_faultless (by decide +kernel) rfl
  have resolved : (shelved ["m.shelf.second"]).resolve machine.chart =
      .ok ([0, 5], [(4, [3])]) := by decide +kernel
  have sound : machine.chart.Sound [(4, [3])] := by
    refine Chart.sound_of_entries (List.forall_mem_singleton.mpr
      (List.forall_mem_singleton.mpr ⟨by decide +kernel, ?_⟩))
    have below : machine.chart.parent? 4 = some 1 := by decide +kernel
    intro parent above
    obtain rfl := Option.some.inj (below.symm.trans above)
    decide +kernel
  have foretells : (machine.resolve [0, 5] [(4, [3])] .null
      (Event.named "RETURN")).isOk = true := by decide +kernel
  obtain ⟨safe, _, _⟩ := restart_points_safe_iff built (.inl rfl)
  obtain ⟨_, _, _, ends⟩ := safe _ _ _ resolved
  refine ⟨resolved, ((ends .null (Event.named "RETURN")).2 sound).resolve_left ?_⟩
  rintro ⟨reason, failed⟩
  rw [failed] at foretells
  cases foretells

/-- A record may name the history state that it is for, and going back does not end. -/
theorem restart_point_not_safe_bookshelf :
    let machine : Machine ActorLogic := bookshelf.machine fun _ => .null
    bookshelf.build = .ok machine ∧
      (shelved ["m.shelf.open"]).resolve machine.chart = .ok ([0, 5], [(4, [4])]) ∧
      machine.chart.isHistory 4 = true ∧
      machine.resolve [0, 5] [(4, [4])] .null (Event.named "RETURN") =
        .error .endlessEntry := by
  intro machine
  refine ⟨build_of_faultless (by decide +kernel) rfl, by decide +kernel, by decide +kernel, ?_⟩
  have outcome : ((machine.resolve [0, 5] [(4, [4])] .null
      (Event.named "RETURN")).map fun _ => ()) = .error .endlessEntry := by decide +kernel
  cases resolved : machine.resolve [0, 5] [(4, [4])] .null (Event.named "RETURN") with
  | error error => simpa [resolved, Except.map] using outcome
  | ok foretold => simp [resolved, Except.map] at outcome

end MachineSpec

end Statechart
