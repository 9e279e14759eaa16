import Statechart.Proofs.RecordInvariants
import Statechart.Proofs.WorldCourses

/-!
# Faithful checkpoints

A checkpoint names states by their ids, and names are looked up as references are: a mark
that an id begins with is taken off.  So a checkpoint of a machine brings back just what was
active and just what was remembered if no id begins with the mark, and otherwise exactly if
the ids that it holds are still read as what they are the ids of.
-/

namespace Statechart

/-- The ids of active states and of what records hold are read, in some order, as these
states and as what the records hold. -/
structure Chart.ReadsBack (chart : Chart) (active : Configuration) (history : HistoryRecords) :
    Prop where
  active : (active.map chart.reading).Perm (active.map some)
  history : (history.map fun entry => (chart.reading entry.1, entry.2.map chart.reading)).Perm
    (history.map fun entry => (some entry.1, entry.2.map some))

section Capturing

variable {chart : Chart} {snapshot : Snapshot} {active : Configuration}
variable {history : HistoryRecords} (id : Uuid) (createdAt : Timestamp)

/-- Ids that are each read as that of the state that bears it are read back. -/
theorem Chart.readsBack_of_reading
    (reading : ∀ state < chart.size, chart.reading state = some state)
    (inRange : ∀ state ∈ active, state < chart.size)
    (keeps : chart.Keeps history) :
    chart.ReadsBack active history where
  active := .of_eq (List.map_congr_left fun state member => reading state (inRange state member))
  history := by
    refine .of_eq (List.map_congr_left fun entry member => Prod.ext ?_ ?_)
    · exact reading entry.1 (Chart.history_in_range (keeps.history entry member))
    · exact List.map_congr_left fun state isHeld =>
        reading state (keeps.inRange entry member state isHeld)

theorem Checkpoint.resolve_capture :
    (Checkpoint.capture chart snapshot id createdAt).resolve chart =
      match chart.resolveConfiguration (chart.ids snapshot.active) with
      | .error error => .error error
      | .ok active =>
          match chart.resolveHistory (Table.ofList (snapshot.history.map
            fun (history, states) => (chart.id history, chart.ids states)))
            HistoryRecords.empty with
          | .error error => .error error
          | .ok history => .ok (active, history) := by
  unfold resolve
  rw [if_neg (fun differs => differs rfl), if_neg (fun differs => differs rfl)]
  rfl

/-- What is captured is resolved to what it was exactly if the ids are read back. -/
theorem Checkpoint.resolve_capture_iff
    (named : chart.WellNamed)
    (ordered : snapshot.active.Ordered)
    (valid : chart.check snapshot.active = none)
    (keeps : chart.Keeps snapshot.history) :
    (Checkpoint.capture chart snapshot id createdAt).resolve chart =
        .ok (snapshot.active, snapshot.history) ↔
      chart.ReadsBack snapshot.active snapshot.history := by
  have configured := Chart.resolveConfiguration_ids_iff ordered valid
  have recorded := keeps.resolveHistory_iff named
  rw [resolve_capture]
  constructor
  · intro resolved
    split at resolved
    · cases resolved
    · rename_i active resolvedActive
      split at resolved
      · cases resolved
      · rename_i history resolvedHistory
        obtain ⟨rfl, rfl⟩ := Prod.mk.inj (Except.ok.inj resolved)
        exact ⟨configured.mp resolvedActive, recorded.mp resolvedHistory⟩
  · rintro ⟨active, history⟩
    rw [configured.mpr active]
    dsimp only
    rw [recorded.mpr history]

/-- The first active state whose id is not found at all is what a checkpoint fails at. -/
theorem Checkpoint.resolve_capture_unknown
    {found missing : List StateId} {state : StateId}
    (active : snapshot.active = found ++ state :: missing)
    (known : ∀ state ∈ found, (chart.reading state).isSome = true)
    (unknown : chart.reading state = none) :
    (Checkpoint.capture chart snapshot id createdAt).resolve chart =
      .error (.unknownState (chart.id state)) := by
  have stopped : chart.lookUpAll (chart.ids snapshot.active) =
      .error (.unknownState (chart.id state)) := by
    rw [active, Chart.ids, List.map_append, List.map_cons]
    exact Chart.lookUpAll_unknown (List.forall_mem_map.mpr known) unknown
  rw [resolve_capture, Chart.resolveConfiguration, stopped]

end Capturing

/-- A checkpoint is accepted for the configuration and the records that it names. -/
theorem Checkpoint.resolve_eq_ok
    {checkpoint : Checkpoint} {chart : Chart} {active : Configuration}
    {history : HistoryRecords}
    (resolved : checkpoint.resolve chart = .ok (active, history)) :
    chart.resolveConfiguration checkpoint.configuration = .ok active ∧
      chart.resolveHistory checkpoint.history HistoryRecords.empty = .ok history := by
  unfold resolve at resolved
  split at resolved
  · cases resolved
  · split at resolved
    · cases resolved
    · split at resolved
      · cases resolved
      · rename_i active configured
        split at resolved
        · cases resolved
        · rename_i history recorded
          obtain ⟨rfl, rfl⟩ := Prod.mk.inj (Except.ok.inj resolved)
          exact ⟨configured, recorded⟩

/-- The configuration that is accepted is a valid one. -/
theorem Chart.resolveConfiguration_eq_ok
    {chart : Chart} {references : List String} {active : Configuration}
    (resolved : chart.resolveConfiguration references = .ok active) :
    active.Ordered ∧ chart.check active = none := by
  unfold resolveConfiguration at resolved
  split at resolved
  · cases resolved
  · rename_i states _
    split at resolved
    · cases resolved
    · rename_i valid
      obtain rfl := Except.ok.inj resolved
      exact ⟨StateSet.ordered_nil.insertAll states, valid⟩

namespace Interpreter

/-- The interpreter that is restored to a state of its machine. -/
def restoredTo (machine : Machine ActorLogic) (settings : Settings) (state : StepState) :
    Interpreter :=
  { create machine settings with
    state
    snapshot := Snapshot.ofState state .notStarted none
    restored := true }

theorem restore_eq_ok
    {machine : Machine ActorLogic} {checkpoint : Checkpoint} {settings : Settings}
    {interpreter : Interpreter}
    (restored : restore machine checkpoint settings = .ok interpreter) :
    ∃ active history, checkpoint.resolve machine.chart = .ok (active, history) ∧
      interpreter.machine = machine ∧
      interpreter.state.active = active ∧ interpreter.state.history = history ∧
      interpreter.snapshot.active = active ∧ interpreter.snapshot.history = history := by
  unfold restore at restored
  split at restored
  · cases restored
  · rename_i active history resolved
    obtain rfl := Except.ok.inj restored
    exact ⟨active, history, resolved, rfl, rfl, rfl, rfl, rfl⟩

/-- What holds of what is accepted holds of all that a restored interpreter keeps and
shows. -/
theorem restore_recollects
    {machine : Machine ActorLogic} {checkpoint : Checkpoint} {settings : Settings}
    {interpreter : Interpreter} {holds : Configuration → HistoryRecords → Prop}
    (restored : restore machine checkpoint settings = .ok interpreter)
    (accepted : ∀ active history,
      checkpoint.resolve machine.chart = .ok (active, history) → holds active history) :
    interpreter.Recollects machine holds := by
  obtain ⟨active, history, resolved, runs, keptActive, keptHistory, shownActive, shownHistory⟩ :=
    restore_eq_ok restored
  have accepted := accepted active history resolved
  refine ⟨runs, ?_, ?_⟩
  · rwa [keptActive, keptHistory]
  · rwa [shownActive, shownHistory]

end Interpreter

namespace MachineSpec

variable {spec : MachineSpec ActorLogic} {machine : Machine ActorLogic}

theorem resolve_keeps
    (built : spec.build = .ok machine)
    (ordinaryRoot : spec.HasOrdinaryRoot)
    {checkpoint : Checkpoint} {active : Configuration} {history : HistoryRecords}
    (resolved : checkpoint.resolve machine.chart = .ok (active, history)) :
    machine.chart.Keeps history :=
  Chart.resolveHistory_keeps
    (Chart.find?_in_range (build_wellFormed built ordinaryRoot) (build_indexed built))
    (Chart.keeps_empty _) (Checkpoint.resolve_eq_ok resolved).2

/-- A checkpoint of a valid configuration and of records that fit is resolved, on the machine
that it was made on, to just these exactly if the ids in it are read back; it fails if the id
of an active state is not found.  All ids are read back if neither the machine nor any state
is given an id that begins with the mark.  And the records that an interpreter shows, new or
restored, fit at every moment of every run. -/
theorem checkpoints_faithful_iff
    (built : spec.build = .ok machine)
    (ordinaryRoot : spec.HasOrdinaryRoot) :
    (∀ (snapshot : Snapshot) (id : Uuid) (createdAt : Timestamp),
      snapshot.active.Ordered → machine.chart.check snapshot.active = none →
      machine.chart.Keeps snapshot.history →
        ((Checkpoint.capture machine.chart snapshot id createdAt).resolve machine.chart =
            .ok (snapshot.active, snapshot.history) ↔
          machine.chart.ReadsBack snapshot.active snapshot.history)) ∧
    (∀ (snapshot : Snapshot) (id : Uuid) (createdAt : Timestamp)
        (found missing : List StateId) (state : StateId),
      snapshot.active = found ++ state :: missing →
      (∀ known ∈ found, (machine.chart.reading known).isSome = true) →
      machine.chart.reading state = none →
        (Checkpoint.capture machine.chart snapshot id createdAt).resolve machine.chart =
          .error (.unknownState (machine.chart.id state))) ∧
    (spec.NamesUnmarked → ∀ (active : Configuration) (history : HistoryRecords),
      machine.chart.check active = none → machine.chart.Keeps history →
        machine.chart.ReadsBack active history) ∧
    (∀ (facilities : Facilities) (settings : Settings) (start : Interpreter)
        (operations : List Operation),
      (start = Interpreter.create machine settings ∨
        ∃ checkpoint, Interpreter.restore machine checkpoint settings = .ok start) →
      machine.chart.Keeps
        ((World.around facilities start).run operations).interpreter.snapshot.history) := by
  have named := build_wellNamed built
  refine ⟨?_, ?_, ?_, ?_⟩
  · intro snapshot id createdAt ordered valid keeps
    exact Checkpoint.resolve_capture_iff id createdAt named ordered valid keeps
  · intro snapshot id createdAt found missing state active known unknown
    exact Checkpoint.resolve_capture_unknown id createdAt active known unknown
  · intro unmarked active history valid keeps
    have inRange := ((Chart.check_eq_none_iff (build_wellFormed built ordinaryRoot)).mp
      valid).inRange
    exact Chart.readsBack_of_reading
      (fun state within => Chart.reading_of_unmarked named within (unmarked.id built within))
      inRange keeps
  · intro facilities settings start operations begun
    have becomes := World.becomes_run operations (World.around facilities start)
    have recollects : start.Recollects machine fun _ history => machine.chart.Keeps history := by
      rcases begun with rfl | ⟨checkpoint, restored⟩
      · exact ⟨rfl, Chart.keeps_empty _, Chart.keeps_empty _⟩
      · exact Interpreter.restore_recollects restored fun _ _ resolved =>
          resolve_keeps built ordinaryRoot resolved
    exact (becomes.recollects machine.maintains_keeps recollects).shown

/-- A shelf that is left for the table and remembers which book was open. -/
def bookshelf : MachineSpec ActorLogic :=
  { root := .mk { key := "m" }
      [.mk { key := "shelf", transitions := [(.on "LEAVE", .toTarget "table")] }
          [.mk { key := "first", transitions := [(.on "NEXT", .toTarget "second")] } [],
           .mk { key := "second" } [],
           .mk { key := "open", kind := .history .shallow } []],
       .mk { key := "table", transitions := [(.on "RETURN", .toTarget "#m.shelf.open")] } []]
    context := some fun _ => .null }

/-- The open book is written down with the table and both are read again. -/
theorem checkpoints_faithful_bookshelf :
    let machine : Machine ActorLogic := bookshelf.machine fun _ => .null
    let start := Interpreter.create machine {}
    let world := (World.around ⟨false, true, 1000⟩ start).run
      [.start, .send (Event.named "NEXT"), .send (Event.named "LEAVE")]
    let snapshot := world.interpreter.snapshot
    snapshot.active = [0, 5] ∧ snapshot.history = [(4, [3])] ∧
      (Checkpoint.capture machine.chart snapshot ⟨1⟩ ⟨0, 0⟩).resolve machine.chart =
        .ok (snapshot.active, snapshot.history) := by
  intro machine start world snapshot
  have built : bookshelf.build = .ok machine := build_of_faultless (by decide +kernel) rfl
  have unmarked : bookshelf.NamesUnmarked := ⟨by decide +kernel, by decide +kernel⟩
  have valid : machine.chart.check snapshot.active = none := by decide +kernel
  have ordered : snapshot.active.Ordered := by
    have active : snapshot.active = [0, 5] := by decide +kernel
    rw [active]
    simp [StateSet.Ordered]
  obtain ⟨exactly, _, readBack, runs⟩ := checkpoints_faithful_iff built (.inl rfl)
  have keeps : machine.chart.Keeps snapshot.history :=
    runs ⟨false, true, 1000⟩ {} start _ (.inl rfl)
  exact ⟨by decide +kernel, by decide +kernel,
    (exactly snapshot _ _ ordered valid keeps).mpr (readBack unmarked _ _ valid keeps)⟩

/-- A state that is given an id that begins with the mark. -/
def tagged : MachineSpec L :=
  { root := .mk { key := "m" } [.mk { key := "a", id := some "#a" } []]
    context := some fun _ => .null }

/-- The id that the checkpoint holds is looked up without its mark, and nothing is found. -/
theorem checkpoint_not_faithful_tagged :
    let machine : Machine ActorLogic := tagged.machine fun _ => .null
    let world := (World.around ⟨false, true, 1000⟩ (Interpreter.create machine {})).run
      [.start]
    let snapshot := world.interpreter.snapshot
    tagged.build = .ok machine ∧ machine.chart.check snapshot.active = none ∧
      snapshot.active = [0, 1] ∧ snapshot.history = [] ∧
      (Checkpoint.capture machine.chart snapshot ⟨1⟩ ⟨0, 0⟩).resolve machine.chart =
        .error (.unknownState "#a") :=
  ⟨build_of_faultless (by decide +kernel) rfl, by decide +kernel, by decide +kernel,
    by decide +kernel, by decide +kernel⟩

end MachineSpec

end Statechart
