import Statechart.Proofs.Chronicle
import Statechart.Proofs.Isolation
import Statechart.Proofs.Restoring

/-!
# History restores what was left

Along a run of steps each history state remembers how its parent was when it was last
left, and no step in between touches that record, whatever else it records.  A transition
that leads to nothing but a history state therefore makes active again below its parent
what was active there, or, for shallow history, the children that were, as they are by
default.
-/

namespace Statechart

namespace Machine

variable {L : Type} {machine : Machine L}

/-- Steps on events, each taken from where the one before it has led, the latest first,
each with the states that were active before it; they start from a valid configuration and
without records, and lead to these active states and records. -/
inductive Trail (machine : Machine L) :
    List (Configuration × Resolution L) → Configuration → HistoryRecords → Prop where
  | start {active : Configuration} :
      machine.chart.check active = none → Trail machine [] active HistoryRecords.empty
  | step {steps : List (Configuration × Resolution L)} {active : Configuration}
      {history : HistoryRecords} {context : Json} {event : Event}
      {resolution : Resolution L} :
      Trail machine steps active history →
      machine.resolve active history context event = .ok resolution →
      Trail machine ((active, resolution) :: steps) resolution.active resolution.history

/-- What was active before the latest step that left the state. -/
def lastLeft? (steps : List (Configuration × Resolution L)) (state : StateId) :
    Option Configuration :=
  (steps.find? fun step => step.2.exits.contains state).map Prod.fst

variable {steps : List (Configuration × Resolution L)}
variable {active left : Configuration} {history : HistoryRecords}

theorem Trail.sound
    (formed : machine.chart.WellFormed)
    (trail : machine.Trail steps active history) :
    (∀ state ∈ active, machine.chart.isHistory state = false) ∧
      machine.chart.Sound history := by
  induction trail with
  | start valid =>
      exact ⟨((Chart.check_eq_none_iff formed).mp valid).ordinary,
        Chart.sound_empty machine.chart⟩
  | @step _ active history _ _ _ _ resolved ih =>
      obtain ⟨ordinary, sound⟩ := ih
      obtain ⟨selection, entries, _, planned, rfl⟩ := resolve_ok_iff.mp resolved
      have recordedSound := Chart.recordedBy_sound formed ordinary sound
        (selection.chosen.map Choice.move)
      refine ⟨?_, recordedSound⟩
      intro state member
      rcases Chart.mem_succeeding.mp member with entered | stays
      · exact (Chart.entries_planned formed recordedSound planned).ordinary state entered
      · exact ordinary state (Chart.mem_staying.mp stays).1

/-- A history state remembers its parent as it was when it was last left, if it ever was. -/
theorem Trail.memory?_eq
    (formed : machine.chart.WellFormed)
    (trail : machine.Trail steps active history)
    {memory parent : StateId} {kind : HistoryKind} {defaults : List StateId}
    (isKind : machine.chart.kind memory = .history kind defaults)
    (above : machine.chart.parent? memory = some parent) :
    history.memory? memory =
      (lastLeft? steps parent).map fun left => machine.chart.remembered left parent kind := by
  induction trail with
  | start _ => rfl
  | @step steps active history _ _ _ _ resolved ih =>
      obtain ⟨selection, entries, _, _, rfl⟩ := resolve_ok_iff.mp resolved
      have recorded : (machine.foretold active history selection entries).history =
          machine.chart.recordHistory active history
            (machine.foretold active history selection entries).exits := rfl
      rw [recorded, Chart.recordHistory_memory? formed isKind above, ih]
      by_cases isLeft : parent ∈ (machine.foretold active history selection entries).exits <;>
        simp [lastLeft?, isLeft]

theorem Trail.active_of_lastLeft
    (trail : machine.Trail steps active history)
    {state : StateId}
    (lastLeft : lastLeft? steps state = some left) :
    state ∈ left := by
  induction trail with
  | start _ => simp [lastLeft?] at lastLeft
  | @step steps active history _ _ _ _ resolved ih =>
      obtain ⟨selection, entries, _, _, rfl⟩ := resolve_ok_iff.mp resolved
      by_cases isLeft : state ∈ (machine.foretold active history selection entries).exits
      · obtain rfl : active = left := by simpa [lastLeft?, isLeft] using lastLeft
        exact (Chart.mem_exits.mp isLeft).1
      · exact ih (by simpa [lastLeft?, isLeft] using lastLeft)

theorem Trail.follow
    (trail : machine.Trail steps active history)
    {context : Json} {event : Event} {exits : List StateId} {after : Configuration}
    {records : HistoryRecords}
    (comesTo : (machine.resolve active history context event).map (fun resolution =>
      (resolution.exits, resolution.active, resolution.history)) =
        .ok (exits, after, records)) :
    ∃ resolution, resolution.exits = exits ∧
      machine.Trail ((active, resolution) :: steps) after records := by
  cases resolved : machine.resolve active history context event with
  | error reason => simp [resolved, Except.map] at comesTo
  | ok resolution =>
      obtain ⟨rfl, rfl, rfl⟩ : resolution.exits = exits ∧ resolution.active = after ∧
          resolution.history = records := by
        simpa [resolved, Except.map] using comesTo
      exact ⟨resolution, rfl, trail.step resolved⟩

theorem select_of_targets
    {context : Json} {event : Event} {targets : List StateId}
    (chosen : (machine.select .event active history context event).map (fun selection =>
      selection.chosen.map fun choice => choice.candidate.targets) = .ok [targets]) :
    ∃ selection choice, machine.select .event active history context event = .ok selection ∧
      selection.chosen = [choice] ∧ choice.candidate.targets = targets := by
  cases selected : machine.select .event active history context event with
  | error reason => simp [selected, Except.map] at chosen
  | ok selection =>
      simp only [selected, Except.map, Except.ok.injEq] at chosen
      obtain ⟨choice, only, isTargets⟩ := List.map_eq_singleton_iff.mp chosen
      exact ⟨selection, choice, rfl, only, isTargets⟩

end Machine

namespace MachineSpec

variable {L : Type} {spec : MachineSpec L} {machine : Machine L}

/-- History restores what was left.  In a built machine whose parallel states all have a
region, take any run of steps from a valid configuration without records, and a state with
a history state directly below it that was last left by a step from a valid configuration.
When it is inactive in a valid configuration later, and the only transition selected leads
to just that history state, the step is foretold, and afterwards the states active in it
are those that were, if the history is deep, and if it is shallow the state itself and
those of its children that were active, with all that they bring by default. -/
theorem history_restores
    (built : spec.build = .ok machine)
    (ordinaryRoot : spec.HasOrdinaryRoot)
    (regioned : machine.chart.Regioned)
    {steps : List (Configuration × Resolution L)} {active : Configuration}
    {history : HistoryRecords}
    (trail : machine.Trail steps active history)
    {memory parent : StateId} {kind : HistoryKind} {defaults : List StateId}
    (isKind : machine.chart.kind memory = .history kind defaults)
    (above : machine.chart.parent? memory = some parent)
    {left : Configuration}
    (lastLeft : Machine.lastLeft? steps parent = some left)
    (leftValid : machine.chart.check left = none)
    (valid : machine.chart.check active = none)
    (inactive : parent ∉ active)
    {context : Json} {event : Event} {selection : Selection L} {choice : Choice L}
    (selected : machine.select .event active history context event = .ok selection)
    (only : selection.chosen = [choice])
    (targets : choice.candidate.targets = [memory]) :
    ∃ resolution, machine.resolve active history context event = .ok resolution ∧
      ∀ state, machine.chart.Within state parent →
        (state ∈ resolution.active ↔ machine.chart.Restores left parent kind state) := by
  have formed := build_machine_wellFormed built ordinaryRoot
  have isValid := (Chart.check_eq_none_iff formed.chart).mp valid
  obtain ⟨ordinary, sound⟩ := trail.sound formed.chart
  have moves : selection.chosen.map Choice.move = [choice.move] := by simp [only]
  have fits := Machine.select_fits formed.chart formed.lead isValid selected choice.move
    (by simp [moves])
  obtain ⟨entries, planned⟩ := Chart.entries_end formed.chart
    (Chart.recordedBy_sound formed.chart ordinary sound [choice.move]) [choice.move]
  have recorded : history.memory? memory =
      some (machine.chart.remembered left parent kind) := by
    rw [trail.memory?_eq formed.chart isKind above, lastLeft, Option.map_some]
  refine ⟨machine.foretold active history selection entries,
    Machine.resolve_ok_iff.mpr ⟨selection, entries, selected, by rw [moves, planned], rfl⟩, ?_⟩
  intro state within
  have restores := Chart.succeeding_restores formed.chart isValid sound fits inactive regioned
    ((Chart.check_eq_none_iff formed.chart).mp leftValid) (trail.active_of_lastLeft lastLeft)
    isKind above recorded targets planned within
  rw [← moves] at restores
  exact restores

/-- A room with a window and a lamp that is gone back into as it was left, or only as a
room with a window and a lamp. -/
def room : MachineSpec L :=
  { root := .mk { key := "house" }
      [.mk { key := "room", kind := .parallel, transitions := [(.on "LEAVE", .toTarget "hall")] }
          [.mk { key := "window" }
              [.mk { key := "shut", transitions := [(.on "AIR", .toTarget "open")] } [],
               .mk { key := "open" } []],
           .mk { key := "lamp" } [.mk { key := "off" } [], .mk { key := "on" } []],
           .mk { key := "asLeft", kind := .history .deep } [],
           .mk { key := "anew", kind := .history .shallow } []],
       .mk { key := "hall"
             transitions := [(.on "RETURN", .toTarget "#house.room.asLeft"),
               (.on "TIDY", .toTarget "#house.room.anew")] } []]
    context := some fun _ => .null }

/-- The window that was opened is open when the room is gone back into as it was left, and
shut when it is gone into anew. -/
theorem history_restores_room :
    let machine : Machine Unit := room.machine fun _ => .null
    ∃ returned tidied,
      machine.resolve [0, 10] [(8, [4, 6]), (9, [2, 5])] .null (Event.named "RETURN") =
        .ok returned ∧
      machine.resolve [0, 10] [(8, [4, 6]), (9, [2, 5])] .null (Event.named "TIDY") =
        .ok tidied ∧
      4 ∈ returned.active ∧ 3 ∉ returned.active ∧ 3 ∈ tidied.active := by
  intro machine
  have built : room.build = .ok machine := build_of_faultless (by decide +kernel) rfl
  have regioned : machine.chart.Regioned := by decide +kernel
  have start : machine.Trail [] [0, 1, 2, 3, 5, 6] [] := .start (by decide +kernel)
  have airs : (machine.resolve [0, 1, 2, 3, 5, 6] [] .null (Event.named "AIR")).map
      (fun resolution => (resolution.exits, resolution.active, resolution.history)) =
        .ok ([3], [0, 1, 2, 4, 5, 6], []) := by decide +kernel
  have leaves : (machine.resolve [0, 1, 2, 4, 5, 6] [] .null (Event.named "LEAVE")).map
      (fun resolution => (resolution.exits, resolution.active, resolution.history)) =
        .ok ([6, 5, 4, 2, 1], [0, 10], [(8, [4, 6]), (9, [2, 5])]) := by decide +kernel
  obtain ⟨aired, _, airing⟩ := start.follow airs
  obtain ⟨leaving, leavingExits, trail⟩ := airing.follow leaves
  have lastLeft : Machine.lastLeft? [([0, 1, 2, 4, 5, 6], leaving),
      ([0, 1, 2, 3, 5, 6], aired)] 1 = some [0, 1, 2, 4, 5, 6] := by
    simp [Machine.lastLeft?, leavingExits]
  obtain ⟨_, _, selectsDeep, onlyDeep, targetsDeep⟩ :=
    Machine.select_of_targets (show (machine.select .event [0, 10] [(8, [4, 6]), (9, [2, 5])]
      .null (Event.named "RETURN")).map _ = .ok [[8]] by decide +kernel)
  obtain ⟨_, _, selectsShallow, onlyShallow, targetsShallow⟩ :=
    Machine.select_of_targets (show (machine.select .event [0, 10] [(8, [4, 6]), (9, [2, 5])]
      .null (Event.named "TIDY")).map _ = .ok [[9]] by decide +kernel)
  obtain ⟨returned, foretoldReturn, asLeft⟩ := history_restores built (.inl rfl) regioned trail
    (show machine.chart.kind 8 = .history .deep [2, 5] by decide +kernel) (by decide +kernel)
    lastLeft (by decide +kernel) (by decide +kernel) (by decide +kernel)
    selectsDeep onlyDeep targetsDeep
  obtain ⟨tidied, foretoldTidying, anew⟩ := history_restores built (.inl rfl) regioned trail
    (show machine.chart.kind 9 = .history .shallow [2, 5] by decide +kernel) (by decide +kernel)
    lastLeft (by decide +kernel) (by decide +kernel) (by decide +kernel)
    selectsShallow onlyShallow targetsShallow
  have window : machine.chart.ByDefault 3 2 :=
    .initial (by decide +kernel : machine.chart.kind 2 = .compound 3) .here
  refine ⟨returned, tidied, foretoldReturn, foretoldTidying, ?_, ?_, ?_⟩
  · exact (asLeft 4 (by decide +kernel)).mpr (by decide : 4 ∈ [0, 1, 2, 4, 5, 6])
  · intro shut
    exact absurd ((asLeft 3 (by decide +kernel)).mp shut)
      (by decide : 3 ∉ [0, 1, 2, 4, 5, 6])
  · exact (anew 3 (by decide +kernel)).mpr
      (.inr ⟨2, by decide, by decide +kernel, window⟩)

end MachineSpec

end Statechart
