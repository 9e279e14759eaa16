import Statechart.Proofs.Building
import Statechart.Proofs.Domains
import Statechart.Proofs.Tables
import Statechart.Resolution

/-!
# What is chosen

Every transition that a selection chooses stands at an active state and is one of those
that the state declares, so in a built machine its move fits the chart and the
configuration.
-/

namespace Statechart

namespace Machine

variable {L : Type} {machine : Machine L}

/-- The choice is one of those that an active state declares. -/
structure Offers (machine : Machine L) (active : Configuration) (choice : Choice L) :
    Prop where
  sourceActive : choice.ref.source ∈ active
  declared : ∃ transition ∈ (machine.conduct choice.ref.source).transitions,
    choice.candidate ∈ transition.candidates

theorem mem_choices
    {trigger : Trigger} {event : Event} {state : StateId} {choice : Choice L}
    (member : choice ∈ machine.choices trigger event state) :
    choice.ref.source = state ∧ ∃ transition ∈ (machine.conduct state).transitions,
      choice.candidate ∈ transition.candidates := by
  unfold choices at member
  dsimp only at member
  rw [List.mem_flatMap] at member
  obtain ⟨⟨transition, index⟩, ordered, listed⟩ := member
  rw [List.mem_map] at listed
  obtain ⟨⟨candidate, position⟩, numbered, rfl⟩ := listed
  refine ⟨rfl, transition, ?_, ?_⟩
  · have admitted := (List.mem_filter.mp ((sortStably_perm _ _).mem_iff.mp ordered)).1
    exact (List.mem_zipIdx' admitted).2 ▸ List.getElem_mem _
  · exact (List.mem_zipIdx' numbered).2 ▸ List.getElem_mem _

theorem mem_of_firstOpen
    {sight : Guard.Sight} {choices : List (Choice L)} {choice : Choice L}
    (found : firstOpen sight choices = .ok (some choice)) :
    choice ∈ choices := by
  induction choices with
  | nil => simp [firstOpen] at found
  | cons first rest ih =>
      unfold firstOpen at found
      split at found
      · cases found
        exact List.mem_cons_self
      · split at found
        · cases found
          exact List.mem_cons_self
        · exact List.mem_cons_of_mem first (ih found)
        · cases found

theorem firstChoice_offers
    {trigger : Trigger} {sight : Guard.Sight} {active : Configuration}
    {states : List StateId} {choice : Choice L}
    (areActive : ∀ state ∈ states, state ∈ active)
    (found : machine.firstChoice trigger sight states = .ok (some choice)) :
    machine.Offers active choice := by
  induction states with
  | nil => simp [firstChoice] at found
  | cons state states ih =>
      unfold firstChoice at found
      split at found
      · rename_i first opened
        cases found
        obtain ⟨source, declared⟩ := mem_choices (mem_of_firstOpen opened)
        constructor
        · rw [source]
          exact areActive state List.mem_cons_self
        · rw [source]
          exact declared
      · exact ih (fun other member => areActive other (List.mem_cons_of_mem state member))
          found
      · cases found

theorem mem_addChoice
    {found : List (Choice L)} {new : Option (Choice L)} {choice : Choice L}
    (member : choice ∈ addChoice found new) :
    choice ∈ found ∨ new = some choice := by
  unfold addChoice at member
  split at member
  · exact .inl member
  · split at member
    · exact .inl member
    · rcases List.mem_append.mp member with old | added
      · exact .inl old
      · right
        rw [List.mem_singleton] at added
        rw [added]

theorem enabledFrom_offers
    {trigger : Trigger} {sight : Guard.Sight} {active : Configuration}
    {leaves : List StateId} {found enabled : List (Choice L)}
    (areActive : ∀ leaf ∈ leaves, ∀ state ∈ leaf :: machine.chart.ancestors leaf,
      state ∈ active)
    (known : ∀ choice ∈ found, machine.Offers active choice)
    (listed : machine.enabledFrom trigger sight leaves found = .ok enabled) :
    ∀ choice ∈ enabled, machine.Offers active choice := by
  induction leaves generalizing found with
  | nil =>
      obtain rfl : found = enabled := by simpa [enabledFrom] using listed
      exact known
  | cons leaf leaves ih =>
      unfold enabledFrom at listed
      split at listed
      · rename_i new first
        refine ih (fun other member => areActive other (List.mem_cons_of_mem leaf member))
          ?_ listed
        intro choice member
        rcases mem_addChoice member with old | added
        · exact known choice old
        · rw [added] at first
          exact firstChoice_offers (areActive leaf List.mem_cons_self) first
      · cases listed

theorem withoutConflicts_subset
    {active : Configuration} {history : HistoryRecords} {event : Event}
    {enabled : List (Choice L)} :
    ∀ choice ∈ (machine.withoutConflicts active history event enabled).chosen,
      choice ∈ enabled := by
  unfold withoutConflicts
  refine List.foldlRecOn
    (motive := fun selection : Selection L => ∀ choice ∈ selection.chosen, choice ∈ enabled)
    enabled _ ?_ ?_
  · intro choice member
    cases member
  · intro selection kept choice isEnabled
    split
    · exact kept
    · intro other member
      rcases List.mem_append.mp member with old | added
      · exact kept other old
      · rw [List.mem_singleton] at added
        rw [added]
        exact isEnabled

/-- Of any two choices that are kept, neither leaves what the other leaves. -/
theorem withoutConflicts_disjoint
    {active : Configuration} {history : HistoryRecords} {event : Event}
    (enabled : List (Choice L)) :
    (machine.withoutConflicts active history event enabled).chosen.Pairwise
      fun first second =>
        ∀ state ∈ machine.chart.exitsOf active history first.move,
          state ∉ machine.chart.exitsOf active history second.move := by
  unfold withoutConflicts
  generalize started : ({ chosen := [], conflicts := [] } : Selection L) = selection
  have apart : selection.chosen.Pairwise fun first second =>
      ∀ state ∈ machine.chart.exitsOf active history first.move,
        state ∉ machine.chart.exitsOf active history second.move := by
    subst started
    exact .nil
  clear started
  induction enabled generalizing selection with
  | nil => exact apart
  | cons choice rest ih =>
      rw [List.foldl_cons]
      apply ih
      split
      · exact apart
      · rename_i unrivalled
        rw [List.pairwise_append]
        refine ⟨apart, List.pairwise_singleton _ _, ?_⟩
        intro kept isKept new isNew
        obtain rfl : new = choice := by simpa using isNew
        have harmless := List.find?_eq_none.mp unrivalled kept isKept
        simpa [StateSet.disjoint_iff] using harmless

/-- Whatever is chosen is declared by a leaf or a state that a leaf lies in. -/
theorem select_offers_above
    {trigger : Trigger} {active : Configuration} {history : HistoryRecords}
    {context : Json} {event : Event} {selection : Selection L}
    (selected : machine.select trigger active history context event = .ok selection) :
    ∀ choice ∈ selection.chosen,
      machine.Offers ((machine.chart.leaves active).flatMap fun leaf =>
        leaf :: machine.chart.ancestors leaf) choice := by
  unfold select at selected
  split at selected
  · rename_i enabled listed
    cases selected
    intro choice member
    refine enabledFrom_offers ?_ (by simp) listed choice (withoutConflicts_subset choice member)
    intro leaf isLeaf state above
    exact List.mem_flatMap.mpr ⟨leaf, isLeaf, above⟩
  · cases selected

theorem select_offers
    {trigger : Trigger} {active : Configuration} {history : HistoryRecords}
    {context : Json} {event : Event} {selection : Selection L}
    (formed : machine.chart.WellFormed)
    (valid : machine.chart.Valid active)
    (selected : machine.select trigger active history context event = .ok selection) :
    ∀ choice ∈ selection.chosen, machine.Offers active choice := by
  intro choice member
  have offers := select_offers_above selected choice member
  refine ⟨?_, offers.declared⟩
  obtain ⟨leaf, isLeaf, above⟩ := List.mem_flatMap.mp offers.sourceActive
  have leafActive : leaf ∈ active := (List.mem_filter.mp isLeaf).1
  rcases List.mem_cons.mp above with same | further
  · rw [same]
    exact leafActive
  · exact valid.outerActive formed leafActive ((Chart.isInside_iff_mem formed).mpr further)

/-- The moves of a selection leave different states. -/
theorem select_disjoint
    {trigger : Trigger} {active : Configuration} {history : HistoryRecords}
    {context : Json} {event : Event} {selection : Selection L}
    (selected : machine.select trigger active history context event = .ok selection) :
    (selection.chosen.map Choice.move).Pairwise fun first second =>
      ∀ state ∈ machine.chart.exitsOf active history first,
        state ∉ machine.chart.exitsOf active history second := by
  rw [List.pairwise_map]
  unfold select at selected
  split at selected
  · cases selected
    exact withoutConflicts_disjoint _
  · cases selected

theorem select_targets_in_range
    {trigger : Trigger} {active : Configuration} {history : HistoryRecords}
    {context : Json} {event : Event} {selection : Selection L}
    (lead : ∀ source, Transition.LeadWithin machine.chart (machine.conduct source).transitions)
    (selected : machine.select trigger active history context event = .ok selection) :
    ∀ move ∈ selection.chosen.map Choice.move, ∀ target ∈ move.targets,
      target < machine.chart.size := by
  intro move member
  obtain ⟨choice, chosen, rfl⟩ := List.mem_map.mp member
  obtain ⟨transition, isTransition, isCandidate⟩ :=
    (select_offers_above selected choice chosen).declared
  exact lead choice.ref.source transition isTransition choice.candidate isCandidate

/-- In a built machine the moves of a selection fit. -/
theorem select_fits
    {trigger : Trigger} {active : Configuration} {history : HistoryRecords}
    {context : Json} {event : Event} {selection : Selection L}
    (formed : machine.chart.WellFormed)
    (lead : ∀ source, Transition.LeadWithin machine.chart (machine.conduct source).transitions)
    (valid : machine.chart.Valid active)
    (selected : machine.select trigger active history context event = .ok selection) :
    ∀ move ∈ selection.chosen.map Choice.move, move.Fits machine.chart active := by
  intro move member
  refine ⟨?_, select_targets_in_range lead selected move member⟩
  obtain ⟨choice, chosen, rfl⟩ := List.mem_map.mp member
  exact (select_offers formed valid selected choice chosen).sourceActive

/-- A selection known by its moves. -/
theorem select_of_moves
    {trigger : Trigger} {active : Configuration} {history : HistoryRecords}
    {context : Json} {event : Event} {moves : List Move}
    (known : (machine.select trigger active history context event).map (fun selection =>
      selection.chosen.map Choice.move) = .ok moves) :
    ∃ selection, machine.select trigger active history context event = .ok selection ∧
      selection.chosen.map Choice.move = moves := by
  cases selected : machine.select trigger active history context event with
  | error reason => simp [selected, Except.map] at known
  | ok selection => exact ⟨selection, rfl, by simpa [selected, Except.map] using known⟩

end Machine

end Statechart
