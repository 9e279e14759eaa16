import Statechart.Proofs.Choosing

/-!
# Trying in turn

Candidates are tried one after another until one is open or its guard fails.  What this
comes to is told without the search: the item that settles it, and that all items before
it were refused.  The states above a leaf are tried like one long list.
-/

namespace Statechart

section Settling

variable {α β : Type} {verdict : α → Except GuardError Bool} {items : List α}

/-- The item stands in the list, and all items before it are refused. -/
def Reached (verdict : α → Except GuardError Bool) (items : List α) (item : α) : Prop :=
  ∃ front back, items = front ++ item :: back ∧ ∀ other ∈ front, verdict other = .ok false

/-- What trying the items in turn comes to: the first that is not refused settles it. -/
inductive Settled (verdict : α → Except GuardError Bool) (items : List α) :
    Except GuardError (Option α) → Prop where
  | opened {item : α} :
      Reached verdict items item → verdict item = .ok true →
      Settled verdict items (.ok (some item))
  | failed {item : α} {error : GuardError} :
      Reached verdict items item → verdict item = .error error →
      Settled verdict items (.error error)
  | refused :
      (∀ item ∈ items, verdict item = .ok false) → Settled verdict items (.ok none)

theorem Reached.head {item : α} : Reached verdict (item :: items) item :=
  ⟨[], items, rfl, fun _ member => absurd member List.not_mem_nil⟩

theorem Reached.later
    {first item : α}
    (reached : Reached verdict items item)
    (refused : verdict first = .ok false) :
    Reached verdict (first :: items) item := by
  obtain ⟨front, back, rfl, before⟩ := reached
  exact ⟨first :: front, back, rfl, List.forall_mem_cons.mpr ⟨refused, before⟩⟩

theorem Reached.mem
    {item : α}
    (reached : Reached verdict items item) :
    item ∈ items := by
  obtain ⟨front, back, rfl, _⟩ := reached
  exact List.mem_append_right front List.mem_cons_self

theorem settled_cons_of_refused
    {first : α} {outcome : Except GuardError (Option α)}
    (refused : verdict first = .ok false)
    (settled : Settled verdict items outcome) :
    Settled verdict (first :: items) outcome := by
  cases settled with
  | opened reached holds => exact .opened (reached.later refused) holds
  | failed reached fails => exact .failed (reached.later refused) fails
  | refused rest => exact .refused (List.forall_mem_cons.mpr ⟨refused, rest⟩)

/-- Only one item that is not refused is reached. -/
theorem Reached.unique
    {first second : α}
    (reached : Reached verdict items first)
    (other : Reached verdict items second)
    (notRefused : verdict first ≠ .ok false)
    (otherNot : verdict second ≠ .ok false) :
    first = second := by
  obtain ⟨front, back, rfl, before⟩ := reached
  obtain ⟨front', back', split, before'⟩ := other
  rcases List.append_eq_append_iff.mp split with ⟨middle, rfl, rest⟩ | ⟨middle, rfl, rest⟩
  · cases middle with
    | nil => exact (List.cons.inj rest).1
    | cons item middle =>
        obtain ⟨rfl, _⟩ := List.cons.inj rest
        exact absurd (before' _ (by simp)) notRefused
  · cases middle with
    | nil => exact (List.cons.inj rest).1.symm
    | cons item middle =>
        obtain ⟨rfl, _⟩ := List.cons.inj rest
        exact absurd (before _ (by simp)) otherNot

theorem Settled.unique
    {one two : Except GuardError (Option α)}
    (settled : Settled verdict items one)
    (other : Settled verdict items two) :
    one = two := by
  cases settled with
  | opened reached holds =>
      cases other with
      | opened reached' holds' =>
          rw [reached.unique reached' (by simp [holds]) (by simp [holds'])]
      | failed reached' fails =>
          obtain rfl := reached.unique reached' (by simp [holds]) (by simp [fails])
          simp [holds] at fails
      | refused all => simp [all _ reached.mem] at holds
  | failed reached fails =>
      cases other with
      | opened reached' holds =>
          obtain rfl := reached.unique reached' (by simp [fails]) (by simp [holds])
          simp [holds] at fails
      | failed reached' fails' =>
          obtain rfl := reached.unique reached' (by simp [fails]) (by simp [fails'])
          exact congrArg Except.error (Except.error.inj (fails.symm.trans fails'))
      | refused all => simp [all _ reached.mem] at fails
  | refused all =>
      cases other with
      | opened reached holds => simp [all _ reached.mem] at holds
      | failed reached fails => simp [all _ reached.mem] at fails
      | refused => rfl

theorem Reached.matching
    {verdict' : β → Except GuardError Bool} {items' : List β} {Match : α → β → Prop}
    {item : α}
    (reached : Reached verdict items item)
    (matching : List.Forall₂ Match items items')
    (alike : ∀ {first second}, Match first second → verdict first = verdict' second) :
    ∃ item', Match item item' ∧ Reached verdict' items' item' := by
  obtain ⟨front, back, rfl, before⟩ := reached
  induction front generalizing items' with
  | nil =>
      obtain ⟨item', rest, same, _, rfl⟩ := List.forall₂_cons_left_iff.mp matching
      exact ⟨item', same, .head⟩
  | cons first front ih =>
      obtain ⟨first', rest, same, others, rfl⟩ := List.forall₂_cons_left_iff.mp matching
      obtain ⟨refused, before⟩ := List.forall_mem_cons.mp before
      obtain ⟨item', found, reached⟩ := ih before others
      exact ⟨item', found, reached.later (alike same ▸ refused)⟩

/-- Two outcomes agree, with matching items if there are any. -/
inductive Agrees (Match : α → β → Prop) :
    Except GuardError (Option α) → Except GuardError (Option β) → Prop where
  | opened {item : α} {item' : β} :
      Match item item' → Agrees Match (.ok (some item)) (.ok (some item'))
  | failed {error : GuardError} : Agrees Match (.error error) (.error error)
  | refused : Agrees Match (.ok none) (.ok none)

theorem Settled.matching
    {verdict' : β → Except GuardError Bool} {items' : List β} {Match : α → β → Prop}
    {outcome : Except GuardError (Option α)}
    (settled : Settled verdict items outcome)
    (matching : List.Forall₂ Match items items')
    (alike : ∀ {first second}, Match first second → verdict first = verdict' second) :
    ∃ outcome', Agrees Match outcome outcome' ∧ Settled verdict' items' outcome' := by
  cases settled with
  | opened reached holds =>
      obtain ⟨item', found, reached⟩ := reached.matching matching alike
      exact ⟨_, .opened found, .opened reached (alike found ▸ holds)⟩
  | failed reached fails =>
      obtain ⟨item', found, reached⟩ := reached.matching matching alike
      exact ⟨_, .failed, .failed reached (alike found ▸ fails)⟩
  | refused all =>
      refine ⟨_, .refused, .refused ?_⟩
      induction matching with
      | nil => simp
      | cons same _ ih =>
          obtain ⟨first, rest⟩ := List.forall_mem_cons.mp all
          exact List.forall_mem_cons.mpr ⟨alike same ▸ first, ih rest⟩

end Settling

variable {L : Type}

/-- The verdict of a guard that may be missing; without one nothing stands in the way. -/
def Guard.Sight.verdict (sight : Guard.Sight) : Option Guard → Except GuardError Bool
  | none => .ok true
  | some guard => guard.check sight

/-- The verdict on a choice is that of its guard. -/
def Choice.verdict (sight : Guard.Sight) (choice : Choice L) : Except GuardError Bool :=
  sight.verdict choice.candidate.guard

theorem firstOpen_settled
    (sight : Guard.Sight) (choices : List (Choice L)) :
    Settled (Choice.verdict sight) choices (firstOpen sight choices) := by
  induction choices with
  | nil => exact .refused fun _ member => absurd member List.not_mem_nil
  | cons choice choices ih =>
      unfold firstOpen
      cases guarded : choice.candidate.guard with
      | none => exact .opened .head (by simp [Choice.verdict, guarded, Guard.Sight.verdict])
      | some guard =>
          have verdict : choice.verdict sight = guard.check sight := by
            simp [Choice.verdict, guarded, Guard.Sight.verdict]
          dsimp only
          split
          · exact .opened .head (verdict.trans ‹_›)
          · exact settled_cons_of_refused (verdict.trans ‹_›) ih
          · exact .failed .head (verdict.trans ‹_›)

theorem firstOpen_eq_iff
    {sight : Guard.Sight} {choices : List (Choice L)}
    {outcome : Except GuardError (Option (Choice L))} :
    firstOpen sight choices = outcome ↔ Settled (Choice.verdict sight) choices outcome := by
  constructor
  · rintro rfl
    exact firstOpen_settled sight choices
  · exact (firstOpen_settled sight choices).unique

theorem firstOpen_append
    (sight : Guard.Sight) (front back : List (Choice L)) :
    firstOpen sight (front ++ back) =
      match firstOpen sight front with
      | .ok none => firstOpen sight back
      | outcome => outcome := by
  induction front with
  | nil => rfl
  | cons choice front ih =>
      rw [List.cons_append, firstOpen, firstOpen, ih]
      cases choice.candidate.guard with
      | none => rfl
      | some guard =>
          dsimp only
          cases guard.check sight with
          | error error => rfl
          | ok holds => cases holds <;> rfl

namespace Machine

/-- All choices of a leaf in the order in which they are tried: its own, then those of the
states that it lies in, the nearest first. -/
def tried (machine : Machine L) (trigger : Trigger) (event : Event) (leaf : StateId) :
    List (Choice L) :=
  (leaf :: machine.chart.ancestors leaf).flatMap (machine.choices trigger event)

/-- Searching from the leaf upwards comes to this. -/
def Searched (machine : Machine L) (trigger : Trigger) (sight : Guard.Sight) (leaf : StateId)
    (outcome : Except GuardError (Option (Choice L))) : Prop :=
  Settled (Choice.verdict sight) (machine.tried trigger sight.event leaf) outcome

variable {machine : Machine L} {trigger : Trigger} {sight : Guard.Sight}

theorem firstChoice_eq_firstOpen
    (states : List StateId) :
    machine.firstChoice trigger sight states =
      firstOpen sight (states.flatMap (machine.choices trigger sight.event)) := by
  induction states with
  | nil => rfl
  | cons state states ih =>
      rw [firstChoice, ih, List.flatMap_cons, firstOpen_append]
      cases firstOpen sight (machine.choices trigger sight.event state) with
      | error error => rfl
      | ok first => cases first <;> rfl

theorem firstChoice_eq_iff
    {leaf : StateId} {outcome : Except GuardError (Option (Choice L))} :
    machine.firstChoice trigger sight (leaf :: machine.chart.ancestors leaf) = outcome ↔
      machine.Searched trigger sight leaf outcome := by
  rw [firstChoice_eq_firstOpen, firstOpen_eq_iff]
  rfl

/-- What is found from a leaf is what the state where it stands would choose by itself. -/
theorem Searched.chosen_at
    {leaf : StateId} {choice : Choice L}
    (found : machine.Searched trigger sight leaf (.ok (some choice))) :
    firstOpen sight (machine.choices trigger sight.event choice.ref.source) =
      .ok (some choice) := by
  have found := firstChoice_eq_iff.mpr found
  generalize leaf :: machine.chart.ancestors leaf = states at found
  induction states with
  | nil => simp [firstChoice] at found
  | cons state states ih =>
      unfold firstChoice at found
      split at found
      · rename_i first opened
        cases found
        rw [(mem_choices (mem_of_firstOpen opened)).1]
        exact opened
      · exact ih found
      · cases found

/-- From two leaves no two choices of one state are found. -/
theorem Searched.choice_unique
    {leaf other : StateId} {first second : Choice L}
    (found : machine.Searched trigger sight leaf (.ok (some first)))
    (alsoFound : machine.Searched trigger sight other (.ok (some second)))
    (sameSource : first.ref.source = second.ref.source) :
    first = second := by
  have one := found.chosen_at
  rw [sameSource, alsoFound.chosen_at] at one
  exact (Option.some.inj (Except.ok.inj one)).symm

end Machine

end Statechart
