import Statechart.Interpreter.Snapshot
import Statechart.Proofs.Choosing

/-!
# Idle selections

Nothing is selected, without any guard failing, exactly if all candidates that are tried have
guards that do not hold.  Then nothing is foreseen either.  Whether transitions without event
are open may turn on the event that is current, but only if their guards look at it.
-/

namespace Statechart

variable {L : Type}

/-- The choice has a guard, and this does not hold. -/
def Choice.Closed (sight : Guard.Sight) (choice : Choice L) : Prop :=
  choice.candidate.guard.map (Guard.check sight) = some (.ok false)

instance (sight : Guard.Sight) (choice : Choice L) : Decidable (choice.Closed sight) :=
  inferInstanceAs (Decidable (_ = _))

theorem Choice.closed_iff
    {sight : Guard.Sight} {choice : Choice L} :
    choice.Closed sight ↔
      ∃ guard, choice.candidate.guard = some guard ∧ guard.check sight = .ok false :=
  Option.map_eq_some_iff

theorem firstOpen_eq_none_iff
    {sight : Guard.Sight} {choices : List (Choice L)} :
    firstOpen sight choices = .ok none ↔ ∀ choice ∈ choices, choice.Closed sight := by
  induction choices with
  | nil => simp [firstOpen]
  | cons choice choices ih =>
      rw [List.forall_mem_cons, Choice.closed_iff]
      unfold firstOpen
      cases choice.candidate.guard with
      | none => simp
      | some guard =>
          cases checked : guard.check sight with
          | error error => simp [checked]
          | ok holds => cases holds <;> simp [checked, ih]

namespace Machine

/-- No transition is open for the trigger: all candidates that the active leaves have, and
the states that they lie in, are closed. -/
def Idle (machine : Machine L) (trigger : Trigger) (active : Configuration) (context : Json)
    (event : Event) : Prop :=
  ∀ leaf ∈ machine.chart.leaves active, ∀ state ∈ leaf :: machine.chart.ancestors leaf,
    ∀ choice ∈ machine.choices trigger event state,
      choice.Closed { chart := machine.chart, active, context, event }

instance (machine : Machine L) (trigger : Trigger) (active : Configuration) (context : Json)
    (event : Event) : Decidable (machine.Idle trigger active context event) :=
  inferInstanceAs (Decidable (∀ leaf ∈ _, ∀ state ∈ _, ∀ choice ∈ _, _))

section Selecting

variable {machine : Machine L} {trigger : Trigger} {sight : Guard.Sight}
variable {active : Configuration} {history : HistoryRecords} {context : Json} {event : Event}

theorem firstChoice_eq_none_iff
    {states : List StateId} :
    machine.firstChoice trigger sight states = .ok none ↔
      ∀ state ∈ states, ∀ choice ∈ machine.choices trigger sight.event state,
        choice.Closed sight := by
  induction states with
  | nil => simp [firstChoice]
  | cons state states ih =>
      rw [List.forall_mem_cons, ← firstOpen_eq_none_iff, ← ih]
      conv => lhs; unfold firstChoice
      cases opened : firstOpen sight (machine.choices trigger sight.event state) with
      | error error => simp
      | ok first => cases first <;> simp

theorem addChoice_eq_nil_iff
    {found : List (Choice L)} {new : Option (Choice L)} :
    addChoice found new = [] ↔ found = [] ∧ new = none := by
  unfold addChoice
  split
  · simp
  · split
    · rename_i known
      constructor
      · rintro rfl
        simp at known
      · rintro ⟨_, ⟨⟩⟩
    · simp

theorem enabledFrom_eq_nil_iff
    {leaves : List StateId} {found : List (Choice L)} :
    machine.enabledFrom trigger sight leaves found = .ok [] ↔
      found = [] ∧ ∀ leaf ∈ leaves,
        machine.firstChoice trigger sight (leaf :: machine.chart.ancestors leaf) = .ok none := by
  induction leaves generalizing found with
  | nil => simp [enabledFrom]
  | cons leaf leaves ih =>
      rw [List.forall_mem_cons]
      unfold enabledFrom
      cases machine.firstChoice trigger sight (leaf :: machine.chart.ancestors leaf) with
      | error error => simp
      | ok first =>
          rw [ih, addChoice_eq_nil_iff]
          simp only [Except.ok.injEq, and_assoc]

/-- Whatever is enabled, the first choice is kept. -/
theorem withoutConflicts_chosen_eq_nil_iff
    {enabled : List (Choice L)} :
    (machine.withoutConflicts active history event enabled).chosen = [] ↔ enabled = [] := by
  cases enabled with
  | nil => simp [withoutConflicts]
  | cons first rest =>
      refine iff_of_false ?_ (List.cons_ne_nil first rest)
      unfold withoutConflicts
      rw [List.foldl_cons]
      refine List.foldlRecOn (motive := fun selection : Selection L => selection.chosen ≠ [])
        rest _ ?_ ?_
      · simp [rival?]
      · intro selection nonempty choice _
        split
        · exact nonempty
        · simp

theorem select_of_idle
    (history : HistoryRecords)
    (idle : machine.Idle trigger active context event) :
    machine.select trigger active history context event = .ok { chosen := [], conflicts := [] } := by
  have nothing : machine.enabledFrom trigger { chart := machine.chart, active, context, event }
      (machine.chart.leaves active) [] = .ok [] :=
    enabledFrom_eq_nil_iff.mpr
      ⟨rfl, fun leaf isLeaf => firstChoice_eq_none_iff.mpr (idle leaf isLeaf)⟩
  unfold select
  rw [nothing]
  rfl

theorem idle_of_select
    {selection : Selection L}
    (selected : machine.select trigger active history context event = .ok selection)
    (nothing : selection.chosen = []) :
    machine.Idle trigger active context event := by
  unfold select at selected
  split at selected
  · rename_i enabled listed
    cases selected
    rw [withoutConflicts_chosen_eq_nil_iff] at nothing
    subst nothing
    intro leaf isLeaf
    exact firstChoice_eq_none_iff.mp ((enabledFrom_eq_nil_iff.mp listed).2 leaf isLeaf)
  · cases selected

/-- A step is foreseen in which nothing is done, exactly if no transition is open. -/
theorem idle_iff_foreseen :
    machine.Idle .event active context event ↔
      ∃ resolution, machine.resolve active history context event = .ok resolution ∧
        resolution.chosen = [] := by
  constructor
  · intro idle
    unfold resolve
    rw [select_of_idle history idle]
    exact ⟨_, rfl, rfl⟩
  · rintro ⟨resolution, resolved, nothing⟩
    unfold resolve at resolved
    split at resolved
    · cases resolved
    · rename_i selection selected
      dsimp only at resolved
      split at resolved
      · cases resolved
      · cases resolved
        exact idle_of_select selected nothing

end Selecting

end Machine

theorem Snapshot.can_of_idle
    {machine : Machine L} {snapshot : Snapshot} {event : Event}
    (idle : machine.Idle .event snapshot.active snapshot.context event) :
    snapshot.can machine event = false := by
  obtain ⟨resolution, resolved, nothing⟩ := Machine.idle_iff_foreseen.mp idle
  unfold can
  rw [resolved]
  simp [nothing]

/-- The guard gives its verdict whatever the event is. -/
def Guard.Blind (guard : Guard) : Prop :=
  ∀ (sight : Sight) (event : Event) (holds : Bool),
    guard.check sight = .ok holds → guard.check { sight with event } = .ok holds

namespace Guard

mutual

/-- Does the guard only ask which states are active? -/
def asksStates : Guard → Bool
  | .test _ _ => false
  | .inState _ _ => true
  | .not _ guard => guard.asksStates
  | .and _ guards => allAskStates guards
  | .or _ guards => allAskStates guards

def allAskStates : List Guard → Bool
  | [] => true
  | guard :: guards => guard.asksStates && allAskStates guards

end

mutual

theorem blind_of_asksStates :
    (guard : Guard) → guard.asksStates = true → guard.Blind
  | .test _ _, asks => by cases asks
  | .inState name reference, _ => by
      intro sight event holds checked
      unfold check at checked ⊢
      dsimp only
      split at checked
      · exact checked
      · cases checked
  | .not name guard, asks => by
      intro sight event holds checked
      unfold check at checked ⊢
      split at checked
      · rename_i verdict below
        rw [blind_of_asksStates guard asks sight event verdict below]
        exact checked
      · cases checked
  | .and name guards, asks => fun sight event holds =>
      (blind_of_allAskStates guards asks sight event holds).1
  | .or name guards, asks => fun sight event holds =>
      (blind_of_allAskStates guards asks sight event holds).2

theorem blind_of_allAskStates :
    (guards : List Guard) → allAskStates guards = true →
      ∀ (sight : Sight) (event : Event) (holds : Bool),
        (checkAll sight guards = .ok holds → checkAll { sight with event } guards = .ok holds) ∧
        (checkAny sight guards = .ok holds → checkAny { sight with event } guards = .ok holds)
  | [], _ => fun _ _ _ => ⟨fun checked => checked, fun checked => checked⟩
  | guard :: guards, asks => by
      intro sight event holds
      obtain ⟨first, rest⟩ := Bool.and_eq_true_iff.mp asks
      have blind := blind_of_asksStates guard first sight event
      have others := blind_of_allAskStates guards rest sight event holds
      unfold checkAll checkAny
      cases checked : guard.check sight with
      | error error => simp
      | ok verdict =>
          rw [blind verdict checked]
          cases verdict
          · exact ⟨fun same => same, others.2⟩
          · exact ⟨others.1, fun same => same⟩

end

end Guard

/-- No guard of a transition without event looks at the event. -/
def Machine.Blind (machine : Machine L) : Prop :=
  ∀ (state : StateId) (event : Event), ∀ choice ∈ machine.choices .eventless event state,
    ∀ guard, choice.candidate.guard = some guard → guard.Blind

/-- Guards that only ask for active states are blind. -/
theorem Machine.blind_of_asksStates
    {machine : Machine L}
    (ask : ∀ conduct ∈ machine.conducts, ∀ transition ∈ conduct.transitions,
      ∀ candidate ∈ transition.candidates, candidate.guard.all Guard.asksStates = true) :
    machine.Blind := by
  intro state event choice member guard guarded
  obtain ⟨_, transition, declared, listed⟩ := mem_choices member
  refine guard.blind_of_asksStates ?_
  have asks : choice.candidate.guard.all Guard.asksStates = true := by
    unfold conduct at declared
    cases found : machine.conducts[state]? with
    | none =>
        rw [found] at declared
        cases declared
    | some conduct =>
        rw [found] at declared
        exact ask conduct (List.mem_of_getElem? found) transition declared _ listed
  rw [guarded] at asks
  exact asks

theorem Machine.Idle.of_blind
    {machine : Machine L} {active : Configuration} {context : Json} {event : Event}
    (idle : machine.Idle .eventless active context event)
    (blind : machine.Blind)
    (other : Event) :
    machine.Idle .eventless active context other := by
  intro leaf isLeaf state above choice member
  have member : choice ∈ machine.choices .eventless event state := member
  obtain ⟨guard, guarded, closed⟩ :=
    Choice.closed_iff.mp (idle leaf isLeaf state above choice member)
  exact Choice.closed_iff.mpr
    ⟨guard, guarded, blind state event choice member guard guarded _ other false closed⟩

end Statechart
