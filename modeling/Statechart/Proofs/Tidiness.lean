import Statechart.Proofs.Macrostep
import Statechart.Proofs.PlainMoves

/-!
# Tidy steps

An actor that an action starts ends with a state: the domain of the transition, the parent
of the state that is left, or the state that is entered.  A step is tidy if none of these
states is left for good before the actor is started.  Only a transition that leaves nothing
itself can make a step untidy: another one may leave its domain, and its actions are
carried out all the same, after the exits.
-/

namespace Statechart

/-- Does the action start an actor that ends with a state? -/
def Action.spawns {L : Type} : Action L → Bool
  | .spawn _ _ _ => true
  | _ => false

namespace Machine

section Declaring

variable {L : Type} (machine : Machine L)

/-- The state that an actor ends with which is started while a state is left. -/
def exitOwner (state : StateId) : StateId :=
  (machine.chart.parent? state).getD state

/-- The states that the actors of a step end with are active after the step, or they are
left in its course. -/
structure Tidy (active : Configuration) (history : HistoryRecords)
    (chosen : List (Choice L)) (entries : StateSet) : Prop where
  exits : ∀ state ∈ machine.chart.exits active history (chosen.map Choice.move),
    (machine.conduct state).exit.any Action.spawns = true →
      machine.exitOwner state ∈
          machine.chart.exits active history (chosen.map Choice.move) ∨
        machine.exitOwner state ∈
          machine.chart.succeeding active history (chosen.map Choice.move) entries
  takes : ∀ choice ∈ chosen, choice.candidate.actions.any Action.spawns = true →
    machine.chart.domain
        (machine.chart.recordedBy active history (chosen.map Choice.move)) choice.move ∈
      machine.chart.succeeding active history (chosen.map Choice.move) entries

/-- No state is parallel. -/
def Sequential : Prop :=
  ∀ state < machine.chart.size, machine.chart.isParallel state = false

/-- Each transition that starts an actor has a target. -/
def SpawnsOnTheWay : Prop :=
  ∀ source < machine.chart.size,
    ∀ transition ∈ (machine.conduct source).transitions,
      ∀ candidate ∈ transition.candidates,
        candidate.actions.any Action.spawns = true → candidate.targets ≠ []

instance : Decidable machine.Sequential :=
  inferInstanceAs (Decidable (∀ state < _, _ = false))

instance : Decidable machine.SpawnsOnTheWay :=
  inferInstanceAs (Decidable (∀ source < _, ∀ transition ∈ _, ∀ candidate ∈ _, _ → _ ≠ []))

end Declaring

/-- Every step that can be reached is tidy. -/
def StepsTidily (machine : Machine ActorLogic) : Prop :=
  ∀ active history chosen entries, machine.Reaches active history →
    machine.Selects active history chosen →
    machine.chart.entries?
        (machine.chart.recordedBy active history (chosen.map Choice.move))
        (chosen.map Choice.move) = some entries →
      machine.Tidy active history chosen entries

section Stepping

variable {machine : Machine ActorLogic} (formed : machine.WellFormed)
variable {active : Configuration} {history : HistoryRecords}
variable {chosen : List (Choice ActorLogic)} {entries : StateSet} {choice : Choice ActorLogic}

include formed

/-- The domain of a transition that leaves something is not left, since of two transitions
that leave a common state only one is taken. -/
theorem Selects.domain_not_left
    (selects : machine.Selects active history chosen)
    (member : choice ∈ chosen)
    (leaves : machine.chart.exitsOf active history choice.move ≠ []) :
    machine.chart.domain history choice.move ∉
      machine.chart.exits active history (chosen.map Choice.move) := by
  obtain ⟨trigger, context, event, selection, selected, rfl⟩ := selects
  intro left
  obtain ⟨_, other, isOther, targeted, inside⟩ := Chart.mem_exits.mp left
  obtain ⟨state, leaving⟩ := List.exists_mem_of_ne_nil _ leaves
  obtain ⟨_, isActive, below⟩ := Chart.mem_exitsOf.mp leaving
  have leavesToo : state ∈ machine.chart.exitsOf active history other :=
    Chart.mem_exitsOf.mpr ⟨targeted, isActive, Chart.inside_trans formed.chart below inside⟩
  by_cases same : choice.move = other
  · rw [same, Chart.not_inside_self formed.chart] at inside
    cases inside
  · have symmetric : Std.Symm fun first second : Move =>
        ∀ state ∈ machine.chart.exitsOf active history first,
          state ∉ machine.chart.exitsOf active history second :=
      ⟨fun _ _ apart state second first => apart state first second⟩
    exact (select_disjoint selected).forall (List.mem_map_of_mem member) isOther same state
      leaving leavesToo

/-- In a valid configuration a step is tidy exactly if each domain that a transition starts
an actor for is entered again if it is left. -/
theorem Selects.tidy_iff
    (selects : machine.Selects active history chosen)
    (planned : machine.chart.entries?
      (machine.chart.recordedBy active history (chosen.map Choice.move))
      (chosen.map Choice.move) = some entries)
    (valid : machine.chart.Valid active)
    (sound : machine.chart.Sound history) :
    machine.Tidy active history chosen entries ↔
      ∀ choice ∈ chosen, choice.candidate.actions.any Action.spawns = true →
        machine.chart.domain
            (machine.chart.recordedBy active history (chosen.map Choice.move)) choice.move ∈
          machine.chart.exits active history (chosen.map Choice.move) →
        machine.chart.domain
            (machine.chart.recordedBy active history (chosen.map Choice.move)) choice.move ∈
          entries := by
  constructor
  · intro tidy choice member spawns left
    rcases Chart.mem_succeeding.mp (tidy.takes choice member spawns) with entered | stays
    · exact entered
    · exact absurd left (StateSet.mem_removeAll.mp stays).2
  · intro again
    -- Whatever is active stays so unless it is left.
    have remains : ∀ state ∈ active,
        (state ∈ machine.chart.exits active history (chosen.map Choice.move) →
          state ∈ entries) →
        state ∈ machine.chart.succeeding active history (chosen.map Choice.move) entries := by
      intro state isActive entered
      by_cases left : state ∈ machine.chart.exits active history (chosen.map Choice.move)
      · exact Chart.mem_succeeding.mpr (.inl (entered left))
      · exact Chart.mem_succeeding.mpr (.inr (StateSet.mem_removeAll.mpr ⟨isActive, left⟩))
    constructor
    · intro state left _
      have isActive := (Chart.mem_exits.mp left).1
      have ownerActive : machine.exitOwner state ∈ active := by
        unfold exitOwner
        cases above : machine.chart.parent? state with
        | none => exact isActive
        | some parent => exact valid.parentActive state isActive parent above
      by_cases ownerLeft : machine.exitOwner state ∈
          machine.chart.exits active history (chosen.map Choice.move)
      · exact .inl ownerLeft
      · exact .inr (remains _ ownerActive fun left => absurd left ownerLeft)
    · intro choice member spawns
      have fits := (selects.steps planned).fits formed valid
      have recorded := Chart.recordedBy_sound formed.chart valid.ordinary sound
        (chosen.map Choice.move)
      exact remains _
        (Chart.domain_active formed.chart valid recorded fits (List.mem_map_of_mem member))
        (again choice member spawns)

end Stepping

section Planning

variable {machine : Machine ActorLogic} (formed : machine.WellFormed)
variable {active : Configuration} {history : HistoryRecords}
variable {chosen : List (Choice ActorLogic)} {entries : StateSet}

theorem enabledFrom_first
    {trigger : Trigger} {sight : Guard.Sight} {leaves : List StateId}
    {found enabled : List (Choice ActorLogic)}
    (listed : machine.enabledFrom trigger sight leaves found = .ok enabled) :
    ∀ choice ∈ enabled, choice ∈ found ∨ ∃ leaf ∈ leaves,
      machine.firstChoice trigger sight (leaf :: machine.chart.ancestors leaf) =
        .ok (some choice) := by
  induction leaves generalizing found with
  | nil =>
      obtain rfl : found = enabled := by simpa [enabledFrom] using listed
      exact fun choice member => .inl member
  | cons leaf leaves ih =>
      unfold enabledFrom at listed
      split at listed
      · rename_i new first
        intro choice member
        rcases ih listed choice member with known | ⟨other, isOther, offered⟩
        · rcases mem_addChoice known with old | rfl
          · exact .inl old
          · exact .inr ⟨leaf, List.mem_cons_self, first⟩
        · exact .inr ⟨other, List.mem_cons_of_mem leaf isOther, offered⟩
      · cases listed

include formed

theorem Sequential.nested
    (sequential : machine.Sequential)
    (valid : machine.chart.Valid active)
    {first second : StateId}
    (firstActive : first ∈ active)
    (secondActive : second ∈ active) :
    machine.chart.Within first second ∨ machine.chart.Within second first := by
  induction first using Nat.strongRecOn with
  | _ first ih =>
      have inRange := valid.inRange first firstActive
      by_cases top : first = Chart.root
      · right
        rw [top]
        exact Chart.within_root formed.chart (valid.inRange second secondActive)
      · obtain ⟨parent, below⟩ := formed.chart.parented inRange top
        have parentActive := valid.parentActive first firstActive parent below
        rcases ih parent (formed.chart.parentBefore below) parentActive with
          within | same | inside
        · exact .inl (Chart.within_trans formed.chart
            (.inr (Chart.inside_of_parent formed.chart below)) within)
        · left
          rw [same]
          exact .inr (Chart.inside_of_parent formed.chart below)
        · -- The parent is compound, so its child towards the second state is the first.
          right
          obtain ⟨child, childBelow, within⟩ := Chart.child_toward formed.chart inside
          have compound : machine.chart.isCompound parent = true := by
            rcases Chart.parent_kind formed.chart below with ⟨initial, kind⟩ | kind
            · simp [Chart.isCompound, kind]
            · have parallel : machine.chart.isParallel parent = true := by
                simp [Chart.isParallel, kind]
              rw [sequential parent (valid.inRange parent parentActive)] at parallel
              cases parallel
          have same := valid.siblings_eq formed.chart compound below childBelow firstActive
            (valid.withinActive formed.chart secondActive within)
          rw [same]
          exact within

theorem Sequential.chosen_eq
    (sequential : machine.Sequential)
    (valid : machine.chart.Valid active)
    (selects : machine.Selects active history chosen) :
    ∀ first ∈ chosen, ∀ second ∈ chosen, first = second := by
  obtain ⟨trigger, context, event, selection, selected, rfl⟩ := selects
  have leaf_eq : ∀ {first second : StateId}, first ∈ machine.chart.leaves active →
      second ∈ machine.chart.leaves active → machine.chart.Within first second →
        first = second := fun _ isLeaf within =>
    Chart.eq_of_within_leaf formed.chart (List.mem_filter.mp isLeaf).2 within
  unfold Machine.select at selected
  split at selected
  · rename_i enabled listed
    cases selected
    have offered := enabledFrom_first listed
    intro first isFirst second isSecond
    rcases offered first (withoutConflicts_subset first isFirst) with none | ⟨one, isOne, found⟩
    · cases none
    · rcases offered second (withoutConflicts_subset second isSecond) with
        none | ⟨two, isTwo, alsoFound⟩
      · cases none
      · have same : one = two := by
          rcases sequential.nested formed valid (List.mem_filter.mp isOne).1
              (List.mem_filter.mp isTwo).1 with within | within
          · exact leaf_eq isOne isTwo within
          · exact (leaf_eq isTwo isOne within).symm
        rw [same, alsoFound] at found
        exact (Option.some.inj (Except.ok.inj found)).symm
  · cases selected

/-- Plain moves make tidy steps if no other transition is taken with one that starts an
actor on the spot. -/
theorem Plain.stepsTidily
    (plain : machine.Plain)
    (apart : machine.Sequential ∨ machine.SpawnsOnTheWay) :
    machine.StepsTidily := by
  rintro active history chosen entries ⟨visits, chronicle⟩ selects planned
  have valid := plain.valid formed chronicle
  have sound := (chronicle.tenable formed).sound
  have steps := selects.steps planned
  have fits := steps.fits formed valid
  have plainMoves := plain.step_plain formed valid steps
  refine (selects.tidy_iff formed planned valid sound).mpr ?_
  intro choice member spawns left
  exfalso
  have isMove : choice.move ∈ chosen.map Choice.move := List.mem_map_of_mem member
  have sameDomain : machine.chart.domain
      (machine.chart.recordedBy active history (chosen.map Choice.move)) choice.move =
        machine.chart.domain history choice.move := by
    by_cases targetless : choice.move.targets = []
    · simp [Chart.domain, Chart.staysInside, Chart.effectiveTargets, Chart.effectiveWithin,
        targetless]
    · exact Chart.domain_plain (plainMoves _ isMove) targetless _ _
  rw [sameDomain] at left
  rcases apart with sequential | onTheWay
  · obtain ⟨_, other, isOther, _, inside⟩ := Chart.mem_exits.mp left
    obtain ⟨taken, isTaken, rfl⟩ := List.mem_map.mp isOther
    rw [sequential.chosen_eq formed valid selects choice member taken isTaken,
      Chart.not_inside_self formed.chart] at inside
    cases inside
  · have targeted : choice.move.targets ≠ [] := by
      obtain ⟨trigger, context, event, selection, selected, rfl⟩ := selects
      have offers := select_offers formed.chart valid selected choice member
      obtain ⟨transition, isTransition, isCandidate⟩ := offers.declared
      exact onTheWay choice.ref.source (valid.inRange _ offers.sourceActive) transition
        isTransition choice.candidate isCandidate spawns
    have stays := Chart.domain_stays formed.chart valid sound fits plainMoves steps.disjoint
      isMove targeted
    exact (StateSet.mem_removeAll.mp stays).2 left

end Planning

end Machine

end Statechart
