import Mathlib.Data.List.Induction
import Statechart.Proofs.TryingInTurn

/-!
# Searching from every leaf

A selection is made in two passes.  From each active leaf, in document order, the first open
choice on the way up is found; a guard that fails on the way ends everything.  Then the choices
found are sifted in that order: each is kept unless it leaves a state that a kept one leaves
too, and the conflict that reports this names the first kept one that does.
-/

namespace Statechart

variable {L : Type}

namespace Machine

/-- Both choices leave some state. -/
def Collide (machine : Machine L) (active : Configuration) (history : HistoryRecords)
    (first second : Choice L) : Prop :=
  ∃ state, state ∈ machine.chart.exitsOf active history first.move ∧
    state ∈ machine.chart.exitsOf active history second.move

/-- The choices found from some leaves: each once, in the order of the first leaves from which
they are found, and no two of one state. -/
structure Gathered (machine : Machine L) (trigger : Trigger) (sight : Guard.Sight)
    (leaves : List StateId) (found : List (Choice L)) : Prop where
  mem_iff : ∀ choice, choice ∈ found ↔
    ∃ leaf ∈ leaves, machine.Searched trigger sight leaf (.ok (some choice))
  once : (found.map fun choice => choice.ref.source).Nodup
  inOrder : found.Pairwise fun first second =>
    ∃ leaf ∈ leaves, machine.Searched trigger sight leaf (.ok (some first)) ∧
      ∀ later ∈ leaves, machine.Searched trigger sight later (.ok (some second)) → leaf < later

/-- A choice that gave way to another, and the conflict that tells of it. -/
structure GivesWay (machine : Machine L) (active : Configuration) (history : HistoryRecords)
    (event : Event) (found kept : List (Choice L)) (winner loser : Choice L)
    (conflict : Conflict) : Prop where
  collide : machine.Collide active history winner loser
  /-- Of the kept choices that it collides with the winner is the first. -/
  first : ∃ front back, kept = front ++ winner :: back ∧
    ∀ other ∈ front, ¬ machine.Collide active history other loser
  earlier : [winner, loser].Sublist found
  told : conflict =
    { event := event.type
      kept := machine.chart.id winner.ref.source
      discarded := machine.chart.id loser.ref.source }

/-- What sifting makes of the choices found: they are divided into those kept, of which no two
collide, and those discarded, each of which a conflict tells of. -/
structure Sifted (machine : Machine L) (active : Configuration) (history : HistoryRecords)
    (event : Event) (found : List (Choice L)) (selection : Selection L)
    (discarded : List (Choice L)) : Prop where
  divided : found.Perm (selection.chosen ++ discarded)
  chosenInOrder : selection.chosen.Sublist found
  discardedInOrder : discarded.Sublist found
  apart : selection.chosen.Pairwise fun first second =>
    ¬ machine.Collide active history first second
  told : List.Forall₂ (fun loser conflict => ∃ winner,
      machine.GivesWay active history event found selection.chosen winner loser conflict)
    discarded selection.conflicts

section Gathering

variable {machine : Machine L} {trigger : Trigger} {sight : Guard.Sight}
variable {leaves done : List StateId} {found enabled : List (Choice L)} {leaf : StateId}

theorem Gathered.nil : machine.Gathered trigger sight [] [] where
  mem_iff := by simp
  once := .nil
  inOrder := .nil

theorem Gathered.idle
    (gathered : machine.Gathered trigger sight done found)
    (searched : machine.Searched trigger sight leaf (.ok none)) :
    machine.Gathered trigger sight (done ++ [leaf]) found := by
  have nothing : ∀ choice, ¬ machine.Searched trigger sight leaf (.ok (some choice)) := by
    intro choice finds
    cases searched.unique finds
  refine ⟨fun choice => ?_, gathered.once, gathered.inOrder.imp ?_⟩
  · rw [gathered.mem_iff]
    simp [or_and_right, exists_or, nothing]
  · rintro first second ⟨early, isDone, finds, before⟩
    refine ⟨early, List.mem_append_left _ isDone, finds, fun later member findsLater => ?_⟩
    rcases List.mem_append.mp member with old | new
    · exact before later old findsLater
    · rw [List.mem_singleton] at new
      subst new
      exact absurd findsLater (nothing second)

theorem Gathered.add
    {choice : Choice L}
    (gathered : machine.Gathered trigger sight done found)
    (searched : machine.Searched trigger sight leaf (.ok (some choice)))
    (last : ∀ earlier ∈ done, earlier < leaf) :
    machine.Gathered trigger sight (done ++ [leaf]) (addChoice found (some choice)) := by
  have only : ∀ other, machine.Searched trigger sight leaf (.ok (some other)) ↔ other = choice := by
    intro other
    constructor
    · exact fun finds => Option.some.inj (Except.ok.inj (finds.unique searched))
    · rintro rfl
      exact searched
  have known : found.any (fun other => other.ref = choice.ref) = true ↔ choice ∈ found := by
    constructor
    · intro some
      obtain ⟨other, member, same⟩ := List.any_eq_true.mp some
      obtain ⟨_, _, finds⟩ := (gathered.mem_iff other).mp member
      rw [decide_eq_true_eq] at same
      rw [← finds.choice_unique searched (congrArg TransitionRef.source same)]
      exact member
    · exact fun member => List.any_eq_true.mpr ⟨choice, member, decide_eq_true rfl⟩
  have still : found.Pairwise fun first second =>
      ∃ early ∈ done ++ [leaf], machine.Searched trigger sight early (.ok (some first)) ∧
        ∀ later ∈ done ++ [leaf], machine.Searched trigger sight later (.ok (some second)) →
          early < later := by
    refine gathered.inOrder.imp ?_
    rintro first second ⟨early, isDone, finds, before⟩
    refine ⟨early, List.mem_append_left _ isDone, finds, fun later member findsLater => ?_⟩
    rcases List.mem_append.mp member with old | new
    · exact before later old findsLater
    · rw [List.mem_singleton] at new
      subst new
      exact last early isDone
  unfold addChoice
  dsimp only
  by_cases isKnown : choice ∈ found
  · rw [if_pos (known.mpr isKnown)]
    refine ⟨fun other => ?_, gathered.once, still⟩
    rw [gathered.mem_iff]
    constructor
    · rintro ⟨early, isDone, finds⟩
      exact ⟨early, List.mem_append_left _ isDone, finds⟩
    · rintro ⟨early, member, finds⟩
      rcases List.mem_append.mp member with old | new
      · exact ⟨early, old, finds⟩
      · rw [List.mem_singleton] at new
        subst new
        rw [only] at finds
        subst finds
        exact (gathered.mem_iff other).mp isKnown
  · rw [if_neg fun some => isKnown (known.mp some)]
    refine ⟨fun other => ?_, ?_, ?_⟩
    · simp [gathered.mem_iff, or_and_right, exists_or, only]
    · rw [List.map_append, List.map_singleton, List.nodup_append_comm, List.singleton_append,
        List.nodup_cons]
      refine ⟨fun member => ?_, gathered.once⟩
      obtain ⟨other, isFound, same⟩ := List.mem_map.mp member
      obtain ⟨_, _, finds⟩ := (gathered.mem_iff other).mp isFound
      rw [finds.choice_unique searched same] at isFound
      exact isKnown isFound
    · rw [List.pairwise_append]
      refine ⟨still, List.pairwise_singleton _ _, ?_⟩
      intro first isFirst second isSecond
      rw [List.mem_singleton] at isSecond
      subst isSecond
      obtain ⟨early, isDone, finds⟩ := (gathered.mem_iff first).mp isFirst
      refine ⟨early, List.mem_append_left _ isDone, finds, fun later member findsLater => ?_⟩
      rcases List.mem_append.mp member with old | new
      · exact absurd ((gathered.mem_iff second).mpr ⟨later, old, findsLater⟩) isKnown
      · rw [List.mem_singleton] at new
        subst new
        exact last early isDone

theorem enabledFrom_gathered
    (gathered : machine.Gathered trigger sight done found)
    (ordered : (done ++ leaves).Pairwise (· < ·))
    (listed : machine.enabledFrom trigger sight leaves found = .ok enabled) :
    machine.Gathered trigger sight (done ++ leaves) enabled := by
  induction leaves generalizing done found with
  | nil =>
      obtain rfl : found = enabled := by simpa [enabledFrom] using listed
      simpa using gathered
  | cons leaf leaves ih =>
      unfold enabledFrom at listed
      split at listed
      · rename_i first searched
        rw [firstChoice_eq_iff] at searched
        have last : ∀ earlier ∈ done, earlier < leaf := fun earlier isDone =>
          (List.pairwise_append.mp ordered).2.2 earlier isDone leaf List.mem_cons_self
        rw [List.append_cons] at ordered ⊢
        refine ih ?_ ordered listed
        cases first with
        | none => exact gathered.idle searched
        | some choice => exact gathered.add searched last
      · cases listed

theorem enabledFrom_error_iff
    {error : GuardError}
    (ordered : leaves.Pairwise (· < ·))
    (found : List (Choice L)) :
    machine.enabledFrom trigger sight leaves found = .error error ↔
      ∃ leaf ∈ leaves, machine.Searched trigger sight leaf (.error error) ∧
        ∀ earlier ∈ leaves, earlier < leaf →
          ∀ other, ¬ machine.Searched trigger sight earlier (.error other) := by
  induction leaves generalizing found with
  | nil => simp [enabledFrom]
  | cons leaf leaves ih =>
      obtain ⟨before, ordered⟩ := List.pairwise_cons.mp ordered
      unfold enabledFrom
      cases searched : machine.firstChoice trigger sight
          (leaf :: machine.chart.ancestors leaf) with
      | error reason =>
          rw [firstChoice_eq_iff] at searched
          constructor
          · rintro ⟨⟩
            refine ⟨leaf, List.mem_cons_self, searched, fun earlier member less => ?_⟩
            rcases List.mem_cons.mp member with rfl | later
            · exact absurd less (lt_irrefl _)
            · exact absurd less (before earlier later).asymm
          · rintro ⟨other, member, fails, first⟩
            rcases List.mem_cons.mp member with rfl | later
            · exact congrArg Except.error (Except.error.inj (searched.unique fails))
            · exact absurd searched (first leaf List.mem_cons_self (before other later) reason)
      | ok choice =>
          rw [firstChoice_eq_iff] at searched
          have passes : ∀ other, ¬ machine.Searched trigger sight leaf (.error other) := by
            intro other fails
            cases searched.unique fails
          dsimp only
          rw [ih ordered]
          constructor
          · rintro ⟨other, member, fails, first⟩
            refine ⟨other, List.mem_cons_of_mem leaf member, fails, fun earlier isLeaf less => ?_⟩
            rcases List.mem_cons.mp isLeaf with rfl | later
            · exact passes
            · exact first earlier later less
          · rintro ⟨other, member, fails, first⟩
            rcases List.mem_cons.mp member with rfl | later
            · exact absurd fails (passes error)
            · exact ⟨other, later, fails, fun earlier isLeaf =>
                first earlier (List.mem_cons_of_mem leaf isLeaf)⟩

end Gathering

section Sifting

variable {machine : Machine L} {active : Configuration} {history : HistoryRecords}
variable {event : Event} {found kept discarded : List (Choice L)} {selection : Selection L}

theorem GivesWay.later
    {winner loser : Choice L} {conflict : Conflict}
    (gives : machine.GivesWay active history event found kept winner loser conflict)
    (choice : Choice L) (more : List (Choice L)) :
    machine.GivesWay active history event (found ++ [choice]) (kept ++ more) winner loser
      conflict := by
  obtain ⟨front, back, rfl, before⟩ := gives.first
  exact
    { collide := gives.collide
      first := ⟨front, back ++ more, by simp, before⟩
      earlier := gives.earlier.trans (List.sublist_append_left found [choice])
      told := gives.told }

theorem collide_iff
    {first second : Choice L} :
    machine.Collide active history first second ↔
      (!StateSet.disjoint (machine.chart.exitsOf active history first.move)
        (machine.chart.exitsOf active history second.move)) = true := by
  rw [Bool.not_eq_true', ← Bool.not_eq_true, StateSet.disjoint_iff]
  simp [Collide]

theorem Sifted.nil :
    machine.Sifted active history event [] { chosen := [], conflicts := [] } [] where
  divided := .nil
  chosenInOrder := .slnil
  discardedInOrder := .slnil
  apart := .nil
  told := .nil

theorem Sifted.keep
    {choice : Choice L}
    (sifted : machine.Sifted active history event found selection discarded)
    (unrivalled : machine.rival? active history selection.chosen choice = none) :
    machine.Sifted active history event (found ++ [choice])
      { selection with chosen := selection.chosen ++ [choice] } discarded where
  divided := by
    have moved : (discarded ++ [choice]).Perm ([choice] ++ discarded) := List.perm_append_comm
    have grown := (sifted.divided.append_right [choice])
    rw [List.append_assoc] at grown ⊢
    exact grown.trans (moved.append_left selection.chosen)
  chosenInOrder := sifted.chosenInOrder.append (.refl _)
  discardedInOrder := sifted.discardedInOrder.trans (List.sublist_append_left _ _)
  apart := by
    rw [List.pairwise_append]
    refine ⟨sifted.apart, List.pairwise_singleton _ _, fun first isFirst second isSecond => ?_⟩
    rw [List.mem_singleton] at isSecond
    subst isSecond
    rw [collide_iff]
    exact List.find?_eq_none.mp unrivalled first isFirst
  told := sifted.told.imp fun _ _ ⟨winner, gives⟩ => ⟨winner, gives.later choice [choice]⟩

/-- A choice that collides with a kept one is discarded, and the first such is named. -/
theorem Sifted.discard
    {choice rival : Choice L}
    (sifted : machine.Sifted active history event found selection discarded)
    (rivalled : machine.rival? active history selection.chosen choice = some rival) :
    machine.Sifted active history event (found ++ [choice])
      { selection with
        conflicts := selection.conflicts ++
          [{ event := event.type
             kept := machine.chart.id rival.ref.source
             discarded := machine.chart.id choice.ref.source }] }
      (discarded ++ [choice]) where
  divided := by
    rw [← List.append_assoc]
    exact sifted.divided.append_right [choice]
  chosenInOrder := sifted.chosenInOrder.trans (List.sublist_append_left _ _)
  discardedInOrder := sifted.discardedInOrder.append (.refl _)
  apart := sifted.apart
  told := by
    obtain ⟨overlaps, front, back, split, before⟩ := List.find?_eq_some_iff_append.mp rivalled
    have isFound : rival ∈ found :=
      sifted.chosenInOrder.subset (List.mem_of_find?_eq_some rivalled)
    have gives : machine.GivesWay active history event (found ++ [choice]) selection.chosen rival
        choice _ :=
      { collide := collide_iff.mpr overlaps
        first := ⟨front, back, split, fun other member collides => by
          have free := before other member
          rw [collide_iff.mp collides] at free
          cases free⟩
        earlier := (List.singleton_sublist.mpr isFound).append (.refl [choice])
        told := rfl }
    refine List.rel_append (R := fun loser conflict => ∃ winner, machine.GivesWay active history
      event (found ++ [choice]) selection.chosen winner loser conflict) ?_
        (.cons ⟨rival, gives⟩ .nil)
    refine sifted.told.imp fun _ _ ⟨winner, earlier⟩ => ⟨winner, ?_⟩
    simpa using earlier.later choice []

theorem withoutConflicts_sifted
    (found : List (Choice L)) :
    ∃ discarded, machine.Sifted active history event found
      (machine.withoutConflicts active history event found) discarded := by
  induction found using List.reverseRecOn with
  | nil => exact ⟨[], .nil⟩
  | append_singleton found choice ih =>
      obtain ⟨discarded, sifted⟩ := ih
      have step : machine.withoutConflicts active history event (found ++ [choice]) = _ :=
        List.foldl_append
      rw [step, List.foldl_cons, List.foldl_nil]
      split
      · exact ⟨discarded ++ [choice], sifted.discard ‹_›⟩
      · exact ⟨discarded, sifted.keep ‹_›⟩

end Sifting

end Machine

namespace MachineSpec

variable {spec : MachineSpec L} {machine : Machine L}

/-- How a selection comes about.  In a built machine, whatever is active, recorded and known, a
selection fails exactly with the error of the first active leaf from which a guard fails before
an open choice is reached on the way up.  Otherwise the choices found from the leaves, each
counted once, in the order of the first leaves that find them, are divided into those chosen, of
which no two leave the same state, and those discarded.  Each of these leaves a state that a
chosen one, found earlier, leaves too, and the conflict names the first such one; as no two
choices found belong to one state, and no two states share a name, the name tells which. -/
theorem select_scans_leaves
    (built : spec.build = .ok machine)
    {active : Configuration}
    (ordered : active.Ordered)
    (trigger : Trigger) (history : HistoryRecords) (context : Json) (event : Event) :
    let sight : Guard.Sight := { chart := machine.chart, active, context, event }
    let leaves := machine.chart.leaves active
    (∀ error, machine.select trigger active history context event = .error error ↔
      ∃ leaf ∈ leaves, machine.Searched trigger sight leaf (.error error) ∧
        ∀ earlier ∈ leaves, earlier < leaf →
          ∀ other, ¬ machine.Searched trigger sight earlier (.error other)) ∧
    ∀ selection, machine.select trigger active history context event = .ok selection →
      ∃ found discarded,
        machine.Gathered trigger sight leaves found ∧
        (found.map fun choice => machine.chart.id choice.ref.source).Nodup ∧
        machine.Sifted active history event found selection discarded := by
  intro sight leaves
  have leavesOrdered : leaves.Pairwise (· < ·) := ordered.filter _
  constructor
  · intro error
    rw [← Machine.enabledFrom_error_iff leavesOrdered [], Machine.select]
    split
    · simp [sight, leaves, *]
    · simp [sight, leaves, *]
  · intro selection selected
    unfold Machine.select at selected
    split at selected
    · rename_i found listed
      cases selected
      have gathered : machine.Gathered trigger sight leaves found :=
        Machine.enabledFrom_gathered .nil leavesOrdered listed
      obtain ⟨discarded, sifted⟩ : ∃ discarded, machine.Sifted active history event found
          (machine.withoutConflicts active history event found) discarded :=
        Machine.withoutConflicts_sifted found
      refine ⟨found, discarded, gathered, ?_, sifted⟩
      have inRange : ∀ state ∈ found.map fun choice => choice.ref.source,
          state < machine.chart.size := by
        intro state member
        obtain ⟨choice, isFound, rfl⟩ := List.mem_map.mp member
        obtain ⟨_, _, finds⟩ := (gathered.mem_iff choice).mp isFound
        obtain ⟨_, transition, declared, _⟩ :=
          Machine.mem_choices (Machine.mem_of_firstOpen finds.chosen_at)
        obtain ⟨_, described⟩ := build_described built declared
        exact build_in_range built described
      have named := gathered.once.map_on fun first isFirst second isSecond same =>
        build_ids_distinct built (inRange first isFirst) (inRange second isSecond) same
      rwa [List.map_map] at named
    · cases selected

/-- Lamp and radio are on side by side; each, when all leave, would end both. -/
def house : MachineSpec L :=
  { root := .mk { key := "house" }
      [.mk { key := "home", kind := .parallel }
          [.mk { key := "lamp", transitions := [(.on "LEAVE", .toTarget "#house.away")] } [],
           .mk { key := "radio", transitions := [(.on "LEAVE", .toTarget "#house.away")] } []],
       .mk { key := "away" } []]
    context := some fun _ => .null }

/-- When all leave, the radio gives way to the lamp, which was asked first. -/
theorem select_scans_leaves_house :
    let machine : Machine Unit := house.machine fun _ => .null
    ∃ selection found winner loser,
      machine.select .event [0, 1, 2, 3] HistoryRecords.empty .null (Event.named "LEAVE") =
        .ok selection ∧
      machine.GivesWay [0, 1, 2, 3] HistoryRecords.empty (Event.named "LEAVE") found
        selection.chosen winner loser
        { event := "LEAVE", kept := "house.home.lamp", discarded := "house.home.radio" } := by
  intro machine
  have built : house.build = .ok machine := build_of_faultless (by decide +kernel) rfl
  have told : (machine.select .event [0, 1, 2, 3] HistoryRecords.empty .null
      (Event.named "LEAVE")).map Selection.conflicts =
        .ok [{ event := "LEAVE", kept := "house.home.lamp", discarded := "house.home.radio" }] := by
    decide +kernel
  have ordered : StateSet.Ordered [0, 1, 2, 3] := by simp [StateSet.Ordered]
  obtain ⟨_, sifts⟩ := select_scans_leaves built ordered .event HistoryRecords.empty .null
    (Event.named "LEAVE")
  cases selected : machine.select .event [0, 1, 2, 3] HistoryRecords.empty .null
      (Event.named "LEAVE") with
  | error error => simp [selected, Except.map] at told
  | ok selection =>
      obtain ⟨found, discarded, _, _, sifted⟩ := sifts selection selected
      rw [selected] at told
      have gives := sifted.told
      rw [show selection.conflicts = _ from Except.ok.inj told] at gives
      obtain ⟨loser, _, ⟨winner, yields⟩, _⟩ := List.forall₂_cons_right_iff.mp gives
      exact ⟨selection, found, winner, loser, rfl, yields⟩

end MachineSpec

end Statechart
