import Statechart.Proofs.Chronicle

/-!
# Plain moves

A move is plain if it has no targets, or a single one that is no history state and lies
strictly inside a compound domain.  Plain moves do not go wrong: those taken together
have domains that lie apart, and each enters one branch below its own domain.  So a
machine that declares no other moves takes lawful steps only, and none of them enters a
state that stays active.
-/

namespace Statechart

/-- Does the move have no targets, or one ordinary target strictly inside a compound
domain? -/
def Move.isPlain (move : Move) (chart : Chart) : Bool :=
  match move.targets with
  | [] => true
  | [target] =>
      !chart.isHistory target &&
        chart.isCompound (chart.domain HistoryRecords.empty move) &&
        chart.isInside target (chart.domain HistoryRecords.empty move)
  | _ => false

/-- All moves that the states of the machine declare are plain. -/
def Machine.Plain {L : Type} (machine : Machine L) : Prop :=
  ∀ source < machine.chart.size,
    ∀ transition ∈ (machine.conduct source).transitions,
      ∀ candidate ∈ transition.candidates,
        Move.isPlain
          { source, targets := candidate.targets, reenter := candidate.reenter }
          machine.chart = true

instance {L : Type} (machine : Machine L) : Decidable machine.Plain :=
  inferInstanceAs (Decidable (∀ source < _, ∀ transition ∈ _, ∀ candidate ∈ _, _ = true))

/-- The move leads to one ordinary state strictly inside its domain, which is compound,
whatever is recorded. -/
structure Move.Aims (move : Move) (chart : Chart) (target domain : StateId) : Prop where
  only : move.targets = [target]
  ordinary : chart.isHistory target = false
  compound : chart.isCompound domain = true
  inside : chart.isInside target domain = true
  bounded : ∀ records, chart.domain records move = domain

namespace Chart

theorem effectiveTargets_ordinary
    {chart : Chart} {target : StateId}
    (records : HistoryRecords)
    (ordinary : chart.isHistory target = false) :
    chart.effectiveTargets records [target] = [target] := by
  cases kind : chart.kind target with
  | history memory defaults => simp [isHistory, kind] at ordinary
  | atomic => simp [effectiveTargets, effectiveWithin, kind, StateSet.insert]
  | compound initial => simp [effectiveTargets, effectiveWithin, kind, StateSet.insert]
  | parallel => simp [effectiveTargets, effectiveWithin, kind, StateSet.insert]
  | final => simp [effectiveTargets, effectiveWithin, kind, StateSet.insert]

theorem aims_of_isPlain
    {chart : Chart} {move : Move}
    (plain : move.isPlain chart = true)
    (targeted : move.targets ≠ []) :
    ∃ target domain, move.Aims chart target domain := by
  unfold Move.isPlain at plain
  split at plain
  · rename_i targetless
    exact absurd targetless targeted
  · rename_i target only
    simp only [Bool.and_eq_true, Bool.not_eq_true'] at plain
    obtain ⟨⟨ordinary, compound⟩, inside⟩ := plain
    refine ⟨target, _, only, ordinary, compound, inside, ?_⟩
    intro records
    simp only [domain, staysInside, only, effectiveTargets_ordinary _ ordinary]
  · cases plain

section Planning

variable {chart : Chart} (formed : chart.WellFormed) {records : HistoryRecords}

include formed

theorem coverOne_inside
    {fuel : Nat} {first : StateId} {before after : StateSet}
    (filled : (if chart.isParallel first then
      chart.fillRegions (chart.enterBelow records fuel) first before
      else some before) = some after) :
    ∀ state ∈ after, state ∈ before ∨ chart.isInside state first = true := by
  intro state member
  by_cases known : state ∈ before
  · exact .inl known
  · obtain ⟨grown, _⟩ := coverOne_extends formed (enterBelow_completes formed fuel) filled
    obtain ⟨_, region, isRegion, _, within, _⟩ := grown.fitting state member known
    exact .inr (within_inside_trans formed within
      (inside_of_parent formed ((mem_regions formed).mp isRegion).1))

/-- The parent of a state can be planned if all that is planned in `outer` lies in the
state, since then nothing is planned beside the parent. -/
theorem insert_parent_unforked
    {state parent outer : StateId} {before : StateSet}
    (below : chart.parent? state = some parent)
    (further : chart.isInside parent outer = true)
    (only : ∀ other ∈ before, chart.isInside other outer = true →
      chart.Within other state)
    (unforked : chart.Unforked before) :
    chart.Unforked (StateSet.insert parent before) := by
  apply unforked.insert
  intro other known above parentBelow otherBelow _
  exfalso
  have otherWithin := only other known
    (inside_within_trans formed (inside_of_parent formed otherBelow)
      (parent_within formed parentBelow further))
  have otherInside := within_inside_trans formed otherWithin
    (inside_of_parent formed below)
  have looped := within_inside_trans formed (parent_within formed otherBelow otherInside)
    (inside_of_parent formed parentBelow)
  rw [not_inside_self formed] at looped
  cases looped

theorem coverOne_unforked
    {fuel : Nat} {first : StateId} {before after : StateSet}
    (filled : (if chart.isParallel first then
      chart.fillRegions (chart.enterBelow records fuel) first before
      else some before) = some after)
    (unforked : chart.Unforked before) :
    chart.Unforked after := by
  by_cases parallel : chart.isParallel first = true
  · rw [if_pos parallel] at filled
    exact fillRegions_unforked formed
      (fun region isRegion _ _ grown free forkless =>
        enterBelow_unforked formed ((mem_regions formed).mp isRegion).2 grown free
          forkless) parallel filled unforked
  · rw [if_neg parallel] at filled
    obtain rfl := Option.some.inj filled
    exact unforked

/-- Going up from a state to one that it lies in, where nothing else is planned yet, forks
no compound state and plans nothing outside. -/
theorem climb_unforked
    {fuel : Nat} {state outer : StateId} {before after : StateSet}
    (inside : chart.isInside state outer = true)
    (only : ∀ other ∈ before, chart.isInside other outer = true →
      chart.Within other state)
    (unforked : chart.Unforked before)
    (climbed : chart.enterAbove (chart.enterBelow records fuel)
      (fun above => chart.isInside above outer) (chart.between state outer) before =
        some after) :
    chart.Unforked after ∧
      ∀ other ∈ after, other ∈ before ∨ chart.isInside other outer = true := by
  induction state using Nat.strongRecOn generalizing before with
  | _ state ih =>
      obtain ⟨parent, below, within⟩ := (isInside_iff_parent formed).mp inside
      rcases within with same | further
      · rw [← same, between_parent formed below] at climbed
        obtain rfl : before = after := by simpa [enterAbove] using climbed
        exact ⟨unforked, fun other member => .inl member⟩
      · have apart : parent ≠ outer := by
          rintro rfl
          rw [not_inside_self formed] at further
          cases further
        have line : chart.between state outer = parent :: chart.between parent outer := by
          rw [between_of_parent formed below, if_neg apart]
        rw [line, enterAbove, List.foldlM_cons, Option.bind_eq_bind,
          Option.bind_eq_some_iff] at climbed
        obtain ⟨middle, stepped, rest⟩ := climbed
        simp only [further, if_true] at stepped
        have middleUnforked := coverOne_unforked formed stepped
          (insert_parent_unforked formed below further only unforked)
        have added := coverOne_inside formed stepped
        have middleOnly : ∀ other ∈ middle, chart.isInside other outer = true →
            chart.Within other parent := by
          intro other member otherInside
          rcases added other member with planned | deeper
          · rcases StateSet.mem_insert.mp planned with rfl | known
            · exact .inl rfl
            · exact .inr (within_inside_trans formed (only other known otherInside)
                (inside_of_parent formed below))
          · exact .inr deeper
        obtain ⟨afterUnforked, climbs⟩ := ih parent (formed.parentBefore below) further
          middleOnly middleUnforked rest
        refine ⟨afterUnforked, ?_⟩
        intro other member
        rcases climbs other member with planned | climbed
        · rcases added other planned with planted | deeper
          · rcases StateSet.mem_insert.mp planted with rfl | known
            · exact .inr further
            · exact .inl known
          · exact .inr (inside_trans formed deeper further)
        · exact .inr climbed

/-- A move with a single target below its compound domain forks no compound state if
nothing is planned inside the domain, and plans nothing outside. -/
theorem planMove_unforked
    {move : Move} {target domain : StateId} {before after : StateSet}
    (aims : move.Aims chart target domain)
    (free : ∀ other ∈ before, chart.isInside other domain = false)
    (unforked : chart.Unforked before)
    (planned : chart.planMove records move before = some after) :
    chart.Unforked after ∧
      ∀ other ∈ after, other ∈ before ∨ chart.isInside other domain = true := by
  have anew : entersAnew domain move target = true := by
    cases stays : entersAnew domain move target with
    | true => rfl
    | false =>
        have inside := aims.inside
        rw [(source_of_not_entersAnew stays).2.1, not_inside_self formed] at inside
        cases inside
  simp only [planMove, aims.only, aims.bounded, List.isEmpty_cons, Bool.false_eq_true,
    if_false, List.foldlM_cons, List.foldlM_nil, anew, if_true, planUnlessHistory,
    aims.ordinary, effectiveTargets_ordinary records aims.ordinary, Option.bind_eq_bind,
    Option.pure_def, Option.bind_eq_some_iff, Option.some.injEq, exists_eq_right] at planned
  obtain ⟨middle, planted, climbed⟩ := planned
  have outside : ∀ other ∈ before, ∀ inner, chart.Within inner domain →
      chart.isInside other inner = false := by
    intro other known inner within
    cases inside : chart.isInside other inner with
    | false => rfl
    | true =>
        have deeper := inside_within_trans formed inside within
        rw [free other known] at deeper
        cases deeper
  have started : chart.Unforked (StateSet.insert target before) := by
    apply unforked.insert
    intro other known parent targetBelow otherBelow _
    have inside := inside_of_parent formed otherBelow
    rw [outside other known parent (parent_within formed targetBelow aims.inside)] at inside
    cases inside
  have middleUnforked : chart.Unforked middle := by
    apply enterBelow_unforked formed aims.ordinary planted _ started
    intro other member
    rcases StateSet.mem_insert.mp member with rfl | known
    · exact not_inside_self formed
    · exact outside other known target (.inr aims.inside)
  obtain ⟨grown, _⟩ := plant_extends (enterBelow_completes formed chart.entryBound)
    aims.ordinary planted
  have added : ∀ other ∈ middle, other ∈ before ∨ chart.Within other target := by
    intro other member
    by_cases known : other ∈ before
    · exact .inl known
    · exact .inr (grown.fitting other member known)
  obtain ⟨afterUnforked, climbs⟩ := climb_unforked formed aims.inside (by
    intro other member inside
    rcases added other member with known | within
    · rw [free other known] at inside
      cases inside
    · exact within) middleUnforked climbed
  refine ⟨afterUnforked, ?_⟩
  intro other member
  rcases climbs other member with middleMember | inside
  · rcases added other middleMember with known | within
    · exact .inl known
    · exact .inr (within_inside_trans formed within aims.inside)
  · exact .inr inside

end Planning

/-- No state lies inside the domains of both moves. -/
def Apart (chart : Chart) (first second : Move) : Prop :=
  first.targets ≠ [] → second.targets ≠ [] → ∀ records state,
    chart.isInside state (chart.domain records first) = true →
      chart.isInside state (chart.domain records second) = false

theorem Apart.symm
    {chart : Chart} {first second : Move}
    (apart : chart.Apart first second) :
    chart.Apart second first := by
  intro secondTargeted firstTargeted records state insideSecond
  cases insideFirst : chart.isInside state (chart.domain records first) with
  | false => rfl
  | true =>
      rw [apart firstTargeted secondTargeted records state insideFirst] at insideSecond
      cases insideSecond

instance (chart : Chart) : Std.Symm chart.Apart := ⟨fun _ _ => Apart.symm⟩

theorem domain_plain
    {chart : Chart} {move : Move}
    (plain : move.isPlain chart = true)
    (targeted : move.targets ≠ [])
    (records others : HistoryRecords) :
    chart.domain records move = chart.domain others move := by
  obtain ⟨target, domain, aims⟩ := aims_of_isPlain plain targeted
  rw [aims.bounded, aims.bounded]

theorem BelowDomain.plain
    {chart : Chart} {records : HistoryRecords} {moves : List Move} {state : StateId}
    (below : chart.BelowDomain records moves state)
    (plain : ∀ move ∈ moves, move.isPlain chart = true)
    (others : HistoryRecords) :
    chart.BelowDomain others moves state := by
  obtain ⟨move, chosen, targeted, inside⟩ := below
  rw [domain_plain (plain move chosen) targeted records others] at inside
  exact ⟨move, chosen, targeted, inside⟩

section Step

variable {chart : Chart} (formed : chart.WellFormed)
variable {active : Configuration} {records : HistoryRecords} {moves : List Move}
variable {entries : StateSet}

include formed

/-- Plain moves that lie apart fork no compound state, and plan nothing outside their
domains. -/
theorem entries_unforked
    {before : StateSet}
    (plain : ∀ move ∈ moves, move.isPlain chart = true)
    (apart : moves.Pairwise chart.Apart)
    (free : ∀ other ∈ before, ¬ chart.BelowDomain records moves other)
    (unforked : chart.Unforked before)
    (planned : moves.foldlM (fun planned move => chart.planMove records move planned)
      before = some entries) :
    chart.Unforked entries ∧
      ∀ state ∈ entries, state ∈ before ∨ chart.BelowDomain records moves state := by
  induction moves generalizing before with
  | nil =>
      obtain rfl : before = entries := by simpa using planned
      exact ⟨unforked, fun state member => .inl member⟩
  | cons move rest ih =>
      obtain ⟨apartFromRest, restApart⟩ := List.pairwise_cons.mp apart
      have restPlain := fun other member => plain other (List.mem_cons_of_mem move member)
      rw [List.foldlM_cons, Option.bind_eq_bind, Option.bind_eq_some_iff] at planned
      obtain ⟨middle, stepped, later⟩ := planned
      have enlarge : ∀ {state}, chart.BelowDomain records rest state →
          chart.BelowDomain records (move :: rest) state := by
        rintro state ⟨other, chosen, targeted, inside⟩
        exact ⟨other, List.mem_cons_of_mem move chosen, targeted, inside⟩
      have planOne : chart.Unforked middle ∧ ∀ state ∈ middle, state ∈ before ∨
          move.targets ≠ [] ∧ chart.isInside state (chart.domain records move) = true := by
        by_cases targetless : move.targets = []
        · obtain rfl : before = middle := by simpa [planMove, targetless] using stepped
          exact ⟨unforked, fun state member => .inl member⟩
        · obtain ⟨target, domain, aims⟩ :=
            aims_of_isPlain (plain move List.mem_cons_self) targetless
          obtain ⟨middleUnforked, added⟩ := planMove_unforked formed aims (by
            intro other known
            cases inside : chart.isInside other domain with
            | false => rfl
            | true =>
                rw [← aims.bounded records] at inside
                exact absurd ⟨move, List.mem_cons_self, targetless, inside⟩
                  (free other known)) unforked stepped
          refine ⟨middleUnforked, ?_⟩
          intro state member
          rw [aims.bounded]
          exact (added state member).imp_right fun inside => ⟨targetless, inside⟩
      obtain ⟨middleUnforked, added⟩ := planOne
      obtain ⟨entriesUnforked, climbs⟩ := ih restPlain restApart (by
        intro other member below
        rcases added other member with known | ⟨targeted, inside⟩
        · exact free other known (enlarge below)
        · obtain ⟨further, chosen, furtherTargeted, furtherInside⟩ := below
          rw [apartFromRest further chosen targeted furtherTargeted records other inside]
            at furtherInside
          cases furtherInside) middleUnforked later
      refine ⟨entriesUnforked, ?_⟩
      intro state member
      rcases climbs state member with middleMember | below
      · rcases added state middleMember with known | ⟨targeted, inside⟩
        · exact .inl known
        · exact .inr ⟨move, List.mem_cons_self, targeted, inside⟩
      · exact .inr (enlarge below)

variable (valid : chart.Valid active) (sound : chart.Sound records)
variable (fits : ∀ move ∈ moves, move.Fits chart active)
variable (plain : ∀ move ∈ moves, move.isPlain chart = true)

include valid sound fits plain

/-- Plain moves that leave different states lie apart: each leaves the active child of
its domain. -/
theorem apart_of_disjoint
    {first second : Move}
    (isFirst : first ∈ moves)
    (isSecond : second ∈ moves)
    (disjoint : ∀ state ∈ chart.exitsOf active records first,
      state ∉ chart.exitsOf active records second) :
    chart.Apart first second := by
  intro firstTargeted secondTargeted others state insideFirst
  cases insideSecond : chart.isInside state (chart.domain others second) with
  | false => rfl
  | true =>
      exfalso
      have childOf : ∀ move ∈ moves, move.targets ≠ [] → ∃ child ∈ active,
          chart.isInside child (chart.domain records move) = true := by
        intro move chosen targeted
        obtain ⟨target, domain, aims⟩ := aims_of_isPlain (plain move chosen) targeted
        have isActive := domain_active formed valid sound fits chosen
        rw [aims.bounded] at isActive ⊢
        obtain ⟨child, isRegion, childActive, _⟩ :=
          valid.compoundChild domain isActive aims.compound
        exact ⟨child, childActive,
          inside_of_parent formed ((mem_regions formed).mp isRegion).1⟩
      have clash : ∀ child ∈ active,
          chart.isInside child (chart.domain records first) = true →
          chart.isInside child (chart.domain records second) = true → False := by
        intro child isActive inFirst inSecond
        exact disjoint child (mem_exitsOf.mpr ⟨firstTargeted, isActive, inFirst⟩)
          (mem_exitsOf.mpr ⟨secondTargeted, isActive, inSecond⟩)
      rw [domain_plain (plain first isFirst) firstTargeted others records] at insideFirst
      rw [domain_plain (plain second isSecond) secondTargeted others records] at insideSecond
      rcases within_or_inside formed (.inr insideFirst) (.inr insideSecond) with
        within | inside
      · obtain ⟨child, isActive, inFirst⟩ := childOf first isFirst firstTargeted
        exact clash child isActive inFirst (inside_within_trans formed inFirst within)
      · obtain ⟨child, isActive, inSecond⟩ := childOf second isSecond secondTargeted
        exact clash child isActive (inside_trans formed inSecond inside) inSecond

variable (disjoint : moves.Pairwise fun first second =>
  ∀ state ∈ chart.exitsOf active records first,
    state ∉ chart.exitsOf active records second)
variable (entered : chart.entries? (chart.recordedBy active records moves) moves =
  some entries)

include disjoint

theorem plain_apart : moves.Pairwise chart.Apart :=
  disjoint.imp_of_mem fun isFirst isSecond =>
    apart_of_disjoint formed valid sound fits plain isFirst isSecond

theorem domain_stays
    {move : Move}
    (chosen : move ∈ moves)
    (targeted : move.targets ≠ []) :
    chart.domain records move ∈ chart.staying active records moves := by
  refine mem_staying.mpr ⟨domain_active formed valid sound fits chosen, ?_⟩
  rintro ⟨other, otherChosen, otherTargeted, inside⟩
  by_cases same : move = other
  · rw [same, not_inside_self formed] at inside
    cases inside
  · have apart : chart.Apart move other :=
      (plain_apart formed valid sound fits plain disjoint).forall chosen otherChosen same
    obtain ⟨target, domain, aims⟩ := aims_of_isPlain (plain move chosen) targeted
    have targetInside : chart.isInside target (chart.domain records move) = true := by
      rw [aims.bounded]
      exact aims.inside
    have deeper := inside_trans formed targetInside inside
    rw [apart targeted otherTargeted records target targetInside] at deeper
    cases deeper

include entered

/-- Plain moves enter nothing outside their domains, and no two children of a compound
state. -/
theorem plain_entries :
    chart.Unforked entries ∧ chart.Contained records moves entries := by
  have apart := plain_apart formed valid sound fits plain disjoint
  have empty : chart.Unforked [] := by
    intro first member
    cases member
  obtain ⟨unforked, below⟩ :=
    entries_unforked formed plain apart (by simp) empty entered
  refine ⟨unforked, ?_⟩
  intro state member
  rcases below state member with known | found
  · cases known
  · exact found.plain plain records

theorem plain_anchored
    {move : Move} {parent : StateId}
    (chosen : move ∈ moves)
    (targeted : move.targets ≠ [])
    (anchors : chart.Anchors (chart.recordedBy active records moves) move parent) :
    parent ∈ entries ∨ parent ∈ chart.staying active records moves := by
  have planned : chart.Planned (chart.recordedBy active records moves) moves entries :=
    entries_planned formed (recordedBy_sound formed valid.ordinary sound moves) entered
  obtain ⟨target, domain, aims⟩ := aims_of_isPlain (plain move chosen) targeted
  have stays := domain_stays formed valid sound fits plain disjoint chosen targeted
  rw [aims.bounded] at stays
  cases anchors with
  | domain isDomain =>
      rw [aims.bounded] at isDomain
      exact .inr (isDomain ▸ stays)
  | @target other isTarget above =>
      rw [aims.only] at isTarget
      obtain rfl : other = target := by simpa using isTarget
      rcases parent_within formed above aims.inside with same | further
      · exact .inr (same ▸ stays)
      · left
        apply (planned.reaches move chosen targeted).climbed other
        · rw [aims.only, effectiveTargets_ordinary _ aims.ordinary]
          exact List.mem_cons_self
        · rw [aims.bounded]
          exact (mem_between formed aims.inside).mpr
            ⟨inside_of_parent formed above, further⟩
        · rw [aims.bounded]
          exact further
  | @line effective isEffective inLine outside =>
      rw [aims.only, effectiveTargets_ordinary _ aims.ordinary] at isEffective
      obtain rfl : effective = target := by simpa using isEffective
      rw [aims.bounded] at inLine outside
      rw [((mem_between formed aims.inside).mp inLine).2] at outside
      cases outside

omit fits disjoint in
theorem plain_replenished
    {move : Move}
    (chosen : move ∈ moves)
    (targeted : move.targets ≠ []) :
    chart.Filled entries (chart.domain records move) := by
  have planned : chart.Planned (chart.recordedBy active records moves) moves entries :=
    entries_planned formed (recordedBy_sound formed valid.ordinary sound moves) entered
  obtain ⟨target, domain, aims⟩ := aims_of_isPlain (plain move chosen) targeted
  rw [aims.bounded]
  constructor
  · intro _
    have isEffective : target ∈ chart.effectiveTargets
        (chart.recordedBy active records moves) move.targets := by
      rw [aims.only, effectiveTargets_ordinary _ aims.ordinary]
      exact List.mem_cons_self
    rcases (planned.reaches move chosen targeted).effective target isEffective with
      isEntered | ⟨_, isDomain⟩
    · exact ⟨target, isEntered, aims.inside⟩
    · have inside := aims.inside
      rw [aims.bounded] at isDomain
      rw [isDomain, not_inside_self formed] at inside
      cases inside
  · intro parallel
    have compound := aims.compound
    cases kind : chart.kind domain <;> simp_all [isParallel, isCompound]

/-- A step of plain moves is lawful. -/
theorem plain_lawful :
    chart.Lawful active records moves entries := by
  have planned : chart.Planned (chart.recordedBy active records moves) moves entries :=
    entries_planned formed (recordedBy_sound formed valid.ordinary sound moves) entered
  obtain ⟨unforked, contained⟩ :=
    plain_entries formed valid sound fits plain disjoint entered
  constructor
  · intro state member parent below
    rcases planned.hangs state member parent below with
      isEntered | ⟨move, chosen, targeted, anchors⟩
    · exact .inl isEntered
    · exact plain_anchored formed valid sound fits plain disjoint entered chosen targeted
        anchors
  · intro state member
    exact .inl (contained state member)
  · intro move chosen targeted _
    exact plain_replenished formed valid sound plain entered chosen targeted
  · exact unforked

end Step

end Chart

namespace Machine

variable {L : Type} {machine : Machine L}
variable {active : Configuration} {history : HistoryRecords}
variable {moves : List Move} {entries : StateSet}

theorem Plain.step_plain
    (formed : machine.WellFormed)
    (plain : machine.Plain)
    (valid : machine.chart.Valid active)
    (steps : machine.Steps active history moves entries) :
    ∀ move ∈ moves, move.isPlain machine.chart = true := by
  obtain ⟨trigger, context, event, selection, selected, rfl⟩ := steps.selected
  intro move member
  obtain ⟨choice, chosen, rfl⟩ := List.mem_map.mp member
  have offers := select_offers formed.chart valid selected choice chosen
  obtain ⟨transition, isTransition, isCandidate⟩ := offers.declared
  exact plain choice.ref.source (valid.inRange _ offers.sourceActive) transition isTransition
    choice.candidate isCandidate

theorem Steps.disjoint
    (steps : machine.Steps active history moves entries) :
    moves.Pairwise fun first second =>
      ∀ state ∈ machine.chart.exitsOf active history first,
        state ∉ machine.chart.exitsOf active history second := by
  obtain ⟨trigger, context, event, selection, selected, rfl⟩ := steps.selected
  exact select_disjoint selected

/-- A machine with plain moves only steps lawfully from a valid configuration, and enters
no state that stays active. -/
theorem Plain.step
    (formed : machine.WellFormed)
    (plain : machine.Plain)
    (valid : machine.chart.Valid active)
    (sound : machine.chart.Sound history)
    (steps : machine.Steps active history moves entries) :
    machine.chart.Lawful active history moves entries ∧
      machine.chart.Contained history moves entries := by
  have fits := steps.fits formed valid
  have plainMoves := plain.step_plain formed valid steps
  exact ⟨Chart.plain_lawful formed.chart valid sound fits plainMoves steps.disjoint
      steps.planned,
    (Chart.plain_entries formed.chart valid sound fits plainMoves steps.disjoint
      steps.planned).2⟩

/-- Whatever a machine with plain moves only reaches is a valid configuration. -/
theorem Plain.valid
    (formed : machine.WellFormed)
    (plain : machine.Plain)
    {visits : List Visit}
    (chronicle : machine.Chronicle visits active history) :
    machine.chart.Valid active := by
  induction chronicle with
  | start started => exact valid_start formed started
  | step earlier steps ih =>
      have sound := (earlier.tenable formed).sound
      exact (steps.valid_iff_lawful formed ih sound).mpr
        (plain.step formed ih sound steps).1

theorem Plain.stepsLawfully
    (formed : machine.WellFormed)
    (plain : machine.Plain) :
    machine.StepsLawfully := by
  rintro active history moves entries ⟨visits, chronicle⟩ steps
  exact (plain.step formed (plain.valid formed chronicle) (chronicle.tenable formed).sound
    steps).1

theorem Plain.stepsFreshly
    (formed : machine.WellFormed)
    (plain : machine.Plain) :
    machine.StepsFreshly := by
  rintro active history moves entries ⟨visits, chronicle⟩ steps state member stays
  obtain ⟨_, contained⟩ := plain.step formed (plain.valid formed chronicle)
    (chronicle.tenable formed).sound steps
  exact (Chart.mem_staying.mp stays).2 (contained state member)

end Machine

end Statechart
