import Statechart.Proofs.Entering
import Statechart.Proofs.Settling

/-!
# Planning ends, and where a machine starts

Completing a plan goes from a state to later ones, except where a history state restores
others; so planning has an answer exactly if all targets settle, and with sound records it
always has one.  Below a state in which nothing is planned it also plans only one child of
every compound state; hence the configuration in which a machine starts is valid.
-/

namespace Statechart.Chart

/-- No compound state has two planned children. -/
def Unforked (chart : Chart) (plan : StateSet) : Prop :=
  ∀ first ∈ plan, ∀ second ∈ plan, ∀ parent,
    chart.parent? first = some parent → chart.parent? second = some parent →
      chart.isCompound parent = true → first = second

/-- A set of states that holds what its members hang from and what they need below them is
a valid configuration if no compound state has two children in it. -/
theorem valid_of_filled
    {chart : Chart} {states : StateSet}
    (formed : chart.WellFormed)
    (rooted : root ∈ states)
    (inRange : ∀ state ∈ states, state < chart.size)
    (closed : ∀ state ∈ states, ∀ parent, chart.parent? state = some parent →
      parent ∈ states)
    (ordinary : ∀ state ∈ states, chart.isHistory state = false)
    (filled : ∀ state ∈ states, chart.Filled states state)
    (unforked : chart.Unforked states) :
    chart.Valid states := by
  have upward : ∀ state, state ∈ states → ∀ outer, chart.Within state outer →
      outer ∈ states := by
    intro state
    induction state using Nat.strongRecOn with
    | _ state ih =>
        intro member outer within
        rcases within with rfl | inside
        · exact member
        · obtain ⟨parent, below, further⟩ := (isInside_iff_parent formed).mp inside
          exact ih parent (formed.parentBefore below) (closed state member parent below)
            outer further
  constructor
  · exact rooted
  · exact inRange
  · exact closed
  · intro state member compound
    obtain ⟨below, planned, inside⟩ := (filled state member).compound compound
    obtain ⟨child, childBelow, within⟩ := child_toward formed inside
    have childMember := upward below planned child within
    refine ⟨child, (mem_regions formed).mpr ⟨childBelow, ordinary child childMember⟩,
      childMember, ?_⟩
    intro other isRegion otherMember
    exact unforked other otherMember child childMember state
      ((mem_regions formed).mp isRegion).1 childBelow compound
  · intro state member parallel region isRegion
    obtain ⟨below, planned, within⟩ := (filled state member).parallel parallel region isRegion
    exact upward below planned region within
  · exact ordinary

section Ending

variable {chart : Chart} (formed : chart.WellFormed) {records : HistoryRecords}

omit formed in
theorem foldlM_ends
    {item : Type} (step : StateSet → item → Option StateSet) (items : List item)
    (ends : ∀ next ∈ items, ∀ plan, ∃ after, step plan next = some after)
    (before : StateSet) :
    ∃ after, items.foldlM step before = some after := by
  induction items generalizing before with
  | nil => exact ⟨before, rfl⟩
  | cons next items ih =>
      obtain ⟨middle, stepped⟩ := ends next List.mem_cons_self before
      obtain ⟨after, rest⟩ :=
        ih (fun other member => ends other (List.mem_cons_of_mem next member)) middle
      exact ⟨after, by simpa [stepped] using rest⟩

omit formed in
theorem fillRegions_ends
    {below : StateId → StateSet → Option StateSet} {parallel : StateId}
    (ends : ∀ region ∈ chart.regions parallel, ∀ plan, ∃ after,
      below region plan = some after)
    (before : StateSet) :
    ∃ after, chart.fillRegions below parallel before = some after := by
  refine foldlM_ends _ _ ?_ before
  intro region isRegion plan
  by_cases known : chart.covered plan region = true
  · exact ⟨plan, by simp [known]⟩
  · obtain ⟨after, completed⟩ := ends region isRegion (StateSet.insert region plan)
    exact ⟨after, by simpa [known] using completed⟩

omit formed in
theorem enterAbove_ends
    {below : StateId → StateSet → Option StateSet} {allowed : StateId → Bool}
    (ends : ∀ parallel plan, ∃ after, chart.fillRegions below parallel plan = some after)
    (line : List StateId) (before : StateSet) :
    ∃ after, chart.enterAbove below allowed line before = some after := by
  refine foldlM_ends _ _ ?_ before
  intro above _ plan
  by_cases parallel : chart.isParallel above = true
  · obtain ⟨after, filled⟩ := ends above
      (if allowed above then StateSet.insert above plan else plan)
    exact ⟨after, by simpa [parallel] using filled⟩
  · exact ⟨if allowed above then StateSet.insert above plan else plan,
      by simp [parallel]⟩

include formed

/-- Every step of a completion below a state that can be active leads to a later state. -/
theorem enterBelow_ends
    {fuel : Nat} {state : StateId}
    (ordinary : chart.isHistory state = false)
    (fuelled : 0 < fuel)
    (enough : chart.size ≤ state + fuel)
    (before : StateSet) :
    ∃ after, chart.enterBelow records fuel state before = some after := by
  induction fuel generalizing state before with
  | zero => exact absurd fuelled (Nat.lt_irrefl 0)
  | succ fuel ih =>
      have further : ∀ region ∈ chart.regions state, ∀ plan, ∃ after,
          chart.enterBelow records fuel region plan = some after := by
        intro region isRegion plan
        obtain ⟨below, regionOrdinary⟩ := (mem_regions formed).mp isRegion
        have later : state + 1 ≤ region := formed.parentBefore below
        have inRange : region < chart.size := parent_in_range below
        have reached : chart.size ≤ region + fuel :=
          calc chart.size ≤ state + (fuel + 1) := enough
            _ = (state + 1) + fuel := by rw [Nat.add_assoc, Nat.add_comm 1 fuel]
            _ ≤ region + fuel := Nat.add_le_add_right later fuel
        have positive : 0 < fuel :=
          Nat.pos_of_lt_add_right (Nat.lt_of_lt_of_le inRange reached)
        exact ih regionOrdinary positive reached plan
      cases kind : chart.kind state with
      | history memory defaults => simp [isHistory, kind] at ordinary
      | atomic => exact ⟨before, by simp [enterBelow, kind]⟩
      | final => exact ⟨before, by simp [enterBelow, kind]⟩
      | compound initial =>
          rw [enterBelow_compound formed kind]
          exact further initial (formed.initialBelow kind) (StateSet.insert initial before)
      | parallel =>
          obtain ⟨after, filled⟩ := fillRegions_ends further before
          exact ⟨after, by simpa [enterBelow, kind] using filled⟩

theorem enterBelow_ends_of_size
    {fuel : Nat}
    (enough : chart.size < fuel)
    {state : StateId}
    (ordinary : chart.isHistory state = false)
    (before : StateSet) :
    ∃ after, chart.enterBelow records fuel state before = some after :=
  enterBelow_ends formed ordinary (Nat.zero_lt_of_lt enough)
    (Nat.le_trans (Nat.le_of_lt enough) (Nat.le_add_left fuel state)) before

theorem fillRegions_ends_of_size
    {fuel : Nat}
    (enough : chart.size < fuel)
    (parallel : StateId) (before : StateSet) :
    ∃ after, chart.fillRegions (chart.enterBelow records fuel) parallel before =
      some after :=
  fillRegions_ends (fun _ isRegion plan => enterBelow_ends_of_size formed enough
    ((mem_regions formed).mp isRegion).2 plan) before

/-- Completing a plan has an answer for a target that settles within the rounds for which
there is fuel. -/
theorem enterTarget_ends
    {rounds fuel : Nat} {target : StateId}
    (settles : chart.SettlesIn records rounds target)
    (enough : chart.size + rounds < fuel)
    (before : StateSet) :
    ∃ after, chart.enterBelow records fuel target before = some after := by
  induction rounds generalizing target fuel before with
  | zero => exact enterBelow_ends_of_size formed enough settles before
  | succ rounds ih =>
      obtain ⟨fuel, rfl⟩ := Nat.exists_eq_succ_of_ne_zero (Nat.ne_zero_of_lt enough)
      have less : chart.size + rounds < fuel := Nat.lt_of_succ_lt_succ enough
      have fuelled : chart.size < fuel := Nat.lt_of_le_of_lt (Nat.le_add_right _ _) less
      rcases settles with ordinary | restored
      · exact enterBelow_ends_of_size formed (Nat.lt_succ_of_lt fuelled) ordinary before
      · cases kind : chart.kind target with
        | history memory defaults =>
            have history : chart.isHistory target = true := by simp [isHistory, kind]
            obtain ⟨parent, above⟩ := history_has_parent formed history
            have states : chart.standsFor records target =
                (records.memory? target).getD defaults := by
              simp [standsFor, kind]
            obtain ⟨middle, planted⟩ := foldlM_ends
              (fun planned state => chart.enterBelow records fuel state
                (chart.planUnlessHistory state planned))
              (chart.standsFor records target)
              (fun state stands plan => ih (restored state stands) less _) before
            obtain ⟨after, climbed⟩ := foldlM_ends
              (fun planned state =>
                chart.enterAbove (chart.enterBelow records fuel) (fun _ => true)
                  (chart.between state parent) planned)
              (chart.standsFor records target)
              (fun state _ plan => enterAbove_ends
                (fillRegions_ends_of_size formed fuelled) _ plan) middle
            rw [states] at planted climbed
            exact ⟨after, by simp [enterBelow, kind, planted, above, climbed]⟩
        | _ =>
            exact enterBelow_ends_of_size formed (Nat.lt_succ_of_lt fuelled)
              (by simp [isHistory, kind]) before

omit formed in
theorem foldlM_fails
    {item : Type} (step : StateSet → item → Option StateSet) {items : List item} {next : item}
    (member : next ∈ items)
    (fails : ∀ plan, step plan next = none)
    (before : StateSet) :
    items.foldlM step before = none := by
  induction items generalizing before with
  | nil => cases member
  | cons first items ih =>
      rw [List.foldlM_cons]
      rcases List.mem_cons.mp member with rfl | later
      · rw [fails before]
        rfl
      · cases stepped : step before first with
        | none => rfl
        | some middle => exact ih later middle

omit formed in
/-- Completing a plan has no answer for a target that does not settle. -/
theorem enterTarget_fails
    (fuel : Nat) {target : StateId}
    (unsettled : ¬ chart.Settles records target)
    (before : StateSet) :
    chart.enterBelow records fuel target before = none := by
  induction fuel generalizing target before with
  | zero => rfl
  | succ fuel ih =>
      obtain ⟨history, restored, stands, stillUnsettled⟩ := exists_unsettled unsettled
      cases kind : chart.kind target with
      | history memory defaults =>
          have member : restored ∈ (records.memory? target).getD defaults := by
            simpa [standsFor, kind] using stands
          have planting := foldlM_fails
            (fun planned state => chart.enterBelow records fuel state
              (chart.planUnlessHistory state planned))
            member (fun plan => ih stillUnsettled _) before
          simp [enterBelow, kind, planting]
      | _ => simp [isHistory, kind] at history

omit formed in
/-- The bound leaves room for restoring as often as there are states, and then completing. -/
theorem twice_size_lt_entryBound (chart : Chart) : chart.size + chart.size < chart.entryBound := by
  have product : 4 * (chart.size + 1) ≤ chart.entryBound :=
    Nat.le_mul_of_pos_right _ (Nat.succ_pos chart.size)
  omega

/-- Planning what a move enters has an answer exactly if all its targets settle. -/
theorem planMove_eq_none_iff
    (move : Move) (before : StateSet) :
    chart.planMove records move before = none ↔
      ∃ target ∈ move.targets, ¬ chart.Settles records target := by
  by_cases targetless : move.targets = []
  · simp [planMove, targetless]
  · have enough := twice_size_lt_entryBound chart
    constructor
    · intro failed
      by_contra none
      push Not at none
      obtain ⟨middle, planted⟩ := foldlM_ends
        (fun planned target =>
          chart.enterBelow records chart.entryBound target
            (if entersAnew (chart.domain records move) move target then
              chart.planUnlessHistory target planned else planned))
        move.targets
        (fun target member plan =>
          enterTarget_ends formed (none target member).settlesIn enough _) before
      obtain ⟨after, climbed⟩ := foldlM_ends
        (fun planned target =>
          chart.enterAbove (chart.enterBelow records chart.entryBound)
            (fun ancestor => chart.isInside ancestor (chart.domain records move))
            (chart.between target (chart.domain records move)) planned)
        (chart.effectiveTargets records move.targets)
        (fun target _ plan => enterAbove_ends
          (fillRegions_ends_of_size formed (Nat.lt_of_le_of_lt (Nat.le_add_right _ _) enough))
          _ plan) middle
      simp [planMove, targetless, planted, climbed] at failed
    · rintro ⟨target, member, unsettled⟩
      have planting := foldlM_fails
        (fun planned target =>
          chart.enterBelow records chart.entryBound target
            (if entersAnew (chart.domain records move) move target then
              chart.planUnlessHistory target planned else planned))
        member (fun plan => enterTarget_fails _ unsettled _) before
      simp [planMove, targetless, planting]

/-- Planning a step has an answer exactly if all targets of its moves settle. -/
theorem entries_eq_none_iff
    (moves : List Move) :
    chart.entries? records moves = none ↔
      ∃ move ∈ moves, ∃ target ∈ move.targets, ¬ chart.Settles records target := by
  constructor
  · intro failed
    by_contra none
    push Not at none
    obtain ⟨entries, planned⟩ := foldlM_ends
      (fun planned move => chart.planMove records move planned) moves
      (fun move member plan => by
        cases planned : chart.planMove records move plan with
        | none =>
            obtain ⟨target, isTarget, unsettled⟩ :=
              (planMove_eq_none_iff formed move plan).mp planned
            exact absurd (none move member target isTarget) unsettled
        | some after => exact ⟨after, rfl⟩) []
    exact Option.some_ne_none entries (planned.symm.trans failed)
  · rintro ⟨move, member, unsettled⟩
    exact foldlM_fails _ member
      (fun plan => (planMove_eq_none_iff formed move plan).mpr unsettled) []

/-- With sound records, planning a step has an answer. -/
theorem entries_end
    (sound : chart.Sound records)
    (moves : List Move) :
    ∃ entries, chart.entries? records moves = some entries := by
  refine Option.ne_none_iff_exists'.mp fun failed => ?_
  obtain ⟨_, _, target, _, unsettled⟩ := (entries_eq_none_iff formed moves).mp failed
  exact unsettled (settles_of_sound formed sound target)

end Ending

section Starting

variable {chart : Chart} (formed : chart.WellFormed) {records : HistoryRecords}

/-- Planning a state forks no compound state if its parent has no planned child yet. -/
theorem Unforked.insert
    {plan : StateSet} {state : StateId}
    (unforked : chart.Unforked plan)
    (alone : ∀ other ∈ plan, ∀ parent, chart.parent? state = some parent →
      chart.parent? other = some parent → chart.isCompound parent = true →
        other = state) :
    chart.Unforked (StateSet.insert state plan) := by
  intro first firstIn second secondIn parent firstBelow secondBelow compound
  rcases StateSet.mem_insert.mp firstIn with rfl | firstKnown
  · rcases StateSet.mem_insert.mp secondIn with rfl | secondKnown
    · rfl
    · exact (alone second secondKnown parent firstBelow secondBelow compound).symm
  · rcases StateSet.mem_insert.mp secondIn with rfl | secondKnown
    · exact alone first firstKnown parent secondBelow firstBelow compound
    · exact unforked first firstKnown second secondKnown parent firstBelow secondBelow
        compound

include formed

/-- Covering the regions of a parallel state forks no compound state if completing below
a region in which nothing is planned forks none. -/
theorem fillRegions_unforked
    {below : StateId → StateSet → Option StateSet} {parallel : StateId}
    {before after : StateSet}
    (forkless : ∀ region ∈ chart.regions parallel, ∀ {plan grown},
      below region plan = some grown →
      (∀ state ∈ plan, chart.isInside state region = false) →
      chart.Unforked plan → chart.Unforked grown)
    (isParallel : chart.isParallel parallel = true)
    (filled : chart.fillRegions below parallel before = some after)
    (unforked : chart.Unforked before) :
    chart.Unforked after := by
  have areRegions : ∀ region ∈ chart.regions parallel,
      region ∈ chart.regions parallel := fun region member => member
  unfold fillRegions at filled
  generalize listed : chart.regions parallel = regions at filled
  have sublist : ∀ region ∈ regions, region ∈ chart.regions parallel := by
    intro region member
    rw [listed]
    exact member
  clear listed areRegions
  induction regions generalizing before with
  | nil =>
      obtain rfl : before = after := by simpa using filled
      exact unforked
  | cons region regions ih =>
      rw [List.foldlM_cons, Option.bind_eq_bind, Option.bind_eq_some_iff] at filled
      obtain ⟨middle, stepped, rest⟩ := filled
      refine ih ?_ rest fun other member => sublist other (List.mem_cons_of_mem region member)
      have isRegion := sublist region List.mem_cons_self
      by_cases known : chart.covered before region = true
      · rw [if_pos known] at stepped
        obtain rfl : before = middle := Option.some.inj stepped
        exact unforked
      · rw [if_neg known] at stepped
        have uncovered : ¬ chart.Covers before region :=
          fun covers => known (covered_iff.mpr covers)
        apply forkless region isRegion stepped
        · intro state member
          rcases StateSet.mem_insert.mp member with rfl | held
          · exact not_inside_self formed
          · cases inside : chart.isInside state region with
            | false => rfl
            | true => exact absurd ⟨state, held, .inr inside⟩ uncovered
        · apply unforked.insert
          intro other _ parent regionBelow _ compound
          have same : parallel = parent := by
            rw [((mem_regions formed).mp isRegion).1] at regionBelow
            exact Option.some.inj regionBelow
          subst same
          cases kind : chart.kind parallel <;>
            simp_all [Chart.isParallel, isCompound]

theorem enterBelow_unforked
    {fuel : Nat} {state : StateId} {before after : StateSet}
    (ordinary : chart.isHistory state = false)
    (completed : chart.enterBelow records fuel state before = some after)
    (empty : ∀ other ∈ before, chart.isInside other state = false)
    (unforked : chart.Unforked before) :
    chart.Unforked after := by
  induction fuel generalizing state before after with
  | zero => simp [enterBelow] at completed
  | succ fuel ih =>
      cases kind : chart.kind state with
      | history memory defaults => simp [isHistory, kind] at ordinary
      | atomic =>
          obtain rfl : before = after := by simpa [enterBelow, kind] using completed
          exact unforked
      | final =>
          obtain rfl : before = after := by simpa [enterBelow, kind] using completed
          exact unforked
      | compound initial =>
          obtain ⟨initialBelow, initialOrdinary⟩ :=
            (mem_regions formed).mp (formed.initialBelow kind)
          have initialInside := inside_of_parent formed initialBelow
          rw [enterBelow_compound formed kind] at completed
          apply ih initialOrdinary completed
          · intro other member
            rcases StateSet.mem_insert.mp member with rfl | held
            · exact not_inside_self formed
            · cases inside : chart.isInside other initial with
              | false => rfl
              | true =>
                  have deeper := inside_trans formed inside initialInside
                  rw [empty other held] at deeper
                  cases deeper
          · apply unforked.insert
            intro other held parent above otherAbove _
            obtain rfl : state = parent := by
              rw [initialBelow] at above
              exact Option.some.inj above
            have inside := inside_of_parent formed otherAbove
            rw [empty other held] at inside
            cases inside
      | parallel =>
          have planned : chart.fillRegions (chart.enterBelow records fuel) state before =
              some after := by
            simpa [enterBelow, kind] using completed
          exact fillRegions_unforked formed
            (fun region isRegion _ _ grown free forkless =>
              ih ((mem_regions formed).mp isRegion).2 grown free forkless)
            (by simp [isParallel, kind]) planned unforked

/-- The configuration in which a machine starts is valid. -/
theorem initialEntries_valid
    {entries : StateSet}
    (started : chart.initialEntries? = some entries) :
    chart.Valid entries := by
  obtain ⟨grown, filledRoot⟩ :=
    enterBelow_completes formed chart.entryBound formed.rootOrdinary started
  have rooted : root ∈ entries := grown.keeps root List.mem_cons_self
  have fresh : ∀ state ∈ entries, state = root ∨ state ∉ [root] := by
    intro state _
    by_cases top : state = root
    · exact .inl top
    · exact .inr (by simpa using top)
  apply valid_of_filled formed rooted
  · intro state member
    rcases fresh state member with rfl | new
    · exact formed.nonempty
    · exact inside_in_range formed (grown.fitting state member new)
  · intro state member parent below
    rcases fresh state member with rfl | new
    · rw [formed.rootOnTop] at below
      cases below
    · rcases grown.hangs state member new parent below with planned | rfl
      · exact planned
      · exact rooted
  · intro state member
    rcases fresh state member with rfl | new
    · exact formed.rootOrdinary
    · exact grown.ordinary state member new
  · intro state member
    rcases fresh state member with rfl | new
    · exact filledRoot
    · exact grown.filled state member new
  · apply enterBelow_unforked formed formed.rootOrdinary started
    · intro other member
      obtain rfl : other = root := by simpa using member
      exact not_inside_self formed
    · intro first firstIn second secondIn parent below _ _
      obtain rfl : first = root := by simpa using firstIn
      rw [formed.rootOnTop] at below
      cases below

theorem initialEntries_end : ∃ entries, chart.initialEntries? = some entries :=
  enterBelow_ends_of_size formed
    (Nat.lt_trans (Nat.lt_succ_self chart.size) (size_lt_entryBound chart))
    formed.rootOrdinary [root]

end Starting

end Statechart.Chart
