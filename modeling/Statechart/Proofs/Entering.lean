import Statechart.Proofs.Domains
import Statechart.Proofs.Planning

/-!
# What a step enters

The plan of a step, followed through its parts: completing below a state, restoring what
a history state stands for, planning one move, and planning all moves of a step.
`Chart.entries_planned` gathers the result: why each state is entered, what it has below
it, what it hangs from, and which states are entered in any case.
-/

namespace Statechart.Chart

theorem Sprouts.weaken
    {chart : Chart} {first before middle after : StateSet} {line : List StateId}
    {state : StateId}
    (sprouts : chart.Sprouts before middle line state)
    (earlier : ∀ state ∈ first, state ∈ before)
    (later : ∀ state ∈ middle, state ∈ after) :
    chart.Sprouts first after line state := by
  obtain ⟨parallel, inLine, isParallel, region, isRegion, planned, within, uncovered,
    alone⟩ := sprouts
  exact ⟨parallel, inLine, isParallel, region, isRegion, later region planned, within,
    fun covers => uncovered (covers.mono earlier), alone⟩

section Lines

variable {chart : Chart} (formed : chart.WellFormed)
variable {state outer : StateId}

include formed

theorem between_ordinary :
    ∀ above ∈ chart.between state outer, chart.isHistory above = false := by
  intro above member
  exact outer_ordinary formed
    ((isInside_iff_mem formed).mpr (between_subset_ancestors above member))

theorem between_held :
    ∀ above ∈ chart.between state outer, ∀ parent, chart.parent? above = some parent →
      parent ∈ chart.between state outer ∨ parent = outer := by
  induction state using Nat.strongRecOn with
  | _ state ih =>
      intro above member parent below
      cases top : chart.parent? state with
      | none =>
          rw [between_of_no_parent top] at member
          cases member
      | some near =>
          have recursive := ih near (formed.parentBefore top)
          rw [between_of_parent formed top] at member ⊢
          by_cases reached : near = outer
          · rw [if_pos reached] at member
            cases member
          · rw [if_neg reached] at member ⊢
            rcases List.mem_cons.mp member with rfl | further
            · by_cases ends : parent = outer
              · exact .inr ends
              · left
                rw [between_of_parent formed below, if_neg ends]
                exact List.mem_cons_of_mem _ List.mem_cons_self
            · rcases recursive above further parent below with inLine | ends
              · exact .inl (List.mem_cons_of_mem _ inLine)
              · exact .inr ends

end Lines

section Completing

variable {chart : Chart} (formed : chart.WellFormed) {records : HistoryRecords}

include formed

theorem enterBelow_compound
    {fuel : Nat} {state initial : StateId} {plan : StateSet}
    (kind : chart.kind state = .compound initial) :
    chart.enterBelow records (fuel + 1) state plan =
      chart.enterBelow records fuel initial (StateSet.insert initial plan) := by
  obtain ⟨initialBelow, initialOrdinary⟩ := (mem_regions formed).mp (formed.initialBelow kind)
  simp [enterBelow, kind, planUnlessHistory, initialOrdinary,
    between_parent formed initialBelow, enterAbove]

/-- Completing below a state that can be active, by recursion on the fuel. -/
theorem enterBelow_completes (fuel : Nat) :
    chart.Completes (chart.enterBelow records fuel) := by
  induction fuel with
  | zero =>
      intro state before after _ completed
      simp [enterBelow] at completed
  | succ fuel ih =>
      intro state before after ordinary completed
      cases kind : chart.kind state with
      | history memory defaults => simp [isHistory, kind] at ordinary
      | atomic =>
          have same : before = after := by simpa [enterBelow, kind] using completed
          subst same
          exact ⟨Extends.refl,
            filled_of_childless (by simp [isCompound, kind]) (by simp [isParallel, kind])⟩
      | final =>
          have same : before = after := by simpa [enterBelow, kind] using completed
          subst same
          exact ⟨Extends.refl,
            filled_of_childless (by simp [isCompound, kind]) (by simp [isParallel, kind])⟩
      | compound initial =>
          have isRegion := formed.initialBelow kind
          have inside := inside_of_parent formed ((mem_regions formed).mp isRegion).1
          rw [enterBelow_compound formed kind] at completed
          obtain ⟨grown, member⟩ := extends_region formed ih isRegion completed
          constructor
          · exact grown.mono
              (fun added _ _ within => within_inside_trans formed within inside)
              fun held same => .inr same
          · constructor
            · intro _
              exact ⟨initial, member, inside⟩
            · intro parallel
              simp [isParallel, kind] at parallel
      | parallel =>
          have planned : chart.fillRegions (chart.enterBelow records fuel) state before =
              some after := by
            simpa [enterBelow, kind] using completed
          obtain ⟨grown, covered⟩ := fillRegions_extends formed ih planned
          constructor
          · refine grown.mono ?_ fun held same => .inr same
            rintro added _ _ ⟨region, isRegion, _, within, _⟩
            exact within_inside_trans formed within
              (inside_of_parent formed ((mem_regions formed).mp isRegion).1)
          · constructor
            · intro compound
              simp [isCompound, kind] at compound
            · intro _
              exact covered

end Completing

section Several

variable {chart : Chart}
variable {below : StateId → StateSet → Option StateSet}
variable (completes : chart.Completes below)

include completes

theorem plantAll_extends
    {states : List StateId} {before after : StateSet}
    (ordinary : ∀ state ∈ states, chart.isHistory state = false)
    (planted : states.foldlM (fun planned state =>
      below state (chart.planUnlessHistory state planned)) before = some after) :
    chart.Extends before after (fun added => ∃ state ∈ states, chart.Within added state)
        (fun parent => ∃ state ∈ states, chart.parent? state = some parent) ∧
      ∀ state ∈ states, state ∈ after := by
  induction states generalizing before with
  | nil =>
      obtain rfl : before = after := by simpa using planted
      exact ⟨Extends.refl, by simp⟩
  | cons state states ih =>
      rw [List.foldlM_cons, Option.bind_eq_bind, Option.bind_eq_some_iff] at planted
      obtain ⟨middle, stepped, rest⟩ := planted
      have notHistory := ordinary state List.mem_cons_self
      have inserted : below state (StateSet.insert state before) = some middle := by
        simpa [planUnlessHistory, notHistory] using stepped
      obtain ⟨grown, member⟩ := plant_extends completes notHistory inserted
      obtain ⟨later, members⟩ := ih
        (fun other isOther => ordinary other (List.mem_cons_of_mem state isOther)) rest
      constructor
      · refine Extends.trans grown (later.mono ?_ ?_) ?_ ?_
        · rintro added _ _ ⟨other, isOther, within⟩
          exact ⟨other, List.mem_cons_of_mem state isOther, within⟩
        · rintro parent ⟨other, isOther, above⟩
          exact .inr ⟨other, List.mem_cons_of_mem state isOther, above⟩
        · intro added within
          exact ⟨state, List.mem_cons_self, within⟩
        · intro parent above
          exact .inr ⟨state, List.mem_cons_self, above⟩
      · intro other isOther
        rcases List.mem_cons.mp isOther with rfl | further
        · exact later.keeps other member
        · exact members other further

theorem climbAll_extends
    (formed : chart.WellFormed)
    {allowed : StateId → Bool} {states : List StateId} {outer : StateId}
    {before after : StateSet}
    (seeded : ∀ state ∈ states, ∀ above ∈ chart.between state outer,
      allowed above = true → ∃ seed ∈ before, chart.isInside seed above = true)
    (climbed : states.foldlM (fun planned state =>
      chart.enterAbove below allowed (chart.between state outer) planned) before =
        some after) :
    chart.Extends before after
        (fun added => ∃ state ∈ states,
          (added ∈ chart.between state outer ∧ allowed added = true) ∨
            chart.Sprouts before after (chart.between state outer) added)
        (fun parent => (∃ state ∈ states,
          parent ∈ chart.between state outer ∧ allowed parent = false) ∨
            parent = outer) ∧
      ∀ state ∈ states, ∀ above ∈ chart.between state outer,
        (allowed above = true → above ∈ after) ∧
        (chart.isParallel above = true →
          ∀ region ∈ chart.regions above, chart.Covers after region) := by
  induction states generalizing before with
  | nil =>
      obtain rfl : before = after := by simpa using climbed
      exact ⟨Extends.refl, by simp⟩
  | cons state states ih =>
      rw [List.foldlM_cons, Option.bind_eq_bind, Option.bind_eq_some_iff] at climbed
      obtain ⟨middle, stepped, rest⟩ := climbed
      obtain ⟨grown, passed, covered⟩ := enterAbove_extends formed completes
        (between_nested formed) (between_ordinary formed)
        (seeded state List.mem_cons_self) (between_held formed) stepped
      obtain ⟨later, others⟩ := ih (by
        intro other isOther above inLine isAllowed
        obtain ⟨seed, planned, inside⟩ :=
          seeded other (List.mem_cons_of_mem state isOther) above inLine isAllowed
        exact ⟨seed, grown.keeps seed planned, inside⟩) rest
      constructor
      · refine Extends.trans grown (later.mono ?_ ?_) ?_ ?_
        · rintro added _ _ ⟨other, isOther, found⟩
          refine ⟨other, List.mem_cons_of_mem state isOther, found.imp_right ?_⟩
          intro sprouts
          exact sprouts.weaken grown.keeps fun state member => member
        · rintro parent (⟨other, isOther, found⟩ | ends)
          · exact .inr (.inl ⟨other, List.mem_cons_of_mem state isOther, found⟩)
          · exact .inr (.inr ends)
        · intro added found
          refine ⟨state, List.mem_cons_self, found.imp_right ?_⟩
          intro sprouts
          exact sprouts.weaken (fun state member => member) later.keeps
        · rintro parent (found | ends)
          · exact .inr (.inl ⟨state, List.mem_cons_self, found⟩)
          · exact .inr (.inr ends)
      · intro other isOther above inLine
        rcases List.mem_cons.mp isOther with rfl | further
        · constructor
          · intro isAllowed
            exact later.keeps above (passed above inLine isAllowed)
          · intro parallel region isRegion
            exact (covered above inLine parallel region isRegion).mono later.keeps
        · exact others other further above inLine

end Several

/-- How a move gets a state into a plan. -/
inductive Enters (chart : Chart) (records : HistoryRecords) (move : Move)
    (before after : StateSet) (state : StateId) : Prop where
  /-- It lies in an effective target or is one. -/
  | below {target effective : StateId} :
      target ∈ move.targets → effective ∈ chart.standsFor records target →
      chart.Within state effective → Enters chart records move before after state
  /-- It lies between a restored state and the parent of the history state. -/
  | restoredLine {target effective parent : StateId} :
      target ∈ move.targets → chart.isHistory target = true →
      chart.parent? target = some parent → effective ∈ chart.standsFor records target →
      state ∈ chart.between effective parent → Enters chart records move before after state
  /-- It lies in a missing region on that line. -/
  | restoredRegion {target effective parent : StateId} :
      target ∈ move.targets → chart.isHistory target = true →
      chart.parent? target = some parent → effective ∈ chart.standsFor records target →
      chart.Sprouts before after (chart.between effective parent) state →
      Enters chart records move before after state
  /-- It lies between an effective target and the domain. -/
  | line {effective : StateId} :
      effective ∈ chart.effectiveTargets records move.targets →
      state ∈ chart.between effective (chart.domain records move) →
      chart.isInside state (chart.domain records move) = true →
      Enters chart records move before after state
  /-- It lies in a missing region on the line from an effective target upwards. -/
  | region {effective : StateId} :
      effective ∈ chart.effectiveTargets records move.targets →
      chart.Sprouts before after
        (chart.between effective (chart.domain records move)) state →
      Enters chart records move before after state

/-- What the states that a move enters may hang from without its being entered. -/
inductive Anchors (chart : Chart) (records : HistoryRecords) (move : Move)
    (state : StateId) : Prop where
  | target {target : StateId} :
      target ∈ move.targets → chart.parent? target = some state →
      Anchors chart records move state
  | domain : state = chart.domain records move → Anchors chart records move state
  | line {effective : StateId} :
      effective ∈ chart.effectiveTargets records move.targets →
      state ∈ chart.between effective (chart.domain records move) →
      chart.isInside state (chart.domain records move) = false →
      Anchors chart records move state

theorem Enters.weaken
    {chart : Chart} {records : HistoryRecords} {move : Move}
    {first before middle after : StateSet} {state : StateId}
    (enters : chart.Enters records move before middle state)
    (earlier : ∀ state ∈ first, state ∈ before)
    (later : ∀ state ∈ middle, state ∈ after) :
    chart.Enters records move first after state := by
  cases enters with
  | below isTarget stands within => exact .below isTarget stands within
  | restoredLine isTarget history above stands inLine =>
      exact .restoredLine isTarget history above stands inLine
  | restoredRegion isTarget history above stands sprouts =>
      exact .restoredRegion isTarget history above stands (sprouts.weaken earlier later)
  | line isEffective inLine inside => exact .line isEffective inLine inside
  | region isEffective sprouts => exact .region isEffective (sprouts.weaken earlier later)

theorem size_lt_entryBound (chart : Chart) : chart.size + 1 < chart.entryBound := by
  have squared : 4 * (chart.size + 1) * 1 ≤ 4 * (chart.size + 1) * (chart.size + 1) :=
    Nat.mul_le_mul_left _ (Nat.succ_le_succ (Nat.zero_le _))
  unfold entryBound
  omega

section Moves

variable {chart : Chart} (formed : chart.WellFormed) {records : HistoryRecords}

include formed

/-- Restoring what a history state stands for: the restored states with all below them,
and the lines from them to the parent of the history state. -/
theorem restore_extends
    {target parent : StateId} {before after : StateSet} {fuel : Nat}
    (sound : chart.Sound records)
    (history : chart.isHistory target = true)
    (above : chart.parent? target = some parent)
    (restored : chart.enterBelow records (fuel + 1) target before = some after) :
    chart.Extends before after
        (fun added => ∃ state ∈ chart.standsFor records target,
          chart.Within added state ∨ added ∈ chart.between state parent ∨
            chart.Sprouts before after (chart.between state parent) added)
        (fun held => held = parent) ∧
      ∀ state ∈ chart.standsFor records target,
        state ∈ after ∧ ∀ upper ∈ chart.between state parent, upper ∈ after := by
  cases kind : chart.kind target with
  | atomic => simp [isHistory, kind] at history
  | compound initial => simp [isHistory, kind] at history
  | parallel => simp [isHistory, kind] at history
  | final => simp [isHistory, kind] at history
  | history memory defaults =>
      have states : chart.standsFor records target =
          (records.memory? target).getD defaults := by
        simp [standsFor, kind]
      simp only [enterBelow, kind, above, ← states, Option.bind_eq_bind,
        Option.bind_eq_some_iff] at restored
      obtain ⟨middle, planted, climbed⟩ := restored
      have ordinary : ∀ state ∈ chart.standsFor records target,
          chart.isHistory state = false := fun state member =>
        standsFor_not_history formed sound member
      obtain ⟨grown, members⟩ := plantAll_extends
        (enterBelow_completes formed fuel) ordinary planted
      obtain ⟨later, lines⟩ := climbAll_extends
        (enterBelow_completes formed fuel) formed (by
          intro state member upper inLine _
          exact ⟨state, members state member,
            (isInside_iff_mem formed).mpr (between_subset_ancestors upper inLine)⟩) climbed
      have planned : ∀ state ∈ chart.standsFor records target,
          state ∈ after ∧ ∀ upper ∈ chart.between state parent, upper ∈ after := by
        intro state member
        exact ⟨later.keeps state (members state member),
          fun upper inLine => (lines state member upper inLine).1 rfl⟩
      refine ⟨?_, planned⟩
      refine Extends.trans grown (later.mono ?_ ?_) ?_ ?_
      · rintro added _ _ ⟨state, member, ⟨inLine, _⟩ | sprouts⟩
        · exact ⟨state, member, .inr (.inl inLine)⟩
        · exact ⟨state, member,
            .inr (.inr (sprouts.weaken grown.keeps fun state known => known))⟩
      · rintro held (⟨state, member, inLine, refused⟩ | ends)
        · cases refused
        · exact .inr ends
      · rintro added ⟨state, member, within⟩
        exact ⟨state, member, .inl within⟩
      · rintro held ⟨state, member, stateBelow⟩
        have inside := (standsFor_history formed sound history member).2 parent above
        rcases parent_within formed stateBelow inside with ends | further
        · exact .inr ends
        · left
          apply (planned state member).2
          exact (mem_between formed inside).mpr ⟨inside_of_parent formed stateBelow, further⟩

/-- Planning one target of a move.  A target that is source and domain of the move is not
planned itself, only what it needs below it. -/
theorem plantTarget_extends
    {move : Move} {domain target : StateId} {before after : StateSet} {fuel : Nat}
    (sound : chart.Sound records)
    (isTarget : target ∈ move.targets)
    (planted : chart.enterBelow records (fuel + 1) target
      (if entersAnew domain move target then chart.planUnlessHistory target before
        else before) = some after) :
    chart.Extends before after (chart.Enters records move before after)
        (fun parent => chart.parent? target = some parent ∨
          parent = target ∧ entersAnew domain move target = false) ∧
      ∀ state ∈ chart.standsFor records target,
        (state ∈ after ∨ state = target ∧ entersAnew domain move target = false) ∧
        (chart.isHistory target = true → state ∈ after ∧
          ∀ parent, chart.parent? target = some parent →
            ∀ upper ∈ chart.between state parent, upper ∈ after) := by
  cases history : chart.isHistory target with
  | true =>
      obtain ⟨parent, above⟩ := history_has_parent formed history
      have restored : chart.enterBelow records (fuel + 1) target before =
          some after := by
        simpa [planUnlessHistory, history] using planted
      obtain ⟨restores, planned⟩ :=
        restore_extends formed sound history above restored
      constructor
      · refine restores.mono ?_ ?_
        · rintro added _ _ ⟨state, stands, within | inLine | sprouts⟩
          · exact .below isTarget stands within
          · exact .restoredLine isTarget history above stands inLine
          · exact .restoredRegion isTarget history above stands sprouts
        · rintro held rfl
          exact .inr (.inl above)
      · intro state stands
        obtain ⟨member, line⟩ := planned state stands
        refine ⟨.inl member, fun _ => ⟨member, ?_⟩⟩
        intro other otherAbove
        obtain rfl : parent = other := by
          rw [above] at otherAbove
          exact Option.some.inj otherAbove
        exact line
  | false =>
      have itself : chart.standsFor records target = [target] :=
        standsFor_ordinary history
      cases anew : entersAnew domain move target with
      | true =>
          have planted : chart.enterBelow records (fuel + 1) target
              (StateSet.insert target before) = some after := by
            simpa [planUnlessHistory, history, anew] using planted
          obtain ⟨plants, member⟩ := plant_extends
            (enterBelow_completes formed (fuel + 1)) history planted
          constructor
          · refine plants.mono ?_ fun held above => .inr (.inl above)
            intro added _ _ within
            exact .below isTarget (by rw [itself]; exact List.mem_cons_self) within
          · intro state stands
            rw [itself] at stands
            obtain rfl : state = target := by simpa using stands
            exact ⟨.inl member, fun isHistory => by cases isHistory⟩
      | false =>
          have completed : chart.enterBelow records (fuel + 1) target before =
              some after := by
            simpa [anew] using planted
          obtain ⟨fills, _⟩ :=
            enterBelow_completes formed (fuel + 1) history completed
          constructor
          · refine fills.mono ?_ fun held same => .inr (.inr ⟨same, rfl⟩)
            intro added _ _ inside
            exact .below isTarget (by rw [itself]; exact List.mem_cons_self)
              (.inr inside)
          · intro state stands
            rw [itself] at stands
            obtain rfl : state = target := by simpa using stands
            exact ⟨.inr ⟨rfl, rfl⟩, fun isHistory => by cases isHistory⟩

theorem plantTargets_extends
    {move : Move} {domain : StateId} {targets : List StateId}
    {before after : StateSet} {fuel : Nat}
    (sound : chart.Sound records)
    (areTargets : ∀ target ∈ targets, target ∈ move.targets)
    (planted : targets.foldlM (fun planned target =>
      chart.enterBelow records (fuel + 1) target
        (if entersAnew domain move target then chart.planUnlessHistory target planned
          else planned)) before = some after) :
    chart.Extends before after (chart.Enters records move before after)
        (fun parent => ∃ target ∈ targets, chart.parent? target = some parent ∨
          parent = target ∧ entersAnew domain move target = false) ∧
      ∀ target ∈ targets, ∀ state ∈ chart.standsFor records target,
        (state ∈ after ∨ state = target ∧ entersAnew domain move target = false) ∧
        (chart.isHistory target = true → state ∈ after ∧
          ∀ parent, chart.parent? target = some parent →
            ∀ upper ∈ chart.between state parent, upper ∈ after) := by
  induction targets generalizing before with
  | nil =>
      obtain rfl : before = after := by simpa using planted
      exact ⟨Extends.refl, by simp⟩
  | cons target targets ih =>
      rw [List.foldlM_cons, Option.bind_eq_bind, Option.bind_eq_some_iff] at planted
      obtain ⟨middle, stepped, rest⟩ := planted
      obtain ⟨later, others⟩ := ih
        (fun other isOther => areTargets other (List.mem_cons_of_mem target isOther)) rest
      have isTarget := areTargets target List.mem_cons_self
      obtain ⟨grown, planned⟩ := plantTarget_extends formed sound isTarget stepped
      constructor
      · refine Extends.trans grown (later.mono ?_ ?_) ?_ ?_
        · intro added _ _ enters
          exact enters.weaken grown.keeps fun state member => member
        · rintro parent ⟨other, isOther, found⟩
          exact .inr ⟨other, List.mem_cons_of_mem target isOther, found⟩
        · intro added enters
          exact enters.weaken (fun state member => member) later.keeps
        · intro parent found
          exact .inr ⟨target, List.mem_cons_self, found⟩
      · intro other isOther state stands
        rcases List.mem_cons.mp isOther with rfl | further
        · obtain ⟨reached, restored⟩ := planned state stands
          refine ⟨reached.imp_left (later.keeps state), ?_⟩
          intro history
          obtain ⟨member, line⟩ := restored history
          exact ⟨later.keeps state member, fun parent above upper inLine =>
            later.keeps upper (line parent above upper inLine)⟩
        · exact others other further state stands

/-- What planning a move with targets has in its plan in any case. -/
structure Reaches (chart : Chart) (records : HistoryRecords) (move : Move)
    (plan : StateSet) : Prop where
  restored : ∀ target ∈ move.targets, chart.isHistory target = true →
    ∀ state ∈ chart.standsFor records target, state ∈ plan ∧
      ∀ parent, chart.parent? target = some parent →
        ∀ upper ∈ chart.between state parent, upper ∈ plan
  effective : ∀ state ∈ chart.effectiveTargets records move.targets,
    state ∈ plan ∨ state = move.source ∧ state = chart.domain records move
  climbed : ∀ state ∈ chart.effectiveTargets records move.targets,
    ∀ upper ∈ chart.between state (chart.domain records move),
      chart.isInside upper (chart.domain records move) = true → upper ∈ plan
  covered : ∀ state ∈ chart.effectiveTargets records move.targets,
    ∀ upper ∈ chart.between state (chart.domain records move),
      chart.isParallel upper = true →
        ∀ region ∈ chart.regions upper, chart.Covers plan region

omit formed in
theorem Reaches.mono
    {move : Move} {before after : StateSet}
    (reaches : chart.Reaches records move before)
    (keeps : ∀ state ∈ before, state ∈ after) :
    chart.Reaches records move after where
  restored target isTarget history state stands := by
    obtain ⟨member, line⟩ := reaches.restored target isTarget history state stands
    exact ⟨keeps state member, fun parent above upper inLine =>
      keeps upper (line parent above upper inLine)⟩
  effective state isEffective :=
    (reaches.effective state isEffective).imp_left (keeps state)
  climbed state isEffective upper inLine inside :=
    keeps upper (reaches.climbed state isEffective upper inLine inside)
  covered state isEffective upper inLine parallel region isRegion :=
    (reaches.covered state isEffective upper inLine parallel region isRegion).mono keeps

omit formed in
theorem source_of_not_entersAnew
    {domain target : StateId} {move : Move}
    (stays : entersAnew domain move target = false) :
    target = move.source ∧ target = domain ∧ move.reenter = false := by
  simp only [entersAnew, Bool.or_eq_false_iff, decide_eq_false_iff_not, ne_eq,
    Decidable.not_not] at stays
  obtain ⟨⟨isSource, isDomain⟩, notReenter⟩ := stays
  exact ⟨isSource.symm, isSource.symm.trans isDomain, notReenter⟩

theorem planMove_extends
    {move : Move} {before after : StateSet}
    (sound : chart.Sound records)
    (targeted : move.targets ≠ [])
    (planned : chart.planMove records move before = some after) :
    chart.Extends before after (chart.Enters records move before after)
        (chart.Anchors records move) ∧
      chart.Reaches records move after := by
  obtain ⟨fuel, enough⟩ : ∃ fuel, chart.entryBound = fuel + 1 :=
    Nat.exists_eq_succ_of_ne_zero (Nat.ne_zero_of_lt (size_lt_entryBound chart))
  have notEmpty : move.targets.isEmpty = false := by simpa using targeted
  simp only [planMove, notEmpty, Bool.false_eq_true, if_false, enough,
    Option.bind_eq_bind, Option.bind_eq_some_iff] at planned
  obtain ⟨middle, planted, climbed⟩ := planned
  obtain ⟨grown, targets⟩ := plantTargets_extends formed sound
    (fun target isTarget => isTarget) planted
  have effective : ∀ state ∈ chart.effectiveTargets records move.targets,
      state ∈ middle ∨ state = move.source ∧ state = chart.domain records move := by
    intro state isEffective
    obtain ⟨target, isTarget, stands⟩ := (mem_effectiveTargets formed).mp isEffective
    rcases (targets target isTarget state stands).1 with member | ⟨rfl, stays⟩
    · exact .inl member
    · obtain ⟨isSource, isDomain, _⟩ := source_of_not_entersAnew stays
      exact .inr ⟨isSource, isDomain⟩
  obtain ⟨later, lines⟩ := climbAll_extends
    (enterBelow_completes formed (fuel + 1)) formed (by
      intro state isEffective upper inLine allowed
      have above := (isInside_iff_mem formed).mpr (between_subset_ancestors upper inLine)
      rcases effective state isEffective with member | ⟨_, isDomain⟩
      · exact ⟨state, member, above⟩
      · rw [← isDomain, not_inside_of_within formed (.inr above)] at allowed
        cases allowed) climbed
  constructor
  · refine Extends.trans grown (later.mono ?_ ?_) ?_ ?_
    · rintro added _ _ ⟨state, isEffective, ⟨inLine, inside⟩ | sprouts⟩
      · exact .line isEffective inLine inside
      · exact .region isEffective (sprouts.weaken grown.keeps fun state known => known)
    · rintro parent (⟨state, isEffective, inLine, outside⟩ | ends)
      · exact .inr (.line isEffective inLine outside)
      · exact .inr (.domain ends)
    · intro added enters
      exact enters.weaken (fun state member => member) later.keeps
    · rintro parent ⟨target, isTarget, above | ⟨rfl, stays⟩⟩
      · exact .inr (.target isTarget above)
      · exact .inr (.domain (source_of_not_entersAnew stays).2.1)
  · exact
      { restored := fun target isTarget history state stands => by
          obtain ⟨member, line⟩ := (targets target isTarget state stands).2 history
          exact ⟨later.keeps state member, fun parent above upper inLine =>
            later.keeps upper (line parent above upper inLine)⟩
        effective := fun state isEffective =>
          (effective state isEffective).imp_left (later.keeps state)
        climbed := fun state isEffective upper inLine inside =>
          (lines state isEffective upper inLine).1 inside
        covered := fun state isEffective upper inLine parallel =>
          (lines state isEffective upper inLine).2 parallel }

/-- What planning the moves of a step comes to. -/
structure Planned (chart : Chart) (records : HistoryRecords) (moves : List Move)
    (entries : StateSet) : Prop where
  ordinary : ∀ state ∈ entries, chart.isHistory state = false
  filled : ∀ state ∈ entries, chart.Filled entries state
  enters : ∀ state ∈ entries, ∃ move ∈ moves, move.targets ≠ [] ∧
    chart.Enters records move [] entries state
  hangs : ∀ state ∈ entries, ∀ parent, chart.parent? state = some parent →
    parent ∈ entries ∨ ∃ move ∈ moves, move.targets ≠ [] ∧
      chart.Anchors records move parent
  reaches : ∀ move ∈ moves, move.targets ≠ [] → chart.Reaches records move entries

theorem entries_planned
    {moves : List Move} {entries : StateSet}
    (sound : chart.Sound records)
    (planned : chart.entries? records moves = some entries) :
    chart.Planned records moves entries := by
  have folded : ∀ (rest : List Move) (before : StateSet),
      rest.foldlM (fun planned move => chart.planMove records move planned) before =
        some entries →
      chart.Extends before entries
          (fun state => ∃ move ∈ rest, move.targets ≠ [] ∧
            chart.Enters records move [] entries state)
          (fun parent => ∃ move ∈ rest, move.targets ≠ [] ∧
            chart.Anchors records move parent) ∧
        ∀ move ∈ rest, move.targets ≠ [] → chart.Reaches records move entries := by
    intro rest
    induction rest with
    | nil =>
        intro before done
        obtain rfl : before = entries := by simpa using done
        exact ⟨Extends.refl, by simp⟩
    | cons move rest ih =>
        intro before done
        rw [List.foldlM_cons, Option.bind_eq_bind, Option.bind_eq_some_iff] at done
        obtain ⟨middle, stepped, further⟩ := done
        obtain ⟨later, others⟩ := ih middle further
        by_cases targetless : move.targets = []
        · obtain rfl : before = middle := by simpa [planMove, targetless] using stepped
          constructor
          · refine later.mono ?_ ?_
            · rintro added _ _ ⟨other, isOther, found⟩
              exact ⟨other, List.mem_cons_of_mem move isOther, found⟩
            · rintro parent ⟨other, isOther, found⟩
              exact .inr ⟨other, List.mem_cons_of_mem move isOther, found⟩
          · intro other isOther targeted
            rcases List.mem_cons.mp isOther with rfl | isLater
            · exact absurd targetless targeted
            · exact others other isLater targeted
        · obtain ⟨grown, reaches⟩ := planMove_extends formed sound targetless stepped
          constructor
          · refine Extends.trans grown (later.mono ?_ ?_) ?_ ?_
            · rintro added _ _ ⟨other, isOther, found⟩
              exact ⟨other, List.mem_cons_of_mem move isOther, found⟩
            · rintro parent ⟨other, isOther, found⟩
              exact .inr ⟨other, List.mem_cons_of_mem move isOther, found⟩
            · intro added enters
              exact ⟨move, List.mem_cons_self, targetless,
                enters.weaken (by simp) later.keeps⟩
            · intro parent anchors
              exact .inr ⟨move, List.mem_cons_self, targetless, anchors⟩
          · intro other isOther targeted
            rcases List.mem_cons.mp isOther with rfl | isLater
            · exact reaches.mono later.keeps
            · exact others other isLater targeted
  obtain ⟨grown, reaches⟩ := folded moves [] planned
  exact
    { ordinary := fun state member => grown.ordinary state member (by simp)
      filled := fun state member => grown.filled state member (by simp)
      enters := fun state member => grown.fitting state member (by simp)
      hangs := fun state member => grown.hangs state member (by simp)
      reaches := reaches }

theorem Planned.in_range
    {moves : List Move} {entries : StateSet}
    (planned : chart.Planned records moves entries)
    (sound : chart.Sound records)
    (targetsInRange : ∀ move ∈ moves, ∀ target ∈ move.targets, target < chart.size) :
    ∀ state ∈ entries, state < chart.size := by
  intro state member
  obtain ⟨move, chosen, _, enters⟩ := planned.enters state member
  have sprouted : ∀ {before : StateSet} {line : List StateId},
      chart.Sprouts before entries line state → state < chart.size := by
    rintro before line ⟨parallel, _, _, region, isRegion, _, within, _⟩
    exact inside_in_range formed (within_inside_trans formed within
      (inside_of_parent formed ((mem_regions formed).mp isRegion).1))
  cases enters with
  | below isTarget stands within =>
      rcases within with rfl | inside
      · exact standsFor_in_range formed sound (targetsInRange move chosen _ isTarget) stands
      · exact inside_in_range formed inside
  | restoredLine isTarget history above stands inLine =>
      have inside := (standsFor_history formed sound history stands).2 _ above
      exact inside_in_range formed ((mem_between formed inside).mp inLine).2
  | restoredRegion isTarget history above stands sprouts => exact sprouted sprouts
  | line isEffective inLine inside => exact inside_in_range formed inside
  | region isEffective sprouts => exact sprouted sprouts

end Moves

end Statechart.Chart
