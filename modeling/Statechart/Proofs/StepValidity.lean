import Statechart.Proofs.Containment

/-!
# Steps that keep configurations valid

`Chart.Lawful` says what a step from a valid configuration must do right, and
`Chart.valid_step_iff_lawful` that the configuration after the step is valid exactly if
it does: what is entered hangs from something active, nothing inactive is entered outside
the domains, every domain that stays active is filled again, and no compound state gets
two children.
-/

namespace Statechart.Chart

/-- What a step must do right to keep a configuration valid. -/
structure Lawful (chart : Chart) (active : Configuration) (records : HistoryRecords)
    (moves : List Move) (entries : StateSet) : Prop where
  moored : ∀ state ∈ entries, ∀ parent, chart.parent? state = some parent →
    parent ∈ entries ∨ parent ∈ chart.staying active records moves
  sparing : ∀ state ∈ entries, chart.BelowDomain records moves state ∨
    state ∈ chart.staying active records moves
  replenished : ∀ move ∈ moves, move.targets ≠ [] →
    chart.domain records move ∈ chart.staying active records moves →
      chart.Filled entries (chart.domain records move)
  unforked : chart.Unforked entries

section Step

variable {chart : Chart} (formed : chart.WellFormed)
variable {active : Configuration} {records : HistoryRecords} {moves : List Move}
variable {entries : StateSet}
variable (valid : chart.Valid active) (sound : chart.Sound records)
variable (fits : ∀ move ∈ moves, move.Fits chart active)
variable (planned : chart.Planned (chart.recordedBy active records moves) moves entries)

include formed

theorem staying_closed
    {state outer : StateId}
    (valid : chart.Valid active)
    (stays : state ∈ chart.staying active records moves)
    (within : chart.Within state outer) :
    outer ∈ chart.staying active records moves := by
  obtain ⟨isActive, outside⟩ := mem_staying.mp stays
  refine mem_staying.mpr ⟨valid.withinActive formed isActive within, ?_⟩
  intro below
  exact outside (below.deeper formed within)

theorem root_staying
    (valid : chart.Valid active) :
    root ∈ chart.staying active records moves := by
  refine mem_staying.mpr ⟨valid.rootActive, ?_⟩
  rintro ⟨move, _, _, inside⟩
  rw [not_root_inside formed] at inside
  cases inside

theorem parent_is_domain
    {state parent : StateId}
    (below : chart.parent? state = some parent)
    (stays : parent ∈ chart.staying active records moves)
    (left : chart.BelowDomain records moves state) :
    ∃ move ∈ moves, move.targets ≠ [] ∧ chart.domain records move = parent := by
  obtain ⟨move, chosen, targeted, inside⟩ := left
  rcases parent_within formed below inside with same | further
  · exact ⟨move, chosen, targeted, same.symm⟩
  · exact absurd ⟨move, chosen, targeted, further⟩ (mem_staying.mp stays).2

include valid in
theorem entered_beside_staying
    (lawful : chart.Lawful active records moves entries)
    {entered stayed parent : StateId}
    (member : entered ∈ entries)
    (stays : stayed ∈ chart.staying active records moves)
    (enteredBelow : chart.parent? entered = some parent)
    (stayedBelow : chart.parent? stayed = some parent)
    (compound : chart.isCompound parent = true) :
    entered = stayed := by
  rcases lawful.sparing entered member with below | enteredStays
  · have parentStays := staying_closed formed valid stays
      (.inr (inside_of_parent formed stayedBelow))
    obtain ⟨move, chosen, targeted, same⟩ :=
      parent_is_domain formed enteredBelow parentStays below
    have inside : chart.isInside stayed (chart.domain records move) = true := by
      rw [same]
      exact inside_of_parent formed stayedBelow
    exact absurd ⟨move, chosen, targeted, inside⟩ (mem_staying.mp stays).2
  · exact valid.siblings_eq formed compound enteredBelow stayedBelow
      (mem_staying.mp enteredStays).1 (mem_staying.mp stays).1

include valid sound fits planned

omit sound fits in
/-- A lawful step keeps the configuration valid. -/
theorem valid_of_lawful
    (inRange : ∀ state ∈ entries, state < chart.size)
    (lawful : chart.Lawful active records moves entries) :
    chart.Valid (chart.succeeding active records moves entries) := by
  have enteredKept : ∀ state ∈ entries,
      state ∈ chart.succeeding active records moves entries := fun state member =>
    mem_succeeding.mpr (.inl member)
  apply valid_of_filled formed
  · exact mem_succeeding.mpr (.inr (root_staying formed valid))
  · intro state member
    rcases mem_succeeding.mp member with entered | stays
    · exact inRange state entered
    · exact valid.inRange state (mem_staying.mp stays).1
  · intro state member parent below
    apply mem_succeeding.mpr
    rcases mem_succeeding.mp member with entered | stays
    · exact lawful.moored state entered parent below
    · exact .inr (staying_closed formed valid stays
        (.inr (inside_of_parent formed below)))
  · intro state member
    rcases mem_succeeding.mp member with entered | stays
    · exact planned.ordinary state entered
    · exact valid.ordinary state (mem_staying.mp stays).1
  · intro state member
    rcases mem_succeeding.mp member with entered | stays
    · exact (planned.filled state entered).mono enteredKept
    · have isActive := (mem_staying.mp stays).1
      -- An active child is either kept, or the state is a domain and is filled again.
      have refilled : ∀ child, chart.parent? child = some state → child ∈ active →
          child ∈ chart.staying active records moves ∨ chart.Filled entries state := by
        intro child below childActive
        by_cases left : chart.BelowDomain records moves child
        · obtain ⟨move, chosen, targeted, same⟩ := parent_is_domain formed below stays left
          right
          rw [← same] at stays ⊢
          exact lawful.replenished move chosen targeted stays
        · exact .inl (mem_staying.mpr ⟨childActive, left⟩)
      constructor
      · intro compound
        obtain ⟨child, isRegion, childActive, _⟩ :=
          valid.compoundChild state isActive compound
        have below := ((mem_regions formed).mp isRegion).1
        rcases refilled child below childActive with kept | filled
        · exact ⟨child, mem_succeeding.mpr (.inr kept), inside_of_parent formed below⟩
        · exact (filled.mono enteredKept).compound compound
      · intro parallel region isRegion
        have below := ((mem_regions formed).mp isRegion).1
        have regionActive := valid.regionsActive state isActive parallel region isRegion
        rcases refilled region below regionActive with kept | filled
        · exact ⟨region, mem_succeeding.mpr (.inr kept), .inl rfl⟩
        · exact (filled.mono enteredKept).parallel parallel region isRegion
  · intro first firstIn second secondIn parent firstBelow secondBelow compound
    rcases mem_succeeding.mp firstIn with firstEntered | firstStays
    · rcases mem_succeeding.mp secondIn with secondEntered | secondStays
      · exact lawful.unforked first firstEntered second secondEntered parent
          firstBelow secondBelow compound
      · exact entered_beside_staying formed valid lawful firstEntered secondStays
          firstBelow secondBelow compound
    · rcases mem_succeeding.mp secondIn with secondEntered | secondStays
      · exact (entered_beside_staying formed valid lawful secondEntered firstStays
          secondBelow firstBelow compound).symm
      · exact valid.siblings_eq formed compound firstBelow secondBelow
          (mem_staying.mp firstStays).1 (mem_staying.mp secondStays).1

omit sound fits planned in
/-- What is active after a step that keeps the configuration valid was active before or
lies below a domain. -/
theorem sparing_of_valid
    (after : chart.Valid (chart.succeeding active records moves entries))
    {state : StateId}
    (member : state ∈ chart.succeeding active records moves entries) :
    chart.BelowDomain records moves state ∨
      state ∈ chart.staying active records moves := by
  induction state using Nat.strongRecOn with
  | _ state ih =>
      by_cases left : chart.BelowDomain records moves state
      · exact .inl left
      · right
        cases above : chart.parent? state with
        | none =>
            have top : state = root := by
              by_contra below
              obtain ⟨parent, found⟩ :=
                formed.parented (after.inRange state member) below
              rw [above] at found
              cases found
            rw [top]
            exact root_staying formed valid
        | some parent =>
            have parentOutside : ¬ chart.BelowDomain records moves parent := fun below =>
              left (below.deeper formed (.inr (inside_of_parent formed above)))
            have parentAfter := after.parentActive state member parent above
            have parentStays : parent ∈ chart.staying active records moves :=
              (ih parent (formed.parentBefore above) parentAfter).resolve_left parentOutside
            have parentActive := (mem_staying.mp parentStays).1
            have isRegion : state ∈ chart.regions parent :=
              (mem_regions formed).mpr ⟨above, after.ordinary state member⟩
            have keeps : ∀ child, chart.parent? child = some parent → child ∈ active →
                child ∈ chart.staying active records moves := by
              intro child below childActive
              refine mem_staying.mpr ⟨childActive, ?_⟩
              intro childLeft
              obtain ⟨move, chosen, targeted, same⟩ :=
                parent_is_domain formed below parentStays childLeft
              apply left
              refine ⟨move, chosen, targeted, ?_⟩
              rw [same]
              exact inside_of_parent formed above
            rcases parent_kind formed above with ⟨initial, kind⟩ | kind
            · have compound : chart.isCompound parent = true := by simp [isCompound, kind]
              obtain ⟨child, childRegion, childActive, _⟩ :=
                valid.compoundChild parent parentActive compound
              have childBelow := ((mem_regions formed).mp childRegion).1
              have childStays := keeps child childBelow childActive
              have same := after.siblings_eq formed compound above childBelow member
                (mem_succeeding.mpr (.inr childStays))
              rw [same]
              exact childStays
            · have parallel : chart.isParallel parent = true := by simp [isParallel, kind]
              exact keeps state above
                (valid.regionsActive parent parentActive parallel state isRegion)

omit sound fits planned in
theorem lawful_of_valid
    (after : chart.Valid (chart.succeeding active records moves entries)) :
    chart.Lawful active records moves entries := by
  have entered : ∀ state ∈ entries,
      state ∈ chart.succeeding active records moves entries := fun state member =>
    mem_succeeding.mpr (.inl member)
  constructor
  · intro state member parent below
    exact mem_succeeding.mp (after.parentActive state (entered state member) parent below)
  · intro state member
    exact sparing_of_valid formed valid after (entered state member)
  · intro move chosen targeted stays
    have afterwards : chart.domain records move ∈
        chart.succeeding active records moves entries := mem_succeeding.mpr (.inr stays)
    have anew : ∀ child, chart.parent? child = some (chart.domain records move) →
        child ∈ chart.succeeding active records moves entries → child ∈ entries := by
      intro child below member
      rcases mem_succeeding.mp member with isEntered | childStays
      · exact isEntered
      · exact absurd ⟨move, chosen, targeted, inside_of_parent formed below⟩
          (mem_staying.mp childStays).2
    constructor
    · intro compound
      obtain ⟨child, isRegion, childAfter, _⟩ :=
        after.compoundChild _ afterwards compound
      have below := ((mem_regions formed).mp isRegion).1
      exact ⟨child, anew child below childAfter, inside_of_parent formed below⟩
    · intro parallel region isRegion
      have below := ((mem_regions formed).mp isRegion).1
      exact ⟨region, anew region below
        (after.regionsActive _ afterwards parallel region isRegion), .inl rfl⟩
  · intro first firstIn second secondIn parent firstBelow secondBelow compound
    exact after.siblings_eq formed compound firstBelow secondBelow
      (entered first firstIn) (entered second secondIn)

/-- The configuration after a step from a valid one is valid exactly if the step is
lawful. -/
theorem valid_step_iff_lawful :
    chart.Valid (chart.succeeding active records moves entries) ↔
      chart.Lawful active records moves entries := by
  constructor
  · exact lawful_of_valid formed valid
  · exact valid_of_lawful formed valid planned
      (planned.in_range formed (recordedBy_sound formed valid.ordinary sound moves)
        fun move chosen => (fits move chosen).targetsInRange)

end Step

end Statechart.Chart
