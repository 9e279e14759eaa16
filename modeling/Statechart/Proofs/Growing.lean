import Statechart.Proofs.Defaults

/-!
# What grows from given states

Some states of a chart, with what they lie in, leave open what else is active: a parallel
state among them has all its regions, and a compound state in which none of them lies has its
initial child, and so on down to the leaves.  `Chart.Grown` says so without an order in which
this is found out.  What grows from states that fork no compound state is whole:
`Chart.Regrown.valid` says that a configuration stays valid when the inside of some of its
states is replaced by what grows there.
-/

namespace Statechart.Chart

/-- The state is one of the seeds, or it has to be active with them: all regions of a parallel
state, and the initial child of a compound state in which no seed lies. -/
inductive Grown (chart : Chart) (seeds : StateId → Prop) : StateId → Prop where
  | seed {state : StateId} : seeds state → Grown chart seeds state
  | region {parallel region : StateId} :
      Grown chart seeds parallel → chart.isParallel parallel = true →
      region ∈ chart.regions parallel → Grown chart seeds region
  | initial {outer initial : StateId} :
      Grown chart seeds outer → chart.kind outer = .compound initial →
      (¬ ∃ seed, seeds seed ∧ chart.isInside seed outer = true) → Grown chart seeds initial

/-- The state lies strictly inside `outer` and is one of these states or lies around one. -/
def Lineage (chart : Chart) (states : List StateId) (outer state : StateId) : Prop :=
  chart.isInside state outer = true ∧ ∃ member ∈ states, chart.Within member state

/-- The state is `outer`, or in the lineage of these states inside it. -/
def Rooted (chart : Chart) (states : List StateId) (outer state : StateId) : Prop :=
  state = outer ∨ chart.Lineage states outer state

/-- The two states do not lie in different children of a compound state. -/
def Compatible (chart : Chart) (first second : StateId) : Prop :=
  ∀ parent one two, chart.isCompound parent = true → chart.parent? one = some parent →
    chart.parent? two = some parent → chart.Within first one → chart.Within second two →
      one = two

/-- Any two of these states are compatible. -/
def Coherent (chart : Chart) (states : List StateId) : Prop :=
  ∀ first ∈ states, ∀ second ∈ states, chart.Compatible first second

/-- Seeds in `outer` that hold all between them and it, and one child at most of every
compound state. -/
structure Stem (chart : Chart) (seeds : StateId → Prop) (outer : StateId) : Prop where
  top : seeds outer
  within : ∀ state, seeds state → chart.Within state outer
  closed : ∀ state, seeds state → ∀ parent, chart.parent? state = some parent →
    state = outer ∨ seeds parent
  ordinary : ∀ state, seeds state → chart.isHistory state = false
  unforked : ∀ first, seeds first → ∀ second, seeds second → ∀ parent,
    chart.isCompound parent = true → chart.parent? first = some parent →
      chart.parent? second = some parent → first = second

section Growing

variable {chart : Chart} (formed : chart.WellFormed)
variable {seeds : StateId → Prop} {state outer : StateId}

include formed

theorem inside_of_initial
    {initial : StateId}
    (kind : chart.kind outer = .compound initial) :
    chart.isInside initial outer = true :=
  inside_of_parent formed ((mem_regions formed).mp (formed.initialBelow kind)).1

theorem inside_of_region
    {region : StateId}
    (isRegion : region ∈ chart.regions outer) :
    chart.isInside region outer = true :=
  inside_of_parent formed ((mem_regions formed).mp isRegion).1

theorem Grown.byDefault
    (brought : chart.ByDefault state outer)
    (grown : chart.Grown seeds outer)
    (vacant : ¬ ∃ seed, seeds seed ∧ chart.isInside seed outer = true) :
    chart.Grown seeds state := by
  have deeper : ∀ {upper lower}, chart.isInside lower upper = true →
      (¬ ∃ seed, seeds seed ∧ chart.isInside seed upper = true) →
        ¬ ∃ seed, seeds seed ∧ chart.isInside seed lower = true := by
    rintro upper lower inside vacant ⟨seed, isSeed, further⟩
    exact vacant ⟨seed, isSeed, inside_trans formed further inside⟩
  induction brought with
  | here => exact grown
  | initial kind _ ih =>
      exact ih (.initial grown kind vacant) (deeper (inside_of_initial formed kind) vacant)
  | region isParallel isRegion _ ih =>
      exact ih (.region grown isParallel isRegion)
        (deeper (inside_of_region formed isRegion) vacant)

theorem Grown.filled
    {states : StateSet}
    (grown : chart.Grown seeds state)
    (holds : ∀ other, chart.Grown seeds other → other ∈ states) :
    chart.Filled states state := by
  constructor
  · intro compound
    by_cases occupied : ∃ seed, seeds seed ∧ chart.isInside seed state = true
    · obtain ⟨seed, isSeed, inside⟩ := occupied
      exact ⟨seed, holds seed (.seed isSeed), inside⟩
    · cases kind : chart.kind state with
      | compound initial =>
          exact ⟨initial, holds initial (.initial grown kind occupied),
            inside_of_initial formed kind⟩
      | _ => simp [isCompound, kind] at compound
  · intro parallel region isRegion
    exact ⟨region, holds region (.region grown parallel isRegion), .inl rfl⟩

theorem Grown.of_compound
    {parent : StateId}
    (grown : chart.Grown seeds state)
    (compound : chart.isCompound parent = true)
    (below : chart.parent? state = some parent) :
    seeds state ∨ chart.kind parent = .compound state ∧
      ¬ ∃ seed, seeds seed ∧ chart.isInside seed parent = true := by
  cases grown with
  | seed isSeed => exact .inl isSeed
  | region _ isParallel isRegion =>
      obtain rfl := Option.some.inj (below.symm.trans ((mem_regions formed).mp isRegion).1)
      cases kind : chart.kind parent <;> simp_all [Chart.isParallel, isCompound]
  | initial _ kind vacant =>
      obtain rfl := Option.some.inj
        (below.symm.trans ((mem_regions formed).mp (formed.initialBelow kind)).1)
      exact .inr ⟨kind, vacant⟩

theorem Grown.within
    (inner : ∀ seed, seeds seed → chart.Within seed outer)
    (grown : chart.Grown seeds state) :
    chart.Within state outer := by
  induction grown with
  | seed isSeed => exact inner _ isSeed
  | region _ _ isRegion ih =>
      exact .inr (inside_within_trans formed (inside_of_region formed isRegion) ih)
  | initial _ kind _ ih =>
      exact .inr (inside_within_trans formed (inside_of_initial formed kind) ih)

section Stems

variable (stem : chart.Stem seeds outer)

include stem

theorem Grown.ordinary
    (grown : chart.Grown seeds state) :
    chart.isHistory state = false := by
  cases grown with
  | seed isSeed => exact stem.ordinary _ isSeed
  | region _ _ isRegion => exact ((mem_regions formed).mp isRegion).2
  | initial _ kind _ => exact ((mem_regions formed).mp (formed.initialBelow kind)).2

theorem Grown.parent
    {parent : StateId}
    (grown : chart.Grown seeds state)
    (inside : chart.isInside state outer = true)
    (below : chart.parent? state = some parent) :
    chart.Grown seeds parent := by
  cases grown with
  | seed isSeed =>
      rcases stem.closed _ isSeed parent below with rfl | isSeed
      · exact absurd rfl (ne_of_inside formed inside)
      · exact .seed isSeed
  | region fromParallel _ isRegion =>
      obtain rfl := Option.some.inj (below.symm.trans ((mem_regions formed).mp isRegion).1)
      exact fromParallel
  | initial fromOuter kind _ =>
      obtain rfl := Option.some.inj
        (below.symm.trans ((mem_regions formed).mp (formed.initialBelow kind)).1)
      exact fromOuter

/-- Only one child of a compound state grows. -/
theorem Grown.siblings_eq
    {first second parent : StateId}
    (firstGrown : chart.Grown seeds first)
    (secondGrown : chart.Grown seeds second)
    (compound : chart.isCompound parent = true)
    (firstBelow : chart.parent? first = some parent)
    (secondBelow : chart.parent? second = some parent) :
    first = second := by
  rcases firstGrown.of_compound formed compound firstBelow with firstSeed | ⟨kind, vacant⟩
  · rcases secondGrown.of_compound formed compound secondBelow with secondSeed | ⟨_, vacant⟩
    · exact stem.unforked first firstSeed second secondSeed parent compound firstBelow
        secondBelow
    · exact absurd ⟨first, firstSeed, inside_of_parent formed firstBelow⟩ vacant
  · rcases secondGrown.of_compound formed compound secondBelow with secondSeed | ⟨other, _⟩
    · exact absurd ⟨second, secondSeed, inside_of_parent formed secondBelow⟩ vacant
    · exact NodeKind.compound.inj (kind.symm.trans other)

end Stems

end Growing

section Lineages

variable {chart : Chart} (formed : chart.WellFormed)
variable {states : List StateId} {state outer : StateId}

include formed

/-- States that cohere are, with what they lie in, a stem. -/
theorem Coherent.stem
    (coherent : chart.Coherent states)
    (ordinary : ∀ state ∈ states, chart.isHistory state = false)
    (outerOrdinary : chart.isHistory outer = false) :
    chart.Stem (chart.Rooted states outer) outer where
  top := .inl rfl
  within := fun state rooted => rooted.imp_right And.left
  closed := by
    rintro state (same | ⟨inside, member, isMember, within⟩) parent below
    · exact .inl same
    · right
      refine (parent_within formed below inside).imp_right fun further => ?_
      exact ⟨further, member, isMember,
        .inr (within_inside_trans formed within (inside_of_parent formed below))⟩
  ordinary := by
    rintro state (rfl | ⟨_, member, isMember, rfl | around⟩)
    · exact outerOrdinary
    · exact ordinary member isMember
    · exact outer_ordinary formed around
  unforked := by
    have apart : ∀ {first parent}, chart.Lineage states outer first →
        chart.parent? first = some parent → chart.parent? outer ≠ some parent := by
      rintro first parent ⟨inside, _⟩ firstBelow outerBelow
      have around := inside_of_parent formed outerBelow
      rw [not_inside_of_within formed (parent_within formed firstBelow inside)] at around
      cases around
    rintro first (rfl | firstLine) second (rfl | secondLine) parent compound firstBelow
      secondBelow
    · rfl
    · exact absurd firstBelow (apart secondLine secondBelow)
    · exact absurd secondBelow (apart firstLine firstBelow)
    · obtain ⟨_, one, isOne, oneWithin⟩ := firstLine
      obtain ⟨_, two, isTwo, twoWithin⟩ := secondLine
      exact coherent one isOne two isTwo parent first second compound firstBelow secondBelow
        oneWithin twoWithin

omit formed in
/-- What lies in the lineage of states is a lowest one of them or lies around one. -/
theorem Lineage.lowest_or_around
    (lineage : chart.Lineage states outer state) :
    (state ∈ states ∧ ¬ ∃ other ∈ states, chart.isInside other state = true) ∨
      ∃ member ∈ states, chart.isInside member state = true ∧
        chart.isInside state outer = true := by
  obtain ⟨below, member, isMember, within⟩ := lineage
  by_cases occupied : ∃ other ∈ states, chart.isInside other state = true
  · obtain ⟨other, isOther, around⟩ := occupied
    exact .inr ⟨other, isOther, around, below⟩
  · rcases within with rfl | around
    · exact .inl ⟨isMember, occupied⟩
    · exact absurd ⟨member, isMember, around⟩ occupied

/-- What grows from states and what they lie in: what the lowest of them bring, what lies
around them, and what the other regions beside them bring. -/
theorem grown_lineage_iff
    (inside : ∀ member ∈ states, chart.isInside member outer = true) :
    chart.Grown (chart.Lineage states outer) state ↔
      (∃ member ∈ states, (¬ ∃ other ∈ states, chart.isInside other member = true) ∧
        chart.ByDefault state member) ∨
      (∃ member ∈ states, chart.isInside member state = true ∧
        chart.isInside state outer = true) ∨
      ∃ member ∈ states, ∃ parallel, chart.isInside member parallel = true ∧
        chart.isInside parallel outer = true ∧ chart.isParallel parallel = true ∧
          ∃ region ∈ chart.regions parallel, (¬ ∃ other ∈ states, chart.Within other region) ∧
            chart.ByDefault state region := by
  have vacant : ∀ {top}, (¬ ∃ other ∈ states, chart.isInside other top = true) →
      ¬ ∃ seed, chart.Lineage states outer seed ∧ chart.isInside seed top = true := by
    rintro top lowest ⟨seed, ⟨_, member, isMember, within⟩, around⟩
    exact lowest ⟨member, isMember, within_inside_trans formed within around⟩
  constructor
  · intro grown
    induction grown with
    | @seed state isSeed =>
        rcases isSeed.lowest_or_around with ⟨isMember, lowest⟩ | around
        · exact .inl ⟨state, isMember, lowest, .here⟩
        · exact .inr (.inl around)
    | @region parallel region _ isParallel isRegion ih =>
        have further := ByDefault.region isParallel isRegion .here
        rcases ih with ⟨member, isMember, lowest, brought⟩ |
          ⟨member, isMember, around, below⟩ |
          ⟨member, isMember, upper, above, below, upperParallel, first, isFirst, free, brought⟩
        · exact .inl ⟨member, isMember, lowest, further.trans brought⟩
        · by_cases occupied : ∃ other ∈ states, chart.Within other region
          · obtain ⟨other, isOther, within⟩ := occupied
            have lineage : chart.Lineage states outer region :=
              ⟨inside_trans formed (inside_of_region formed isRegion) below, other, isOther,
                within⟩
            rcases lineage.lowest_or_around with ⟨isMember, lowest⟩ | around
            · exact .inl ⟨region, isMember, lowest, .here⟩
            · exact .inr (.inl around)
          · exact .inr (.inr ⟨member, isMember, parallel, around, below, isParallel, region,
              isRegion, occupied, .here⟩)
        · exact .inr (.inr ⟨member, isMember, upper, above, below, upperParallel, first,
            isFirst, free, further.trans brought⟩)
    | initial _ kind noSeed ih =>
        have further := ByDefault.initial kind .here
        rcases ih with ⟨member, isMember, lowest, brought⟩ |
          ⟨member, isMember, around, below⟩ |
          ⟨member, isMember, upper, above, below, upperParallel, first, isFirst, free, brought⟩
        · exact .inl ⟨member, isMember, lowest, further.trans brought⟩
        · exact absurd ⟨member, ⟨inside member isMember, member, isMember, .inl rfl⟩, around⟩
            noSeed
        · exact .inr (.inr ⟨member, isMember, upper, above, below, upperParallel, first,
            isFirst, free, further.trans brought⟩)
  · rintro (⟨member, isMember, lowest, brought⟩ | ⟨member, isMember, around, below⟩ |
      ⟨member, isMember, parallel, above, below, isParallel, region, isRegion, free, brought⟩)
    · exact Grown.byDefault formed brought
        (.seed ⟨inside member isMember, member, isMember, .inl rfl⟩) (vacant lowest)
    · exact .seed ⟨below, member, isMember, .inr around⟩
    · refine Grown.byDefault formed brought
        (.region (.seed ⟨below, member, isMember, .inr above⟩) isParallel isRegion)
        (vacant ?_)
      rintro ⟨other, isOther, further⟩
      exact free ⟨other, isOther, .inr further⟩

theorem Grown.inside_of_lineage
    (grown : chart.Grown (chart.Lineage states outer) state) :
    chart.isInside state outer = true := by
  induction grown with
  | seed isSeed => exact isSeed.1
  | region _ _ isRegion ih => exact inside_trans formed (inside_of_region formed isRegion) ih
  | initial _ kind _ ih => exact inside_trans formed (inside_of_initial formed kind) ih

/-- To take `outer` as a seed too adds nothing else, if some state lies in it and, where it is
parallel, in each of its regions. -/
theorem grown_rooted_iff
    {member : StateId}
    (isMember : member ∈ states)
    (inside : chart.isInside member outer = true)
    (everywhere : chart.isParallel outer = true → ∀ region ∈ chart.regions outer,
      ∃ other ∈ states, chart.Within other region) :
    chart.Grown (chart.Rooted states outer) state ↔
      state = outer ∨ chart.Grown (chart.Lineage states outer) state := by
  constructor
  · intro grown
    induction grown with
    | seed isSeed => exact isSeed.imp_right .seed
    | region _ isParallel isRegion ih =>
        right
        rcases ih with rfl | grown
        · obtain ⟨other, isOther, within⟩ := everywhere isParallel _ isRegion
          exact .seed ⟨inside_of_region formed isRegion, other, isOther, within⟩
        · exact .region grown isParallel isRegion
    | initial _ kind vacant ih =>
        right
        rcases ih with rfl | grown
        · exact absurd ⟨member, .inr ⟨inside, member, isMember, .inl rfl⟩, inside⟩ vacant
        · refine .initial grown kind ?_
          rintro ⟨seed, isSeed, around⟩
          exact vacant ⟨seed, .inr isSeed, around⟩
  · rintro (rfl | grown)
    · exact .seed (.inl rfl)
    · induction grown with
      | seed isSeed => exact .seed (.inr isSeed)
      | region _ isParallel isRegion ih => exact .region ih isParallel isRegion
      | initial grown kind vacant ih =>
          refine .initial ih kind ?_
          rintro ⟨seed, rfl | isSeed, around⟩
          · rw [not_inside_of_within formed (.inr (grown.inside_of_lineage formed))] at around
            cases around
          · exact vacant ⟨seed, isSeed, around⟩

end Lineages

/-- The states are those active, but inside some domains, none of which lies in another, they
are what grows from a stem. -/
structure Regrown (chart : Chart) (active states : Configuration) {item : Type}
    (items : List item) (domain : item → StateId) (seeds : item → StateId → Prop) : Prop where
  stem : ∀ one ∈ items, chart.Stem (seeds one) (domain one)
  domainActive : ∀ one ∈ items, domain one ∈ active
  apart : ∀ one ∈ items, ¬ ∃ other ∈ items,
    chart.isInside (domain one) (domain other) = true
  inside : ∀ one ∈ items, ∀ state, chart.isInside state (domain one) = true →
    (state ∈ states ↔ chart.Grown (seeds one) state)
  outside : ∀ state, (¬ ∃ one ∈ items, chart.isInside state (domain one) = true) →
    (state ∈ states ↔ state ∈ active)

namespace Regrown

variable {chart : Chart} (formed : chart.WellFormed) {active states : Configuration}
variable {item : Type} {items : List item} {domain : item → StateId}
variable {seeds : item → StateId → Prop} {one : item} {state : StateId}
variable (regrown : chart.Regrown active states items domain seeds)

include formed regrown

theorem mem_of_grown
    (isItem : one ∈ items)
    (grown : chart.Grown (seeds one) state) :
    state ∈ states := by
  rcases grown.within formed (regrown.stem one isItem).within with rfl | inside
  · exact (regrown.outside _ (regrown.apart one isItem)).mpr (regrown.domainActive one isItem)
  · exact (regrown.inside one isItem state inside).mpr grown

theorem filled_within
    (isItem : one ∈ items)
    (within : chart.Within state (domain one))
    (member : state ∈ states) :
    chart.Filled states state := by
  have grown : chart.Grown (seeds one) state := by
    rcases within with rfl | inside
    · exact .seed (regrown.stem one isItem).top
    · exact (regrown.inside one isItem state inside).mp member
  exact grown.filled formed fun other => regrown.mem_of_grown formed isItem

theorem child_kept
    {child : StateId}
    (located : ¬ ∃ one ∈ items, chart.Within state (domain one))
    (below : chart.parent? child = some state) :
    child ∈ states ↔ child ∈ active := by
  apply regrown.outside
  rintro ⟨one, isItem, inside⟩
  exact located ⟨one, isItem, parent_within formed below inside⟩

theorem filled
    (before : chart.Valid active)
    (member : state ∈ states) :
    chart.Filled states state := by
  by_cases located : ∃ one ∈ items, chart.Within state (domain one)
  · obtain ⟨one, isItem, within⟩ := located
    exact regrown.filled_within formed isItem within member
  · have isActive : state ∈ active := by
      refine (regrown.outside state ?_).mp member
      rintro ⟨one, isItem, inside⟩
      exact located ⟨one, isItem, .inr inside⟩
    constructor
    · intro compound
      obtain ⟨child, isRegion, childActive, _⟩ := before.compoundChild state isActive compound
      have below := ((mem_regions formed).mp isRegion).1
      exact ⟨child, (regrown.child_kept formed located below).mpr childActive,
        inside_of_parent formed below⟩
    · intro parallel region isRegion
      have below := ((mem_regions formed).mp isRegion).1
      exact ⟨region, (regrown.child_kept formed located below).mpr
        (before.regionsActive state isActive parallel region isRegion), .inl rfl⟩

theorem unforked
    (before : chart.Valid active) :
    chart.Unforked states := by
  intro first firstIn second secondIn parent firstBelow secondBelow compound
  by_cases located : ∃ one ∈ items, chart.Within parent (domain one)
  · obtain ⟨one, isItem, within⟩ := located
    have grown : ∀ child ∈ states, chart.parent? child = some parent →
        chart.Grown (seeds one) child := fun child member below =>
      (regrown.inside one isItem child
        (inside_within_trans formed (inside_of_parent formed below) within)).mp member
    exact (grown first firstIn firstBelow).siblings_eq formed (regrown.stem one isItem)
      (grown second secondIn secondBelow) compound firstBelow secondBelow
  · exact before.siblings_eq formed compound firstBelow secondBelow
      ((regrown.child_kept formed located firstBelow).mp firstIn)
      ((regrown.child_kept formed located secondBelow).mp secondIn)

/-- A valid configuration stays so when the inside of some states grows anew. -/
theorem valid
    (before : chart.Valid active) :
    chart.Valid states := by
  apply valid_of_filled formed
  · refine (regrown.outside root ?_).mpr before.rootActive
    rintro ⟨one, _, inside⟩
    rw [not_root_inside formed] at inside
    cases inside
  · intro state member
    by_cases located : ∃ one ∈ items, chart.isInside state (domain one) = true
    · obtain ⟨_, _, inside⟩ := located
      exact inside_in_range formed inside
    · exact before.inRange state ((regrown.outside state located).mp member)
  · intro state member parent below
    by_cases located : ∃ one ∈ items, chart.isInside state (domain one) = true
    · obtain ⟨one, isItem, inside⟩ := located
      have grown := (regrown.inside one isItem state inside).mp member
      exact regrown.mem_of_grown formed isItem
        (grown.parent formed (regrown.stem one isItem) inside below)
    · refine (regrown.outside parent ?_).mpr
        (before.parentActive state ((regrown.outside state located).mp member) parent below)
      rintro ⟨one, isItem, inside⟩
      exact located ⟨one, isItem, inside_trans formed (inside_of_parent formed below) inside⟩
  · intro state member
    by_cases located : ∃ one ∈ items, chart.isInside state (domain one) = true
    · obtain ⟨one, isItem, inside⟩ := located
      exact ((regrown.inside one isItem state inside).mp member).ordinary formed
        (regrown.stem one isItem)
    · exact before.ordinary state ((regrown.outside state located).mp member)
  · exact fun state member => regrown.filled formed before member
  · exact regrown.unforked formed before

end Regrown

end Statechart.Chart
