import Statechart.Proofs.Layout
import Statechart.Proofs.Tree

/-!
# Built machines

A description without faults whose root is an ordinary state describes a machine with a
well-formed chart: the faults that building reports are just what would break it.  The
states of such a machine bear different ids, and all targets of its transitions are states
of its chart.
-/

namespace Statechart

variable {L : Type}

namespace Draft

variable (spec : StateSpec L)

/-- The draft of a description: the laid-out chart and the described states. -/
abbrev ofSpec (spec : StateSpec L) : Draft L :=
  { chart := spec.layOut, heads := spec.heads }

section Kinds

variable {spec}
variable {state parent : StateId} {head : StateHead L}

theorem head?_of_in_range
    (inRange : state < spec.layOut.size) :
    ∃ head, (ofSpec spec).head? state = some head := by
  have bounded : state < spec.heads.length := by
    rw [← spec.layOut_length]
    exact inRange
  exact ⟨spec.heads[state], List.getElem?_eq_getElem bounded⟩

theorem in_range_of_head?
    (described : (ofSpec spec).head? state = some head) :
    state < spec.layOut.size := by
  obtain ⟨inRange, _⟩ := List.getElem?_eq_some_iff.mp described
  unfold Chart.size
  rw [spec.layOut_length]
  exact inRange

theorem chartWithKinds_node?
    {node : StateNode}
    (found : spec.layOut.node? state = some node)
    (described : (ofSpec spec).head? state = some head) :
    (ofSpec spec).chartWithKinds.node? state =
      some { node with kind := (ofSpec spec).kindOf state head } := by
  obtain ⟨_, index⟩ := spec.layOut_node?.mp found
  unfold Chart.node? at found ⊢
  have listed : spec.heads[state]? = some head := described
  have paired : (spec.layOut.nodes.zip spec.heads)[state]? = some (node, head) :=
    List.getElem?_zip_eq_some.mpr ⟨found, listed⟩
  simp only [chartWithKinds, List.getElem?_map, paired]
  simp [index]

theorem chartWithKinds_node?_none
    (beyond : spec.layOut.node? state = none) :
    (ofSpec spec).chartWithKinds.node? state = none := by
  unfold Chart.node? at beyond ⊢
  have far := List.getElem?_eq_none_iff.mp beyond
  apply List.getElem?_eq_none_iff.mpr
  simp only [chartWithKinds, List.length_map, List.length_zip]
  exact Nat.le_trans (Nat.min_le_left _ _) far

theorem node?_of_in_range
    (inRange : state < spec.layOut.size) :
    ∃ node, spec.layOut.node? state = some node :=
  ⟨spec.layOut.nodes[state], List.getElem?_eq_getElem inRange⟩

/-- A view of nodes that does not look at kinds reads the same from both charts. -/
theorem chartWithKinds_view
    {α : Type} (view : StateNode → α)
    (kindless : ∀ (node : StateNode) (kind : NodeKind), view { node with kind } = view node)
    (state : StateId) :
    ((ofSpec spec).chartWithKinds.node? state).map view =
      (spec.layOut.node? state).map view := by
  cases found : spec.layOut.node? state with
  | none => rw [chartWithKinds_node?_none found]
  | some node =>
      have inRange : state < spec.layOut.size := (List.getElem?_eq_some_iff.mp found).1
      obtain ⟨head, described⟩ := head?_of_in_range inRange
      rw [chartWithKinds_node? found described]
      simp [kindless]

theorem chartWithKinds_size : (ofSpec spec).chartWithKinds.size = spec.layOut.size := by
  simp only [Chart.size, chartWithKinds, List.length_map, List.length_zip,
    ← spec.layOut_length, Nat.min_self]

theorem chartWithKinds_parent? (state : StateId) :
    (ofSpec spec).chartWithKinds.parent? state = spec.layOut.parent? state := by
  have same : ((ofSpec spec).chartWithKinds.node? state).map StateNode.parent =
      (spec.layOut.node? state).map StateNode.parent :=
    chartWithKinds_view StateNode.parent (fun _ _ => rfl) state
  have bound := congrArg (Option.bind · id) same
  simpa [Chart.parent?, Option.bind_map] using bound

theorem chartWithKinds_children (state : StateId) :
    (ofSpec spec).chartWithKinds.children state = spec.layOut.children state := by
  have same : ((ofSpec spec).chartWithKinds.node? state).map StateNode.children =
      (spec.layOut.node? state).map StateNode.children :=
    chartWithKinds_view StateNode.children (fun _ _ => rfl) state
  unfold Chart.children
  rw [same]

theorem chartWithKinds_ancestors (state : StateId) :
    (ofSpec spec).chartWithKinds.ancestors state = spec.layOut.ancestors state := by
  have walks : ∀ fuel state, (ofSpec spec).chartWithKinds.ancestorsUpTo fuel state =
      spec.layOut.ancestorsUpTo fuel state := by
    intro fuel
    induction fuel with
    | zero => intro state; rfl
    | succ fuel ih =>
        intro state
        simp only [Chart.ancestorsUpTo, chartWithKinds_parent?, ih]
  simp only [Chart.ancestors, walks, chartWithKinds_size]

theorem chartWithKinds_isInside (state outer : StateId) :
    (ofSpec spec).chartWithKinds.isInside state outer = spec.layOut.isInside state outer := by
  simp only [Chart.isInside, chartWithKinds_ancestors]

theorem chartWithKinds_kind
    (described : (ofSpec spec).head? state = some head) :
    (ofSpec spec).chartWithKinds.kind state = (ofSpec spec).kindOf state head := by
  obtain ⟨node, found⟩ := node?_of_in_range (in_range_of_head? described)
  simp [Chart.kind, chartWithKinds_node? found described]

theorem chartWithKinds_kind_beyond
    (undescribed : (ofSpec spec).head? state = none) :
    (ofSpec spec).chartWithKinds.kind state = .atomic := by
  cases found : spec.layOut.node? state with
  | none => simp [Chart.kind, chartWithKinds_node?_none found]
  | some node =>
      obtain ⟨head, described⟩ :=
        head?_of_in_range (List.getElem?_eq_some_iff.mp found).1
      rw [undescribed] at described
      cases described

theorem plainKind_not_history
    (draft : Draft L) (state : StateId) (head : StateHead L) (memory : HistoryKind)
    (defaults : List StateId) :
    draft.plainKind state head ≠ .history memory defaults := by
  unfold plainKind
  cases head.kind with
  | final => simp
  | parallel => simp
  | regular =>
      dsimp only
      split
      · simp
      · split <;> simp
  | history kind =>
      dsimp only
      split
      · simp
      · split <;> simp

theorem kindOf_plain
    (draft : Draft L) (state : StateId) (head : StateHead L)
    (plain : ∀ memory, head.kind ≠ .history memory) :
    draft.kindOf state head = draft.plainKind state head := by
  unfold kindOf
  split
  · rename_i memory isHistory
    exact absurd isHistory (plain memory)
  · rfl

theorem kindOf_eq_history
    {draft : Draft L} {state : StateId} {head : StateHead L} {memory : HistoryKind}
    {defaults : List StateId}
    (kind : draft.kindOf state head = .history memory defaults) :
    draft.historyDefaults state head.historyTarget = defaults := by
  unfold kindOf at kind
  split at kind
  · cases kind
    rfl
  · exact absurd kind (plainKind_not_history draft state head memory defaults)

theorem isHistory_iff :
    (ofSpec spec).chartWithKinds.isHistory state = (ofSpec spec).describesHistory state := by
  cases described : (ofSpec spec).head? state with
  | none => simp [Chart.isHistory, chartWithKinds_kind_beyond described, describesHistory,
      described]
  | some head =>
      unfold Chart.isHistory describesHistory
      rw [chartWithKinds_kind described, described]
      obtain ⟨key, id, headKind⟩ := head
      cases headKind with
      | history memory => rfl
      | parallel => rfl
      | final => rfl
      | regular =>
          rw [kindOf_plain _ _ _ (fun memory => by simp)]
          dsimp only
          split
          · exact absurd ‹_› (plainKind_not_history _ _ _ _ _)
          · rfl

theorem regions_eq :
    (ofSpec spec).chartWithKinds.regions state = (ofSpec spec).regularChildren state := by
  unfold Chart.regions regularChildren
  rw [chartWithKinds_children]
  apply List.filter_congr
  intro child _
  rw [isHistory_iff]

theorem kindErrors_nil
    (faultless : (ofSpec spec).allKindErrors = [])
    (described : (ofSpec spec).head? state = some head) :
    (ofSpec spec).kindErrors state head = [] := by
  obtain ⟨node, found⟩ := node?_of_in_range (in_range_of_head? described)
  obtain ⟨_, index⟩ := spec.layOut_node?.mp found
  have paired : (spec.layOut.nodes.zip spec.heads)[state]? = some (node, head) :=
    List.getElem?_zip_eq_some.mpr ⟨found, described⟩
  have member := List.mem_of_getElem? paired
  unfold allKindErrors at faultless
  rw [List.flatMap_eq_nil_iff] at faultless
  have none := faultless (node, head) member
  rw [← index]
  exact none

end Kinds

section Kind

variable {spec}

theorem initialChild?_of_kind
    {state initial : StateId}
    (kind : (ofSpec spec).chartWithKinds.kind state = .compound initial) :
    ∃ head, (ofSpec spec).head? state = some head ∧
      (ofSpec spec).initialChild? state head.initial = some initial := by
  cases described : (ofSpec spec).head? state with
  | none =>
      rw [chartWithKinds_kind_beyond described] at kind
      cases kind
  | some head =>
      rw [chartWithKinds_kind described] at kind
      refine ⟨head, rfl, ?_⟩
      obtain ⟨key, id, headKind⟩ := head
      cases headKind with
      | history memory => simp [kindOf] at kind
      | parallel => simp [kindOf, plainKind] at kind
      | final => simp [kindOf, plainKind] at kind
      | regular =>
          simp only [kindOf, plainKind] at kind
          split at kind
          · cases kind
          · split at kind
            · rename_i child isChild
              cases kind
              exact isChild
            · cases kind

theorem initial_below
    {state initial : StateId}
    (kind : (ofSpec spec).chartWithKinds.kind state = .compound initial) :
    initial ∈ (ofSpec spec).chartWithKinds.regions state := by
  rw [regions_eq]
  obtain ⟨head, _, found⟩ := initialChild?_of_kind kind
  unfold initialChild? at found
  cases named : head.initial with
  | none =>
      rw [named] at found
      exact List.mem_of_head? found
  | some key =>
      rw [named] at found
      exact List.mem_of_find?_eq_some found

variable (faultless : (ofSpec spec).allKindErrors = [])

include faultless

theorem leaf_childless
    {state : StateId}
    (leaf : (ofSpec spec).chartWithKinds.isLeaf state = true) :
    (ofSpec spec).chartWithKinds.children state = [] := by
  rw [chartWithKinds_children]
  cases described : (ofSpec spec).head? state with
  | none =>
      cases found : spec.layOut.node? state with
      | none => simp [Chart.children, found]
      | some node =>
          obtain ⟨head, isDescribed⟩ :=
            head?_of_in_range (List.getElem?_eq_some_iff.mp found).1
          rw [described] at isDescribed
          cases isDescribed
  | some head =>
      have noFaults := kindErrors_nil faultless described
      unfold Chart.isLeaf at leaf
      rw [chartWithKinds_kind described] at leaf
      by_contra some
      have notEmpty : (spec.layOut.children state).isEmpty = false := by
        simpa using some
      obtain ⟨key, id, headKind, initial⟩ := head
      cases headKind with
      | history memory => simp [kindOf] at leaf
      | parallel => simp [kindOf, plainKind] at leaf
      | final => simp [kindErrors, surplusChildren, notEmpty] at noFaults
      | regular =>
          cases child : (ofSpec spec).initialChild? state initial with
          | some first => simp [kindOf, plainKind, notEmpty, child] at leaf
          | none =>
              cases named : initial <;>
                simp_all [kindErrors]

theorem history_childless
    {state : StateId}
    (history : (ofSpec spec).chartWithKinds.isHistory state = true) :
    (ofSpec spec).chartWithKinds.children state = [] := by
  rw [chartWithKinds_children]
  rw [isHistory_iff] at history
  cases described : (ofSpec spec).head? state with
  | none => simp [describesHistory, described] at history
  | some head =>
      have noFaults := kindErrors_nil faultless described
      by_contra some
      have notEmpty : (spec.layOut.children state).isEmpty = false := by
        simpa using some
      obtain ⟨key, id, headKind⟩ := head
      cases headKind with
      | history memory => simp [kindErrors, surplusChildren, notEmpty] at noFaults
      | parallel => simp [describesHistory, described] at history
      | final => simp [describesHistory, described] at history
      | regular => simp [describesHistory, described] at history

omit faultless in
theorem usualDefaults_below
    {parent default : StateId}
    (member : default ∈ (ofSpec spec).usualDefaults parent) :
    default ∈ (ofSpec spec).chartWithKinds.regions parent := by
  unfold usualDefaults at member
  cases described : (ofSpec spec).head? parent with
  | none => simp [described] at member
  | some head =>
      have kind := chartWithKinds_kind described
      obtain ⟨key, id, headKind⟩ := head
      cases headKind with
      | history memory => simp [described] at member
      | final => simp [described, plainKind] at member
      | parallel =>
          rw [regions_eq]
          simpa [described, plainKind] using member
      | regular =>
          rw [described] at member
          dsimp only at member
          rw [kindOf_plain _ _ _ (fun memory => by simp)] at kind
          rw [← kind] at member
          cases found : (ofSpec spec).chartWithKinds.kind parent with
          | compound initial =>
              obtain rfl : default = initial := by simpa [found] using member
              exact initial_below found
          | parallel =>
              rw [regions_eq]
              simpa [found] using member
          | atomic => simp [found] at member
          | final => simp [found] at member
          | history memory defaults => simp [found] at member

end Kind

theorem layOut_parent_inside
    {spec : StateSpec L} {child parent : StateId}
    (below : spec.layOut.parent? child = some parent) :
    spec.layOut.isInside child parent = true := by
  have inRange := Chart.parent_in_range below
  have before := spec.layOut_parent_before below
  obtain ⟨fuel, enough⟩ : ∃ fuel, spec.layOut.size = fuel + 1 :=
    Nat.exists_eq_succ_of_ne_zero (Nat.ne_zero_of_lt inRange)
  simp [Chart.isInside, Chart.ancestors, enough, Chart.ancestorsUpTo, below, before]

theorem historyDefaults_below
    {spec : StateSpec L} {state parent default : StateId} {reference : Option String}
    (below : spec.layOut.parent? state = some parent)
    (member : default ∈ (ofSpec spec).historyDefaults state reference) :
    (ofSpec spec).describesHistory default = false ∧
      spec.layOut.isInside default parent = true := by
  unfold historyDefaults at member
  simp only [below] at member
  cases reference with
  | none =>
      have isRegion := usualDefaults_below member
      rw [Chart.regions, List.mem_filter, chartWithKinds_children,
        spec.layOut_children_iff] at isRegion
      rw [← isHistory_iff]
      exact ⟨by simpa using isRegion.2, layOut_parent_inside isRegion.1⟩
  | some reference =>
      dsimp only at member
      cases found : target? spec.layOut state reference with
      | none => simp [found] at member
      | some target =>
          simp only [found] at member
          by_cases accepted : (ofSpec spec).acceptsDefault state parent target = true
          · rw [if_pos accepted] at member
            obtain rfl : default = target := by simpa using member
            simp only [acceptsDefault, Bool.and_eq_true, Bool.not_eq_true'] at accepted
            exact ⟨accepted.1.2, accepted.2⟩
          · rw [if_neg accepted] at member
            cases member

theorem rootOrdinary_of_kind
    {spec : StateSpec L}
    (ordinaryRoot : spec.head.kind = .regular ∨ spec.head.kind = .parallel) :
    (ofSpec spec).describesHistory Chart.root = false := by
  have described : (ofSpec spec).head? Chart.root = some spec.head := by
    obtain ⟨head, children⟩ := spec
    rfl
  rw [describesHistory, described]
  obtain ⟨⟨key, id, headKind⟩, children⟩ := spec
  rcases ordinaryRoot with kind | kind
  · simp only [StateSpec.head] at kind
    subst kind
    rfl
  · simp only [StateSpec.head] at kind
    subst kind
    rfl

theorem rootOpen_of_kind
    {spec : StateSpec L}
    (ordinaryRoot : spec.head.kind = .regular ∨ spec.head.kind = .parallel) :
    (ofSpec spec).chartWithKinds.isFinal Chart.root = false := by
  have described : (ofSpec spec).head? Chart.root = some spec.head := by
    obtain ⟨head, children⟩ := spec
    rfl
  have plain : ∀ memory, spec.head.kind ≠ .history memory := by
    rintro memory kind
    rcases ordinaryRoot with regular | parallel <;> simp_all
  unfold Chart.isFinal
  rw [chartWithKinds_kind described, kindOf_plain _ _ _ plain]
  unfold plainKind
  rcases ordinaryRoot with kind | kind
  · rw [kind]
    dsimp only
    split
    · rfl
    · split <;> rfl
  · rw [kind]
    rfl

/-- A draft without faults below an ordinary root has a well-formed chart. -/
theorem chartWithKinds_wellFormed
    (spec : StateSpec L)
    (faultless : (ofSpec spec).allKindErrors = [])
    (ordinaryRoot : spec.head.kind = .regular ∨ spec.head.kind = .parallel) :
    (ofSpec spec).chartWithKinds.WellFormed where
  nonempty := by
    obtain ⟨node, rest, nodes, _⟩ := spec.layOut_placed
    rw [chartWithKinds_size]
    simp [Chart.size, nodes, Chart.root]
  rootOnTop := by
    rw [chartWithKinds_parent?]
    exact spec.layOut_root_on_top
  rootOrdinary := by
    rw [isHistory_iff]
    exact rootOrdinary_of_kind ordinaryRoot
  parentBefore := by
    intro state parent below
    rw [chartWithKinds_parent?] at below
    exact spec.layOut_parent_before below
  parented := by
    intro state inRange below
    rw [chartWithKinds_size] at inRange
    rw [chartWithKinds_parent?]
    exact spec.layOut_parented inRange below
  mem_children := by
    intro parent child
    rw [chartWithKinds_children, chartWithKinds_parent?]
    exact spec.layOut_children_iff
  childrenOrdered := by
    intro parent
    rw [chartWithKinds_children]
    exact spec.layOut_children_ordered parent
  initialBelow := initial_below
  defaultsBelow := by
    intro state memory defaults parent kind below default member
    rw [chartWithKinds_parent?] at below
    rw [chartWithKinds_isInside, isHistory_iff]
    cases described : (ofSpec spec).head? state with
    | none =>
        rw [chartWithKinds_kind_beyond described] at kind
        cases kind
    | some head =>
        rw [chartWithKinds_kind described] at kind
        have stands : (ofSpec spec).historyDefaults state head.historyTarget = defaults :=
          kindOf_eq_history kind
        rw [← stands] at member
        exact historyDefaults_below below member
  leafChildless := leaf_childless faultless
  historyChildless := history_childless faultless

end Draft

namespace MachineSpec

variable {spec : MachineSpec L} {machine : Machine L}

/-- The root of a described machine is an ordinary or a parallel state: nothing else can be
asked of a root. -/
def HasOrdinaryRoot (spec : MachineSpec L) : Prop :=
  spec.root.head.kind = .regular ∨ spec.root.head.kind = .parallel

theorem build_ok
    (built : spec.build = .ok machine) :
    spec.errors = [] ∧ ∃ context, machine = spec.machine context := by
  unfold build at built
  cases faults : spec.errors with
  | nil =>
      cases given : spec.context with
      | none => simp [faults, given] at built
      | some context =>
          simp only [faults, given, Except.ok.injEq] at built
          exact ⟨rfl, context, built.symm⟩
  | cons fault faults =>
      cases given : spec.context <;> simp_all

theorem build_of_faultless
    {context : Json → Json}
    (faultless : spec.errors = [])
    (given : spec.context = some context) :
    spec.build = .ok (spec.machine context) := by
  simp [build, faultless, given]

theorem build_chart
    (built : spec.build = .ok machine) :
    machine.chart = (Draft.ofSpec spec.root).chartWithKinds := by
  obtain ⟨_, context, rfl⟩ := build_ok built
  rfl

theorem build_faultless
    (built : spec.build = .ok machine) :
    spec.root.layOut.layoutErrors = [] ∧ (Draft.ofSpec spec.root).allKindErrors = [] := by
  obtain ⟨faultless, _⟩ := build_ok built
  unfold errors at faultless
  simp only [List.append_eq_nil_iff] at faultless
  exact ⟨faultless.1.1.2, faultless.1.2⟩

/-- The chart of a built machine is well formed. -/
theorem build_wellFormed
    (built : spec.build = .ok machine)
    (ordinaryRoot : spec.HasOrdinaryRoot) :
    machine.chart.WellFormed := by
  rw [build_chart built]
  exact Draft.chartWithKinds_wellFormed spec.root (build_faultless built).2 ordinaryRoot

/-- The root of a built machine is no final state. -/
theorem build_root_open
    (built : spec.build = .ok machine)
    (ordinaryRoot : spec.HasOrdinaryRoot) :
    machine.chart.isFinal Chart.root = false := by
  rw [build_chart built]
  exact Draft.rootOpen_of_kind ordinaryRoot

/-- The states of a built machine bear different ids. -/
theorem build_ids_distinct
    (built : spec.build = .ok machine)
    {first second : StateId}
    (firstInRange : first < machine.chart.size)
    (secondInRange : second < machine.chart.size)
    (same : machine.chart.id first = machine.chart.id second) :
    first = second := by
  have faultless := (build_faultless built).1
  rw [build_chart built] at firstInRange secondInRange same
  rw [Draft.chartWithKinds_size] at firstInRange secondInRange
  have ids : ∀ state, (Draft.ofSpec spec.root).chartWithKinds.id state =
      spec.root.layOut.id state := by
    intro state
    unfold Chart.id
    rw [Draft.chartWithKinds_view StateNode.id (fun _ _ => rfl) state]
  rw [ids, ids] at same
  have ordered : ∀ {low high : StateId}, low < high → high < spec.root.layOut.size →
      spec.root.layOut.id low ≠ spec.root.layOut.id high := by
    intro low high before inRange same
    have lowInRange : low < spec.root.layOut.size := Nat.lt_trans before inRange
    have highFound : spec.root.layOut.node? high = some spec.root.layOut.nodes[high] :=
      List.getElem?_eq_getElem inRange
    have lowFound : spec.root.layOut.node? low = some spec.root.layOut.nodes[low] :=
      List.getElem?_eq_getElem lowInRange
    obtain ⟨member, index⟩ := spec.root.layOut_node?.mp highFound
    unfold Chart.layoutErrors at faultless
    rw [List.flatMap_eq_nil_iff] at faultless
    have noFaults := faultless _ member
    unfold Chart.nameErrors at noFaults
    rw [List.append_eq_nil_iff, index] at noFaults
    have repeated : ((spec.root.layOut.nodes.take high).any fun other =>
        other.id = spec.root.layOut.nodes[high].id) = true := by
      rw [List.any_eq_true]
      refine ⟨spec.root.layOut.nodes[low], ?_, ?_⟩
      · exact List.mem_take_iff_getElem.mpr
          ⟨low, Nat.lt_min.mpr ⟨before, lowInRange⟩, rfl⟩
      · simpa [Chart.id, highFound, lowFound] using same
    rw [if_pos repeated] at noFaults
    cases noFaults.2
  rcases Nat.lt_trichotomy first second with before | equal | after
  · exact absurd same (ordered before secondInRange)
  · exact equal
  · exact absurd same.symm (ordered after firstInRange)

end MachineSpec

theorem Chart.allClauses_getElem?
    (chart : Chart) {heads : List (StateHead L)} {position : Nat} {head : StateHead L}
    (listed : heads[position]? = some head)
    (taken : List String) (first : StateId) :
    ∃ earlier, (chart.allClauses taken first heads)[position]? =
      some (head.clauses (chart.id (first + position)) earlier) := by
  induction heads generalizing taken first position with
  | nil => simp at listed
  | cons other heads ih =>
      cases position with
      | zero =>
          obtain rfl : other = head := by simpa using listed
          exact ⟨taken, rfl⟩
      | succ position =>
          have found := ih (by simpa using listed) (taken ++ other.invokeIds (chart.id first))
            (first + 1)
          rwa [Nat.add_right_comm] at found

namespace MachineSpec

variable {spec : MachineSpec L} {machine : Machine L}

/-- What is declared for a described state is looked at. -/
theorem clauses_listed
    {state : StateId} {head : StateHead L}
    (described : spec.root.heads[state]? = some head) :
    ∃ taken, (spec.draft.chartWithKinds.allClauses [] Chart.root spec.draft.heads)[state]? =
      some (head.clauses (spec.draft.chartWithKinds.id state) taken) := by
  have drafted : spec.draft.heads[state]? = some head := described
  simpa [Chart.root] using spec.draft.chartWithKinds.allClauses_getElem? drafted [] Chart.root

/-- A state of a built machine does what is declared for it, and nothing that is declared is at
fault. -/
theorem build_conduct
    (built : spec.build = .ok machine)
    {state : StateId} {head : StateHead L}
    (described : spec.root.heads[state]? = some head) :
    ∃ taken,
      (∀ clause ∈ head.clauses (machine.chart.id state) taken,
        machine.chart.clauseErrors state clause = []) ∧
      machine.conduct state = machine.chart.conductOf state head
        (head.clauses (machine.chart.id state) taken) := by
  obtain ⟨faultless, context, rfl⟩ := build_ok built
  have drafted : spec.draft.heads[state]? = some head := described
  obtain ⟨taken, listed⟩ := clauses_listed described
  refine ⟨taken, fun clause isClause => ?_, ?_⟩
  · have clauseAt : (head.clauses (spec.draft.chartWithKinds.id state) taken, state) ∈
        (spec.draft.chartWithKinds.allClauses [] Chart.root spec.draft.heads).zipIdx := by
      refine List.mem_of_getElem? (i := state) ?_
      rw [List.getElem?_zipIdx, listed]
      simp
    unfold errors at faultless
    exact List.flatMap_eq_nil_iff.mp
      (List.flatMap_eq_nil_iff.mp (List.append_eq_nil_iff.mp faultless).2 _ clauseAt) _ isClause
  · have placed : (spec.draft.heads.zip
        (spec.draft.chartWithKinds.allClauses [] Chart.root spec.draft.heads))[state]? =
          some (head, head.clauses (spec.draft.chartWithKinds.id state) taken) :=
      List.getElem?_zip_eq_some.mpr ⟨drafted, listed⟩
    have conducted : (spec.machine context).conducts[state]? =
        some (spec.draft.chartWithKinds.conductOf state head
          (head.clauses (spec.draft.chartWithKinds.id state) taken)) := by
      simp only [machine, List.getElem?_map, List.getElem?_zipIdx, placed]
      simp
    rw [Machine.conduct, conducted]
    rfl

/-- Only the described states of a built machine have transitions. -/
theorem build_described
    (built : spec.build = .ok machine)
    {state : StateId} {transition : Transition L}
    (declared : transition ∈ (machine.conduct state).transitions) :
    ∃ head, spec.root.heads[state]? = some head := by
  obtain ⟨_, context, rfl⟩ := build_ok built
  have sized : (spec.machine context).conducts.length ≤ spec.root.heads.length := by
    simp only [MachineSpec.machine, MachineSpec.draft, List.length_map, List.length_zipIdx,
      List.length_zip]
    exact Nat.min_le_left _ _
  by_cases placed : state < (spec.machine context).conducts.length
  · exact ⟨_, List.getElem?_eq_getElem (Nat.lt_of_lt_of_le placed sized)⟩
  · rw [Machine.conduct, List.getElem?_eq_none (Nat.not_lt.mp placed)] at declared
    cases declared

theorem build_in_range
    (built : spec.build = .ok machine)
    {state : StateId} {head : StateHead L}
    (described : spec.root.heads[state]? = some head) :
    state < machine.chart.size := by
  rw [build_chart built, Draft.chartWithKinds_size]
  exact Draft.in_range_of_head? described

end MachineSpec

section Targets

namespace Chart

variable {chart : Chart} (formed : chart.WellFormed)
variable (indexed : ∀ node ∈ chart.nodes, node.index < chart.size)

include formed

theorem descend_in_range
    {start found : StateId} {keys : List String}
    (inRange : start < chart.size)
    (descends : chart.descend start keys = some found) :
    found < chart.size := by
  induction keys generalizing start with
  | nil =>
      obtain rfl : start = found := by simpa [descend] using descends
      exact inRange
  | cons key keys ih =>
      unfold descend at descends
      cases child : (chart.children start).find? fun child => chart.key child = key with
      | none => simp [child] at descends
      | some child =>
          simp only [child] at descends
          have member := List.mem_of_find?_eq_some ‹_›
          exact ih (parent_in_range (formed.mem_children.mp member)) descends

include indexed

omit formed in
theorem bearer?_in_range
    {id : String} {found : StateId}
    (bears : chart.bearer? id = some found) :
    found < chart.size := by
  unfold bearer? at bears
  obtain ⟨node, isFirst, rfl⟩ := Option.map_eq_some_iff.mp bears
  exact indexed node (List.mem_reverse.mp (List.mem_of_find?_eq_some isFirst))

theorem find?_in_range
    {reference : String} {found : StateId}
    (names : chart.find? reference = some found) :
    found < chart.size := by
  unfold find? at names
  dsimp only at names
  split at names
  · rename_i state bears
    cases names
    exact bearer?_in_range indexed bears
  · split at names
    · cases names
    · rename_i base back bases listed
      have member : (base, back) ∈ (base, back) :: bases := List.mem_cons_self
      rw [← listed, List.mem_filterMap] at member
      obtain ⟨split, _, bears⟩ := member
      obtain ⟨held, found, same⟩ := Option.map_eq_some_iff.mp bears
      cases same
      exact descend_in_range formed (bearer?_in_range indexed found) names

theorem target?_in_range
    {source found : StateId} {reference : String}
    (inRange : source < chart.size)
    (names : Draft.target? chart source reference = some found) :
    found < chart.size := by
  unfold Draft.target? at names
  split at names
  · exact find?_in_range formed indexed names
  · exact descend_in_range formed inRange names
  · refine descend_in_range formed ?_ names
    cases above : chart.parent? source with
    | none => exact inRange
    | some parent => exact Nat.lt_trans (formed.parentBefore above) inRange

theorem candidate_targets_in_range
    {source : StateId} {spec : TransitionSpec L}
    (inRange : source < chart.size) :
    ∀ target ∈ (chart.candidate source spec).targets, target < chart.size := by
  intro target member
  obtain ⟨reference, _, names⟩ := List.mem_filterMap.mp member
  exact target?_in_range formed indexed inRange names

end Chart

/-- All candidates of these transitions lead to states of the chart. -/
def Transition.LeadWithin (chart : Chart) (transitions : List (Transition L)) : Prop :=
  ∀ transition ∈ transitions, ∀ candidate ∈ transition.candidates,
    ∀ target ∈ candidate.targets, target < chart.size

theorem Transition.add_leadWithin
    {chart : Chart} {descriptor : Descriptor} {candidate : Candidate L}
    {transitions : List (Transition L)}
    (new : ∀ target ∈ candidate.targets, target < chart.size)
    (known : LeadWithin chart transitions) :
    LeadWithin chart (Transition.add descriptor candidate transitions) := by
  induction transitions with
  | nil =>
      intro transition member found isCandidate
      obtain rfl : transition = { descriptor, candidates := [candidate] } := by
        simpa [Transition.add] using member
      obtain rfl : found = candidate := by simpa using isCandidate
      exact new
  | cons first transitions ih =>
      have later := ih fun transition member =>
        known transition (List.mem_cons_of_mem first member)
      unfold Transition.add
      by_cases same : first.descriptor = descriptor
      · rw [if_pos same]
        intro transition member found isCandidate
        rcases List.mem_cons.mp member with rfl | further
        · rcases List.mem_append.mp isCandidate with old | added
          · exact known first List.mem_cons_self found old
          · obtain rfl : found = candidate := by simpa using added
            exact new
        · exact known transition (List.mem_cons_of_mem first further) found isCandidate
      · rw [if_neg same]
        intro transition member
        rcases List.mem_cons.mp member with rfl | further
        · exact known transition List.mem_cons_self
        · exact later transition further

theorem Chart.transitions_leadWithin
    {chart : Chart} {source : StateId}
    (formed : chart.WellFormed)
    (indexed : ∀ node ∈ chart.nodes, node.index < chart.size)
    (inRange : source < chart.size)
    (clauses : List (Clause L)) :
    Transition.LeadWithin chart (chart.transitions source clauses) := by
  refine List.foldlRecOn (motive := Transition.LeadWithin chart) clauses _ ?_ ?_
  · intro transition member
    cases member
  · intro known leads clause _
    cases clause with
    | fault error => exact leads
    | transition descriptor spec =>
        exact Transition.add_leadWithin
          (chart.candidate_targets_in_range formed indexed inRange) leads

namespace MachineSpec

variable {spec : MachineSpec L} {machine : Machine L}

theorem build_indexed
    (built : spec.build = .ok machine) :
    ∀ node ∈ machine.chart.nodes, node.index < machine.chart.size := by
  rw [build_chart built]
  intro node member
  rw [Draft.chartWithKinds_size]
  simp only [Draft.chartWithKinds, List.mem_map] at member
  obtain ⟨⟨laid, head⟩, paired, rfl⟩ := member
  have isLaid := (List.of_mem_zip paired).1
  have found := spec.root.layOut_node?.mpr ⟨isLaid, rfl⟩
  exact (List.getElem?_eq_some_iff.mp found).1

/-- All transitions of a built machine lead to states of its chart. -/
theorem build_leadWithin
    (built : spec.build = .ok machine)
    (ordinaryRoot : spec.HasOrdinaryRoot)
    (source : StateId) :
    Transition.LeadWithin machine.chart (machine.conduct source).transitions := by
  have formed := build_wellFormed built ordinaryRoot
  have indexed := build_indexed built
  intro transition member
  obtain ⟨head, described⟩ := build_described built member
  obtain ⟨taken, _, conducted⟩ := build_conduct built described
  rw [conducted] at member
  exact Chart.transitions_leadWithin formed indexed (build_in_range built described) _ transition
    member

/-- A player, with playback and volume side by side. -/
def player : MachineSpec L :=
  { root := .mk { key := "player", kind := .parallel }
      [.mk { key := "playback" }
          [.mk { key := "paused", transitions := [(.on "PLAY", .toTarget "playing")] } [],
           .mk { key := "playing", transitions := [(.on "PAUSE", .toTarget "paused")] } []],
       .mk { key := "volume" }
          [.mk { key := "low", transitions := [(.on "LOUDER", .toTarget "high")] } [],
           .mk { key := "high", transitions := [(.on "SOFTER", .toTarget "low")] } []]]
    context := some fun _ => .null }

/-- Two regions side by side, of which the first, itself compound, targets itself. -/
def mirror : MachineSpec L :=
  { root := .mk { key := "m", kind := .parallel }
      [.mk { key := "A", transitions := [(.on "E", .toTarget "A")] }
          [.mk { key := "a1" } [], .mk { key := "a2" } []],
       .mk { key := "B", entry := [.log none fun _ _ => "again"] } []]
    context := some fun _ => .null }

end MachineSpec

end Targets

end Statechart
