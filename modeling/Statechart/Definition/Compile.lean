import Statechart.Definition.Layout

/-!
# From description to machine

Once all states have their places, their kinds are decided, and then the references in
their transitions are resolved.  Every fault met on the way is collected; the machine
exists only if there is none.
-/

namespace Statechart

variable {L : Type}

/-- A laid-out description: the chart and what was described, in the same order. -/
structure Draft (L : Type) where
  chart : Chart
  heads : List (StateHead L)

namespace Draft

def head? (draft : Draft L) (state : StateId) : Option (StateHead L) :=
  draft.heads[state]?

/-- Was the state described as a history state? -/
def describesHistory (draft : Draft L) (state : StateId) : Bool :=
  match draft.head? state with
  | some { kind := .history _, .. } => true
  | _ => false

def regularChildren (draft : Draft L) (state : StateId) : List StateId :=
  (draft.chart.children state).filter fun child => !draft.describesHistory child

/-- The child that a compound state starts in. -/
def initialChild? (draft : Draft L) (state : StateId) (initial : Option String) :
    Option StateId :=
  match initial with
  | some key =>
      (draft.regularChildren state).find? fun child => draft.chart.key child = key
  | none => (draft.regularChildren state).head?

/-- The kind of a state that is no history state. -/
def plainKind (draft : Draft L) (state : StateId) (head : StateHead L) : NodeKind :=
  match head.kind with
  | .final => .final
  | .parallel => .parallel
  | .regular | .history _ =>
      if (draft.chart.children state).isEmpty then .atomic
      else
        match draft.initialChild? state head.initial with
        | some initial => .compound initial
        | none => .atomic

/-- The state that a reference in a transition of `source` names: an id after its mark,
keys below the source after a point, or else keys below the parent of the source. -/
def target? (chart : Chart) (source : StateId) (reference : String) : Option StateId :=
  match reference.toList with
  | '#' :: _ => chart.find? reference
  | '.' :: keys => chart.descend source ((Text.cut keys).map String.ofList)
  | _ => chart.descend ((chart.parent? source).getD source) (Text.segments reference)

/-- May `found` be the default of a history state below `parent`? -/
def acceptsDefault (draft : Draft L) (state parent found : StateId) : Bool :=
  found ≠ state && !draft.describesHistory found && draft.chart.isInside found parent

/-- What a history state below a state of this kind stands for at first. -/
def usualDefaults (draft : Draft L) (parent : StateId) : List StateId :=
  match draft.head? parent with
  | none => []
  | some { kind := .history _, .. } => []
  | some head =>
      match draft.plainKind parent head with
      | .compound initial => [initial]
      | .parallel => draft.regularChildren parent
      | _ => []

/-- What a history state stands for at first. -/
def historyDefaults (draft : Draft L) (state : StateId) (target : Option String) :
    List StateId :=
  match draft.chart.parent? state, target with
  | none, _ => []
  | some parent, none => draft.usualDefaults parent
  | some parent, some reference =>
      match target? draft.chart state reference with
      | some found => if draft.acceptsDefault state parent found then [found] else []
      | none => []

def kindOf (draft : Draft L) (state : StateId) (head : StateHead L) : NodeKind :=
  match head.kind with
  | .history kind => .history kind (draft.historyDefaults state head.historyTarget)
  | _ => draft.plainKind state head

/-- Faults of the default that a history state names. -/
def defaultErrors (draft : Draft L) (state : StateId) (target : Option String) :
    List DefinitionError :=
  match draft.chart.parent? state, target with
  | some parent, some reference =>
      match target? draft.chart state reference with
      | some found =>
          if draft.acceptsDefault state parent found then []
          else [.invalidHistoryDefault (draft.chart.id state) reference]
      | none => [.unknownTarget (draft.chart.id state) reference]
  | _, _ => []

/-- The fault of naming an initial child where none can be. -/
def surplusInitial (id : String) : Option String → List DefinitionError
  | some key => [.invalidInitial id key]
  | none => []

/-- The fault of having children where none can be. -/
def surplusChildren (draft : Draft L) (state : StateId) (kind : String) :
    List DefinitionError :=
  if (draft.chart.children state).isEmpty then []
  else [.unexpectedChildren (draft.chart.id state) kind]

/-- Faults met when the kind of a state is decided. -/
def kindErrors (draft : Draft L) (state : StateId) (head : StateHead L) :
    List DefinitionError :=
  let id := draft.chart.id state
  match head.kind with
  | .final => draft.surplusChildren state "final"
  | .history _ =>
      draft.surplusChildren state "history" ++ draft.defaultErrors state head.historyTarget
  | .parallel =>
      (if (draft.chart.children state).isEmpty then [.emptyParallel id] else []) ++
        surplusInitial id head.initial
  | .regular =>
      if (draft.chart.children state).isEmpty then surplusInitial id head.initial
      else
        match draft.initialChild? state head.initial, head.initial with
        | some _, _ => []
        | none, some key => [.invalidInitial id key]
        | none, none => [.missingInitial id]

/-- The chart with the kinds of all states decided. -/
def chartWithKinds (draft : Draft L) : Chart :=
  { nodes := (draft.chart.nodes.zip draft.heads).map fun (node, head) =>
      { node with kind := draft.kindOf node.index head } }

/-- Faults met when the kinds are decided, in document order. -/
def allKindErrors (draft : Draft L) : List DefinitionError :=
  (draft.chart.nodes.zip draft.heads).flatMap fun (node, head) =>
    draft.kindErrors node.index head

end Draft

namespace Chart

/-- Can two states be active together: does one lie in the other, or do they first meet
in a parallel state? -/
def coexist (chart : Chart) (left right : StateId) : Bool :=
  left = right || chart.isInside left right || chart.isInside right left ||
    match (chart.ancestors left).find? fun ancestor => chart.isInside right ancestor with
    | some ancestor => chart.isParallel ancestor
    | none => false

/-- The faults of targets that cannot be active together; each target is blamed with the
first later one that it excludes. -/
def targetConflicts (chart : Chart) (source : String) :
    List StateId → List DefinitionError
  | [] => []
  | first :: rest =>
      (match rest.find? fun second => !chart.coexist first second with
        | some second => [.conflictingTargets source (chart.id first) (chart.id second)]
        | none => []) ++ targetConflicts chart source rest

/-- The targets of a described transition that can be found. -/
def targets (chart : Chart) (source : StateId) (spec : TransitionSpec L) : List StateId :=
  spec.targets.filterMap (Draft.target? chart source)

def transitionErrors (chart : Chart) (source : StateId) (spec : TransitionSpec L) :
    List DefinitionError :=
  let id := chart.id source
  let references := (spec.guard.map Guard.references).getD []
  (spec.targets.filter fun target => (Draft.target? chart source target).isNone).map
      (.unknownTarget id) ++
    chart.targetConflicts id (chart.targets source spec) ++
    (references.filter fun reference => (chart.find? reference).isNone).map
      (.unknownGuardState id)

def candidate (chart : Chart) (source : StateId) (spec : TransitionSpec L) : Candidate L :=
  { guard := spec.guard
    targets := chart.targets source spec
    actions := spec.actions
    reenter := spec.reenter }

end Chart

/-- What is declared for a state, one item after another. -/
inductive Clause (L : Type) where
  /-- A transition and what it waits for. -/
  | transition (descriptor : Descriptor) (spec : TransitionSpec L)
  /-- Something that cannot stand there. -/
  | fault (error : DefinitionError)

namespace StateHead

/-- The descriptor of a declared transition of the state with this id. -/
def clauseOf (id : String) : Cue × TransitionSpec L → Clause L
  | (.on text, spec) =>
      match Descriptor.parse? text with
      | some descriptor => .transition descriptor spec
      | none => .fault (.invalidDescriptor id text)
  | (.always, spec) => .transition .always spec
  | (.done, spec) => .transition (.exact (Event.doneState id .null).type) spec

/-- The id of the invocation at a position of the state with this id. -/
def invokeId (id : String) (spec : InvokeSpec L) (position : Nat) : String :=
  spec.id.getD (id ++ ":invocation[" ++ toString position ++ "]")

/-- The ids of the invocations of the state with this id. -/
def invokeIds (head : StateHead L) (id : String) : List String :=
  head.invokes.zipIdx.map fun (spec, position) => invokeId id spec position

/-- What one invocation declares; `taken` are the ids of those before it. -/
def invokeClauses (taken : List String) (invoke : String) (spec : InvokeSpec L) :
    List (Clause L) :=
  (if taken.contains invoke then [.fault (.duplicateInvokeId invoke)] else []) ++
    spec.onDone.map (.transition (.exact (Event.doneActor invoke .null).type)) ++
    spec.onError.map (.transition (.exact (Event.errorActor invoke "").type))

def allInvokeClauses (id : String) (taken : List String) :
    List (InvokeSpec L × Nat) → List (Clause L)
  | [] => []
  | (spec, position) :: specs =>
      let invoke := invokeId id spec position
      invokeClauses taken invoke spec ++ allInvokeClauses id (taken ++ [invoke]) specs

/-- All that is declared for the state with this id, in the order in which it counts;
`taken` are the ids of the invocations of states before it. -/
def clauses (head : StateHead L) (id : String) (taken : List String) : List (Clause L) :=
  (if head.kind = .final && !(head.transitions.isEmpty && head.after.isEmpty) then
      [.fault (.finalWithTransitions id)]
    else []) ++
    head.transitions.map (clauseOf id) ++
    (head.after.map fun (delay, spec) =>
      .transition (.exact (Event.afterType delay id)) spec) ++
    allInvokeClauses id taken head.invokes.zipIdx

/-- The delays of the state with this id, each kept once. -/
def timeouts (head : StateHead L) (id : String) : List Timeout :=
  head.after.foldl (fun known (delay, _) =>
    if known.any fun timeout => timeout.delay = delay then known
    else known ++ [{ delay, event := Event.afterType delay id }]) []

/-- The invocations of the state with this id. -/
def invocations (head : StateHead L) (id : String) : List (Invocation L) :=
  head.invokes.zipIdx.map fun (spec, position) =>
    { id := invokeId id spec position, logic := spec.logic, input := spec.input }

end StateHead

namespace Transition

/-- Add a candidate to those with its descriptor, or as a transition of its own. -/
def add (descriptor : Descriptor) (candidate : Candidate L) :
    List (Transition L) → List (Transition L)
  | [] => [{ descriptor, candidates := [candidate] }]
  | transition :: transitions =>
      if transition.descriptor = descriptor then
        { transition with candidates := transition.candidates ++ [candidate] } :: transitions
      else transition :: add descriptor candidate transitions

end Transition

namespace Chart

def clauseErrors (chart : Chart) (source : StateId) : Clause L → List DefinitionError
  | .transition _ spec => chart.transitionErrors source spec
  | .fault error => [error]

/-- The transitions that declared items become; items with one descriptor are put
together at the place of the first. -/
def transitions (chart : Chart) (source : StateId) (clauses : List (Clause L)) :
    List (Transition L) :=
  clauses.foldl (fun known clause =>
    match clause with
    | .transition descriptor spec =>
        Transition.add descriptor (chart.candidate source spec) known
    | .fault _ => known) []

def conductOf (chart : Chart) (source : StateId) (head : StateHead L)
    (clauses : List (Clause L)) : Conduct L :=
  let id := chart.id source
  { transitions := chart.transitions source clauses
    entry := head.entry
    exit := head.exit
    invocations := head.invocations id
    timeouts := head.timeouts id
    output := head.output }

/-- The declared items of all states, from one position on. -/
def allClauses (chart : Chart) (taken : List String) (state : StateId) :
    List (StateHead L) → List (List (Clause L))
  | [] => []
  | head :: heads =>
      let id := chart.id state
      head.clauses id taken ::
        allClauses chart (taken ++ head.invokeIds id) (state + 1) heads

end Chart

namespace MachineSpec

def draft (spec : MachineSpec L) : Draft L :=
  { chart := spec.root.layOut, heads := spec.root.heads }

/-- All faults of a description, in the order in which they are found. -/
def errors (spec : MachineSpec L) : List DefinitionError :=
  let draft := spec.draft
  let chart := draft.chartWithKinds
  let clauses := chart.allClauses [] Chart.root draft.heads
  (if spec.context.isNone then [.missingContext] else []) ++
    draft.chart.layoutErrors ++
    draft.allKindErrors ++
    clauses.zipIdx.flatMap fun (declared, state) =>
      declared.flatMap (chart.clauseErrors state)

/-- The machine that a description without faults describes. -/
def machine (spec : MachineSpec L) (context : Json → Json) : Machine L :=
  let draft := spec.draft
  let chart := draft.chartWithKinds
  let clauses := chart.allClauses [] Chart.root draft.heads
  { chart
    conducts := (draft.heads.zip clauses).zipIdx.map fun ((head, declared), state) =>
      chart.conductOf state head declared
    initialContext := context }

/-- Build the described machine, or report all faults together. -/
def build (spec : MachineSpec L) : Except (List DefinitionError) (Machine L) :=
  match spec.errors, spec.context with
  | [], some context => .ok (spec.machine context)
  | errors, _ => .error errors

end MachineSpec

end Statechart
