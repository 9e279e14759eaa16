import Statechart.Configuration

/-!
# Moves

A move is what a transition does to the tree of states: where it starts, where it leads
and whether it insists on leaving its source.  Its domain is the state below which it
leaves everything, and `Chart.recordHistory` notes what the history states below the
exited states have to remember.
-/

namespace Statechart

/-- The source, the targets and the manner of a transition. -/
structure Move where
  source : StateId
  targets : List StateId
  /-- Leave and enter the source again even if all targets lie in it. -/
  reenter : Bool
  deriving DecidableEq, Inhabited

namespace Chart

/-- Targets with history states replaced by what they stand for; `fuel` bounds how often
a default leads to another history state. -/
def effectiveWithin (chart : Chart) (history : HistoryRecords) :
    Nat → List StateId → StateSet
  | 0, _ => []
  | fuel + 1, targets =>
      targets.foldl (fun (set : StateSet) target =>
        match chart.kind target with
        | .history _ defaults =>
            match history.memory? target with
            | some recorded => set.insertAll recorded
            | none => set.insertAll (effectiveWithin chart history fuel defaults)
        | _ => set.insert target) []

/-- Targets with history states replaced by what they stand for. -/
def effectiveTargets (chart : Chart) (history : HistoryRecords) (targets : List StateId) :
    StateSet :=
  chart.effectiveWithin history (chart.size + 1) targets

/-- The nearest compound state, or else the root, that `first` and all of `others` lie
strictly inside. -/
def meet (chart : Chart) (first : StateId) (others : List StateId) : StateId :=
  ((chart.ancestors first).find? fun ancestor =>
    (ancestor = root || chart.isCompound ancestor) &&
      others.all fun state => chart.isInside state ancestor).getD root

/-- Do all effective targets lie in the source or equal it? -/
def staysInside (chart : Chart) (history : HistoryRecords) (move : Move) : Bool :=
  (chart.effectiveTargets history move.targets).all fun target =>
    target = move.source || chart.isInside target move.source

/-- The state below which a move leaves everything. -/
def domain (chart : Chart) (history : HistoryRecords) (move : Move) : StateId :=
  if !move.reenter && chart.staysInside history move then move.source
  else chart.meet move.source (chart.effectiveTargets history move.targets)

def exitsOf (chart : Chart) (active : Configuration) (history : HistoryRecords)
    (move : Move) : StateSet :=
  if move.targets.isEmpty then []
  else active.filter fun state => chart.isInside state (chart.domain history move)

/-- The states that several moves leave, in the order of leaving: the last first. -/
def exits (chart : Chart) (active : Configuration) (history : HistoryRecords)
    (moves : List Move) : List StateId :=
  (moves.foldl (fun (set : StateSet) move => set.insertAll (chart.exitsOf active history move))
    ([] : StateSet)).reverse

/-- What a history state of this kind below `parent` has to remember. -/
def remembered (chart : Chart) (active : Configuration) (parent : StateId) :
    HistoryKind → List StateId
  | .deep => active.filter fun state => chart.isLeaf state && chart.isInside state parent
  | .shallow => active.filter fun state => chart.parent? state = some parent

/-- Let the history states directly below `state` remember what is active. -/
def recordBelow (chart : Chart) (active : Configuration) (records : HistoryRecords)
    (state : StateId) : HistoryRecords :=
  (chart.children state).foldl (fun (records : HistoryRecords) child =>
    match chart.kind child with
    | .history kind _ => records.record child (chart.remembered active state kind)
    | _ => records) records

/-- The records after the states in `exiting` have been left. -/
def recordHistory (chart : Chart) (active : Configuration) (records : HistoryRecords)
    (exiting : List StateId) : HistoryRecords :=
  exiting.foldl (chart.recordBelow active) records

end Chart

end Statechart
