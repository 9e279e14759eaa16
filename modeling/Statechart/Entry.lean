import Statechart.Move

/-!
# Entries

The states that a step enters.  A plan starts from the targets of the moves and is
completed downwards, by initial children, regions and history, and upwards, to the domain
of each move; a region of a parallel state is added only when nothing in it is planned
yet.

Completing downwards follows history records wherever they lead, so it takes a bound on
its depth and has no answer when the bound does not suffice.
-/

namespace Statechart

namespace Chart

/-- Is something in a region already planned? -/
def covered (chart : Chart) (planned : StateSet) (region : StateId) : Bool :=
  planned.any fun state => state = region || chart.isInside state region

/-- Plan every region of a parallel state in which nothing is planned yet; `below`
completes a plan below a state. -/
def fillRegions (chart : Chart) (below : StateId → StateSet → Option StateSet)
    (parallel : StateId) (planned : StateSet) : Option StateSet :=
  (chart.regions parallel).foldlM (fun planned region =>
    if chart.covered planned region then some planned
    else below region (planned.insert region)) planned

/-- Plan states above a target, those that `allowed` holds of, and the missing regions
of all of them. -/
def enterAbove (chart : Chart) (below : StateId → StateSet → Option StateSet)
    (allowed : StateId → Bool) (ancestors : List StateId) (planned : StateSet) :
    Option StateSet :=
  ancestors.foldlM (fun planned ancestor =>
    let planned := if allowed ancestor then planned.insert ancestor else planned
    if chart.isParallel ancestor then chart.fillRegions below ancestor planned
    else some planned) planned

/-- Plan a state unless it is a history state. -/
def planUnlessHistory (chart : Chart) (state : StateId) (planned : StateSet) : StateSet :=
  if chart.isHistory state then planned else planned.insert state

/-- Complete a plan below a planned state or for a targeted history state. -/
def enterBelow (chart : Chart) (history : HistoryRecords) :
    Nat → StateId → StateSet → Option StateSet
  | 0, _, _ => none
  | fuel + 1, state, planned =>
      let below := enterBelow chart history fuel
      match chart.kind state with
      | .history _ defaults => do
          let restored := (history.memory? state).getD defaults
          let planned ← restored.foldlM (fun planned target =>
            below target (chart.planUnlessHistory target planned)) planned
          match chart.parent? state with
          | none => some planned
          | some parent =>
              restored.foldlM (fun planned target =>
                chart.enterAbove below (fun _ => true) (chart.between target parent)
                  planned) planned
      | .compound initial => do
          let planned ← below initial (chart.planUnlessHistory initial planned)
          chart.enterAbove below (fun _ => true) (chart.between initial state) planned
      | .parallel => chart.fillRegions below state planned
      | .atomic | .final => some planned

/-- A bound that suffices for completing any plan whose completion ends. -/
def entryBound (chart : Chart) : Nat := 4 * (chart.size + 1) * (chart.size + 1)

/-- Is a target of a move entered anew?  A target that is the source and the domain of
the move is not, unless the move insists. -/
def entersAnew (domain : StateId) (move : Move) (target : StateId) : Bool :=
  move.source ≠ target || move.source ≠ domain || move.reenter

/-- Add what one move enters to a plan. -/
def planMove (chart : Chart) (history : HistoryRecords) (move : Move)
    (planned : StateSet) : Option StateSet :=
  if move.targets.isEmpty then some planned
  else do
    let domain := chart.domain history move
    let below := chart.enterBelow history chart.entryBound
    let planned ← move.targets.foldlM (fun planned target =>
      below target
        (if entersAnew domain move target then chart.planUnlessHistory target planned
          else planned)) planned
    (chart.effectiveTargets history move.targets).foldlM (fun planned target =>
      chart.enterAbove below (fun ancestor => chart.isInside ancestor domain)
        (chart.between target domain) planned) planned

/-- The states that several moves enter, in the order of entering, if planning ends. -/
def entries? (chart : Chart) (history : HistoryRecords) (moves : List Move) :
    Option StateSet :=
  moves.foldlM (fun planned move => chart.planMove history move planned) []

/-- The states that are entered at the start, in the order of entering. -/
def initialEntries? (chart : Chart) : Option StateSet :=
  chart.enterBelow HistoryRecords.empty chart.entryBound root [root]

def initialConfiguration (chart : Chart) : Configuration :=
  chart.initialEntries?.getD []

end Chart

end Statechart
