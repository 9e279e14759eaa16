import Statechart.Interpreter.Snapshot

/-!
# Completion

Entering a final state may complete the states around it.  A compound parent has
completed at once; from there on upwards, parallel states that have completed follow, each
announced once in a step by an event.  When nothing is left above, the machine is done.
-/

namespace Statechart

namespace Machine

variable {L : Type}

/-- Announce the completion of a state unless it is the root. -/
def announce (machine : Machine L) (completed : StateId) (output : Json)
    (state : StepState) : StepState :=
  if completed = Chart.root then state
  else state.raise (Event.doneState (machine.chart.id completed) output)

/-- What has come of climbing from a completed state. -/
structure Climb where
  state : StepState
  /-- The parallel states that were found completed in this step. -/
  announced : List StateId
  /-- The last state that completed, if nothing is left above it. -/
  top : Option StateId

/-- Announce the completed parallel states among these ancestors, the nearest first, up to
the first that has not completed or was announced before; `last` completed before them. -/
def climb (machine : Machine L) (last : StateId) :
    List StateId → StepState → List StateId → Climb
  | [], state, announced => { state, announced, top := some last }
  | ancestor :: above, state, announced =>
      if machine.chart.isParallel ancestor && !announced.contains ancestor &&
          machine.chart.hasCompleted state.active ancestor then
        climb machine ancestor above (machine.announce ancestor .null state)
          (ancestor :: announced)
      else { state, announced, top := none }

/-- The output of a machine that is done: what its root makes of the completion, or else
the output of the final state. -/
def finalOutput (machine : Machine L) (context : Json) (top : StateId)
    (output : Option Json) : Option Json :=
  match (machine.conduct Chart.root).output with
  | some make =>
      some (make context (Event.doneState (machine.chart.id top) (output.getD .null)))
  | none => output

/-- Announce the completed states above one that completed before them; with nothing left
above, the machine is done. -/
def completeAbove (machine : Machine L) (reached : StateId) (above : List StateId)
    (output : Option Json) (state : StepState) (announced : List StateId) :
    StepState × List StateId :=
  let climbed := machine.climb reached above state announced
  match climbed.top with
  | none => (climbed.state, climbed.announced)
  | some top =>
      ({ climbed.state with
          done := true
          output := machine.finalOutput climbed.state.context top output },
        climbed.announced)

/-- Draw the consequences of entering a final state. -/
def complete (machine : Machine L) (reached : StateId) (event : Event)
    (state : StepState) (announced : List StateId) : StepState × List StateId :=
  let output := (machine.conduct reached).output.map fun make => make state.context event
  match machine.chart.ancestors reached with
  | [] => (state, announced)
  | parent :: above =>
      if machine.chart.isParallel parent then
        machine.completeAbove reached (parent :: above) output state announced
      else
        let state :=
          if machine.chart.isCompound parent then
            machine.announce parent (output.getD .null) state
          else state
        machine.completeAbove reached above output state announced

end Machine

end Statechart
