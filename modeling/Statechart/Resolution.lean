import Statechart.Selection

/-!
# Resolving a step

`Machine.resolve` foretells one step on an event without carrying anything out: which
transitions are taken, what is left and entered, and which actions would run in which
order.
-/

namespace Statechart

/-- Why a step cannot be foretold. -/
inductive ResolutionError where
  | guard (error : GuardError)
  /-- Completing what is entered does not end. -/
  | endlessEntry
  deriving DecidableEq

/-- One step, foretold. -/
structure Resolution (L : Type) where
  chosen : List (Choice L)
  /-- In the order of leaving. -/
  exits : List StateId
  /-- In the order of entering. -/
  entries : List StateId
  active : Configuration
  history : HistoryRecords
  /-- Exit actions, transition actions and entry actions as they would run. -/
  actions : List (Action L)
  conflicts : List Conflict

namespace Machine

variable {L : Type}

/-- The actions of a step in the order in which they run. -/
def stepActions (machine : Machine L) (exits : List StateId) (chosen : List (Choice L))
    (entries : List StateId) : List (Action L) :=
  (exits.flatMap fun state => (machine.conduct state).exit) ++
    (chosen.flatMap fun choice => choice.candidate.actions) ++
    entries.flatMap fun state => (machine.conduct state).entry

/-- Foretell the step on an event; guards see the context as given. -/
def resolve (machine : Machine L) (active : Configuration) (history : HistoryRecords)
    (context : Json) (event : Event) : Except ResolutionError (Resolution L) :=
  match machine.select .event active history context event with
  | .error error => .error (.guard error)
  | .ok selection =>
      let moves := selection.chosen.map Choice.move
      let exits := machine.chart.exits active history moves
      let recorded := machine.chart.recordHistory active history exits
      match machine.chart.entries? recorded moves with
      | none => .error .endlessEntry
      | some entries =>
          .ok
            { chosen := selection.chosen
              exits
              entries
              active := (active.removeAll exits).insertAll entries
              history := recorded
              actions := machine.stepActions exits selection.chosen entries
              conflicts := selection.conflicts }

end Machine

end Statechart
