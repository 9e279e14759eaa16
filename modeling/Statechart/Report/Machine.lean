import Statechart.Actor.Logic
import Statechart.Resolution

/-!
# Machines as JSON

A machine written out state by state, a configuration with all that can be said about it,
and a foretold step.
-/

namespace Statechart

namespace Json

/-- A value that may be missing, written as null if it is. -/
def orNull (value : Option Json) : Json := value.getD .null

def ofText? (text : Option String) : Json := orNull (text.map .str)

def ofNat (value : Nat) : Json := .int value

end Json

namespace Chart

def idsJson (chart : Chart) (states : List StateId) : Json :=
  Json.ofStrings (chart.ids states)

/-- Whether a set of states is a configuration: true, or why not. -/
def validityJson (chart : Chart) (active : Configuration) : Json :=
  match chart.check active with
  | none => .bool true
  | some fault => .str fault.message

def configurationJson (chart : Chart) (active : Configuration) : Json :=
  let value := chart.stateValue active
  Json.ofFields
    [("valid", chart.validityJson active),
     ("active", chart.idsJson active),
     ("leaves", chart.idsJson (chart.leaves active)),
     ("value", value.toJson),
     ("display", .str value.text),
     ("tags", Json.ofStrings (chart.tags active)),
     ("final",
       chart.idsJson ((List.range chart.size).filter (chart.hasCompleted active)))]

/-- History records by the names of the states. -/
def historyJson (chart : Chart) (records : HistoryRecords) : Json :=
  Json.ofFields (records.map fun (history, states) =>
    (chart.id history, chart.idsJson states))

def kindJson (chart : Chart) : NodeKind → Json
  | .atomic => .str "atomic"
  | .parallel => .str "parallel"
  | .final => .str "final"
  | .compound initial => Json.ofStrings ["compound", chart.id initial]
  | .history .shallow defaults => .arr [.str "shallow", chart.idsJson defaults]
  | .history .deep defaults => .arr [.str "deep", chart.idsJson defaults]

end Chart

def summariesJson (actions : List (Action ActorLogic)) : Json :=
  Json.ofStrings (actions.map Action.summary)

namespace Candidate

def toJson (chart : Chart) (candidate : Candidate ActorLogic) : Json :=
  Json.ofFields
    [("guard", Json.ofText? (candidate.guard.map Guard.name)),
     ("targets", chart.idsJson candidate.targets),
     ("actions", summariesJson candidate.actions),
     ("reenter", .bool candidate.reenter)]

end Candidate

namespace Transition

/-- A transition: its descriptor, whether it needs no event, and its candidates. -/
def toJson (chart : Chart) (transition : Transition ActorLogic) : Json :=
  .arr
    [.str transition.descriptor.text,
     .bool transition.descriptor.isAlways,
     .arr (transition.candidates.map (Candidate.toJson chart))]

end Transition

namespace Machine

def nodeJson (machine : Machine ActorLogic) (node : StateNode) : Json :=
  let chart := machine.chart
  let conduct := machine.conduct node.index
  Json.ofFields
    [("index", .ofNat node.index),
     ("key", .str node.key),
     ("id", .str node.id),
     ("path", Json.ofStrings node.path),
     ("kind", chart.kindJson node.kind),
     ("parent", Json.orNull (node.parent.map Json.ofNat)),
     ("children", .arr (node.children.map Json.ofNat)),
     ("depth", .ofNat node.depth),
     ("leaf", .bool (chart.isLeaf node.index)),
     ("transitions", .arr (conduct.transitions.map (Transition.toJson chart))),
     ("entry", summariesJson conduct.entry),
     ("exit", summariesJson conduct.exit),
     ("invokes", .arr (conduct.invocations.map fun invocation =>
       Json.ofStrings [invocation.id, invocation.logic.kind.text])),
     ("tags", Json.ofStrings node.tags),
     ("description", Json.ofText? node.description)]

/-- A machine state by state, and the configuration that it starts in. -/
def toJson (machine : Machine ActorLogic) : Json :=
  Json.ofFields
    [("id", .str machine.id),
     ("nodes", .arr (machine.chart.nodes.map machine.nodeJson)),
     ("initial", machine.chart.configurationJson machine.chart.initialConfiguration)]

end Machine

namespace Choice

def toJson (chart : Chart) (choice : Choice ActorLogic) : Json :=
  .arr
    [.str (chart.id choice.ref.source), .ofNat choice.ref.transition,
     .ofNat choice.ref.candidate]

end Choice

namespace Resolution

def toJson (chart : Chart) (resolution : Resolution ActorLogic) : Json :=
  Json.ofFields
    [("empty", .bool resolution.chosen.isEmpty),
     ("transitions", .arr (resolution.chosen.map (Choice.toJson chart))),
     ("exit", chart.idsJson resolution.exits),
     ("entry", chart.idsJson resolution.entries),
     ("actions", summariesJson resolution.actions),
     ("conflicts", Json.ofStrings (resolution.conflicts.map Conflict.message)),
     ("history", chart.historyJson resolution.history),
     ("active", chart.idsJson resolution.active),
     ("display", .str (chart.stateValue resolution.active).text),
     ("valid", chart.validityJson resolution.active)]

end Resolution

end Statechart
