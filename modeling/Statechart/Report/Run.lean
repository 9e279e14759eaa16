import Statechart.Report.Machine
import Statechart.Simulation.World

/-!
# Runs as JSON

What an interpreter shows of itself, and what was seen while it ran.
-/

namespace Statechart

namespace Failure

def toJson (failure : Failure) : Json :=
  Json.ofFields [("error", .str failure.kind), ("message", .str failure.message)]

end Failure

namespace Snapshot

/-- The fields of a snapshot.  An output is put in a list, which is empty if there is
none. -/
def fields (chart : Chart) (snapshot : Snapshot) : List (String × Json) :=
  let value := chart.stateValue snapshot.active
  [("status", .str snapshot.status.text),
   ("active", chart.idsJson snapshot.active),
   ("value", value.toJson),
   ("display", .str value.text),
   ("valid", chart.validityJson snapshot.active),
   ("context", snapshot.context),
   ("history", chart.historyJson snapshot.history),
   ("last_event", Json.orNull (snapshot.lastEvent.map Event.toJson)),
   ("output", .arr snapshot.output.toList),
   ("error", Json.orNull (snapshot.failure.map Failure.toJson))]

def toJson (chart : Chart) (snapshot : Snapshot) : Json :=
  Json.ofFields (snapshot.fields chart)

end Snapshot

namespace Listener

/-- The name of a listener; a handle has none. -/
def name : Listener → String
  | .observer name => name
  | .closure name => name
  | .handle => ""

end Listener

namespace Activity

/-- Something that was seen: a word for what it is, and the particulars. -/
def toJson (chart : Chart) : Activity → Json
  | .entered state => Json.ofStrings ["enter", state]
  | .exited state => Json.ofStrings ["exit", state]
  | .logged machine label text =>
      .arr [.str "log", .str machine, Json.ofText? label, .str text]
  | .effect value => .arr [.str "effect", value]
  | .actor id text => Json.ofStrings ["actor", id, text]
  | .published (.closure name) snapshot =>
      Json.ofStrings ["next", name, snapshot.status.text]
  | .published listener snapshot =>
      .arr
        [.str "next", .str listener.name, .str snapshot.status.text,
         .str (chart.stateValue snapshot.active).text,
         Json.ofText? (snapshot.lastEvent.map Event.type)]
  | .failed listener failure => Json.ofStrings ["error", listener.name, failure.message]
  | .completed listener => Json.ofStrings ["complete", listener.name]
  | .conflict found =>
      Json.ofStrings ["conflict", found.event, found.kept, found.discarded]
  | .unhandled event states =>
      .arr [.str "unhandled", .str event, Json.ofStrings states]

end Activity

namespace World

def logJson (world : World) : Json :=
  .arr (world.log.map fun sighting =>
    sighting.activity.toJson world.interpreter.machine.chart)

/-- The state of the interpreter with its running actors, timers left out, and the number
of timers that the simulated clock has still to fire. -/
def toJson (world : World) : Json :=
  let interpreter := world.interpreter
  Json.ofFields (interpreter.snapshot.fields interpreter.machine.chart ++
    [("children", .arr (interpreter.supervisor.registry.children.map fun (id, kind) =>
       Json.ofStrings [id, kind.text, ActorStatus.active.text])),
     ("pending",
       if world.facilities.simulated then .ofNat world.clock.pending.length else .null)])

end World

end Statechart
