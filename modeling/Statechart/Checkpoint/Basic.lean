import Statechart.Checkpoint.Timestamp
import Statechart.Checkpoint.Uuid
import Statechart.Interpreter.Basic
import Statechart.Json.Printer

/-!
# Checkpoints

A checkpoint is what of a snapshot can be written down: the names of the active states,
the context, what the history states remember, the status and the output.  It is written
as a record and can be read again; `Checkpoint.resolve` looks the names up in a machine
and refuses what does not fit.
-/

namespace Statechart

/-- A snapshot written down. -/
structure Checkpoint where
  version : Nat
  id : Uuid
  machineId : String
  createdAt : Timestamp
  configuration : List String
  context : Json
  history : Table String (List String)
  status : Status
  output : Option Json
  deriving DecidableEq

/-- Why a checkpoint does not fit a machine. -/
inductive CheckpointError where
  | unsupportedVersion (found : Nat)
  | machineMismatch (expected found : String)
  | unknownState (reference : String)
  | notHistory (reference : String)
  | invalidConfiguration (fault : ConfigurationFault)
  deriving DecidableEq

namespace Checkpoint

def supportedVersion : Nat := 1

def versionBound : Nat := UInt32.size

def capture (chart : Chart) (snapshot : Snapshot) (id : Uuid) (createdAt : Timestamp) :
    Checkpoint :=
  { version := supportedVersion
    id
    machineId := chart.id Chart.root
    createdAt
    configuration := chart.ids snapshot.active
    context := snapshot.context
    history := Table.ofList (snapshot.history.map fun (history, states) =>
      (chart.id history, chart.ids states))
    status := snapshot.status
    output := snapshot.output }

/-- The fields of a checkpoint as they are written, in their order. -/
def fields (checkpoint : Checkpoint) : List (String × Json) :=
  [("version", .int checkpoint.version),
   ("id", .str checkpoint.id.text),
   ("machine_id", .str checkpoint.machineId),
   ("created_at", .str checkpoint.createdAt.text),
   ("configuration", Json.ofStrings checkpoint.configuration),
   ("context", checkpoint.context),
   ("history", .obj (checkpoint.history.map fun (history, states) =>
     (history, Json.ofStrings states))),
   ("status", .str checkpoint.status.text),
   ("output", checkpoint.output.getD .null)]

def toJson (checkpoint : Checkpoint) : Json :=
  Json.ofFields checkpoint.fields

def render (checkpoint : Checkpoint) : String :=
  (Json.obj checkpoint.fields).render

/-- The names of the fields in their order. -/
def fieldNames : List String :=
  ["version", "id", "machine_id", "created_at", "configuration", "context", "history",
    "status", "output"]

/-- A status: its name, alone or as a field without value. -/
def statusOfJson? : Json → Option Status
  | .str name => Status.ofText? name
  | .obj [(name, .null)] => Status.ofText? name
  | _ => none

/-- The remembered states by history state; of equal names the last counts. -/
def historyOfJson? : Json → Option (Table String (List String))
  | .obj fields => do
      let records ← fields.mapM fun (history, states) => do
        return (history, ← states.asStrings?)
      return Table.ofList records
  | _ => none

def outputOfJson : Json → Option Json
  | .null => none
  | output => some output.canonical

/-- A checkpoint from the fields of its record; the output may be missing. -/
def ofFields? (fields : Table String Json) : Option Checkpoint := do
  let version ← (← Table.get? fields "version").asBelow? versionBound
  let id ← Uuid.parse? (← (← Table.get? fields "id").asString?)
  let machineId ← (← Table.get? fields "machine_id").asString?
  let createdAt ← Timestamp.parse? (← (← Table.get? fields "created_at").asString?)
  let configuration ← (← Table.get? fields "configuration").asStrings?
  let context := (← Table.get? fields "context").canonical
  let history ← historyOfJson? (← Table.get? fields "history")
  let status ← statusOfJson? (← Table.get? fields "status")
  let output := outputOfJson ((Table.get? fields "output").getD .null)
  return { version, id, machineId, createdAt, configuration, context, history, status, output }

/-- Read a checkpoint: an object, or a list of all fields. -/
def parse? (text : String) : Option Checkpoint :=
  (Json.record? fieldNames fieldNames.length text).bind ofFields?

end Checkpoint

namespace CheckpointError

def kind : CheckpointError → String
  | .unsupportedVersion _ => "UnsupportedVersion"
  | .machineMismatch _ _ => "MachineMismatch"
  | .unknownState _ => "UnknownState"
  | .notHistory _ => "NotHistory"
  | .invalidConfiguration _ => "InvalidConfiguration"

def message : CheckpointError → String
  | .unsupportedVersion found =>
      "Unsupported checkpoint version " ++ toString found ++ ", supported: " ++
        toString Checkpoint.supportedVersion
  | .machineMismatch expected found =>
      "Checkpoint belongs to machine '" ++ found ++ "', not '" ++ expected ++ "'"
  | .unknownState reference => "Unknown state '" ++ reference ++ "' in checkpoint"
  | .notHistory reference => "'" ++ reference ++ "' is not a history state"
  | .invalidConfiguration fault => "Invalid configuration: " ++ fault.message

end CheckpointError

namespace Chart

def lookUp (chart : Chart) (reference : String) : Except CheckpointError StateId :=
  match chart.find? reference with
  | some state => .ok state
  | none => .error (.unknownState reference)

/-- The states that a checkpoint names, up to the first that there is not. -/
def lookUpAll (chart : Chart) : List String → Except CheckpointError (List StateId)
  | [] => .ok []
  | reference :: references =>
      match chart.lookUp reference with
      | .error error => .error error
      | .ok state =>
          match lookUpAll chart references with
          | .error error => .error error
          | .ok states => .ok (state :: states)

def resolveConfiguration (chart : Chart) (references : List String) :
    Except CheckpointError Configuration :=
  match chart.lookUpAll references with
  | .error error => .error error
  | .ok states =>
      match chart.check (StateSet.ofList states) with
      | some fault => .error (.invalidConfiguration fault)
      | none => .ok (StateSet.ofList states)

def lookUpHistory (chart : Chart) (reference : String) : Except CheckpointError StateId :=
  match chart.lookUp reference with
  | .error error => .error error
  | .ok state => if chart.isHistory state then .ok state else .error (.notHistory reference)

/-- The records that a checkpoint names, added to those found before; of two for one
history state the later counts. -/
def resolveHistory (chart : Chart) :
    List (String × List String) → HistoryRecords → Except CheckpointError HistoryRecords
  | [], records => .ok records
  | (history, references) :: rest, records =>
      match chart.lookUpHistory history with
      | .error error => .error error
      | .ok state =>
          match chart.lookUpAll references with
          | .error error => .error error
          | .ok states => resolveHistory chart rest (records.record state states)

end Chart

namespace Checkpoint

/-- The configuration and the history records of a checkpoint, if it fits. -/
def resolve (checkpoint : Checkpoint) (chart : Chart) :
    Except CheckpointError (Configuration × HistoryRecords) :=
  if checkpoint.version ≠ supportedVersion then
    .error (.unsupportedVersion checkpoint.version)
  else if checkpoint.machineId ≠ chart.id Chart.root then
    .error (.machineMismatch (chart.id Chart.root) checkpoint.machineId)
  else
    match chart.resolveConfiguration checkpoint.configuration with
    | .error error => .error error
    | .ok active =>
        match chart.resolveHistory checkpoint.history HistoryRecords.empty with
        | .error error => .error error
        | .ok history => .ok (active, history)

end Checkpoint

namespace Interpreter

/-- An interpreter that takes up where a checkpoint was made, once it is started. -/
def restore (machine : Machine ActorLogic) (checkpoint : Checkpoint) (settings : Settings) :
    Except CheckpointError Interpreter :=
  match checkpoint.resolve machine.chart with
  | .error error => .error error
  | .ok (active, history) =>
      let state : StepState :=
        { active
          context := checkpoint.context
          history
          done := checkpoint.status = .done
          output := checkpoint.output }
      .ok
        { create machine settings with
          state
          snapshot := Snapshot.ofState state .notStarted none
          restored := true }

end Interpreter

end Statechart
