import Statechart.Json.Parser

/-!
# History records

What each history state remembers: the states that were active below its parent when the
parent was last exited.  Recording gives a new table and leaves the old one as it was.
-/

namespace Statechart

/-- Position of a state in document order. -/
abbrev StateId := Nat

/-- The remembered states of every history state that has a record. -/
abbrev HistoryRecords := Table StateId (List StateId)

namespace HistoryRecords

def empty : HistoryRecords := []

/-- Let a history state remember these states instead of what it remembered. -/
def record (records : HistoryRecords) (history : StateId) (states : List StateId) :
    HistoryRecords :=
  Table.insert history states records

def memory? (records : HistoryRecords) (history : StateId) : Option (List StateId) :=
  Table.get? records history

def indexBound : Nat := UInt64.size

/-- A list of records, one for each history state, by position. -/
def toJson (records : HistoryRecords) : Json :=
  .arr (records.map fun (history, states) =>
    .obj [("history", .int history), ("states", .arr (states.map fun (state : StateId) => .int state))])

def entryOfFields? (fields : Table String Json) : Option (StateId × List StateId) := do
  let history ← (← Table.get? fields "history").asBelow? indexBound
  let items ← (← Table.get? fields "states").asList?
  let states ← items.mapM fun item => item.asBelow? indexBound
  some (history, states)

/-- Read records from the text of a list; of two for one history state the later counts. -/
def parse? (text : String) : Option HistoryRecords := do
  let entries ← Json.records? ["history", "states"] 2 text
  return Table.ofList (← entries.mapM entryOfFields?)

end HistoryRecords

end Statechart
