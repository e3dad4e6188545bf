/-
# From the counters file to a table

The profiler writes one header line for each event group and one line for each
sample. `to_csv.py` turns that file into a table with one row for each sample.
Counters are cumulative, so a cell is the difference to the group's previous
sample, scaled up by the inverse of the fraction of time for which the group
was counting.

Cells are exact rationals, or `none` for the cells that stay not-a-number.
-/

import Datamime.Fault
import Datamime.Math.Dict
import Datamime.Math.Text

namespace Datamime.Csv

open Datamime.Math

/-- A word of a line. -/
abbrev Token := List Char

/-- A cell of the table; `none` is not-a-number. -/
abbrev Cell := Option ℚ

/-- `thyme_log`: the words of every line. -/
def thymeLog (text : List Char) : List (List Token) := (Text.lines text).map Text.words

/-- `separate_headers`. An empty line has no first word. -/
def separateHeaders :
    List (List Token) → Except PyError (List (List Token) × List (List Token))
  | [] => .ok ([], [])
  | [] :: _ => .error .indexError
  | (first :: others) :: rest => do
      let (headers, data) ← separateHeaders rest
      if first = "group".toList then return ((first :: others) :: headers, data)
      else return (headers, (first :: others) :: data)

/-- The events that every group counts, in the order in which it counts them. -/
def fixedEvents : List Token :=
  ["UNHALTED_REFERENCE_CYCLES".toList, "INST_RETIRED".toList, "CPU_CLK_UNHALTED".toList]

/-- The position of each event in the lines of each group. -/
abbrev Groups := Dict Token (Dict Token ℕ)

/-- `groups[group_id]`: a missing group reads as one without events. -/
def groupEvents (groups : Groups) (groupId : Token) : Dict Token ℕ :=
  (groups.get? groupId).getD Dict.empty

/-- One round of the loop of `get_groups`. -/
def addHeader : Groups × List Token → List Token → Except PyError (Groups × List Token)
  | (groups, allEvents), _ :: groupId :: events =>
      .ok (groups.insert groupId ((groupEvents groups groupId).insertAll events.zipIdx),
        allEvents ++ events.drop 3)
  | _, _ => .error .indexError

/-- `get_groups`. -/
def getGroups (headers : List (List Token)) : Except PyError (Groups × List Token) :=
  headers.foldlM addHeader (Dict.empty, fixedEvents)

/-- The columns before the event columns. -/
def leadColumns (rdt : Bool) : List Token :=
  ["timestamp".toList, "ref_cycles".toList, "time_running".toList, "time_enabled".toList] ++
    if rdt then ["local_mem_traffic".toList, "l3_occupancy".toList] else []

/-- The number of fields before the event counters of a line. -/
def nonGroupCtrs (rdt : Bool) : ℕ := if rdt then 9 else 7

/-- What the loop over the samples carries along. -/
structure ReaderState where
  totalTsc : ℤ
  totals : Dict Token (Dict Token ℤ)
  lastLocalMemTraffic : ℤ
  lastL3Occupancy : ℤ

def ReaderState.initial : ReaderState := ⟨0, Dict.empty, 0, 0⟩

/-- `line[i]`. -/
def field (values : List ℤ) (i : ℕ) : Except PyError ℤ :=
  match values[i]? with
  | some value => .ok value
  | none => .error .indexError

/-- `dict[key]`. -/
def entry {ν : Type} (dict : Dict Token ν) (key : Token) : Except PyError ν :=
  match dict.get? key with
  | some value => .ok value
  | none => .error .keyError

/-- `assert`. -/
def assert (condition : Prop) [Decidable condition] : Except PyError Unit :=
  if condition then .ok () else .error .assertionError

/-- Division of Python numbers. -/
def divide (a b : ℚ) : Except PyError ℚ :=
  if b = 0 then .error .zeroDivisionError else .ok (a / b)

/-- The loop over the events of a sample's group. `old` is the counter that the
group showed before: nothing the first time around, else an entry of its totals. -/
def eventCells (old : Dict Token ℤ → Token → Except PyError ℤ) (line : List ℤ) (skip : ℕ)
    (multiplier : ℚ) :
    List (Token × ℕ) → Dict Token ℚ × Dict Token ℤ →
      Except PyError (Dict Token ℚ × Dict Token ℤ)
  | [], dicts => .ok dicts
  | (event, idxInLine) :: rest, (datapoint, total) => do
      let cur ← field line (idxInLine + skip)
      let before ← old total event
      let scale ← divide 1 multiplier
      eventCells old line skip multiplier rest
        (datapoint.insert event (((cur - before : ℤ) : ℚ) * scale), total.insert event cur)

/-- The interval that a sample's cells are scaled by, running and enabled. -/
def sampleInterval (total : Option (Dict Token ℤ)) (newTimeEnabled newTimeRunning : ℤ) :
    Except PyError (ℤ × ℤ) :=
  match total with
  | none => .ok (newTimeRunning, newTimeEnabled) -- first time around
  | some total => do
      let oldEnabled ← entry total "time_enabled".toList
      assert (newTimeEnabled > oldEnabled)
      let oldRunning ← entry total "time_running".toList
      assert (newTimeRunning > oldRunning)
      return (newTimeRunning - oldRunning, newTimeEnabled - oldEnabled)

/-- Place every value of a datapoint in the column of its name. -/
def fillRow (columnIdxs : Dict Token ℕ) :
    List (Token × ℚ) → List Cell → Except PyError (List Cell)
  | [], row => .ok row
  | (event, count) :: rest, row => do
      let idx ← entry columnIdxs event
      fillRow columnIdxs rest (row.set idx (some count))

/-- The part of a datapoint that does not belong to a group. -/
def leadPoint (rdt : Bool) (st : ReaderState) (tsc localMemTraffic l3Occupancy : ℤ) :
    Dict Token ℚ :=
  let point : Dict Token ℚ := (Dict.empty.insert "timestamp".toList (tsc : ℚ)).insert
    "ref_cycles".toList ((tsc - st.totalTsc : ℤ) : ℚ)
  if rdt then
    (point.insert "local_mem_traffic".toList
        ((localMemTraffic - st.lastLocalMemTraffic : ℤ) : ℚ)).insert
      "l3_occupancy".toList ((l3Occupancy - st.lastL3Occupancy : ℤ) : ℚ)
  else point

/-- One round of the loop over the samples. -/
def sampleRow (rdt : Bool) (groups : Groups) (columnIdxs : Dict Token ℕ) (width : ℕ)
    (st : ReaderState) (line : List ℤ) : Except PyError (ReaderState × List Cell) := do
  let groupId := Text.ofInt (← field line 0)
  let _cpu ← field line 1
  let _tid ← field line 2
  let _nanoseconds ← field line 3
  let tsc ← field line 4
  let newTimeEnabled ← field line 5
  let newTimeRunning ← field line 6
  let localMemTraffic ← if rdt then field line 7 else pure st.lastLocalMemTraffic
  let l3Occupancy ← if rdt then field line 8 else pure st.lastL3Occupancy
  let total := st.totals.get? groupId
  let (timeRunning, timeEnabled) ← sampleInterval total newTimeEnabled newTimeRunning
  let startTotal := ((total.getD Dict.empty).insert "time_enabled".toList timeEnabled).insert
    "time_running".toList timeRunning
  let multiplier ← divide (timeRunning : ℚ) (timeEnabled : ℚ)
  assert (0 ≤ multiplier ∧ multiplier ≤ 1)
  let (datapoint, newTotal) ←
    eventCells (fun dict event => if total.isNone then .ok 0 else entry dict event)
      line (nonGroupCtrs rdt) multiplier (groupEvents groups groupId).entries
      (leadPoint rdt st tsc localMemTraffic l3Occupancy, startTotal)
  let row ← fillRow columnIdxs datapoint.entries (List.replicate width none)
  return ({
    totalTsc := tsc
    totals := st.totals.insert groupId newTotal
    lastLocalMemTraffic := localMemTraffic
    lastL3Occupancy := l3Occupancy }, row)

/-- `[int(x) for x in line]`. -/
def toInts : List Token → Except PyError (List ℤ)
  | [] => .ok []
  | token :: rest =>
      match Text.toInt? token with
      | some value => do return value :: (← toInts rest)
      | none => .error .valueError

/-- The loop over the samples. -/
def sampleRows (rdt : Bool) (groups : Groups) (columnIdxs : Dict Token ℕ) (width : ℕ) :
    ReaderState → List (List Token) → Except PyError (List (List Cell))
  | _, [] => .ok []
  | st, line :: rest => do
      let (next, row) ← sampleRow rdt groups columnIdxs width st (← toInts line)
      return row :: (← sampleRows rdt groups columnIdxs width next rest)

/-- The table that `to_csv` writes. -/
structure Table where
  columns : List Token
  rows : List (List Cell)
  deriving DecidableEq

/-- The cell of a row in the column of a name. -/
def Table.cell (table : Table) (row : ℕ) (column : Token) : Option Cell :=
  table.rows[row]?.bind fun cells => cells[table.columns.idxOf column]?

/-- `to_csv`, from the text of the counters file to the table that it writes out. -/
def toCsv (rdt : Bool) (text : List Char) : Except PyError Table := do
  let (headers, data) ← separateHeaders (thymeLog text)
  let (groups, events) ← getGroups headers
  let columns := leadColumns rdt ++ events
  let columnIdxs := Dict.empty.insertAll columns.zipIdx
  let rows ← sampleRows rdt groups columnIdxs columns.length ReaderState.initial data
  return { columns, rows }

end Datamime.Csv
