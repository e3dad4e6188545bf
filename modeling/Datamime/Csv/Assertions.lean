/-
# The assertions of the reader

The reader asserts that the times of a group increase and that its multiplier is at most
one, and it divides by an interval and by the multiplier. It computes the multiplier with
doubles. Which doubles is left open here but for a few facts about rounding, so that what
is shown holds for exact and for rounded arithmetic. A log is taken as it stands: any lines,
of any groups, in any order, whether or not they make sense otherwise.
-/

import Datamime.Csv.Scaling
import Datamime.Math.Avoids

namespace Datamime.Csv

open Datamime.Math

/-! ## The reader with rounding -/

/-- How numbers are rounded. An integer that is too large has no double. -/
structure Rounding where
  /-- `float(n)`. -/
  ofInt : ℤ → Except PyError ℚ
  /-- The double that an operation returns for its exact result. -/
  round : ℚ → ℚ
  ofInt_fault : ∀ n fault, ofInt n = .error fault → fault = .overflowError
  ofInt_mono : ∀ m n x y, m ≤ n → ofInt m = .ok x → ofInt n = .ok y → x ≤ y
  one_le_ofInt : ∀ n x, 1 ≤ n → ofInt n = .ok x → 1 ≤ x
  round_mono : ∀ x y, x ≤ y → round x ≤ round y
  round_one : round 1 = 1
  /-- A quotient by a double does not vanish from one on. -/
  round_pos : ∀ n x y, 1 ≤ x → 0 < y → ofInt n = .ok y → 0 < round (x / y)

/-- Exact arithmetic. -/
def Rounding.none : Rounding where
  ofInt := fun n => .ok n
  round := id
  ofInt_fault := nofun
  ofInt_mono := by
    rintro m n x y less ⟨⟩ ⟨⟩
    exact_mod_cast less
  one_le_ofInt := by
    rintro n x positive ⟨⟩
    exact_mod_cast positive
  round_mono := fun _ _ less => less
  round_one := rfl
  round_pos := fun _ _ _ large positive _ => div_pos (one_pos.trans_le large) positive

section

variable (rounding : Rounding)

/-- `float(time_running) / float(time_enabled)`. -/
def multiplierIn (timeRunning timeEnabled : ℤ) : Except PyError ℚ := do
  let running ← rounding.ofInt timeRunning
  let enabled ← rounding.ofInt timeEnabled
  let multiplier ← divide running enabled
  return rounding.round multiplier

/-- The loop over the events of a sample's group. -/
def eventCellsIn (old : Dict Token ℤ → Token → Except PyError ℤ) (line : List ℤ) (skip : ℕ)
    (multiplier : ℚ) :
    List (Token × ℕ) → Dict Token ℚ × Dict Token ℤ →
      Except PyError (Dict Token ℚ × Dict Token ℤ)
  | [], dicts => .ok dicts
  | (event, idxInLine) :: rest, (datapoint, total) => do
      let cur ← field line (idxInLine + skip)
      let before ← old total event
      let scale ← divide 1 multiplier
      let difference ← rounding.ofInt (cur - before)
      eventCellsIn old line skip multiplier rest
        (datapoint.insert event (rounding.round (difference * rounding.round scale)),
          total.insert event cur)

/-- A counter that only a log with them has, or the one before. -/
def rdtField (rdt : Bool) (line : List ℤ) (i : ℕ) (last : ℤ) : Except PyError ℤ :=
  if rdt then field line i else .ok last

/-- One round of the loop over the samples. -/
def sampleRowIn (rdt : Bool) (groups : Groups) (columnIdxs : Dict Token ℕ) (width : ℕ)
    (st : ReaderState) (line : List ℤ) : Except PyError (ReaderState × List Cell) := do
  let groupId := Text.ofInt (← field line 0)
  let _cpu ← field line 1
  let _tid ← field line 2
  let _nanoseconds ← field line 3
  let tsc ← field line 4
  let newTimeEnabled ← field line 5
  let newTimeRunning ← field line 6
  let localMemTraffic ← rdtField rdt line 7 st.lastLocalMemTraffic
  let l3Occupancy ← rdtField rdt line 8 st.lastL3Occupancy
  let total := st.totals.get? groupId
  let (timeRunning, timeEnabled) ← sampleInterval total newTimeEnabled newTimeRunning
  let startTotal := ((total.getD Dict.empty).insert "time_enabled".toList timeEnabled).insert
    "time_running".toList timeRunning
  let multiplier ← multiplierIn rounding timeRunning timeEnabled
  assert (0 ≤ multiplier ∧ multiplier ≤ 1)
  let (datapoint, newTotal) ←
    eventCellsIn rounding (fun dict event => if total.isNone then .ok 0 else entry dict event)
      line (nonGroupCtrs rdt) multiplier (groupEvents groups groupId).entries
      (leadPoint rdt st tsc localMemTraffic l3Occupancy, startTotal)
  let row ← fillRow columnIdxs datapoint.entries (List.replicate width Option.none)
  return ({
    totalTsc := tsc
    totals := st.totals.insert groupId newTotal
    lastLocalMemTraffic := localMemTraffic
    lastL3Occupancy := l3Occupancy }, row)

/-- The loop over the samples. -/
def sampleRowsIn (rdt : Bool) (groups : Groups) (columnIdxs : Dict Token ℕ) (width : ℕ) :
    ReaderState → List (List Token) → Except PyError (List (List Cell))
  | _, [] => .ok []
  | st, line :: rest => do
      let values ← toInts line
      let (next, row) ← sampleRowIn rounding rdt groups columnIdxs width st values
      return row :: (← sampleRowsIn rdt groups columnIdxs width next rest)

/-- `to_csv`. -/
def toCsvIn (rdt : Bool) (text : List Char) : Except PyError Table := do
  let (headers, data) ← separateHeaders (thymeLog text)
  let (groups, events) ← getGroups headers
  let columns := leadColumns rdt ++ events
  let columnIdxs := Dict.empty.insertAll columns.zipIdx
  let rows ← sampleRowsIn rounding rdt groups columnIdxs columns.length ReaderState.initial data
  return { columns, rows }

end

/-! ## Without rounding -/

theorem eventCellsIn_none (old : Dict Token ℤ → Token → Except PyError ℤ) (line : List ℤ)
    (skip : ℕ) (multiplier : ℚ) (items : List (Token × ℕ))
    (dicts : Dict Token ℚ × Dict Token ℤ) :
    eventCellsIn .none old line skip multiplier items dicts =
      eventCells old line skip multiplier items dicts := by
  induction items generalizing dicts with
  | nil => rfl
  | cons item rest ih =>
      rw [eventCellsIn, eventCells]
      refine bind_congr fun cur => bind_congr fun before => bind_congr fun scale => ?_
      exact ih _

theorem sampleRowIn_none (rdt : Bool) (groups : Groups) (columnIdxs : Dict Token ℕ) (width : ℕ)
    (st : ReaderState) (line : List ℤ) :
    sampleRowIn .none rdt groups columnIdxs width st line =
      sampleRow rdt groups columnIdxs width st line := by
  have sameMultiplier : ∀ running enabled : ℤ,
      multiplierIn .none running enabled = divide (running : ℚ) (enabled : ℚ) := by
    intro running enabled
    show (divide (running : ℚ) (enabled : ℚ) >>= fun multiplier => pure (id multiplier)) = _
    cases divide (running : ℚ) (enabled : ℚ) <;> rfl
  cases rdt <;> simp only [sampleRowIn, sampleRow, eventCellsIn_none, sameMultiplier] <;> rfl

theorem toCsvIn_none (rdt : Bool) (text : List Char) : toCsvIn .none rdt text = toCsv rdt text := by
  have sameRows : ∀ (groups : Groups) (columnIdxs : Dict Token ℕ) (width : ℕ)
      (data : List (List Token)) (st : ReaderState),
      sampleRowsIn .none rdt groups columnIdxs width st data =
        sampleRows rdt groups columnIdxs width st data := by
    intro groups columnIdxs width data
    induction data with
    | nil => exact fun _ => rfl
    | cons line rest ih =>
        intro st
        simp only [sampleRowsIn, sampleRows, sampleRowIn_none, ih]
  simp only [toCsvIn, toCsv, sameRows]

/-! ## Logs whose times advance -/

/-- The group and the cumulative times of a line. -/
structure LineTimes where
  id : ℤ
  timeEnabled : ℤ
  timeRunning : ℤ

/-- The times on a line that is long enough. -/
def lineTimes? (values : List ℤ) : Option LineTimes := do
  let id ← values[0]?
  let timeEnabled ← values[5]?
  let timeRunning ← values[6]?
  return ⟨id, timeEnabled, timeRunning⟩

/-- The last of the earlier times of a group. -/
def lastTimes (past : List LineTimes) (id : ℤ) : Option LineTimes :=
  (past.filter (·.id = id)).getLast?

/-- What a time gained since the last line of the group. The first line counts from zero. -/
def timeGain (past : List LineTimes) (times : LineTimes) (time : LineTimes → ℤ) : ℤ :=
  time times - ((lastTimes past times.id).map time).getD 0

/-- The group has run since its last line, though not for longer than it was enabled. -/
def AdvanceOn (past : List LineTimes) (times : LineTimes) : Prop :=
  0 < timeGain past times LineTimes.timeRunning ∧
    timeGain past times LineTimes.timeRunning ≤ timeGain past times LineTimes.timeEnabled

instance (past : List LineTimes) (times : LineTimes) : Decidable (AdvanceOn past times) :=
  inferInstanceAs (Decidable (_ ∧ _))

/-- In every group the times advance, on all lines up to the first that cannot be read. -/
def LinesAdvance (past : List LineTimes) : List (List Token) → Prop
  | [] => True
  | line :: rest => ∀ values times, toInts line = .ok values → lineTimes? values = some times →
      AdvanceOn past times ∧ LinesAdvance (past ++ [times]) rest

/-- The names under which the reader keeps the times among the counters of a group. -/
def timeNames : List Token := ["time_enabled".toList, "time_running".toList]

/-- The times of every group of a log advance. -/
def HasAdvancingTimes (text : List Char) : Prop :=
  ∀ headers data, separateHeaders (thymeLog text) = .ok (headers, data) → LinesAdvance [] data

/-- No event of a log is called like one of the times. -/
def NamesNoTimes (text : List Char) : Prop :=
  ∀ headers data, separateHeaders (thymeLog text) = .ok (headers, data) →
    ∀ header ∈ headers, ∀ event ∈ header.drop 2, event ∉ timeNames

/-- The times of every group advance, and no event is called like one of them. -/
structure IsAdvancingLog (text : List Char) : Prop where
  times : HasAdvancingTimes text
  names : NamesNoTimes text

/-! ## What the totals hold -/

/-- The totals of a group hold no more than its last times, and no more running than enabled
time. -/
structure TimesBounded (last : LineTimes) (timeEnabled timeRunning : ℤ) : Prop where
  nonneg : 0 ≤ timeRunning
  ordered : timeRunning ≤ timeEnabled
  lag_nonneg : timeRunning ≤ last.timeRunning
  lag_ordered : last.timeRunning - timeRunning ≤ last.timeEnabled - timeEnabled

/-- A group has totals precisely if it has had a line. -/
def TotalsFollow (past : List LineTimes) (id : ℤ) (total : Option (Dict Token ℤ)) : Prop :=
  match lastTimes past id with
  | none => total = none
  | some last => ∃ dict timeEnabled timeRunning, total = some dict ∧
      dict.get? "time_enabled".toList = some timeEnabled ∧
      dict.get? "time_running".toList = some timeRunning ∧ TimesBounded last timeEnabled timeRunning

theorem lastTimes_concat (past : List LineTimes) (times : LineTimes) (id : ℤ) :
    lastTimes (past ++ [times]) id = if times.id = id then some times else lastTimes past id := by
  rw [lastTimes, List.filter_append]
  by_cases same : times.id = id
  · rw [if_pos same, List.filter_singleton, decide_eq_true same, cond_true, List.getLast?_concat]
  · rw [if_neg same, List.filter_singleton, decide_eq_false same, cond_false, List.append_nil,
      lastTimes]

/-- The interval of a line whose times advance, and what it leaves in the totals. -/
theorem exists_interval {past : List LineTimes} {times : LineTimes}
    {total : Option (Dict Token ℤ)} (follow : TotalsFollow past times.id total)
    (advance : AdvanceOn past times) :
    ∃ timeRunning timeEnabled,
      sampleInterval total times.timeEnabled times.timeRunning =
        .ok (timeRunning, timeEnabled) ∧
      0 < timeRunning ∧ timeRunning ≤ timeEnabled ∧
      TimesBounded times timeEnabled timeRunning := by
  obtain ⟨runs, within⟩ := advance
  rw [timeGain] at runs within
  rw [TotalsFollow] at follow
  rw [timeGain] at within
  cases isLast : lastTimes past times.id with
  | none =>
      rw [isLast] at follow runs within
      subst follow
      simp only [Option.map_none, Option.getD_none, sub_zero] at runs within
      exact ⟨_, _, rfl, runs, within, by omega, within, le_refl _, by omega⟩
  | some last =>
      rw [isLast] at follow runs within
      obtain ⟨dict, oldEnabled, oldRunning, rfl, isEnabled, isRunning, bounded⟩ := follow
      simp only [Option.map_some, Option.getD_some] at runs within
      obtain ⟨nonneg, ordered, lag_nonneg, lag_ordered⟩ := bounded
      refine ⟨times.timeRunning - oldRunning, times.timeEnabled - oldEnabled, ?_, by omega,
        by omega, by omega, by omega, by omega, by omega⟩
      rw [sampleInterval, entry, isEnabled]
      dsimp only
      rw [ok_bind, assert, if_pos (by omega), ok_bind, entry, isRunning]
      dsimp only
      rw [ok_bind, assert, if_pos (by omega), ok_bind]
      rfl

/-! ## The faults of the calls -/

/-- A failed assertion or a division by zero. -/
def AssertsOrDivides (fault : PyError) : Prop :=
  fault = .assertionError ∨ fault = .zeroDivisionError

instance : DecidablePred AssertsOrDivides := fun fault =>
  inferInstanceAs (Decidable (fault = .assertionError ∨ fault = .zeroDivisionError))

theorem avoids_field (values : List ℤ) (i : ℕ) : Avoids AssertsOrDivides (field values i) := by
  rw [field]
  split
  · exact avoids_ok _
  · exact avoids_error (by decide)

theorem avoids_rdtField (rdt : Bool) (values : List ℤ) (i : ℕ) (last : ℤ) :
    Avoids AssertsOrDivides (rdtField rdt values i last) :=
  avoids_ite (fun _ => avoids_field values i) fun _ => avoids_ok last

theorem avoids_entry {ν : Type} (dict : Dict Token ν) (key : Token) :
    Avoids AssertsOrDivides (entry dict key) := by
  rw [entry]
  split
  · exact avoids_ok _
  · exact avoids_error (by decide)

theorem avoids_toInts (line : List Token) : Avoids AssertsOrDivides (toInts line) := by
  induction line with
  | nil => exact avoids_ok _
  | cons token rest ih =>
      rw [toInts]
      split
      · exact ih.bind fun values _ => avoids_ok _
      · exact avoids_error (by decide)

theorem avoids_fillRow (columnIdxs : Dict Token ℕ) (items : List (Token × ℚ)) (row : List Cell) :
    Avoids AssertsOrDivides (fillRow columnIdxs items row) := by
  induction items generalizing row with
  | nil => exact avoids_ok _
  | cons item rest ih => exact (avoids_entry columnIdxs item.1).bind fun idx _ => ih _

theorem avoids_separateHeaders (log : List (List Token)) :
    Avoids AssertsOrDivides (separateHeaders log) := by
  induction log with
  | nil => exact avoids_ok _
  | cons line rest ih =>
      cases line with
      | nil => exact avoids_error (by decide)
      | cons first others =>
          rw [separateHeaders]
          exact ih.bind fun split _ => avoids_ite (fun _ => avoids_ok _) fun _ => avoids_ok _

theorem avoids_getGroups (headers : List (List Token)) :
    Avoids AssertsOrDivides (getGroups headers) := by
  refine avoids_foldlM (fun st header _ => ?_) _
  rw [addHeader.eq_def]
  split
  · exact avoids_ok _
  · exact avoids_error (by decide)

section

variable {rounding : Rounding}

theorem avoids_ofInt (n : ℤ) : Avoids AssertsOrDivides (rounding.ofInt n) := by
  intro fault isFault
  rw [rounding.ofInt_fault n fault isFault]
  decide

/-- The multiplier of an interval in which the group ran, but not longer than enabled. -/
theorem avoids_multiplierIn {timeRunning timeEnabled : ℤ} (runs : 0 < timeRunning)
    (within : timeRunning ≤ timeEnabled) :
    Avoids AssertsOrDivides (multiplierIn rounding timeRunning timeEnabled) ∧
      ∀ multiplier, multiplierIn rounding timeRunning timeEnabled = .ok multiplier →
        0 < multiplier ∧ multiplier ≤ 1 := by
  have bounds : ∀ running enabled, rounding.ofInt timeRunning = .ok running →
      rounding.ofInt timeEnabled = .ok enabled → 1 ≤ running ∧ running ≤ enabled :=
    fun running enabled isRunning isEnabled =>
      ⟨rounding.one_le_ofInt _ _ runs isRunning,
        rounding.ofInt_mono _ _ _ _ within isRunning isEnabled⟩
  constructor
  · refine (avoids_ofInt timeRunning).bind fun running isRunning => ?_
    refine (avoids_ofInt timeEnabled).bind fun enabled isEnabled => ?_
    obtain ⟨large, less⟩ := bounds running enabled isRunning isEnabled
    have nonzero : enabled ≠ 0 := (one_pos.trans_le (large.trans less)).ne'
    rw [divide, if_neg nonzero, ok_bind]
    exact avoids_ok _
  · intro multiplier returned
    obtain ⟨running, isRunning, returned⟩ := bind_eq_ok_iff.mp returned
    obtain ⟨enabled, isEnabled, returned⟩ := bind_eq_ok_iff.mp returned
    obtain ⟨large, less⟩ := bounds running enabled isRunning isEnabled
    have positive : 0 < enabled := one_pos.trans_le (large.trans less)
    rw [divide, if_neg positive.ne', ok_bind] at returned
    cases returned
    refine ⟨rounding.round_pos timeEnabled running enabled large positive isEnabled, ?_⟩
    calc rounding.round (running / enabled) ≤ rounding.round 1 :=
          rounding.round_mono _ _ ((div_le_one positive).mpr less)
      _ = 1 := rounding.round_one

theorem avoids_eventCellsIn {old : Dict Token ℤ → Token → Except PyError ℤ}
    (avoidsOld : ∀ dict event, Avoids AssertsOrDivides (old dict event)) {line : List ℤ}
    {skip : ℕ} {multiplier : ℚ} (nonzero : multiplier ≠ 0) (items : List (Token × ℕ))
    (dicts : Dict Token ℚ × Dict Token ℤ) :
    Avoids AssertsOrDivides (eventCellsIn rounding old line skip multiplier items dicts) := by
  induction items generalizing dicts with
  | nil => exact avoids_ok _
  | cons item rest ih =>
      refine (avoids_field line _).bind fun cur _ => ?_
      refine (avoidsOld _ _).bind fun before _ => ?_
      rw [divide, if_neg nonzero, ok_bind]
      exact (avoids_ofInt _).bind fun difference _ => ih _

/-- The loop over the events keeps the totals of other names. -/
theorem get?_of_eventCellsIn {old : Dict Token ℤ → Token → Except PyError ℤ} {line : List ℤ}
    {skip : ℕ} {multiplier : ℚ} {items : List (Token × ℕ)} {name : Token}
    (absent : name ∉ items.map Prod.fst) {datapoint result : Dict Token ℚ}
    {total newTotal : Dict Token ℤ}
    (returned : eventCellsIn rounding old line skip multiplier items (datapoint, total) =
      .ok (result, newTotal)) : newTotal.get? name = total.get? name := by
  induction items generalizing datapoint total with
  | nil =>
      cases returned
      rfl
  | cons item rest ih =>
      rw [List.map_cons, List.mem_cons, not_or] at absent
      obtain ⟨cur, -, returned⟩ := bind_eq_ok_iff.mp returned
      obtain ⟨before, -, returned⟩ := bind_eq_ok_iff.mp returned
      obtain ⟨scale, -, returned⟩ := bind_eq_ok_iff.mp returned
      obtain ⟨difference, -, returned⟩ := bind_eq_ok_iff.mp returned
      rw [ih absent.2 returned, Dict.get?_insert_of_ne _ absent.1]

end

/-! ## The loop over the lines -/

theorem get?_groupEvents {headers : List (List Token)} {start result : Groups × List Token}
    (gotten : headers.foldlM addHeader start = .ok result) {name : Token}
    (unnamed : ∀ header ∈ headers, name ∉ header.drop 2)
    (absent : ∀ groupId, (groupEvents start.1 groupId).get? name = none) (groupId : Token) :
    (groupEvents result.1 groupId).get? name = none := by
  induction headers generalizing start with
  | nil =>
      cases gotten
      exact absent groupId
  | cons header rest ih =>
      rw [List.foldlM_cons] at gotten
      obtain ⟨next, added, gotten⟩ := bind_eq_ok_iff.mp gotten
      refine ih gotten (fun other isLater => unnamed other (List.mem_cons_of_mem header isLater))
        fun other => ?_
      have here := unnamed header List.mem_cons_self
      obtain ⟨groups, allEvents⟩ := start
      match header, added with
      | _ :: id :: events, added =>
          cases added
          dsimp only
          rw [groupEvents, Dict.get?_insert]
          split
          · rw [Option.getD_some, Dict.get?_insertAll_of_not_mem (by rwa [List.zipIdx_map_fst])]
            exact absent id
          · exact absent other

theorem getElem?_of_field {values : List ℤ} {i : ℕ} {value : ℤ}
    (found : field values i = .ok value) : values[i]? = some value := by
  rw [field] at found
  split at found
  · cases found
    assumption
  · cases found

theorem lineTimes?_of_fields {values : List ℤ} {id timeEnabled timeRunning : ℤ}
    (isId : field values 0 = .ok id) (isEnabled : field values 5 = .ok timeEnabled)
    (isRunning : field values 6 = .ok timeRunning) :
    lineTimes? values = some ⟨id, timeEnabled, timeRunning⟩ := by
  rw [lineTimes?, getElem?_of_field isId, getElem?_of_field isEnabled, getElem?_of_field isRunning]
  rfl

section

variable {rounding : Rounding} {rdt : Bool} {groups : Groups} {columnIdxs : Dict Token ℕ}
  {width : ℕ} {st next : ReaderState} {past : List LineTimes} {values : List ℤ}

/-- A round over a line whose times advance meets neither fault. -/
theorem avoids_sampleRowIn
    (follow : ∀ id, TotalsFollow past id (st.totals.get? (Text.ofInt id)))
    (advance : ∀ times, lineTimes? values = some times → AdvanceOn past times) :
    Avoids AssertsOrDivides (sampleRowIn rounding rdt groups columnIdxs width st values) := by
  refine (avoids_field values 0).bind fun id isId => ?_
  refine (avoids_field values 1).bind fun cpu _ => ?_
  refine (avoids_field values 2).bind fun tid _ => ?_
  refine (avoids_field values 3).bind fun nanoseconds _ => ?_
  refine (avoids_field values 4).bind fun tsc _ => ?_
  refine (avoids_field values 5).bind fun newTimeEnabled isEnabled => ?_
  refine (avoids_field values 6).bind fun newTimeRunning isRunning => ?_
  refine (avoids_rdtField rdt values 7 _).bind fun localMemTraffic _ => ?_
  refine (avoids_rdtField rdt values 8 _).bind fun l3Occupancy _ => ?_
  obtain ⟨timeRunning, timeEnabled, isInterval, runs, within, -⟩ :=
    exists_interval (follow id) (advance _ (lineTimes?_of_fields isId isEnabled isRunning))
  dsimp only at isInterval
  obtain ⟨avoids, bounds⟩ := @avoids_multiplierIn rounding _ _ runs within
  dsimp only
  rw [isInterval, ok_bind]
  refine avoids.bind fun multiplier isMultiplier => ?_
  obtain ⟨positive, atMost⟩ := bounds multiplier isMultiplier
  rw [assert, if_pos ⟨positive.le, atMost⟩, ok_bind]
  refine Avoids.bind (avoids_eventCellsIn (fun dict event => ?_) positive.ne' _ _) fun dicts _ => ?_
  · exact avoids_ite (fun _ => avoids_ok _) fun _ => avoids_entry dict event
  · exact (avoids_fillRow _ _ _).bind fun row _ => avoids_ok _

/-- After a round the totals follow the line, too. -/
theorem totalsFollow_of_sampleRowIn {row : List Cell}
    (follow : ∀ id, TotalsFollow past id (st.totals.get? (Text.ofInt id)))
    (unnamed : ∀ name ∈ timeNames, ∀ groupId, (groupEvents groups groupId).get? name = none)
    (advance : ∀ times, lineTimes? values = some times → AdvanceOn past times)
    (returned : sampleRowIn rounding rdt groups columnIdxs width st values = .ok (next, row)) :
    ∃ times, lineTimes? values = some times ∧
      ∀ id, TotalsFollow (past ++ [times]) id (next.totals.get? (Text.ofInt id)) := by
  obtain ⟨id, isId, returned⟩ := bind_eq_ok_iff.mp returned
  obtain ⟨cpu, -, returned⟩ := bind_eq_ok_iff.mp returned
  obtain ⟨tid, -, returned⟩ := bind_eq_ok_iff.mp returned
  obtain ⟨nanoseconds, -, returned⟩ := bind_eq_ok_iff.mp returned
  obtain ⟨tsc, -, returned⟩ := bind_eq_ok_iff.mp returned
  obtain ⟨newTimeEnabled, isEnabled, returned⟩ := bind_eq_ok_iff.mp returned
  obtain ⟨newTimeRunning, isRunning, returned⟩ := bind_eq_ok_iff.mp returned
  obtain ⟨localMemTraffic, -, returned⟩ := bind_eq_ok_iff.mp returned
  obtain ⟨l3Occupancy, -, returned⟩ := bind_eq_ok_iff.mp returned
  have isTimes := lineTimes?_of_fields isId isEnabled isRunning
  obtain ⟨timeRunning, timeEnabled, isInterval, -, -, bounded⟩ :=
    exists_interval (follow id) (advance _ isTimes)
  dsimp only at isInterval returned
  rw [isInterval, ok_bind] at returned
  obtain ⟨multiplier, -, returned⟩ := bind_eq_ok_iff.mp returned
  obtain ⟨-, -, returned⟩ := bind_eq_ok_iff.mp returned
  obtain ⟨⟨datapoint, newTotal⟩, counted, returned⟩ := bind_eq_ok_iff.mp returned
  obtain ⟨cells, -, returned⟩ := bind_eq_ok_iff.mp returned
  cases returned
  have kept : ∀ name ∈ timeNames, newTotal.get? name =
      ((((st.totals.get? (Text.ofInt id)).getD Dict.empty).insert "time_enabled".toList
        timeEnabled).insert "time_running".toList timeRunning).get? name := by
    intro name isTime
    refine get?_of_eventCellsIn (fun isEvent => ?_) counted
    obtain ⟨⟨event, position⟩, listed, rfl⟩ := List.mem_map.mp isEvent
    rw [Dict.mem_entries_iff, unnamed _ isTime] at listed
    cases listed
  refine ⟨_, isTimes, fun other => ?_⟩
  rw [TotalsFollow, lastTimes_concat]
  dsimp only
  by_cases same : id = other
  · subst same
    rw [if_pos rfl, Dict.get?_insert_self]
    refine ⟨newTotal, timeEnabled, timeRunning, rfl, ?_, ?_, bounded⟩
    · rw [kept _ (by decide), Dict.get?_insert_of_ne _ (by decide), Dict.get?_insert_self]
    · rw [kept _ (by decide), Dict.get?_insert_self]
  · have different : Text.ofInt other ≠ Text.ofInt id := fun equal =>
      same (ofInt_injective equal).symm
    rw [if_neg same, Dict.get?_insert_of_ne _ different]
    exact follow other

theorem avoids_sampleRowsIn {data : List (List Token)}
    (follow : ∀ id, TotalsFollow past id (st.totals.get? (Text.ofInt id)))
    (unnamed : ∀ name ∈ timeNames, ∀ groupId, (groupEvents groups groupId).get? name = none)
    (advance : LinesAdvance past data) :
    Avoids AssertsOrDivides (sampleRowsIn rounding rdt groups columnIdxs width st data) := by
  induction data generalizing past st with
  | nil => exact avoids_ok _
  | cons line rest ih =>
      refine (avoids_toInts line).bind fun values areValues => ?_
      have here : ∀ times, lineTimes? values = some times → AdvanceOn past times :=
        fun times isTimes => (advance values times areValues isTimes).1
      refine (avoids_sampleRowIn follow here).bind fun ⟨next, row⟩ returned => ?_
      obtain ⟨times, isTimes, later⟩ := totalsFollow_of_sampleRowIn follow unnamed here returned
      exact (ih later (advance values times areValues isTimes).2).bind fun rows _ => avoids_ok _

end

/-- However many lines a log has and however its groups take turns, as long as the times of every
group advance the reader neither fails an assertion nor divides by zero. -/
theorem toCsvIn_avoids (rounding : Rounding) (rdt : Bool) {text : List Char}
    (advancing : IsAdvancingLog text) :
    toCsvIn rounding rdt text ≠ .error .assertionError ∧
      toCsvIn rounding rdt text ≠ .error .zeroDivisionError := by
  have avoids : Avoids AssertsOrDivides (toCsvIn rounding rdt text) := by
    refine (avoids_separateHeaders _).bind fun ⟨headers, data⟩ separated => ?_
    have named := advancing.names headers data separated
    have advance := advancing.times headers data separated
    refine (avoids_getGroups headers).bind fun ⟨groups, events⟩ gotten => ?_
    have start : ∀ id, TotalsFollow [] id (ReaderState.initial.totals.get? (Text.ofInt id)) :=
      fun _ => rfl
    refine (avoids_sampleRowsIn start (fun name isTime => ?_) advance).bind
      fun rows _ => avoids_ok _
    exact get?_groupEvents gotten
      (fun header isHeader isEvent => named header isHeader name isEvent isTime) fun _ => rfl
  exact ⟨fun fails => avoids _ fails (.inl rfl), fun fails => avoids _ fails (.inr rfl)⟩

/-! ## An event that is called like a time -/

theorem linesAdvance_cons {past : List LineTimes} {line : List Token} {rest : List (List Token)}
    {values : List ℤ} {times : LineTimes} (areValues : toInts line = .ok values)
    (isTimes : lineTimes? values = some times) (advance : AdvanceOn past times)
    (later : LinesAdvance (past ++ [times]) rest) : LinesAdvance past (line :: rest) := by
  intro others otherTimes areOthers isOther
  cases areValues.symm.trans areOthers
  cases isTimes.symm.trans isOther
  exact ⟨advance, later⟩

/-- The event takes the place of the time in the totals of its group. -/
def namedTimeLog : List Char :=
  "group 4 time_running
4 0 7 10 10 10 10 0 0 50
4 0 7 20 20 20 20 0 0 60
".toList

/-- The second sample has run for longer than the first, but not for longer than its count. -/
theorem namedTimeLog_asserts :
    HasAdvancingTimes namedTimeLog ∧
      toCsvIn .none true namedTimeLog = .error .assertionError := by
  have separated : separateHeaders (thymeLog namedTimeLog) = .ok
      ([["group".toList, "4".toList, "time_running".toList]],
        [[4, 0, 7, 10, 10, 10, 10, 0, 0, 50].map Text.ofInt,
          [4, 0, 7, 20, 20, 20, 20, 0, 0, 60].map Text.ofInt]) := by
    decide +kernel
  refine ⟨fun headers data isSeparated => ?_, by decide +kernel⟩
  cases separated.symm.trans isSeparated
  refine linesAdvance_cons (toInts_map_ofInt _) rfl (by decide) ?_
  exact linesAdvance_cons (toInts_map_ofInt _) rfl (by decide) trivial

/-! ## Logs with a layout -/

section

variable {layout : Layout}

/-- The times on the line of a sample. -/
def Sample.times (sample : Sample layout) : LineTimes :=
  ⟨sample.group.id, sample.timeEnabled, sample.timeRunning⟩

theorem lineTimes?_values (sample : Sample layout) :
    lineTimes? sample.values = some sample.times := rfl

theorem lastTimes_map (past : List (Sample layout)) (id : ℤ) :
    lastTimes (past.map Sample.times) id = (ofGroup past id).getLast?.map Sample.times := by
  rw [lastTimes, List.filter_map, List.getLast?_map]
  rfl

theorem timeGain_map (past : List (Sample layout)) (sample : Sample layout)
    {time : LineTimes → ℤ} {field : Sample layout → ℤ}
    (isTime : ∀ sample : Sample layout, time sample.times = field sample) :
    timeGain (past.map Sample.times) sample.times time = gainInGroup past sample field := by
  have sameLast : ((lastTimes (past.map Sample.times) sample.times.id).map time).getD 0 =
      fieldOf (previousOfGroup past sample) field := by
    rw [lastTimes_map, Option.map_map, fieldOf, previousOfGroup]
    congr 2
    exact funext isTime
  rw [timeGain, gainInGroup, sameLast, isTime]

theorem linesAdvance_of_samples {past samples : List (Sample layout)} {data : List (List Token)}
    (lines : List.Forall₂ (fun tokens sample => toInts tokens = .ok sample.values) data samples)
    (advance : AllFrom Advances past samples) : LinesAdvance (past.map Sample.times) data := by
  induction lines generalizing past with
  | nil => trivial
  | @cons line sample rest samples isLine _ ih =>
      intro values times areValues isTimes
      cases isLine.symm.trans areValues
      cases (lineTimes?_values sample).symm.trans isTimes
      obtain ⟨runs, within⟩ := advance.1
      refine ⟨⟨?_, ?_⟩, ?_⟩
      · rwa [timeGain_map past sample fun _ => rfl]
      · rwa [timeGain_map past sample fun _ => rfl, timeGain_map past sample fun _ => rfl]
      · have later := ih advance.2
        rwa [List.map_append, List.map_singleton] at later

/-- A log that reads as samples whose times advance is one of these logs. -/
theorem isAdvancingLog_of_readsAs {text : List Char} {samples : List (Sample layout)}
    (reads : ReadsAs text layout samples) (advance : TimesAdvance samples) :
    IsAdvancingLog text := by
  obtain ⟨lines, separated, areLines⟩ := reads
  constructor
  case times =>
    intro headers data isSeparated
    cases separated.symm.trans isSeparated
    exact linesAdvance_of_samples areLines advance
  case names =>
    intro headers data isSeparated header isHeader event isEvent isTime
    cases separated.symm.trans isSeparated
    obtain ⟨group, isGroup, rfl⟩ := List.mem_map.mp isHeader
    refine Layout.not_mem_leadColumns isGroup isEvent ?_
    rcases List.mem_cons.mp isTime with rfl | isRunning
    · decide
    · rw [List.mem_singleton.mp isRunning]
      decide

end

theorem unevenLog_avoids :
    toCsvIn .none true unevenLog ≠ .error .assertionError ∧
      toCsvIn .none true unevenLog ≠ .error .zeroDivisionError :=
  toCsvIn_avoids .none true (isAdvancingLog_of_readsAs readsAs_unevenLog timesAdvance_unevenSamples)

end Datamime.Csv
