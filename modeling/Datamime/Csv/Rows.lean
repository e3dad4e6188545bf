/-
# The rows of a log

The invariant of the loop over the samples: the reader's state describes the
samples read so far. From a state that describes the past of a sample, one round
accepts exactly the samples whose times pass the assertions, appends the expected
row and describes the longer past. Read over a whole log, the table has one
expected row for each sample.
-/

import Datamime.Csv.Reader

namespace Datamime.Csv

open Datamime.Math

variable {layout : Layout}

/-- The reader's state describes the samples before the next one. -/
structure Represents (past : List (Sample layout)) (st : ReaderState) : Prop where
  tsc : st.totalTsc = fieldOf past.getLast? Sample.tsc
  localMemTraffic : st.lastLocalMemTraffic = fieldOf past.getLast? Sample.localMemTraffic
  l3Occupancy : st.lastL3Occupancy = fieldOf past.getLast? Sample.l3Occupancy
  unseen : ∀ group ∈ layout.groups, ofGroup past group.id = [] →
    st.totals.get? (Text.ofInt group.id) = none
  seen : ∀ group ∈ layout.groups, ∀ last, (ofGroup past group.id).getLast? = some last →
    ∃ total, st.totals.get? (Text.ofInt group.id) = some total ∧
      total.get? "time_enabled".toList =
        some (leftover ((ofGroup past group.id).map Sample.timeEnabled)) ∧
      total.get? "time_running".toList =
        some (leftover ((ofGroup past group.id).map Sample.timeRunning)) ∧
      ∀ event ∈ group.events, total.get? event = some (last.count event)

theorem represents_initial : Represents ([] : List (Sample layout)) ReaderState.initial where
  tsc := rfl
  localMemTraffic := rfl
  l3Occupancy := rfl
  unseen := fun _ _ _ => rfl
  seen := fun _ _ _ absent => nomatch absent

/-! ## The counters of one sample -/

/-- The loop over the events inserts one cell and one total for each event. -/
theorem eventCells_eq {old : Dict Token ℤ → Token → Except PyError ℤ} {values : List ℤ}
    {skip : ℕ} {multiplier : ℚ} (nonzero : multiplier ≠ 0) (cur before : Token → ℤ)
    {items : List (Token × ℕ)} (distinct : (items.map Prod.fst).Nodup)
    {datapoint : Dict Token ℚ} {total : Dict Token ℤ}
    (listed : ∀ item ∈ items, field values (item.2 + skip) = .ok (cur item.1))
    (known : ∀ item ∈ items, ∀ dict : Dict Token ℤ, dict.get? item.1 = total.get? item.1 →
      old dict item.1 = .ok (before item.1)) :
    eventCells old values skip multiplier items (datapoint, total) =
      .ok (datapoint.insertAll (items.map fun item =>
          (item.1, ((cur item.1 - before item.1 : ℤ) : ℚ) * (1 / multiplier))),
        total.insertAll (items.map fun item => (item.1, cur item.1))) := by
  induction items generalizing datapoint total with
  | nil => rfl
  | cons item rest ih =>
      rcases item with ⟨event, position⟩
      rw [List.map_cons, List.nodup_cons] at distinct
      rw [eventCells, listed (event, position) (by simp), divide, if_neg nonzero]
      show (do
        let before ← old total event
        let scale ← Except.ok (1 / multiplier)
        eventCells old values skip multiplier rest _) = _
      rw [known (event, position) (by simp) total rfl]
      show eventCells old values skip multiplier rest _ = _
      rw [ih distinct.2 (fun item isMember => listed item (List.mem_cons_of_mem _ isMember))]
      · rfl
      · intro item isMember dict same
        apply known item (List.mem_cons_of_mem _ isMember)
        rw [same, Dict.get?_insert_of_ne]
        intro equal
        exact distinct.1 (List.mem_map.mpr ⟨item, isMember, equal⟩)

/-- Without any running time there is no scale for the first event. -/
theorem eventCells_zero {old : Dict Token ℤ → Token → Except PyError ℤ} {values : List ℤ}
    {skip : ℕ} {item : Token × ℕ} {rest : List (Token × ℕ)}
    {dicts result : Dict Token ℚ × Dict Token ℤ} :
    eventCells old values skip 0 (item :: rest) dicts ≠ .ok result := by
  intro returned
  rw [eventCells, bind_eq_ok_iff] at returned
  obtain ⟨cur, -, returned⟩ := returned
  rw [bind_eq_ok_iff] at returned
  obtain ⟨before, -, returned⟩ := returned
  rw [bind_eq_ok_iff] at returned
  obtain ⟨scale, divided, -⟩ := returned
  rw [divide, if_pos rfl] at divided
  cases divided

theorem field_values (sample : Sample layout) {event : Token} {position : ℕ}
    (distinct : sample.group.events.Nodup) (here : sample.group.events[position]? = some event) :
    field sample.values (position + nonGroupCtrs true) = .ok (sample.count event) := by
  obtain ⟨inside, atPosition⟩ := List.getElem?_eq_some_iff.mp here
  have stored : position < sample.counts.length := by
    rw [sample.complete]
    exact inside
  have first : sample.group.events.idxOf event = position := by
    rw [← atPosition]
    exact distinct.idxOf_getElem position inside
  rw [Sample.count, first, List.getD_eq_getElem?_getD, List.getElem?_eq_getElem stored,
    Option.getD_some, field]
  have tail : sample.values[position + nonGroupCtrs true]? = sample.counts[position]? := rfl
  rw [tail, List.getElem?_eq_getElem stored]

/-! ## The interval of one sample -/

theorem ofGroup_concat (past : List (Sample layout)) (sample : Sample layout) (id : ℤ) :
    ofGroup (past ++ [sample]) id =
      if sample.group.id = id then ofGroup past id ++ [sample] else ofGroup past id := by
  rw [ofGroup, List.filter_append]
  by_cases here : sample.group.id = id <;> simp [here, ofGroup]

theorem Layout.eq_of_id_eq (layout : Layout) {first second : Group}
    (firstMember : first ∈ layout.groups) (secondMember : second ∈ layout.groups)
    (equal : first.id = second.id) : first = second :=
  List.inj_on_of_nodup_map layout.distinctIds firstMember secondMember equal

/-- The interval that the reader computes, and when it accepts the times. -/
theorem sampleInterval_eq_ok_iff {past : List (Sample layout)} {st : ReaderState}
    (represents : Represents past st) (sample : Sample layout) {interval : ℤ × ℤ} :
    sampleInterval (st.totals.get? (Text.ofInt sample.group.id)) sample.timeEnabled
        sample.timeRunning = .ok interval ↔
      (ofGroup past sample.group.id ≠ [] →
        storedTime past sample Sample.timeEnabled < sample.timeEnabled ∧
          storedTime past sample Sample.timeRunning < sample.timeRunning) ∧
      interval = (readInterval past sample Sample.timeRunning,
        readInterval past sample Sample.timeEnabled) := by
  cases seenBefore : (ofGroup past sample.group.id).getLast? with
  | none =>
      have empty : ofGroup past sample.group.id = [] := List.getLast?_eq_none_iff.mp seenBefore
      rw [represents.unseen sample.group sample.isMember empty, sampleInterval]
      simp [readInterval, storedTime, empty, eq_comm]
  | some last =>
      have nonempty : ofGroup past sample.group.id ≠ [] := by
        intro empty
        simp [empty] at seenBefore
      obtain ⟨total, found, enabled, running, -⟩ :=
        represents.seen sample.group sample.isMember last seenBefore
      rw [found, sampleInterval, entry, enabled]
      show (do
        assert (sample.timeEnabled > storedTime past sample Sample.timeEnabled)
        let oldRunning ← entry total "time_running".toList
        assert (sample.timeRunning > oldRunning)
        return (sample.timeRunning - oldRunning,
          readInterval past sample Sample.timeEnabled)) = _ ↔ _
      rw [entry, running, assert]
      by_cases enabledLater : storedTime past sample Sample.timeEnabled < sample.timeEnabled
      · rw [if_pos enabledLater]
        show (do
          assert (sample.timeRunning > storedTime past sample Sample.timeRunning)
          return (readInterval past sample Sample.timeRunning,
            readInterval past sample Sample.timeEnabled)) = _ ↔ _
        rw [assert]
        by_cases runningLater : storedTime past sample Sample.timeRunning < sample.timeRunning
        · rw [if_pos runningLater]
          exact ⟨fun returned => ⟨fun _ => ⟨enabledLater, runningLater⟩,
            (Except.ok.inj returned).symm⟩, fun accepted => congrArg Except.ok accepted.2.symm⟩
        · rw [if_neg runningLater]
          refine iff_of_false ?_ fun accepted => runningLater (accepted.1 nonempty).2
          rintro ⟨⟩
      · rw [if_neg enabledLater]
        refine iff_of_false ?_ fun accepted => enabledLater (accepted.1 nonempty).1
        rintro ⟨⟩

/-! ## One round -/

section Round

variable {past : List (Sample layout)} {st : ReaderState} (sample : Sample layout)

/-- The totals of the sample's group with the interval of the sample written to them. -/
def startTotal (past : List (Sample layout)) (st : ReaderState) (sample : Sample layout) :
    Dict Token ℤ :=
  (((st.totals.get? (Text.ofInt sample.group.id)).getD Dict.empty).insert
      "time_enabled".toList (readInterval past sample Sample.timeEnabled)).insert
    "time_running".toList (readInterval past sample Sample.timeRunning)

/-- The counter that the reader subtracts. -/
def oldCount (st : ReaderState) (sample : Sample layout) (dict : Dict Token ℤ) (event : Token) :
    Except PyError ℤ :=
  if (st.totals.get? (Text.ofInt sample.group.id)).isNone then .ok 0 else entry dict event

/-- What a round does once the interval of its sample is known. -/
def roundFrom (past : List (Sample layout)) (st : ReaderState) (sample : Sample layout) :
    Except PyError (ReaderState × List Cell) := do
  let multiplier ← divide (readInterval past sample Sample.timeRunning)
    (readInterval past sample Sample.timeEnabled)
  assert (0 ≤ multiplier ∧ multiplier ≤ 1)
  let (datapoint, newTotal) ← eventCells (oldCount st sample) sample.values
    (nonGroupCtrs true) multiplier sample.group.positions.entries
    (leadPoint true st sample.tsc sample.localMemTraffic sample.l3Occupancy,
      startTotal past st sample)
  let row ← fillRow (Dict.empty.insertAll layout.columns.zipIdx) datapoint.entries
    (List.replicate layout.columns.length none)
  return ({
    totalTsc := sample.tsc
    totals := st.totals.insert (Text.ofInt sample.group.id) newTotal
    lastLocalMemTraffic := sample.localMemTraffic
    lastL3Occupancy := sample.l3Occupancy }, row)

/-- A round of the reader over the line of a sample. -/
def roundOf (st : ReaderState) (sample : Sample layout) :
    Except PyError (ReaderState × List Cell) :=
  sampleRow true (groupsOf layout.groups) (Dict.empty.insertAll layout.columns.zipIdx)
    layout.columns.length st sample.values

theorem roundOf_eq (st : ReaderState) (sample : Sample layout) :
    roundOf st sample = (do
      let (timeRunning, timeEnabled) ←
        sampleInterval (st.totals.get? (Text.ofInt sample.group.id)) sample.timeEnabled
          sample.timeRunning
      let multiplier ← divide (timeRunning : ℚ) (timeEnabled : ℚ)
      assert (0 ≤ multiplier ∧ multiplier ≤ 1)
      let (datapoint, newTotal) ← eventCells (oldCount st sample) sample.values
        (nonGroupCtrs true) multiplier
        (groupEvents (groupsOf layout.groups) (Text.ofInt sample.group.id)).entries
        (leadPoint true st sample.tsc sample.localMemTraffic sample.l3Occupancy,
          (((st.totals.get? (Text.ofInt sample.group.id)).getD Dict.empty).insert
            "time_enabled".toList timeEnabled).insert "time_running".toList timeRunning)
      let row ← fillRow (Dict.empty.insertAll layout.columns.zipIdx) datapoint.entries
        (List.replicate layout.columns.length none)
      return ({
        totalTsc := sample.tsc
        totals := st.totals.insert (Text.ofInt sample.group.id) newTotal
        lastLocalMemTraffic := sample.localMemTraffic
        lastL3Occupancy := sample.l3Occupancy }, row)) := rfl

theorem roundOf_eq_ok_iff (represents : Represents past st) {result : ReaderState × List Cell} :
    roundOf st sample = .ok result ↔
      (ofGroup past sample.group.id ≠ [] →
        storedTime past sample Sample.timeEnabled < sample.timeEnabled ∧
          storedTime past sample Sample.timeRunning < sample.timeRunning) ∧
      roundFrom past st sample = .ok result := by
  rw [roundOf_eq, bind_eq_ok_iff, groupEvents_groupsOf layout sample.isMember]
  constructor
  · rintro ⟨interval, found, rest⟩
    obtain ⟨later, rfl⟩ := (sampleInterval_eq_ok_iff represents sample).mp found
    exact ⟨later, rest⟩
  · rintro ⟨later, rest⟩
    exact ⟨_, (sampleInterval_eq_ok_iff represents sample).mpr ⟨later, rfl⟩, rest⟩

theorem Sample.distinctEvents (sample : Sample layout) : sample.group.events.Nodup :=
  layout.distinctEvents sample.isMember

theorem mem_positions_iff {event : Token} {position : ℕ} :
    (event, position) ∈ sample.group.positions.entries ↔
      sample.group.events[position]? = some event := by
  rw [Dict.mem_entries_iff, Group.get?_positions sample.distinctEvents]

/-- What the loop over the events adds under the name of an event. -/
def eventItems {ν : Type} (sample : Sample layout) (value : Token → ν) : List (Token × ν) :=
  sample.group.positions.entries.map fun item => (item.1, value item.1)

theorem fst_eventItems {ν : Type} (value : Token → ν) :
    (eventItems sample value).map Prod.fst = sample.group.positions.entries.map Prod.fst := by
  simp [eventItems, Function.comp_def]

/-- The added entries are those of the sample's events, all others stay. -/
theorem get?_insertAll_eventItems {ν : Type} (dict : Dict Token ν) (value : Token → ν)
    (column : Token) :
    (dict.insertAll (eventItems sample value)).get? column =
      if column ∈ sample.group.events then some (value column) else dict.get? column := by
  split
  · rename_i isEvent
    obtain ⟨position, here⟩ := List.mem_iff_getElem?.mp isEvent
    apply Dict.get?_insertAll_of_mem
    · rw [fst_eventItems]
      exact sample.group.positions.distinct
    · exact List.mem_map.mpr ⟨(column, position), (mem_positions_iff sample).mpr here, rfl⟩
  · rename_i notEvent
    apply Dict.get?_insertAll_of_not_mem
    rw [fst_eventItems]
    rintro listed
    obtain ⟨⟨event, position⟩, isEntry, rfl⟩ := List.mem_map.mp listed
    exact notEvent (List.mem_iff_getElem?.mpr ⟨position, (mem_positions_iff sample).mp isEntry⟩)

theorem startTotal_of_isEvent (past : List (Sample layout)) (st : ReaderState) {event : Token}
    (isEvent : event ∈ sample.group.events) :
    (startTotal past st sample).get? event =
      ((st.totals.get? (Text.ofInt sample.group.id)).getD Dict.empty).get? event := by
  have notLead := Layout.not_mem_leadColumns sample.isMember isEvent
  have notRunning : event ≠ "time_running".toList := by
    rintro rfl
    exact notLead (by decide)
  have notEnabled : event ≠ "time_enabled".toList := by
    rintro rfl
    exact notLead (by decide)
  rw [startTotal, Dict.get?_insert_of_ne _ notRunning, Dict.get?_insert_of_ne _ notEnabled]

/-- The subtracted counter is the one of the group's previous sample. -/
theorem oldCount_eq (represents : Represents past st) {dict : Dict Token ℤ} {event : Token}
    (isEvent : event ∈ sample.group.events)
    (same : dict.get? event = (startTotal past st sample).get? event) :
    oldCount st sample dict event =
      .ok (fieldOf (previousOfGroup past sample) (·.count event)) := by
  rw [startTotal_of_isEvent sample past st isEvent] at same
  cases seenBefore : (ofGroup past sample.group.id).getLast? with
  | none =>
      have empty : ofGroup past sample.group.id = [] := List.getLast?_eq_none_iff.mp seenBefore
      rw [oldCount, represents.unseen sample.group sample.isMember empty, previousOfGroup,
        seenBefore]
      rfl
  | some last =>
      obtain ⟨total, found, -, -, counts⟩ :=
        represents.seen sample.group sample.isMember last seenBefore
      rw [found, Option.getD_some, counts event isEvent] at same
      rw [oldCount, found, previousOfGroup, seenBefore, entry, same]
      rfl

theorem eventCells_sample (represents : Represents past st) {multiplier : ℚ}
    (nonzero : multiplier ≠ 0) (datapoint : Dict Token ℚ) :
    eventCells (oldCount st sample) sample.values (nonGroupCtrs true) multiplier
        sample.group.positions.entries (datapoint, startTotal past st sample) =
      .ok (datapoint.insertAll (eventItems sample fun event =>
          (gainInGroup past sample (·.count event) : ℚ) * (1 / multiplier)),
        (startTotal past st sample).insertAll (eventItems sample sample.count)) := by
  apply eventCells_eq nonzero sample.count
      (fun event => fieldOf (previousOfGroup past sample) (·.count event))
      sample.group.positions.distinct
  · rintro ⟨event, position⟩ isEntry
    exact field_values sample sample.distinctEvents ((mem_positions_iff sample).mp isEntry)
  · rintro ⟨event, position⟩ isEntry dict same
    have isEvent : event ∈ sample.group.events :=
      List.mem_iff_getElem?.mpr ⟨position, (mem_positions_iff sample).mp isEntry⟩
    exact oldCount_eq sample represents isEvent same

theorem get?_leadPoint (represents : Represents past st) {column : Token}
    (notEvent : column ∉ sample.group.events) :
    (leadPoint true st sample.tsc sample.localMemTraffic sample.l3Occupancy).get? column =
      rowCell past sample column := by
  rw [leadPoint, if_pos rfl, Dict.get?_insert, Dict.get?_insert, Dict.get?_insert,
    Dict.get?_insert, represents.tsc, represents.localMemTraffic, represents.l3Occupancy, rowCell,
    if_neg notEvent]
  by_cases isTimestamp : column = "timestamp".toList
  · subst column
    rfl
  · rw [if_neg isTimestamp, if_neg isTimestamp]
    by_cases isCycles : column = "ref_cycles".toList
    · subst column
      rfl
    · rw [if_neg isCycles, if_neg isCycles]
      by_cases isTraffic : column = "local_mem_traffic".toList
      · subst column
        rfl
      · rw [if_neg isTraffic, if_neg isTraffic]
        rfl

theorem rowCell_of_isEvent (past : List (Sample layout)) {column : Token}
    (isEvent : column ∈ sample.group.events) :
    rowCell past sample column =
      some ((gainInGroup past sample (·.count column) : ℚ) * (1 / rowMultiplier past sample)) := by
  have notLead := Layout.not_mem_leadColumns sample.isMember isEvent
  rw [rowCell, if_neg, if_neg, if_neg, if_neg, if_pos isEvent] <;>
    · rintro rfl
      exact notLead (by decide)

theorem rowCell_eq_none {column : Token} (notColumn : column ∉ layout.columns) :
    rowCell past sample column = none := by
  have isColumn : ∀ lead ∈ leadColumns true, lead ∈ layout.columns := fun lead isLead =>
    List.mem_append_left _ isLead
  rw [rowCell, if_neg, if_neg, if_neg, if_neg, if_neg]
  · exact fun isEvent => notColumn (Layout.mem_columns sample.isMember isEvent)
  all_goals
    rintro rfl
    exact notColumn (isColumn _ (by decide))

/-- The datapoint of a sample. -/
def datapointOf (past : List (Sample layout)) (st : ReaderState) (sample : Sample layout) :
    Dict Token ℚ :=
  (leadPoint true st sample.tsc sample.localMemTraffic sample.l3Occupancy).insertAll
    (eventItems sample fun event =>
      (gainInGroup past sample (·.count event) : ℚ) * (1 / rowMultiplier past sample))

theorem get?_datapointOf (represents : Represents past st) :
    (datapointOf past st sample).get? = rowCell past sample := by
  funext column
  rw [datapointOf, get?_insertAll_eventItems]
  split
  · rename_i isEvent
    rw [rowCell_of_isEvent sample past isEvent]
  · rename_i notEvent
    exact get?_leadPoint sample represents notEvent

/-- The row of a sample is the expected one. -/
theorem fillRow_datapointOf (represents : Represents past st) :
    fillRow (Dict.empty.insertAll layout.columns.zipIdx) (datapointOf past st sample).entries
        (List.replicate layout.columns.length none) =
      .ok (expectedRow past sample) := by
  rw [fillRow_entries layout.nodup_columns, get?_datapointOf sample represents, expectedRow]
  rintro ⟨column, value⟩ isEntry
  rw [Dict.mem_entries_iff, get?_datapointOf sample represents] at isEntry
  by_contra notColumn
  rw [rowCell_eq_none sample notColumn] at isEntry
  cases isEntry

/-- The state after the round. -/
def nextState (past : List (Sample layout)) (st : ReaderState) (sample : Sample layout) :
    ReaderState where
  totalTsc := sample.tsc
  totals := st.totals.insert (Text.ofInt sample.group.id)
    ((startTotal past st sample).insertAll (eventItems sample sample.count))
  lastLocalMemTraffic := sample.localMemTraffic
  lastL3Occupancy := sample.l3Occupancy

theorem roundFrom_eq_ok_iff (represents : Represents past st)
    {result : ReaderState × List Cell} :
    roundFrom past st sample = .ok result ↔
      (0 < rowMultiplier past sample ∧ rowMultiplier past sample ≤ 1) ∧
        result = (nextState past st sample, expectedRow past sample) := by
  rw [roundFrom, divide]
  by_cases zero : (readInterval past sample Sample.timeEnabled : ℚ) = 0
  · rw [if_pos zero, rowMultiplier, zero, div_zero]
    exact ⟨nofun, fun accepted => absurd accepted.1.1 (lt_irrefl 0)⟩
  rw [if_neg zero, ok_bind, assert]
  -- From here on the quotient is named as the multiplier of the row.
  change ((if 0 ≤ rowMultiplier past sample ∧ rowMultiplier past sample ≤ 1 then _ else _) >>= _)
    = _ ↔ _
  by_cases range : 0 ≤ rowMultiplier past sample ∧ rowMultiplier past sample ≤ 1
  · rw [if_pos range, ok_bind]
    by_cases stopped : rowMultiplier past sample = 0
    · -- The first event is there, since every group counts the fixed events.
      have first : (fixedEvents.head (by decide), 0) ∈ sample.group.positions.entries :=
        (mem_positions_iff sample).mpr rfl
      obtain ⟨item, rest, shape⟩ : ∃ item rest, sample.group.positions.entries = item :: rest :=
        List.exists_cons_of_ne_nil (List.ne_nil_of_mem first)
      rw [shape]
      constructor
      · intro returned
        obtain ⟨dicts, cells, -⟩ := bind_eq_ok_iff.mp returned
        change eventCells _ _ _ (rowMultiplier past sample) _ _ = _ at cells
        rw [stopped] at cells
        exact absurd cells eventCells_zero
      · exact fun accepted => absurd stopped accepted.1.1.ne'
    · change (eventCells (oldCount st sample) sample.values (nonGroupCtrs true)
        (rowMultiplier past sample) sample.group.positions.entries _ >>= _) = _ ↔ _
      rw [eventCells_sample sample represents stopped, ok_bind]
      change (fillRow _ (datapointOf past st sample).entries _ >>= _) = _ ↔ _
      rw [fillRow_datapointOf sample represents, ok_bind]
      exact ⟨fun returned => ⟨⟨lt_of_le_of_ne range.1 (Ne.symm stopped), range.2⟩,
        (Except.ok.inj returned).symm⟩, fun accepted => congrArg Except.ok accepted.2.symm⟩
  · rw [if_neg range, error_bind]
    exact ⟨nofun, fun accepted => absurd ⟨le_of_lt accepted.1.1, accepted.1.2⟩ range⟩

theorem represents_nextState (represents : Represents past st) :
    Represents (past ++ [sample]) (nextState past st sample) := by
  have sameGroup : ∀ group ∈ layout.groups, sample.group.id = group.id → group = sample.group :=
    fun group isMember equal => layout.eq_of_id_eq isMember sample.isMember equal.symm
  have otherGroup : ∀ group : Group, sample.group.id ≠ group.id →
      (nextState past st sample).totals.get? (Text.ofInt group.id) =
        st.totals.get? (Text.ofInt group.id) := fun group different =>
    Dict.get?_insert_of_ne _ (fun equal => different (ofInt_injective equal).symm) _
  constructor
  · simp [nextState, fieldOf]
  · simp [nextState, fieldOf]
  · simp [nextState, fieldOf]
  · intro group isMember unseen
    rw [ofGroup_concat] at unseen
    split at unseen
    · simp at unseen
    · rename_i different
      rw [otherGroup group different]
      exact represents.unseen group isMember unseen
  · intro group isMember last isLast
    rw [ofGroup_concat] at isLast ⊢
    by_cases here : sample.group.id = group.id
    · obtain rfl := sameGroup group isMember here
      rw [if_pos rfl, List.getLast?_concat, Option.some.injEq] at isLast
      subst last
      refine ⟨_, Dict.get?_insert_self _ _ _, ?_, ?_, ?_⟩
      · rw [get?_insertAll_eventItems, if_neg, startTotal, Dict.get?_insert_of_ne _ (by decide),
          Dict.get?_insert_self, if_pos rfl, List.map_append, List.map_singleton, leftover_concat]
        · rfl
        · exact fun isEvent => Layout.not_mem_leadColumns isMember isEvent (by decide)
      · rw [get?_insertAll_eventItems, if_neg, startTotal, Dict.get?_insert_self, if_pos rfl,
          List.map_append, List.map_singleton, leftover_concat]
        · rfl
        · exact fun isEvent => Layout.not_mem_leadColumns isMember isEvent (by decide)
      · intro event isEvent
        rw [get?_insertAll_eventItems, if_pos isEvent]
    · rw [if_neg here] at isLast ⊢
      rw [otherGroup group here]
      exact represents.seen group isMember last isLast

/-- One round returns precisely when the reader accepts the times of the sample. -/
theorem roundOf_eq_ok_iff_accepts (represents : Represents past st)
    {result : ReaderState × List Cell} :
    roundOf st sample = .ok result ↔
      Accepts past sample ∧ result = (nextState past st sample, expectedRow past sample) := by
  rw [roundOf_eq_ok_iff sample represents, roundFrom_eq_ok_iff sample represents, Accepts,
    ← and_assoc]

end Round

/-! ## The whole log -/

theorem sampleRows_eq_ok_iff {data : List (List Token)} {samples past : List (Sample layout)}
    {st : ReaderState} (represents : Represents past st)
    (reads : List.Forall₂ (fun tokens sample => toInts tokens = .ok sample.values) data samples)
    {rows : List (List Cell)} :
    sampleRows true (groupsOf layout.groups) (Dict.empty.insertAll layout.columns.zipIdx)
        layout.columns.length st data = .ok rows ↔
      AllFrom Accepts past samples ∧ rows = expectedRows past samples := by
  induction reads generalizing past st rows with
  | nil =>
      rw [sampleRows]
      exact ⟨fun returned => ⟨trivial, (Except.ok.inj returned).symm⟩,
        fun accepted => congrArg Except.ok accepted.2.symm⟩
  | @cons tokens sample data samples isSample _ ih =>
      rw [sampleRows, isSample, ok_bind]
      change (roundOf st sample >>= _) = _ ↔ _
      rw [bind_eq_ok_iff, AllFrom, expectedRows]
      constructor
      · rintro ⟨result, round, rest⟩
        obtain ⟨accepts, rfl⟩ := (roundOf_eq_ok_iff_accepts sample represents).mp round
        obtain ⟨later, returned, collected⟩ := bind_eq_ok_iff.mp rest
        obtain ⟨restAccepts, rfl⟩ := (ih (represents_nextState sample represents)).mp returned
        exact ⟨⟨accepts, restAccepts⟩, (Except.ok.inj collected).symm⟩
      · rintro ⟨⟨accepts, restAccepts⟩, rfl⟩
        refine ⟨_, (roundOf_eq_ok_iff_accepts sample represents).mpr ⟨accepts, rfl⟩, ?_⟩
        exact bind_eq_ok_iff.mpr ⟨_, (ih (represents_nextState sample represents)).mpr
          ⟨restAccepts, rfl⟩, rfl⟩

/-- Reading a log yields the expected table, provided that all times are accepted. -/
theorem toCsv_eq_ok_iff {text : List Char} {samples : List (Sample layout)}
    (reads : ReadsAs text layout samples) {table : Table} :
    toCsv true text = .ok table ↔
      AllFrom Accepts [] samples ∧ table = ⟨layout.columns, expectedRows [] samples⟩ := by
  obtain ⟨data, headers, dataReads⟩ := reads
  rw [toCsv, headers, ok_bind]
  change (getGroups (layout.groups.map Group.header) >>= _) = _ ↔ _
  rw [getGroups_headers, ok_bind]
  change (sampleRows true (groupsOf layout.groups) (Dict.empty.insertAll layout.columns.zipIdx)
    layout.columns.length ReaderState.initial data >>= _) = _ ↔ _
  rw [bind_eq_ok_iff]
  constructor
  · rintro ⟨rows, returned, collected⟩
    obtain ⟨accepts, rfl⟩ := (sampleRows_eq_ok_iff represents_initial dataReads).mp returned
    exact ⟨accepts, (Except.ok.inj collected).symm⟩
  · rintro ⟨accepts, rfl⟩
    exact ⟨_, (sampleRows_eq_ok_iff represents_initial dataReads).mpr ⟨accepts, rfl⟩, rfl⟩

/-! ## The cells of the table -/

theorem length_expectedRows (past samples : List (Sample layout)) :
    (expectedRows past samples).length = samples.length := by
  induction samples generalizing past with
  | nil => rfl
  | cons sample rest ih => rw [expectedRows, List.length_cons, ih, List.length_cons]

theorem getElem?_expectedRows (past early : List (Sample layout)) (sample : Sample layout)
    (rest : List (Sample layout)) :
    (expectedRows past (early ++ sample :: rest))[early.length]? =
      some (expectedRow (past ++ early) sample) := by
  induction early generalizing past with
  | nil => simp [expectedRows]
  | cons first early ih =>
      rw [List.cons_append, expectedRows, List.length_cons, List.getElem?_cons_succ, ih,
        List.append_assoc, List.singleton_append]

/-- The cell under a column of the table, in the row of a sample. -/
theorem cell_expected {early rest : List (Sample layout)} {sample : Sample layout}
    {column : Token} (isColumn : column ∈ layout.columns) :
    Table.cell ⟨layout.columns, expectedRows [] (early ++ sample :: rest)⟩ early.length column =
      some (rowCell early sample column) := by
  rw [Table.cell, getElem?_expectedRows [] early sample rest, List.nil_append]
  simp [expectedRow, List.getElem?_idxOf isColumn]

end Datamime.Csv
