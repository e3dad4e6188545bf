/-
# From the profiler to the table

The profiler and the script share a layout that neither of them states: the header line of a
group, nine leading fields, then one counter for each event of the group. Here the two meet.
What the profiler writes, header by header and sample by sample, is a log that the script
reads, and so the rows of its table are known.
-/

import Datamime.Csv.Scaling
import Datamime.Profiler.Main
import Datamime.Profiler.Records

namespace Datamime.Csv

open Datamime.Math Datamime.Hardware Datamime.Profiler

/-! ## Header lines -/

/-- The names of the events of a group. -/
def eventNames (group : EventGroup) : List Token := group.fds.map PerfEvent.name

/-- The group that a header line names. -/
def loggedGroup (group : EventGroup) : Group := ⟨group.fd, (eventNames group).drop numFixedEvents⟩

/-- A group as the profiler creates it: the fixed events come first, there are not too many
events, and their names are words. -/
structure IsLoggable (group : EventGroup) : Prop where
  fixed : (eventNames group).take numFixedEvents = fixedEvents
  few : group.numEvents ≤ MAX_GROUP_EVENTS
  areWords : ∀ name ∈ eventNames group, Text.IsWord name

section

variable {group : EventGroup}

theorem IsLoggable.events (loggable : IsLoggable group) :
    (loggedGroup group).events = eventNames group := by
  have unfolded : (loggedGroup group).events =
      fixedEvents ++ (eventNames group).drop numFixedEvents := rfl
  rw [unfolded, ← loggable.fixed, List.take_append_drop]

/-- The text of a header line. -/
def headerText (group : Group) : List Char := Text.spaced group.header

theorem finalizeEvents_eq (loggable : IsLoggable group) :
    group.finalizeEvents = headerText (loggedGroup group) ++ ['\n'] := by
  have names : group.fds.flatMap (fun event => ' ' :: event.name) =
      (eventNames group).flatMap (' ' :: ·) := by
    rw [eventNames, List.flatMap_map]
  have blank : "group ".toList = "group".toList ++ [' '] := by decide
  have header : headerText (loggedGroup group) =
      "group".toList ++ (Text.ofInt group.fd :: eventNames group).flatMap (' ' :: ·) := by
    rw [headerText, Group.header, loggable.events, Text.spaced, loggedGroup]
  have printed : group.finalizeEvents = "group ".toList ++ Text.ofInt group.fd ++
      group.fds.flatMap (fun event => ' ' :: event.name) ++ ['\n'] := rfl
  rw [printed, header, List.flatMap_cons, names, blank]
  simp only [List.append_assoc, List.cons_append, List.nil_append]

theorem isWord_of_mem_header (loggable : IsLoggable group) {word : Token}
    (isMember : word ∈ (loggedGroup group).header) : Text.IsWord word := by
  rw [Group.header, loggable.events, List.mem_cons, List.mem_cons] at isMember
  rcases isMember with rfl | rfl | isName
  · decide
  · exact Text.isWord_ofInt _
  · exact loggable.areWords word isName

end

/-! ## A text of header lines and sample lines -/

section

variable {layout : Layout}

/-- The text of a sample's line. -/
def sampleText (sample : Sample layout) : List Char := Text.spaced (sample.values.map Text.ofInt)

/-- The text of a log. -/
def logText (groups : List Group) (samples : List (Sample layout)) : List Char :=
  Text.unlines (groups.map headerText ++ samples.map sampleText)

theorem isWord_of_mem_values (sample : Sample layout) {word : Token}
    (isMember : word ∈ sample.values.map Text.ofInt) : Text.IsWord word := by
  obtain ⟨value, -, rfl⟩ := List.mem_map.mp isMember
  exact Text.isWord_ofInt value

theorem ofInt_ne_group (z : ℤ) : Text.ofInt z ≠ "group".toList := by
  intro same
  have letter : 'g' ∈ Text.ofInt z := by
    rw [same]
    decide
  exact absurd (Text.isDigit_of_mem_ofInt letter) (by decide)

theorem separateHeaders_samples (samples : List (Sample layout)) :
    separateHeaders (samples.map fun sample => sample.values.map Text.ofInt) =
      .ok ([], samples.map fun sample => sample.values.map Text.ofInt) := by
  induction samples with
  | nil => rfl
  | cons sample rest ih =>
      rw [List.map_cons, Sample.values, List.map_cons, separateHeaders, ih, ok_bind]
      dsimp only
      rw [if_neg (ofInt_ne_group _)]
      rfl

theorem separateHeaders_append {headers : List (List Token)} (data : List (List Token))
    (areHeaders : ∀ line ∈ headers, ∃ rest, line = "group".toList :: rest)
    (onlyData : separateHeaders data = .ok ([], data)) :
    separateHeaders (headers ++ data) = .ok (headers, data) := by
  induction headers with
  | nil => exact onlyData
  | cons line headers ih =>
      obtain ⟨rest, rfl⟩ := areHeaders line List.mem_cons_self
      rw [List.cons_append, separateHeaders,
        ih fun other isMember => areHeaders other (List.mem_cons_of_mem _ isMember), ok_bind]
      dsimp only
      rw [if_pos rfl]
      rfl

/-- A log is read as what it was written from. -/
theorem readsAs_logText (samples : List (Sample layout))
    (areWords : ∀ group ∈ layout.groups, ∀ word ∈ group.header, Text.IsWord word) :
    ReadsAs (logText layout.groups samples) layout samples := by
  have oneLine : ∀ line ∈ layout.groups.map headerText ++ samples.map sampleText, '\n' ∉ line := by
    intro line isMember
    rcases List.mem_append.mp isMember with isHeader | isSample
    · obtain ⟨group, isGroup, rfl⟩ := List.mem_map.mp isHeader
      exact Text.newline_not_mem_spaced (areWords group isGroup)
    · obtain ⟨sample, -, rfl⟩ := List.mem_map.mp isSample
      exact Text.newline_not_mem_spaced fun word => isWord_of_mem_values sample
  have headerWords : (layout.groups.map headerText).map Text.words =
      layout.groups.map Group.header := by
    rw [List.map_map]
    exact List.map_congr_left fun group isGroup => Text.words_spaced (areWords group isGroup)
  have sampleWords : (samples.map sampleText).map Text.words =
      samples.map fun sample => sample.values.map Text.ofInt := by
    rw [List.map_map]
    exact List.map_congr_left fun sample _ =>
      Text.words_spaced fun word => isWord_of_mem_values sample
  refine ⟨samples.map fun sample => sample.values.map Text.ofInt, ?_, ?_⟩
  · rw [logText, thymeLog, Text.lines_unlines oneLine, List.map_append, headerWords, sampleWords]
    apply separateHeaders_append _ _ (separateHeaders_samples samples)
    intro line isHeader
    obtain ⟨group, -, rfl⟩ := List.mem_map.mp isHeader
    exact ⟨_, rfl⟩
  · exact List.forall₂_map_left_iff.mpr
      (List.forall₂_same.mpr fun sample _ => toInts_map_ofInt sample.values)

end

/-! ## The calls that write a log -/

/-- The kernel appends words to the buffer of a group and sends a signal. -/
structure Arrival where
  signal : Signal
  words : List Word

/-- The call of `read_counters` that an arrival leads to. -/
def writeLine (config : Config) (st : Msrs × ThreadInfo) (arrival : Arrival) :
    Except Fault (Msrs × ThreadInfo) :=
  readCounters config arrival.signal st.1 (st.2.deliver arrival.signal.fd arrival.words)

/-- The call finds a whole sample of the group, and all of its reads succeed. -/
structure FindsSample (arrival : Arrival) (tinfo : ThreadInfo) (group : EventGroup)
    (record : Record) : Prop where
  isGroup : tinfo.eventGroups.get? arrival.signal.fd = some group
  front : ∃ rest, group.buf ++ arrival.words = record.words ++ rest
  wellFormed : record.WellFormed group.numEvents
  isSample : headerType record.header = PERF_RECORD_SAMPLE
  succeeds : AllSucceed arrival.signal.readOutcomes (2 + group.numEvents)

/-- The groups of a thread are those of the layout. -/
def HasGroups (layout : Layout) (tinfo : ThreadInfo) : Prop :=
  ∀ fd group, tinfo.eventGroups.get? fd = some group →
    loggedGroup group ∈ layout.groups ∧ IsLoggable group

/-- A thread whose groups have just been created: its file has one header line for each. -/
structure Headed (layout : Layout) (tinfo : ThreadInfo) : Prop where
  groups : layout.groups = tinfo.eventGroups.entries.map fun entry => loggedGroup entry.2
  loggable : ∀ entry ∈ tinfo.eventGroups.entries, IsLoggable entry.2
  outfile : tinfo.outfile = tinfo.eventGroups.entries.flatMap fun entry => entry.2.finalizeEvents

section

variable {layout : Layout} {config : Config} {signal : Signal} {tinfo next metered : ThreadInfo}
  {group : EventGroup} {reading : Reading}

theorem Headed.hasGroups (headed : Headed layout tinfo) : HasGroups layout tinfo := by
  intro fd group isGroup
  have listed := (Dict.mem_entries_iff _).mpr isGroup
  refine ⟨?_, headed.loggable _ listed⟩
  rw [headed.groups]
  exact List.mem_map.mpr ⟨_, listed, rfl⟩

/-- The file of a thread that has not been read yet is the log without samples. -/
theorem Headed.outfile_eq (headed : Headed layout tinfo) :
    tinfo.outfile = logText layout.groups ([] : List (Sample layout)) := by
  rw [headed.outfile, headed.groups, logText, Text.unlines, List.map_nil, List.append_nil,
    List.flatMap_map, List.flatMap_map]
  exact List.flatMap_congr fun entry listed => finalizeEvents_eq (headed.loggable entry listed)

theorem loggedGroup_congr {other : EventGroup} (sameFd : group.fd = other.fd)
    (sameFds : group.fds = other.fds) :
    loggedGroup group = loggedGroup other ∧ (IsLoggable other → IsLoggable group) := by
  have sameNames : eventNames group = eventNames other := congrArg (List.map _) sameFds
  refine ⟨?_, fun loggable => ⟨?_, ?_, ?_⟩⟩
  · rw [loggedGroup, loggedGroup, sameFd, sameNames]
  · rw [sameNames]
    exact loggable.fixed
  · rw [EventGroup.numEvents, sameFds]
    exact loggable.few
  · rw [sameNames]
    exact loggable.areWords

theorem HasGroups.deliver (hasGroups : HasGroups layout tinfo) (fd : ℤ) (words : List Word) :
    HasGroups layout (tinfo.deliver fd words) := by
  intro other after isAfter
  rw [ThreadInfo.get?_deliver] at isAfter
  split at isAfter
  · obtain ⟨before, isBefore, isAfter⟩ := Option.map_eq_some_iff.mp isAfter
    obtain ⟨listed, loggable⟩ := hasGroups _ before isBefore
    have sameFd : after.fd = before.fd := isAfter ▸ rfl
    have sameFds : after.fds = before.fds := isAfter ▸ rfl
    obtain ⟨sameGroup, stillLoggable⟩ := loggedGroup_congr sameFd sameFds
    exact ⟨sameGroup ▸ listed, stillLoggable loggable⟩
  · exact hasGroups other after isAfter

theorem HasGroups.readBy (hasGroups : HasGroups layout tinfo)
    (readBy : ReadBy config signal tinfo next group metered reading) : HasGroups layout next := by
  intro other after isAfter
  obtain ⟨before, isBefore, ⟨sameFd, sameFds⟩, -⟩ := readBy.get? isAfter
  obtain ⟨sameGroup, stillLoggable⟩ := loggedGroup_congr sameFd sameFds
  obtain ⟨listed, loggable⟩ := hasGroups other before isBefore
  exact ⟨sameGroup ▸ listed, stillLoggable loggable⟩

/-- The meters that a line shows are those that the call leaves behind. -/
theorem lineOf_of_readBy (readBy : ReadBy config signal tinfo next group metered reading)
    (body : List Word) : lineOf group metered body = lineOf group next body := by
  obtain ⟨-, -, -, ends⟩ := readBy
  split at ends
  · rcases switchGroup_cases ends with ⟨-, rfl⟩ | ⟨-, -, -, rfl⟩ <;> rfl
  · rw [ends]
    rfl

/-! ## One call -/

/-- The call wrote the sample that it found: its counters belong to the events of the group in
their order, and the numbers on its line are those of the record and of the meters. -/
structure Wrote (arrival : Arrival) (before after : ThreadInfo) (sample : Sample layout) :
    Prop where
  found : ∃ group record, FindsSample arrival before group record ∧
    sample.group.id = group.fd ∧ sample.group.events = eventNames group ∧
    sample.values = lineOf group after record.body

/-- The sample that a call writes. -/
def sampleOf (group : EventGroup) (listed : loggedGroup group ∈ layout.groups)
    (after : ThreadInfo) (body : List Word)
    (complete : ((body.drop infoWords).take group.numEvents).length =
      (loggedGroup group).events.length) : Sample layout :=
  let info := SampleInfo.ofWords (body.take infoWords)
  { group := loggedGroup group
    isMember := listed
    cpu := info.cpu.toInt
    tid := group.tid
    nanoseconds := info.nanoseconds.toInt
    tsc := (toTsc group info.nanoseconds).toInt
    timeEnabled := info.timeEnabled.toInt
    timeRunning := info.timeRunning.toInt
    localMemTraffic := after.memTrafficTotal
    l3Occupancy := after.avgCacheOccupancy
    counts := ((body.drop infoWords).take group.numEvents).map BitVec.toInt
    complete := (List.length_map _).trans complete }

/-- A call that finds a sample writes one, and appends its line. -/
theorem exists_wrote {arrival : Arrival} {before after : Msrs × ThreadInfo}
    (hasGroups : HasGroups layout before.2) {record : Record}
    (finds : FindsSample arrival before.2 group record)
    (called : writeLine config before arrival = .ok after) :
    HasGroups layout after.2 ∧ ∃ sample : Sample layout, Wrote arrival before.2 after.2 sample ∧
      after.2.outfile = before.2.outfile ++ (sampleText sample ++ ['\n']) := by
  obtain ⟨⟨group', metered, reading, readBy⟩, -⟩ := readCounters_cases called
  have isRead := readBy.isGroup
  rw [ThreadInfo.get?_deliver, if_pos rfl, finds.isGroup, Option.map_some] at isRead
  obtain ⟨listed, loggable⟩ := hasGroups _ group finds.isGroup
  obtain ⟨rest, front⟩ := finds.front
  have long := finds.wellFormed.long finds.isSample
  have complete : ((record.body.drop infoWords).take group.numEvents).length =
      (loggedGroup group).events.length := by
    rw [loggable.events, eventNames, List.length_map, List.length_take_of_le]
    · rfl
    · rw [List.length_drop]
      omega
  cases isRead
  refine ⟨(hasGroups.deliver _ _).readBy readBy, sampleOf group listed after.2 record.body complete,
    ⟨group, record, finds, rfl, loggable.events, rfl⟩, ?_⟩
  rw [readBy.outfile, ThreadInfo.outfile_deliver]
  have wellFormed : record.WellFormed
      ({ group with buf := group.buf ++ arrival.words } : EventGroup).numEvents := finds.wellFormed
  rcases readRecord_cases front wellFormed readBy.wasRead with
    ⟨isOther, -⟩ | ⟨-, fails, -⟩ | ⟨-, -, isReading⟩
  · exact absurd finds.isSample isOther
  · exact absurd finds.succeeds fails
  · rw [isReading, lineOf_of_readBy readBy]
    rfl

end

/-! ## Every sequence of calls -/

/-- The calls write these samples, one each. -/
inductive Writes {layout : Layout} (config : Config) :
    Msrs × ThreadInfo → List Arrival → List (Sample layout) → Msrs × ThreadInfo → Prop
  | done (st : Msrs × ThreadInfo) : Writes config st [] [] st
  | line {st next last : Msrs × ThreadInfo} {arrival : Arrival} {arrivals : List Arrival}
      {sample : Sample layout} {samples : List (Sample layout)}
      (called : writeLine config st arrival = .ok next)
      (wrote : Wrote arrival st.2 next.2 sample)
      (later : Writes config next arrivals samples last) :
      Writes config st (arrival :: arrivals) (sample :: samples) last

section

variable {layout : Layout} {config : Config} {start last : Msrs × ThreadInfo}
  {arrivals : List Arrival}

/-- Calls that each find a sample write as many, and append their lines in order. -/
theorem exists_writes (hasGroups : HasGroups layout start.2)
    (reached : run (writeLine config) start arrivals = .ok last)
    (complete : AtEachStep (writeLine config) start arrivals fun _ st arrival =>
      ∃ group record, FindsSample arrival st.2 group record) :
    ∃ samples : List (Sample layout), Writes config start arrivals samples last ∧
      last.2.outfile = start.2.outfile ++ Text.unlines (samples.map sampleText) := by
  induction arrivals generalizing start with
  | nil =>
      cases reached
      exact ⟨[], .done _, (List.append_nil _).symm⟩
  | cons arrival arrivals ih =>
      obtain ⟨⟨group, record, finds⟩, laterComplete⟩ := atEachStep_cons_iff.mp complete
      cases called : writeLine config start arrival with
      | error fault =>
          rw [run_cons_of_error called] at reached
          cases reached
      | ok next =>
          rw [run_cons_of_ok called] at reached
          obtain ⟨stillGroups, sample, wrote, appended⟩ := exists_wrote hasGroups finds called
          obtain ⟨samples, writes, outfile⟩ :=
            ih stillGroups reached (laterComplete next called)
          refine ⟨sample :: samples, .line called wrote writes, ?_⟩
          rw [outfile, appended, List.append_assoc]
          rfl

theorem unlines_append (first second : List (List Char)) :
    Text.unlines (first ++ second) = Text.unlines first ++ Text.unlines second :=
  List.flatMap_append

/-- The file of a thread is read as the groups that were created and the samples that were
written. -/
theorem readsAs_of_headed (headed : Headed layout start.2) {samples : List (Sample layout)}
    (outfile : last.2.outfile = start.2.outfile ++ Text.unlines (samples.map sampleText)) :
    ReadsAs last.2.outfile layout samples := by
  have isLog : last.2.outfile = logText layout.groups samples := by
    rw [outfile, headed.outfile_eq, logText, logText, List.map_nil, List.append_nil,
      unlines_append]
  rw [isLog]
  apply readsAs_logText
  intro group isMember word isWord
  rw [headed.groups] at isMember
  obtain ⟨entry, listed, rfl⟩ := List.mem_map.mp isMember
  exact isWord_of_mem_header (headed.loggable entry listed) isWord

end

/-! ## The rows of the table -/

/-- The row of a sample: the cells of its group's events are their gains since the group's
previous sample, all scaled by one multiplier, and those of other events are not-a-number. The
time and the traffic are compared with the row before, whatever its group is. -/
structure IsRowOf {layout : Layout} (table : Table) (past : List (Sample layout))
    (sample : Sample layout) : Prop where
  own : ∃ multiplier : ℚ, 0 < multiplier ∧ multiplier ≤ 1 ∧ ∀ event ∈ sample.group.events,
    table.cell past.length event =
      some (some ((gainInGroup past sample (·.count event) : ℚ) * (1 / multiplier)))
  others : ∀ event ∈ fixedEvents ++ layout.groups.flatMap Group.rotating,
    event ∉ sample.group.events → table.cell past.length event = some none
  refCycles : table.cell past.length "ref_cycles".toList =
    some (some (gain past sample Sample.tsc : ℚ))
  localMemTraffic : table.cell past.length "local_mem_traffic".toList =
    some (some (gain past sample Sample.localMemTraffic : ℚ))

/-- The sum of a column. -/
def Table.columnSum (table : Table) (column : Token) : ℚ :=
  (table.rows.map fun cells => (cells[table.columns.idxOf column]?.join).getD 0).sum

section

variable {layout : Layout}

theorem rowCell_refCycles (past : List (Sample layout)) (sample : Sample layout) :
    rowCell past sample "ref_cycles".toList = some (gain past sample Sample.tsc : ℚ) := by
  rw [rowCell, if_neg (by decide), if_pos rfl]

theorem rowCell_localMemTraffic (past : List (Sample layout)) (sample : Sample layout) :
    rowCell past sample "local_mem_traffic".toList =
      some (gain past sample Sample.localMemTraffic : ℚ) := by
  rw [rowCell, if_neg (by decide), if_neg (by decide), if_pos rfl]

theorem mem_columns_of_lead {column : Token} (isLead : column ∈ leadColumns true) :
    column ∈ layout.columns := List.mem_append_left _ isLead

/-- An event of another group has no cell in the row. -/
theorem rowCell_of_other {past : List (Sample layout)} {sample : Sample layout} {event : Token}
    (isEvent : event ∈ fixedEvents ++ layout.groups.flatMap Group.rotating)
    (isOther : event ∉ sample.group.events) : rowCell past sample event = none := by
  have notLead : ∀ lead ∈ leadColumns true, event ≠ lead := fun lead isLead same =>
    (List.nodup_append.mp layout.distinctColumns).2.2 lead isLead event isEvent same.symm
  rw [rowCell, if_neg (notLead _ (by decide)), if_neg (notLead _ (by decide)),
    if_neg (notLead _ (by decide)), if_neg (notLead _ (by decide)), if_neg isOther]

theorem isRowOf_expected {past rest : List (Sample layout)} {sample : Sample layout}
    (accepts : Accepts past sample) :
    IsRowOf ⟨layout.columns, expectedRows [] (past ++ sample :: rest)⟩ past sample := by
  refine ⟨⟨rowMultiplier past sample, accepts.2.1, accepts.2.2, fun event isEvent => ?_⟩,
    fun event isEvent isOther => ?_, ?_, ?_⟩
  · rw [cell_expected (Layout.mem_columns sample.isMember isEvent),
      rowCell_of_isEvent sample past isEvent]
  · rw [cell_expected (List.mem_append_right _ isEvent), rowCell_of_other isEvent isOther]
  · rw [cell_expected (mem_columns_of_lead (by decide)), rowCell_refCycles]
  · rw [cell_expected (mem_columns_of_lead (by decide)), rowCell_localMemTraffic]

/-- The differences between successive rows add up to the last value. -/
theorem columnSum_expected {column : Token} {field : Sample layout → ℤ}
    (isColumn : column ∈ layout.columns)
    (isGain : ∀ past sample, rowCell past sample column = some (gain past sample field : ℚ))
    (past samples : List (Sample layout)) :
    Table.columnSum ⟨layout.columns, expectedRows past samples⟩ column =
      fieldOf (past ++ samples).getLast? field - fieldOf past.getLast? field := by
  induction samples generalizing past with
  | nil => simp [Table.columnSum, expectedRows]
  | cons sample rest ih =>
      have first : ((expectedRow past sample)[layout.columns.idxOf column]?.join).getD 0 =
          (gain past sample field : ℚ) := by
        simp [expectedRow, List.getElem?_idxOf isColumn, isGain]
      have later := ih (past ++ [sample])
      rw [List.append_assoc, List.singleton_append, List.getLast?_concat] at later
      rw [Table.columnSum] at later ⊢
      dsimp only at later ⊢
      rw [expectedRows, List.map_cons, List.sum_cons, first, later, gain]
      simp [fieldOf]

end

/-! ## Creating the groups -/

section

variable {kernel : Kernel} {tid : ℤ} {group grown : EventGroup} {opened left : List (Option ℤ)}

theorem isLoggable_of_fixed (names : eventNames group = fixedEvents) : IsLoggable group := by
  have three : group.numEvents = 3 := by
    rw [EventGroup.numEvents, ← List.length_map, ← eventNames, names]
    rfl
  refine ⟨?_, ?_, ?_⟩
  · rw [names]
    rfl
  · rw [three]
    decide
  · rw [names]
    decide

/-- A new group has the fixed events. -/
theorem isLoggable_of_new (returned : EventGroup.new kernel tid opened = .ok (group, left)) :
    IsLoggable group :=
  isLoggable_of_fixed (names_of_new returned)

/-- Events are added behind the fixed ones as long as there is room. -/
theorem IsLoggable.addEvent (loggable : IsLoggable group) {name : Token}
    (isWord : Text.IsWord name) (added : group.addEvent name opened = (some grown, left)) :
    IsLoggable grown := by
  obtain ⟨fd, -, room, rfl⟩ := addEvent_eq_some added
  have names : eventNames (group.grow ⟨name, fd⟩) = eventNames group ++ [name] :=
    List.map_append
  have long : numFixedEvents ≤ (eventNames group).length := by
    have lengths := congrArg List.length loggable.fixed
    rw [List.length_take] at lengths
    exact (min_eq_left_iff.mp lengths)
  refine ⟨?_, ?_, ?_⟩
  · rw [names, List.take_append_of_le_length long, loggable.fixed]
  · have more : (group.grow ⟨name, fd⟩).numEvents = group.numEvents + 1 :=
      List.length_append
    omega
  · rw [names]
    intro other isMember
    rcases List.mem_append.mp isMember with earlier | isLast
    · exact loggable.areWords other earlier
    · rw [List.mem_singleton.mp isLast]
      exact isWord

/-- All groups that are created can be logged. -/
theorem isLoggable_of_addRotating {names : List Token} {current : EventGroup}
    {groups created : Dict ℤ EventGroup} (areWords : ∀ name ∈ names, Text.IsWord name)
    (loggable : IsLoggable current)
    (before : ∀ fd group, groups.get? fd = some group → IsLoggable group)
    (added : addRotating kernel tid names current groups opened = .ok created) :
    ∀ fd group, created.get? fd = some group → IsLoggable group := by
  induction names generalizing current groups opened with
  | nil =>
      cases added
      exact before
  | cons name names ih =>
      have isWord := areWords name List.mem_cons_self
      have laterWords : ∀ other ∈ names, Text.IsWord other := fun other isMember =>
        areWords other (List.mem_cons_of_mem _ isMember)
      have inserted : ∀ grown : EventGroup, IsLoggable grown →
          ∀ fd group, (groups.insert grown.fd grown).get? fd = some group → IsLoggable group := by
        intro grown isLoggable fd group found
        rw [Dict.get?_insert] at found
        split at found
        · cases found
          exact isLoggable
        · exact before fd group found
      rw [addRotating] at added
      split at added
      · rename_i grown left isAdded
        have stillLoggable := loggable.addEvent isWord isAdded
        exact ih laterWords stillLoggable (inserted grown stillLoggable) added
      · obtain ⟨⟨fresh, rest⟩, isNew, added⟩ := bind_eq_ok_iff.mp added
        dsimp only at added
        split at added
        · cases added
        · split at added
          · rename_i grown left isAdded
            have isLoggable := (isLoggable_of_new isNew).addEvent isWord isAdded
            exact ih laterWords isLoggable (inserted grown isLoggable) added
          · cases added

/-- The groups that are created for a thread leave a file of header lines. -/
theorem headed_of_createEventGroups {args : Args} {tinfo : ThreadInfo} {fdMap : Dict ℤ ℤ}
    {result : ThreadInfo × Dict ℤ ℤ}
    (created : createEventGroups kernel args tinfo fdMap = .ok result)
    (noGroups : tinfo.eventGroups = Dict.empty) (noLines : tinfo.outfile = [])
    (areWords : ∀ name ∈ filterEvents kernel.supported args.events, Text.IsWord name)
    {layout : Layout}
    (groups : layout.groups = result.1.eventGroups.entries.map fun entry => loggedGroup entry.2) :
    Headed layout result.1 := by
  obtain ⟨built, firstFd, group, ⟨first, opened, isNew, added⟩, ⟨rest, entries⟩, isResult⟩ :=
    createdBy_of_createEventGroups created
  have isFirst := isLoggable_of_new isNew
  rw [noGroups] at added
  have areRotating : ∀ name ∈ (if args.mrcEstMode then [] else
      filterEvents kernel.supported args.events), Text.IsWord name := by
    split
    · exact nofun
    · exact areWords
  have allLoggable := isLoggable_of_addRotating areRotating isFirst (fun fd group found => by
    rw [Dict.get?_insert] at found
    split at found
    · cases found
      exact isFirst
    · cases found) added
  have listed : ∀ entry ∈ (kernel.arrange built).entries, IsLoggable entry.2 := by
    intro entry isListed
    apply allLoggable entry.1
    rw [← kernel.arrange_get?]
    exact (Dict.mem_entries_iff _).mp isListed
  have armed : IsLoggable (group.activate args.mrcEstMode) ∧
      (group.activate args.mrcEstMode).finalizeEvents = group.finalizeEvents := by
    have isLoggable := listed (firstFd, group) (by rw [entries]; exact List.mem_cons_self)
    rw [EventGroup.activate]
    split <;> exact ⟨⟨isLoggable.fixed, isLoggable.few, isLoggable.areWords⟩, rfl⟩
  have newEntries : result.1.eventGroups.entries =
      (firstFd, group.activate args.mrcEstMode) :: rest := by
    rw [isResult]
    show Dict.insertEntry _ _ (kernel.arrange built).entries = _
    rw [entries, Dict.insertEntry, if_pos rfl]
  refine ⟨groups, fun entry isListed => ?_, ?_⟩
  · rw [newEntries] at isListed
    rcases List.mem_cons.mp isListed with rfl | later
    · exact armed.1
    · exact listed entry (by rw [entries]; exact List.mem_cons_of_mem _ later)
  · rw [newEntries, List.flatMap_cons, armed.2, isResult, noLines, entries]
    rfl

end

/-! ## The table of a written log -/

/-- The table of a log with these samples: a row for each sample, and differences that add up. -/
structure IsTableOf {layout : Layout} (samples : List (Sample layout)) (table : Table) : Prop where
  length : table.rows.length = samples.length
  rows : ∀ past sample rest, samples = past ++ sample :: rest → IsRowOf table past sample
  refCycles : table.columnSum "ref_cycles".toList = fieldOf samples.getLast? Sample.tsc
  localMemTraffic : table.columnSum "local_mem_traffic".toList =
    fieldOf samples.getLast? Sample.localMemTraffic

theorem isTableOf_of_toCsv {layout : Layout} {text : List Char} {samples : List (Sample layout)}
    (reads : ReadsAs text layout samples) {table : Table} (returned : toCsv true text = .ok table) :
    IsTableOf samples table := by
  obtain ⟨accepts, rfl⟩ := (toCsv_eq_ok_iff reads).mp returned
  refine ⟨length_expectedRows [] samples, ?_, ?_, ?_⟩
  · rintro past sample rest rfl
    exact isRowOf_expected (allFrom_iff.mp accepts past sample ⟨rest, by simp⟩)
  · rw [columnSum_expected (mem_columns_of_lead (by decide)) rowCell_refCycles]
    simp [fieldOf]
  · rw [columnSum_expected (mem_columns_of_lead (by decide)) rowCell_localMemTraffic]
    simp [fieldOf]

/-- From the profiler to the table: whatever calls write complete samples to the file of a thread
whose groups share no column, the script turns that file into the table of these samples. It
reads the whole file if the times of every group advance. -/
theorem isTableOf_written {layout : Layout} {config : Config} {start last : Msrs × ThreadInfo}
    {arrivals : List Arrival} (headed : Headed layout start.2)
    (reached : run (writeLine config) start arrivals = .ok last)
    (complete : AtEachStep (writeLine config) start arrivals fun _ st arrival =>
      ∃ group record, FindsSample arrival st.2 group record) :
    ∃ samples : List (Sample layout), Writes config start arrivals samples last ∧
      (TimesAdvance samples → ∃ table, toCsv true last.2.outfile = .ok table) ∧
      ∀ table, toCsv true last.2.outfile = .ok table → IsTableOf samples table := by
  obtain ⟨samples, writes, outfile⟩ := exists_writes headed.hasGroups reached complete
  have reads := readsAs_of_headed headed outfile
  exact ⟨samples, writes, fun advance => ⟨_, toCsv_of_timesAdvance reads advance⟩,
    fun table returned => isTableOf_of_toCsv reads returned⟩

/-! ## Whole records -/

section

variable {layout : Layout} {arrival : Arrival} {before after : ThreadInfo} {group : EventGroup}
  {record : Record}

/-- A record with its size in the header is told from what follows it. -/
theorem record_eq_of_front {other : Record} {rest later : List Word} {numEvents otherEvents : ℕ}
    (wellFormed : record.WellFormed numEvents) (otherFormed : other.WellFormed otherEvents)
    (same : record.words ++ rest = other.words ++ later) : record = other := by
  have sameHeader : record.header = other.header := by
    rw [Record.words, Record.words] at same
    exact (List.cons.inj same).1
  have sameSize : 8 * record.words.length = 8 * other.words.length := by
    rw [← wellFormed.size, ← otherFormed.size, sameHeader]
  have sameWords := (List.append_inj same (by omega)).1
  obtain ⟨header, body⟩ := record
  obtain ⟨header', body'⟩ := other
  cases sameWords
  rfl

/-- A group without unread words finds the sample that arrives, if no read of it fails. -/
theorem findsSample_of_whole (isGroup : before.eventGroups.get? arrival.signal.fd = some group)
    (isEmpty : group.buf = []) (isWhole : arrival.words = record.words)
    (wellFormed : record.WellFormed group.numEvents)
    (isSample : headerType record.header = PERF_RECORD_SAMPLE)
    (noFailures : arrival.signal.readOutcomes = []) :
    FindsSample arrival before group record := by
  refine ⟨isGroup, ⟨[], ?_⟩, wellFormed, isSample, ?_⟩
  · rw [isEmpty, isWhole, List.nil_append, List.append_nil]
  · rw [noFailures]
    intro outcome isMember
    rw [List.take_nil] at isMember
    cases isMember

/-- The line of such a sample has the group and the times of the record. -/
theorem Wrote.times {sample : Sample layout} (wrote : Wrote arrival before after sample)
    (finds : FindsSample arrival before group record) :
    sample.group.id = group.fd ∧ sample.timeEnabled = (record.body.getD 3 0).toInt ∧
      sample.timeRunning = (record.body.getD 4 0).toInt := by
  obtain ⟨group', record', found, isId, -, values⟩ := wrote.found
  cases finds.isGroup.symm.trans found.isGroup
  obtain ⟨rest, front⟩ := finds.front
  obtain ⟨later, sameFront⟩ := found.front
  cases record_eq_of_front finds.wellFormed found.wellFormed (front.symm.trans sameFront)
  rw [Sample.values, lineOf, lineHead] at values
  simp only [List.cons_append, List.cons.injEq] at values
  obtain ⟨-, -, -, -, -, isEnabled, isRunning, -⟩ := values
  refine ⟨isId, isEnabled.trans ?_, isRunning.trans ?_⟩
  · simp [SampleInfo.ofWords, infoWords, List.getD_eq_getElem?_getD]
  · simp [SampleInfo.ofWords, infoWords, List.getD_eq_getElem?_getD]

end

/-! ## Two groups -/

/-- The command line asks for rotating events. -/
def rotatingArgs (names : Token) : Args := { twoThreads with mrcEstMode := false, events := names }

/-- A kernel that supports all events, but refuses a fifth one in the group of four others. -/
def twoGroupKernel : Kernel :=
  { quietKernel 10 with
    opened := [some 10, some 11, some 12, some 13, none, some 14, some 15, some 16, some 17]
    supported := fun _ => true }

/-- The layout of these groups. -/
def twoGroupLayout : Layout where
  groups := [⟨10, ["ICACHE.MISSES".toList]⟩, ⟨14, ["L2_RQSTS.MISS".toList]⟩]
  distinctIds := by decide
  distinctColumns := by decide

/-- The header of a sample of ten words. -/
def sampleHeader : Word := BitVec.ofNat 64 (9 + 80 * 2 ^ 48)

/-- A record with four counters. -/
def fourCountersAt (enabled running count : ℕ) : Record :=
  ⟨sampleHeader, [0, 0, 4, BitVec.ofNat 64 enabled, BitVec.ofNat 64 running,
    BitVec.ofNat 64 enabled, 2, 3, BitVec.ofNat 64 count]⟩

/-- Its arrival in a group. -/
def fourCountersArrivalAt (fd : ℤ) (enabled running count : ℕ) : Arrival :=
  ⟨{ stillSignal with fd }, (fourCountersAt enabled running count).words⟩

/-- The second group overflows between two overflows of the first one. -/
def interleavedArrivals : List Arrival :=
  [fourCountersArrivalAt 10 10 10 4, fourCountersArrivalAt 14 20 10 7,
    fourCountersArrivalAt 10 30 20 9]

/-- A group of the thread with four events and no unread words. -/
def HasQuietGroup (tinfo : ThreadInfo) (fd : ℤ) : Prop :=
  ∃ group, tinfo.eventGroups.get? fd = some group ∧ group.fd = fd ∧ group.buf = [] ∧
    group.numEvents = 4

theorem HasQuietGroup.finds {tinfo : ThreadInfo} {fd : ℤ} (quiet : HasQuietGroup tinfo fd)
    (enabled running count : ℕ) :
    ∃ group, group.fd = fd ∧ FindsSample (fourCountersArrivalAt fd enabled running count) tinfo
      group (fourCountersAt enabled running count) := by
  obtain ⟨group, isGroup, isFd, isEmpty, four⟩ := quiet
  have isSample : headerType sampleHeader = PERF_RECORD_SAMPLE := by decide
  have size : headerSize sampleHeader = 8 * 10 := by decide
  refine ⟨group, isFd, findsSample_of_whole isGroup isEmpty rfl ?_ isSample rfl⟩
  rw [four]
  exact ⟨size, fun _ => le_refl 9, fun _ => rfl⟩

/-- The configuration that goes with these arguments. -/
def rotatingConfig : Config := { pairConfig with mrcEstMode := false }

theorem exists_run_interleaved :
    ∃ start first second last,
      createEventGroups twoGroupKernel (rotatingArgs "ICACHE.MISSES,L2_RQSTS.MISS".toList)
        secondThread Dict.empty = .ok start ∧
      writeLine rotatingConfig (fun _ _ => 0, start.1) (fourCountersArrivalAt 10 10 10 4) =
        .ok first ∧
      writeLine rotatingConfig first (fourCountersArrivalAt 14 20 10 7) = .ok second ∧
      writeLine rotatingConfig second (fourCountersArrivalAt 10 30 20 9) = .ok last ∧
      HasQuietGroup start.1 10 ∧ HasQuietGroup first.2 14 ∧ HasQuietGroup second.2 10 ∧
      twoGroupLayout.groups = start.1.eventGroups.entries.map fun entry => loggedGroup entry.2 :=
  ⟨_, _, _, _, rfl, rfl, rfl, rfl, ⟨_, rfl, rfl, rfl, rfl⟩, ⟨_, rfl, rfl, rfl, rfl⟩,
    ⟨_, rfl, rfl, rfl, rfl⟩, rfl⟩

/-- The table of that file. -/
theorem interleaved_isTableOf :
    ∃ start last,
      createEventGroups twoGroupKernel (rotatingArgs "ICACHE.MISSES,L2_RQSTS.MISS".toList)
        secondThread Dict.empty = .ok start ∧
      ∃ samples : List (Sample twoGroupLayout),
        Writes rotatingConfig (fun _ _ => 0, start.1) interleavedArrivals samples last ∧
        samples.map (·.group.id) = [10, 14, 10] ∧
        ∃ table, toCsv true last.2.outfile = .ok table ∧ IsTableOf samples table := by
  obtain ⟨start, first, second, last, created, toFirst, toSecond, toLast, quietFirst, quietSecond,
    quietThird, groups⟩ := exists_run_interleaved
  have headed := headed_of_createEventGroups created rfl rfl (by decide) groups
  have reached : run (writeLine rotatingConfig) (fun _ _ => 0, start.1) interleavedArrivals =
      .ok last := by
    rw [interleavedArrivals, run_cons_of_ok toFirst, run_cons_of_ok toSecond,
      run_cons_of_ok toLast]
    rfl
  obtain ⟨groupFirst, idFirst, findsFirst⟩ := quietFirst.finds 10 10 4
  obtain ⟨groupSecond, idSecond, findsSecond⟩ := quietSecond.finds 20 10 7
  obtain ⟨groupThird, idThird, findsThird⟩ := quietThird.finds 30 20 9
  obtain ⟨samples, writes, reads, isTable⟩ := isTableOf_written headed reached (by
    rw [interleavedArrivals, atEachStep_cons_iff]
    refine ⟨⟨_, _, findsFirst⟩, fun next here => ?_⟩
    cases toFirst.symm.trans here
    rw [atEachStep_cons_iff]
    refine ⟨⟨_, _, findsSecond⟩, fun next here => ?_⟩
    cases toSecond.symm.trans here
    rw [atEachStep_cons_iff]
    exact ⟨⟨_, _, findsThird⟩, fun _ _ => atEachStep_nil⟩)
  refine ⟨start, last, created, samples, writes, ?_⟩
  rw [interleavedArrivals] at writes
  obtain _ | ⟨calledFirst, wroteFirst, writes⟩ := writes
  cases toFirst.symm.trans calledFirst
  obtain _ | ⟨calledSecond, wroteSecond, writes⟩ := writes
  cases toSecond.symm.trans calledSecond
  obtain _ | ⟨calledThird, wroteThird, writes⟩ := writes
  cases toLast.symm.trans calledThird
  cases writes
  rename_i sampleFirst sampleSecond sampleThird
  obtain ⟨isFirst, enabledFirst, runningFirst⟩ := wroteFirst.times findsFirst
  obtain ⟨isSecond, enabledSecond, runningSecond⟩ := wroteSecond.times findsSecond
  obtain ⟨isThird, enabledThird, runningThird⟩ := wroteThird.times findsThird
  rw [idFirst] at isFirst
  rw [idSecond] at isSecond
  rw [idThird] at isThird
  refine ⟨by simp [isFirst, isSecond, isThird], ?_⟩
  have advance : TimesAdvance [sampleFirst, sampleSecond, sampleThird] := by
    simp [TimesAdvance, AllFrom, Advances, gainInGroup, previousOfGroup, ofGroup, fieldOf, isFirst,
      isSecond, isThird, enabledFirst, enabledSecond, enabledThird, runningFirst, runningSecond,
      runningThird, fourCountersAt]
  obtain ⟨table, returned⟩ := reads advance
  exact ⟨table, returned, isTable table returned⟩

/-! ## A rotating event that is a permanent one -/

/-- A kernel that supports all events and opens four of them. -/
def fourEventKernel : Kernel :=
  { quietKernel 10 with
    opened := [some 10, some 11, some 12, some 13]
    supported := fun _ => true }

/-- A record with four counters. -/
def fourCounters : Record := ⟨sampleHeader, [0, 0, 4, 10, 10, 1, 2, 3, 4]⟩

/-- Its arrival. -/
def fourCountersArrival : Arrival := ⟨{ stillSignal with fd := 10 }, fourCounters.words⟩

theorem findsSample_fourCounters {tinfo : ThreadInfo} {group : EventGroup}
    (isGroup : tinfo.eventGroups.get? 10 = some group) (isEmpty : group.buf = [])
    (four : group.numEvents = 4) :
    FindsSample fourCountersArrival tinfo group fourCounters := by
  refine findsSample_of_whole isGroup isEmpty rfl ?_ (by decide) rfl
  rw [four]
  exact ⟨by decide, fun _ => by decide, fun _ => by decide⟩

/-- The file that these calls write if the rotating event is a permanent one. -/
def repeatedLog : List Char :=
  "group 10 UNHALTED_REFERENCE_CYCLES INST_RETIRED CPU_CLK_UNHALTED INST_RETIRED
10 0 101 0 0 10 10 0 0 1 2 3 4
".toList

theorem exists_run_repeated :
    ∃ start last group,
      createEventGroups fourEventKernel (rotatingArgs "INST_RETIRED".toList) secondThread
        Dict.empty = .ok start ∧
      run (writeLine pairConfig) (fun _ _ => 0, start.1) [fourCountersArrival] = .ok last ∧
      start.1.eventGroups.get? 10 = some group ∧ group.buf = [] ∧ group.numEvents = 4 ∧
      (loggedGroup group).rotating = ["INST_RETIRED".toList] ∧ last.2.outfile = repeatedLog :=
  ⟨_, _, _, rfl, rfl, rfl, rfl, rfl, rfl, by decide +kernel⟩

/-- A rotating event with the name of a permanent one shares its column. The script keeps the
later position of the name, so the column of the permanent event is left empty, though the
sample has a counter for it. -/
theorem repeated_event_loses_column :
    ∃ start last group table,
      createEventGroups fourEventKernel (rotatingArgs "INST_RETIRED".toList) secondThread
        Dict.empty = .ok start ∧
      run (writeLine pairConfig) (fun _ _ => 0, start.1) [fourCountersArrival] = .ok last ∧
      FindsSample fourCountersArrival start.1 group fourCounters ∧
      (loggedGroup group).rotating.Nodup ∧ toCsv true last.2.outfile = .ok table ∧
      table.columns[7]? = some "INST_RETIRED".toList ∧
      table.cell 0 "INST_RETIRED".toList = some none := by
  obtain ⟨start, last, group, created, reached, isGroup, isEmpty, four, rotating, written⟩ :=
    exists_run_repeated
  have checked : (match toCsv true repeatedLog with
      | .ok table => decide (table.columns[7]? = some "INST_RETIRED".toList ∧
          table.cell 0 "INST_RETIRED".toList = some none)
      | .error _ => false) = true := by decide +kernel
  have distinct : (loggedGroup group).rotating.Nodup := by
    rw [rotating]
    exact List.nodup_singleton _
  cases returned : toCsv true repeatedLog with
  | error fault =>
      rw [returned] at checked
      cases checked
  | ok table =>
      rw [returned] at checked
      obtain ⟨isColumn, noCell⟩ := of_decide_eq_true checked
      exact ⟨start, last, group, table, created, reached,
        findsSample_fourCounters isGroup isEmpty four, distinct, written ▸ returned, isColumn,
        noCell⟩

end Datamime.Csv
