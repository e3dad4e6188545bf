/-
# Reading the counters of a phase

At the end of a phase the kernel has appended a record to the ring buffer of the
armed group, and the handler takes it out again: first the header, then the fixed
part of a sample, then one counter after the other. Every buffer read may fail. The
function prints the sample to the counters file as it goes, and after the last phase
of a turn it arms the next group.
-/

import Datamime.Profiler.EventGroups
import Datamime.Profiler.MemTraffic

namespace Datamime.Profiler

open Datamime.Math Datamime.Hardware

/-- What a phase signal brings along: the descriptor of the group, what the hardware shows
at the three reads of monitoring counters, the outcome of each buffer read (success where
none is listed), and whether arming a group fails. -/
structure Signal where
  fd : ℤ
  trafficFirst : QmCounters
  trafficSecond : QmCounters
  occupancy : QmCounters
  readOutcomes : List Bool
  refreshFails : Bool

/-! ## The ring buffer -/

/-- The unread words of a buffer, and the outcomes of the reads to come. -/
structure Cursor where
  buf : List Word
  outcomes : List Bool

/-- `perf_read_buffer`: all of the requested words, or a failure that consumes nothing. -/
def perfReadBuffer (count : ℕ) (cursor : Cursor) : Option (List Word × Cursor) :=
  if cursor.outcomes.headD true = true ∧ count ≤ cursor.buf.length then
    some (cursor.buf.take count, ⟨cursor.buf.drop count, cursor.outcomes.tail⟩)
  else none

/-- `perf_read_buffer_64`, and the read of a header, which has the size of one word. -/
def perfReadBuffer64 : Cursor → Option (Word × Cursor)
  | ⟨[], _⟩ => none
  | ⟨word :: rest, outcomes⟩ =>
      if outcomes.headD true then some (word, ⟨rest, outcomes.tail⟩) else none

/-- `perf_skip_buffer`, for a number of bytes. -/
def perfSkipBuffer (size : ℕ) (buf : List Word) : List Word := buf.drop (size / 8)

/-- `perf_fd2event`. -/
def perfFd2event (fds : List PerfEvent) (fd : ℤ) : Option ℕ := fds.findIdx? (·.fd = fd)

/-- `ehdr.type`. -/
def headerType (header : Word) : ℕ := (header.setWidth 32).toNat

/-- `ehdr.size`. -/
def headerSize (header : Word) : ℕ := (BitField.read header 48 16).toNat

/-- Append words to the buffer of a group. -/
def ThreadInfo.deliver (tinfo : ThreadInfo) (fd : ℤ) (words : List Word) : ThreadInfo :=
  match tinfo.eventGroups.get? fd with
  | none => tinfo
  | some group =>
      { tinfo with
        eventGroups := tinfo.eventGroups.insert fd { group with buf := group.buf ++ words } }

theorem ThreadInfo.get?_deliver (tinfo : ThreadInfo) (fd other : ℤ) (words : List Word) :
    (tinfo.deliver fd words).eventGroups.get? other =
      if other = fd then
        (tinfo.eventGroups.get? fd).map fun group => { group with buf := group.buf ++ words }
      else tinfo.eventGroups.get? other := by
  rw [ThreadInfo.deliver]
  cases isGroup : tinfo.eventGroups.get? fd with
  | none =>
      by_cases here : other = fd
      · rw [if_pos here, here]
        exact isGroup
      · rw [if_neg here]
  | some group => exact Dict.get?_insert _ _ _ _

theorem ThreadInfo.outfile_deliver (tinfo : ThreadInfo) (fd : ℤ) (words : List Word) :
    (tinfo.deliver fd words).outfile = tinfo.outfile := by
  rw [ThreadInfo.deliver]
  split <;> rfl

/-! ## The line of a sample -/

/-- The fixed part of a sample. -/
structure SampleInfo where
  nanoseconds : Word
  cpu : BitVec 32
  nr : Word
  timeEnabled : Word
  timeRunning : Word

/-- The number of words of the fixed part. -/
def infoWords : ℕ := 5

/-- The fixed part of a sample, from its words. -/
def SampleInfo.ofWords (words : List Word) : SampleInfo where
  nanoseconds := words.getD 0 0
  cpu := (words.getD 1 0).setWidth 32
  nr := words.getD 2 0
  timeEnabled := words.getD 3 0
  timeRunning := words.getD 4 0

/-- The time stamp counter that belongs to a time: a 128-bit shift, then a division. -/
def toTsc (group : EventGroup) (nanoseconds : Word) : Word :=
  BitVec.ofNat 64 ((nanoseconds.toNat * 2 ^ group.timeShift % 2 ^ 128) / group.timeMult)

/-- The numbers before the counters of a line. -/
def lineHead (group : EventGroup) (tinfo : ThreadInfo) (info : SampleInfo) : List ℤ :=
  [group.fd, info.cpu.toInt, group.tid, info.nanoseconds.toInt,
    (toTsc group info.nanoseconds).toInt, info.timeEnabled.toInt, info.timeRunning.toInt,
    tinfo.memTrafficTotal, tinfo.avgCacheOccupancy]

/-! ## The reads -/

/-- `tinfo.values.resize(..)`, where there are too few. -/
def resizeValues (values : List Word) : List Word :=
  values ++ List.replicate (numFixedEvents - values.length) 0

/-- The loop over the counters: whether it came to its end, the cursor, the saved values
and the text of the line so far. -/
def readValues : ℕ → ℕ → Cursor → List Word → List Char →
    Bool × Cursor × List Word × List Char
  | 0, _, cursor, values, text => (true, cursor, values, text)
  | remaining + 1, i, cursor, values, text =>
      match perfReadBuffer64 cursor with
      | none => (false, cursor, values, text)
      | some (val, cursor) =>
          readValues remaining (i + 1) cursor
            (if i < numFixedEvents then values.set i val else values)
            (text ++ ' ' :: Text.ofInt val.toInt)

/-- Where a call ends. -/
inductive Exit
  | unexpectedType
  | noInfo
  | noValue
  | complete
  deriving DecidableEq

/-- What the reads leave behind: the rest of the buffer, the saved values, and what was
appended to the counters file. -/
structure Reading where
  exit : Exit
  buf : List Word
  values : List Word
  text : List Char

/-- The part of `read_counters` after the header of a sample. -/
def readSample (group : EventGroup) (tinfo : ThreadInfo) (ehdr : Word) (cursor : Cursor) :
    Except Fault Reading :=
  match perfReadBuffer infoWords cursor with
  | none => .ok ⟨.noInfo, cursor.buf, tinfo.values, []⟩
  | some (words, cursor) =>
      let info := SampleInfo.ofWords words
      if info.nr = BitVec.ofNat 64 group.numEvents then
        if group.timeMult = 0 then .error .divisionByZero
        else
          match readValues info.nr.toNat 0 cursor (resizeValues tinfo.values)
              (Text.spaced ((lineHead group tinfo info).map Text.ofInt)) with
          | (false, cursor, values, text) => .ok ⟨.noValue, cursor.buf, values, text⟩
          | (true, cursor, values, text) =>
              let size := BitVec.ofNat 64 (headerSize ehdr) - 8#64 - 40#64 - 8#64 * info.nr
              .ok ⟨.complete, perfSkipBuffer size.toNat cursor.buf, values, text ++ ['\n']⟩
      else .error .assertion

/-- The part of `read_counters` that takes one record out of the buffer. -/
def readRecord (group : EventGroup) (tinfo : ThreadInfo) (outcomes : List Bool) :
    Except Fault Reading :=
  match perfReadBuffer64 ⟨group.buf, outcomes⟩ with
  | none => .error (.exit "cannot read event header")
  | some (ehdr, cursor) =>
      if headerType ehdr = PERF_RECORD_SAMPLE then readSample group tinfo ehdr cursor
      else .ok ⟨.unexpectedType, cursor.buf, tinfo.values, []⟩

/-- The descriptor after the given one, in the order of the map and around its end. -/
def nextGroup (groups : Dict ℤ EventGroup) (fd : ℤ) : ℤ :=
  let keys := groups.entries.map Prod.fst
  match keys.dropWhile (· ≠ fd) with
  | _ :: next :: _ => next
  | _ => keys.headD fd

/-- The end of `read_counters`: after the last phase of a turn the next group is armed. -/
def switchGroup (mrcEstMode refreshFails : Bool) (fd : ℤ) (tinfo : ThreadInfo) :
    Except Fault ThreadInfo :=
  if PHASES_BETWEEN_SWITCHES ≤ tinfo.phasesWithCurrentGroup ∧ mrcEstMode = false then
    let newFd := nextGroup tinfo.eventGroups fd
    match tinfo.eventGroups.get? newFd with
    | none => .error .nullEntry
    | some group =>
        if refreshFails then .error (.exit "cannot refresh")
        else .ok { tinfo with
          phasesWithCurrentGroup := 0
          eventGroups := tinfo.eventGroups.insert newFd (group.refresh PHASES_BETWEEN_SWITCHES) }
  else .ok tinfo

/-- A thread after its group was read. -/
def ThreadInfo.afterReading (tinfo : ThreadInfo) (fd : ℤ) (group : EventGroup)
    (reading : Reading) : ThreadInfo :=
  { tinfo with
    values := reading.values
    outfile := tinfo.outfile ++ reading.text
    eventGroups := tinfo.eventGroups.insert fd { group with buf := reading.buf } }

/-- `read_counters`. -/
def readCounters (config : Config) (signal : Signal) (msrs : Msrs) (tinfo : ThreadInfo) :
    Except Fault (Msrs × ThreadInfo) := do
  let (msrs, tinfo) ←
    updateMemTraffic config.machine signal.trafficFirst signal.trafficSecond msrs tinfo
  let (msrs, tinfo) ← updateCacheOccupancy config.machine signal.occupancy msrs tinfo
  match tinfo.eventGroups.get? signal.fd with
  | none => .error .assertion
  | some group =>
      match perfFd2event group.fds group.fd with
      | none => .error (.exit ("no event associated with fd = " ++ toString group.fd))
      | some _ => do
          -- The event with the group's descriptor is its leader, whose buffer is read.
          let reading ← readRecord group tinfo signal.readOutcomes
          let tinfo := tinfo.afterReading signal.fd group reading
          if reading.exit = .complete then
            return (msrs, ← switchGroup config.mrcEstMode signal.refreshFails signal.fd tinfo)
          else return (msrs, tinfo)

/-! ## Each read -/

/-- The leader is found under the descriptor of its group. -/
theorem perfFd2event_fds (group : EventGroup) :
    perfFd2event group.fds group.fd = some 0 := by
  have leads := group.leads
  rw [perfFd2event]
  cases shape : group.fds with
  | nil =>
      rw [shape] at leads
      cases leads
  | cons leader rest =>
      rw [shape] at leads
      have same : leader.fd = group.fd := Option.some.inj leads
      simp [List.findIdx?_cons, same]

/-- A read of words that are there depends on its outcome alone. -/
theorem perfReadBuffer_append (taken rest : List Word) (outcomes : List Bool) :
    perfReadBuffer taken.length ⟨taken ++ rest, outcomes⟩ =
      if outcomes.headD true = true then some (taken, ⟨rest, outcomes.tail⟩) else none := by
  rw [perfReadBuffer]
  simp

/-- The next reads all succeed. -/
def AllSucceed (outcomes : List Bool) (count : ℕ) : Prop :=
  ∀ outcome ∈ outcomes.take count, outcome = true

theorem allSucceed_succ {outcomes : List Bool} {count : ℕ} :
    AllSucceed outcomes (count + 1) ↔
      outcomes.headD true = true ∧ AllSucceed outcomes.tail count := by
  cases outcomes <;> simp [AllSucceed]

/-- Save counters to the front of a list of values, from a position on. -/
def overwrite : ℕ → List Word → List Word → List Word
  | _, values, [] => values
  | i, values, word :: rest =>
      overwrite (i + 1) (if i < numFixedEvents then values.set i word else values) rest

/-- The text of counters on a line. -/
def valuesText (words : List Word) : List Char :=
  words.flatMap fun word => ' ' :: Text.ofInt word.toInt

/-- The loop takes as many words as there are successful reads. -/
theorem readValues_spec (remaining i : ℕ) (cursor : Cursor) (values : List Word)
    (text : List Char) (stored : remaining ≤ cursor.buf.length) :
    ∃ taken, taken ≤ remaining ∧
      readValues remaining i cursor values text =
        (decide (taken = remaining), ⟨cursor.buf.drop taken, cursor.outcomes.drop taken⟩,
          overwrite i values (cursor.buf.take taken),
          text ++ valuesText (cursor.buf.take taken)) ∧
      (taken = remaining ↔ AllSucceed cursor.outcomes remaining) := by
  induction remaining generalizing i cursor values text with
  | zero => exact ⟨0, le_rfl, by simp [readValues, overwrite, valuesText], by simp [AllSucceed]⟩
  | succ remaining ih =>
      obtain ⟨buf, outcomes⟩ := cursor
      cases buf with
      | nil => simp at stored
      | cons word rest =>
          rw [List.length_cons, Nat.add_le_add_iff_right] at stored
          rw [readValues, perfReadBuffer64]
          by_cases succeeds : outcomes.headD true = true
          · rw [if_pos succeeds]
            obtain ⟨taken, atMost, equal, all⟩ := ih (i + 1) ⟨rest, outcomes.tail⟩
              (if i < numFixedEvents then values.set i word else values)
              (text ++ ' ' :: Text.ofInt word.toInt) stored
            refine ⟨taken + 1, Nat.succ_le_succ atMost, ?_, ?_⟩
            · refine Eq.trans equal ?_
              simp [overwrite, valuesText, List.drop_tail]
            · rw [Nat.succ_inj, all, allSucceed_succ]
              exact ⟨fun later => ⟨succeeds, later⟩, And.right⟩
          · rw [if_neg succeeds]
            refine ⟨0, Nat.zero_le _, by simp [overwrite, valuesText], ?_⟩
            rw [allSucceed_succ]
            exact ⟨nofun, fun all => absurd all.1 succeeds⟩

/-! ## What a call can do -/

/-- A thread after its traffic and its occupancy were updated. -/
def ThreadInfo.metered (tinfo : ThreadInfo) (total last occupancy : ℤ) : ThreadInfo :=
  { tinfo with
    memTrafficTotal := total
    memTrafficLast := last
    avgCacheOccupancy := occupancy }

variable {config : Config} {signal : Signal} {machine : Machine} {msrs : Msrs}
  {tinfo : ThreadInfo}

theorem readQmCtr_frame {counters : QmCounters} {rmid evt : ℕ} {result : Msrs × ℤ}
    (returned : readQmCtr machine counters msrs rmid evt = .ok result) (core : ℕ) :
    effectiveMask result.1 core = effectiveMask msrs core := by
  obtain ⟨-, -, -, rfl⟩ := readQmCtr_eq_ok_iff.mp returned
  exact effectiveMask_set_qmEvtsel _ core

theorem updateMemTraffic_frame {first second : QmCounters} {result : Msrs × ThreadInfo}
    (returned : updateMemTraffic machine first second msrs tinfo = .ok result) :
    (∃ total last, result.2 = tinfo.metered total last tinfo.avgCacheOccupancy) ∧
      ∀ core, effectiveMask result.1 core = effectiveMask msrs core := by
  obtain ⟨⟨between, delta⟩, increase, returned⟩ := bind_eq_ok_iff.mp returned
  obtain ⟨⟨after, last⟩, reading, returned⟩ := bind_eq_ok_iff.mp returned
  cases returned
  obtain ⟨⟨afterFirst, traffic⟩, firstReading, increase⟩ := bind_eq_ok_iff.mp increase
  have sameMsrs : between = afterFirst := by
    dsimp only at increase
    split at increase <;> cases increase <;> rfl
  subst sameMsrs
  exact ⟨⟨_, _, rfl⟩, fun core =>
    (readQmCtr_frame reading core).trans (readQmCtr_frame firstReading core)⟩

theorem updateCacheOccupancy_frame {counters : QmCounters} {result : Msrs × ThreadInfo}
    (returned : updateCacheOccupancy machine counters msrs tinfo = .ok result) :
    (∃ occupancy,
        result.2 = tinfo.metered tinfo.memTrafficTotal tinfo.memTrafficLast occupancy) ∧
      ∀ core, effectiveMask result.1 core = effectiveMask msrs core := by
  obtain ⟨⟨after, occupancy⟩, reading, returned⟩ := bind_eq_ok_iff.mp returned
  cases returned
  exact ⟨⟨_, rfl⟩, readQmCtr_frame reading⟩

/-- What a call that returns has done: it updated the two meters, took a record out of the
buffer of its group and, where the record was complete, came to the switch of groups. -/
structure ReadBy (config : Config) (signal : Signal) (tinfo next : ThreadInfo)
    (group : EventGroup) (metered : ThreadInfo) (reading : Reading) : Prop where
  isMetered : ∃ total last occupancy, metered = tinfo.metered total last occupancy
  isGroup : tinfo.eventGroups.get? signal.fd = some group
  wasRead : readRecord group metered signal.readOutcomes = .ok reading
  ends : if reading.exit = .complete then
      switchGroup config.mrcEstMode signal.refreshFails signal.fd
        (metered.afterReading signal.fd group reading) = .ok next
    else next = metered.afterReading signal.fd group reading

theorem readCounters_cases {next : Msrs × ThreadInfo}
    (returned : readCounters config signal msrs tinfo = .ok next) :
    (∃ group metered reading, ReadBy config signal tinfo next.2 group metered reading) ∧
      ∀ core, effectiveMask next.1 core = effectiveMask msrs core := by
  obtain ⟨⟨trafficMsrs, withTraffic⟩, traffic, afterTraffic⟩ := bind_eq_ok_iff.mp returned
  obtain ⟨⟨total, last, atTraffic⟩, trafficFrame⟩ := updateMemTraffic_frame traffic
  obtain ⟨⟨occupancyMsrs, metered⟩, occupied, afterMeters⟩ := bind_eq_ok_iff.mp afterTraffic
  obtain ⟨⟨occupancy, atOccupancy⟩, occupancyFrame⟩ := updateCacheOccupancy_frame occupied
  dsimp only at atTraffic atOccupancy afterMeters trafficFrame occupancyFrame
  subst atTraffic
  have frame : ∀ core, effectiveMask occupancyMsrs core = effectiveMask msrs core := fun core =>
    (occupancyFrame core).trans (trafficFrame core)
  have sameGroups : metered.eventGroups = tinfo.eventGroups := by rw [atOccupancy]; rfl
  have isMetered : ∃ total last occupancy, metered = tinfo.metered total last occupancy :=
    ⟨total, last, occupancy, atOccupancy⟩
  cases isGroup : metered.eventGroups.get? signal.fd with
  | none =>
      rw [isGroup] at afterMeters
      cases afterMeters
  | some group =>
      rw [isGroup] at afterMeters
      dsimp only at afterMeters
      rw [perfFd2event_fds] at afterMeters
      obtain ⟨reading, wasRead, afterReading⟩ := bind_eq_ok_iff.mp afterMeters
      rw [sameGroups] at isGroup
      by_cases isComplete : reading.exit = .complete
      · rw [if_pos isComplete] at afterReading
        obtain ⟨switched, atSwitch, finished⟩ := bind_eq_ok_iff.mp afterReading
        cases finished
        exact ⟨⟨group, metered, reading, isMetered, isGroup, wasRead,
          by rwa [if_pos isComplete]⟩, frame⟩
      · rw [if_neg isComplete] at afterReading
        cases afterReading
        exact ⟨⟨group, metered, reading, isMetered, isGroup, wasRead,
          by rw [if_neg isComplete]⟩, frame⟩

/-- The switch of groups either does nothing or starts a turn of the next group. -/
theorem switchGroup_cases {mrcEstMode refreshFails : Bool} {fd : ℤ} {next : ThreadInfo}
    (returned : switchGroup mrcEstMode refreshFails fd tinfo = .ok next) :
    (¬ (PHASES_BETWEEN_SWITCHES ≤ tinfo.phasesWithCurrentGroup ∧ mrcEstMode = false) ∧
        next = tinfo) ∨
      (PHASES_BETWEEN_SWITCHES ≤ tinfo.phasesWithCurrentGroup ∧ mrcEstMode = false) ∧
        ∃ group, tinfo.eventGroups.get? (nextGroup tinfo.eventGroups fd) = some group ∧
          next = { tinfo with
            phasesWithCurrentGroup := 0
            eventGroups := tinfo.eventGroups.insert (nextGroup tinfo.eventGroups fd)
              (group.refresh PHASES_BETWEEN_SWITCHES) } := by
  rw [switchGroup] at returned
  split at returned
  · rename_i turnEnds
    dsimp only at returned
    split at returned
    · cases returned
    · rename_i group isGroup
      split at returned
      · cases returned
      · cases returned
        exact .inr ⟨turnEnds, group, isGroup, rfl⟩
  · rename_i turnGoesOn
    cases returned
    exact .inl ⟨turnGoesOn, rfl⟩

/-- Beside the group that was read, a switch changes no more than a budget. -/
theorem switchGroup_get? {mrcEstMode refreshFails : Bool} {fd other : ℤ} {next : ThreadInfo}
    (returned : switchGroup mrcEstMode refreshFails fd tinfo = .ok next) :
    next.eventGroups.get? other = tinfo.eventGroups.get? other ∨
      ∃ group, tinfo.eventGroups.get? other = some group ∧
        next.eventGroups.get? other = some (group.refresh PHASES_BETWEEN_SWITCHES) := by
  rcases switchGroup_cases returned with ⟨-, rfl⟩ | ⟨-, group, isGroup, rfl⟩
  · exact .inl rfl
  · by_cases isNext : other = nextGroup tinfo.eventGroups fd
    · subst isNext
      exact .inr ⟨group, isGroup, Dict.get?_insert_self _ _ _⟩
    · exact .inl (Dict.get?_insert_of_ne _ isNext _)

section

variable {next metered : ThreadInfo} {group : EventGroup} {reading : Reading}

/-- A call writes what it read to the file. -/
theorem ReadBy.outfile (readBy : ReadBy config signal tinfo next group metered reading) :
    next.outfile = tinfo.outfile ++ reading.text := by
  obtain ⟨⟨total, last, occupancy, rfl⟩, -, -, ends⟩ := readBy
  split at ends
  · rcases switchGroup_cases ends with ⟨-, rfl⟩ | ⟨-, -, -, rfl⟩ <;> rfl
  · rw [ends]
    rfl

/-- A call keeps the events of each group, and the buffers of all groups but the one that
it reads. -/
theorem ReadBy.get? (readBy : ReadBy config signal tinfo next group metered reading)
    {other : ℤ} {after : EventGroup} (isAfter : next.eventGroups.get? other = some after) :
    ∃ before, tinfo.eventGroups.get? other = some before ∧
      (after.fd = before.fd ∧ after.fds = before.fds) ∧
      after.buf = if other = signal.fd then reading.buf else before.buf := by
  obtain ⟨⟨total, last, occupancy, rfl⟩, isGroup, -, ends⟩ := readBy
  have read : ∀ between, (tinfo.metered total last occupancy |>.afterReading signal.fd group
      reading).eventGroups.get? other = some between →
      ∃ before, tinfo.eventGroups.get? other = some before ∧
        (between.fd = before.fd ∧ between.fds = before.fds) ∧
        between.buf = if other = signal.fd then reading.buf else before.buf := by
    intro between isBetween
    rw [ThreadInfo.afterReading, Dict.get?_insert] at isBetween
    by_cases isRead : other = signal.fd
    · rw [if_pos isRead] at isBetween
      cases isBetween
      exact ⟨group, isRead ▸ isGroup, ⟨rfl, rfl⟩, (if_pos isRead).symm⟩
    · rw [if_neg isRead] at isBetween
      exact ⟨between, isBetween, ⟨rfl, rfl⟩, (if_neg isRead).symm⟩
  split at ends
  · rcases @switchGroup_get? _ _ _ _ other _ ends with same | ⟨between, isBetween, refreshed⟩
    · exact read after (same ▸ isAfter)
    · rw [refreshed] at isAfter
      cases isAfter
      exact read between isBetween
  · rw [ends] at isAfter
    exact read after isAfter

/-- The group that was read is still there. -/
theorem ReadBy.get?_self (readBy : ReadBy config signal tinfo next group metered reading) :
    ∃ after, next.eventGroups.get? signal.fd = some after := by
  obtain ⟨-, -, -, ends⟩ := readBy
  have read : (metered.afterReading signal.fd group reading).eventGroups.get? signal.fd =
      some { group with buf := reading.buf } := Dict.get?_insert_self _ _ _
  split at ends
  · rcases @switchGroup_get? _ _ _ _ signal.fd _ ends with same | ⟨between, -, refreshed⟩
    · exact ⟨_, same.trans read⟩
    · exact ⟨_, refreshed⟩
  · exact ⟨_, ends ▸ read⟩

end

end Datamime.Profiler
