/-
# Records and lines

The ring buffer of a group holds whole records, and the counters file should hold
whole lines. A call that meets a sample and reads all of it takes the record and
appends a line. A call that leaves early takes a part of the record, and in one case
leaves a part of a line: every later call then starts inside of a record.
-/

import Datamime.Math.Framing
import Datamime.Profiler.ReadCounters

namespace Datamime.Profiler

open Datamime.Math Datamime.Hardware

/-- A record of the ring buffer. -/
structure Record where
  header : Word
  body : List Word

/-- The words of a record. -/
def Record.words (record : Record) : List Word := record.header :: record.body

/-- The header gives the size in bytes, and a sample has its fixed part and one counter for
each event of the group. -/
structure Record.WellFormed (numEvents : ℕ) (record : Record) : Prop where
  size : headerSize record.header = 8 * record.words.length
  long : headerType record.header = PERF_RECORD_SAMPLE →
    infoWords + numEvents ≤ record.body.length
  counted : headerType record.header = PERF_RECORD_SAMPLE →
    record.body.getD 2 0 = BitVec.ofNat 64 numEvents

/-- The file is a sequence of terminated lines. -/
def CompleteLines (text : List Char) : Prop :=
  ∃ lines, (∀ line ∈ lines, '\n' ∉ line) ∧ text = Text.unlines lines

theorem completeLines_append {text line : List Char} (complete : CompleteLines text)
    (oneLine : '\n' ∉ line) : CompleteLines (text ++ (line ++ ['\n'])) := by
  obtain ⟨lines, each, rfl⟩ := complete
  refine ⟨lines ++ [line], ?_, by simp [Text.unlines]⟩
  intro other isMember
  rcases List.mem_append.mp isMember with earlier | last
  · exact each other earlier
  · rw [List.mem_singleton] at last
    exact last ▸ oneLine

/-- The numbers on the line of a sample. -/
def lineOf (group : EventGroup) (tinfo : ThreadInfo) (body : List Word) : List ℤ :=
  lineHead group tinfo (SampleInfo.ofWords (body.take infoWords)) ++
    ((body.drop infoWords).take group.numEvents).map BitVec.toInt

theorem headerSize_lt (header : Word) : headerSize header < 2 ^ 16 := by
  rw [headerSize, BitField.read, BitField.toNat_and_mask _ _ (by decide)]
  exact Nat.mod_lt _ (by decide)

/-- What is left of a sample after its counters is skipped, to the word. -/
theorem leftover_size {length numEvents : ℕ} (long : infoWords + numEvents ≤ length)
    (small : 8 * (length + 1) < 2 ^ 16) :
    (BitVec.ofNat 64 (8 * (length + 1)) - 8#64 - 40#64 - 8#64 * BitVec.ofNat 64 numEvents).toNat =
      8 * (length - infoWords - numEvents) := by
  rw [infoWords] at *
  have split : BitVec.ofNat 64 (8 * (length + 1)) =
      BitVec.ofNat 64 (8 * (length - 5 - numEvents)) + 8#64 * BitVec.ofNat 64 numEvents + 40#64 +
        8#64 := by
    apply BitVec.eq_of_toNat_eq
    simp only [BitVec.toNat_add, BitVec.toNat_mul, BitVec.toNat_ofNat]
    omega
  rw [split, BitVec.add_sub_cancel, BitVec.add_sub_cancel, BitVec.add_sub_cancel,
    BitVec.toNat_ofNat]
  omega

/-! ## One record -/

section OneRecord

variable {group : EventGroup} {tinfo : ThreadInfo} {outcomes : List Bool} {record : Record}
  {rest : List Word}

/-- The call reads a whole record: a sample with all of its reads successful, or another
record that is nothing but its header. -/
def Clean (numEvents : ℕ) (outcomes : List Bool) (header : Word) : Prop :=
  if headerType header = PERF_RECORD_SAMPLE then AllSucceed outcomes (2 + numEvents)
  else headerSize header = 8

theorem text_spaced (numbers more : List ℤ) (nonempty : numbers ≠ []) :
    Text.spaced (numbers.map Text.ofInt) ++ more.flatMap (fun z => ' ' :: Text.ofInt z) =
      Text.spaced ((numbers ++ more).map Text.ofInt) := by
  cases numbers with
  | nil => exact absurd rfl nonempty
  | cons first others => simp [Text.spaced, List.flatMap_map, List.append_assoc]

/-- After the counters the rest of a sample is skipped. -/
theorem skip_leftover (wellFormed : record.WellFormed group.numEvents)
    (isSample : headerType record.header = PERF_RECORD_SAMPLE) :
    perfSkipBuffer (BitVec.ofNat 64 (headerSize record.header) - 8#64 - 40#64 -
        8#64 * BitVec.ofNat 64 group.numEvents).toNat
      ((record.body.drop infoWords ++ rest).drop group.numEvents) = rest := by
  have long := wellFormed.long isSample
  have small := headerSize_lt record.header
  rw [wellFormed.size, Record.words, List.length_cons] at small
  have countersLong : group.numEvents ≤ (record.body.drop infoWords).length := by
    rw [List.length_drop]
    omega
  have length : record.body.length - infoWords - group.numEvents =
      ((record.body.drop infoWords).drop group.numEvents).length := by
    rw [List.length_drop, List.length_drop]
  rw [wellFormed.size, Record.words, List.length_cons, leftover_size long small, perfSkipBuffer,
    Nat.mul_div_cancel_left _ (by decide), List.drop_append_of_le_length countersLong, length,
    List.drop_left]

/-- Reading a sample takes all of it if all reads succeed, else a proper part of it. -/
theorem readSample_cases (wellFormed : record.WellFormed group.numEvents)
    (isSample : headerType record.header = PERF_RECORD_SAMPLE) {reading : Reading}
    (wasRead : readSample group tinfo record.header ⟨record.body ++ rest, outcomes⟩ =
      .ok reading) :
    (¬ AllSucceed outcomes (1 + group.numEvents) ∧ reading.exit ≠ .complete ∧
        ∃ taken < record.body.length, reading.buf = (record.body ++ rest).drop taken) ∨
      (AllSucceed outcomes (1 + group.numEvents) ∧
        reading = ⟨.complete, rest,
          overwrite 0 (resizeValues tinfo.values)
            ((record.body.drop infoWords).take group.numEvents),
          Text.spaced ((lineOf group tinfo record.body).map Text.ofInt) ++ ['\n']⟩) := by
  have long := wellFormed.long isSample
  have small := headerSize_lt record.header
  rw [wellFormed.size, Record.words, List.length_cons] at small
  have infoLong : infoWords ≤ record.body.length := le_trans (Nat.le_add_right _ _) long
  have othersLong : group.numEvents ≤ (record.body.drop infoWords ++ rest).length := by
    rw [List.length_append, List.length_drop]
    omega
  have numSmall : group.numEvents < 2 ^ 64 := by omega
  -- The first two reads see the words of the fixed part and then the counters.
  have infoRead := perfReadBuffer_append (record.body.take infoWords)
    (record.body.drop infoWords ++ rest) outcomes
  rw [List.length_take_of_le infoLong, ← List.append_assoc, List.take_append_drop] at infoRead
  have nr : (SampleInfo.ofWords (record.body.take infoWords)).nr =
      BitVec.ofNat 64 group.numEvents := by
    rw [← wellFormed.counted isSample]
    show (record.body.take infoWords).getD 2 0 = record.body.getD 2 0
    rw [List.getD_eq_getElem?_getD, List.getD_eq_getElem?_getD,
      List.getElem?_take_of_lt (by decide)]
  have total : 1 + group.numEvents = group.numEvents + 1 := Nat.add_comm _ _
  rw [readSample, infoRead] at wasRead
  rw [total, allSucceed_succ]
  by_cases infoReads : outcomes.headD true = true
  · rw [if_pos infoReads] at wasRead
    dsimp only at wasRead
    rw [if_pos nr] at wasRead
    split at wasRead
    · cases wasRead
    obtain ⟨taken, atMost, equal, all⟩ := readValues_spec group.numEvents 0
      ⟨record.body.drop infoWords ++ rest, outcomes.tail⟩ (resizeValues tinfo.values)
      (Text.spaced ((lineHead group tinfo
        (SampleInfo.ofWords (record.body.take infoWords))).map Text.ofInt)) othersLong
    rw [nr, BitVec.toNat_ofNat, Nat.mod_eq_of_lt numSmall, equal] at wasRead
    have countersLong : group.numEvents ≤ (record.body.drop infoWords).length := by
      rw [List.length_drop]
      omega
    by_cases everyValue : taken = group.numEvents
    · subst everyValue
      rw [decide_eq_true rfl] at wasRead
      obtain rfl := Except.ok.inj wasRead
      refine .inr ⟨⟨infoReads, all.mp rfl⟩, ?_⟩
      rw [List.take_append_of_le_length countersLong]
      refine congrArg₂ (fun buf text => Reading.mk .complete buf _ text)
        (skip_leftover wellFormed isSample) ?_
      rw [valuesText, lineOf, ← text_spaced (lineHead _ _ _) _ (List.cons_ne_nil _ _),
        List.flatMap_map]
    · rw [decide_eq_false everyValue] at wasRead
      obtain rfl := Except.ok.inj wasRead
      refine .inl ⟨fun succeeds => everyValue (all.mpr succeeds.2), by simp, infoWords + taken,
        by omega, ?_⟩
      rw [← List.drop_drop, List.drop_append_of_le_length infoLong]
  · rw [if_neg infoReads] at wasRead
    obtain rfl := Except.ok.inj wasRead
    exact .inl ⟨fun succeeds => infoReads succeeds.1, by simp, 0,
      lt_of_lt_of_le (by decide) infoLong, rfl⟩

/-- What reading a well-formed record does, exit by exit. -/
theorem readRecord_cases (front : group.buf = record.words ++ rest)
    (wellFormed : record.WellFormed group.numEvents) {reading : Reading}
    (wasRead : readRecord group tinfo outcomes = .ok reading) :
    (headerType record.header ≠ PERF_RECORD_SAMPLE ∧
        reading = ⟨.unexpectedType, record.body ++ rest, tinfo.values, []⟩) ∨
      (headerType record.header = PERF_RECORD_SAMPLE ∧
        ¬ AllSucceed outcomes (2 + group.numEvents) ∧ reading.exit ≠ .complete ∧
        ∃ taken, 0 < taken ∧ taken < record.words.length ∧
          reading.buf = (record.words ++ rest).drop taken) ∨
      (headerType record.header = PERF_RECORD_SAMPLE ∧
        AllSucceed outcomes (2 + group.numEvents) ∧
        reading = ⟨.complete, rest,
          overwrite 0 (resizeValues tinfo.values)
            ((record.body.drop infoWords).take group.numEvents),
          Text.spaced ((lineOf group tinfo record.body).map Text.ofInt) ++ ['\n']⟩) := by
  rw [readRecord, front, Record.words, List.cons_append, perfReadBuffer64] at wasRead
  by_cases headerReads : outcomes.headD true = true
  · rw [if_pos headerReads] at wasRead
    dsimp only at wasRead
    by_cases isSample : headerType record.header = PERF_RECORD_SAMPLE
    · rw [if_pos isSample] at wasRead
      have count : 2 + group.numEvents = (1 + group.numEvents) + 1 := by omega
      rw [count, allSucceed_succ]
      rcases readSample_cases wellFormed isSample wasRead with
        ⟨fails, exits, taken, part, buf⟩ | ⟨succeeds, equal⟩
      · refine .inr (.inl ⟨isSample, fun all => fails all.2, exits, taken + 1,
          Nat.succ_pos _, ?_, ?_⟩)
        · rw [Record.words, List.length_cons]
          exact Nat.succ_lt_succ part
        · rw [buf, Record.words, List.cons_append, List.drop_succ_cons]
      · exact .inr (.inr ⟨isSample, ⟨headerReads, succeeds⟩, equal⟩)
    · rw [if_neg isSample] at wasRead
      exact .inl ⟨isSample, (Except.ok.inj wasRead).symm⟩
  · rw [if_neg headerReads] at wasRead
    cases wasRead

/-- A well-formed record is nothing but its header precisely when the header says so. -/
theorem Record.WellFormed.size_eq_iff {numEvents : ℕ} (wellFormed : record.WellFormed numEvents) :
    headerSize record.header = 8 ↔ record.body = [] := by
  rw [wellFormed.size, Record.words, List.length_cons, ← List.length_eq_zero_iff]
  omega

theorem line_spaced (numbers : List ℤ) : '\n' ∉ Text.spaced (numbers.map Text.ofInt) := by
  refine Text.newline_not_mem_spaced fun word isMember => ?_
  obtain ⟨number, -, rfl⟩ := List.mem_map.mp isMember
  exact Text.isWord_ofInt number

/-- A read ends at the end of a record and of a line precisely when it is clean, and then
it takes the record. -/
theorem readRecord_inOrder_iff {frames left : List (List Word)} {text : List Char}
    (isSuffix : record.words :: left <:+ frames) (complete : CompleteLines text)
    (front : group.buf = record.words ++ left.flatten)
    (wellFormed : record.WellFormed group.numEvents) {reading : Reading}
    (wasRead : readRecord group tinfo outcomes = .ok reading) :
    (AtBoundary frames reading.buf ∧ CompleteLines (text ++ reading.text) ↔
        Clean group.numEvents outcomes record.header) ∧
      (Clean group.numEvents outcomes record.header →
        reading.buf = left.flatten ∧
          (reading.text = [] ∨ ∃ line, '\n' ∉ line ∧ reading.text = line ++ ['\n'])) := by
  have next := atBoundary_next isSuffix
  rw [Clean]
  rcases readRecord_cases front wellFormed wasRead with
    ⟨isOther, rfl⟩ | ⟨isSample, fails, -, taken, positive, part, isBuf⟩ |
      ⟨isSample, succeeds, rfl⟩
  · -- Another record is skipped up to its body, so it has to have none.
    rw [if_neg isOther, wellFormed.size_eq_iff]
    by_cases isEmpty : record.body = []
    · rw [isEmpty, List.append_nil]
      exact ⟨iff_of_true ⟨next, complete⟩ rfl, fun _ => ⟨rfl, .inl rfl⟩⟩
    · have part : 1 < record.words.length := by
        rw [Record.words, List.length_cons]
        exact Nat.succ_lt_succ (List.length_pos_of_ne_nil isEmpty)
      exact ⟨iff_of_false (fun both => not_atBoundary_of_part isSuffix Nat.one_pos part both.1)
        isEmpty, fun empty => absurd empty isEmpty⟩
  · rw [if_pos isSample, isBuf]
    exact ⟨iff_of_false (fun both => not_atBoundary_of_part isSuffix positive part both.1) fails,
      fun succeeds => absurd succeeds fails⟩
  · rw [if_pos isSample]
    exact ⟨iff_of_true ⟨next, completeLines_append complete (line_spaced _)⟩ succeeds,
      fun _ => ⟨rfl, .inr ⟨_, line_spaced _, rfl⟩⟩⟩

end OneRecord

/-! ## Runs of calls -/

/-- A record that the kernel can write for a group with a number of events. -/
abbrev Frame (numEvents : ℕ) := {record : Record // record.WellFormed numEvents}

/-- The words of each of several records. -/
def frameWords {numEvents : ℕ} (frames : List (Frame numEvents)) : List (List Word) :=
  frames.map fun frame => frame.1.words

variable {width : ℤ → ℕ}

/-- The kernel appends records to the buffer of a group and sends a signal. -/
structure Delivery (width : ℤ → ℕ) where
  signal : Signal
  records : List (Frame (width signal.fd))

/-- A thread whose buffers are being read, with all records that were ever written for each
group. -/
structure Reader (width : ℤ → ℕ) where
  msrs : Msrs
  tinfo : ThreadInfo
  written : (fd : ℤ) → List (Frame (width fd))

/-- The buffers after a delivery, before the call that it leads to. -/
def Reader.receive (reader : Reader width) (delivery : Delivery width) : Reader width where
  msrs := reader.msrs
  tinfo := reader.tinfo.deliver delivery.signal.fd (frameWords delivery.records).flatten
  written := Function.update reader.written delivery.signal.fd
    (reader.written delivery.signal.fd ++ delivery.records)

/-- A delivery and the call of `read_counters` that it leads to. -/
def Reader.call (config : Config) (reader : Reader width) (delivery : Delivery width) :
    Except Fault (Reader width) := do
  let received := reader.receive delivery
  let (msrs, tinfo) ← readCounters config delivery.signal received.msrs received.tinfo
  return ⟨msrs, tinfo, received.written⟩

/-- The kernel writes the records that belong to the events of each group. -/
def Reader.Sized (reader : Reader width) : Prop :=
  ∀ fd group, reader.tinfo.eventGroups.get? fd = some group → group.numEvents = width fd

/-- Every buffer is read up to the end of a record. -/
def Reader.Aligned (reader : Reader width) : Prop :=
  ∀ fd group, reader.tinfo.eventGroups.get? fd = some group →
    AtBoundary (frameWords (reader.written fd)) group.buf

/-- The reader stands at record boundaries and the file contains only complete lines. -/
def Reader.InOrder (reader : Reader width) : Prop :=
  reader.Aligned ∧ CompleteLines reader.tinfo.outfile

/-- Exactly one whole record is consumed, or nothing. -/
def Reader.TakesWhole (before after : Reader width) (fd : ℤ) : Prop :=
  ∀ groupBefore groupAfter, before.tinfo.eventGroups.get? fd = some groupBefore →
    after.tinfo.eventGroups.get? fd = some groupAfter →
    groupAfter.buf = groupBefore.buf ∨
      ∃ frame ∈ after.written fd, groupBefore.buf = frame.1.words ++ groupAfter.buf

/-- Exactly one complete line is appended, or nothing. -/
def Reader.AppendsWhole (before after : Reader width) : Prop :=
  after.tinfo.outfile = before.tinfo.outfile ∨
    ∃ line, '\n' ∉ line ∧ after.tinfo.outfile = before.tinfo.outfile ++ (line ++ ['\n'])

/-- The record at the front of the buffer is one that the call reads as a whole. -/
def Reader.FrontIsClean (reader : Reader width) (signal : Signal) : Prop :=
  ∀ group, reader.tinfo.eventGroups.get? signal.fd = some group →
    ∀ header ∈ group.buf.head?, Clean group.numEvents signal.readOutcomes header

/-! ## One call -/

section OneCall

variable {config : Config} {reader next : Reader width} {delivery : Delivery width}

@[simp]
theorem Reader.written_receive_self (reader : Reader width) (delivery : Delivery width) :
    (reader.receive delivery).written delivery.signal.fd =
      reader.written delivery.signal.fd ++ delivery.records :=
  Function.update_self _ _ _

theorem Reader.written_receive_of_ne (reader : Reader width) (delivery : Delivery width) {fd : ℤ}
    (different : fd ≠ delivery.signal.fd) :
    (reader.receive delivery).written fd = reader.written fd :=
  Function.update_of_ne different _ _

theorem Reader.Sized.receive (sized : reader.Sized) (delivery : Delivery width) :
    (reader.receive delivery).Sized := by
  intro fd group isGroup
  rw [Reader.receive, ThreadInfo.get?_deliver] at isGroup
  by_cases here : fd = delivery.signal.fd
  · rw [if_pos here] at isGroup
    obtain ⟨before, isBefore, rfl⟩ := Option.map_eq_some_iff.mp isGroup
    rw [here]
    exact sized _ before isBefore
  · rw [if_neg here] at isGroup
    exact sized fd group isGroup

theorem Reader.InOrder.receive (inOrder : reader.InOrder) (delivery : Delivery width) :
    (reader.receive delivery).InOrder := by
  obtain ⟨aligned, complete⟩ := inOrder
  refine ⟨?_, ?_⟩
  · intro fd group isGroup
    rw [Reader.receive, ThreadInfo.get?_deliver] at isGroup
    by_cases here : fd = delivery.signal.fd
    · subst here
      rw [if_pos rfl] at isGroup
      obtain ⟨before, isBefore, rfl⟩ := Option.map_eq_some_iff.mp isGroup
      rw [Reader.written_receive_self, frameWords, List.map_append]
      exact (aligned _ before isBefore).append _
    · rw [if_neg here] at isGroup
      rw [Reader.written_receive_of_ne _ _ here]
      exact aligned fd group isGroup
  · rw [Reader.receive, ThreadInfo.outfile_deliver]
    exact complete

/-- A reader at a boundary sees the records that are left. -/
theorem Reader.Aligned.front (aligned : reader.Aligned) {fd : ℤ} {group : EventGroup}
    (isGroup : reader.tinfo.eventGroups.get? fd = some group) :
    group.buf = [] ∨ ∃ frame left, frame :: left <:+ reader.written fd ∧
      group.buf = frame.1.words ++ (frameWords left).flatten := by
  obtain ⟨left, wordsSuffix, isBuf⟩ := aligned fd group isGroup
  obtain ⟨frames, framesSuffix, rfl⟩ := List.suffix_map_iff.mp wordsSuffix
  cases frames with
  | nil => exact .inl isBuf
  | cons frame left => exact .inr ⟨frame, left, framesSuffix, isBuf⟩

/-- Whether the order is kept depends on the buffer that was read and on the file. -/
theorem ReadBy.inOrder_iff {received : Reader width} {signal : Signal} {msrs : Msrs}
    {tinfo metered : ThreadInfo} {group : EventGroup} {reading : Reading}
    (readBy : ReadBy config signal received.tinfo tinfo group metered reading)
    (inOrder : received.InOrder) :
    Reader.InOrder (Reader.mk msrs tinfo received.written) ↔
      AtBoundary (frameWords (received.written signal.fd)) reading.buf ∧
        CompleteLines (received.tinfo.outfile ++ reading.text) := by
  rw [Reader.InOrder, ← readBy.outfile]
  refine and_congr_left fun _ => ?_
  constructor
  · intro aligned
    obtain ⟨after, isAfter⟩ := readBy.get?_self
    have isBuf := (readBy.get? isAfter).choose_spec.2.2
    rw [if_pos rfl] at isBuf
    exact isBuf ▸ aligned _ after isAfter
  · intro atBoundary fd after isAfter
    obtain ⟨before, isBefore, -, isBuf⟩ := readBy.get? isAfter
    rw [isBuf]
    split
    · rename_i here
      exact here ▸ atBoundary
    · exact inOrder.1 fd before isBefore

theorem Reader.Sized.call (sized : reader.Sized)
    (called : reader.call config delivery = .ok next) : next.Sized := by
  obtain ⟨⟨msrs, tinfo⟩, counted, finished⟩ := bind_eq_ok_iff.mp called
  cases finished
  obtain ⟨⟨group, metered, reading, readBy⟩, -⟩ := readCounters_cases counted
  intro fd after isAfter
  obtain ⟨before, isBefore, same, -⟩ := readBy.get? isAfter
  exact (congrArg List.length same.2).trans (sized.receive delivery fd before isBefore)

/-- A call keeps a reader in order precisely when it reads its record as a whole. Every call
that keeps the order takes a whole record or nothing, and appends a whole line or nothing. -/
theorem Reader.call_cases (sized : reader.Sized) (inOrder : reader.InOrder)
    (called : reader.call config delivery = .ok next) :
    (next.InOrder ↔ (reader.receive delivery).FrontIsClean delivery.signal) ∧
      ((reader.receive delivery).FrontIsClean delivery.signal →
        (reader.receive delivery).TakesWhole next delivery.signal.fd ∧
          (reader.receive delivery).AppendsWhole next) := by
  replace sized := sized.receive delivery
  replace inOrder := inOrder.receive delivery
  obtain ⟨⟨msrs, tinfo⟩, counted, finished⟩ := bind_eq_ok_iff.mp called
  generalize reader.receive delivery = received at *
  cases finished
  obtain ⟨⟨group, metered, reading, readBy⟩, -⟩ := readCounters_cases counted
  have numEvents := sized _ group readBy.isGroup
  rw [readBy.inOrder_iff inOrder]
  rcases inOrder.1.front readBy.isGroup with isEmpty | ⟨frame, left, isSuffix, front⟩
  · have wasRead := readBy.wasRead
    rw [readRecord, isEmpty] at wasRead
    cases wasRead
  have isClean : received.FrontIsClean delivery.signal ↔
      Clean group.numEvents delivery.signal.readOutcomes frame.1.header := by
    constructor
    · intro clean
      refine clean group readBy.isGroup frame.1.header ?_
      rw [front]
      rfl
    · intro clean other isOther header isHeader
      obtain rfl := Option.some.inj (readBy.isGroup.symm.trans isOther)
      rw [front] at isHeader
      cases isHeader
      exact clean
  rw [isClean]
  have wordsSuffix : frame.1.words :: frameWords left <:+
      frameWords (received.written delivery.signal.fd) :=
    isSuffix.map fun frame : Frame (width delivery.signal.fd) => frame.1.words
  have wellFormed : frame.1.WellFormed group.numEvents := by
    rw [numEvents]
    exact frame.2
  obtain ⟨exact_read, whole⟩ :=
    readRecord_inOrder_iff wordsSuffix inOrder.2 front wellFormed readBy.wasRead
  refine ⟨exact_read, fun clean => ⟨?_, ?_⟩⟩
  · intro before after isBefore isAfter
    obtain rfl := Option.some.inj (readBy.isGroup.symm.trans isBefore)
    obtain ⟨old, -, -, isBuf⟩ := readBy.get? isAfter
    rw [if_pos rfl, (whole clean).1] at isBuf
    rw [isBuf]
    exact .inr ⟨frame, isSuffix.subset List.mem_cons_self, front⟩
  · rcases (whole clean).2 with nothing | ⟨line, oneLine, isLine⟩
    · exact .inl (by rw [readBy.outfile, nothing, List.append_nil])
    · exact .inr ⟨line, oneLine, by rw [readBy.outfile, isLine]⟩

end OneCall

/-! ## Every run -/

/-- Each call of a run takes a whole record or nothing and appends a whole line or nothing,
and the reader is in order all along. -/
def WholeRecords (config : Config) (start : Reader width) (deliveries : List (Delivery width)) :
    Prop :=
  AlongRun (Reader.call config) start deliveries (fun _ reader => reader.InOrder) ∧
    AtEachStep (Reader.call config) start deliveries fun _ reader delivery =>
      ∀ next, reader.call config delivery = .ok next →
        (reader.receive delivery).TakesWhole next delivery.signal.fd ∧
          (reader.receive delivery).AppendsWhole next

/-- A run goes record by record and line by line precisely when every call of it meets a record
that it reads as a whole. -/
theorem wholeRecords_iff_cleanReads (config : Config) {start : Reader width}
    (sized : start.Sized) (inOrder : start.InOrder) (deliveries : List (Delivery width)) :
    WholeRecords config start deliveries ↔
      AtEachStep (Reader.call config) start deliveries fun _ reader delivery =>
        ∀ next, reader.call config delivery = .ok next →
          (reader.receive delivery).FrontIsClean delivery.signal := by
  have along : AlongRun (Reader.call config) start deliveries (fun _ reader => reader.InOrder) ↔
      AtEachStep (Reader.call config) start deliveries fun _ reader delivery =>
        ∀ next, reader.call config delivery = .ok next →
          (reader.receive delivery).FrontIsClean delivery.signal :=
    @alongRun_iff_atEachStep _ _ _ _ _ _ (fun _ reader => reader.Sized) _ _ sized inOrder
      (fun _ _ _ _ sized _ called => sized.call called)
      (fun _ _ _ _ sized inOrder called => (Reader.call_cases sized inOrder called).1)
  constructor
  · exact fun whole => along.mp whole.1
  · intro clean
    refine ⟨along.mpr clean, ?_⟩
    intro early delivery isPrefix reader reached next called
    have shorter : early <+: deliveries := (List.prefix_append early [delivery]).trans isPrefix
    have isSized : reader.Sized :=
      run_invariant (fun _ _ _ sized called => sized.call called) sized reached
    exact (Reader.call_cases isSized (along.mpr clean early shorter reader reached) called).2
      (clean early delivery isPrefix reader reached next called)

/-! ## A record of lost samples -/

/-- A group of three events with an empty buffer. -/
def quietGroup : EventGroup where
  tid := 101
  fd := 3
  fds := [⟨"UNHALTED_REFERENCE_CYCLES".toList, 3⟩, ⟨"INST_RETIRED".toList, 4⟩,
    ⟨"CPU_CLK_UNHALTED".toList, 5⟩]
  leads := rfl
  buf := []
  timeMult := 1
  timeShift := 0
  refreshBudget := none

/-- A run with the second thread of two. -/
def pairConfig : Config where
  machine := interleavedMachine
  plan := twelveWayPlan
  numPhases := 5500
  mrcEstMode := true
  mrcProfileInterval := 500
  numProfiledThreads := 2
  toInterpolation := noInterpolation

/-- The second thread with that group, before its first signal. -/
def quietReader : Reader fun _ => 3 where
  msrs := fun _ _ => 0
  tinfo := { secondThread with eventGroups := Dict.empty.insert 3 quietGroup }
  written := fun _ => []

/-- The kernel reports that samples were lost: a type that the profiler does not expect, with
two words after its header. -/
def lostRecord : Frame 3 :=
  ⟨⟨0x18000000000002, [7, 1]⟩, by decide, by decide, by decide⟩

/-- A signal while the monitoring counters stand still. -/
def stillSignal : Signal := ⟨3, fun _ _ => 0, fun _ _ => 0, fun _ _ => 0, [], false⟩

theorem sized_quietReader : quietReader.Sized := by
  intro fd group isGroup
  rw [quietReader, Dict.get?_insert] at isGroup
  split at isGroup
  · cases isGroup
    rfl
  · cases isGroup

theorem inOrder_quietReader : quietReader.InOrder := by
  refine ⟨?_, [], by simp, rfl⟩
  intro fd group isGroup
  rw [quietReader, Dict.get?_insert] at isGroup
  split at isGroup
  · cases isGroup
    exact atBoundary_start []
  · cases isGroup

/-- The header of the lost record is consumed, its body is not. -/
theorem lost_record_breaks_order :
    quietReader.Sized ∧ quietReader.InOrder ∧
      ¬ WholeRecords pairConfig quietReader [⟨stillSignal, [lostRecord]⟩] := by
  refine ⟨sized_quietReader, inOrder_quietReader, fun whole => ?_⟩
  obtain ⟨next, called⟩ : ∃ next, quietReader.call pairConfig ⟨stillSignal, [lostRecord]⟩ =
    .ok next := ⟨_, rfl⟩
  have inOrder := whole.1 [⟨stillSignal, [lostRecord]⟩] (List.prefix_refl _) next
    (run_cons_of_ok called [])
  have clean := (Reader.call_cases sized_quietReader inOrder_quietReader called).1.mp inOrder
  have isClean : Clean 3 [] lostRecord.1.header := clean _ rfl _ rfl
  rw [Clean, if_neg (by decide)] at isClean
  exact absurd isClean (by decide)

/-- The exact condition, applied to that run. -/
theorem lostRecord_whole_iff :
    WholeRecords pairConfig quietReader [⟨stillSignal, [lostRecord]⟩] ↔
      AtEachStep (Reader.call pairConfig) quietReader [⟨stillSignal, [lostRecord]⟩]
        fun _ reader delivery => ∀ next, reader.call pairConfig delivery = .ok next →
          (reader.receive delivery).FrontIsClean delivery.signal :=
  wholeRecords_iff_cleanReads pairConfig sized_quietReader inOrder_quietReader _

end Datamime.Profiler
