/-
# The counters of a sample

A sample takes differences of three counters: between what was read last and what was remembered
last. A signal remembers first and reads last, and either may fail to happen: the first phase of
a thread has nothing to remember, and a read may end before it comes to a counter. This module
says which signals read a counter and which remember it, and that nothing else changes the two
values.
-/

import Datamime.Profiler.IndexRanges

namespace Datamime.Profiler

open Datamime.Math Datamime.Hardware

/-! ## Reading and remembering -/

/-- The counters that a sample takes a difference of. -/
inductive SampledCounter
  | instructions
  | cycles
  | memTraffic

/-- Where a record lists the counter. The traffic is not in the record. -/
def SampledCounter.position : SampledCounter → Option ℕ
  | .instructions => some 1
  | .cycles => some 2
  | .memTraffic => none

/-- What was read last of the counter. -/
def SampledCounter.current (tinfo : ThreadInfo) : SampledCounter → Word
  | .instructions => tinfo.values.getD 1 0
  | .cycles => tinfo.values.getD 2 0
  | .memTraffic => BitVec.ofInt 64 tinfo.memTrafficTotal

/-- What was remembered last of the counter. -/
def SampledCounter.last (tinfo : ThreadInfo) : SampledCounter → Word
  | .instructions => tinfo.lastInstrCtr
  | .cycles => tinfo.lastCyclesCtr
  | .memTraffic => tinfo.lastMemTrafficCtr

/-- The reads of the record at the front of a buffer come to the counter at a position. -/
def ReadsValue (i numEvents : ℕ) (buf : List Word) (outcomes : List Bool) : Prop :=
  ∃ header rest, buf = header :: rest ∧ headerType header = PERF_RECORD_SAMPLE ∧
    infoWords + i < rest.length ∧ i < (BitVec.ofNat 64 numEvents).toNat ∧
    AllSucceed outcomes (i + 3)

/-- The event reads the counter. Every signal reads the traffic. -/
def ReadsAt (counter : SampledCounter) (st : State) : Event → Prop
  | .wait _ => False
  | .phase words signal => ∃ group, st.groupOf signal.fd = some group ∧
      ∀ i, counter.position = some i →
        ReadsValue i group.numEvents (group.buf ++ words) signal.readOutcomes

/-- The event remembers what was read last, before it reads. -/
def RemembersAt (config : Config) (st : State) (event : Event) : Prop :=
  ∃ tinfo, st.phaseOf event = some tinfo ∧ NeedsValues config st.monitor tinfo

section

variable {config : Config} {monitor next : Monitor} {tinfo after : ThreadInfo}

theorem current_congr (sameValues : after.values = tinfo.values)
    (sameTraffic : after.memTrafficTotal = tinfo.memTrafficTotal) (counter : SampledCounter) :
    SampledCounter.current after counter = SampledCounter.current tinfo counter := by
  cases counter with
  | instructions => exact congrArg (·.getD 1 0) sameValues
  | cycles => exact congrArg (·.getD 2 0) sameValues
  | memTraffic => exact congrArg (BitVec.ofInt 64) sameTraffic

theorem last_remembered (tinfo : ThreadInfo) (counter : SampledCounter) :
    SampledCounter.last tinfo.remembered counter = SampledCounter.current tinfo counter := by
  cases counter <;> rfl

/-- A sample does not touch what is remembered. -/
theorem Collected.last_eq (stored : Collected config monitor tinfo next after)
    (counter : SampledCounter) :
    SampledCounter.last after.remembered counter = SampledCounter.current tinfo counter := by
  cases stored <;> exact last_remembered tinfo counter

theorem MonitorStep.last_of_needs (step : MonitorStep config monitor tinfo next after)
    (needs : NeedsValues config monitor tinfo) (counter : SampledCounter) :
    SampledCounter.last after counter = SampledCounter.current tinfo counter := by
  cases step with
  | idles closed goesOn after saved =>
      rcases saved with ⟨rfl, -⟩ | ⟨rfl, early⟩
      · exact last_remembered tinfo counter
      · rcases needs with isOpen | late | invokes
        · rw [closed] at isOpen
          cases isOpen
        · exact absurd early (Nat.not_le.mpr late)
        · exact absurd invokes goesOn
  | passes invokes opensNone read => exact last_remembered tinfo counter
  | opens opensRound read slice next installed => exact last_remembered tinfo counter
  | waits samples read position next sampled stored noTurn => exact stored.last_eq counter
  | advances collects read position more slice next installed =>
      exact (Collected.collected collects.2.2).last_eq counter
  | finishes collects read all logged next isLogged ended estimated estimates =>
      obtain ⟨-, -, -, -, -, -, -, -, -, -, -, -, rfl⟩ := estimates.points
      exact (Collected.collected collects.2.2).last_eq counter

end

/-! ## What a read saves -/

section

variable {config : Config} {signal : Signal} {tinfo next metered : ThreadInfo}
  {group : EventGroup} {reading : Reading}

theorem getD_set_of_lt {values : List Word} {i : ℕ} (inside : i < values.length) (word : Word) :
    (values.set i word).getD i 0 = word := by
  rw [List.getD_eq_getElem?_getD, List.getElem?_set_self inside, Option.getD_some]

theorem getD_set_of_ne {values : List Word} {i j : ℕ} (different : i ≠ j) (word : Word) :
    (values.set i word).getD j 0 = values.getD j 0 := by
  rw [List.getD_eq_getElem?_getD, List.getElem?_set_ne different, ← List.getD_eq_getElem?_getD]

/-- The loop has passed the positions before its start. -/
theorem getD_readValues_of_lt {remaining i j : ℕ} (passed : j < i) (cursor : Cursor)
    (values : List Word) (text : List Char) :
    (readValues remaining i cursor values text).2.2.1.getD j 0 = values.getD j 0 := by
  induction remaining generalizing i cursor values text with
  | zero => rfl
  | succ remaining ih =>
      rw [readValues]
      split
      · rfl
      · rw [ih (Nat.lt_succ_of_lt passed)]
        split
        · exact getD_set_of_ne passed.ne' _
        · rfl

/-- A value that the loop comes to is saved. -/
theorem getD_readValues {remaining i j k : ℕ} (isPosition : j = i + k) {cursor : Cursor}
    {values : List Word} (text : List Char) (inside : k < remaining)
    (stored : k < cursor.buf.length) (succeed : AllSucceed cursor.outcomes (k + 1))
    (isFixed : j < numFixedEvents) (there : j < values.length) :
    (readValues remaining i cursor values text).2.2.1.getD j 0 = cursor.buf.getD k 0 := by
  induction remaining generalizing i k cursor values text with
  | zero => cases inside
  | succ remaining ih =>
      obtain ⟨buf, outcomes⟩ := cursor
      cases buf with
      | nil => cases stored
      | cons word rest =>
          obtain ⟨first, later⟩ := allSucceed_succ.mp succeed
          have starts : i < numFixedEvents := by omega
          rw [readValues, perfReadBuffer64, if_pos first]
          dsimp only
          rw [if_pos starts]
          cases k with
          | zero =>
              rw [getD_readValues_of_lt (by omega), isPosition, Nat.add_zero,
                getD_set_of_lt (by omega)]
              rfl
          | succ k =>
              have next : j = i + 1 + k := by omega
              exact ih next _ (Nat.lt_of_succ_lt_succ inside) (Nat.lt_of_succ_lt_succ stored)
                later (by rwa [List.length_set])

/-- A value that the loop does not come to is kept. -/
theorem getD_readValues_of_not {remaining i j k : ℕ} (isPosition : j = i + k) {cursor : Cursor}
    (values : List Word) (text : List Char)
    (unread : ¬ (k < remaining ∧ k < cursor.buf.length ∧ AllSucceed cursor.outcomes (k + 1))) :
    (readValues remaining i cursor values text).2.2.1.getD j 0 = values.getD j 0 := by
  induction remaining generalizing i k cursor values text with
  | zero => rfl
  | succ remaining ih =>
      obtain ⟨buf, outcomes⟩ := cursor
      cases buf with
      | nil => rfl
      | cons word rest =>
          rw [readValues, perfReadBuffer64]
          by_cases first : outcomes.headD true = true
          · rw [if_pos first]
            dsimp only
            cases k with
            | zero =>
                refine absurd
                  ⟨Nat.succ_pos _, Nat.succ_pos _, allSucceed_succ.mpr ⟨first, ?_⟩⟩ unread
                simp [AllSucceed]
            | succ k =>
                have next : j = i + 1 + k := by omega
                rw [ih next]
                · split
                  · exact getD_set_of_ne (by omega) _
                  · rfl
                · rintro ⟨inside, stored, succeed⟩
                  exact unread ⟨Nat.succ_lt_succ inside, Nat.succ_lt_succ stored,
                    allSucceed_succ.mpr ⟨first, succeed⟩⟩
          · rw [if_neg first]

theorem getD_resizeValues (values : List Word) (i : ℕ) :
    (resizeValues values).getD i 0 = values.getD i 0 := by
  rw [resizeValues, List.getD_eq_getElem?_getD, List.getD_eq_getElem?_getD]
  by_cases inside : i < values.length
  · rw [List.getElem?_append_left inside]
  · rw [List.getElem?_append_right (Nat.not_lt.mp inside), List.getElem?_replicate,
      List.getElem?_eq_none (Nat.not_lt.mp inside)]
    split <;> rfl

theorem readsValue_cons_iff {i numEvents : ℕ} {header : Word} {rest : List Word}
    {outcomes : List Bool} :
    ReadsValue i numEvents (header :: rest) outcomes ↔
      (headerType header = PERF_RECORD_SAMPLE ∧ outcomes.headD true = true) ∧
        (infoWords ≤ rest.length ∧ outcomes.tail.headD true = true) ∧
          i < (BitVec.ofNat 64 numEvents).toNat ∧ i < (rest.drop infoWords).length ∧
            AllSucceed outcomes.tail.tail (i + 1) := by
  rw [ReadsValue, List.length_drop, allSucceed_succ, allSucceed_succ]
  constructor
  · rintro ⟨_, _, isBuf, isSample, stored, listed, first, second, later⟩
    obtain ⟨rfl, rfl⟩ := List.cons.inj isBuf
    exact ⟨⟨isSample, first⟩, ⟨by omega, second⟩, listed, by omega, later⟩
  · rintro ⟨⟨isSample, first⟩, ⟨enough, second⟩, listed, stored, later⟩
    exact ⟨header, rest, rfl, isSample, by omega, listed, first, second, later⟩

/-- A counter whose read the reads of a record come to is saved. Any other one is kept. -/
theorem getD_values_of_readRecord {outcomes : List Bool} {i : ℕ} (isFixed : i < numFixedEvents)
    (wasRead : readRecord group tinfo outcomes = .ok reading) :
    (ReadsValue i group.numEvents group.buf outcomes →
        reading.values.getD i 0 = group.buf.getD (i + infoWords + 1) 0) ∧
      (¬ ReadsValue i group.numEvents group.buf outcomes →
        reading.values.getD i 0 = tinfo.values.getD i 0) := by
  cases isBuf : group.buf with
  | nil =>
      rw [readRecord, isBuf] at wasRead
      cases wasRead
  | cons header rest =>
      rw [readsValue_cons_iff]
      rw [readRecord, isBuf, perfReadBuffer64] at wasRead
      by_cases first : outcomes.headD true = true
      · rw [if_pos first] at wasRead
        dsimp only at wasRead
        by_cases isSample : headerType header = PERF_RECORD_SAMPLE
        · rw [if_pos isSample, readSample, perfReadBuffer] at wasRead
          by_cases info : outcomes.tail.headD true = true ∧ infoWords ≤ rest.length
          · rw [if_pos info] at wasRead
            obtain ⟨text, saved⟩ : ∃ text, reading.values =
                (readValues (BitVec.ofNat 64 group.numEvents).toNat 0
                  ⟨rest.drop infoWords, outcomes.tail.tail⟩ (resizeValues tinfo.values)
                  text).2.2.1 := by
              dsimp only at wasRead
              split at wasRead
              · rename_i isCount
                split at wasRead
                · cases wasRead
                · split at wasRead <;>
                  · rename_i result
                    have same := congrArg (fun loop => loop.2.2.1) result
                    rw [isCount] at same
                    cases wasRead
                    exact ⟨_, same.symm⟩
              · cases wasRead
            have three := (length_resizeValues tinfo.values).2
            rw [saved]
            constructor
            · rintro ⟨-, -, listed, stored, later⟩
              rw [getD_readValues (Nat.zero_add i).symm text listed stored later isFixed
                (lt_of_lt_of_le isFixed three), List.getD_cons_succ, List.getD_eq_getElem?_getD,
                List.getD_eq_getElem?_getD, List.getElem?_drop, Nat.add_comm i]
            · intro unread
              rw [getD_readValues_of_not (Nat.zero_add i).symm, getD_resizeValues]
              rintro ⟨listed, stored, later⟩
              exact unread ⟨⟨isSample, first⟩, info.symm, listed, stored, later⟩
          · rw [if_neg info] at wasRead
            cases wasRead
            exact ⟨fun reads => absurd ⟨reads.2.1.2, reads.2.1.1⟩ info, fun _ => rfl⟩
        · rw [if_neg isSample] at wasRead
          cases wasRead
          exact ⟨fun reads => absurd reads.1.1 isSample, fun _ => rfl⟩
      · rw [if_neg first] at wasRead
        cases wasRead

theorem ReadBy.values_eq (readBy : ReadBy config signal tinfo next group metered reading) :
    next.values = reading.values := by
  obtain ⟨-, -, -, ends⟩ := readBy
  split at ends
  · rcases switchGroup_cases ends with ⟨-, rfl⟩ | ⟨-, -, -, rfl⟩ <;> rfl
  · rw [ends]
    rfl

theorem position_lt {counter : SampledCounter} {i : ℕ} (isPosition : counter.position = some i) :
    i < numFixedEvents := by
  cases counter <;> cases isPosition <;> decide

theorem current_of_position {counter : SampledCounter} {i : ℕ}
    (isPosition : counter.position = some i) (tinfo : ThreadInfo) :
    SampledCounter.current tinfo counter = tinfo.values.getD i 0 := by
  cases counter <;> cases isPosition <;> rfl

/-- A call saves the counters that it comes to, as the record lists them, and no others. -/
theorem ReadBy.current (readBy : ReadBy config signal tinfo next group metered reading)
    {counter : SampledCounter} {i : ℕ} (isPosition : counter.position = some i) :
    (ReadsValue i group.numEvents group.buf signal.readOutcomes →
        SampledCounter.current next counter = group.buf.getD (i + infoWords + 1) 0) ∧
      (¬ ReadsValue i group.numEvents group.buf signal.readOutcomes →
        SampledCounter.current next counter = SampledCounter.current tinfo counter) := by
  obtain ⟨total, last, occupancy, isMetered⟩ := readBy.isMetered
  have sameValues : metered.values = tinfo.values := by rw [isMetered]; rfl
  have saved := getD_values_of_readRecord (position_lt isPosition) readBy.wasRead
  rw [current_of_position isPosition, current_of_position isPosition, readBy.values_eq]
  rw [sameValues] at saved
  exact saved

end

section

variable {config : Config} {st next : State} {words : List Word} {signal : Signal}
  {before : ThreadInfo} {group counted : EventGroup} {monitor : Monitor}
  {sampled after : ThreadInfo}

theorem readsAt_iff {counter : SampledCounter} (isGroup : st.groupOf signal.fd = some group) :
    ReadsAt counter st (.phase words signal) ↔ ∀ i, counter.position = some i →
      ReadsValue i group.numEvents (group.buf ++ words) signal.readOutcomes := by
  constructor
  · rintro ⟨_, isSame, reads⟩
    cases isGroup.symm.trans isSame
    exact reads
  · exact fun reads => ⟨group, isGroup, reads⟩

/-- A counter changes only with an event that reads it. -/
theorem Served.current_of_not
    (served : Served config st words signal before group counted monitor sampled after next)
    {counter : SampledCounter} (unread : ¬ ReadsAt counter st (.phase words signal)) :
    SampledCounter.current after counter = SampledCounter.current before counter := by
  obtain ⟨metered, reading, readBy⟩ := served.readBy
  have monitored := served.monitored.sameReading
  rw [readsAt_iff served.groupOf] at unread
  obtain ⟨i, unread⟩ := not_forall.mp unread
  obtain ⟨isPosition, unread⟩ := Classical.not_imp.mp unread
  rw [← (buf_overflow served.isCounted).2] at unread
  rw [(readBy.current isPosition).2 unread]
  exact current_congr monitored.values monitored.memTrafficTotal counter

/-- An event that reads a counter of the record takes it from there. -/
theorem Served.current_of_reads
    (served : Served config st words signal before group counted monitor sampled after next)
    {counter : SampledCounter} {i : ℕ} (isPosition : counter.position = some i)
    (reads : ReadsAt counter st (.phase words signal)) :
    SampledCounter.current after counter = (group.buf ++ words).getD (i + infoWords + 1) 0 := by
  obtain ⟨metered, reading, readBy⟩ := served.readBy
  have reads := (readsAt_iff served.groupOf).mp reads i isPosition
  rw [← (buf_overflow served.isCounted).2] at reads
  exact (readBy.current isPosition).1 reads

/-- An event that remembers a counter remembers what was read before it. -/
theorem Served.last_of_remembers
    (served : Served config st words signal before group counted monitor sampled after next)
    (remembers : RemembersAt config st (.phase words signal)) (counter : SampledCounter) :
    SampledCounter.last after counter = SampledCounter.current before counter := by
  obtain ⟨metered, reading, readBy⟩ := served.readBy
  obtain ⟨tinfo, isPhase, needs⟩ := remembers
  cases served.phaseOf.symm.trans isPhase
  have same := readBy.sameSampling
  have sameLast : SampledCounter.last after counter = SampledCounter.last sampled counter := by
    cases counter with
    | instructions => exact same.lastInstrCtr
    | cycles => exact same.lastCyclesCtr
    | memTraffic => exact same.lastMemTrafficCtr
  exact sameLast.trans (served.monitored.last_of_needs needs counter)

end

end Datamime.Profiler
