/-
# Memory traffic

The local memory traffic of a thread is accumulated from a 24-bit hardware counter.
An update reads that counter twice: once for the increase since the last update and
once more for the value that the next update will start from. What the counter
gains between the two reads is never added.
-/

import Datamime.Math.Run
import Datamime.Math.WrapCounter
import Datamime.Profiler.Setup

namespace Datamime.Profiler

open Datamime.Math Datamime.Hardware

/-- `getMemTrafficDelta`. -/
def getMemTrafficDelta (machine : Machine) (counters : QmCounters) (msrs : Msrs) (rmid : ℕ)
    (memTrafficLast : ℤ) : Except Fault (Msrs × ℤ) := do
  let (msrs, memTraffic) ← getLocalMemTraffic machine counters msrs rmid
  -- Detect overflow
  if memTraffic < memTrafficLast then
    return (msrs, (getMemTrafficMax machine - memTrafficLast) + memTraffic)
  else return (msrs, memTraffic - memTrafficLast)

/-- `updateMemTraffic`, with the counters at its two reads. -/
def updateMemTraffic (machine : Machine) (first second : QmCounters) (msrs : Msrs)
    (tinfo : ThreadInfo) : Except Fault (Msrs × ThreadInfo) := do
  let (msrs, delta) ← getMemTrafficDelta machine first msrs tinfo.rmid tinfo.memTrafficLast
  let (msrs, memTrafficLast) ← getLocalMemTraffic machine second msrs tinfo.rmid
  return (msrs, { tinfo with
    memTrafficTotal := tinfo.memTrafficTotal + delta
    memTrafficLast := memTrafficLast })

/-- `updateCacheOccupancy`. -/
def updateCacheOccupancy (machine : Machine) (counters : QmCounters) (msrs : Msrs)
    (tinfo : ThreadInfo) : Except Fault (Msrs × ThreadInfo) := do
  let (msrs, occupancy) ← getLlcOccupancy machine counters msrs tinfo.rmid
  return (msrs, { tinfo with avgCacheOccupancy := occupancy })

/-- `initCmt`. -/
def initCmt (machine : Machine) (counters : QmCounters) (msrs : Msrs) (tinfo : ThreadInfo) :
    Except Fault (Msrs × ThreadInfo) := do
  let msrs ← tinfo.cores.foldlM (fun msrs core => setRmid machine msrs core tinfo.rmid) msrs
  let (msrs, memTrafficLast) ← getLocalMemTraffic machine counters msrs tinfo.rmid
  return (msrs, { tinfo with
    memTrafficLast := memTrafficLast
    memTrafficTotal := 0
    avgCacheOccupancy := 0 })

/-! ## Conservation of traffic -/

/-- The counters while the traffic of an id stands at a total: the hardware shows its
lowest 24 bits. -/
def showing (others : QmCounters) (rmid total : ℕ) : QmCounters := fun id event =>
  if id = rmid % 2 ^ 10 ∧ event = LOCAL_MEM_BW then BitVec.ofNat 64 (total % 2 ^ 24)
  else others id event

/-- What the hardware does around one update: the traffic before its first read and
between its two reads, and whatever the other counters show. -/
structure Traffic where
  before : ℕ
  between : ℕ
  others : QmCounters

/-- A thread, the registers and the true traffic so far, in units of the counter. -/
structure Meter where
  tinfo : ThreadInfo
  msrs : Msrs
  total : ℕ

/-- One update while traffic goes on. -/
def meter (machine : Machine) (st : Meter) (traffic : Traffic) : Except Fault Meter := do
  let atFirst := st.total + traffic.before
  let atSecond := atFirst + traffic.between
  let (msrs, tinfo) ← updateMemTraffic machine
    (showing traffic.others st.tinfo.rmid atFirst) (showing traffic.others st.tinfo.rmid atSecond)
    st.msrs st.tinfo
  return ⟨tinfo, msrs, atSecond⟩

/-- The traffic of an update that no total ever contains: full turns of the counter
before the first read, and everything between the two reads. -/
def Traffic.lost (traffic : Traffic) : ℕ :=
  traffic.before - traffic.before % 2 ^ 24 + traffic.between

theorem Traffic.lost_eq_zero_iff (traffic : Traffic) :
    traffic.lost = 0 ↔ traffic.between = 0 ∧ traffic.before < 2 ^ 24 := by
  rw [Traffic.lost, ← mod_eq_self_iff (by decide : 0 < 2 ^ 24)]
  have bounded := Nat.mod_le traffic.before (2 ^ 24)
  omega

variable {machine : Machine}

/-- A read returns the scaled lowest 24 bits of the traffic. -/
theorem getLocalMemTraffic_showing (online : 0 < machine.numCores) (others : QmCounters)
    (msrs : Msrs) (rmid total : ℕ) :
    getLocalMemTraffic machine (showing others rmid total) msrs rmid =
      .ok (msrs.set 0 .qmEvtsel (selection (msrs 0 .qmEvtsel) rmid LOCAL_MEM_BW),
        (machine.cmtMultiplier * (total % 2 ^ 24) : ℕ)) := by
  have shown : showing others rmid total (rmid % 2 ^ 10) (LOCAL_MEM_BW % 2 ^ 8) =
      BitVec.ofNat 64 (total % 2 ^ 24) := by
    rw [showing, if_pos ⟨rfl, by decide⟩]
  have small : total % 2 ^ 24 < 2 ^ 24 := Nat.mod_lt _ (by decide)
  have clear : ∀ bit, 24 ≤ bit → (total % 2 ^ 24).testBit bit = false := fun bit high =>
    Nat.testBit_lt_two_pow (lt_of_lt_of_le small (Nat.pow_le_pow_right (by decide) high))
  rw [getLocalMemTraffic, readQmCtr_eq_ok_iff, shown]
  refine ⟨online, ?_, ?_, ?_⟩
  · rw [BitVec.getLsbD_ofNat, clear 63 (by decide), Bool.and_false]
  · rw [BitVec.getLsbD_ofNat, clear 62 (by decide), Bool.and_false]
  · rw [BitVec.toNat_ofNat, Nat.mod_eq_of_lt (small.trans (by decide))]
    push_cast
    rw [mul_comm]

/-- The totals of a thread account for all traffic but what the updates lost. -/
structure Conserves (machine : Machine) (start lost : ℕ) (st : Meter) : Prop where
  ordered : start + lost ≤ st.total
  last : st.tinfo.memTrafficLast = (machine.cmtMultiplier * (st.total % 2 ^ 24) : ℕ)
  total : st.tinfo.memTrafficTotal = (machine.cmtMultiplier * (st.total - start - lost) : ℕ)

/-- One update loses what its hardware reads miss, and nothing else. -/
theorem conserves_meter (online : 0 < machine.numCores) {start lost : ℕ} {st : Meter}
    (conserves : Conserves machine start lost st) (traffic : Traffic) :
    ∃ next, meter machine st traffic = .ok next ∧
      Conserves machine start (lost + traffic.lost) next := by
  obtain ⟨ordered, last, total⟩ := conserves
  have bounded := Nat.mod_le traffic.before (2 ^ 24)
  have delta : ∀ msrs : Msrs, getMemTrafficDelta machine
      (showing traffic.others st.tinfo.rmid (st.total + traffic.before)) msrs st.tinfo.rmid
      st.tinfo.memTrafficLast =
      .ok (msrs.set 0 .qmEvtsel (selection (msrs 0 .qmEvtsel) st.tinfo.rmid LOCAL_MEM_BW),
        (machine.cmtMultiplier * (traffic.before % 2 ^ 24) : ℕ)) := by
    intro msrs
    have recovered := wrapDelta_eq_mod (by decide : 0 < 2 ^ 24) machine.cmtMultiplier st.total
      traffic.before
    rw [getMemTrafficDelta, getLocalMemTraffic_showing online, ok_bind, last, ← recovered,
      wrapDelta, getMemTrafficMax]
    dsimp only
    split <;> simp [pure, Except.pure]
  obtain ⟨next, stepped, nextTotal, nextLast, nextTraffic⟩ : ∃ next,
      meter machine st traffic = .ok next ∧
        next.total = st.total + traffic.before + traffic.between ∧
        next.tinfo.memTrafficLast = (machine.cmtMultiplier * (next.total % 2 ^ 24) : ℕ) ∧
        next.tinfo.memTrafficTotal = st.tinfo.memTrafficTotal +
          (machine.cmtMultiplier * (traffic.before % 2 ^ 24) : ℕ) := by
    rw [meter, updateMemTraffic, delta, ok_bind]
    dsimp only
    rw [getLocalMemTraffic_showing online]
    exact ⟨_, rfl, rfl, rfl, rfl⟩
  refine ⟨next, stepped, ?_, nextLast, ?_⟩
  · rw [Traffic.lost, nextTotal]
    omega
  · rw [nextTraffic, total, nextTotal, Traffic.lost, ← Nat.cast_add, ← Nat.mul_add]
    congr 2
    omega

theorem conserves_run (online : 0 < machine.numCores) {start lost : ℕ} {st : Meter}
    (conserves : Conserves machine start lost st) (updates : List Traffic) :
    ∃ last, run (meter machine) st updates = .ok last ∧
      Conserves machine start (lost + (updates.map Traffic.lost).sum) last := by
  induction updates generalizing st lost with
  | nil => exact ⟨st, rfl, by simpa using conserves⟩
  | cons traffic rest ih =>
      obtain ⟨next, stepped, nextConserves⟩ := conserves_meter online conserves traffic
      obtain ⟨last, reached, lastConserves⟩ := ih nextConserves
      refine ⟨last, by rw [run_cons_of_ok stepped, reached], ?_⟩
      rwa [List.map_cons, List.sum_cons, ← Nat.add_assoc]

/-- After `initCmt` nothing is lost yet. -/
theorem conserves_initCmt {others : QmCounters} {msrs : Msrs} {tinfo : ThreadInfo} {start : ℕ}
    {ready : Msrs × ThreadInfo}
    (initialised : initCmt machine (showing others tinfo.rmid start) msrs tinfo = .ok ready) :
    0 < machine.numCores ∧ Conserves machine start 0 ⟨ready.2, ready.1, start⟩ := by
  obtain ⟨assigned, -, initialised⟩ := bind_eq_ok_iff.mp initialised
  obtain ⟨reading, found, initialised⟩ := bind_eq_ok_iff.mp initialised
  have online : 0 < machine.numCores := (readQmCtr_eq_ok_iff.mp found).1
  rw [getLocalMemTraffic_showing online] at found
  cases found
  cases initialised
  exact ⟨online, by simp, rfl, by simp⟩

/-- After any number of updates the total of a thread is its true traffic in bytes since
`initCmt`, precisely if no update found traffic between its two reads or a full turn of
the counter before the first one. -/
theorem memTrafficTotal_eq_traffic_iff (positive : 0 < machine.cmtMultiplier)
    {others : QmCounters} {msrs : Msrs} {tinfo : ThreadInfo} {start : ℕ}
    {ready : Msrs × ThreadInfo}
    (initialised : initCmt machine (showing others tinfo.rmid start) msrs tinfo = .ok ready)
    (updates : List Traffic) :
    ∃ last, run (meter machine) ⟨ready.2, ready.1, start⟩ updates = .ok last ∧
      (last.tinfo.memTrafficTotal = (machine.cmtMultiplier : ℤ) * (last.total - start) ↔
        ∀ traffic ∈ updates, traffic.between = 0 ∧ traffic.before < 2 ^ 24) := by
  obtain ⟨online, conserves⟩ := conserves_initCmt initialised
  obtain ⟨last, reached, ordered, -, total⟩ := conserves_run online conserves updates
  refine ⟨last, reached, ?_⟩
  rw [Nat.zero_add] at ordered total
  have nothingLost : (∀ traffic ∈ updates, traffic.between = 0 ∧ traffic.before < 2 ^ 24) ↔
      (updates.map Traffic.lost).sum = 0 := by
    rw [List.sum_eq_zero_iff]
    simp only [List.mem_map, forall_exists_index, and_imp, forall_apply_eq_imp_iff₂,
      Traffic.lost_eq_zero_iff]
  rw [nothingLost, total]
  generalize (updates.map Traffic.lost).sum = lost at *
  have exactly : ((last.total : ℤ) - start) = (last.total - start : ℕ) := by omega
  rw [exactly, ← Nat.cast_mul, Nat.cast_inj, Nat.mul_right_inj positive.ne']
  omega

/-! ## Traffic between the two reads -/

theorem exists_initCmt_secondThread :
    ∃ ready, initCmt interleavedMachine (showing (fun _ _ => 0) secondThread.rmid 0)
      (fun _ _ => 0) secondThread = .ok ready := ⟨_, rfl⟩

/-- Fifteen units of traffic pass, ten before the first read of the update and five between
its two reads. The total is ten. -/
theorem traffic_between_reads_lost :
    ∃ ready last, initCmt interleavedMachine (showing (fun _ _ => 0) secondThread.rmid 0)
        (fun _ _ => 0) secondThread = .ok ready ∧
      run (meter interleavedMachine) ⟨ready.2, ready.1, 0⟩ [⟨10, 5, fun _ _ => 0⟩] = .ok last ∧
      last.total = 15 ∧ last.tinfo.memTrafficTotal = 10 :=
  ⟨_, _, rfl, rfl, rfl, rfl⟩

/-- The exact condition, applied to that update. -/
theorem secondThread_traffic_iff :
    ∃ ready : Msrs × ThreadInfo, ∃ last,
      run (meter interleavedMachine) ⟨ready.2, ready.1, 0⟩ [⟨10, 5, fun _ _ => 0⟩] = .ok last ∧
      (last.tinfo.memTrafficTotal =
          (interleavedMachine.cmtMultiplier : ℤ) * (last.total - (0 : ℕ)) ↔
        ∀ traffic ∈ ([⟨10, 5, fun _ _ => 0⟩] : List Traffic),
          traffic.between = 0 ∧ traffic.before < 2 ^ 24) := by
  obtain ⟨ready, initialised⟩ := exists_initCmt_secondThread
  exact ⟨ready, memTrafficTotal_eq_traffic_iff (by decide) initialised _⟩

end Datamime.Profiler
