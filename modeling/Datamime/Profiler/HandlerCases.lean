/-
# What a signal can do

The handler is described once by what one signal can do to the monitor and to the
thread: it leaves the monitor alone, opens a round, records a failed sample or a sample
out of turn, goes on to the next slice, or ends the turn of its thread. Everything that
is proved about runs rests on these cases. Beside them stands what a signal leaves
unchanged.
-/

import Datamime.Profiler.System

namespace Datamime.Profiler

open Datamime.Math Datamime.Hardware

/-! ## Remembered counters -/

/-- A thread that has remembered its counters. -/
def ThreadInfo.remembered (tinfo : ThreadInfo) : ThreadInfo :=
  { tinfo with
    lastCyclesCtr := tinfo.values.getD 2 0
    lastInstrCtr := tinfo.values.getD 1 0
    lastMemTrafficCtr := BitVec.ofInt 64 tinfo.memTrafficTotal }

theorem index_values_eq_ok_iff {values : List Word} {i : ℕ} {word : Word} :
    index .values values i = .ok word ↔ i < values.length ∧ word = values.getD i 0 := by
  rw [index_eq_ok_iff, Int.toNat_natCast, List.getD_eq_getElem?_getD]
  by_cases inside : i < values.length
  · simp [inside, eq_comm]
  · simp [inside]

variable {config : Config} {monitor : Monitor} {tinfo : ThreadInfo}

/-- Remembering the counters takes a read that saved them. -/
theorem saveCounters_eq_ok_iff {next : ThreadInfo} :
    tinfo.saveCounters = .ok next ↔ 3 ≤ tinfo.values.length ∧ next = tinfo.remembered := by
  simp only [ThreadInfo.saveCounters, bind_eq_ok_iff]
  constructor
  · rintro ⟨cycles, isCycles, instr, isInstr, returned⟩
    obtain ⟨inside, rfl⟩ := index_values_eq_ok_iff.mp isCycles
    obtain ⟨-, rfl⟩ := index_values_eq_ok_iff.mp isInstr
    exact ⟨inside, (Except.ok.inj returned).symm⟩
  · rintro ⟨inside, rfl⟩
    have instrInside : 1 < tinfo.values.length := lt_of_lt_of_le (by decide) inside
    exact ⟨_, index_values_eq_ok_iff.mpr ⟨inside, rfl⟩, _,
      index_values_eq_ok_iff.mpr ⟨instrInside, rfl⟩, rfl⟩

/-! ## Samples -/

/-- The instructions since the counters were remembered. -/
def ThreadInfo.instrDelta (tinfo : ThreadInfo) : Word := tinfo.values.getD 1 0 - tinfo.lastInstrCtr

/-- The cycles since then. -/
def ThreadInfo.cyclesDelta (tinfo : ThreadInfo) : Word :=
  tinfo.values.getD 2 0 - tinfo.lastCyclesCtr

/-- The memory traffic since then. -/
def ThreadInfo.memTrafficDelta (tinfo : ThreadInfo) : Word :=
  BitVec.ofInt 64 tinfo.memTrafficTotal - tinfo.lastMemTrafficCtr

/-- The instructions per cycle of a sample. -/
def ThreadInfo.sampledIpc (tinfo : ThreadInfo) : ERat :=
  wordValue tinfo.instrDelta / wordValue tinfo.cyclesDelta

/-- The misses per thousand instructions of a sample. -/
def ThreadInfo.sampledMpki (config : Config) (tinfo : ThreadInfo) : ERat :=
  wordValue tinfo.memTrafficDelta / .num config.machine.cacheLineSize * .num 1000 /
    wordValue tinfo.instrDelta

/-- The position that the sample of a signal is stored at. -/
def Monitor.slot (monitor : Monitor) : ℕ := (monitor.sampleSlicesIdx - 1).toNat

/-- A thread with the ways of a sample stored. -/
def ThreadInfo.withWays (tinfo : ThreadInfo) (monitor : Monitor) : ThreadInfo :=
  { tinfo with
    xPoints := tinfo.xPoints.set monitor.slot (monitor.currentlySampling tinfo.tidx).ways }

/-- A thread with a whole sample stored. -/
def ThreadInfo.withSample (tinfo : ThreadInfo) (config : Config) (monitor : Monitor) :
    ThreadInfo :=
  { tinfo.withWays monitor with
    yPointsIpc := tinfo.yPointsIpc.set monitor.slot tinfo.sampledIpc
    yPointsMpki := tinfo.yPointsMpki.set monitor.slot (tinfo.sampledMpki config) }

/-- The sample of a signal, failed or collected. -/
inductive Collected (config : Config) (monitor : Monitor) (tinfo : ThreadInfo) :
    Monitor → ThreadInfo → Prop
  | failed (none : tinfo.instrDelta = 0) :
      Collected config monitor tinfo (monitor.mark tinfo.tidx 5) (tinfo.withWays monitor)
  | collected (some : tinfo.instrDelta ≠ 0) :
      Collected config monitor tinfo (monitor.mark tinfo.tidx 0)
        (tinfo.withSample config monitor)

/-- A sample is stored at a position that exists. -/
theorem collectSample_cases {next : Monitor × ThreadInfo}
    (returned : collectSample config monitor tinfo = .ok next) :
    3 ≤ tinfo.values.length ∧ 1 ≤ monitor.sampleSlicesIdx ∧
      Collected config monitor tinfo next.1 next.2 := by
  obtain ⟨xPoints, stored, afterWays⟩ := bind_eq_ok_iff.mp returned
  obtain ⟨instr, isInstr, afterInstr⟩ := bind_eq_ok_iff.mp afterWays
  obtain ⟨cycles, isCycles, afterCycles⟩ := bind_eq_ok_iff.mp afterInstr
  obtain ⟨⟨lower, upper⟩, rfl⟩ := setAt_eq_ok_iff.mp stored
  obtain ⟨-, rfl⟩ := index_values_eq_ok_iff.mp isInstr
  obtain ⟨inside, rfl⟩ := index_values_eq_ok_iff.mp isCycles
  refine ⟨inside, by omega, ?_⟩
  dsimp only at afterCycles
  split at afterCycles
  · rename_i none
    cases afterCycles
    exact .failed none
  · rename_i some
    obtain ⟨yPointsIpc, storedIpc, afterIpc⟩ := bind_eq_ok_iff.mp afterCycles
    obtain ⟨yPointsMpki, storedMpki, afterMpki⟩ := bind_eq_ok_iff.mp afterIpc
    obtain ⟨-, rfl⟩ := setAt_eq_ok_iff.mp storedIpc
    obtain ⟨-, rfl⟩ := setAt_eq_ok_iff.mp storedMpki
    cases afterMpki
    exact .collected some

/-! ## Slices, turns and rounds -/

/-- A slice of the plan was put in force. -/
structure Installed (config : Config) (monitor next : Monitor) (slice : Slice) : Prop where
  nonneg : 0 ≤ monitor.sampleSlicesIdx
  isSlice : config.plan.slices[monitor.sampleSlicesIdx.toNat]? = some slice
  result : ∃ msrs currentlySampling,
    setCachewaysToCores config.machine slice monitor.thrIdxProfiledGlobal monitor.msrs
      monitor.currentlySampling = .ok (msrs, currentlySampling) ∧
    next = { monitor with
      msrs, currentlySampling, sampleSlicesIdx := monitor.sampleSlicesIdx + 1 }

theorem installSlice_cases {next : Monitor} (returned : installSlice config monitor = .ok next) :
    ∃ slice, Installed config monitor next slice := by
  obtain ⟨slice, found, returned⟩ := bind_eq_ok_iff.mp returned
  obtain ⟨⟨msrs, currentlySampling⟩, set, returned⟩ := bind_eq_ok_iff.mp returned
  obtain ⟨nonneg, isSlice⟩ := index_eq_ok_iff.mp found
  cases returned
  exact ⟨slice, nonneg, isSlice, msrs, currentlySampling, set, rfl⟩

/-- No thread has logged its curves: so it is between any two signals. -/
def Monitor.Unlogged (monitor : Monitor) : Prop := ∀ tidx, monitor.loggingMRCFlags tidx = 0

/-- The turn was passed on, or the round was closed. -/
inductive TurnEnded (config : Config) (monitor : Monitor) : Monitor → Prop
  | handedOver (more : monitor.thrIdxProfiledGlobal + 1 < config.numProfiledThreads) :
      TurnEnded config monitor { monitor with
        loggingMRCFlags := fun _ => 0
        sampleSlicesIdx := 0
        thrIdxProfiledGlobal := monitor.thrIdxProfiledGlobal + 1 }
  | closed (last : config.numProfiledThreads ≤ monitor.thrIdxProfiledGlobal + 1) (msrs : Msrs)
      (shared : shareAllCacheWays config.machine config.machine.numLogicalCores
        config.machine.cacheNumWays monitor.msrs = .ok msrs) :
      TurnEnded config monitor { monitor with
        loggingMRCFlags := fun _ => 0
        sampleSlicesIdx := 0
        thrIdxProfiledGlobal := 0
        monitorStartFlag := false
        enableArrayScans := false
        msrs := msrs }

theorem nextThread_cases {next : Monitor} (returned : nextThread config monitor = .ok next) :
    TurnEnded config monitor next := by
  rw [nextThread] at returned
  dsimp only at returned
  split at returned
  · rename_i last
    obtain ⟨msrs, shared, returned⟩ := bind_eq_ok_iff.mp returned
    cases returned
    exact .closed last msrs shared
  · rename_i more
    cases returned
    exact .handedOver (Nat.not_le.mp more)

/-- A thread after its curves were estimated. -/
structure Estimated (config : Config) (tinfo next : ThreadInfo) : Prop where
  returned : estimateCurves config tinfo = .ok next
  inside : tinfo.mrcEstIndex < tinfo.mrcEstimates.length
  insideIpc : tinfo.mrcEstIndex < tinfo.ipcCurveEstimates.length
  mrcEstimates : next.mrcEstimates.length = tinfo.mrcEstimates.length
  ipcCurveEstimates : next.ipcCurveEstimates.length = tinfo.ipcCurveEstimates.length
  files : (tinfo.mrcOutfile.isSome ∧ tinfo.ipcOutfile.isSome) ∧
    next.mrcOutfile.isSome ∧ next.ipcOutfile.isSome
  points : ∃ xPoints yPointsIpc yPointsMpki mrcEstimates ipcCurveEstimates mrcEstAvg ipcCurveAvg
      mrcOutfile ipcOutfile,
    xPoints.length = tinfo.xPoints.length ∧ yPointsIpc.length = tinfo.yPointsIpc.length ∧
      yPointsMpki.length = tinfo.yPointsMpki.length ∧
      next = { tinfo with
        xPoints, yPointsIpc, yPointsMpki, mrcEstimates, ipcCurveEstimates, mrcEstAvg, ipcCurveAvg,
        mrcOutfile, ipcOutfile, mrcEstIndex := tinfo.mrcEstIndex + 1 }

theorem length_copySecond {α : Type} {array : IndexedArray} {points next : List α}
    (returned : copySecond array points = .ok next) : next.length = points.length := by
  obtain ⟨second, -, stored⟩ := bind_eq_ok_iff.mp returned
  obtain ⟨-, rfl⟩ := setAt_eq_ok_iff.mp stored
  exact List.length_set

theorem length_storeColumn {cacheNumWays mrcEstIndex : ℕ} {columns next : List (List ERat)}
    {yy : List ERat} (returned : storeColumn cacheNumWays mrcEstIndex columns yy = .ok next) :
    mrcEstIndex < columns.length ∧ next.length = columns.length := by
  obtain ⟨⟨-, inside⟩, rfl⟩ := setAt_eq_ok_iff.mp returned
  exact ⟨by omega, List.length_set⟩

theorem length_smoothColumns (pick : ERat → ERat → ERat) (mrcEstIndex : ℕ)
    (columns : List (List ERat)) : (smoothColumns pick mrcEstIndex columns).length =
      columns.length := by
  rw [smoothColumns, List.length_append, List.length_map, List.length_take, List.length_drop]
  omega

/-- A dump smooths the columns and writes its file. -/
theorem dumpEstimates_cases {pick : ERat → ERat → ERat} {cacheNumWays mrcEstIndex : ℕ}
    {columns : List (List ERat)} {file : Option (List Char)}
    {next : List (List ERat) × Option (List Char)}
    (returned : dumpEstimates pick cacheNumWays mrcEstIndex columns file = .ok next) :
    next.1.length = columns.length ∧ file.isSome ∧ next.2.isSome := by
  cases file with
  | none => cases returned
  | some file =>
      cases returned
      exact ⟨length_smoothColumns _ _ _, rfl, rfl⟩

/-- The steps of `estimateCurves`, with what each of them gives. -/
structure CurveSteps (config : Config) (tinfo : ThreadInfo) where
  xPoints : List ℕ
  yPointsMpki : List ERat
  yPointsIpc : List ERat
  yyMrc : List ERat
  yyIpc : List ERat
  mrcEstimates : List (List ERat)
  ipcCurveEstimates : List (List ERat)
  mrcDumped : List (List ERat) × Option (List Char)
  ipcDumped : List (List ERat) × Option (List Char)
  copiedX : copySecond .xPoints tinfo.xPoints = .ok xPoints
  copiedMpki : copySecond .yPoints tinfo.yPointsMpki = .ok yPointsMpki
  copiedIpc : copySecond .yPoints tinfo.yPointsIpc = .ok yPointsIpc
  isMrc : interpolate config xPoints yPointsMpki
    ((List.range config.machine.cacheNumWays).map fun i => ERat.num (i + 1 : ℕ)) = .ok yyMrc
  isIpc : interpolate config xPoints yPointsIpc
    ((List.range config.machine.cacheNumWays).map fun i => ERat.num (i + 1 : ℕ)) = .ok yyIpc
  storedMrc : storeColumn config.machine.cacheNumWays tinfo.mrcEstIndex tinfo.mrcEstimates yyMrc =
    .ok mrcEstimates
  storedIpc : storeColumn config.machine.cacheNumWays tinfo.mrcEstIndex tinfo.ipcCurveEstimates
    yyIpc = .ok ipcCurveEstimates
  dumpedMrc : dumpEstimates ERat.stdMin config.machine.cacheNumWays tinfo.mrcEstIndex mrcEstimates
    tinfo.mrcOutfile = .ok mrcDumped
  dumpedIpc : dumpEstimates ERat.stdMax config.machine.cacheNumWays tinfo.mrcEstIndex
    ipcCurveEstimates tinfo.ipcOutfile = .ok ipcDumped

/-- The thread after these steps. -/
def CurveSteps.result (steps : CurveSteps config tinfo) : ThreadInfo :=
  { tinfo with
    xPoints := steps.xPoints
    yPointsMpki := steps.yPointsMpki
    yPointsIpc := steps.yPointsIpc
    mrcEstimates := steps.mrcDumped.1
    ipcCurveEstimates := steps.ipcDumped.1
    mrcOutfile := steps.mrcDumped.2
    ipcOutfile := steps.ipcDumped.2
    mrcEstAvg := averages config.machine.cacheNumWays tinfo.mrcEstIndex steps.mrcDumped.1
    ipcCurveAvg := averages config.machine.cacheNumWays tinfo.mrcEstIndex steps.ipcDumped.1
    mrcEstIndex := tinfo.mrcEstIndex + 1 }

theorem exists_curveSteps {next : ThreadInfo} (returned : estimateCurves config tinfo = .ok next) :
    ∃ steps : CurveSteps config tinfo, next = steps.result := by
  obtain ⟨-, -, returned⟩ := bind_eq_ok_iff.mp returned
  obtain ⟨-, -, returned⟩ := bind_eq_ok_iff.mp returned
  obtain ⟨xPoints, copiedX, returned⟩ := bind_eq_ok_iff.mp returned
  obtain ⟨yPointsMpki, copiedMpki, returned⟩ := bind_eq_ok_iff.mp returned
  obtain ⟨yPointsIpc, copiedIpc, returned⟩ := bind_eq_ok_iff.mp returned
  obtain ⟨yyMrc, isMrc, returned⟩ := bind_eq_ok_iff.mp returned
  obtain ⟨yyIpc, isIpc, returned⟩ := bind_eq_ok_iff.mp returned
  obtain ⟨mrcEstimates, storedMrc, returned⟩ := bind_eq_ok_iff.mp returned
  obtain ⟨ipcCurveEstimates, storedIpc, returned⟩ := bind_eq_ok_iff.mp returned
  obtain ⟨_, dumpsMrc, returned⟩ := bind_eq_ok_iff.mp returned
  obtain ⟨_, dumpsIpc, returned⟩ := bind_eq_ok_iff.mp returned
  obtain ⟨mrcDumped, dumpedMrc, dumpsMrc⟩ := bind_eq_ok_iff.mp dumpsMrc
  cases dumpsMrc
  obtain ⟨ipcDumped, dumpedIpc, dumpsIpc⟩ := bind_eq_ok_iff.mp dumpsIpc
  cases dumpsIpc
  cases returned
  exact ⟨⟨xPoints, yPointsMpki, yPointsIpc, yyMrc, yyIpc, mrcEstimates, ipcCurveEstimates,
    mrcDumped, ipcDumped, copiedX, copiedMpki, copiedIpc, isMrc, isIpc, storedMrc, storedIpc,
    dumpedMrc, dumpedIpc⟩, rfl⟩

theorem estimateCurves_cases {next : ThreadInfo}
    (returned : estimateCurves config tinfo = .ok next) : Estimated config tinfo next := by
  obtain ⟨steps, rfl⟩ := exists_curveSteps returned
  obtain ⟨inside, lengthMrc⟩ := length_storeColumn steps.storedMrc
  obtain ⟨insideIpc, lengthIpc⟩ := length_storeColumn steps.storedIpc
  obtain ⟨smoothLengthMrc, hasMrc, hasNextMrc⟩ := dumpEstimates_cases steps.dumpedMrc
  obtain ⟨smoothLengthIpc, hasIpc, hasNextIpc⟩ := dumpEstimates_cases steps.dumpedIpc
  exact ⟨returned, inside, insideIpc, smoothLengthMrc.trans lengthMrc,
    smoothLengthIpc.trans lengthIpc, ⟨⟨hasMrc, hasIpc⟩, hasNextMrc, hasNextIpc⟩,
    steps.xPoints, steps.yPointsIpc, steps.yPointsMpki, _, _, _, _, _, _,
    length_copySecond steps.copiedX, length_copySecond steps.copiedIpc,
    length_copySecond steps.copiedMpki, rfl⟩

/-! ## One phase -/

/-- The phase ends an interval of the monitor. -/
def InvokesMonitor (config : Config) (monitor : Monitor) (tinfo : ThreadInfo) : Prop :=
  tinfo.phases % monitor.mrcInvokeMonitorLen = 0 ∧ config.mrcEstMode = true

/-- The phase opens a round. -/
def OpensRound (config : Config) (monitor : Monitor) (tinfo : ThreadInfo) : Prop :=
  InvokesMonitor config monitor tinfo ∧ tinfo.tidx = 0 ∧ tinfo.phases < config.numPhases

/-- The phase is sampled. -/
def Samples (config : Config) (monitor : Monitor) (tinfo : ThreadInfo) : Prop :=
  monitor.monitorStartFlag = true ∧ ¬ InvokesMonitor config monitor tinfo

/-- The phase gives the thread whose turn it is a sample that did not fail. -/
def Collects (config : Config) (monitor : Monitor) (tinfo : ThreadInfo) : Prop :=
  Samples config monitor tinfo ∧ tinfo.tidx = monitor.thrIdxProfiledGlobal ∧ tinfo.instrDelta ≠ 0

instance : Decidable (InvokesMonitor config monitor tinfo) := inferInstanceAs (Decidable (_ ∧ _))

instance : Decidable (OpensRound config monitor tinfo) := inferInstanceAs (Decidable (_ ∧ _))

instance : Decidable (Samples config monitor tinfo) := inferInstanceAs (Decidable (_ ∧ _))

instance : Decidable (Collects config monitor tinfo) := inferInstanceAs (Decidable (_ ∧ _))

/-- The monitor after that sample. -/
def Monitor.collected (monitor : Monitor) (tinfo : ThreadInfo) : Monitor :=
  monitor.mark tinfo.tidx 0

/-- What one phase can do to the monitor and to the thread. -/
inductive MonitorStep (config : Config) (monitor : Monitor) (tinfo : ThreadInfo) :
    Monitor → ThreadInfo → Prop
  /-- Outside of a round the counters are remembered, except at the first phase. -/
  | idles (closed : monitor.monitorStartFlag = false)
      (goesOn : ¬ InvokesMonitor config monitor tinfo) (next : ThreadInfo)
      (saved : next = tinfo.remembered ∧ 3 ≤ tinfo.values.length ∨
        next = tinfo ∧ tinfo.phases ≤ 1) :
      MonitorStep config monitor tinfo monitor next
  /-- The end of an interval that opens no round. -/
  | passes (invokes : InvokesMonitor config monitor tinfo)
      (opensNone : ¬ OpensRound config monitor tinfo) (read : 3 ≤ tinfo.values.length) :
      MonitorStep config monitor tinfo monitor tinfo.remembered
  | opens (opensRound : OpensRound config monitor tinfo) (read : 3 ≤ tinfo.values.length)
      (slice : Slice) (next : Monitor)
      (installed : Installed config (monitor.opened config.mrcProfileInterval) next slice) :
      MonitorStep config monitor tinfo next tinfo.remembered
  /-- A sample that leads nowhere: it failed, or it is not the thread's turn. -/
  | waits (samples : Samples config monitor tinfo) (read : 3 ≤ tinfo.values.length)
      (position : 1 ≤ monitor.sampleSlicesIdx) (next : Monitor) (sampled : ThreadInfo)
      (stored : Collected config monitor tinfo next sampled)
      (noTurn : ¬ Collects config monitor tinfo) :
      MonitorStep config monitor tinfo next sampled.remembered
  | advances (collects : Collects config monitor tinfo) (read : 3 ≤ tinfo.values.length)
      (position : 1 ≤ monitor.sampleSlicesIdx)
      (more : monitor.sampleSlicesIdx ≠ config.plan.numWaysToSample) (slice : Slice)
      (next : Monitor) (installed : Installed config (monitor.collected tinfo) next slice) :
      MonitorStep config monitor tinfo next (tinfo.withSample config monitor).remembered
  | finishes (collects : Collects config monitor tinfo) (read : 3 ≤ tinfo.values.length)
      (all : monitor.sampleSlicesIdx = config.plan.numWaysToSample) (logged next : Monitor)
      (isLogged : logged = { monitor.collected tinfo with
        loggingMRCFlags := Function.update monitor.loggingMRCFlags tinfo.tidx 1 })
      (ended : TurnEnded config logged next) (estimated : ThreadInfo)
      (estimates : Estimated config (tinfo.withSample config monitor).remembered estimated) :
      MonitorStep config monitor tinfo next estimated

theorem saveIdle_cases {next : ThreadInfo} (returned : saveIdle monitor tinfo = .ok next) :
    (monitor.monitorStartFlag = false ∧ 3 ≤ tinfo.values.length ∧ next = tinfo.remembered) ∨
      (¬ (monitor.monitorStartFlag = false ∧ 1 < tinfo.phases) ∧ next = tinfo) := by
  rw [saveIdle] at returned
  split at returned
  · rename_i idle
    obtain ⟨read, rfl⟩ := saveCounters_eq_ok_iff.mp returned
    exact .inl ⟨idle.1, read, rfl⟩
  · rename_i busy
    cases returned
    exact .inr ⟨busy, rfl⟩

theorem invokeMonitor_cases {idle : ThreadInfo} (same : idle.remembered = tinfo.remembered)
    {next : Monitor × ThreadInfo} (invokes : InvokesMonitor config monitor tinfo)
    (returned : invokeMonitor config monitor idle = .ok next) :
    MonitorStep config monitor tinfo next.1 next.2 := by
  obtain ⟨saved, isSaved, returned⟩ := bind_eq_ok_iff.mp returned
  obtain ⟨read, rfl⟩ := saveCounters_eq_ok_iff.mp isSaved
  have sameValues : idle.values = tinfo.values :=
    show idle.remembered.values = tinfo.remembered.values from congrArg ThreadInfo.values same
  rw [sameValues] at read
  rw [same] at returned
  split at returned
  · rename_i opensRound
    obtain ⟨opened, isOpened, returned⟩ := bind_eq_ok_iff.mp returned
    obtain ⟨slice, installed⟩ := installSlice_cases isOpened
    cases returned
    exact .opens ⟨invokes, opensRound⟩ read slice opened installed
  · rename_i opensNone
    cases returned
    exact .passes invokes (fun opensRound => opensNone opensRound.2) read

/-- Between signals no thread has logged its curves, so only the thread whose turn it is ends
its turn. -/
theorem finishRound_cases {marked : Monitor} (unlogged : marked.Unlogged)
    {next : Monitor × ThreadInfo} (returned : finishRound config marked tinfo = .ok next) :
    (tinfo.tidx = marked.thrIdxProfiledGlobal ∧ ∃ logged,
        logged = { marked with
          loggingMRCFlags := Function.update marked.loggingMRCFlags tinfo.tidx 1 } ∧
        TurnEnded config logged next.1 ∧ Estimated config tinfo next.2) ∨
      (tinfo.tidx ≠ marked.thrIdxProfiledGlobal ∧ next = (marked, tinfo)) := by
  obtain ⟨⟨logged, estimated⟩, once, returned⟩ := bind_eq_ok_iff.mp returned
  rw [estimateOnce] at once
  split at once
  · rename_i isTurn
    obtain ⟨curves, isCurves, once⟩ := bind_eq_ok_iff.mp once
    cases once
    have flagged : (Function.update marked.loggingMRCFlags tinfo.tidx 1)
        marked.thrIdxProfiledGlobal = 1 := by
      rw [isTurn.1, Function.update_self]
    dsimp only at returned
    rw [if_pos flagged] at returned
    obtain ⟨ended, isEnded, returned⟩ := bind_eq_ok_iff.mp returned
    cases returned
    exact .inl ⟨isTurn.1, _, rfl, nextThread_cases isEnded, estimateCurves_cases isCurves⟩
  · rename_i noTurn
    cases once
    have unflagged : marked.loggingMRCFlags marked.thrIdxProfiledGlobal ≠ 1 := by
      rw [unlogged]
      decide
    dsimp only at returned
    rw [if_neg unflagged] at returned
    cases returned
    refine .inr ⟨fun isTurn => noTurn ⟨isTurn, ?_⟩, rfl⟩
    rw [unlogged]
    decide

theorem nextSlice_cases {next : Monitor} (returned : nextSlice config monitor tinfo = .ok next) :
    ((tinfo.tidx = monitor.thrIdxProfiledGlobal ∧
        (monitor.currentlySampling monitor.thrIdxProfiledGlobal).status = 0) ∧
          ∃ slice, Installed config monitor next slice) ∨
      (¬ (tinfo.tidx = monitor.thrIdxProfiledGlobal ∧
        (monitor.currentlySampling monitor.thrIdxProfiledGlobal).status = 0) ∧ next = monitor) := by
  rw [nextSlice] at returned
  split at returned
  · rename_i isTurn
    exact .inl ⟨isTurn, installSlice_cases returned⟩
  · rename_i noTurn
    cases returned
    exact .inr ⟨noTurn, rfl⟩

@[simp]
theorem Monitor.status_mark (monitor : Monitor) (tidx status : ℕ) :
    ((monitor.mark tidx status).currentlySampling tidx).status = status := by
  simp [Monitor.mark]

theorem sampleSlice_cases (unlogged : monitor.Unlogged) {next : Monitor × ThreadInfo}
    (samples : Samples config monitor tinfo)
    (returned : sampleSlice config monitor tinfo = .ok next) :
    MonitorStep config monitor tinfo next.1 next.2 := by
  obtain ⟨⟨marked, sampled⟩, isSampled, returned⟩ := bind_eq_ok_iff.mp returned
  obtain ⟨read, position, stored⟩ := collectSample_cases isSampled
  obtain ⟨saved, isSaved, returned⟩ := bind_eq_ok_iff.mp returned
  obtain ⟨-, rfl⟩ := saveCounters_eq_ok_iff.mp isSaved
  obtain ⟨-, -, returned⟩ := bind_eq_ok_iff.mp returned
  dsimp only at stored returned
  have status : ∀ value, marked = monitor.mark tinfo.tidx value → sampled.tidx = tinfo.tidx →
      (marked.currentlySampling sampled.remembered.tidx).status = value := by
    rintro value rfl sameIdx
    exact (congrArg (fun tidx => ((monitor.mark tinfo.tidx value).currentlySampling tidx).status)
      sameIdx).trans (Monitor.status_mark _ _ _)
  split at returned
  · rename_i complete
    cases stored with
    | failed none => exact absurd (status 5 rfl rfl) complete.2
    | collected some =>
        have sameFlags : (monitor.mark tinfo.tidx 0).Unlogged := unlogged
        rcases finishRound_cases sameFlags returned with
          ⟨isTurn, logged, isLogged, ended, estimates⟩ | ⟨noTurn, rfl⟩
        · exact .finishes ⟨samples, isTurn, some⟩ read complete.1 logged _ isLogged ended _
            estimates
        · exact .waits samples read position _ _ (.collected some) fun collects =>
            noTurn collects.2.1
  · rename_i incomplete
    obtain ⟨advanced, isAdvanced, returned⟩ := bind_eq_ok_iff.mp returned
    cases returned
    cases stored with
    | failed none =>
        have noTurn : ¬ Collects config monitor tinfo := fun collects => collects.2.2 none
        rcases nextSlice_cases isAdvanced with ⟨⟨isTurn, isZero⟩, -⟩ | ⟨-, rfl⟩
        · rw [← isTurn, status 5 rfl rfl] at isZero
          cases isZero
        · exact .waits samples read position _ _ (.failed none) noTurn
    | collected some =>
        have isZero := status 0 rfl rfl
        rcases nextSlice_cases isAdvanced with ⟨⟨isTurn, -⟩, slice, installed⟩ | ⟨noTurn, rfl⟩
        · have more : monitor.sampleSlicesIdx ≠ config.plan.numWaysToSample := fun all =>
            incomplete ⟨all, by rw [isZero]; decide⟩
          exact .advances ⟨samples, isTurn, some⟩ read position more slice _ installed
        · refine .waits samples read position _ _ (.collected some) fun collects => ?_
          have isTurn : (tinfo.withSample config monitor).remembered.tidx =
              (monitor.mark tinfo.tidx 0).thrIdxProfiledGlobal := collects.2.1
          refine noTurn ⟨isTurn, ?_⟩
          rw [← isTurn]
          exact isZero

/-- Every phase is one of the cases. -/
theorem monitorPhase_cases (unlogged : monitor.Unlogged) {next : Monitor × ThreadInfo}
    (returned : monitorPhase config monitor tinfo = .ok next) :
    MonitorStep config monitor tinfo next.1 next.2 := by
  obtain ⟨idle, isIdle, afterIdle⟩ := bind_eq_ok_iff.mp returned
  have idleCases := saveIdle_cases isIdle
  have same : idle.remembered = tinfo.remembered := by
    rcases idleCases with ⟨-, -, rfl⟩ | ⟨-, rfl⟩ <;> rfl
  have samePhases : idle.phases = tinfo.phases :=
    show idle.remembered.phases = tinfo.remembered.phases from congrArg ThreadInfo.phases same
  rw [samePhases] at afterIdle
  split at afterIdle
  · cases afterIdle
  split at afterIdle
  · rename_i invokes
    exact invokeMonitor_cases same invokes afterIdle
  · rename_i goesOn
    split at afterIdle
    · rename_i open_
      rcases idleCases with ⟨closed, -, -⟩ | ⟨-, rfl⟩
      · rw [closed] at open_
        cases open_.1
      · exact sampleSlice_cases unlogged ⟨open_.1, goesOn⟩ afterIdle
    · rename_i notOpen
      cases afterIdle
      have closed : monitor.monitorStartFlag = false := by
        by_contra isOpen
        exact notOpen ⟨Bool.eq_true_of_not_eq_false isOpen, Nat.mod_one _⟩
      refine .idles closed goesOn _ ?_
      rcases idleCases with ⟨-, read, isSaved⟩ | ⟨busy, unchanged⟩
      · exact .inl ⟨isSaved, read⟩
      · exact .inr ⟨unchanged, Nat.not_lt.mp fun late => busy ⟨closed, late⟩⟩

/-! ## What stays the same -/

/-- What the monitor leaves to the reader of the counters. -/
structure SameReading (before after : ThreadInfo) : Prop where
  tidx : after.tidx = before.tidx
  tid : after.tid = before.tid
  cores : after.cores = before.cores
  isDummyThread : after.isDummyThread = before.isDummyThread
  phases : after.phases = before.phases
  phasesWithCurrentGroup : after.phasesWithCurrentGroup = before.phasesWithCurrentGroup
  values : after.values = before.values
  memTrafficTotal : after.memTrafficTotal = before.memTrafficTotal
  eventGroups : after.eventGroups = before.eventGroups

theorem sameReading_remembered (tinfo : ThreadInfo) : SameReading tinfo tinfo.remembered :=
  ⟨rfl, rfl, rfl, rfl, rfl, rfl, rfl, rfl, rfl⟩

theorem Collected.sameReading {next : Monitor} {sampled : ThreadInfo}
    (stored : Collected config monitor tinfo next sampled) :
    SameReading tinfo sampled.remembered := by
  cases stored <;> exact ⟨rfl, rfl, rfl, rfl, rfl, rfl, rfl, rfl, rfl⟩

theorem MonitorStep.sameReading {next : Monitor} {after : ThreadInfo}
    (step : MonitorStep config monitor tinfo next after) : SameReading tinfo after := by
  cases step with
  | idles closed goesOn after saved =>
      rcases saved with ⟨rfl, -⟩ | ⟨rfl, -⟩
      · exact sameReading_remembered tinfo
      · exact ⟨rfl, rfl, rfl, rfl, rfl, rfl, rfl, rfl, rfl⟩
  | passes invokes opensNone read => exact sameReading_remembered tinfo
  | opens opensRound read slice next installed => exact sameReading_remembered tinfo
  | waits samples read position next sampled stored noTurn => exact stored.sameReading
  | advances collects read position more slice next installed =>
      exact (Collected.collected collects.2.2).sameReading
  | finishes collects read all logged next isLogged ended estimated estimates =>
      obtain ⟨-, -, -, -, -, -, -, -, -, -, -, -, -, -, -, -, rfl⟩ := estimates.points
      exact ⟨rfl, rfl, rfl, rfl, rfl, rfl, rfl, rfl, rfl⟩

theorem Installed.unlogged {next : Monitor} {slice : Slice}
    (installed : Installed config monitor next slice) (unlogged : monitor.Unlogged) :
    next.Unlogged := by
  obtain ⟨msrs, currentlySampling, -, rfl⟩ := installed.result
  exact unlogged

/-- Between signals no thread has logged its curves. -/
theorem MonitorStep.unlogged {next : Monitor} {after : ThreadInfo} (unlogged : monitor.Unlogged)
    (step : MonitorStep config monitor tinfo next after) : next.Unlogged := by
  cases step with
  | idles closed goesOn after saved => exact unlogged
  | passes invokes opensNone read => exact unlogged
  | opens opensRound read slice next installed => exact installed.unlogged unlogged
  | waits samples read position next sampled stored noTurn => cases stored <;> exact unlogged
  | advances collects read position more slice next installed =>
      exact installed.unlogged unlogged
  | finishes collects read all logged next isLogged ended estimated estimates =>
      cases ended <;> exact fun _ => rfl

/-- The phase that opens a round puts the first slice in force. -/
theorem MonitorStep.of_opens {next : Monitor} {after : ThreadInfo}
    (step : MonitorStep config monitor tinfo next after)
    (opens : OpensRound config monitor tinfo) :
    ∃ slice, Installed config (monitor.opened config.mrcProfileInterval) next slice ∧
      after = tinfo.remembered := by
  cases step with
  | idles closed goesOn after saved => exact absurd opens.1 goesOn
  | passes invokes opensNone read => exact absurd opens opensNone
  | opens opensRound read slice next installed => exact ⟨slice, installed, rfl⟩
  | waits samples read position next sampled stored noTurn => exact absurd opens.1 samples.2
  | advances collects read position more slice next installed =>
      exact absurd opens.1 collects.1.2
  | finishes collects read all logged next isLogged ended estimated estimates =>
      exact absurd opens.1 collects.1.2

/-- The phase that collects a sample puts the next slice in force, or ends the turn. -/
theorem MonitorStep.of_collects {next : Monitor} {after : ThreadInfo}
    (step : MonitorStep config monitor tinfo next after)
    (collects : Collects config monitor tinfo) :
    (monitor.sampleSlicesIdx ≠ config.plan.numWaysToSample ∧
        ∃ slice, Installed config (monitor.collected tinfo) next slice ∧
          after = (tinfo.withSample config monitor).remembered) ∨
      monitor.sampleSlicesIdx = config.plan.numWaysToSample ∧
        TurnEnded config { monitor.collected tinfo with
          loggingMRCFlags := Function.update monitor.loggingMRCFlags tinfo.tidx 1 } next ∧
        Estimated config (tinfo.withSample config monitor).remembered after := by
  cases step with
  | idles closed goesOn after saved =>
      have isOpen := collects.1.1
      rw [closed] at isOpen
      cases isOpen
  | passes invokes opensNone read => exact absurd invokes collects.1.2
  | opens opensRound read slice next installed => exact absurd opensRound.1 collects.1.2
  | waits samples read position next sampled stored noTurn => exact absurd collects noTurn
  | advances _ read position more slice next installed =>
      exact .inl ⟨more, slice, installed, rfl⟩
  | finishes _ read all logged next isLogged ended estimated estimates =>
      exact .inr ⟨all, isLogged ▸ ended, estimates⟩

/-- What the reader of the counters leaves to the monitor. -/
structure SameSampling (before after : ThreadInfo) : Prop where
  tidx : after.tidx = before.tidx
  tid : after.tid = before.tid
  cores : after.cores = before.cores
  isDummyThread : after.isDummyThread = before.isDummyThread
  phases : after.phases = before.phases
  xPoints : after.xPoints = before.xPoints
  yPointsIpc : after.yPointsIpc = before.yPointsIpc
  yPointsMpki : after.yPointsMpki = before.yPointsMpki
  mrcEstimates : after.mrcEstimates = before.mrcEstimates
  ipcCurveEstimates : after.ipcCurveEstimates = before.ipcCurveEstimates
  mrcEstIndex : after.mrcEstIndex = before.mrcEstIndex
  lastInstrCtr : after.lastInstrCtr = before.lastInstrCtr
  lastCyclesCtr : after.lastCyclesCtr = before.lastCyclesCtr
  lastMemTrafficCtr : after.lastMemTrafficCtr = before.lastMemTrafficCtr

theorem ReadBy.sameSampling {signal : Signal} {next metered : ThreadInfo} {group : EventGroup}
    {reading : Reading} (readBy : ReadBy config signal tinfo next group metered reading) :
    SameSampling tinfo next := by
  obtain ⟨⟨total, last, occupancy, rfl⟩, -, -, ends⟩ := readBy
  split at ends
  · rcases switchGroup_cases ends with ⟨-, rfl⟩ | ⟨-, -, -, rfl⟩ <;>
      exact ⟨rfl, rfl, rfl, rfl, rfl, rfl, rfl, rfl, rfl, rfl, rfl, rfl, rfl, rfl⟩
  · rw [ends]
    exact ⟨rfl, rfl, rfl, rfl, rfl, rfl, rfl, rfl, rfl, rfl, rfl, rfl, rfl, rfl⟩

/-! ## One event -/

/-- How a signal was handled: its thread, what the monitor made of the phase, and what the
reader made of that. -/
structure HandledBy (config : Config) (st : State) (signal : Signal) (tinfo : ThreadInfo)
    (monitor : Monitor) (sampled : ThreadInfo) (msrs : Msrs) (after : ThreadInfo) (next : State) :
    Prop where
  isThread : st.tidMap.get? (st.threadOf signal.fd) = some tinfo
  isReal : tinfo.isDummyThread = false
  monitored : monitorPhase config st.monitor tinfo.enterPhase = .ok (monitor, sampled)
  counted : readCounters config signal monitor.msrs sampled = .ok (msrs, after)
  result : next = { st with
    monitor := { monitor with msrs }
    tidMap := st.tidMap.insert (st.threadOf signal.fd) after }.finish config after

theorem sigthymeHandler_cases {st next : State} {signal : Signal}
    (returned : sigthymeHandler config st signal = .ok next) :
    ∃ tinfo monitor sampled msrs after,
      HandledBy config st signal tinfo monitor sampled msrs after next := by
  rw [sigthymeHandler] at returned
  dsimp only at returned
  split at returned
  · cases returned
  · rename_i tinfo isThread
    split at returned
    · cases returned
    · rename_i isReal
      obtain ⟨⟨monitor, sampled⟩, monitored, returned⟩ := bind_eq_ok_iff.mp returned
      obtain ⟨⟨msrs, after⟩, counted, returned⟩ := bind_eq_ok_iff.mp returned
      cases returned
      exact ⟨tinfo, monitor, sampled, msrs, after, isThread, Bool.eq_false_of_not_eq_true isReal,
        monitored, counted, rfl⟩

section

variable (st : State) (config : Config) (tinfo : ThreadInfo)

@[simp] theorem State.monitor_finish : (st.finish config tinfo).monitor = st.monitor := by
  rw [State.finish]
  split <;> rfl

@[simp] theorem State.tidMap_finish : (st.finish config tinfo).tidMap = st.tidMap := by
  rw [State.finish]
  split <;> rfl

@[simp] theorem State.fdMap_finish : (st.finish config tinfo).fdMap = st.fdMap := by
  rw [State.finish]
  split <;> rfl

theorem State.done_finish : (st.finish config tinfo).done = true ↔
    st.done = true ∨ tinfo.tidx = 0 ∧ config.numPhases ≤ tinfo.phases := by
  rw [State.finish]
  split
  · rename_i finished
    exact iff_of_true rfl (.inr finished)
  · rename_i unfinished
    exact ⟨.inl, fun either => either.resolve_right unfinished⟩

/-- The phase is the first one at which the leading thread is finished. -/
def State.FinishesFirst (st : State) (config : Config) (tinfo : ThreadInfo) : Prop :=
  (tinfo.tidx = 0 ∧ config.numPhases ≤ tinfo.phases) ∧ st.firstFinishedThread = -1

instance : Decidable (st.FinishesFirst config tinfo) := inferInstanceAs (Decidable (_ ∧ _))

theorem State.firstFinishedThread_finish : (st.finish config tinfo).firstFinishedThread =
    if st.FinishesFirst config tinfo then tinfo.tid else st.firstFinishedThread := by
  rw [State.finish, apply_ite State.firstFinishedThread]
  exact (ite_and _ _ _ _).symm

theorem State.stopped_finish : (st.finish config tinfo).stopped =
    if st.FinishesFirst config tinfo then tinfo.tid :: st.stopped else st.stopped := by
  rw [State.finish, apply_ite State.stopped]
  exact (ite_and _ _ _ _).symm

end

/-! ## Rounds of the loop of `profile` -/

/-- Forget a thread. -/
def State.forget (st : State) (pid : ℤ) : State := { st with tidMap := st.tidMap.erase pid }

/-- What one round of the loop of `profile` can do. -/
inductive WaitStep (st : State) (wait : Wait) : State → Prop
  /-- A stop that is passed on to the thread. -/
  | goesOn (stops : wIfStopped wait.status) (other : wStopSig wait.status ≠ SIGSTOP) :
      WaitStep st wait st
  | exited (exits : wIfExited wait.status) (tinfo : ThreadInfo)
      (isThread : st.tidMap.get? wait.pid = some tinfo) (flushed : tinfo.flush = .ok ()) :
      WaitStep st wait (st.forget wait.pid)
  /-- The leading thread stops the others when it is detached. -/
  | detached (exitsNot : ¬ wIfExited wait.status) (done : st.done = true) (tinfo : ThreadInfo)
      (isThread : st.tidMap.get? wait.pid = some tinfo) (flushed : tinfo.flush = .ok ()) :
      WaitStep st wait (if wait.pid = st.firstFinishedThread then
        (st.forget wait.pid).stopOthers else st.forget wait.pid)
  | killed (signaled : wIfSignaled wait.status) (exitsNot : ¬ wIfExited wait.status)
      (running : st.done = false) (tinfo : ThreadInfo)
      (isThread : st.tidMap.get? wait.pid = some tinfo) (flushed : tinfo.flush = .ok ()) :
      WaitStep st wait (st.forget wait.pid)

theorem State.remove_eq_ok_iff {st next : State} {pid : ℤ} :
    st.remove pid = .ok next ↔
      ∃ tinfo, st.tidMap.get? pid = some tinfo ∧ tinfo.flush = .ok () ∧ next = st.forget pid := by
  rw [State.remove]
  cases st.tidMap.get? pid with
  | none => exact ⟨nofun, fun ⟨_, absent, _⟩ => nomatch absent⟩
  | some tinfo =>
      simp only [bind_eq_ok_iff]
      constructor
      · rintro ⟨_, flushed, removed⟩
        exact ⟨tinfo, rfl, flushed, (Except.ok.inj removed).symm⟩
      · rintro ⟨_, same, flushed, rfl⟩
        cases same
        exact ⟨(), flushed, rfl⟩

theorem waitStep_of_profileStep {st next : State} {wait : Wait}
    (returned : profileStep st wait = .ok next) : WaitStep st wait next := by
  rw [profileStep] at returned
  split at returned
  · cases returned
  split at returned
  · rename_i exits
    obtain ⟨tinfo, isThread, flushed, rfl⟩ := State.remove_eq_ok_iff.mp returned
    exact .exited exits tinfo isThread flushed
  rename_i exitsNot
  split at returned
  · cases returned
  split at returned
  · rename_i stops
    split at returned
    · cases returned
    · cases returned
      exact .goesOn stops.1 stops.2
  split at returned
  · rename_i done
    split at returned
    · cases returned
    · obtain ⟨gone, removed, returned⟩ := bind_eq_ok_iff.mp returned
      obtain ⟨tinfo, isThread, flushed, rfl⟩ := State.remove_eq_ok_iff.mp removed
      cases returned
      exact .detached exitsNot done tinfo isThread flushed
  rename_i running
  split at returned
  · rename_i signaled
    obtain ⟨tinfo, isThread, flushed, rfl⟩ := State.remove_eq_ok_iff.mp returned
    exact .killed signaled exitsNot (Bool.eq_false_of_not_eq_true running) tinfo isThread flushed
  · cases returned

/-- What a wait event can do: it forgets a thread at most. -/
structure WaitedBy (st next : State) : Prop where
  monitor : next.monitor = st.monitor
  fdMap : next.fdMap = st.fdMap
  done : next.done = st.done
  tidMap : next.tidMap = st.tidMap ∨ ∃ pid, next.tidMap = st.tidMap.erase pid

/-- A wait event brings no thread. -/
theorem WaitedBy.isThread {st next : State} (waited : WaitedBy st next) {tid : ℤ}
    {tinfo : ThreadInfo} (isThread : next.tidMap.get? tid = some tinfo) :
    st.tidMap.get? tid = some tinfo := by
  rcases waited.tidMap with same | ⟨pid, erased⟩
  · exact same ▸ isThread
  · rw [erased, Dict.get?_erase] at isThread
    split at isThread
    · cases isThread
    · exact isThread

theorem profileStep_cases {st next : State} {wait : Wait}
    (returned : profileStep st wait = .ok next) : WaitedBy st next := by
  cases waitStep_of_profileStep returned with
  | goesOn stops other => exact ⟨rfl, rfl, rfl, .inl rfl⟩
  | exited exits tinfo isThread flushed => exact ⟨rfl, rfl, rfl, .inr ⟨_, rfl⟩⟩
  | detached exitsNot done tinfo isThread flushed =>
      split <;> exact ⟨rfl, rfl, rfl, .inr ⟨_, rfl⟩⟩
  | killed signaled exitsNot running tinfo isThread flushed => exact ⟨rfl, rfl, rfl, .inr ⟨_, rfl⟩⟩

/-! ## Events -/

/-- The state in between that an overflow leads through. -/
theorem overflowed_of_systemStep {st next : State} {words : List Word} {signal : Signal}
    (stepped : systemStep config st (.phase words signal) = .ok next) :
    ∃ overflowed, st.overflow signal.fd words = .ok overflowed ∧
      sigthymeHandler config overflowed signal = .ok next := by
  unfold systemStep at stepped
  split at stepped
  · cases stepped
  · obtain ⟨overflowed, isOverflowed, handled⟩ := bind_eq_ok_iff.mp stepped
    exact ⟨overflowed, isOverflowed, orStop_eq_ok_iff.mp handled⟩

theorem waitedBy_of_systemStep {st next : State} {wait : Wait}
    (stepped : systemStep config st (.wait wait) = .ok next) : WaitedBy st next :=
  profileStep_cases (systemStep_wait_eq_ok_iff.mp stepped).2

section

variable {st overflowed next : State} {signal : Signal} {words : List Word}

/-- An overflow changes the budget and the buffer of one group of one thread. -/
theorem overflow_cases (isOverflowed : st.overflow signal.fd words = .ok overflowed)
    {tinfo : ThreadInfo} (isThread : overflowed.tidMap.get? (overflowed.threadOf signal.fd) =
      some tinfo) :
    overflowed.monitor = st.monitor ∧ overflowed.fdMap = st.fdMap ∧ overflowed.done = st.done ∧
      ∃ before, st.tidMap.get? (st.threadOf signal.fd) = some before ∧
        (∀ other, other ≠ st.threadOf signal.fd →
          overflowed.tidMap.get? other = st.tidMap.get? other) ∧
        (tinfo = before ∧ before.eventGroups.get? signal.fd = none ∨
          ∃ group counted, before.eventGroups.get? signal.fd = some group ∧
            group.overflow = some counted ∧
            tinfo = before.overflowed signal.fd counted words) := by
  rw [State.overflow] at isOverflowed
  split at isOverflowed
  · rename_i isNone
    cases isOverflowed
    rw [isNone] at isThread
    cases isThread
  · rename_i before isBefore
    split at isOverflowed
    · rename_i noGroup
      cases isOverflowed
      rw [isBefore] at isThread
      cases isThread
      exact ⟨rfl, rfl, rfl, tinfo, isBefore, fun _ _ => rfl, .inl ⟨rfl, noGroup⟩⟩
    · rename_i group isGroup
      split at isOverflowed
      · cases isOverflowed
      · rename_i counted isCounted
        cases isOverflowed
        have isInserted : (st.tidMap.insert (st.threadOf signal.fd)
          (before.overflowed signal.fd counted words)).get? (st.threadOf signal.fd) =
            some tinfo := isThread
        rw [Dict.get?_insert_self] at isInserted
        cases isInserted
        exact ⟨rfl, rfl, rfl, before, isBefore,
          fun other different => Dict.get?_insert_of_ne _ different _,
          .inr ⟨group, counted, isGroup, isCounted, rfl⟩⟩

/-- The winding down is left alone by an overflow. -/
theorem overflow_frame (isOverflowed : st.overflow signal.fd words = .ok overflowed) :
    overflowed.firstFinishedThread = st.firstFinishedThread ∧
      overflowed.stopped = st.stopped := by
  rw [State.overflow] at isOverflowed
  split at isOverflowed
  · cases isOverflowed
    exact ⟨rfl, rfl⟩
  · split at isOverflowed
    · cases isOverflowed
      exact ⟨rfl, rfl⟩
    · split at isOverflowed
      · cases isOverflowed
      · cases isOverflowed
        exact ⟨rfl, rfl⟩

/-- How a phase event was served. The thread had an armed group, whose budget was counted down
and whose buffer grew. The monitor made its step on the thread after that, and then the counters
were read. -/
structure Served (config : Config) (st : State) (words : List Word) (signal : Signal)
    (before : ThreadInfo) (group counted : EventGroup) (monitor : Monitor) (sampled : ThreadInfo)
    (after : ThreadInfo) (next : State) : Prop where
  isThread : st.tidMap.get? (st.threadOf signal.fd) = some before
  isReal : before.isDummyThread = false
  isGroup : before.eventGroups.get? signal.fd = some group
  isCounted : group.overflow = some counted
  monitored : MonitorStep config st.monitor
    (before.overflowed signal.fd counted words).enterPhase monitor sampled
  readBy : ∃ metered reading, ReadBy config signal sampled after
    { counted with buf := group.buf ++ words } metered reading
  monitor : ∃ msrs, next.monitor = { monitor with msrs } ∧
    ∀ core, effectiveMask msrs core = effectiveMask monitor.msrs core
  tidMap : ∀ other, next.tidMap.get? other =
    if other = st.threadOf signal.fd then some after else st.tidMap.get? other
  fdMap : next.fdMap = st.fdMap
  done : next.done = true ↔ st.done = true ∨ after.tidx = 0 ∧ config.numPhases ≤ after.phases
  lead : next.firstFinishedThread =
    if st.FinishesFirst config after then after.tid else st.firstFinishedThread
  stopped : next.stopped =
    if st.FinishesFirst config after then after.tid :: st.stopped else st.stopped

/-- The group that overflowed is the one that is read. -/
theorem get?_overflowed {tinfo : ThreadInfo} {fd : ℤ} {group : EventGroup} :
    (tinfo.overflowed fd group words).eventGroups.get? fd =
      some { group with buf := group.buf ++ words } :=
  Dict.get?_insert_self _ _ _

theorem buf_overflow {group counted : EventGroup} (isCounted : group.overflow = some counted) :
    counted.buf = group.buf ∧ counted.numEvents = group.numEvents := by
  rw [EventGroup.overflow] at isCounted
  split at isCounted
  · cases isCounted
    exact ⟨rfl, rfl⟩
  · cases isCounted
  · cases isCounted
    exact ⟨rfl, rfl⟩

theorem served_of_systemStep (unlogged : st.monitor.Unlogged)
    (stepped : systemStep config st (.phase words signal) = .ok next) :
    ∃ before group counted monitor sampled after,
      Served config st words signal before group counted monitor sampled after next := by
  obtain ⟨overflowed, isOverflowed, handled⟩ := overflowed_of_systemStep stepped
  obtain ⟨tinfo, monitor, sampled, msrs, after, isThread, isReal, monitored, counted, result⟩ :=
    sigthymeHandler_cases handled
  obtain ⟨sameMonitor, sameFdMap, sameDone, before, isBefore, others, isOverflow⟩ :=
    overflow_cases isOverflowed isThread
  obtain ⟨sameLead, sameStopped⟩ := overflow_frame isOverflowed
  have sameEnd : ({ overflowed with
      monitor := { monitor with msrs }
      tidMap := overflowed.tidMap.insert (overflowed.threadOf signal.fd) after } :
        State).FinishesFirst config after ↔ st.FinishesFirst config after :=
    and_congr_right fun _ => Eq.congr_left sameLead
  have sameThread : overflowed.threadOf signal.fd = st.threadOf signal.fd := by
    rw [State.threadOf, State.threadOf, sameFdMap]
  have step := monitorPhase_cases (sameMonitor ▸ unlogged) monitored
  obtain ⟨⟨group', metered, reading, readBy⟩, sameMasks⟩ := readCounters_cases counted
  have isRead := readBy.isGroup
  rw [step.sameReading.eventGroups] at isRead
  rcases isOverflow with ⟨rfl, noGroup⟩ | ⟨group, count, isGroup, isCounted, rfl⟩
  · have absurdGroup : tinfo.eventGroups.get? signal.fd = some group' := isRead
    rw [noGroup] at absurdGroup
    cases absurdGroup
  · have isSame := get?_overflowed.symm.trans isRead
    cases isSame
    refine ⟨before, group, count, monitor, sampled, after, isBefore, isReal, isGroup, isCounted,
      sameMonitor ▸ step, ⟨metered, reading, ?_⟩, ⟨msrs, ?_, sameMasks⟩, fun other => ?_, ?_, ?_,
      ?_, ?_⟩
    · rw [← (buf_overflow isCounted).1]
      exact readBy
    · rw [result, State.monitor_finish]
    · rw [result, State.tidMap_finish, Dict.get?_insert, sameThread]
      split
      · rfl
      · exact others other ‹_›
    · rw [result, State.fdMap_finish, sameFdMap]
    · rw [result, State.done_finish, sameDone]
    · rw [result, State.firstFinishedThread_finish]
      exact if_congr sameEnd rfl sameLead
    · rw [result, State.stopped_finish]
      exact if_congr sameEnd (congrArg _ sameStopped) sameStopped

/-- A wait event is none of the monitor's business. -/
theorem monitor_of_wait {wait : Wait} (stepped : systemStep config st (.wait wait) = .ok next) :
    next.monitor = st.monitor := (waitedBy_of_systemStep stepped).monitor

/-- Every event leaves the curves unlogged. -/
theorem unlogged_systemStep {event : Event} (unlogged : st.monitor.Unlogged)
    (stepped : systemStep config st event = .ok next) : next.monitor.Unlogged := by
  cases event with
  | phase words signal =>
      obtain ⟨before, group, counted, monitor, sampled, after, served⟩ :=
        served_of_systemStep unlogged stepped
      obtain ⟨msrs, isMonitor, -⟩ := served.monitor
      have kept := served.monitored.unlogged unlogged
      rw [isMonitor]
      exact kept
  | wait wait =>
      rw [monitor_of_wait stepped]
      exact unlogged

/-- No event changes which thread a descriptor belongs to. -/
theorem fdMap_systemStep {event : Event} (unlogged : st.monitor.Unlogged)
    (stepped : systemStep config st event = .ok next) : next.fdMap = st.fdMap := by
  cases event with
  | phase words signal =>
      obtain ⟨before, group, counted, monitor, sampled, after, served⟩ :=
        served_of_systemStep unlogged stepped
      exact served.fdMap
  | wait wait => exact (waitedBy_of_systemStep stepped).fdMap

end

end Datamime.Profiler
