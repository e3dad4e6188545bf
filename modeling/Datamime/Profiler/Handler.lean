/-
# The signal handler

The kernel signals the end of every phase of every thread, and all of them share one
handler. In the miss-curve mode it steps through the slices of the plan: the leading
thread opens a round from time to time, the thread whose turn it is collects one sample
for each slice, and the last sample of the last thread closes the round. The counters of
the phase are read after that, so that a sample compares the counters of the two phases
before.
-/

import Datamime.Profiler.Estimates
import Datamime.Profiler.ReadCounters

namespace Datamime.Profiler

open Datamime.Math Datamime.Hardware

/-! ## Samples -/

/-- Remember the counters that the last read has left. -/
def ThreadInfo.saveCounters (tinfo : ThreadInfo) : Except Fault ThreadInfo := do
  let cycles ← index .values tinfo.values 2
  let instr ← index .values tinfo.values 1
  return { tinfo with
    lastCyclesCtr := cycles
    lastInstrCtr := instr
    lastMemTrafficCtr := BitVec.ofInt 64 tinfo.memTrafficTotal }

/-- The value of an unsigned word. -/
def wordValue (word : Word) : ERat := .num word.toNat

/-- Mark whether a core's sample was collected. -/
def Monitor.mark (monitor : Monitor) (tidx status : ℕ) : Monitor :=
  { monitor with
    currentlySampling := Function.update monitor.currentlySampling tidx
      ⟨(monitor.currentlySampling tidx).ways, status⟩ }

/-- The sample of the phases since the counters were remembered. Without any instruction the
sample is marked as failed. -/
def collectSample (config : Config) (monitor : Monitor) (tinfo : ThreadInfo) :
    Except Fault (Monitor × ThreadInfo) := do
  let slot := monitor.sampleSlicesIdx - 1
  let xPoints ← setAt .xPoints tinfo.xPoints slot (monitor.currentlySampling tinfo.tidx).ways
  let instr ← index .values tinfo.values 1
  let cycles ← index .values tinfo.values 2
  let instrDelta := instr - tinfo.lastInstrCtr
  if instrDelta = 0 then
    return (monitor.mark tinfo.tidx 5, { tinfo with xPoints })
  else
    let yPointsIpc ← setAt .yPoints tinfo.yPointsIpc slot
      (wordValue instrDelta / wordValue (cycles - tinfo.lastCyclesCtr))
    let misses := wordValue (BitVec.ofInt 64 tinfo.memTrafficTotal - tinfo.lastMemTrafficCtr) /
      .num config.machine.cacheLineSize
    let yPointsMpki ← setAt .yPoints tinfo.yPointsMpki slot
      (misses * .num 1000 / wordValue instrDelta)
    return (monitor.mark tinfo.tidx 0, { tinfo with xPoints, yPointsIpc, yPointsMpki })

/-- The values that are logged after a sample. -/
def logSample (monitor : Monitor) (tinfo : ThreadInfo) : Except Fault Unit := do
  let slot := monitor.sampleSlicesIdx - 1
  let _sampledWays ← index .xPoints tinfo.xPoints slot
  let _sampledIpc ← index .yPoints tinfo.yPointsIpc slot
  let _sampledMpki ← index .yPoints tinfo.yPointsMpki slot

/-! ## Slices and rounds -/

/-- Put the next slice in force. -/
def installSlice (config : Config) (monitor : Monitor) : Except Fault Monitor := do
  let slice ← index .cacheAssignments config.plan.slices monitor.sampleSlicesIdx
  let (msrs, currentlySampling) ← setCachewaysToCores config.machine slice
    monitor.thrIdxProfiledGlobal monitor.msrs monitor.currentlySampling
  return { monitor with
    msrs, currentlySampling, sampleSlicesIdx := monitor.sampleSlicesIdx + 1 }

/-- The monitor before the first slice of a round. -/
def Monitor.opened (monitor : Monitor) (mrcProfileInterval : ℕ) : Monitor :=
  { monitor with
    mrcInvokeMonitorLen :=
      if monitor.firstMRCInvocation then mrcProfileInterval else monitor.mrcInvokeMonitorLen
    firstMRCInvocation := false
    enableArrayScans := true
    monitorStartFlag := true
    sampleSlicesIdx := 0 }

/-- A signal at the end of an interval: the leading thread opens a round, unless it is
finished. -/
def invokeMonitor (config : Config) (monitor : Monitor) (tinfo : ThreadInfo) :
    Except Fault (Monitor × ThreadInfo) := do
  let tinfo ← tinfo.saveCounters
  if tinfo.tidx = 0 ∧ tinfo.phases < config.numPhases then
    return (← installSlice config (monitor.opened config.mrcProfileInterval), tinfo)
  else return (monitor, tinfo)

/-- The turn passes to the next thread, and after the last one the round is closed. -/
def nextThread (config : Config) (monitor : Monitor) : Except Fault Monitor :=
  let next := { monitor with
    loggingMRCFlags := fun _ => 0
    sampleSlicesIdx := 0
    thrIdxProfiledGlobal := monitor.thrIdxProfiledGlobal + 1 }
  if config.numProfiledThreads ≤ next.thrIdxProfiledGlobal then do
    let msrs ← shareAllCacheWays config.machine config.machine.numLogicalCores
      config.machine.cacheNumWays next.msrs
    return { next with
      thrIdxProfiledGlobal := 0
      monitorStartFlag := false
      enableArrayScans := false
      msrs := msrs }
  else .ok next

/-- The thread whose turn it is estimates its curves, unless it has logged them. -/
def estimateOnce (config : Config) (monitor : Monitor) (tinfo : ThreadInfo) :
    Except Fault (Monitor × ThreadInfo) :=
  if tinfo.tidx = monitor.thrIdxProfiledGlobal ∧ monitor.loggingMRCFlags tinfo.tidx < 1 then do
    let estimated ← estimateCurves config tinfo
    return ({ monitor with
      loggingMRCFlags := Function.update monitor.loggingMRCFlags tinfo.tidx 1 }, estimated)
  else .ok (monitor, tinfo)

/-- A signal after the last slice. -/
def finishRound (config : Config) (monitor : Monitor) (tinfo : ThreadInfo) :
    Except Fault (Monitor × ThreadInfo) := do
  let (monitor, tinfo) ← estimateOnce config monitor tinfo
  if monitor.loggingMRCFlags monitor.thrIdxProfiledGlobal = 1 then
    return (← nextThread config monitor, tinfo)
  else return (monitor, tinfo)

/-- Before the last slice the profiled thread goes on to the next one, once its sample is
collected. -/
def nextSlice (config : Config) (monitor : Monitor) (tinfo : ThreadInfo) : Except Fault Monitor :=
  if tinfo.tidx = monitor.thrIdxProfiledGlobal ∧
      (monitor.currentlySampling monitor.thrIdxProfiledGlobal).status = 0 then
    installSlice config monitor
  else .ok monitor

/-- A signal while a round is open. -/
def sampleSlice (config : Config) (monitor : Monitor) (tinfo : ThreadInfo) :
    Except Fault (Monitor × ThreadInfo) := do
  let (monitor, tinfo) ← collectSample config monitor tinfo
  let tinfo ← tinfo.saveCounters
  logSample monitor tinfo
  if monitor.sampleSlicesIdx = config.plan.numWaysToSample ∧
      (monitor.currentlySampling tinfo.tidx).status ≠ 5 then
    finishRound config monitor tinfo
  else return (← nextSlice config monitor tinfo, tinfo)

/-! ## The handler -/

/-- Another phase of the thread has ended. -/
def ThreadInfo.enterPhase (tinfo : ThreadInfo) : ThreadInfo :=
  { tinfo with
    phases := tinfo.phases + 1
    phasesWithCurrentGroup := tinfo.phasesWithCurrentGroup + 1 }

/-- Outside of a round the counters are remembered all the time. -/
def saveIdle (monitor : Monitor) (tinfo : ThreadInfo) : Except Fault ThreadInfo :=
  if monitor.monitorStartFlag = false ∧ 1 < tinfo.phases then tinfo.saveCounters else .ok tinfo

/-- The part of the handler before the counters are read. -/
def monitorPhase (config : Config) (monitor : Monitor) (tinfo : ThreadInfo) :
    Except Fault (Monitor × ThreadInfo) := do
  let tinfo ← saveIdle monitor tinfo
  if monitor.mrcInvokeMonitorLen = 0 then .error .divisionByZero
  else if tinfo.phases % monitor.mrcInvokeMonitorLen = 0 ∧ config.mrcEstMode = true then
    invokeMonitor config monitor tinfo
  else if monitor.monitorStartFlag = true ∧ tinfo.phases % monitorLen = 0 then
    sampleSlice config monitor tinfo
  else return (monitor, tinfo)

/-- The last phase of the leading thread ends the run and stops the thread. -/
def State.finish (st : State) (config : Config) (tinfo : ThreadInfo) : State :=
  if tinfo.tidx = 0 ∧ config.numPhases ≤ tinfo.phases then
    { st with
      done := true
      firstFinishedThread :=
        if st.firstFinishedThread = -1 then tinfo.tid else st.firstFinishedThread
      stopped := if st.firstFinishedThread = -1 then tinfo.tid :: st.stopped else st.stopped }
  else st

/-- `fd_map[fd]`: a missing descriptor reads as thread 0. -/
def State.threadOf (st : State) (fd : ℤ) : ℤ := (st.fdMap.get? fd).getD 0

/-- `sigthyme_handler`. -/
def sigthymeHandler (config : Config) (st : State) (signal : Signal) : Except Fault State :=
  let tid := st.threadOf signal.fd
  match st.tidMap.get? tid with
  | none => .error .nullEntry
  | some tinfo =>
      if tinfo.isDummyThread then .error .assertion
      else do
        let (monitor, tinfo) ← monitorPhase config st.monitor tinfo.enterPhase
        let (msrs, tinfo) ← readCounters config signal monitor.msrs tinfo
        return { st with
          monitor := { monitor with msrs }
          tidMap := st.tidMap.insert tid tinfo }.finish config tinfo

end Datamime.Profiler
