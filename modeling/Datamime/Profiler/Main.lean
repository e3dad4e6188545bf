/-
# Starting a run

At start-up the cache is shared by all cores in the miss-curve mode, every profiled thread
and the array-scanning thread get a record and a core, their traffic counters are read for
the first time, and the event groups of the profiled threads are created. What this leaves
behind is the first state of every run.
-/

import Datamime.Profiler.System

namespace Datamime.Profiler

open Datamime.Math Datamime.Hardware

/-- What the machine and the kernel contribute to a start. -/
structure Launch where
  registers : Msrs
  /-- The array-scanning thread, and the main thread that created it. -/
  scanThreadTid : ℤ
  mainTid : ℤ
  /-- What the monitoring counters show when a thread is set up. -/
  counters : ℤ → QmCounters
  kernel : ℤ → Kernel

/-- `initCmt` for each of the threads. -/
def initThreads (machine : Machine) (counters : ℤ → QmCounters) :
    List ℤ → Msrs × Dict ℤ ThreadInfo → Except Fault (Msrs × Dict ℤ ThreadInfo)
  | [], st => .ok st
  | tid :: tids, (msrs, tidMap) =>
      match tidMap.get? tid with
      | none => .error .nullEntry
      | some tinfo => do
          let (msrs, tinfo) ← initCmt machine (counters tid) msrs tinfo
          initThreads machine counters tids (msrs, tidMap.insert tid tinfo)

/-- `create_event_groups` for each of the threads. -/
def createAllGroups (kernel : ℤ → Kernel) (args : Args) :
    List ℤ → Dict ℤ ThreadInfo × Dict ℤ ℤ → Except Fault (Dict ℤ ThreadInfo × Dict ℤ ℤ)
  | [], st => .ok st
  | tid :: tids, (tidMap, fdMap) =>
      match tidMap.get? tid with
      | none => .error .nullEntry
      | some tinfo => do
          let (tinfo, fdMap) ← createEventGroups (kernel tid) args tinfo fdMap
          createAllGroups kernel args tids (tidMap.insert tid tinfo, fdMap)

/-- The record of the array-scanning thread, as `create_scan_threads` fills it. -/
def scanThread (mainTid : ℤ) (tidx : ℕ) (tid : ℤ) (core : ℕ) : ThreadInfo where
  tidx := tidx
  tid := tid
  tgid := mainTid
  cores := [core]
  phases := 0
  phasesWithCurrentGroup := 0
  isDummyThread := true
  xPoints := []
  yPointsIpc := []
  yPointsMpki := []
  mrcEstAvg := []
  mrcEstimates := []
  ipcCurveAvg := []
  ipcCurveEstimates := []
  mrcEstIndex := 0
  outfile := []
  mrcOutfile := none
  ipcOutfile := none
  rmid := tidx + 1
  values := []
  lastInstrCtr := 0
  lastCyclesCtr := 0
  lastMemTrafficCtr := 0
  memTrafficLast := 0
  memTrafficTotal := 0
  avgCacheOccupancy := 0
  eventGroups := Dict.empty

/-- The globals before the first signal. -/
def initialMonitor (args : Args) (msrs : Msrs) : Monitor where
  monitorStartFlag := false
  firstMRCInvocation := true
  sampleSlicesIdx := -1
  mrcInvokeMonitorLen := args.mrcWarmupInterval
  thrIdxProfiledGlobal := 0
  enableArrayScans := false
  currentlySampling := fun _ => ⟨0, 0⟩
  loggingMRCFlags := fun _ => 0
  msrs := msrs

/-- What stays the same during the runs of a command line. -/
def configOf (library : Interpolation) (machine : Machine) (plan : Plan) (args : Args) :
    Config where
  toInterpolation := library
  machine := machine
  plan := plan
  numPhases := args.numPhases
  mrcEstMode := args.mrcEstMode
  mrcProfileInterval := args.mrcProfileInterval
  numProfiledThreads := args.profiledTids.length

/-- Only the miss-curve mode shares the cache before it starts. -/
def initialRegisters (machine : Machine) (args : Args) (registers : Msrs) : Except Fault Msrs :=
  if args.mrcEstMode then
    shareAllCacheWays machine machine.numLogicalCores machine.cacheNumWays registers
  else .ok registers

/-- `main`, up to the call of `profile`. -/
def main (library : Interpolation) (machine : Machine) (args : Args) (launch : Launch) :
    Except Fault (Config × State) := do
  let msrs ← initialRegisters machine args launch.registers
  let plan ← generateProfilingPlan machine.cacheNumWays
  let threads ← threadsOf machine plan args
  let tidx := args.profiledTids.length
  match (assignableCores machine).drop tidx with
  | scanCore :: _mainthrCore :: _ => do
      let tidMap := threads.insert launch.scanThreadTid
        (scanThread launch.mainTid tidx launch.scanThreadTid scanCore)
      let (msrs, tidMap) ← initThreads machine launch.counters
        (tidMap.entries.map Prod.fst) (msrs, tidMap)
      let (tidMap, fdMap) ←
        createAllGroups launch.kernel args args.profiledTids (tidMap, Dict.empty)
      return (configOf library machine plan args, {
        monitor := initialMonitor args msrs
        tidMap := tidMap
        fdMap := fdMap
        firstFinishedThread := -1
        done := false
        stopped := [] })
  | _ => .error (.outOfRange .assignableCores)

/-! ## The first state -/

section

variable {machine : Machine} {plan : Plan} {args : Args}

/-- What the preparation of a thread changes. -/
def ThreadInfo.prepared (tinfo : ThreadInfo) (memTrafficLast : ℤ) (outfile : List Char)
    (eventGroups : Dict ℤ EventGroup) : ThreadInfo :=
  { tinfo with memTrafficLast, outfile, eventGroups }

/-- A thread from the command line, before its first phase. -/
def IsFresh (machine : Machine) (plan : Plan) (args : Args) (tid : ℤ) (tinfo : ThreadInfo) :
    Prop :=
  args.profiledTids[tinfo.tidx]? = some tid ∧
    ∃ core last outfile groups,
      tinfo = (newThread machine plan args tinfo.tidx tid core).prepared last outfile groups

/-- A thread from the command line before its groups are created. -/
def IsInitial (machine : Machine) (plan : Plan) (args : Args) (tid : ℤ) (tinfo : ThreadInfo) :
    Prop :=
  args.profiledTids[tinfo.tidx]? = some tid ∧
    ∃ core last,
      tinfo = (newThread machine plan args tinfo.tidx tid core).prepared last [] Dict.empty

theorem IsInitial.init {tid : ℤ} {tinfo : ThreadInfo}
    (initial : IsInitial machine plan args tid tinfo) (last : ℤ) :
    IsInitial machine plan args tid
      { tinfo with memTrafficLast := last, memTrafficTotal := 0, avgCacheOccupancy := 0 } := by
  obtain ⟨position, core, oldLast, isNew⟩ := initial
  refine ⟨position, core, last, ?_⟩
  rw [isNew]
  rfl

theorem IsInitial.isFresh {tid : ℤ} {tinfo : ThreadInfo}
    (initial : IsInitial machine plan args tid tinfo) : IsFresh machine plan args tid tinfo := by
  obtain ⟨position, core, last, isNew⟩ := initial
  exact ⟨position, core, last, [], Dict.empty, isNew⟩

theorem IsFresh.grouped {tid : ℤ} {tinfo : ThreadInfo}
    (fresh : IsFresh machine plan args tid tinfo) (outfile : List Char)
    (eventGroups : Dict ℤ EventGroup) : IsFresh machine plan args tid
      { tinfo with outfile := outfile, eventGroups := eventGroups } := by
  obtain ⟨position, core, last, oldOutfile, oldGroups, isNew⟩ := fresh
  refine ⟨position, core, last, outfile, eventGroups, ?_⟩
  rw [isNew]
  rfl

/-- The array-scanning thread or a fresh one. -/
def Startable (machine : Machine) (plan : Plan) (args : Args) (tid : ℤ) (tinfo : ThreadInfo) :
    Prop :=
  tinfo.isDummyThread = true ∨ IsFresh machine plan args tid tinfo

theorem newThread_of_createThreads {taken tids : List ℤ} {cores : List ℕ}
    {tidMap threads : Dict ℤ ThreadInfo} (split : args.profiledTids = taken ++ tids)
    (fresh : ∀ tid tinfo, tidMap.get? tid = some tinfo →
      args.profiledTids[tinfo.tidx]? = some tid ∧
        ∃ core, tinfo = newThread machine plan args tinfo.tidx tid core)
    (created : createThreads machine plan args taken.length cores tids tidMap = .ok threads)
    {tid : ℤ} {tinfo : ThreadInfo} (found : threads.get? tid = some tinfo) :
    args.profiledTids[tinfo.tidx]? = some tid ∧
      ∃ core, tinfo = newThread machine plan args tinfo.tidx tid core := by
  induction tids generalizing taken cores tidMap with
  | nil =>
      rw [createThreads] at created
      cases created
      exact fresh tid tinfo found
  | cons first tids ih =>
      cases cores with
      | nil => cases created
      | cons core cores =>
          rw [createThreads] at created
          have longer : args.profiledTids = (taken ++ [first]) ++ tids := by simp [split]
          refine ih longer ?_ (by simpa using created)
          intro other record listed
          rw [Dict.get?_insert] at listed
          split at listed
          · rename_i here
            cases listed
            exact ⟨by simp [split, newThread, here], core, by rw [here]; rfl⟩
          · exact fresh other record listed

theorem effectiveMask_of_foldlM_setRmid {rmid : ℕ} {cores : List ℕ} {msrs next : Msrs}
    (assigned : cores.foldlM (fun msrs core => setRmid machine msrs core rmid) msrs = .ok next)
    (core : ℕ) : effectiveMask next core = effectiveMask msrs core := by
  induction cores generalizing msrs with
  | nil =>
      cases assigned
      rfl
  | cons first rest ih =>
      rw [List.foldlM_cons] at assigned
      obtain ⟨middle, mapped, assigned⟩ := bind_eq_ok_iff.mp assigned
      exact (ih assigned).trans (effectiveMask_of_setRmid mapped core)

/-- Setting up the counters of a thread changes nothing that a fresh thread fixes, and no
mask. -/
theorem initCmt_frame {counters : QmCounters} {msrs : Msrs} {tinfo : ThreadInfo}
    {ready : Msrs × ThreadInfo} (initialised : initCmt machine counters msrs tinfo = .ok ready) :
    (∃ last, ready.2 = { tinfo with
        memTrafficLast := last, memTrafficTotal := 0, avgCacheOccupancy := 0 }) ∧
      ∀ core, effectiveMask ready.1 core = effectiveMask msrs core := by
  obtain ⟨assigned, looped, initialised⟩ := bind_eq_ok_iff.mp initialised
  obtain ⟨reading, found, initialised⟩ := bind_eq_ok_iff.mp initialised
  cases initialised
  exact ⟨⟨_, rfl⟩, fun core =>
    (readQmCtr_frame found core).trans (effectiveMask_of_foldlM_setRmid looped core)⟩

/-- A property of the threads that setting up their counters keeps. -/
theorem forall_initThreads {good : ℤ → ThreadInfo → Prop} {counters : ℤ → QmCounters}
    (kept : ∀ tid tinfo last, good tid tinfo → good tid { tinfo with
      memTrafficLast := last, memTrafficTotal := 0, avgCacheOccupancy := 0 })
    {tids : List ℤ} {st ready : Msrs × Dict ℤ ThreadInfo}
    (before : ∀ tid tinfo, st.2.get? tid = some tinfo → good tid tinfo)
    (initialised : initThreads machine counters tids st = .ok ready) :
    (∀ tid tinfo, ready.2.get? tid = some tinfo → good tid tinfo) ∧
      ∀ core, effectiveMask ready.1 core = effectiveMask st.1 core := by
  induction tids generalizing st with
  | nil =>
      cases initialised
      exact ⟨before, fun _ => rfl⟩
  | cons first tids ih =>
      obtain ⟨msrs, tidMap⟩ := st
      rw [initThreads] at initialised
      cases isThread : tidMap.get? first with
      | none =>
          rw [isThread] at initialised
          cases initialised
      | some tinfo =>
          rw [isThread] at initialised
          obtain ⟨⟨nextMsrs, next⟩, atNext, initialised⟩ := bind_eq_ok_iff.mp initialised
          obtain ⟨⟨last, isNext⟩, sameMasks⟩ := initCmt_frame atNext
          dsimp only at isNext sameMasks
          obtain ⟨later, laterMasks⟩ := ih (fun tid record listed => by
            rw [Dict.get?_insert] at listed
            split at listed
            · rename_i here
              cases listed
              rw [isNext, here]
              exact kept first tinfo last (before first tinfo isThread)
            · exact before tid record listed) initialised
          exact ⟨later, fun core => (laterMasks core).trans (sameMasks core)⟩

/-- A property of the threads that the creation of their groups establishes. -/
theorem forall_createAllGroups {good : ℤ → ThreadInfo → Prop} {kernel : ℤ → Kernel}
    (kept : ∀ tid tinfo outfile groups, good tid tinfo →
      good tid { tinfo with outfile := outfile, eventGroups := groups })
    {tids : List ℤ} {st ready : Dict ℤ ThreadInfo × Dict ℤ ℤ}
    (before : ∀ tid tinfo, st.1.get? tid = some tinfo → good tid tinfo)
    (created : createAllGroups kernel args tids st = .ok ready) {tid : ℤ} {tinfo : ThreadInfo}
    (found : ready.1.get? tid = some tinfo) : good tid tinfo := by
  induction tids generalizing st with
  | nil =>
      cases created
      exact before tid tinfo found
  | cons first tids ih =>
      obtain ⟨tidMap, fdMap⟩ := st
      rw [createAllGroups] at created
      cases isThread : tidMap.get? first with
      | none =>
          rw [isThread] at created
          cases created
      | some record =>
          rw [isThread] at created
          obtain ⟨⟨next, nextFdMap⟩, atNext, created⟩ := bind_eq_ok_iff.mp created
          obtain ⟨groups, firstFd, group, createdBy⟩ := createdBy_of_createEventGroups atNext
          have isNext := createdBy.result
          refine ih (fun tid tinfo listed => ?_) created
          dsimp only at isNext listed
          rw [Dict.get?_insert] at listed
          split at listed
          · rename_i here
            cases listed
            rw [isNext, here]
            exact kept first record _ _ (before first record isThread)
          · exact before tid tinfo listed

end

/-- What the start leaves behind: fresh threads beside the array-scanning one, the globals
before the first signal, and in the miss-curve mode a cache that all cores share. -/
structure Launched (library : Interpolation) (machine : Machine) (args : Args) (config : Config)
    (st : State) : Prop where
  plan : ∃ plan, generateProfilingPlan machine.cacheNumWays = .ok plan ∧
    config = configOf library machine plan args
  globals : ∃ msrs, st.monitor = initialMonitor args msrs
  threads : ∀ tid tinfo, st.tidMap.get? tid = some tinfo →
    Startable machine config.plan args tid tinfo
  running : st.done = false
  shared : args.mrcEstMode = true → ∀ core < machine.numLogicalCores,
    effectiveMask st.monitor.msrs core = fullMask machine.cacheNumWays
  pinned : ∀ tid tinfo, st.tidMap.get? tid = some tinfo →
    tinfo.isDummyThread = true ∨ PinnedByIndex (assignableCores machine) tinfo

/-- The threads that are profiled are the fresh ones. -/
theorem Launched.isFresh {library : Interpolation} {machine : Machine} {args : Args}
    {config : Config} {st : State} (launched : Launched library machine args config st) {tid : ℤ}
    {tinfo : ThreadInfo} (isThread : st.tidMap.get? tid = some tinfo)
    (isReal : tinfo.isDummyThread = false) : IsFresh machine config.plan args tid tinfo := by
  rcases launched.threads tid tinfo isThread with isDummy | fresh
  · rw [isReal] at isDummy
    cases isDummy
  · exact fresh

theorem Launched.mrcEstMode {library : Interpolation} {machine : Machine} {args : Args}
    {config : Config} {st : State} (launched : Launched library machine args config st) :
    config.mrcEstMode = args.mrcEstMode := by
  obtain ⟨plan, -, rfl⟩ := launched.plan
  rfl

/-- The start, up to the creation of the event groups. -/
structure MainSteps (library : Interpolation) (machine : Machine) (args : Args)
    (launch : Launch) (config : Config) (st : State) (plan : Plan) (msrs : Msrs)
    (initial : Dict ℤ ThreadInfo) : Prop where
  generated : generateProfilingPlan machine.cacheNumWays = .ok plan
  isConfig : config = configOf library machine plan args
  threads : ∀ tid tinfo, initial.get? tid = some tinfo →
    tinfo.isDummyThread = true ∨ IsInitial machine plan args tid tinfo
  pinned : ∀ tid tinfo, initial.get? tid = some tinfo →
    tinfo.isDummyThread = true ∨ PinnedByIndex (assignableCores machine) tinfo
  shared : args.mrcEstMode = true → ∀ core < machine.numLogicalCores,
    effectiveMask msrs core = fullMask machine.cacheNumWays
  grouped : ∃ tidMap fdMap,
    createAllGroups launch.kernel args args.profiledTids (initial, Dict.empty) =
      .ok (tidMap, fdMap) ∧
    st = {
      monitor := initialMonitor args msrs
      tidMap := tidMap
      fdMap := fdMap
      firstFinishedThread := -1
      done := false
      stopped := [] }

theorem mainSteps_of_main {library : Interpolation} {machine : Machine} {args : Args}
    {launch : Launch} {config : Config} {st : State}
    (started : main library machine args launch = .ok (config, st)) :
    ∃ plan msrs initial, MainSteps library machine args launch config st plan msrs initial := by
  obtain ⟨shared, atShared, started⟩ := bind_eq_ok_iff.mp started
  obtain ⟨plan, generated, started⟩ := bind_eq_ok_iff.mp started
  obtain ⟨threads, created, started⟩ := bind_eq_ok_iff.mp started
  dsimp only at started
  split at started
  · rename_i scanCore mainthrCore free cores
    obtain ⟨⟨msrs, initial⟩, initialised, started⟩ := bind_eq_ok_iff.mp started
    obtain ⟨⟨tidMap, fdMap⟩, grouped, started⟩ := bind_eq_ok_iff.mp started
    cases started
    have listed : ∀ tid tinfo,
        (threads.insert launch.scanThreadTid (scanThread launch.mainTid args.profiledTids.length
          launch.scanThreadTid scanCore)).get? tid = some tinfo →
        tinfo.isDummyThread = true ∨ IsInitial machine plan args tid tinfo ∧
          PinnedByIndex (assignableCores machine) tinfo := by
      intro tid tinfo isListed
      rw [Dict.get?_insert] at isListed
      split at isListed
      · cases isListed
        exact .inl rfl
      · have untaken : args.profiledTids = [] ++ args.profiledTids := rfl
        obtain ⟨position, core, isNew⟩ := newThread_of_createThreads untaken
          (fun _ _ absent => by cases absent) created isListed
        exact .inr ⟨⟨position, core, 0, isNew⟩, pinnedByIndex_threadsOf created isListed⟩
    obtain ⟨afterInit, sameMasks⟩ := forall_initThreads
      (fun _ _ last either => either.imp_right fun isInitial =>
        ⟨isInitial.1.init last, isInitial.2⟩)
      listed initialised
    refine ⟨plan, msrs, initial, generated, rfl,
      fun tid tinfo found => (afterInit tid tinfo found).imp_right And.left,
      fun tid tinfo found => (afterInit tid tinfo found).imp_right And.right,
      fun mrcMode core inside => ?_, tidMap, fdMap, grouped, rfl⟩
    rw [initialRegisters, if_pos mrcMode] at atShared
    exact (sameMasks core).trans (effectiveMask_of_shareAllCacheWays atShared inside)
  · cases started

theorem launched_of_main {library : Interpolation} {machine : Machine} {args : Args}
    {launch : Launch} {config : Config} {st : State}
    (started : main library machine args launch = .ok (config, st)) :
    Launched library machine args config st := by
  obtain ⟨plan, msrs, initial, generated, rfl, threads, pinned, shared, tidMap, fdMap, grouped,
    rfl⟩ := mainSteps_of_main started
  have startable : ∀ tid tinfo, initial.get? tid = some tinfo →
      Startable machine plan args tid tinfo := fun tid tinfo isListed =>
    (threads tid tinfo isListed).imp_right IsInitial.isFresh
  refine ⟨⟨plan, generated, rfl⟩, ⟨msrs, rfl⟩, fun tid tinfo found => ?_, rfl, shared,
    fun tid tinfo found => ?_⟩
  · exact forall_createAllGroups
      (fun _ _ outfile groups isStartable =>
        isStartable.imp_right fun isFresh => isFresh.grouped outfile groups)
      startable grouped found
  · exact forall_createAllGroups (fun _ _ _ _ isPinned => isPinned) pinned grouped found

/-! ## A start on the machine whose nodes take turns -/

/-- A kernel that opens the three events of a group under consecutive descriptors. -/
def quietKernel (fd : ℤ) : Kernel where
  opened := [some fd, some (fd + 1), some (fd + 2)]
  setupError := fun _ => none
  timeMult := fun _ => 1
  timeShift := fun _ => 0
  supported := fun _ => false
  refreshFails := false
  arrange := id
  arrange_get? := Dict.get?_id

/-- A start that nothing disturbs. -/
def quietLaunch : Launch where
  registers := fun _ _ => 0
  scanThreadTid := 102
  mainTid := 99
  counters := fun _ _ _ => 0
  kernel := fun tid => quietKernel (10 * tid)

/-- The two threads, profiled without miss curves. -/
def phasesOnly : Args := { twoThreads with mrcEstMode := false }

/-- A sample of the three events of a group. -/
def sampleWords : List Word := [BitVec.ofNat 64 (9 + 72 * 2 ^ 48), 0, 0, 3, 0, 0, 0, 0, 0]

/-- A signal while no monitored counter moves. -/
def quietSignal (fd : ℤ) : Signal where
  fd := fd
  trafficFirst := fun _ _ => 0
  trafficSecond := fun _ _ => 0
  occupancy := fun _ _ => 0
  readOutcomes := []
  refreshFails := false

end Datamime.Profiler
