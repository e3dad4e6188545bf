/-
# Starting up

The profiler gives each profiled thread a record, an index in the order of the
command line, and a core of its own. The cores are taken in order from those of the
first memory node, whereas a sampling round addresses a core by the index of the
thread. The two numberings agree exactly as far as the node's cores are numbered
from zero without a gap.
-/

import Datamime.Math.Binary64
import Datamime.Profiler.Plan

namespace Datamime.Profiler

open Datamime.Math Datamime.Hardware

/-- The arguments of the command line. -/
structure Args where
  events : List Char
  phaseLen : ℕ
  numPhases : ℕ
  mrcWarmupPeriod : ℕ
  mrcProfilePeriod : ℕ
  tgid : ℤ
  mrcEstMode : Bool
  profiledTids : List ℤ

/-- `(period * 1e6) / phase_len`: a period in millions of cycles, in phases. The arithmetic is in
double precision. The conversion of a quotient that does not fit a word is undefined; it is read
as 0. -/
def Args.phasesIn (args : Args) (period : ℕ) : ℕ :=
  let cycles := Binary64.round (Binary64.round period * 1000000)
  let quotient := Binary64.truncDiv cycles (Binary64.round args.phaseLen)
  if args.phaseLen = 0 ∨ 2 ^ 64 ≤ quotient then 0 else quotient

/-- `mrc_warmup_interval`. -/
def Args.mrcWarmupInterval (args : Args) : ℕ := args.phasesIn args.mrcWarmupPeriod

/-- `mrc_profile_interval`. -/
def Args.mrcProfileInterval (args : Args) : ℕ := args.phasesIn args.mrcProfilePeriod

/-- The record of a profiled thread before it has any event group. -/
def newThread (machine : Machine) (plan : Plan) (args : Args) (tidx : ℕ) (tid : ℤ) (core : ℕ) :
    ThreadInfo where
  tidx := tidx
  tid := tid
  tgid := args.tgid
  cores := [core]
  phases := 0
  phasesWithCurrentGroup := 0
  isDummyThread := false
  xPoints := List.replicate plan.numWaysToSample 0
  yPointsIpc := List.replicate plan.numWaysToSample 0
  yPointsMpki := List.replicate plan.numWaysToSample 0
  mrcEstAvg := List.replicate machine.cacheNumWays 0
  mrcEstimates := List.replicate estimateColumns (List.replicate machine.cacheNumWays 0)
  ipcCurveAvg := List.replicate machine.cacheNumWays 0
  ipcCurveEstimates := List.replicate estimateColumns (List.replicate machine.cacheNumWays 0)
  mrcEstIndex := 0
  outfile := []
  mrcOutfile := if args.mrcEstMode then some [] else none
  ipcOutfile := if args.mrcEstMode then some [] else none
  rmid := tidx + 1
  values := []
  lastInstrCtr := 0
  lastCyclesCtr := 0
  lastMemTrafficCtr := 0
  memTrafficLast := 0
  memTrafficTotal := 0
  avgCacheOccupancy := 0
  eventGroups := Dict.empty

/-- `state.assignable_cores`: the cores of memory node 0. -/
def assignableCores (machine : Machine) : List ℕ :=
  (List.range machine.numLogicalCores).filter fun core => machine.numaNodeOfCpu core = 0

/-- The loop of `main` over the profiled threads. -/
def createThreads (machine : Machine) (plan : Plan) (args : Args) :
    ℕ → List ℕ → List ℤ → Dict ℤ ThreadInfo → Except Fault (Dict ℤ ThreadInfo)
  | _, _, [], tidMap => .ok tidMap
  | _, [], _ :: _, _ => .error (.outOfRange .assignableCores)
  | tidx, core :: cores, tid :: tids, tidMap =>
      createThreads machine plan args (tidx + 1) cores tids
        (tidMap.insert tid (newThread machine plan args tidx tid core))

/-- The threads that `main` creates for the command line. -/
def threadsOf (machine : Machine) (plan : Plan) (args : Args) :
    Except Fault (Dict ℤ ThreadInfo) :=
  createThreads machine plan args 0 (assignableCores machine) args.profiledTids Dict.empty

variable {machine : Machine} {plan : Plan} {args : Args}

/-- A thread is pinned to the core at the position of its own index. -/
def PinnedByIndex (cores : List ℕ) (tinfo : ThreadInfo) : Prop :=
  ∃ core, cores[tinfo.tidx]? = some core ∧ tinfo.cores = [core]

theorem pinnedByIndex_createThreads {cores taken rest : List ℕ} {tids : List ℤ}
    {tidMap threads : Dict ℤ ThreadInfo} (split : cores = taken ++ rest)
    (pinned : ∀ tid tinfo, tidMap.get? tid = some tinfo → PinnedByIndex cores tinfo)
    (created : createThreads machine plan args taken.length rest tids tidMap = .ok threads)
    {tid : ℤ} {tinfo : ThreadInfo} (found : threads.get? tid = some tinfo) :
    PinnedByIndex cores tinfo := by
  induction tids generalizing taken rest tidMap with
  | nil =>
      rw [createThreads] at created
      cases created
      exact pinned tid tinfo found
  | cons first tids ih =>
      cases rest with
      | nil => cases created
      | cons core rest =>
          rw [createThreads] at created
          have longer : cores = (taken ++ [core]) ++ rest := by simp [split]
          refine ih longer ?_ (by simpa using created)
          intro other record listed
          rw [Dict.get?_insert] at listed
          split at listed
          · cases listed
            exact ⟨core, by simp [split, newThread], rfl⟩
          · exact pinned other record listed

theorem pinnedByIndex_threadsOf {threads : Dict ℤ ThreadInfo}
    (created : threadsOf machine plan args = .ok threads) {tid : ℤ} {tinfo : ThreadInfo}
    (found : threads.get? tid = some tinfo) : PinnedByIndex (assignableCores machine) tinfo := by
  have untaken : assignableCores machine = [] ++ assignableCores machine := rfl
  refine pinnedByIndex_createThreads untaken ?_ created found
  intro other record absent
  cases absent

/-! ## Two numberings of the cores -/

/-- If the `i`-th number with a property is `i` itself, all numbers up to `i` have it. -/
theorem good_of_getElem?_filter_range {good : ℕ → Bool} {count i : ℕ}
    (here : ((List.range count).filter good)[i]? = some i) : ∀ number ≤ i, good number = true := by
  induction count with
  | zero => simp at here
  | succ count ih =>
      rw [List.range_succ, List.filter_append] at here
      by_cases inside : i < ((List.range count).filter good).length
      · rw [List.getElem?_append_left inside] at here
        exact ih here
      · rw [List.getElem?_append_right (by omega)] at here
        have position := (List.getElem?_eq_some_iff.mp here).1
        have atMostOne := List.length_filter_le good [count]
        rw [List.length_singleton] at atMostOne
        have isLast : i ∈ [count].filter good := List.mem_of_getElem? here
        rw [List.mem_filter, List.mem_singleton] at isLast
        obtain ⟨rfl, goodLast⟩ := isLast
        -- All smaller numbers were kept, otherwise there would be fewer than `i` of them.
        have kept : ((List.range i).filter good).length = (List.range i).length :=
          le_antisymm (List.length_filter_le _ _) (by rw [List.length_range]; omega)
        rw [List.length_filter_eq_length_iff] at kept
        intro number atMost
        rcases Nat.lt_or_eq_of_le atMost with below | rfl
        · exact kept number (List.mem_range.mpr below)
        · exact goodLast

/-- The `i`-th number with a property is `i` itself precisely if all numbers up to `i`
have the property. -/
theorem getElem?_filter_range_eq_self_iff {good : ℕ → Bool} {count i : ℕ} (below : i < count) :
    ((List.range count).filter good)[i]? = some i ↔ ∀ number ≤ i, good number = true := by
  refine ⟨good_of_getElem?_filter_range, fun allGood => ?_⟩
  obtain ⟨rest, rfl⟩ : ∃ rest, count = i + 1 + rest := ⟨count - (i + 1), by omega⟩
  have kept : (List.range (i + 1)).filter good = List.range (i + 1) := by
    rw [List.filter_eq_self]
    exact fun number inside => allGood number (by have := List.mem_range.mp inside; omega)
  rw [List.range_add, List.filter_append, kept, List.getElem?_append_left (by simp)]
  simp

/-- While a thread is sampled, the core that is moved to the first class of service is the
core that the thread was pinned to, precisely if all cores with numbers up to the index of
the thread belong to the first memory node. -/
theorem sampled_core_eq_pinned_core_iff {threads : Dict ℤ ThreadInfo}
    (created : threadsOf machine plan args = .ok threads) {tid : ℤ} {tinfo : ThreadInfo}
    (found : threads.get? tid = some tinfo) {slice : Slice} {msrs : Msrs}
    {currentlySampling : ℕ → CoreSampling} {next : Msrs × (ℕ → CoreSampling)}
    (set : setCachewaysToCores machine slice tinfo.tidx msrs currentlySampling = .ok next) :
    ∃ core, tinfo.cores = [core] ∧
      ((∀ other < machine.numLogicalCores, cosOf next.1 other = 1 ↔ other = core) ↔
        ∀ other ≤ tinfo.tidx, machine.numaNodeOfCpu other = 0) := by
  obtain ⟨core, pinned, onlyCore⟩ := pinnedByIndex_threadsOf created found
  refine ⟨core, onlyCore, ?_⟩
  have applied := applied_of_setCachewaysToCores set
  have isCore : core ∈ assignableCores machine := List.mem_of_getElem? pinned
  have coreInside : core < machine.numLogicalCores :=
    List.mem_range.mp (List.mem_filter.mp isCore).1
  -- The list of the node's cores is at most as long as the list of all cores.
  have inside : tinfo.tidx < machine.numLogicalCores := by
    have position := (List.getElem?_eq_some_iff.mp pinned).1
    have shorter := List.length_filter_le (fun core => decide (machine.numaNodeOfCpu core = 0))
      (List.range machine.numLogicalCores)
    rw [List.length_range] at shorter
    exact lt_of_lt_of_le position shorter
  have moved : ∀ other < machine.numLogicalCores, cosOf next.1 other = 1 ↔ other = tinfo.tidx := by
    intro other below
    constructor
    · intro first
      by_contra different
      rw [applied.others other below different] at first
      cases first
    · rintro rfl
      exact applied.profiled
  have samePosition : (∀ other ≤ tinfo.tidx, machine.numaNodeOfCpu other = 0) ↔
      core = tinfo.tidx := by
    have exactly : (assignableCores machine)[tinfo.tidx]? = some tinfo.tidx ↔ _ :=
      getElem?_filter_range_eq_self_iff inside
    simp only [decide_eq_true_eq] at exactly
    rw [← exactly, pinned, Option.some.injEq]
  rw [samePosition]
  constructor
  · intro exactlyCore
    exact (moved core coreInside).mp ((exactlyCore core coreInside).mpr rfl)
  · rintro rfl
    exact moved

/-! ## A machine whose nodes take turns -/

/-- Eight cores that belong to two memory nodes in turn. -/
def interleavedMachine : Machine where
  numCores := 8
  numLogicalCores := 8
  opensMsr := fun _ => true
  cacheNumWays := 12
  cacheLineSize := 64
  catSupported := true
  l3CatSupported := true
  cbmLen := 12
  numCos := 16
  cmtMultiplier := 1
  numaNodeOfCpu := fun core => core % 2
  numCos_le := by decide
  cbmLen_le := by decide

/-- The plan for twelve ways. -/
def twelveWayPlan : Plan := ⟨assignments 12 [11, 11, 8, 6, 4, 2, 1], by decide⟩

/-- A request to profile two threads. -/
def twoThreads : Args where
  events := []
  phaseLen := 20000000
  numPhases := 5500
  mrcWarmupPeriod := 1000
  mrcProfilePeriod := 10000
  tgid := 100
  mrcEstMode := true
  profiledTids := [100, 101]

/-- The second thread as `main` creates it on that machine. -/
def secondThread : ThreadInfo := newThread interleavedMachine twelveWayPlan twoThreads 1 101 2

theorem exists_threadsOf_twoThreads :
    ∃ threads, threadsOf interleavedMachine twelveWayPlan twoThreads = .ok threads ∧
      threads.get? 101 = some secondThread :=
  ⟨_, rfl, rfl⟩

theorem exists_set_of_secondThread :
    ∃ next, setCachewaysToCores interleavedMachine (sliceOf 12 4) secondThread.tidx
      (fun _ _ => 0) (fun _ => ⟨0, 0⟩) = .ok next := by
  have isOk : (setCachewaysToCores interleavedMachine (sliceOf 12 4) secondThread.tidx
      (fun _ _ => 0) (fun _ => ⟨0, 0⟩)).isOk = true := by decide +kernel
  revert isOk
  cases setCachewaysToCores interleavedMachine (sliceOf 12 4) secondThread.tidx
      (fun _ _ => 0) (fun _ => ⟨0, 0⟩) with
  | ok next => exact fun _ => ⟨next, rfl⟩
  | error fault => exact nofun

/-- The second thread is pinned to core 2, but core 1 is given its ways. -/
theorem second_thread_sampled_on_foreign_core :
    ∃ threads next, threadsOf interleavedMachine twelveWayPlan twoThreads = .ok threads ∧
      threads.get? 101 = some secondThread ∧
      setCachewaysToCores interleavedMachine (sliceOf 12 4) secondThread.tidx
        (fun _ _ => 0) (fun _ => ⟨0, 0⟩) = .ok next ∧
      secondThread.cores = [2] ∧ cosOf next.1 1 = 1 ∧ cosOf next.1 2 = 2 := by
  obtain ⟨threads, created, found⟩ := exists_threadsOf_twoThreads
  obtain ⟨next, set⟩ := exists_set_of_secondThread
  have applied := applied_of_setCachewaysToCores set
  exact ⟨threads, next, created, found, set, rfl, applied.profiled,
    applied.others 2 (by decide) (by decide)⟩

/-- The exact condition, applied to that thread. -/
theorem secondThread_core_iff :
    ∃ next : Msrs × (ℕ → CoreSampling), ∃ core, secondThread.cores = [core] ∧
      ((∀ other < interleavedMachine.numLogicalCores, cosOf next.1 other = 1 ↔ other = core) ↔
        ∀ other ≤ secondThread.tidx, interleavedMachine.numaNodeOfCpu other = 0) := by
  obtain ⟨threads, created, found⟩ := exists_threadsOf_twoThreads
  obtain ⟨next, set⟩ := exists_set_of_secondThread
  exact ⟨next, sampled_core_eq_pinned_core_iff created found set⟩

end Datamime.Profiler
