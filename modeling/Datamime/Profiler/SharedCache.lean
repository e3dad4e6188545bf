/-
# The cache after a run

In the miss-curve mode a run starts with a cache that all cores share, and a sampling round
takes ways away from them. Only the signal that closes a round gives the ways back. Nothing
else does, the end of the run included: if it falls into a round, the profiled core stays
confined to the ways of the last slice, and so does every program that runs on it later.
-/

import Datamime.Math.History
import Datamime.Profiler.HandlerCases
import Datamime.Profiler.Main

namespace Datamime.Profiler

open Datamime.Math Datamime.Hardware

/-! ## Opening and closing a round -/

/-- The thread whose phase an event ends. -/
def State.phaseOf (st : State) : Event → Option ThreadInfo
  | .phase _ signal => (st.tidMap.get? (st.threadOf signal.fd)).map (·.enterPhase)
  | .wait _ => none

/-- The event opens a round: the leading thread ends an interval of the monitor before its
last phase. -/
def OpensAt (config : Config) (st : State) (event : Event) : Prop :=
  ∃ tinfo, st.phaseOf event = some tinfo ∧ OpensRound config st.monitor tinfo

/-- The phase completes a round: the last thread collects the sample of its last slice. -/
def Completes (config : Config) (monitor : Monitor) (tinfo : ThreadInfo) : Prop :=
  Collects config monitor tinfo ∧ monitor.sampleSlicesIdx = config.plan.numWaysToSample ∧
    config.numProfiledThreads ≤ monitor.thrIdxProfiledGlobal + 1

/-- The event closes a round. -/
def ClosesAt (config : Config) (st : State) (event : Event) : Prop :=
  ∃ tinfo, st.phaseOf event = some tinfo ∧ Completes config st.monitor tinfo

section

variable {config : Config} {monitor next : Monitor} {tinfo after : ThreadInfo}

theorem Installed.monitorStartFlag {slice : Slice}
    (installed : Installed config monitor next slice) :
    next.monitorStartFlag = monitor.monitorStartFlag := by
  obtain ⟨msrs, currentlySampling, -, rfl⟩ := installed.result
  rfl

theorem MonitorStep.flag_of_opens (step : MonitorStep config monitor tinfo next after)
    (opens : OpensRound config monitor tinfo) : next.monitorStartFlag = true := by
  obtain ⟨slice, installed, -⟩ := step.of_opens opens
  exact installed.monitorStartFlag

theorem MonitorStep.flag_of_completes (step : MonitorStep config monitor tinfo next after)
    (completes : Completes config monitor tinfo) : next.monitorStartFlag = false := by
  obtain ⟨collects, all, last⟩ := completes
  rcases step.of_collects collects with ⟨notAll, -⟩ | ⟨-, ended, -⟩
  · exact absurd all notAll
  · cases ended with
    | handedOver more => exact absurd last (Nat.not_le.mpr more)
    | closed last msrs shared => rfl

theorem MonitorStep.flag_of_neither (step : MonitorStep config monitor tinfo next after)
    (opensNone : ¬ OpensRound config monitor tinfo)
    (incomplete : ¬ Completes config monitor tinfo) :
    next.monitorStartFlag = monitor.monitorStartFlag := by
  cases step with
  | idles closed goesOn after saved => rfl
  | passes invokes opensNone read => rfl
  | opens opensRound read slice next installed => exact absurd opensRound opensNone
  | waits samples read position next sampled stored noTurn => cases stored <;> rfl
  | advances collects read position more slice next installed =>
      exact installed.monitorStartFlag
  | finishes collects read all logged next isLogged ended estimated estimates =>
      cases ended with
      | handedOver more =>
          rw [isLogged]
          rfl
      | closed last msrs shared =>
          rw [isLogged] at last
          exact absurd ⟨collects, all, last⟩ incomplete

end

section

variable {config : Config} {st next : State} {words : List Word} {signal : Signal}
  {before : ThreadInfo} {group counted : EventGroup} {monitor : Monitor}
  {sampled after : ThreadInfo}

theorem Served.phaseOf
    (served : Served config st words signal before group counted monitor sampled after next) :
    st.phaseOf (.phase words signal) = some before.enterPhase := by
  rw [State.phaseOf, served.isThread, Option.map_some]

/-- An event with a phase is a signal, and the phase is that of its thread. -/
theorem served_of_phaseOf (unlogged : st.monitor.Unlogged) {event : Event} {tinfo : ThreadInfo}
    (stepped : systemStep config st event = .ok next) (isPhase : st.phaseOf event = some tinfo) :
    ∃ words signal before group counted monitor sampled after,
      event = .phase words signal ∧ tinfo = before.enterPhase ∧
        Served config st words signal before group counted monitor sampled after next := by
  cases event with
  | wait wait => cases isPhase
  | phase words signal =>
      obtain ⟨before, group, counted, monitor, sampled, after, served⟩ :=
        served_of_systemStep unlogged stepped
      cases served.phaseOf.symm.trans isPhase
      exact ⟨words, signal, before, group, counted, monitor, sampled, after, rfl, rfl, served⟩

theorem Served.monitorStartFlag
    (served : Served config st words signal before group counted monitor sampled after next) :
    next.monitor.monitorStartFlag = monitor.monitorStartFlag := by
  obtain ⟨msrs, isMonitor, -⟩ := served.monitor
  rw [isMonitor]

end

/-- The flag of an open round is a latch. The overflow before the phase changes nothing that
the monitor looks at. -/
theorem latches_monitorStartFlag (config : Config) :
    Latches (systemStep config) (fun st => st.monitor.Unlogged)
      (fun st => st.monitor.monitorStartFlag) (OpensAt config) (ClosesAt config) := by
  constructor
  · rintro st event next unlogged stepped ⟨tinfo, isPhase, opens⟩
    obtain ⟨words, signal, before, group, counted, monitor, sampled, after, rfl, rfl, served⟩ :=
      served_of_phaseOf unlogged stepped isPhase
    exact served.monitorStartFlag.trans (served.monitored.flag_of_opens opens)
  · rintro st event next unlogged stepped ⟨tinfo, isPhase, completes⟩
    obtain ⟨words, signal, before, group, counted, monitor, sampled, after, rfl, rfl, served⟩ :=
      served_of_phaseOf unlogged stepped isPhase
    exact served.monitorStartFlag.trans (served.monitored.flag_of_completes completes)
  · intro st event next unlogged stepped opensNone closesNone
    cases event with
    | wait wait => rw [monitor_of_wait stepped]
    | phase words signal =>
        obtain ⟨before, group, counted, monitor, sampled, after, served⟩ :=
          served_of_systemStep unlogged stepped
        refine served.monitorStartFlag.trans (served.monitored.flag_of_neither ?_ ?_)
        · exact fun opens => opensNone ⟨_, served.phaseOf, opens⟩
        · exact fun completes => closesNone ⟨_, served.phaseOf, completes⟩

/-! ## The masks -/

/-- The profiler's hold on the cache: outside of a round every core may fill all ways, within
one some core may not. The thread whose turn it is has a core. -/
structure HoldsCache (machine : Machine) (monitor : Monitor) : Prop where
  turn : monitor.thrIdxProfiledGlobal < machine.numLogicalCores
  shared : monitor.monitorStartFlag = false → ∀ core < machine.numLogicalCores,
    effectiveMask monitor.msrs core = fullMask machine.cacheNumWays
  confined : monitor.monitorStartFlag = true → ∃ core < machine.numLogicalCores,
    effectiveMask monitor.msrs core ≠ fullMask machine.cacheNumWays

/-- The machine can run the plan: all slices are narrow, and there is a core for every
profiled thread. -/
structure Feasible (config : Config) : Prop where
  narrow : ∀ slice ∈ config.plan.slices, Narrow config.machine.cacheNumWays slice
  fits : config.machine.cacheNumWays ≤ 32
  cores : config.numProfiledThreads ≤ config.machine.numLogicalCores

section

variable {config : Config} {monitor next : Monitor} {tinfo after : ThreadInfo}

/-- A slice in force confines the core of the thread whose turn it is. -/
theorem Installed.holdsCache (feasible : Feasible config) {slice : Slice}
    (installed : Installed config monitor next slice)
    (turn : monitor.thrIdxProfiledGlobal < config.machine.numLogicalCores)
    (isOpen : monitor.monitorStartFlag = true) : HoldsCache config.machine next := by
  obtain ⟨-, isSlice, msrs, currentlySampling, set, rfl⟩ := installed
  have narrow := feasible.narrow slice (List.mem_of_getElem? isSlice)
  refine ⟨turn, fun closed => ?_, fun _ => ⟨_, turn, ?_⟩⟩
  · have stillOpen : monitor.monitorStartFlag = false := closed
    rw [isOpen] at stillOpen
    cases stillOpen
  · show effectiveMask msrs _ ≠ _
    rw [(applied_of_setCachewaysToCores set).effectiveMask_profiled]
    exact narrow.getCbm_ne_fullMask feasible.fits

theorem MonitorStep.holdsCache (feasible : Feasible config)
    (holds : HoldsCache config.machine monitor)
    (step : MonitorStep config monitor tinfo next after) : HoldsCache config.machine next := by
  cases step with
  | idles closed goesOn after saved => exact holds
  | passes invokes opensNone read => exact holds
  | opens opensRound read slice next installed =>
      exact installed.holdsCache feasible holds.turn rfl
  | waits samples read position next sampled stored noTurn =>
      cases stored with
      | failed none => exact ⟨holds.turn, holds.shared, holds.confined⟩
      | collected some => exact ⟨holds.turn, holds.shared, holds.confined⟩
  | advances collects read position more slice next installed =>
      exact installed.holdsCache feasible holds.turn collects.1.1
  | finishes collects read all logged next isLogged ended estimated estimates =>
      rw [isLogged] at ended
      cases ended with
      | handedOver more => exact ⟨more.trans_le feasible.cores, holds.shared, holds.confined⟩
      | closed last msrs shared =>
          exact ⟨Nat.zero_lt_of_lt holds.turn,
            fun _ core inside => effectiveMask_of_shareAllCacheWays shared inside, nofun⟩

theorem holdsCache_systemStep {st next : State} {event : Event} (feasible : Feasible config)
    (unlogged : st.monitor.Unlogged) (holds : HoldsCache config.machine st.monitor)
    (stepped : systemStep config st event = .ok next) :
    HoldsCache config.machine next.monitor := by
  cases event with
  | wait wait =>
      rw [monitor_of_wait stepped]
      exact holds
  | phase words signal =>
      obtain ⟨before, group, counted, monitor, sampled, after, served⟩ :=
        served_of_systemStep unlogged stepped
      obtain ⟨turn, shared, confined⟩ := served.monitored.holdsCache feasible holds
      obtain ⟨msrs, isMonitor, sameMasks⟩ := served.monitor
      rw [isMonitor]
      refine ⟨turn, fun closed core inside => ?_, fun isOpen => ?_⟩
      · exact (sameMasks core).trans (shared closed core inside)
      · obtain ⟨core, inside, narrow⟩ := confined isOpen
        exact ⟨core, inside, by rwa [← sameMasks core] at narrow⟩

end

/-! ## Every run -/

/-- There are cores for the profiled threads and two more. -/
theorem length_profiledTids_of_main {library : Interpolation} {machine : Machine} {args : Args}
    {launch : Launch} {config : Config} {st : State}
    (started : main library machine args launch = .ok (config, st)) :
    args.profiledTids.length < machine.numLogicalCores := by
  obtain ⟨shared, -, started⟩ := bind_eq_ok_iff.mp started
  obtain ⟨plan, -, started⟩ := bind_eq_ok_iff.mp started
  obtain ⟨threads, -, started⟩ := bind_eq_ok_iff.mp started
  dsimp only at started
  split at started
  · rename_i scanCore mainthrCore free cores
    have taken := congrArg List.length cores
    have atMost := List.length_filter_le (fun core => decide (machine.numaNodeOfCpu core = 0))
      (List.range machine.numLogicalCores)
    rw [List.length_range] at atMost
    rw [List.length_drop, List.length_cons, assignableCores] at taken
    omega
  · cases started

section

variable {library : Interpolation} {machine : Machine} {args : Args} {launch : Launch}
  {config : Config} {start last : State}

theorem feasible_of_main (started : main library machine args launch = .ok (config, start)) :
    Feasible config := by
  obtain ⟨⟨plan, generated, rfl⟩, -⟩ := launched_of_main started
  obtain ⟨-, upper, narrow⟩ := narrow_of_generateProfilingPlan generated
  exact ⟨narrow, upper.trans (by decide), (length_profiledTids_of_main started).le⟩

/-- Every run in the miss-curve mode keeps its hold on the cache. -/
theorem holdsCache_of_run (started : main library machine args launch = .ok (config, start))
    (mrcMode : args.mrcEstMode = true) {events : List Event}
    (reached : run (systemStep config) start events = .ok last) :
    HoldsCache machine last.monitor := by
  obtain ⟨⟨plan, -, isConfig⟩, ⟨msrs, globals⟩, -, -, shared, -⟩ := launched_of_main started
  have sameMachine : config.machine = machine := by rw [isConfig]; rfl
  have holds : HoldsCache config.machine start.monitor := by
    rw [sameMachine]
    refine ⟨?_, fun _ => shared mrcMode, ?_⟩
    · rw [globals]
      exact Nat.zero_lt_of_lt (length_profiledTids_of_main started)
    · rw [globals]
      exact nofun
  have unlogged : start.monitor.Unlogged := by
    rw [globals]
    exact fun _ => rfl
  rw [← sameMachine]
  have kept := @run_invariant _ _ _ (systemStep config)
    (fun st => st.monitor.Unlogged ∧ HoldsCache config.machine st.monitor)
    (fun st event next both stepped => ⟨unlogged_systemStep both.1 stepped,
      holdsCache_systemStep (feasible_of_main started) both.1 both.2 stepped⟩)
    start last events ⟨unlogged, holds⟩ reached
  exact kept.2

/-- The cache is shared precisely if every signal so far that opened a sampling round was
followed by one that closed it. -/
theorem shared_iff_eachFollowed (started : main library machine args launch = .ok (config, start))
    (mrcMode : args.mrcEstMode = true) {events : List Event}
    (reached : run (systemStep config) start events = .ok last) :
    (∀ core < machine.numLogicalCores,
        effectiveMask last.monitor.msrs core = fullMask machine.cacheNumWays) ↔
      EachFollowed (systemStep config) start events (OpensAt config) (ClosesAt config) := by
  obtain ⟨-, ⟨msrs, globals⟩, -⟩ := launched_of_main started
  have unlogged : start.monitor.Unlogged := by
    rw [globals]
    exact fun _ => rfl
  rw [← latch_eq_false_iff (latches_monitorStartFlag config) unlogged
    (fun st event next => unlogged_systemStep) (by rw [globals]; rfl) reached]
  have holds := holdsCache_of_run started mrcMode reached
  refine ⟨fun shared => ?_, holds.shared⟩
  by_contra isOpen
  obtain ⟨core, inside, narrow⟩ := holds.confined (Bool.eq_true_of_not_eq_false isOpen)
  exact narrow (shared core inside)

/-- If the run has wound down, every core may fill all ways again. -/
def State.LeavesCacheShared (st : State) (machine : Machine) : Prop :=
  st.done = true → st.Returned → ∀ core < machine.numLogicalCores,
    effectiveMask st.monitor.msrs core = fullMask machine.cacheNumWays

/-- A run in the miss-curve mode leaves the cache shared precisely if, once it has wound down,
every round that was opened had been closed. -/
theorem leavesCacheShared_iff (started : main library machine args launch = .ok (config, start))
    (mrcMode : args.mrcEstMode = true) (events : List Event)
    (reached : run (systemStep config) start events = .ok last) :
    last.LeavesCacheShared machine ↔ (last.done = true → last.Returned →
      EachFollowed (systemStep config) start events (OpensAt config) (ClosesAt config)) := by
  have shared := shared_iff_eachFollowed started mrcMode reached
  exact forall_congr' fun _ => forall_congr' fun _ => shared

end

/-! ## The end of a run within a round -/

/-- One thread for three phases, with a sampling round after the second one. -/
def threePhases : Args where
  events := []
  phaseLen := 20000000
  numPhases := 3
  mrcWarmupPeriod := 40
  mrcProfilePeriod := 10000
  tgid := 100
  mrcEstMode := true
  profiledTids := [100]

/-- Three phases, and the stop of the thread. -/
def endWithinRound : List Event :=
  List.replicate 3 (.phase sampleWords (quietSignal 1000)) ++ [.wait ⟨100, 0x137f, false⟩]

theorem exists_run_endWithinRound :
    ∃ config start last,
      main noInterpolation interleavedMachine threePhases quietLaunch = .ok (config, start) ∧
      run (systemStep config) start endWithinRound = .ok last ∧ last.done = true ∧
      last.tidMap.size = 1 ∧ effectiveMask last.monitor.msrs 0 = 0xFFE#32 :=
  ⟨_, _, _, rfl, rfl, rfl, rfl, by decide +kernel⟩

/-- After that run the first core is left with eleven of the twelve ways. -/
theorem end_within_round_confines_core :
    ∃ config start last,
      main noInterpolation interleavedMachine threePhases quietLaunch = .ok (config, start) ∧
      run (systemStep config) start endWithinRound = .ok last ∧
      ¬ last.LeavesCacheShared interleavedMachine := by
  obtain ⟨config, start, last, started, reached, done, oneLeft, confined⟩ :=
    exists_run_endWithinRound
  refine ⟨config, start, last, started, reached, fun shared => ?_⟩
  have full := shared done oneLeft.le 0 (by decide)
  rw [confined] at full
  revert full
  decide +kernel

/-- The exact condition, applied to that run. -/
theorem endWithinRound_leavesCacheShared_iff :
    ∃ config start last,
      main noInterpolation interleavedMachine threePhases quietLaunch = .ok (config, start) ∧
      run (systemStep config) start endWithinRound = .ok last ∧
      (last.LeavesCacheShared interleavedMachine ↔ (last.done = true → last.Returned →
        EachFollowed (systemStep config) start endWithinRound (OpensAt config)
          (ClosesAt config))) := by
  obtain ⟨config, start, last, started, reached, -⟩ := exists_run_endWithinRound
  exact ⟨config, start, last, started, reached,
    leavesCacheShared_iff started rfl endWithinRound reached⟩

end Datamime.Profiler
