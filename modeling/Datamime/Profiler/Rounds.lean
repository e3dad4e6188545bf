/-
# Rounds that are interrupted

With a single thread a round takes one signal for each slice, and the rounds after the first one
start at the multiples of the profile interval, which is longer than that. But the first one
starts when the warmup interval ends, wherever that lies between two multiples, and the handler
does not ask whether a round is running when it opens one: if the next multiple comes before the
first round is through, the round starts all over again. And a round that nothing interrupts comes
to its end only if there is a column left for its curves and points to interpolate them.
-/

import Datamime.Profiler.CurveColumns
import Datamime.Profiler.MonitorLength
import Datamime.Profiler.ServedSignals

namespace Datamime.Profiler

open Datamime.Math Datamime.Hardware

/-! ## What a phase does to a round -/

section

variable {config : Config} {monitor next : Monitor} {tinfo after : ThreadInfo}

/-- Outside of a round, and within an interval, nothing happens. -/
theorem MonitorStep.stays (step : MonitorStep config monitor tinfo next after)
    (closed : monitor.monitorStartFlag = false) (goesOn : ¬ InvokesMonitor config monitor tinfo) :
    next = monitor := by
  have closedNot (isOpen : monitor.monitorStartFlag = true) : next = monitor := by
    rw [closed] at isOpen
    cases isOpen
  cases step with
  | idles _ _ after saved => rfl
  | passes invokes opensNone read => exact absurd invokes goesOn
  | opens opensRound read slice next installed => exact absurd opensRound.1 goesOn
  | waits samples read position next sampled stored noTurn => exact closedNot samples.1
  | advances collects read position more slice next installed => exact closedNot collects.1.1
  | finishes collects read all logged next isLogged ended estimated estimates =>
      exact closedNot collects.1.1

/-- The opening of a round, whether one is running or not. -/
structure Reopened (config : Config) (monitor next : Monitor) : Prop where
  isOpen : next.monitorStartFlag = true
  position : next.sampleSlicesIdx = 1
  notFirst : next.firstMRCInvocation = false
  interval : next.mrcInvokeMonitorLen =
    if monitor.firstMRCInvocation then config.mrcProfileInterval else monitor.mrcInvokeMonitorLen

theorem MonitorStep.reopened (step : MonitorStep config monitor tinfo next after)
    (opens : OpensRound config monitor tinfo) :
    Reopened config monitor next ∧ after.mrcEstIndex = tinfo.mrcEstIndex := by
  obtain ⟨interval, notFirst⟩ := step.interval_of_opens opens
  obtain ⟨slice, installed, rfl⟩ := step.of_opens opens
  exact ⟨⟨installed.monitorStartFlag, installed.sampleSlicesIdx.2.2, notFirst, interval⟩, rfl⟩

/-- The phase that opens a round remembers the counters of an earlier read. -/
theorem MonitorStep.read_of_opens (step : MonitorStep config monitor tinfo next after)
    (opens : OpensRound config monitor tinfo) : 3 ≤ tinfo.values.length := by
  cases step with
  | idles closed goesOn after saved => exact absurd opens.1 goesOn
  | passes _ _ read => exact read
  | opens _ read => exact read
  | waits _ read => exact read
  | advances _ read => exact read
  | finishes _ read => exact read

/-- The phase that opens a round finds a controller that sets up slices. -/
theorem MonitorStep.servesSlices_of_opens (step : MonitorStep config monitor tinfo next after)
    (generated : generateProfilingPlan config.machine.cacheNumWays = .ok config.plan)
    (turn : monitor.thrIdxProfiledGlobal = 0) (opens : OpensRound config monitor tinfo) :
    ServesSlices config.machine := by
  obtain ⟨slice, installed, -⟩ := step.of_opens opens
  have listed : slice ∈ config.plan.slices := List.mem_of_getElem? installed.isSlice
  obtain ⟨msrs, currentlySampling, set, -⟩ := installed.result
  obtain ⟨_, controls, -⟩ := bind_eq_ok_iff.mp set
  refine servesSlices_of_set generated listed ?_ set
  show monitor.thrIdxProfiledGlobal < config.machine.numCores
  rw [turn]
  exact cores_of_catController controls

/-- The next sample of a round, and the last one. -/
inductive Progressed (config : Config) (monitor : Monitor) (tinfo : ThreadInfo) (next : Monitor)
    (after : ThreadInfo) : Prop
  | goesOn (more : monitor.sampleSlicesIdx ≠ config.plan.numWaysToSample)
      (isOpen : next.monitorStartFlag = true)
      (position : next.sampleSlicesIdx = monitor.sampleSlicesIdx + 1)
      (columns : after.mrcEstIndex = tinfo.mrcEstIndex)
  | completes (all : monitor.sampleSlicesIdx = config.plan.numWaysToSample)
      (closed : next.monitorStartFlag = false)
      (columns : after.mrcEstIndex = tinfo.mrcEstIndex + 1)

theorem MonitorStep.progressed (single : config.numProfiledThreads = 1)
    (step : MonitorStep config monitor tinfo next after) (collects : Collects config monitor tinfo)
    (turn : monitor.thrIdxProfiledGlobal = 0) :
    Progressed config monitor tinfo next after ∧ SameInterval monitor next := by
  have interval := step.sameInterval fun opens => collects.1.2 opens.1
  refine ⟨?_, interval⟩
  rcases step.of_collects collects with ⟨more, slice, installed, rfl⟩ | ⟨all, ended, -⟩
  · exact .goesOn more (installed.monitorStartFlag.trans collects.1.1)
      installed.sampleSlicesIdx.2.2 rfl
  · have filled := step.mrcEstIndex_of_finishes ⟨collects, all⟩
    cases ended with
    | handedOver more =>
        have more : monitor.thrIdxProfiledGlobal + 1 < config.numProfiledThreads := more
        rw [single, turn] at more
        exact absurd more (lt_irrefl 1)
    | closed last msrs shared => exact .completes all rfl filled

/-- Where a run stands after a number of phases: it warms up, it rests between two rounds, or it
is so many phases into a round that started at the end of the warmup or at a later multiple of
the profile interval. -/
inductive RoundClock (config : Config) (warmup : ℕ) (monitor : Monitor) (phases : ℕ) : Prop
  | warmsUp (first : monitor.firstMRCInvocation = true) (closed : monitor.monitorStartFlag = false)
      (interval : monitor.mrcInvokeMonitorLen = warmup) (early : phases < warmup)
  | rests (notFirst : monitor.firstMRCInvocation = false)
      (closed : monitor.monitorStartFlag = false)
      (interval : monitor.mrcInvokeMonitorLen = config.mrcProfileInterval)
      (late : warmup + config.plan.numWaysToSample ≤ phases)
  | runs (opened taken : ℕ) (notFirst : monitor.firstMRCInvocation = false)
      (isOpen : monitor.monitorStartFlag = true)
      (interval : monitor.mrcInvokeMonitorLen = config.mrcProfileInterval)
      (position : monitor.sampleSlicesIdx = taken + 1) (now : phases = opened + taken)
      (running : taken < config.plan.numWaysToSample)
      (starts : opened = warmup ∨ warmup < opened ∧ config.mrcProfileInterval ∣ opened)

/-- Every phase before the last one moves the clock on. -/
theorem MonitorStep.roundClock (single : config.numProfiledThreads = 1)
    (mrcMode : config.mrcEstMode = true) {warmup phases : ℕ} (twoPhases : 2 ≤ warmup)
    (step : MonitorStep config monitor tinfo next after)
    (clock : RoundClock config warmup monitor phases) (leads : tinfo.tidx = 0)
    (turn : monitor.thrIdxProfiledGlobal = 0) (isPhase : tinfo.phases = phases + 1)
    (inRun : phases + 1 < config.numPhases) (moved : 2 ≤ phases → tinfo.instrDelta ≠ 0) :
    RoundClock config warmup next (phases + 1) := by
  have two : 2 ≤ config.plan.numWaysToSample := config.plan.twoSlices
  by_cases invokes : InvokesMonitor config monitor tinfo
  · have opens : OpensRound config monitor tinfo := ⟨invokes, leads, by omega⟩
    obtain ⟨⟨isOpen, position, notFirst, interval⟩, -⟩ := step.reopened opens
    have divides := Nat.dvd_of_mod_eq_zero invokes.1
    rw [isPhase] at divides
    cases clock with
    | warmsUp first closed wasWarmup early =>
        rw [wasWarmup] at divides
        have ends : phases + 1 = warmup :=
          Nat.le_antisymm early (Nat.le_of_dvd (Nat.succ_pos _) divides)
        rw [first] at interval
        exact .runs (phases + 1) 0 notFirst isOpen interval position rfl (by omega) (.inl ends)
    | rests wasNotFirst closed isInterval late =>
        rw [wasNotFirst] at interval
        rw [isInterval] at divides
        exact .runs (phases + 1) 0 notFirst isOpen (interval.trans isInterval) position rfl
          (by omega) (.inr ⟨by omega, divides⟩)
    | runs opened taken wasNotFirst wasOpen isInterval isPosition now running starts =>
        rw [wasNotFirst] at interval
        rw [isInterval] at divides
        exact .runs (phases + 1) 0 notFirst isOpen (interval.trans isInterval) position rfl
          (by omega) (.inr ⟨by omega, divides⟩)
  · cases clock with
    | warmsUp first closed interval early =>
        rw [step.stays closed invokes]
        refine .warmsUp first closed interval (Nat.lt_of_le_of_ne early fun ends => invokes ?_)
        rw [InvokesMonitor, interval, isPhase, ends, Nat.mod_self]
        exact ⟨rfl, mrcMode⟩
    | rests notFirst closed interval late =>
        rw [step.stays closed invokes]
        exact .rests notFirst closed interval (late.trans (Nat.le_succ _))
    | runs opened taken notFirst isOpen interval position now running starts =>
        have collects : Collects config monitor tinfo :=
          ⟨⟨isOpen, invokes⟩, leads.trans turn.symm, moved (by omega)⟩
        obtain ⟨progressed, sameLen, sameFirst⟩ := step.progressed single collects turn
        rw [← sameFirst] at notFirst
        rw [← sameLen] at interval
        cases progressed with
        | goesOn more stillOpen nextPosition columns =>
            exact .runs opened (taken + 1) notFirst stillOpen interval
              (by rw [nextPosition, position]; rfl) (by omega) (by omega) starts
        | completes all closed columns => exact .rests notFirst closed interval (by omega)

end

/-! ## One event -/

/-- The instruction counter advances: every signal leaves its thread with another number of
instructions than the one before. -/
def Advances (config : Config) (st : State) (event : Event) : Prop :=
  ∀ next, systemStep config st event = .ok next → ∀ words signal, event = .phase words signal →
    ∀ before after, st.Profiles (st.threadOf signal.fd) before →
      next.Profiles (st.threadOf signal.fd) after →
      SampledCounter.current after .instructions ≠ SampledCounter.current before .instructions

/-- What a run of a single thread keeps about the time of its rounds. -/
structure Timed (config : Config) (warmup : ℕ) (st : State) : Prop where
  clock : ∀ tid tinfo, st.Profiles tid tinfo → tinfo.phases < config.numPhases →
    RoundClock config warmup st.monitor tinfo.phases
  moved : ∀ tid tinfo, st.Profiles tid tinfo → 2 ≤ tinfo.phases →
    SampledCounter.current tinfo .instructions ≠ SampledCounter.last tinfo .instructions

section

variable {config : Config} {st next : State} {words : List Word} {signal : Signal}
  {before : ThreadInfo} {group counted : EventGroup} {monitor : Monitor}
  {sampled after : ThreadInfo} {args : Args} {tid : ℤ}

theorem RoundClock.withMsrs {warmup phases : ℕ} (clock : RoundClock config warmup monitor phases)
    (msrs : Msrs) : RoundClock config warmup { monitor with msrs } phases := by
  cases clock with
  | warmsUp first closed interval early => exact .warmsUp first closed interval early
  | rests notFirst closed interval late => exact .rests notFirst closed interval late
  | runs opened taken notFirst isOpen interval position now running starts =>
      exact .runs opened taken notFirst isOpen interval position now running starts

/-- After a signal of the single thread, it is still the only one. -/
theorem Served.only (led : Led args st) (oneThread : args.profiledTids = [tid])
    (served : Served config st words signal before group counted monitor sampled after next)
    {other : ℤ} {tinfo : ThreadInfo} (profiled : next.Profiles other tinfo) : tinfo = after := by
  obtain ⟨isThread, isReal⟩ := profiled
  rw [served.tidMap] at isThread
  split at isThread
  · exact (Option.some.inj isThread).symm
  · rename_i elsewhere
    have isTid := (led.only oneThread ⟨isThread, isReal⟩).1
    have alsoTid := (led.only oneThread ⟨served.isThread, served.isReal⟩).1
    exact absurd (isTid.trans alsoTid.symm) elsewhere

theorem Served.phases
    (served : Served config st words signal before group counted monitor sampled after next) :
    after.phases = before.phases + 1 := by
  obtain ⟨metered, reading, readBy⟩ := served.readBy
  exact readBy.sameSampling.phases.trans served.monitored.sameReading.phases

/-- Between two different readings of the instruction counter there are instructions. -/
theorem instrDelta_ne_zero {tinfo : ThreadInfo}
    (moved : SampledCounter.current tinfo .instructions ≠
      SampledCounter.last tinfo .instructions)
    (groups : Dict ℤ EventGroup) :
    { tinfo with eventGroups := groups }.enterPhase.instrDelta ≠ 0 :=
  fun none => moved ((BitVec.sub_eq_iff_eq_add.mp none).trans (BitVec.zero_add _))

theorem Timed.systemStep (single : config.numProfiledThreads = 1)
    (mrcMode : config.mrcEstMode = true) {warmup : ℕ} (twoPhases : 2 ≤ warmup)
    (unlogged : st.monitor.Unlogged) (led : Led args st)
    (oneThread : args.profiledTids = [tid]) (turn : st.monitor.thrIdxProfiledGlobal = 0)
    (timed : Timed config warmup st) {event : Event} (advances : Advances config st event)
    (stepped : systemStep config st event = .ok next) : Timed config warmup next := by
  obtain ⟨clock, moved⟩ := timed
  cases event with
  | wait wait =>
      have waited := waitedBy_of_systemStep stepped
      constructor
      · intro other tinfo profiled
        rw [waited.monitor]
        exact clock other tinfo (waited.profiles profiled)
      · exact fun other tinfo profiled => moved other tinfo (waited.profiles profiled)
  | phase words signal =>
      obtain ⟨before, group, counted, monitor, sampled, after, served⟩ :=
        served_of_systemStep unlogged stepped
      have profiled : st.Profiles (st.threadOf signal.fd) before :=
        ⟨served.isThread, served.isReal⟩
      have leads := (led.only oneThread profiled).2
      obtain ⟨msrs, isMonitor, -⟩ := served.monitor
      constructor
      · intro other tinfo stillProfiled inRun
        rw [served.only led oneThread stillProfiled, served.phases] at inRun ⊢
        rw [isMonitor]
        exact (served.monitored.roundClock single mrcMode twoPhases
          (clock _ before profiled (Nat.lt_of_succ_lt inRun)) leads turn rfl inRun
          fun late => instrDelta_ne_zero (moved _ before profiled late) _).withMsrs msrs
      · intro other tinfo stillProfiled late
        rw [served.only led oneThread stillProfiled, served.phases] at late
        rw [served.only led oneThread stillProfiled]
        have remembers : RemembersAt config st (.phase words signal) :=
          ⟨_, served.phaseOf, .inr (.inl late)⟩
        rw [served.last_of_remembers remembers]
        exact advances next stepped words signal rfl before after profiled served.profiles_after

end

/-! ## Every run -/

/-- The event is a signal. -/
def Event.isPhase : Event → Bool
  | .phase _ _ => true
  | .wait _ => false

/-- Where a round stands after a number of signals: it is open until the last slice is sampled,
and then it is closed and has left one column. -/
structure RoundStands (config : Config) (mrcEstIndex signals : ℕ) (st : State) : Prop where
  running : signals < config.plan.numWaysToSample → st.monitor.monitorStartFlag = true ∧
    ∀ tid tinfo, st.Profiles tid tinfo → tinfo.mrcEstIndex = mrcEstIndex
  complete : signals = config.plan.numWaysToSample → st.monitor.monitorStartFlag = false ∧
    ∀ tid tinfo, st.Profiles tid tinfo → tinfo.mrcEstIndex = mrcEstIndex + 1

/-- The part of the handler that comes before the counters are read returns, and for the last
slice of a round it closes the round and leaves one column. -/
def ServesRound (config : Config) (mrcEstIndex signals : ℕ) (st : State) (tinfo : ThreadInfo) :
    Prop :=
  ∃ monitor sampled, monitorPhase config st.monitor tinfo = .ok (monitor, sampled) ∧
    (signals + 1 = config.plan.numWaysToSample →
      monitor.monitorStartFlag = false ∧ sampled.mrcEstIndex = mrcEstIndex + 1)

/-- Every round that starts early enough takes one signal for each slice, and serves each of
them. -/
def RoundsComplete (config : Config) (start : State) (events : List Event) : Prop :=
  ∀ early opening middle, early ++ opening :: middle <+: events → ∀ st opened last tinfo,
    run (systemStep config) start early = .ok st → systemStep config st opening = .ok opened →
    run (systemStep config) opened middle = .ok last → st.phaseOf opening = some tinfo →
    OpensRound config st.monitor tinfo →
    tinfo.phases + config.plan.numWaysToSample < config.numPhases →
    RoundStands config tinfo.mrcEstIndex (middle.countP Event.isPhase) last ∧
      ∀ event handled, early ++ opening :: (middle ++ [event]) <+: events →
        last.Handles event handled →
        middle.countP Event.isPhase < config.plan.numWaysToSample →
        ServesRound config tinfo.mrcEstIndex (middle.countP Event.isPhase) last handled

/-- No round is opened while one is running. -/
def NoneRestarted (config : Config) (start : State) (events : List Event) : Prop :=
  AtEachStep (systemStep config) start events fun _ st event =>
    ∀ tinfo, st.Handles event tinfo → OpensRound config st.monitor tinfo →
      st.monitor.monitorStartFlag = false

/-- The phase is a multiple of the profile interval and follows the end of the warmup by no more
than the number of slices. -/
def Collides (config : Config) (warmup phases : ℕ) : Prop :=
  config.mrcEstMode = true ∧ phases < config.numPhases ∧ warmup < phases ∧
    phases ≤ warmup + config.plan.numWaysToSample ∧ config.mrcProfileInterval ∣ phases

/-- No phase that the event ends collides with the first round. -/
def AvoidsCollision (config : Config) (warmup : ℕ) (st : State) (event : Event) : Prop :=
  ∀ tinfo, st.Handles event tinfo → ¬ Collides config warmup tinfo.phases

/-- A thread that the event gives the last sample of a round, before the last phase of the run,
has a column left and points that can be interpolated. -/
def EstimatesInTime (config : Config) (st : State) (event : Event) : Prop :=
  config.mrcEstMode = true → ∀ tinfo, st.Handles event tinfo → tinfo.phases < config.numPhases →
    FinishesTurn config st.monitor tinfo →
    CanEstimate config (tinfo.withSample config st.monitor).remembered

section

variable {config : Config} {st next : State} {event : Event} {words : List Word}
  {signal : Signal} {before : ThreadInfo} {group counted : EventGroup} {monitor : Monitor}
  {sampled after : ThreadInfo} {args : Args} {tid : ℤ} {warmup : ℕ}

/-- A multiple of the profile interval is no phase of a round, unless it collides with the first
one. -/
theorem not_dvd_of_not_collides (long : config.plan.numWaysToSample + 1 < config.mrcProfileInterval)
    (mrcMode : config.mrcEstMode = true) {opened taken : ℕ}
    (starts : opened = warmup ∨ warmup < opened ∧ config.mrcProfileInterval ∣ opened)
    (running : taken < config.plan.numWaysToSample)
    (inRun : opened + taken + 1 < config.numPhases)
    (avoids : ¬ Collides config warmup (opened + taken + 1)) :
    ¬ config.mrcProfileInterval ∣ opened + taken + 1 := by
  intro divides
  rcases starts with rfl | ⟨-, startDivides⟩
  · exact avoids ⟨mrcMode, inRun, by omega, by omega, divides⟩
  · rw [Nat.add_assoc, Nat.dvd_add_right startDivides] at divides
    have atLeast := Nat.le_of_dvd (Nat.succ_pos _) divides
    omega

/-- So many phases into a round that started at a phase. -/
structure RunsRound (config : Config) (opened mrcEstIndex taken : ℕ) (st : State) : Prop where
  isOpen : st.monitor.monitorStartFlag = true
  position : st.monitor.sampleSlicesIdx = taken + 1
  interval : st.monitor.mrcInvokeMonitorLen = config.mrcProfileInterval
  thread : ∀ other tinfo, st.Profiles other tinfo →
    tinfo.phases = opened + taken ∧ tinfo.mrcEstIndex = mrcEstIndex ∧ 3 ≤ tinfo.values.length

/-- What one run has at each of its states, with a single thread in the miss-curve mode. -/
structure SingleTimed (config : Config) (args : Args) (warmup : ℕ) (st : State) : Prop where
  unlogged : st.monitor.Unlogged
  led : Led args st
  turn : st.monitor.thrIdxProfiledGlobal = 0
  timed : Timed config warmup st

/-- Within a round every signal gives the thread its sample. -/
theorem RunsRound.collects (oneThread : args.profiledTids = [tid])
    (known : SingleTimed config args warmup st) {opened mrcEstIndex taken : ℕ}
    (runs : RunsRound config opened mrcEstIndex taken st) (late : 2 ≤ opened)
    (goesOn : ¬ config.mrcProfileInterval ∣ opened + taken + 1) {other : ℤ}
    (profiled : st.Profiles other before) (groups : Dict ℤ EventGroup) :
    Collects config st.monitor { before with eventGroups := groups }.enterPhase := by
  have leads := (known.led.only oneThread profiled).2
  have now := (runs.thread _ before profiled).1
  have moved := known.timed.moved _ before profiled (by omega)
  refine ⟨⟨runs.isOpen, fun invokes => goesOn ?_⟩, leads.trans known.turn.symm,
    instrDelta_ne_zero moved groups⟩
  have divides : st.monitor.mrcInvokeMonitorLen ∣ before.phases + 1 :=
    Nat.dvd_of_mod_eq_zero invokes.1
  rwa [runs.interval, now] at divides

/-- A signal within a round takes its sample. -/
theorem RunsRound.phase (one : config.numProfiledThreads = 1)
    (oneThread : args.profiledTids = [tid]) (known : SingleTimed config args warmup st)
    {opened mrcEstIndex taken : ℕ} (runs : RunsRound config opened mrcEstIndex taken st)
    (late : 2 ≤ opened) (goesOn : ¬ config.mrcProfileInterval ∣ opened + taken + 1)
    (stepped : systemStep config st (.phase words signal) = .ok next) :
    (taken + 1 ≠ config.plan.numWaysToSample →
        RunsRound config opened mrcEstIndex (taken + 1) next) ∧
      (taken + 1 = config.plan.numWaysToSample → next.monitor.monitorStartFlag = false ∧
        ∀ other tinfo, next.Profiles other tinfo → tinfo.mrcEstIndex = mrcEstIndex + 1) := by
  obtain ⟨before, group, counted, monitor, sampled, after, served⟩ :=
    served_of_systemStep known.unlogged stepped
  have profiled : st.Profiles (st.threadOf signal.fd) before := ⟨served.isThread, served.isReal⟩
  have collects : Collects config st.monitor
      (before.overflowed signal.fd counted words).enterPhase :=
    runs.collects oneThread known late goesOn profiled _
  obtain ⟨isOpen, position, interval, thread⟩ := runs
  obtain ⟨now, columns, read⟩ := thread _ before profiled
  obtain ⟨progressed, sameLen, -⟩ := served.monitored.progressed one collects known.turn
  obtain ⟨metered, reading, readBy⟩ := served.readBy
  have sameColumns := readBy.sameSampling.mrcEstIndex
  obtain ⟨msrs, isMonitor, -⟩ := served.monitor
  rw [isMonitor]
  cases progressed with
  | goesOn more stillOpen nextPosition noColumn =>
      refine ⟨fun _ => ⟨by rw [isMonitor]; exact stillOpen, ?_, ?_, fun other tinfo still => ?_⟩,
        fun all => absurd ?_ more⟩
      · rw [isMonitor]
        exact nextPosition.trans (by rw [position]; rfl)
      · rw [isMonitor]
        exact sameLen.trans interval
      · rw [served.only known.led oneThread still, served.phases, now]
        refine ⟨rfl, (sameColumns.trans noColumn).trans columns, read.trans ?_⟩
        exact served.monitored.sameReading.values ▸ readBy.length_values.1
      · rw [position, ← all]
        rfl
  | completes all closed oneColumn =>
      refine ⟨fun more => absurd ?_ more, fun _ => ⟨closed, fun other tinfo still => ?_⟩⟩
      · omega
      · rw [served.only known.led oneThread still, sameColumns, oneColumn]
        exact congrArg (· + 1) columns

/-- A wait event leaves a round where it is. -/
theorem RunsRound.waited {opened mrcEstIndex taken : ℕ}
    (runs : RunsRound config opened mrcEstIndex taken st) (waited : WaitedBy st next) :
    RunsRound config opened mrcEstIndex taken next := by
  obtain ⟨isOpen, position, interval, thread⟩ := runs
  rw [← waited.monitor] at isOpen position interval
  exact ⟨isOpen, position, interval, fun other tinfo profiled =>
    thread other tinfo (waited.profiles profiled)⟩

/-- The opening of a round is its beginning. -/
theorem runsRound_of_opens (oneThread : args.profiledTids = [tid])
    (known : SingleTimed config args warmup st) (stepped : systemStep config st event = .ok next)
    (stillTimed : Timed config warmup next) {tinfo : ThreadInfo}
    (isPhase : st.phaseOf event = some tinfo) (opens : OpensRound config st.monitor tinfo) :
    RunsRound config tinfo.phases tinfo.mrcEstIndex 0 next ∧
      (tinfo.phases = warmup ∨
        warmup < tinfo.phases ∧ config.mrcProfileInterval ∣ tinfo.phases) := by
  obtain ⟨words, signal, before, group, counted, monitor, sampled, after, rfl, rfl, served⟩ :=
    served_of_phaseOf known.unlogged stepped isPhase
  obtain ⟨⟨isOpen, position, -, -⟩, columns⟩ := served.monitored.reopened opens
  have read := served.monitored.read_of_opens opens
  obtain ⟨msrs, isMonitor, -⟩ := served.monitor
  obtain ⟨metered, reading, readBy⟩ := served.readBy
  have sameColumns := readBy.sameSampling.mrcEstIndex
  have now : after.phases = before.enterPhase.phases := served.phases
  have isNext : next.monitor.monitorStartFlag = true := by
    rw [isMonitor]
    exact isOpen
  have first : next.monitor.sampleSlicesIdx = 1 := by
    rw [isMonitor]
    exact position
  have clock := stillTimed.clock _ after served.profiles_after (now ▸ opens.2.2)
  rw [now] at clock
  cases clock with
  | warmsUp _ closed _ _ =>
      rw [isNext] at closed
      cases closed
  | rests _ closed _ _ =>
      rw [isNext] at closed
      cases closed
  | runs opened taken _ _ interval isPosition isNow _ starts =>
      have none : taken = 0 := by omega
      subst none
      refine ⟨⟨isNext, first, interval, fun other tinfo still => ?_⟩, ?_⟩
      · rw [served.only known.led oneThread still]
        refine ⟨now, sameColumns.trans columns, read.trans ?_⟩
        exact served.monitored.sameReading.values ▸ readBy.length_values.1
      · rw [isNow]
        exact starts

end

/-! ## The first round -/

section

variable {library : Interpolation} {machine : Machine} {args : Args} {launch : Launch}
  {config : Config} {start : State} {tid : ℤ} {events : List Event}

theorem timed_of_main (started : main library machine args launch = .ok (config, start))
    (warm : 2 ≤ args.mrcWarmupInterval) :
    Timed config args.mrcWarmupInterval start := by
  have launched := launched_of_main started
  obtain ⟨msrs, globals⟩ := launched.globals
  have unstarted : ∀ other tinfo, start.Profiles other tinfo → tinfo.phases = 0 := by
    intro other tinfo profiled
    obtain ⟨-, core, last, outfile, groups, isNew⟩ := launched.isFresh profiled.1 profiled.2
    rw [isNew]
    rfl
  refine ⟨fun other tinfo profiled _ => ?_, fun other tinfo profiled late => ?_⟩
  · rw [unstarted other tinfo profiled, globals]
    exact .warmsUp rfl rfl rfl (by omega)
  · rw [unstarted other tinfo profiled] at late
    exact absurd late (by decide)

/-- Every run of a single thread whose instruction counter advances keeps its time. -/
theorem singleTimed_along (started : main library machine args launch = .ok (config, start))
    (mrcMode : args.mrcEstMode = true) (oneThread : args.profiledTids = [tid])
    (warm : 2 ≤ args.mrcWarmupInterval)
    (advances : AtEachStep (systemStep config) start events
      fun _ st event => Advances config st event) :
    AlongRun (systemStep config) start events fun early st =>
      run (systemStep config) start early = .ok st ∧
        SingleTimed config args args.mrcWarmupInterval st := by
  have one := one_of_main started oneThread
  have isMode : config.mrcEstMode = true := (launched_of_main started).mrcEstMode.trans mrcMode
  have known {early : List Event} {st : State}
      (reached : run (systemStep config) start early = .ok st)
      (timed : Timed config args.mrcWarmupInterval st) :
      SingleTimed config args args.mrcWarmupInterval st := by
    obtain ⟨single, led⟩ := single_of_run started mrcMode oneThread reached
    exact ⟨single.unlogged, led, single.matched.turn, timed⟩
  have atStart : run (systemStep config) start [] = .ok start := rfl
  refine alongRun_of_atEachStep ⟨atStart, known atStart (timed_of_main started warm)⟩ ?_ advances
  rintro early st event next ⟨reached, unlogged, led, turn, timed⟩ moves stepped
  have longer := run_concat_eq_ok_iff.mpr ⟨st, reached, stepped⟩
  exact ⟨longer, known longer
    (timed.systemStep one isMode warm unlogged led oneThread turn moves stepped)⟩

/-- The signals of a round that nothing interrupts bring it to its end. -/
theorem runsRound_run (one : config.numProfiledThreads = 1) (mrcMode : config.mrcEstMode = true)
    (oneThread : args.profiledTids = [tid])
    (long : config.plan.numWaysToSample + 1 < config.mrcProfileInterval) {warmup : ℕ}
    {early : List Event} {atOpening : State} {opened mrcEstIndex : ℕ} (late : 2 ≤ opened)
    (starts : opened = warmup ∨ warmup < opened ∧ config.mrcProfileInterval ∣ opened)
    (inTime : opened + config.plan.numWaysToSample < config.numPhases)
    (reached : run (systemStep config) start early = .ok atOpening)
    (begins : RunsRound config opened mrcEstIndex 0 atOpening)
    {middle : List Event} {last : State}
    (known : AlongRun (systemStep config) start (early ++ middle) fun _ st =>
      SingleTimed config args warmup st)
    (avoids : AtEachStep (systemStep config) start (early ++ middle)
      fun _ st event => AvoidsCollision config warmup st event)
    (toLast : run (systemStep config) atOpening middle = .ok last) :
    (middle.countP Event.isPhase < config.plan.numWaysToSample →
        RunsRound config opened mrcEstIndex (middle.countP Event.isPhase) last) ∧
      (middle.countP Event.isPhase = config.plan.numWaysToSample →
        last.monitor.monitorStartFlag = false ∧
          ∀ other tinfo, last.Profiles other tinfo → tinfo.mrcEstIndex = mrcEstIndex + 1) := by
  have two : 2 ≤ config.plan.numWaysToSample := config.plan.twoSlices
  induction middle using List.reverseRecOn generalizing last with
  | nil =>
      cases toLast
      exact ⟨fun _ => begins, fun none => absurd none (by rw [List.countP_nil]; omega)⟩
  | append_singleton middle event ih =>
      obtain ⟨st, toState, stepped⟩ := run_concat_eq_ok_iff.mp toLast
      have shorter : early ++ middle <+: early ++ (middle ++ [event]) := by
        rw [← List.append_assoc]
        exact List.prefix_append _ _
      have atState : run (systemStep config) start (early ++ middle) = .ok st :=
        run_append_eq_ok_iff.mpr ⟨atOpening, reached, toState⟩
      obtain ⟨running, complete⟩ := ih
        (fun first isPrefix => known first (isPrefix.trans shorter))
        (fun first input isPrefix => avoids first input (isPrefix.trans shorter)) toState
      rw [List.countP_append, List.countP_singleton]
      cases event with
      | wait wait =>
          have waited := waitedBy_of_systemStep stepped
          refine ⟨fun more => (running more).waited waited, fun all => ?_⟩
          obtain ⟨closed, columns⟩ := complete all
          exact ⟨by rw [waited.monitor]; exact closed, fun other tinfo profiled =>
            columns other tinfo (waited.profiles profiled)⟩
      | phase words signal =>
          by_cases more : middle.countP Event.isPhase < config.plan.numWaysToSample
          · have runs := running more
            have knownHere := known _ shorter st atState
            obtain ⟨before, group, counted, monitor, sampled, after, served⟩ :=
              served_of_systemStep knownHere.unlogged stepped
            have now := (runs.thread _ before ⟨served.isThread, served.isReal⟩).1
            have avoidsHere : ¬ Collides config warmup
                (opened + middle.countP Event.isPhase + 1) := by
              rw [← now]
              refine avoids (early ++ middle) _ ?_ st atState _ served.handles
              rw [List.append_assoc]
            have goesOn := not_dvd_of_not_collides long mrcMode starts more (by omega) avoidsHere
            obtain ⟨goes, ends⟩ := runs.phase one oneThread knownHere late goesOn stepped
            exact ⟨fun later => goes later.ne, ends⟩
          · refine ⟨fun later => absurd ?_ more, fun all => absurd ?_ more⟩
            · exact Nat.lt_of_succ_lt later
            · exact Nat.lt_of_succ_le all.le

/-- A signal at a multiple of the profile interval opens a round, whatever is running. -/
theorem opensRound_of_dvd {st : State} {handled : ThreadInfo}
    (mrcMode : config.mrcEstMode = true) (leads : handled.tidx = 0)
    (interval : st.monitor.mrcInvokeMonitorLen = config.mrcProfileInterval)
    (divides : config.mrcProfileInterval ∣ handled.phases)
    (inRun : handled.phases < config.numPhases) : OpensRound config st.monitor handled := by
  refine ⟨⟨?_, mrcMode⟩, leads, inRun⟩
  rw [interval]
  exact Nat.mod_eq_zero_of_dvd divides

/-- A signal of a round gives the thread its next sample. It is served, and the last one leaves a
column, precisely if the thread can estimate its curves there. -/
structure TakesSample (config : Config) (opened mrcEstIndex taken : ℕ) (st : State)
    (handled : ThreadInfo) : Prop where
  phases : handled.phases = opened + taken + 1
  collects : Collects config st.monitor handled
  position : st.monitor.sampleSlicesIdx = taken + 1
  serves : ServesRound config mrcEstIndex taken st handled ↔
    (taken + 1 = config.plan.numWaysToSample →
      CanEstimate config (handled.withSample config st.monitor).remembered)

/-- Within a round that nothing interrupts every signal takes its sample. -/
theorem RunsRound.takesSample (started : main library machine args launch = .ok (config, start))
    (mrcMode : args.mrcEstMode = true) (oneThread : args.profiledTids = [tid])
    (long : config.plan.numWaysToSample + 1 < config.mrcProfileInterval)
    (serves : ServesSlices config.machine) {early : List Event} {st : State}
    (reached : run (systemStep config) start early = .ok st) {warmup : ℕ}
    (known : SingleTimed config args warmup st) {opened mrcEstIndex taken : ℕ} (late : 2 ≤ opened)
    (runs : RunsRound config opened mrcEstIndex taken st)
    (running : taken < config.plan.numWaysToSample)
    (goesOn : ¬ config.mrcProfileInterval ∣ opened + taken + 1) {event : Event}
    {handled : ThreadInfo} (handles : st.Handles event handled) :
    TakesSample config opened mrcEstIndex taken st handled := by
  have one := one_of_main started oneThread
  have isMode : config.mrcEstMode = true := (launched_of_main started).mrcEstMode.trans mrcMode
  obtain ⟨plan, generated, isConfig⟩ := (launched_of_main started).plan
  have samePlan : generateProfilingPlan config.machine.cacheNumWays = .ok config.plan := by
    rw [isConfig]
    exact generated
  obtain ⟨words, signal, before, groups, -, profiled, rfl⟩ := handles.profiles
  have collects := runs.collects oneThread known late goesOn profiled groups
  obtain ⟨isOpen, position, interval, thread⟩ := runs
  obtain ⟨now, columns, read⟩ := thread _ before profiled
  have sized : Sized config { before with eventGroups := groups }.enterPhase := by
    obtain ⟨xPoints, yPointsIpc, yPointsMpki, estimates, curves⟩ :=
      ((accounted_of_run started reached).tracked _ before profiled).sized
    exact ⟨xPoints, yPointsIpc, yPointsMpki, estimates, curves⟩
  have files : { before with eventGroups := groups }.enterPhase.HasCurveFiles :=
    ((filesByMode_of_run started reached).2 _ before profiled).mpr isMode
  have first : st.monitor.thrIdxProfiledGlobal < config.machine.numCores := by
    have classes := serves.accepts.1
    rw [known.turn]
    exact cores_of_catController classes
  have served := exists_monitorPhase_iff serves samePlan first known.unlogged sized read files
    collects (by rw [interval]; omega) (by rw [position]; omega) (by rw [position]; omega)
  have isLast : st.monitor.sampleSlicesIdx = config.plan.numWaysToSample ↔
      taken + 1 = config.plan.numWaysToSample := by
    rw [position]
    omega
  refine ⟨congrArg (· + 1) now, collects, position, ?_⟩
  rw [isLast] at served
  rw [← served]
  constructor
  · rintro ⟨monitor, sampled, returned, -⟩
    exact ⟨_, returned⟩
  · rintro ⟨⟨monitor, sampled⟩, returned⟩
    refine ⟨monitor, sampled, returned, fun all => ?_⟩
    have step := monitorPhase_cases known.unlogged returned
    cases (step.progressed one collects known.turn).1 with
    | goesOn more => exact absurd (isLast.mpr all) more
    | completes _ closed filled => exact ⟨closed, filled.trans (congrArg (· + 1) columns)⟩

/-- While a round runs in time, the past of the run has its opening. -/
def Began (config : Config) (start : State) (early : List Event) (st : State) : Prop :=
  ∀ tid tinfo, st.Profiles tid tinfo → tinfo.phases < config.numPhases →
    st.monitor.monitorStartFlag = true →
    ∃ first opening middle before opened info, early = first ++ opening :: middle ∧
      run (systemStep config) start first = .ok before ∧
      systemStep config before opening = .ok opened ∧
      run (systemStep config) opened middle = .ok st ∧
      before.phaseOf opening = some info ∧ OpensRound config before.monitor info ∧
      tinfo.phases = info.phases + middle.countP Event.isPhase ∧
      st.monitor.sampleSlicesIdx = middle.countP Event.isPhase + 1

section

variable (started : main library machine args launch = .ok (config, start))
  (mrcMode : args.mrcEstMode = true) (oneThread : args.profiledTids = [tid])
  (warm : 2 ≤ args.mrcWarmupInterval)
  (long : config.plan.numWaysToSample + 1 < config.mrcProfileInterval)
  (advances : AtEachStep (systemStep config) start events
    fun _ st event => Advances config st event)
include started mrcMode oneThread warm advances

/-- Every round of a run has its opening there. -/
theorem began_along :
    AlongRun (systemStep config) start events fun early st => Began config start early st := by
  have known := singleTimed_along started mrcMode oneThread warm advances
  have one := one_of_main started oneThread
  have isMode : config.mrcEstMode = true := (launched_of_main started).mrcEstMode.trans mrcMode
  intro early
  induction early using List.reverseRecOn with
  | nil =>
      rintro - st ⟨⟩ tid tinfo profiled inRun isOpen
      obtain ⟨-, ⟨msrs, globals⟩, -⟩ := launched_of_main started
      rw [globals] at isOpen
      cases isOpen
  | append_singleton early event ih =>
      intro isPrefix next reachedNext
      obtain ⟨st, reached, stepped⟩ := run_concat_eq_ok_iff.mp reachedNext
      have shorter := (List.prefix_append early [event]).trans isPrefix
      have began := ih shorter st reached
      obtain ⟨-, unlogged, led, turn, timed⟩ := known early shorter st reached
      intro other tinfo stillProfiled inRun isOpen
      cases event with
      | wait wait =>
          have waited := waitedBy_of_systemStep stepped
          rw [waited.monitor] at isOpen ⊢
          obtain ⟨first, opening, middle, before, opened, info, rfl, toBefore, opensStep, toSt,
            isPhase, opens, now, position⟩ :=
            began other tinfo (waited.profiles stillProfiled) inRun isOpen
          refine ⟨first, opening, middle ++ [.wait wait], before, opened, info,
            List.append_assoc _ _ _, toBefore, opensStep,
            run_concat_eq_ok_iff.mpr ⟨st, toSt, stepped⟩, isPhase, opens, ?_, ?_⟩
          · rwa [List.countP_append]
          · rwa [List.countP_append]
      | phase words signal =>
          obtain ⟨before, group, counted, monitor, sampled, after, served⟩ :=
            served_of_systemStep unlogged stepped
          have profiled : st.Profiles (st.threadOf signal.fd) before :=
            ⟨served.isThread, served.isReal⟩
          have leads := (led.only oneThread profiled).2
          obtain ⟨msrs, isMonitor, -⟩ := served.monitor
          rw [served.only led oneThread stillProfiled, served.phases] at inRun
          rw [served.only led oneThread stillProfiled, served.phases]
          rw [isMonitor] at isOpen ⊢
          by_cases invokes : InvokesMonitor config st.monitor
            (before.overflowed signal.fd counted words).enterPhase
          · have opens : OpensRound config st.monitor
                (before.overflowed signal.fd counted words).enterPhase := ⟨invokes, leads, inRun⟩
            have reopened := (served.monitored.reopened opens).1
            exact ⟨early, .phase words signal, [], st, next, _, rfl, reached, stepped, rfl,
              served.phaseOf, opens, rfl, reopened.position⟩
          · have wasOpen : st.monitor.monitorStartFlag = true := by
              by_contra closed
              have same := served.monitored.stays (Bool.eq_false_of_not_eq_true closed) invokes
              exact closed (same ▸ isOpen)
            obtain ⟨first, opening, middle, atOpening, opened, info, rfl, toBefore, opensStep,
              toSt, isPhase, opens, now, position⟩ :=
              began _ before profiled (Nat.lt_of_succ_lt inRun) wasOpen
            have late : 2 ≤ before.phases := by
              cases timed.clock _ before profiled (Nat.lt_of_succ_lt inRun) with
              | warmsUp _ closed _ _ => exact absurd (closed ▸ wasOpen) Bool.false_ne_true
              | rests _ closed _ _ => exact absurd (closed ▸ wasOpen) Bool.false_ne_true
              | runs began taken _ _ _ _ isNow _ starts => omega
            have collects : Collects config st.monitor
                (before.overflowed signal.fd counted words).enterPhase :=
              ⟨⟨wasOpen, invokes⟩, leads.trans turn.symm,
                instrDelta_ne_zero (timed.moved _ before profiled late) _⟩
            refine ⟨first, opening, middle ++ [.phase words signal], atOpening, opened, info,
              List.append_assoc _ _ _, toBefore, opensStep,
              run_concat_eq_ok_iff.mpr ⟨st, toSt, stepped⟩, isPhase, opens, ?_, ?_⟩
            · rw [List.countP_append, now]
              rfl
            · cases (served.monitored.progressed one collects turn).1 with
              | goesOn _ _ nextPosition _ =>
                  rw [List.countP_append]
                  exact nextPosition.trans (by rw [position]; rfl)
              | completes _ closed _ => exact absurd (closed ▸ isOpen) Bool.false_ne_true

/-- A phase that collides starts a round while the first one runs. -/
theorem avoidsCollision_of_noneRestarted (noneRestarted : NoneRestarted config start events) :
    AtEachStep (systemStep config) start events
      fun _ st event => AvoidsCollision config args.mrcWarmupInterval st event := by
  have known := singleTimed_along started mrcMode oneThread warm advances
  have isMode : config.mrcEstMode = true := (launched_of_main started).mrcEstMode.trans mrcMode
  rintro early event isPrefix st reached handled handles ⟨-, inRun, late, soon, divides⟩
  have shorter := (List.prefix_append early [event]).trans isPrefix
  obtain ⟨-, unlogged, led, -, timed⟩ := known early shorter st reached
  obtain ⟨words, signal, before, groups, -, profiled, isHandled⟩ := handles.profiles
  have now : handled.phases = before.phases + 1 := congrArg ThreadInfo.phases isHandled
  cases timed.clock _ before profiled (by omega) with
  | warmsUp _ _ _ warming => omega
  | rests _ _ _ past => omega
  | runs opened taken _ isOpen interval _ _ _ _ =>
      have leads : handled.tidx = 0 :=
        (congrArg ThreadInfo.tidx isHandled).trans (led.only oneThread profiled).2
      have opens := opensRound_of_dvd isMode leads interval divides inRun
      have closed := noneRestarted early _ isPrefix st reached handled handles opens
      rw [isOpen] at closed
      cases closed

include long

/-- Where a round stands that nothing interrupts, and what its next signal does. -/
theorem round_of_avoidsCollision
    (avoids : AtEachStep (systemStep config) start events
      fun _ st event => AvoidsCollision config args.mrcWarmupInterval st event)
    {early : List Event} {opening : Event} {middle : List Event}
    (isPrefix : early ++ opening :: middle <+: events) {st opened last : State}
    {tinfo : ThreadInfo} (atSt : run (systemStep config) start early = .ok st)
    (opensStep : systemStep config st opening = .ok opened)
    (toLast : run (systemStep config) opened middle = .ok last)
    (isPhase : st.phaseOf opening = some tinfo) (opens : OpensRound config st.monitor tinfo)
    (inTime : tinfo.phases + config.plan.numWaysToSample < config.numPhases) :
    RoundStands config tinfo.mrcEstIndex (middle.countP Event.isPhase) last ∧
      ∀ event handled, early ++ opening :: (middle ++ [event]) <+: events →
        last.Handles event handled →
        middle.countP Event.isPhase < config.plan.numWaysToSample →
        TakesSample config tinfo.phases tinfo.mrcEstIndex (middle.countP Event.isPhase) last
          handled := by
  have known := singleTimed_along started mrcMode oneThread warm advances
  have one := one_of_main started oneThread
  have isMode : config.mrcEstMode = true := (launched_of_main started).mrcEstMode.trans mrcMode
  rw [← List.singleton_append, ← List.append_assoc] at isPrefix
  have toOpening : early ++ [opening] <+: events := (List.prefix_append _ middle).trans isPrefix
  have knownHere := (known early ((List.prefix_append _ _).trans toOpening) st atSt).2
  have reached := run_concat_eq_ok_iff.mpr ⟨st, atSt, opensStep⟩
  have atLast : run (systemStep config) start (early ++ [opening] ++ middle) = .ok last :=
    run_append_eq_ok_iff.mpr ⟨opened, reached, toLast⟩
  obtain ⟨begins, starts⟩ := runsRound_of_opens oneThread knownHere opensStep
    (known _ toOpening opened reached).2.timed isPhase opens
  have late : 2 ≤ tinfo.phases := by omega
  obtain ⟨running, complete⟩ := runsRound_run one isMode oneThread long late starts inTime
    reached begins (fun first shorter state atState =>
      (known first (shorter.trans isPrefix) state atState).2)
    (fun first input shorter => avoids first input (shorter.trans isPrefix)) toLast
  refine ⟨⟨fun more => ⟨(running more).isOpen, fun other info profiled =>
    ((running more).thread other info profiled).2.1⟩, complete⟩, ?_⟩
  intro event handled isPrefixNext handles more
  have runs := running more
  have now : handled.phases = tinfo.phases + middle.countP Event.isPhase + 1 := by
    obtain ⟨words, signal, before, groups, -, profiled, rfl⟩ := handles.profiles
    exact congrArg (· + 1) (runs.thread _ before profiled).1
  have avoidsHere : ¬ Collides config args.mrcWarmupInterval
      (tinfo.phases + middle.countP Event.isPhase + 1) := by
    rw [← now]
    refine avoids (early ++ [opening] ++ middle) event ?_ last atLast handled handles
    rwa [List.append_assoc, List.append_assoc]
  have goesOn := not_dvd_of_not_collides long isMode starts more (by omega) avoidsHere
  obtain ⟨words, signal, before, group, counted, monitor, sampled, after, -, rfl, served⟩ :=
    served_of_phaseOf knownHere.unlogged opensStep isPhase
  obtain ⟨plan, generated, isConfig⟩ := (launched_of_main started).plan
  have samePlan : generateProfilingPlan config.machine.cacheNumWays = .ok config.plan := by
    rw [isConfig]
    exact generated
  have serves := served.monitored.servesSlices_of_opens samePlan knownHere.turn opens
  exact runs.takesSample started mrcMode oneThread long serves atLast
    (known _ isPrefix last atLast).2 late more goesOn handles

/-- Rounds that nothing interrupts come to their end, if their curves can be estimated there. -/
theorem roundsComplete_of_avoidsCollision
    (avoids : AtEachStep (systemStep config) start events
      fun _ st event => AvoidsCollision config args.mrcWarmupInterval st event)
    (estimates : AtEachStep (systemStep config) start events
      fun _ st event => EstimatesInTime config st event) :
    RoundsComplete config start events := by
  intro early opening middle isPrefix st opened last tinfo atSt opensStep toLast isPhase opens
    inTime
  have isMode : config.mrcEstMode = true := (launched_of_main started).mrcEstMode.trans mrcMode
  obtain ⟨stands, takes⟩ := round_of_avoidsCollision started mrcMode oneThread warm long advances
    avoids isPrefix atSt opensStep toLast isPhase opens inTime
  refine ⟨stands, fun event handled isPrefixNext handles more => ?_⟩
  obtain ⟨now, collects, position, serves⟩ := takes event handled isPrefixNext handles more
  refine serves.mpr fun isLast => ?_
  have atLast : run (systemStep config) start (early ++ opening :: middle) = .ok last :=
    run_append_eq_ok_iff.mpr ⟨st, atSt, run_cons_eq_ok_iff.mpr ⟨opened, opensStep, toLast⟩⟩
  rw [← List.cons_append, ← List.append_assoc] at isPrefixNext
  refine estimates _ event isPrefixNext last atLast isMode handled handles (by omega)
    ⟨collects, ?_⟩
  rw [position]
  exact_mod_cast isLast

/-- The last sample of a round that comes to its end is one that the curves are estimated from. -/
theorem estimatesInTime_of_roundsComplete
    (avoids : AtEachStep (systemStep config) start events
      fun _ st event => AvoidsCollision config args.mrcWarmupInterval st event)
    (complete : RoundsComplete config start events) :
    AtEachStep (systemStep config) start events
      fun _ st event => EstimatesInTime config st event := by
  have known := singleTimed_along started mrcMode oneThread warm advances
  have begun := began_along started mrcMode oneThread warm advances
  intro early event isPrefix st reached isMode handled handles inRun ⟨collects, isLast⟩
  have shorter := (List.prefix_append early [event]).trans isPrefix
  obtain ⟨words, signal, before, groups, -, profiled, isHandled⟩ := handles.profiles
  have now : handled.phases = before.phases + 1 := congrArg ThreadInfo.phases isHandled
  obtain ⟨first, opening, middle, atOpening, opened, info, rfl, toOpening, opensStep, toSt,
    isPhase, opens, sincePhases, position⟩ :=
    begun early shorter st reached _ before profiled (by omega) collects.1.1
  rw [List.append_assoc, List.cons_append] at isPrefix
  have taken : middle.countP Event.isPhase + 1 = config.plan.numWaysToSample := by omega
  have inTime : info.phases + config.plan.numWaysToSample < config.numPhases := by omega
  have served := (complete first opening middle shorter atOpening opened st info toOpening
    opensStep toSt isPhase opens inTime).2 event handled isPrefix handles (by omega)
  have takes := (round_of_avoidsCollision started mrcMode oneThread warm long advances avoids
    shorter toOpening opensStep toSt isPhase opens inTime).2 event handled isPrefix handles
    (by omega)
  exact takes.serves.mp served taken

/-- And no round is started while one is running. -/
theorem noneRestarted_of_avoidsCollision
    (avoids : AtEachStep (systemStep config) start events
      fun _ st event => AvoidsCollision config args.mrcWarmupInterval st event) :
    NoneRestarted config start events := by
  have known := singleTimed_along started mrcMode oneThread warm advances
  have isMode : config.mrcEstMode = true := (launched_of_main started).mrcEstMode.trans mrcMode
  intro early event isPrefix st reached handled handles opens
  have shorter := (List.prefix_append early [event]).trans isPrefix
  obtain ⟨-, unlogged, -, -, timed⟩ := known early shorter st reached
  obtain ⟨words, signal, before, groups, -, profiled, isHandled⟩ := handles.profiles
  have now : handled.phases = before.phases + 1 := congrArg ThreadInfo.phases isHandled
  have inRun := opens.2.2
  cases timed.clock _ before profiled (by omega) with
  | warmsUp _ closed _ _ => exact closed
  | rests _ closed _ _ => exact closed
  | runs opened taken _ _ interval _ isNow running starts =>
      have divides := Nat.dvd_of_mod_eq_zero opens.1.1
      have avoidsHere := avoids early _ isPrefix st reached handled handles
      rw [now, isNow] at divides avoidsHere
      rw [interval] at divides
      exact absurd divides (not_dvd_of_not_collides long isMode starts running (by omega)
        avoidsHere)

/-- For a single thread in the miss-curve mode. -/
theorem roundsComplete_iff_of_mrcMode :
    RoundsComplete config start events ∧ NoneRestarted config start events ↔
      AtEachStep (systemStep config) start events fun _ st event =>
        AvoidsCollision config args.mrcWarmupInterval st event ∧
          EstimatesInTime config st event := by
  constructor
  · rintro ⟨complete, noneRestarted⟩
    have avoids :=
      avoidsCollision_of_noneRestarted started mrcMode oneThread warm advances noneRestarted
    have estimates := estimatesInTime_of_roundsComplete started mrcMode oneThread warm long
      advances avoids complete
    exact fun early event isPrefix st reached =>
      ⟨avoids early event isPrefix st reached, estimates early event isPrefix st reached⟩
  · intro both
    have avoids : AtEachStep (systemStep config) start events
        fun _ st event => AvoidsCollision config args.mrcWarmupInterval st event :=
      fun early event isPrefix st reached => (both early event isPrefix st reached).1
    have estimates : AtEachStep (systemStep config) start events
        fun _ st event => EstimatesInTime config st event :=
      fun early event isPrefix st reached => (both early event isPrefix st reached).2
    exact ⟨roundsComplete_of_avoidsCollision started mrcMode oneThread warm long advances avoids
      estimates, noneRestarted_of_avoidsCollision started mrcMode oneThread warm long advances
      avoids⟩

end

/-- In a run of a single thread whose instruction counter advances, every round that starts early
enough takes one signal for each slice, is served there and no round is started while one is
running, precisely if no phase of the run before the last one is a multiple of the profile interval
that follows the end of the warmup by no more than the number of slices, and the thread can
estimate its curves at the last sample of every round. -/
theorem roundsComplete_iff (started : main library machine args launch = .ok (config, start))
    (oneThread : args.profiledTids = [tid]) (warm : 2 ≤ args.mrcWarmupInterval)
    (long : config.plan.numWaysToSample + 1 < config.mrcProfileInterval)
    (advances : AtEachStep (systemStep config) start events
      fun _ st event => Advances config st event) :
    RoundsComplete config start events ∧ NoneRestarted config start events ↔
      AtEachStep (systemStep config) start events fun _ st event =>
        AvoidsCollision config args.mrcWarmupInterval st event ∧
          EstimatesInTime config st event := by
  by_cases mrcMode : args.mrcEstMode = true
  · exact roundsComplete_iff_of_mrcMode started mrcMode oneThread warm long advances
  · have noMode : ¬ config.mrcEstMode = true := by
      rwa [(launched_of_main started).mrcEstMode]
    refine iff_of_true ⟨?_, ?_⟩ ?_
    · intro early opening middle isPrefix st opened last tinfo atSt opensStep toLast isPhase opens
      exact absurd opens.1.2 noMode
    · intro early event isPrefix st reached handled handles opens
      exact absurd opens.1.2 noMode
    · intro early event isPrefix st reached
      exact ⟨fun handled handles collides => noMode collides.1, fun isMode => absurd isMode noMode⟩

end

/-! ## A round that starts again -/

/-- A test of the instruction counter. -/
def testAdvances (st : State) (event : Event) (next : State) : Bool :=
  match event with
  | .wait _ => true
  | .phase _ signal =>
      match st.tidMap.get? (st.threadOf signal.fd), next.tidMap.get? (st.threadOf signal.fd) with
      | some before, some after => after.values.getD 1 0 != before.values.getD 1 0
      | _, _ => true

theorem advances_of_checkRun {config : Config} {start : State} {events : List Event}
    (passes : checkRun (systemStep config) testAdvances start events = true) :
    AtEachStep (systemStep config) start events fun _ st event => Advances config st event := by
  intro early event isPrefix st reached next stepped words signal isEvent before after profiled
    stillProfiled
  have test := atEachStep_of_checkRun passes early event isPrefix st reached next stepped
  subst isEvent
  rw [testAdvances, profiled.1, stillProfiled.1] at test
  exact bne_iff_ne.mp test

/-- A warmup of eight phases, and a profile interval of nine. -/
def eightNine : Args :=
  { tenPhases with numPhases := 20, mrcWarmupPeriod := 160, mrcProfilePeriod := 180 }

/-- Whether the intervals are long enough and the instruction counter advances in a run. -/
def timesRounds (args : Args) (events : List Event) : Option Bool := do
  let (config, start) ← (main linearInterpolation interleavedMachine args quietLaunch).toOption
  return 2 ≤ args.mrcWarmupInterval &&
    config.plan.numWaysToSample + 1 < config.mrcProfileInterval &&
    checkRun (systemStep config) testAdvances start events

theorem exists_of_timesRounds {args : Args} {events : List Event}
    (times : timesRounds args events = some true) : ∃ config start,
      main linearInterpolation interleavedMachine args quietLaunch = .ok (config, start) ∧
      2 ≤ args.mrcWarmupInterval ∧
      config.plan.numWaysToSample + 1 < config.mrcProfileInterval ∧
      AtEachStep (systemStep config) start events fun _ st event => Advances config st event := by
  simp only [timesRounds, bind, pure, Option.bind_eq_some_iff, toOption_eq_some_iff] at times
  obtain ⟨⟨config, start⟩, started, facts⟩ := times
  simp only [Option.some.injEq, Bool.and_eq_true, decide_eq_true_eq] at facts
  obtain ⟨⟨warm, long⟩, passes⟩ := facts
  exact ⟨config, start, started, warm, long, advances_of_checkRun passes⟩

/-- Whether the next signal opens a round while one is running. -/
def restarts (args : Args) (events : List Event) (event : Event) : Option Bool := do
  let (config, start) ← (main linearInterpolation interleavedMachine args quietLaunch).toOption
  let st ← (run (systemStep config) start events).toOption
  let _ ← (systemStep config st event).toOption
  let tinfo ← st.phaseOf event
  return OpensRound config st.monitor tinfo && st.monitor.monitorStartFlag

theorem timesRounds_eightNine :
    timesRounds eightNine (untilLastSlice ++ [slowingPhase 9]) = some true := by
  decide +kernel

theorem restarts_eightNine : restarts eightNine untilLastSlice (slowingPhase 9) = some true := by
  decide +kernel

/-- The round that opens at the eighth phase is opened again at the ninth one. -/
theorem first_round_starts_again :
    ∃ config start,
      main linearInterpolation interleavedMachine eightNine quietLaunch = .ok (config, start) ∧
      2 ≤ eightNine.mrcWarmupInterval ∧
      config.plan.numWaysToSample + 1 < config.mrcProfileInterval ∧
      (AtEachStep (systemStep config) start (untilLastSlice ++ [slowingPhase 9])
        fun _ st event => Advances config st event) ∧
      ¬ (RoundsComplete config start (untilLastSlice ++ [slowingPhase 9]) ∧
        NoneRestarted config start (untilLastSlice ++ [slowingPhase 9])) := by
  obtain ⟨config, start, started, warm, long, advances⟩ :=
    exists_of_timesRounds timesRounds_eightNine
  refine ⟨config, start, started, warm, long, advances, ?_⟩
  rintro ⟨-, noneRestarted⟩
  have again := restarts_eightNine
  simp only [restarts, bind, pure, Option.bind_eq_some_iff, toOption_eq_some_iff] at again
  obtain ⟨other, alsoStarted, st, reached, next, stepped, tinfo, isPhase, opens⟩ := again
  cases started.symm.trans alsoStarted
  simp only [Option.some.injEq, Bool.and_eq_true, decide_eq_true_eq] at opens
  have unlogged := (accounted_of_run started reached).unlogged
  obtain ⟨words, signal, before, group, counted, monitor, sampled, after, isEvent, rfl, served⟩ :=
    served_of_phaseOf unlogged stepped isPhase
  rw [isEvent] at noneRestarted
  have closed := noneRestarted untilLastSlice _ (List.prefix_refl _) st reached _ served.handles
    opens.1
  rw [opens.2] at closed
  cases closed

theorem timesRounds_twoRounds : timesRounds twoRounds (slowingPhases 18) = some true := by
  decide +kernel

/-- The exact condition, applied to a run with two rounds. -/
theorem twoRounds_roundsComplete_iff :
    ∃ config start,
      main linearInterpolation interleavedMachine twoRounds quietLaunch = .ok (config, start) ∧
      (RoundsComplete config start (slowingPhases 18) ∧
          NoneRestarted config start (slowingPhases 18) ↔
        AtEachStep (systemStep config) start (slowingPhases 18)
          fun _ st event => AvoidsCollision config twoRounds.mrcWarmupInterval st event ∧
            EstimatesInTime config st event) := by
  obtain ⟨config, start, started, warm, long, advances⟩ :=
    exists_of_timesRounds timesRounds_twoRounds
  exact ⟨config, start, started, roundsComplete_iff started rfl warm long advances⟩

end Datamime.Profiler
