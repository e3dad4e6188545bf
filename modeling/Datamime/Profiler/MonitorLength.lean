/-
# The length of the monitor's interval

Every signal takes the number of its phase modulo the length of the current interval, also
outside of the miss-curve mode, whose flag is only tested after that. The length is a truncated
quotient of two arguments of the command line: of the warmup period first, and of the profile
period from the first round on. A period shorter than a phase makes it zero.
-/

import Datamime.Profiler.SharedCache

namespace Datamime.Profiler

open Datamime.Math Datamime.Hardware

/-! ## Periods of the command line -/

/-- A period of at least one phase, in double precision, whose number of phases fits a word. -/
structure LastsAPhase (args : Args) (period : ℕ) : Prop where
  phase : 0 < args.phaseLen
  reaches : Binary64.round args.phaseLen ≤ Binary64.round (Binary64.round period * 1000000)
  fits : Binary64.truncDiv (Binary64.round (Binary64.round period * 1000000))
    (Binary64.round args.phaseLen) < 2 ^ 64

theorem phasesIn_pos_iff {args : Args} {period : ℕ} :
    0 < args.phasesIn period ↔ LastsAPhase args period := by
  have quotient_pos (phase : 0 < args.phaseLen) :=
    Binary64.truncDiv_pos_iff (Binary64.isDouble_round (Binary64.round period * 1000000))
      (Binary64.isDouble_round args.phaseLen) (Binary64.round_pos phase)
  simp only [Args.phasesIn]
  split
  · rename_i undefined
    refine iff_of_false (lt_irrefl 0) fun lasts => ?_
    rcases undefined with zero | large
    · exact lasts.phase.ne' zero
    · exact lasts.fits.not_ge large
  · rename_i defined
    rw [not_or, Nat.not_le] at defined
    have phase : 0 < args.phaseLen := Nat.pos_of_ne_zero defined.1
    rw [quotient_pos phase]
    exact ⟨fun reaches => ⟨phase, reaches, defined.2⟩, LastsAPhase.reaches⟩

/-! ## One step -/

section

variable {config : Config} {monitor next : Monitor} {tinfo after : ThreadInfo}

/-- Two monitors agree on the current interval. -/
structure SameInterval (before after : Monitor) : Prop where
  mrcInvokeMonitorLen : after.mrcInvokeMonitorLen = before.mrcInvokeMonitorLen
  firstMRCInvocation : after.firstMRCInvocation = before.firstMRCInvocation

theorem Installed.sameInterval {slice : Slice} (installed : Installed config monitor next slice) :
    SameInterval monitor next := by
  obtain ⟨msrs, currentlySampling, -, rfl⟩ := installed.result
  exact ⟨rfl, rfl⟩

/-- Only the opening of a round changes the interval. -/
theorem MonitorStep.sameInterval (step : MonitorStep config monitor tinfo next after)
    (opensNone : ¬ OpensRound config monitor tinfo) : SameInterval monitor next := by
  cases step with
  | idles closed goesOn after saved => exact ⟨rfl, rfl⟩
  | passes invokes opensNone read => exact ⟨rfl, rfl⟩
  | opens opensRound read slice next installed => exact absurd opensRound opensNone
  | waits samples read position next sampled stored noTurn => cases stored <;> exact ⟨rfl, rfl⟩
  | advances collects read position more slice next installed =>
      obtain ⟨sameLen, sameFirst⟩ := installed.sameInterval
      exact ⟨sameLen, sameFirst⟩
  | finishes collects read all logged next isLogged ended estimated estimates =>
      rw [isLogged] at ended
      cases ended <;> exact ⟨rfl, rfl⟩

/-- The first round replaces the interval. -/
theorem MonitorStep.interval_of_opens (step : MonitorStep config monitor tinfo next after)
    (opens : OpensRound config monitor tinfo) :
    next.mrcInvokeMonitorLen = (if monitor.firstMRCInvocation then config.mrcProfileInterval
        else monitor.mrcInvokeMonitorLen) ∧
      next.firstMRCInvocation = false := by
  obtain ⟨slice, installed, -⟩ := step.of_opens opens
  obtain ⟨sameLen, sameFirst⟩ := installed.sameInterval
  exact ⟨sameLen, sameFirst⟩

end

section

variable {config : Config} {st next : State} {event : Event}

theorem sameInterval_systemStep (unlogged : st.monitor.Unlogged)
    (stepped : systemStep config st event = .ok next) (opensNone : ¬ OpensAt config st event) :
    SameInterval st.monitor next.monitor := by
  cases event with
  | wait wait =>
      rw [monitor_of_wait stepped]
      exact ⟨rfl, rfl⟩
  | phase words signal =>
      obtain ⟨before, group, counted, monitor, sampled, after, served⟩ :=
        served_of_systemStep unlogged stepped
      obtain ⟨sameLen, sameFirst⟩ :=
        served.monitored.sameInterval fun opens => opensNone ⟨_, served.phaseOf, opens⟩
      obtain ⟨msrs, isMonitor, -⟩ := served.monitor
      rw [isMonitor]
      exact ⟨sameLen, sameFirst⟩

theorem interval_of_opensAt (unlogged : st.monitor.Unlogged)
    (stepped : systemStep config st event = .ok next) (opensAt : OpensAt config st event) :
    next.monitor.mrcInvokeMonitorLen = (if st.monitor.firstMRCInvocation then
        config.mrcProfileInterval else st.monitor.mrcInvokeMonitorLen) ∧
      next.monitor.firstMRCInvocation = false := by
  obtain ⟨tinfo, isPhase, opens⟩ := opensAt
  obtain ⟨words, signal, before, group, counted, monitor, sampled, after, rfl, rfl, served⟩ :=
    served_of_phaseOf unlogged stepped isPhase
  obtain ⟨isLen, isFirst⟩ := served.monitored.interval_of_opens opens
  obtain ⟨msrs, isMonitor, -⟩ := served.monitor
  rw [isMonitor]
  exact ⟨isLen, isFirst⟩

/-! ## Every run -/

/-- After the first round the interval is that of the profile period. -/
structure IntervalKnown (config : Config) (st : State) : Prop where
  unlogged : st.monitor.Unlogged
  profile : st.monitor.firstMRCInvocation = false →
    st.monitor.mrcInvokeMonitorLen = config.mrcProfileInterval

theorem IntervalKnown.systemStep (known : IntervalKnown config st)
    (stepped : systemStep config st event = .ok next) : IntervalKnown config next := by
  refine ⟨unlogged_systemStep known.unlogged stepped, fun notFirst => ?_⟩
  by_cases opensAt : OpensAt config st event
  · obtain ⟨isLen, -⟩ := interval_of_opensAt known.unlogged stepped opensAt
    rw [isLen]
    split
    · rfl
    · exact known.profile (Bool.eq_false_of_not_eq_true ‹_›)
  · obtain ⟨sameLen, sameFirst⟩ := sameInterval_systemStep known.unlogged stepped opensAt
    rw [sameLen]
    exact known.profile (sameFirst ▸ notFirst)

/-- A step from a positive interval leads to one, unless it opens a round and the profile period
is shorter than a phase. -/
theorem positive_systemStep_iff (known : IntervalKnown config st)
    (positive : 0 < st.monitor.mrcInvokeMonitorLen)
    (stepped : systemStep config st event = .ok next) :
    0 < next.monitor.mrcInvokeMonitorLen ↔
      (OpensAt config st event → 0 < config.mrcProfileInterval) := by
  by_cases opensAt : OpensAt config st event
  · obtain ⟨isLen, -⟩ := interval_of_opensAt known.unlogged stepped opensAt
    rw [isLen]
    by_cases isFirst : st.monitor.firstMRCInvocation = true
    · rw [if_pos isFirst]
      exact ⟨fun positive _ => positive, fun implied => implied opensAt⟩
    · rw [if_neg isFirst]
      refine iff_of_true positive fun _ => ?_
      rw [← known.profile (Bool.eq_false_of_not_eq_true isFirst)]
      exact positive
  · obtain ⟨sameLen, -⟩ := sameInterval_systemStep known.unlogged stepped opensAt
    rw [sameLen]
    exact iff_of_true positive fun opens => absurd opens opensAt

end

/-- No signal of a run takes a remainder by zero precisely if the warmup period lasts a phase
and, where a round is opened, the profile period does. The mode is not part of the condition. -/
theorem positive_along_iff {library : Interpolation} {machine : Machine} {args : Args}
    {launch : Launch} {config : Config} {start : State}
    (started : main library machine args launch = .ok (config, start)) (events : List Event) :
    AlongRun (systemStep config) start events
        (fun _ st => 0 < st.monitor.mrcInvokeMonitorLen) ↔
      LastsAPhase args args.mrcWarmupPeriod ∧
        AtEachStep (systemStep config) start events fun _ st event =>
          ∀ next, systemStep config st event = .ok next → OpensAt config st event →
            LastsAPhase args args.mrcProfilePeriod := by
  obtain ⟨⟨plan, -, isConfig⟩, ⟨msrs, globals⟩, -⟩ := launched_of_main started
  have known : IntervalKnown config start := by
    constructor
    · rw [globals]
      exact fun _ => rfl
    · rw [globals]
      exact nofun
  have isWarmup : start.monitor.mrcInvokeMonitorLen = args.phasesIn args.mrcWarmupPeriod := by
    rw [globals]
    rfl
  have isProfile : config.mrcProfileInterval = args.phasesIn args.mrcProfilePeriod := by
    rw [isConfig]
    rfl
  rw [← phasesIn_pos_iff, ← phasesIn_pos_iff, ← isWarmup, ← isProfile]
  by_cases positive : 0 < start.monitor.mrcInvokeMonitorLen
  · rw [and_iff_right positive]
    exact @alongRun_iff_atEachStep _ _ _ _ _ _ (fun _ st => IntervalKnown config st)
      (fun st => 0 < st.monitor.mrcInvokeMonitorLen)
      (fun st event => OpensAt config st event → 0 < config.mrcProfileInterval) known positive
      (fun _ _ _ _ known _ stepped => known.systemStep stepped)
      (fun _ _ _ _ known positive stepped => positive_systemStep_iff known positive stepped)
  · exact iff_of_false (fun along => positive (along [] List.nil_prefix start rfl))
      fun both => positive both.1

/-! ## A phase longer than the warmup -/

/-- A warmup of ten million cycles with phases of twenty million, outside of the miss-curve
mode. -/
def longPhases : Args := { threePhases with mrcWarmupPeriod := 10, mrcEstMode := false }

/-- The first signal divides by zero. -/
theorem longPhases_divides_by_zero :
    ∃ config start,
      main noInterpolation interleavedMachine longPhases quietLaunch = .ok (config, start) ∧
      start.monitor.mrcInvokeMonitorLen = 0 ∧
      systemStep config start (.phase sampleWords (quietSignal 1000)) =
        .error (.fault .divisionByZero) :=
  ⟨_, _, rfl, rfl, rfl⟩

/-- The exact condition, applied to a run with a warmup of two phases. -/
theorem threePhases_positive_along_iff :
    ∃ config start,
      main noInterpolation interleavedMachine threePhases quietLaunch = .ok (config, start) ∧
      (AlongRun (systemStep config) start endWithinRound
          (fun _ st => 0 < st.monitor.mrcInvokeMonitorLen) ↔
        LastsAPhase threePhases threePhases.mrcWarmupPeriod ∧
          AtEachStep (systemStep config) start endWithinRound fun _ st event =>
            ∀ next, systemStep config st event = .ok next → OpensAt config st event →
              LastsAPhase threePhases threePhases.mrcProfilePeriod) := by
  obtain ⟨config, start, last, started, -⟩ := exists_run_endWithinRound
  exact ⟨config, start, started, positive_along_iff started endWithinRound⟩

end Datamime.Profiler
