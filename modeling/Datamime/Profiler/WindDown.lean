/-
# Winding down

The leading thread ends the run and is stopped by the handler. Its stop is reported to the
main thread, which detaches from it and stops all others. But the leading thread may also
exit before its stop is reported. Then it is forgotten in the branch for exits, which stops
no one: the others go on, traced, until they exit by themselves.
-/

import Datamime.Profiler.HandlerCases
import Datamime.Profiler.Main

namespace Datamime.Profiler

open Datamime.Math Datamime.Hardware

/-! ## Threads that are left -/

/-- A thread that the profiler attached to. -/
def State.Profiles (st : State) (tid : ℤ) (tinfo : ThreadInfo) : Prop :=
  st.tidMap.get? tid = some tinfo ∧ tinfo.isDummyThread = false

theorem WaitedBy.profiles {st next : State} (waited : WaitedBy st next) {tid : ℤ}
    {tinfo : ThreadInfo} (profiled : next.Profiles tid tinfo) : st.Profiles tid tinfo :=
  ⟨waited.isThread profiled.1, profiled.2⟩

theorem not_wIfExited_of_wIfStopped {status : ℕ} (stops : wIfStopped status) :
    ¬ wIfExited status := by
  rw [wIfStopped] at stops
  rw [wIfExited]
  omega

section

variable {st : State} {pid tid : ℤ} {tinfo : ThreadInfo}

theorem State.profiles_forget :
    (st.forget pid).Profiles tid tinfo ↔ tid ≠ pid ∧ st.Profiles tid tinfo := by
  rw [State.Profiles, State.forget, Dict.get?_erase]
  by_cases here : tid = pid
  · rw [if_pos here]
    exact ⟨fun profiled => (nomatch profiled.1), fun profiled => absurd here profiled.1⟩
  · rw [if_neg here]
    exact (and_iff_right here).symm

/-- Stop signals go to the profiled threads that are left. -/
theorem State.mem_stopped_stopOthers :
    tid ∈ st.stopOthers.stopped ↔
      tid ∈ st.stopped ∨ ∃ key tinfo, st.Profiles key tinfo ∧ tinfo.tid = tid := by
  have collected : ∀ (entries : List (ℤ × ThreadInfo)) (stopped : List ℤ),
      tid ∈ entries.foldl (fun stopped entry => entry.2.tid :: stopped) stopped ↔
        tid ∈ stopped ∨ ∃ entry ∈ entries, entry.2.tid = tid := by
    intro entries
    induction entries with
    | nil => simp
    | cons entry rest ih =>
        intro stopped
        rw [List.foldl_cons, ih, List.mem_cons, List.exists_mem_cons_iff, @eq_comm _ tid, or_assoc,
          or_left_comm]
  rw [State.stopOthers, collected]
  refine or_congr_right ⟨?_, ?_⟩
  · rintro ⟨⟨key, tinfo⟩, isMember, isTid⟩
    obtain ⟨listed, isReal⟩ := List.mem_filter.mp isMember
    exact ⟨key, tinfo, ⟨(Dict.mem_entries_iff _).mp listed, by simpa using isReal⟩, isTid⟩
  · rintro ⟨key, tinfo, ⟨isThread, isReal⟩, isTid⟩
    refine ⟨(key, tinfo), List.mem_filter.mpr ⟨(Dict.mem_entries_iff _).mpr isThread, ?_⟩, isTid⟩
    simpa using isReal

end

/-! ## The leading thread -/

/-- What every run keeps about the leading thread. A profiled thread is listed under its own
id, at the position that the command line gave it. Before the run is done no one was stopped,
and while the leading thread is there, no one but itself. -/
structure Led (args : Args) (st : State) : Prop where
  keyed : ∀ tid tinfo, st.Profiles tid tinfo →
    tinfo.tid = tid ∧ args.profiledTids[tinfo.tidx]? = some tid
  running : st.done = false → st.firstFinishedThread = -1 ∧ st.stopped = []
  leads : st.done = true → args.profiledTids[0]? = some st.firstFinishedThread
  alone : st.done = true → st.tidMap.get? st.firstFinishedThread ≠ none →
    ∀ tid ∈ st.stopped, tid = st.firstFinishedThread

/-- Once the leading thread is gone, all profiled threads that are left were sent a stop
signal. -/
def State.WoundDown (st : State) : Prop :=
  st.done = true → st.tidMap.get? st.firstFinishedThread = none →
    ∀ tid tinfo, st.Profiles tid tinfo → tinfo.tid ∈ st.stopped

/-- The exit of the leading thread leaves no profiled thread behind. -/
def LeavesNoOneBehind (st : State) : Event → Prop
  | .phase _ _ => True
  | .wait wait => st.done = true → wait.pid = st.firstFinishedThread → wIfExited wait.status →
      ∀ tid tinfo, st.Profiles tid tinfo → tid = st.firstFinishedThread

section

variable {args : Args} {config : Config} {st next : State}

/-- After a signal the same threads are profiled. -/
theorem Served.profiles {words : List Word} {signal : Signal} {before : ThreadInfo}
    {group counted : EventGroup} {monitor : Monitor} {sampled after : ThreadInfo}
    (served : Served config st words signal before group counted monitor sampled after next)
    {tid : ℤ} {tinfo : ThreadInfo} (profiled : next.Profiles tid tinfo) :
    ∃ old, st.Profiles tid old ∧ tinfo.tid = old.tid ∧ tinfo.tidx = old.tidx ∧
      tinfo.cores = old.cores := by
  obtain ⟨isThread, isReal⟩ := profiled
  rw [served.tidMap] at isThread
  split at isThread
  · rename_i here
    cases isThread
    obtain ⟨metered, reading, readBy⟩ := served.readBy
    have monitored := served.monitored.sameReading
    have read := readBy.sameSampling
    exact ⟨before, ⟨here ▸ served.isThread, served.isReal⟩, read.tid.trans monitored.tid,
      read.tidx.trans monitored.tidx, read.cores.trans monitored.cores⟩
  · exact ⟨tinfo, ⟨isThread, isReal⟩, rfl, rfl, rfl⟩

/-- No thread comes or goes with a signal. -/
theorem Served.get?_eq_none_iff {words : List Word} {signal : Signal} {before : ThreadInfo}
    {group counted : EventGroup} {monitor : Monitor} {sampled after : ThreadInfo}
    (served : Served config st words signal before group counted monitor sampled after next)
    {tid : ℤ} : next.tidMap.get? tid = none ↔ st.tidMap.get? tid = none := by
  rw [served.tidMap]
  split
  · rename_i here
    rw [here, served.isThread]
    exact iff_of_false (Option.some_ne_none _) (Option.some_ne_none _)
  · rfl

/-- The thread of a signal, after it. -/
theorem Served.profiles_after {words : List Word} {signal : Signal} {before : ThreadInfo}
    {group counted : EventGroup} {monitor : Monitor} {sampled after : ThreadInfo}
    (served : Served config st words signal before group counted monitor sampled after next) :
    next.Profiles (st.threadOf signal.fd) after := by
  obtain ⟨metered, reading, readBy⟩ := served.readBy
  exact ⟨by rw [served.tidMap, if_pos rfl],
    readBy.sameSampling.isDummyThread.trans
      (served.monitored.sameReading.isDummyThread.trans served.isReal)⟩

/-- A signal keeps the run led, and no one who was stopped is forgotten. -/
theorem Led.served {words : List Word} {signal : Signal} {before : ThreadInfo}
    {group counted : EventGroup} {monitor : Monitor} {sampled after : ThreadInfo}
    (led : Led args st)
    (served : Served config st words signal before group counted monitor sampled after next) :
    Led args next := by
  have keyed : ∀ tid tinfo, next.Profiles tid tinfo →
      tinfo.tid = tid ∧ args.profiledTids[tinfo.tidx]? = some tid := by
    intro tid tinfo profiled
    obtain ⟨old, wasProfiled, sameTid, sameTidx, -⟩ := served.profiles profiled
    rw [sameTid, sameTidx]
    exact led.keyed tid old wasProfiled
  obtain ⟨isTid, isPosition⟩ := keyed _ _ served.profiles_after
  have stops := served.stopped
  have leads := served.lead
  by_cases finishes : st.FinishesFirst config after
  · rw [if_pos finishes] at stops leads
    have isDone : next.done = true := served.done.mpr (.inr finishes.1)
    rw [finishes.1.1, ← isTid, ← leads] at isPosition
    refine ⟨keyed, fun running => ?_, fun _ => isPosition, fun _ there tid isStopped => ?_⟩
    · rw [isDone] at running
      cases running
    · rw [stops, ← leads] at isStopped
      rcases List.mem_cons.mp isStopped with here | earlier
      · exact here
      · cases wasDone : st.done with
        | false =>
            rw [(led.running wasDone).2] at earlier
            cases earlier
        | true =>
            have sameLead : st.firstFinishedThread = next.firstFinishedThread :=
              Option.some.inj ((led.leads wasDone).symm.trans isPosition)
            rw [← sameLead]
            refine led.alone wasDone (fun gone => there ?_) tid earlier
            rw [← sameLead]
            exact served.get?_eq_none_iff.mpr gone
  · rw [if_neg finishes] at stops leads
    have isDone : next.done = true ↔ st.done = true := by
      rw [served.done]
      refine or_iff_left_of_imp fun ends => ?_
      by_contra notDone
      exact finishes ⟨ends, (led.running (Bool.eq_false_of_not_eq_true notDone)).1⟩
    rw [← Bool.eq_iff_iff] at isDone
    refine ⟨keyed, ?_, ?_, ?_⟩
    · rw [isDone, leads, stops]
      exact led.running
    · rw [isDone, leads]
      exact led.leads
    · rw [isDone, leads, stops]
      exact fun done there => led.alone done fun gone => there (served.get?_eq_none_iff.mpr gone)

/-- A signal does not interfere with the winding down. -/
theorem State.WoundDown.served {words : List Word} {signal : Signal} {before : ThreadInfo}
    {group counted : EventGroup} {monitor : Monitor} {sampled after : ThreadInfo}
    (led : Led args st) (wound : st.WoundDown)
    (served : Served config st words signal before group counted monitor sampled after next) :
    next.WoundDown := by
  intro done gone tid tinfo profiled
  have isLed := led.served served
  obtain ⟨isTid, isPosition⟩ := isLed.keyed _ _ served.profiles_after
  by_cases finishes : st.FinishesFirst config after
  · -- The thread of the signal is the leading one, and it is still there.
    have isLead : next.firstFinishedThread = st.threadOf signal.fd := by
      rw [served.lead, if_pos finishes, isTid]
    rw [isLead, served.profiles_after.1] at gone
    cases gone
  · have wasDone : st.done = true := by
      by_contra notDone
      exact finishes ⟨(served.done.mp done).resolve_left notDone,
        (led.running (Bool.eq_false_of_not_eq_true notDone)).1⟩
    have leads := served.lead
    have stops := served.stopped
    rw [if_neg finishes] at leads stops
    rw [leads, served.get?_eq_none_iff] at gone
    obtain ⟨old, wasProfiled, sameTid, -⟩ := served.profiles profiled
    rw [stops, sameTid]
    exact wound wasDone gone tid old wasProfiled

/-- Forgetting a thread keeps the run led. -/
theorem Led.forget (led : Led args st) (pid : ℤ) : Led args (st.forget pid) := by
  refine ⟨fun tid tinfo profiled => ?_, led.running, led.leads, fun done there => ?_⟩
  · exact led.keyed tid tinfo (State.profiles_forget.mp profiled).2
  · refine led.alone done fun gone => there ?_
    show (st.tidMap.erase pid).get? st.firstFinishedThread = none
    rw [Dict.get?_erase, gone, ite_self]

theorem Led.waited (led : Led args st) {wait : Wait} (waited : WaitStep st wait next) :
    Led args next := by
  cases waited with
  | goesOn stops other => exact led
  | exited exits tinfo isThread flushed => exact led.forget wait.pid
  | killed signaled exitsNot running tinfo isThread flushed => exact led.forget wait.pid
  | detached exitsNot done tinfo isThread flushed =>
      have forgotten := led.forget wait.pid
      split
      · rename_i isLead
        refine ⟨forgotten.keyed, fun running => ?_, forgotten.leads, fun _ there => ?_⟩
        · have notDone : st.done = false := running
          rw [done] at notDone
          cases notDone
        · refine absurd ?_ there
          show (st.tidMap.erase wait.pid).get? st.firstFinishedThread = none
          rw [Dict.get?_erase, isLead, if_pos rfl]
      · exact forgotten

/-- A wait keeps the winding down, unless it is the exit of the leading thread and leaves
someone behind. -/
theorem woundDown_waited_iff (led : Led args st) (wound : st.WoundDown) {wait : Wait}
    (waited : WaitStep st wait next) :
    next.WoundDown ↔ LeavesNoOneBehind st (.wait wait) := by
  have others : wait.pid ≠ st.firstFinishedThread → (st.forget wait.pid).WoundDown := by
    intro isOther done gone tid tinfo profiled
    have stillGone : st.tidMap.get? st.firstFinishedThread = none := by
      have erased : (st.tidMap.erase wait.pid).get? st.firstFinishedThread = none := gone
      rwa [Dict.get?_erase, if_neg isOther.symm] at erased
    exact wound done stillGone tid tinfo (State.profiles_forget.mp profiled).2
  cases waited with
  | goesOn stops other =>
      exact iff_of_true wound fun _ _ exits => absurd exits (not_wIfExited_of_wIfStopped stops)
  | killed signaled exitsNot running tinfo isThread flushed =>
      refine iff_of_true (fun done => ?_) fun _ _ exits => absurd exits exitsNot
      have notDone : st.done = true := done
      rw [running] at notDone
      cases notDone
  | detached exitsNot done tinfo isThread flushed =>
      refine iff_of_true ?_ fun _ _ exits => absurd exits exitsNot
      split
      · exact fun _ _ tid left profiled =>
          State.mem_stopped_stopOthers.mpr (.inr ⟨tid, left, profiled, rfl⟩)
      · rename_i isOther
        exact others isOther
  | exited exits tinfo isThread flushed =>
      by_cases isLead : wait.pid = st.firstFinishedThread
      · have there : st.tidMap.get? st.firstFinishedThread ≠ none := by
          rw [← isLead, isThread]
          exact nofun
        have gone : (st.forget wait.pid).tidMap.get? st.firstFinishedThread = none := by
          show (st.tidMap.erase wait.pid).get? st.firstFinishedThread = none
          rw [Dict.get?_erase, if_pos isLead.symm]
        constructor
        · intro ends done _ _ tid left profiled
          by_contra isOther
          have remains : (st.forget wait.pid).Profiles tid left :=
            State.profiles_forget.mpr ⟨fun here => isOther (here.trans isLead), profiled⟩
          have isStopped : left.tid ∈ st.stopped := ends done gone tid left remains
          rw [(led.keyed tid left profiled).1] at isStopped
          exact isOther (led.alone done there tid isStopped)
        · intro noOne done _ tid left profiled
          obtain ⟨isOther, profiled⟩ := State.profiles_forget.mp profiled
          exact absurd ((noOne done isLead exits tid left profiled).trans isLead.symm) isOther
      · exact iff_of_true (others isLead) fun _ here => absurd here isLead

/-! ## Every run -/

theorem waitStep_of_systemStep {wait : Wait}
    (stepped : systemStep config st (.wait wait) = .ok next) : WaitStep st wait next :=
  waitStep_of_profileStep (systemStep_wait_eq_ok_iff.mp stepped).2

theorem Led.stepped (unlogged : st.monitor.Unlogged) (led : Led args st) {event : Event}
    (stepped : systemStep config st event = .ok next) : Led args next := by
  cases event with
  | phase words signal =>
      obtain ⟨_, _, _, _, _, _, served⟩ := served_of_systemStep unlogged stepped
      exact led.served served
  | wait wait => exact led.waited (waitStep_of_systemStep stepped)

theorem woundDown_step_iff (unlogged : st.monitor.Unlogged) (led : Led args st)
    (wound : st.WoundDown) {event : Event} (stepped : systemStep config st event = .ok next) :
    next.WoundDown ↔ LeavesNoOneBehind st event := by
  cases event with
  | phase words signal =>
      obtain ⟨_, _, _, _, _, _, served⟩ := served_of_systemStep unlogged stepped
      exact iff_of_true (wound.served led served) trivial
  | wait wait => exact woundDown_waited_iff led wound (waitStep_of_systemStep stepped)

end

section

variable {library : Interpolation} {machine : Machine} {args : Args} {launch : Launch}
  {config : Config} {start : State}

/-- A start is led. -/
theorem led_of_main (started : main library machine args launch = .ok (config, start)) :
    Led args start := by
  have launched := launched_of_main started
  have running := launched.running
  obtain ⟨_, _, _, -, -, -, -, -, tidMap, fdMap, -, rfl⟩ := mainSteps_of_main started
  refine ⟨fun tid tinfo profiled => ?_, fun _ => ⟨rfl, rfl⟩, fun done => ?_, fun done => ?_⟩
  · obtain ⟨position, core, last, outfile, groups, isNew⟩ :=
      launched.isFresh profiled.1 profiled.2
    rw [isNew]
    exact ⟨rfl, position⟩
  · rw [running] at done
    cases done
  · rw [running] at done
    cases done

/-- Every run is led. -/
theorem led_of_run (started : main library machine args launch = .ok (config, start))
    {events : List Event} {st : State} (reached : run (systemStep config) start events = .ok st) :
    Led args st := by
  obtain ⟨-, ⟨msrs, globals⟩, -⟩ := launched_of_main started
  have unlogged : start.monitor.Unlogged := by
    rw [globals]
    exact fun _ => rfl
  have kept := @run_invariant _ _ _ (systemStep config)
    (fun st => st.monitor.Unlogged ∧ Led args st)
    (fun _ _ _ both stepped =>
      ⟨unlogged_systemStep both.1 stepped, both.2.stepped both.1 stepped⟩)
    start st events ⟨unlogged, led_of_main started⟩ reached
  exact kept.2

/-- Once the leading thread of a run is gone, all profiled threads that are left were sent a
stop signal, precisely if its exit was not reported while others were left. -/
theorem woundDown_iff_leavesNoOneBehind
    (started : main library machine args launch = .ok (config, start)) (events : List Event) :
    AlongRun (systemStep config) start events (fun _ st => st.WoundDown) ↔
      AtEachStep (systemStep config) start events fun _ st event =>
        ∀ next, systemStep config st event = .ok next → LeavesNoOneBehind st event := by
  obtain ⟨-, ⟨msrs, globals⟩, -, running, -⟩ := launched_of_main started
  have unlogged : start.monitor.Unlogged := by
    rw [globals]
    exact fun _ => rfl
  have wound : start.WoundDown := by
    intro done
    rw [running] at done
    cases done
  exact @alongRun_iff_atEachStep _ _ _ _ _ _
    (fun _ st => st.monitor.Unlogged ∧ Led args st) _ _ ⟨unlogged, led_of_main started⟩ wound
    (fun _ _ _ _ kept _ stepped =>
      ⟨unlogged_systemStep kept.1 stepped, kept.2.stepped kept.1 stepped⟩)
    (fun _ _ _ _ kept wound stepped => woundDown_step_iff kept.1 kept.2 wound stepped)

end

/-! ## An exit before the stop -/

/-- The two threads, for one phase. -/
def onePhase : Args := { twoThreads with numPhases := 1 }

/-- The leading thread is stopped after its last phase, but exits before that. -/
def exitBeforeStop : List Event :=
  [.phase sampleWords (quietSignal 1000), .wait ⟨100, 0, false⟩]

theorem exists_run_exitBeforeStop :
    ∃ config start last tinfo,
      main noInterpolation interleavedMachine onePhase quietLaunch = .ok (config, start) ∧
      run (systemStep config) start exitBeforeStop = .ok last ∧ last.done = true ∧
      last.tidMap.get? last.firstFinishedThread = none ∧
      last.tidMap.get? 101 = some tinfo ∧ tinfo.isDummyThread = false ∧
      tinfo.tid = 101 ∧ last.stopped = [100] :=
  ⟨_, _, _, _, rfl, rfl, rfl, rfl, rfl, rfl, rfl, rfl⟩

/-- The second thread is left, and was sent no stop signal. -/
theorem exit_leaves_second_thread :
    ∃ config start,
      main noInterpolation interleavedMachine onePhase quietLaunch = .ok (config, start) ∧
      ¬ AlongRun (systemStep config) start exitBeforeStop (fun _ st => st.WoundDown) := by
  obtain ⟨config, start, last, tinfo, started, reached, done, gone, isThread, isReal, isTid,
    onlyLead⟩ := exists_run_exitBeforeStop
  refine ⟨config, start, started, fun along => ?_⟩
  have isStopped := along exitBeforeStop (List.prefix_refl _) last reached done gone 101 tinfo
    ⟨isThread, isReal⟩
  rw [isTid, onlyLead] at isStopped
  revert isStopped
  decide

/-- The exact condition, applied to that run. -/
theorem exitBeforeStop_woundDown_iff :
    ∃ config start,
      main noInterpolation interleavedMachine onePhase quietLaunch = .ok (config, start) ∧
      (AlongRun (systemStep config) start exitBeforeStop (fun _ st => st.WoundDown) ↔
        AtEachStep (systemStep config) start exitBeforeStop fun _ st event =>
          ∀ next, systemStep config st event = .ok next → LeavesNoOneBehind st event) := by
  obtain ⟨config, start, last, tinfo, started, -⟩ := exists_run_exitBeforeStop
  exact ⟨config, start, started, woundDown_iff_leavesNoOneBehind started exitBeforeStop⟩

end Datamime.Profiler
