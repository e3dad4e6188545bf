/-
# Every status is handled

The kernel can report a thread that the profiler is attached to as stopped by any signal, as
exited, or as killed by a signal, at any time. The loop handles such a report precisely in
the cases that it was written for: the files of the miss-curve mode are open, a stop signal
arrives only while the run winds down, and no one is killed after that.
-/

import Datamime.Profiler.WindDown

namespace Datamime.Profiler

open Datamime.Math Datamime.Hardware

/-! ## The files of a thread -/

/-- The files of the miss-curve mode are open. -/
def ThreadInfo.HasCurveFiles (tinfo : ThreadInfo) : Prop :=
  tinfo.mrcOutfile.isSome ∧ tinfo.ipcOutfile.isSome

theorem ThreadInfo.flush_eq_ok_iff {tinfo : ThreadInfo} :
    tinfo.flush = .ok () ↔ tinfo.HasCurveFiles := by
  rw [ThreadInfo.flush]
  split
  · rename_i isOpen
    exact iff_of_true rfl isOpen
  · rename_i isClosed
    exact iff_of_false nofun isClosed

section

variable {config : Config} {st next : State} {words : List Word} {signal : Signal}
  {before : ThreadInfo} {group counted : EventGroup} {monitor : Monitor}
  {sampled after : ThreadInfo}

theorem MonitorStep.hasCurveFiles_iff {nextMonitor : Monitor}
    (step : MonitorStep config monitor before nextMonitor after) :
    after.HasCurveFiles ↔ before.HasCurveFiles := by
  cases step with
  | idles closed goesOn after saved => rcases saved with ⟨rfl, -⟩ | ⟨rfl, -⟩ <;> rfl
  | passes invokes opensNone read => rfl
  | opens opensRound read slice next installed => rfl
  | waits samples read position next sampled stored noTurn => cases stored <;> rfl
  | advances collects read position more slice next installed => rfl
  | finishes collects read all logged next isLogged ended estimated estimates =>
      exact iff_of_true estimates.files.2 estimates.files.1

theorem ReadBy.hasCurveFiles_iff {metered : ThreadInfo} {reading : Reading}
    (readBy : ReadBy config signal sampled after group metered reading) :
    after.HasCurveFiles ↔ sampled.HasCurveFiles := by
  obtain ⟨⟨total, last, occupancy, rfl⟩, -, -, ends⟩ := readBy
  split at ends
  · rcases switchGroup_cases ends with ⟨-, rfl⟩ | ⟨-, -, -, rfl⟩ <;> rfl
  · rw [ends]
    rfl

/-- No signal opens or closes files. -/
theorem Served.hasCurveFiles_iff
    (served : Served config st words signal before group counted monitor sampled after next) :
    after.HasCurveFiles ↔ before.HasCurveFiles := by
  obtain ⟨metered, reading, readBy⟩ := served.readBy
  exact readBy.hasCurveFiles_iff.trans served.monitored.hasCurveFiles_iff

/-- The profiled threads have curve files precisely in the miss-curve mode. -/
def State.FilesByMode (st : State) (config : Config) : Prop :=
  ∀ tid tinfo, st.Profiles tid tinfo → (tinfo.HasCurveFiles ↔ config.mrcEstMode = true)

theorem State.FilesByMode.stepped (unlogged : st.monitor.Unlogged) (byMode : st.FilesByMode config)
    {event : Event} (stepped : systemStep config st event = .ok next) :
    next.FilesByMode config := by
  intro tid tinfo profiled
  cases event with
  | phase words signal =>
      obtain ⟨before, _, _, _, _, after, served⟩ := served_of_systemStep unlogged stepped
      obtain ⟨isThread, isReal⟩ := profiled
      rw [served.tidMap] at isThread
      split at isThread
      · cases isThread
        exact served.hasCurveFiles_iff.trans (byMode _ before ⟨served.isThread, served.isReal⟩)
      · exact byMode tid tinfo ⟨isThread, isReal⟩
  | wait wait =>
      have forgotten : (st.forget wait.pid).FilesByMode config := fun tid tinfo left =>
        byMode tid tinfo (State.profiles_forget.mp left).2
      cases waitStep_of_systemStep stepped with
      | goesOn stops other => exact byMode tid tinfo profiled
      | exited exits old isThread flushed => exact forgotten tid tinfo profiled
      | killed signaled exitsNot running old isThread flushed => exact forgotten tid tinfo profiled
      | detached exitsNot done old isThread flushed =>
          split at profiled
          · exact forgotten tid tinfo profiled
          · exact forgotten tid tinfo profiled

/-! ## Threads that are gone -/

/-- A thread that is gone does not come back. -/
theorem gone_of_run {tid : ℤ} {events : List Event} (unlogged : st.monitor.Unlogged)
    (gone : st.tidMap.get? tid = none) (reached : run (systemStep config) st events = .ok next) :
    next.tidMap.get? tid = none := by
  have kept : next.monitor.Unlogged ∧ next.tidMap.get? tid = none := by
    refine @run_invariant _ _ _ (systemStep config)
      (fun state => state.monitor.Unlogged ∧ state.tidMap.get? tid = none)
      (fun state event later both stepped => ?_) _ _ _ ⟨unlogged, gone⟩ reached
    refine ⟨unlogged_systemStep both.1 stepped, ?_⟩
    cases event with
    | phase words signal =>
        obtain ⟨_, _, _, _, _, _, served⟩ := served_of_systemStep both.1 stepped
        exact served.get?_eq_none_iff.mpr both.2
    | wait wait =>
        have forgotten : (state.forget wait.pid).tidMap.get? tid = none := by
          show (state.tidMap.erase wait.pid).get? tid = none
          rw [Dict.get?_erase, both.2, ite_self]
        cases waitStep_of_systemStep stepped with
        | goesOn stops other => exact both.2
        | exited exits tinfo isThread flushed => exact forgotten
        | killed signaled exitsNot running tinfo isThread flushed => exact forgotten
        | detached exitsNot done tinfo isThread flushed =>
            split
            · exact forgotten
            · exact forgotten
  exact kept.2

end

/-! ## Reports -/

/-- The thread has ended. -/
def Wait.Ended (wait : Wait) : Prop := wIfExited wait.status ∨ wIfSignaled wait.status

/-- A report that the kernel can make about a profiled thread. A request to a thread that has
ended fails. -/
structure Reportable (st : State) (wait : Wait) : Prop where
  isId : 0 < wait.pid
  profiled : ∃ tinfo, st.Profiles wait.pid tinfo
  status : wait.Ended ∨ wIfStopped wait.status
  dead : wait.Ended → wait.ptraceFails = true

/-- The report is handled. A thread that has ended is flushed and forgotten, and never known
again: so this happens to it once. -/
def Settles (config : Config) (st : State) (wait : Wait) : Prop :=
  ∃ next, systemStep config st (.wait wait) = .ok next ∧
    (wait.Ended → ∃ tinfo, st.tidMap.get? wait.pid = some tinfo ∧ tinfo.flush = .ok () ∧
      ∀ later last, run (systemStep config) next later = .ok last →
        last.tidMap.get? wait.pid = none)

/-- The reports that the loop was written for. -/
structure Expected (config : Config) (st : State) (wait : Wait) : Prop where
  exited : wIfExited wait.status → config.mrcEstMode = true
  /-- A stopped thread must still live when it is continued or detached. -/
  alive : wIfStopped wait.status → wait.ptraceFails = false
  stopped : wIfStopped wait.status → wStopSig wait.status = SIGSTOP →
    st.done = true ∧ config.mrcEstMode = true
  signaled : wIfSignaled wait.status → st.done = false ∧ config.mrcEstMode = true

section

variable {config : Config} {st : State} {wait : Wait}

theorem not_wIfSignaled_of_wIfExited {status : ℕ} (exits : wIfExited status) :
    ¬ wIfSignaled status := by
  rw [wIfExited] at exits
  rw [wIfSignaled]
  omega

theorem not_wIfSignaled_of_wIfStopped {status : ℕ} (stops : wIfStopped status) :
    ¬ wIfSignaled status := by
  rw [wIfStopped] at stops
  rw [wIfSignaled]
  omega

theorem not_ended_of_wIfStopped (stops : wIfStopped wait.status) : ¬ wait.Ended := by
  rintro (exits | signaled)
  · exact not_wIfExited_of_wIfStopped stops exits
  · exact not_wIfSignaled_of_wIfStopped stops signaled

/-- Forgetting a profiled thread takes the files of the miss-curve mode. -/
theorem remove_eq_ok_iff_of_profiles {pid : ℤ} {tinfo : ThreadInfo} {next : State}
    (byMode : st.FilesByMode config) (profiled : st.Profiles pid tinfo) :
    st.remove pid = .ok next ↔ config.mrcEstMode = true ∧ next = st.forget pid := by
  rw [State.remove_eq_ok_iff]
  constructor
  · rintro ⟨_, isThread, flushed, isNext⟩
    obtain rfl := Option.some.inj (profiled.1.symm.trans isThread)
    exact ⟨(byMode pid _ profiled).mp (ThreadInfo.flush_eq_ok_iff.mp flushed), isNext⟩
  · rintro ⟨mrcMode, isNext⟩
    exact ⟨tinfo, profiled.1,
      ThreadInfo.flush_eq_ok_iff.mpr ((byMode pid tinfo profiled).mpr mrcMode), isNext⟩

/-- The loop takes no error exit precisely at the reports that it was written for. -/
theorem exists_profileStep_iff (byMode : st.FilesByMode config) (reportable : Reportable st wait) :
    (∃ next, profileStep st wait = .ok next) ↔ Expected config st wait := by
  obtain ⟨isId, ⟨tinfo, profiled⟩, status, dead⟩ := reportable
  have isReport : wait.pid ≠ -1 := by omega
  have removes : (∃ next, st.remove wait.pid = .ok next) ↔ config.mrcEstMode = true := by
    simp only [remove_eq_ok_iff_of_profiles byMode profiled, exists_and_left, exists_eq, and_true]
  rw [profileStep, if_neg isReport]
  rcases status with (exits | signaled) | stops
  · have signaledNot := not_wIfSignaled_of_wIfExited exits
    have stopsNot : ¬ wIfStopped wait.status := fun stops =>
      not_wIfExited_of_wIfStopped stops exits
    rw [if_pos exits, removes]
    exact ⟨fun mrcMode => ⟨fun _ => mrcMode, fun stops => absurd stops stopsNot,
      fun stops => absurd stops stopsNot, fun signaled => absurd signaled signaledNot⟩,
      fun expected => expected.exited exits⟩
  · have exitsNot : ¬ wIfExited wait.status := fun exits =>
      not_wIfSignaled_of_wIfExited exits signaled
    have stopsNot : ¬ wIfStopped wait.status := fun stops =>
      not_wIfSignaled_of_wIfStopped stops signaled
    rw [if_neg exitsNot, if_neg (not_not_intro (.inr signaled)),
      if_neg fun stops => stopsNot stops.1, dead (.inr signaled), if_pos rfl, if_pos signaled]
    split
    · rename_i done
      constructor
      · rintro ⟨_, ⟨⟩⟩
      · intro expected
        rw [(expected.signaled signaled).1] at done
        cases done
    · rename_i running
      rw [removes]
      exact ⟨fun mrcMode => ⟨fun _ => mrcMode, fun stops => absurd stops stopsNot,
        fun stops => absurd stops stopsNot,
        fun _ => ⟨Bool.eq_false_of_not_eq_true running, mrcMode⟩⟩,
        fun expected => (expected.signaled signaled).2⟩
  · have exitsNot := not_wIfExited_of_wIfStopped stops
    have signaledNot := not_wIfSignaled_of_wIfStopped stops
    have shape : Expected config st wait ↔ wait.ptraceFails = false ∧
        (wStopSig wait.status = SIGSTOP → st.done = true ∧ config.mrcEstMode = true) :=
      ⟨fun expected => ⟨expected.alive stops, expected.stopped stops⟩, fun both =>
        ⟨fun exits => absurd exits exitsNot, fun _ => both.1, fun _ => both.2,
          fun signaled => absurd signaled signaledNot⟩⟩
    rw [shape, if_neg exitsNot, if_neg (not_not_intro (.inl stops)), if_neg signaledNot]
    by_cases isStop : wStopSig wait.status = SIGSTOP
    · rw [if_neg fun other => other.2 isStop]
      cases st.done with
      | false =>
          refine iff_of_false ?_ fun both => Bool.false_ne_true (both.2 isStop).1
          rintro ⟨_, ⟨⟩⟩
      | true =>
          rw [if_pos rfl]
          cases wait.ptraceFails with
          | true =>
              refine iff_of_false ?_ fun both => Bool.false_ne_true both.1.symm
              rintro ⟨_, ⟨⟩⟩
          | false =>
              rw [if_neg Bool.false_ne_true]
              simp only [bind_eq_ok_iff, remove_eq_ok_iff_of_profiles byMode profiled]
              constructor
              · rintro ⟨_, _, ⟨mrcMode, -⟩, -⟩
                exact ⟨trivial, fun _ => ⟨trivial, mrcMode⟩⟩
              · exact fun both => ⟨_, _, ⟨(both.2 isStop).2, rfl⟩, rfl⟩
    · rw [if_pos ⟨stops, isStop⟩]
      cases wait.ptraceFails with
      | true =>
          refine iff_of_false ?_ fun both => Bool.false_ne_true both.1.symm
          rintro ⟨_, ⟨⟩⟩
      | false => exact iff_of_true ⟨st, rfl⟩ ⟨rfl, fun here => absurd here isStop⟩

/-- A report is handled precisely if the loop was written for it. -/
theorem settles_iff_expected (unlogged : st.monitor.Unlogged) (byMode : st.FilesByMode config)
    (goesOn : ¬ st.Returned) (reportable : Reportable st wait) :
    Settles config st wait ↔ Expected config st wait := by
  rw [← exists_profileStep_iff byMode reportable]
  constructor
  · rintro ⟨next, stepped, -⟩
    exact ⟨next, (systemStep_wait_eq_ok_iff.mp stepped).2⟩
  · rintro ⟨next, returned⟩
    have stepped : systemStep config st (.wait wait) = .ok next :=
      systemStep_wait_eq_ok_iff.mpr ⟨goesOn, returned⟩
    refine ⟨next, stepped, fun ended => ?_⟩
    have removed : ∀ tinfo, st.tidMap.get? wait.pid = some tinfo → tinfo.flush = .ok () →
        next.tidMap.get? wait.pid = none →
        ∃ tinfo, st.tidMap.get? wait.pid = some tinfo ∧ tinfo.flush = .ok () ∧
          ∀ later last, run (systemStep config) next later = .ok last →
            last.tidMap.get? wait.pid = none := fun tinfo isThread flushed gone =>
      ⟨tinfo, isThread, flushed, fun later last reached =>
        gone_of_run (unlogged_systemStep unlogged stepped) gone reached⟩
    have forgotten : (st.forget wait.pid).tidMap.get? wait.pid = none := by
      show (st.tidMap.erase wait.pid).get? wait.pid = none
      rw [Dict.get?_erase, if_pos rfl]
    cases waitStep_of_profileStep returned with
    | goesOn stops other => exact absurd ended (not_ended_of_wIfStopped stops)
    | exited exits tinfo isThread flushed => exact removed tinfo isThread flushed forgotten
    | killed signaled exitsNot running tinfo isThread flushed =>
        exact removed tinfo isThread flushed forgotten
    | detached exitsNot done tinfo isThread flushed =>
        refine removed tinfo isThread flushed ?_
        split
        · exact forgotten
        · exact forgotten

end

/-! ## Every run -/

section

variable {library : Interpolation} {machine : Machine} {args : Args} {launch : Launch}
  {config : Config} {start : State}

theorem filesByMode_of_main (started : main library machine args launch = .ok (config, start)) :
    start.FilesByMode config := by
  have launched := launched_of_main started
  intro tid tinfo profiled
  obtain ⟨position, core, last, outfile, groups, isNew⟩ := launched.isFresh profiled.1 profiled.2
  rw [isNew, launched.mrcEstMode]
  show (if args.mrcEstMode then some [] else none : Option (List Char)).isSome ∧
    (if args.mrcEstMode then some [] else none : Option (List Char)).isSome ↔
      args.mrcEstMode = true
  cases args.mrcEstMode with
  | true => exact iff_of_true ⟨rfl, rfl⟩ rfl
  | false => exact iff_of_false nofun nofun

/-- In every run the threads have the files of the mode. -/
theorem filesByMode_of_run (started : main library machine args launch = .ok (config, start))
    {events : List Event} {st : State} (reached : run (systemStep config) start events = .ok st) :
    st.monitor.Unlogged ∧ st.FilesByMode config := by
  obtain ⟨-, ⟨msrs, globals⟩, -⟩ := launched_of_main started
  have unlogged : start.monitor.Unlogged := by
    rw [globals]
    exact fun _ => rfl
  exact @run_invariant _ _ _ (systemStep config)
    (fun state => state.monitor.Unlogged ∧ state.FilesByMode config)
    (fun _ _ _ both stepped => ⟨unlogged_systemStep both.1 stepped, both.2.stepped both.1 stepped⟩)
    _ _ _ ⟨unlogged, filesByMode_of_main started⟩ reached

/-- In every run the loop handles each report that the kernel makes about a profiled thread,
and removes each thread that has ended once, precisely if it meets only the reports that it
was written for. -/
theorem settles_iff_expected_along
    (started : main library machine args launch = .ok (config, start)) (events : List Event) :
    (AtEachStep (systemStep config) start events fun _ st event =>
      ∀ wait, event = .wait wait → ¬ st.Returned → Reportable st wait →
        Settles config st wait) ↔
    AtEachStep (systemStep config) start events fun _ st event =>
      ∀ wait, event = .wait wait → ¬ st.Returned → Reportable st wait →
        Expected config st wait := by
  refine forall₂_congr fun early event => forall₂_congr fun isPrefix st => ?_
  refine forall_congr' fun reached => forall₂_congr fun wait isWait => ?_
  refine forall₂_congr fun goesOn reportable => ?_
  obtain ⟨stUnlogged, byMode⟩ := filesByMode_of_run started reached
  exact settles_iff_expected stUnlogged byMode goesOn reportable

end

/-! ## A stop signal from outside -/

/-- `SIGSTOP`, delivered to the leading thread. -/
def outsideStop : Wait := ⟨100, SIGSTOP * 2 ^ 8 + 0x7f, false⟩

theorem exists_main_twoThreads :
    ∃ config start tinfo,
      main noInterpolation interleavedMachine twoThreads quietLaunch = .ok (config, start) ∧
      start.tidMap.get? 100 = some tinfo ∧ tinfo.isDummyThread = false ∧
      start.done = false ∧ start.tidMap.size = 3 :=
  ⟨_, _, _, rfl, rfl, rfl, rfl, rfl⟩

/-- The profiler exits at a stop signal from outside. -/
theorem outside_stop_exits :
    ∃ config start,
      main noInterpolation interleavedMachine twoThreads quietLaunch = .ok (config, start) ∧
      ¬ AtEachStep (systemStep config) start [.wait outsideStop] fun _ st event =>
        ∀ wait, event = .wait wait → ¬ st.Returned → Reportable st wait →
          Settles config st wait := by
  obtain ⟨config, start, tinfo, started, isThread, isReal, running, size⟩ := exists_main_twoThreads
  have goesOn : ¬ start.Returned := by
    rw [State.Returned, size]
    decide
  have reportable : Reportable start outsideStop :=
    ⟨by decide, ⟨tinfo, isThread, isReal⟩, .inr (by decide), fun ended => absurd ended (by
      rintro (exits | signaled)
      · exact absurd exits (by decide)
      · exact absurd signaled (by decide))⟩
  refine ⟨config, start, started, fun handled => ?_⟩
  obtain ⟨next, stepped, -⟩ := handled [] (.wait outsideStop) (List.prefix_refl _) start rfl
    outsideStop rfl goesOn reportable
  cases waitStep_of_systemStep stepped with
  | goesOn stops other => exact absurd rfl other
  | exited exits tinfo isThread flushed => exact absurd exits (by decide)
  | killed signaled exitsNot running tinfo isThread flushed => exact absurd signaled (by decide)
  | detached exitsNot done tinfo isThread flushed =>
      rw [running] at done
      cases done

/-- The exact condition, applied to that run. -/
theorem outsideStop_settles_iff :
    ∃ config start,
      main noInterpolation interleavedMachine twoThreads quietLaunch = .ok (config, start) ∧
      ((AtEachStep (systemStep config) start [.wait outsideStop] fun _ st event =>
        ∀ wait, event = .wait wait → ¬ st.Returned → Reportable st wait →
          Settles config st wait) ↔
      AtEachStep (systemStep config) start [.wait outsideStop] fun _ st event =>
        ∀ wait, event = .wait wait → ¬ st.Returned → Reportable st wait →
          Expected config st wait) := by
  obtain ⟨config, start, tinfo, started, -⟩ := exists_main_twoThreads
  exact ⟨config, start, started, settles_iff_expected_along started _⟩

end Datamime.Profiler
