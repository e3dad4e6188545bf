/-
# The files of a thread, closed

For each thread on the command line `main` opens a file for its counters, and in the miss-curve
mode two more for its curves. When the thread is removed all three are flushed and closed, whichever
of them there are. In the other mode that is one file and two null streams, and closing a null
stream ends the program. Since the records of the threads are kept by plain pointers, nothing else
closes them: a thread that is named twice has two files of each kind and only one record, which
knows the later ones.
-/

import Datamime.Math.History
import Datamime.Profiler.WaitLoop

namespace Datamime.Profiler

open Datamime.Math Datamime.Hardware

/-! ## Streams -/

inductive OutFileKind
  | counters
  | mrc
  | ipc
  deriving DecidableEq

/-- A file that `main` opens for the thread at a position of the command line. -/
structure OutFile where
  tidx : ℕ
  kind : OutFileKind
  deriving DecidableEq

/-- The files that `main` opens. -/
def openedByMain (args : Args) : List OutFile :=
  (List.range args.profiledTids.length).flatMap fun tidx =>
    ⟨tidx, .counters⟩ :: if args.mrcEstMode then [⟨tidx, .mrc⟩, ⟨tidx, .ipc⟩] else []

/-- A call on a stream, which may be null. -/
inductive FileCall
  | fflush (stream : Option OutFile)
  | fclose (stream : Option OutFile)
  deriving DecidableEq

/-- The three streams of a thread. The array-scanning thread has none. -/
def ThreadInfo.streams (tinfo : ThreadInfo) : List (Option OutFile) :=
  [if tinfo.isDummyThread then none else some ⟨tinfo.tidx, .counters⟩,
    tinfo.mrcOutfile.map fun _ => ⟨tinfo.tidx, .mrc⟩,
    tinfo.ipcOutfile.map fun _ => ⟨tinfo.tidx, .ipc⟩]

/-- Close one stream after the other. The program does not survive a null stream. -/
def closeAll : List (Option OutFile) → List FileCall
  | [] => []
  | none :: _ => [.fclose none]
  | some file :: rest => .fclose (some file) :: closeAll rest

/-- The calls in `ThreadInfo::flush`. -/
def ThreadInfo.flushCalls (tinfo : ThreadInfo) : List FileCall :=
  tinfo.streams.map .fflush ++ closeAll tinfo.streams

/-- The calls when a thread is removed. An unknown one is a null pointer. -/
def State.removeCalls (st : State) (pid : ℤ) : List FileCall :=
  match st.tidMap.get? pid with
  | none => []
  | some tinfo => tinfo.flushCalls

/-- The calls in one round of the loop of `profile`. -/
def profileCalls (st : State) (wait : Wait) : List FileCall :=
  if wait.pid = -1 then []
  else if wIfExited wait.status then st.removeCalls wait.pid
  else if ¬ (wIfStopped wait.status ∨ wIfSignaled wait.status) then []
  else if wIfStopped wait.status ∧ wStopSig wait.status ≠ SIGSTOP then []
  else if st.done then if wait.ptraceFails then [] else st.removeCalls wait.pid
  else if wIfSignaled wait.status then st.removeCalls wait.pid
  else []

/-- The calls at an event. The handler of a signal closes nothing. -/
def eventCalls (st : State) : Event → List FileCall
  | .phase _ _ => []
  | .wait wait => if st.Returned then [] else profileCalls st wait

/-- The calls of a run. -/
def callsAlong (config : Config) (start : State) (events : List Event) : List FileCall :=
  emittedAlong (systemStep config) eventCalls start events

/-! ## Rounds that remove a thread -/

/-- The round takes one of the branches that remove the thread: it exited, or was killed before
the run was done, or stopped or was killed afterwards and can be detached. -/
def Removes (st : State) (wait : Wait) : Prop :=
  wait.pid ≠ -1 ∧ (wIfExited wait.status ∨
    (wIfSignaled wait.status ∨ (wIfStopped wait.status ∧ wStopSig wait.status = SIGSTOP)) ∧
      if st.done then wait.ptraceFails = false else wIfSignaled wait.status)

/-- What a round does to the threads and to the files. -/
inductive RoundCase (st : State) (wait : Wait) : Prop
  | removes (removes : Removes st wait) (calls : profileCalls st wait = st.removeCalls wait.pid)
      (finish : State → State) (sameThreads : ∀ state, (finish state).tidMap = state.tidMap)
      (result : profileStep st wait = (st.remove wait.pid).map finish)
  | keeps (keeps : ¬ Removes st wait) (calls : profileCalls st wait = [])
      (result : ∀ next, profileStep st wait = .ok next → next = st)

/-- A thread that was killed or stopped by `SIGSTOP` is detached once the run is done. Before
that it must have been killed. -/
theorem roundCase_of_ends {st : State} {wait : Wait} (isReport : wait.pid ≠ -1)
    (exitsNot : ¬ wIfExited wait.status)
    (ends : wIfSignaled wait.status ∨
      (wIfStopped wait.status ∧ wStopSig wait.status = SIGSTOP)) : RoundCase st wait := by
  have reported : wIfStopped wait.status ∨ wIfSignaled wait.status :=
    ends.elim .inr fun stops => .inl stops.1
  have notPassedOn : ¬ (wIfStopped wait.status ∧ wStopSig wait.status ≠ SIGSTOP) := by
    rintro ⟨stops, other⟩
    rcases ends with signaled | stopped
    · exact not_wIfSignaled_of_wIfStopped stops signaled
    · exact other stopped.2
  have calls : profileCalls st wait =
      if st.done then if wait.ptraceFails then [] else st.removeCalls wait.pid
      else if wIfSignaled wait.status then st.removeCalls wait.pid
      else [] := by
    rw [profileCalls, if_neg isReport, if_neg exitsNot, if_neg (not_not_intro reported),
      if_neg notPassedOn]
  have removes_iff : Removes st wait ↔
      if st.done then wait.ptraceFails = false else wIfSignaled wait.status :=
    ⟨fun removes => (removes.2.resolve_left exitsNot).2, fun last => ⟨isReport, .inr ⟨ends, last⟩⟩⟩
  cases isDone : st.done with
  | true =>
      rw [isDone, if_pos rfl] at calls removes_iff
      cases alive : wait.ptraceFails with
      | true =>
          rw [alive] at removes_iff
          refine .keeps (fun removes => nomatch removes_iff.mp removes) ?_ fun next returned => ?_
          · rw [calls, alive, if_pos rfl]
          · rw [profileStep, if_neg isReport, if_neg exitsNot, if_neg (not_not_intro reported),
              if_neg notPassedOn, isDone, if_pos rfl, alive, if_pos rfl] at returned
            cases returned
      | false =>
          refine .removes (removes_iff.mpr alive) ?_ (fun state =>
            if wait.pid = st.firstFinishedThread then state.stopOthers else state)
            (fun state => by split <;> rfl) ?_
          · rw [calls, alive, if_neg Bool.false_ne_true]
          · rw [profileStep, if_neg isReport, if_neg exitsNot, if_neg (not_not_intro reported),
              if_neg notPassedOn, isDone, if_pos rfl, alive, if_neg Bool.false_ne_true]
            cases removed : st.remove wait.pid with
            | error fault => rfl
            | ok gone =>
                have sameFirst : gone.firstFinishedThread = st.firstFinishedThread := by
                  obtain ⟨tinfo, -, -, rfl⟩ := State.remove_eq_ok_iff.mp removed
                  rfl
                show Except.ok _ = Except.ok _
                rw [sameFirst]
  | false =>
      rw [isDone, if_neg Bool.false_ne_true] at calls removes_iff
      by_cases signaled : wIfSignaled wait.status
      · refine .removes (removes_iff.mpr signaled) ?_ id (fun _ => rfl) ?_
        · rw [calls, if_pos signaled]
        · rw [profileStep, if_neg isReport, if_neg exitsNot, if_neg (not_not_intro reported),
            if_neg notPassedOn, isDone, if_neg Bool.false_ne_true, if_pos signaled]
          cases st.remove wait.pid <;> rfl
      · refine .keeps (fun removes => signaled (removes_iff.mp removes)) ?_ fun next returned => ?_
        · rw [calls, if_neg signaled]
        · rw [profileStep, if_neg isReport, if_neg exitsNot, if_neg (not_not_intro reported),
            if_neg notPassedOn, isDone, if_neg Bool.false_ne_true, if_neg signaled] at returned
          cases returned

theorem roundCase (st : State) (wait : Wait) : RoundCase st wait := by
  by_cases isError : wait.pid = -1
  · refine .keeps (fun removes => removes.1 isError) (if_pos isError) fun next returned => ?_
    rw [profileStep, if_pos isError] at returned
    cases returned
  by_cases exits : wIfExited wait.status
  · refine .removes ⟨isError, .inl exits⟩ ?_ id (fun _ => rfl) ?_
    · rw [profileCalls, if_neg isError, if_pos exits]
    · rw [profileStep, if_neg isError, if_pos exits]
      cases st.remove wait.pid <;> rfl
  by_cases ends : wIfSignaled wait.status ∨
      (wIfStopped wait.status ∧ wStopSig wait.status = SIGSTOP)
  · exact roundCase_of_ends isError exits ends
  refine .keeps (fun removes => ends (removes.2.resolve_left exits).1) ?_ fun next returned => ?_
  · -- What is left is a stop that the thread goes on from, or no report at all.
    rw [profileCalls, if_neg isError, if_neg exits]
    split
    · rfl
    rename_i reported
    have stops := (not_not.mp reported).resolve_right fun signaled => ends (.inl signaled)
    rw [if_pos ⟨stops, fun isStop => ends (.inr ⟨stops, isStop⟩)⟩]
  · rw [profileStep, if_neg isError, if_neg exits] at returned
    split at returned
    · cases returned
    rename_i reported
    have stops := (not_not.mp reported).resolve_right fun signaled => ends (.inl signaled)
    rw [if_pos ⟨stops, fun isStop => ends (.inr ⟨stops, isStop⟩)⟩] at returned
    split at returned
    · cases returned
    · exact (Except.ok.inj returned).symm

/-! ## The calls for one thread -/

theorem fclose_none_mem_closeAll_iff {streams : List (Option OutFile)} :
    .fclose none ∈ closeAll streams ↔ none ∈ streams := by
  induction streams with
  | nil => exact iff_of_false List.not_mem_nil List.not_mem_nil
  | cons stream rest ih =>
      cases stream with
      | none => exact iff_of_true List.mem_cons_self List.mem_cons_self
      | some file => simp [closeAll, ih]

/-- A null stream is closed unless there are all three files. -/
theorem fclose_none_mem_flushCalls_iff {tinfo : ThreadInfo} :
    .fclose none ∈ tinfo.flushCalls ↔
      ¬ (tinfo.isDummyThread = false ∧ tinfo.HasCurveFiles) := by
  have inFlush : .fclose none ∉ tinfo.streams.map FileCall.fflush := by
    intro isMember
    obtain ⟨stream, -, same⟩ := List.mem_map.mp isMember
    cases same
  rw [ThreadInfo.flushCalls, List.mem_append, or_iff_right inFlush, fclose_none_mem_closeAll_iff,
    ThreadInfo.streams, ThreadInfo.HasCurveFiles]
  cases tinfo.isDummyThread <;> cases tinfo.mrcOutfile <;> cases tinfo.ipcOutfile <;> simp

/-- What a thread with all three files flushes and closes. -/
theorem count_flushCalls {tinfo : ThreadInfo} (isReal : tinfo.isDummyThread = false)
    (hasCurves : tinfo.HasCurveFiles) (file : OutFile) :
    tinfo.flushCalls.count (.fflush (some file)) = (decide (file.tidx = tinfo.tidx)).toNat ∧
      tinfo.flushCalls.count (.fclose (some file)) =
        (decide (file.tidx = tinfo.tidx)).toNat := by
  obtain ⟨mrc, isMrc⟩ := Option.isSome_iff_exists.mp hasCurves.1
  obtain ⟨ipc, isIpc⟩ := Option.isSome_iff_exists.mp hasCurves.2
  obtain ⟨position, kind⟩ := file
  rw [ThreadInfo.flushCalls, ThreadInfo.streams, isReal, isMrc, isIpc]
  by_cases here : position = tinfo.tidx
  · rw [here]
    cases kind <;> simp [closeAll]
  · have there : tinfo.tidx ≠ position := Ne.symm here
    cases kind <;> simp [closeAll, here, there]

/-! ## Exactly once -/

/-- The files of the threads that are gone were flushed and closed once, those of the others
not yet. -/
def FilesClosed (args : Args) (calls : List FileCall) (st : State) : Prop :=
  ∀ file ∈ openedByMain args, ∀ tid, args.profiledTids[file.tidx]? = some tid →
    calls.count (.fflush (some file)) = (st.tidMap.get? tid).isNone.toNat ∧
      calls.count (.fclose (some file)) = (st.tidMap.get? tid).isNone.toNat

/-- In a run no null stream is closed and each file is closed once, when its thread goes. -/
def ClosesFiles (args : Args) (config : Config) (start : State) (events : List Event) : Prop :=
  .fclose none ∉ callsAlong config start events ∧
    AlongRun (systemStep config) start events fun early st =>
      FilesClosed args (callsAlong config start early) st

/-- The thread is at no other position of the command line. -/
def NamedOnce (args : Args) (tid : ℤ) : Prop :=
  ∀ i j : ℕ, args.profiledTids[i]? = some tid → args.profiledTids[j]? = some tid → i = j

/-- A thread is removed only in the miss-curve mode, and was named once on the command line. -/
def RemovesCleanly (args : Args) (st : State) (wait : Wait) : Prop :=
  Removes st wait → ∀ tinfo, st.tidMap.get? wait.pid = some tinfo →
    tinfo.isDummyThread = false ∧ args.mrcEstMode = true ∧ NamedOnce args wait.pid

theorem mem_openedByMain_counters {args : Args} {tidx : ℕ} {tid : ℤ}
    (isPosition : args.profiledTids[tidx]? = some tid) :
    ⟨tidx, .counters⟩ ∈ openedByMain args := by
  obtain ⟨inside, -⟩ := List.getElem?_eq_some_iff.mp isPosition
  exact List.mem_flatMap.mpr ⟨tidx, List.mem_range.mpr inside, List.mem_cons_self⟩

section

variable {args : Args} {config : Config} {start st next : State} {wait : Wait}
  {calls : List FileCall}

/-- A removal that is clean closes the files of its thread. -/
theorem FilesClosed.removed {tinfo : ThreadInfo} (closed : FilesClosed args calls st)
    (isThread : st.tidMap.get? wait.pid = some tinfo) (isReal : tinfo.isDummyThread = false)
    (hasCurves : tinfo.HasCurveFiles)
    (isPosition : args.profiledTids[tinfo.tidx]? = some wait.pid)
    (once : NamedOnce args wait.pid)
    (gone : next.tidMap = st.tidMap.erase wait.pid) :
    FilesClosed args (calls ++ tinfo.flushCalls) next := by
  intro file isOpened tid isTid
  obtain ⟨flushedBefore, closedBefore⟩ := closed file isOpened tid isTid
  obtain ⟨flushes, closes⟩ := count_flushCalls isReal hasCurves file
  rw [List.count_append, List.count_append, flushedBefore, closedBefore, flushes, closes, gone,
    Dict.get?_erase, and_self]
  by_cases here : tid = wait.pid
  · have samePosition : file.tidx = tinfo.tidx :=
      once _ _ (here ▸ isTid) isPosition
    rw [if_pos here, here, isThread, decide_eq_true samePosition]
    rfl
  · have otherPosition : file.tidx ≠ tinfo.tidx := fun same => by
      rw [same, isPosition] at isTid
      exact here (Option.some.inj isTid).symm
    rw [if_neg here, decide_eq_false otherPosition]
    rfl

/-- A file that the record of its thread does not know stays open. -/
theorem not_filesClosed_removed {tinfo : ThreadInfo} {other : ℕ}
    (closed : FilesClosed args calls st) (isThread : st.tidMap.get? wait.pid = some tinfo)
    (isReal : tinfo.isDummyThread = false) (hasCurves : tinfo.HasCurveFiles)
    (isSecond : args.profiledTids[other]? = some wait.pid) (isOther : other ≠ tinfo.tidx)
    (gone : next.tidMap = st.tidMap.erase wait.pid) :
    ¬ FilesClosed args (calls ++ tinfo.flushCalls) next := by
  intro closedAfter
  have isOpened := mem_openedByMain_counters isSecond
  have before := (closed _ isOpened _ isSecond).1
  have after := (closedAfter _ isOpened _ isSecond).1
  rw [List.count_append, before, (count_flushCalls isReal hasCurves _).1, gone, Dict.get?_erase,
    if_pos rfl, isThread, decide_eq_false isOther] at after
  cases after

/-- A round without a removal leaves all files as they are. -/
theorem FilesClosed.kept (closed : FilesClosed args calls st)
    (sameThreads : ∀ tid, next.tidMap.get? tid = none ↔ st.tidMap.get? tid = none) :
    FilesClosed args (calls ++ []) next := by
  intro file isOpened tid isTid
  have sameGone : (next.tidMap.get? tid).isNone = (st.tidMap.get? tid).isNone := by
    rw [Bool.eq_iff_iff, Option.isNone_iff_eq_none, Option.isNone_iff_eq_none, sameThreads]
  rw [List.append_nil, sameGone]
  exact closed file isOpened tid isTid

end

/-! ## Every run -/

/-- The invariant of a run that the files depend on. -/
structure KnowsFiles (args : Args) (config : Config) (st : State) : Prop where
  unlogged : st.monitor.Unlogged
  led : Led args st
  byMode : st.FilesByMode config

section

variable {library : Interpolation} {machine : Machine} {args : Args} {launch : Launch}
  {config : Config} {start : State}

theorem knowsFiles_of_run (started : main library machine args launch = .ok (config, start))
    {events : List Event} {st : State} (reached : run (systemStep config) start events = .ok st) :
    KnowsFiles args config st := by
  obtain ⟨-, ⟨msrs, globals⟩, -⟩ := launched_of_main started
  have unlogged : start.monitor.Unlogged := by
    rw [globals]
    exact fun _ => rfl
  exact @run_invariant _ _ _ (systemStep config) (KnowsFiles args config)
    (fun _ _ _ knows stepped => ⟨unlogged_systemStep knows.unlogged stepped,
      knows.led.stepped knows.unlogged stepped, knows.byMode.stepped knows.unlogged stepped⟩)
    _ _ _ ⟨unlogged, led_of_main started, filesByMode_of_main started⟩ reached

theorem get?_ne_none_of_createAllGroups {kernel : ℤ → Kernel} {tids : List ℤ}
    {st ready : Dict ℤ ThreadInfo × Dict ℤ ℤ}
    (created : createAllGroups kernel args tids st = .ok ready) {tid : ℤ}
    (known : tid ∈ tids ∨ st.1.get? tid ≠ none) : ready.1.get? tid ≠ none := by
  induction tids generalizing st with
  | nil =>
      cases created
      exact known.resolve_left List.not_mem_nil
  | cons first tids ih =>
      obtain ⟨tidMap, fdMap⟩ := st
      rw [createAllGroups] at created
      cases isThread : tidMap.get? first with
      | none =>
          rw [isThread] at created
          cases created
      | some record =>
          rw [isThread] at created
          obtain ⟨⟨next, nextFdMap⟩, -, created⟩ := bind_eq_ok_iff.mp created
          refine ih created ?_
          by_cases here : tid = first
          · refine .inr ?_
            rw [Dict.get?_insert, if_pos here]
            exact Option.some_ne_none _
          · refine known.imp (fun isMember => (List.mem_cons.mp isMember).resolve_left here) ?_
            intro present
            rwa [Dict.get?_insert, if_neg here]

/-- At the start no thread is gone. -/
theorem filesClosed_of_main (started : main library machine args launch = .ok (config, start)) :
    FilesClosed args [] start := by
  obtain ⟨_, _, _, -, -, -, -, -, tidMap, fdMap, grouped, rfl⟩ := mainSteps_of_main started
  intro file _ tid isTid
  have present : tidMap.get? tid ≠ none :=
    get?_ne_none_of_createAllGroups grouped (.inl (List.mem_of_getElem? isTid))
  have notGone : (tidMap.get? tid).isNone = false := by
    rw [Option.isNone_eq_false_iff, Option.isSome_iff_ne_none]
    exact present
  rw [List.count_nil, List.count_nil, notGone]
  exact ⟨rfl, rfl⟩

/-- The calls of a round that removes a thread. -/
theorem eventCalls_of_removes {st : State} {wait : Wait} {tinfo : ThreadInfo}
    (goesOn : ¬ st.Returned) (removes : Removes st wait)
    (isThread : st.tidMap.get? wait.pid = some tinfo) :
    eventCalls st (.wait wait) = tinfo.flushCalls := by
  rw [eventCalls, if_neg goesOn]
  cases roundCase st wait with
  | keeps keeps calls result => exact absurd removes keeps
  | removes removes calls finish sameThreads result =>
      rw [calls, State.removeCalls, isThread]

/-- A removal with all files there goes through. -/
theorem exists_step_of_removes {st : State} {wait : Wait} {tinfo : ThreadInfo}
    (goesOn : ¬ st.Returned) (removes : Removes st wait)
    (isThread : st.tidMap.get? wait.pid = some tinfo) (hasCurves : tinfo.HasCurveFiles) :
    ∃ next, systemStep config st (.wait wait) = .ok next ∧
      next.tidMap = st.tidMap.erase wait.pid := by
  cases roundCase st wait with
  | keeps keeps calls result => exact absurd removes keeps
  | removes removes calls finish sameThreads result =>
      have removed : st.remove wait.pid = .ok (st.forget wait.pid) :=
        State.remove_eq_ok_iff.mpr
          ⟨tinfo, isThread, ThreadInfo.flush_eq_ok_iff.mpr hasCurves, rfl⟩
      rw [removed] at result
      exact ⟨finish (st.forget wait.pid), systemStep_wait_eq_ok_iff.mpr ⟨goesOn, result⟩,
        sameThreads _⟩

theorem callsAlong_concat {events : List Event} {st : State} (event : Event)
    (reached : run (systemStep config) start events = .ok st) :
    callsAlong config start (events ++ [event]) =
      callsAlong config start events ++ eventCalls st event := emittedAlong_concat reached

theorem fclose_none_not_mem_iff {events : List Event} :
    .fclose none ∉ callsAlong config start events ↔
      AtEachStep (systemStep config) start events fun _ st event =>
        .fclose none ∉ eventCalls st event := by
  simp only [← List.forall_mem_ne]
  exact forall_emitted_iff

section

variable {st next : State} {calls : List FileCall}

theorem KnowsFiles.hasCurveFiles_iff (knows : KnowsFiles args config st)
    (sameMode : config.mrcEstMode = args.mrcEstMode) {tid : ℤ} {tinfo : ThreadInfo}
    (isThread : st.tidMap.get? tid = some tinfo) (isReal : tinfo.isDummyThread = false) :
    tinfo.HasCurveFiles ↔ args.mrcEstMode = true := by
  rw [← sameMode]
  exact knows.byMode _ _ ⟨isThread, isReal⟩

/-- Clean removals close no null stream. -/
theorem KnowsFiles.fclose_none_not_mem (knows : KnowsFiles args config st)
    (sameMode : config.mrcEstMode = args.mrcEstMode) {event : Event}
    (clean : ∀ wait, event = .wait wait → ¬ st.Returned → RemovesCleanly args st wait) :
    .fclose none ∉ eventCalls st event := by
  cases event with
  | phase words signal => exact List.not_mem_nil
  | wait wait =>
      rw [eventCalls]
      split
      · exact List.not_mem_nil
      rename_i goesOn
      cases roundCase st wait with
      | keeps keeps calls result =>
          rw [calls]
          exact List.not_mem_nil
      | removes removes calls finish sameThreads result =>
          rw [calls, State.removeCalls]
          split
          · exact List.not_mem_nil
          · rename_i tinfo isThread
            obtain ⟨isReal, mrcMode, -⟩ := clean wait rfl goesOn removes tinfo isThread
            have hasCurves := (knows.hasCurveFiles_iff sameMode isThread isReal).mpr mrcMode
            exact fun isNull => fclose_none_mem_flushCalls_iff.mp isNull ⟨isReal, hasCurves⟩

/-- Clean removals close the files of the threads that go, and only these. -/
theorem FilesClosed.stepped (closed : FilesClosed args calls st) (knows : KnowsFiles args config st)
    (sameMode : config.mrcEstMode = args.mrcEstMode) {event : Event}
    (clean : ∀ wait, event = .wait wait → ¬ st.Returned → RemovesCleanly args st wait)
    (stepped : systemStep config st event = .ok next) :
    FilesClosed args (calls ++ eventCalls st event) next := by
  cases event with
  | phase words signal =>
      obtain ⟨_, _, _, _, _, _, served⟩ := served_of_systemStep knows.unlogged stepped
      exact closed.kept fun tid => served.get?_eq_none_iff
  | wait wait =>
      obtain ⟨goesOn, returned⟩ := systemStep_wait_eq_ok_iff.mp stepped
      cases roundCase st wait with
      | keeps keeps calls result =>
          rw [eventCalls, if_neg goesOn, calls, result next returned]
          exact closed.kept fun _ => Iff.rfl
      | removes removes calls finish sameThreads result =>
          rw [result] at returned
          cases removed : st.remove wait.pid with
          | error fault =>
              rw [removed] at returned
              cases returned
          | ok gone =>
              rw [removed] at returned
              obtain rfl : finish gone = next := Except.ok.inj returned
              obtain ⟨tinfo, isThread, -, rfl⟩ := State.remove_eq_ok_iff.mp removed
              obtain ⟨isReal, mrcMode, named⟩ := clean wait rfl goesOn removes tinfo isThread
              have hasCurves := (knows.hasCurveFiles_iff sameMode isThread isReal).mpr mrcMode
              rw [eventCalls_of_removes goesOn removes isThread]
              exact closed.removed isThread isReal hasCurves
                (knows.led.keyed _ _ ⟨isThread, isReal⟩).2 named (sameThreads _)

/-- A removal that closes the files of its thread and no null stream is clean. -/
theorem FilesClosed.removesCleanly {wait : Wait} (closed : FilesClosed args calls st)
    (knows : KnowsFiles args config st) (sameMode : config.mrcEstMode = args.mrcEstMode)
    (noNull : .fclose none ∉ eventCalls st (.wait wait))
    (closedAfter : ∀ next, systemStep config st (.wait wait) = .ok next →
      FilesClosed args (calls ++ eventCalls st (.wait wait)) next)
    (goesOn : ¬ st.Returned) : RemovesCleanly args st wait := by
  intro removes tinfo isThread
  have ownCalls := eventCalls_of_removes goesOn removes isThread
  rw [ownCalls] at noNull
  obtain ⟨isReal, hasCurves⟩ := not_not.mp (mt fclose_none_mem_flushCalls_iff.mpr noNull)
  obtain ⟨next, stepped, gone⟩ := @exists_step_of_removes config _ _ _ goesOn removes isThread
    hasCurves
  have after := closedAfter next stepped
  rw [ownCalls] at after
  have isOwn : ∀ i : ℕ, args.profiledTids[i]? = some wait.pid → i = tinfo.tidx := by
    intro i isPosition
    by_contra isOther
    exact not_filesClosed_removed closed isThread isReal hasCurves isPosition isOther gone after
  exact ⟨isReal, (knows.hasCurveFiles_iff sameMode isThread isReal).mp hasCurves,
    fun i j first second => (isOwn i first).trans (isOwn j second).symm⟩

end

/-- Each file is flushed and closed once, when its thread goes, and no null stream is closed,
precisely if threads are removed in the miss-curve mode only and were named once. -/
theorem closesFiles_iff (started : main library machine args launch = .ok (config, start))
    (events : List Event) :
    ClosesFiles args config start events ↔
      AtEachStep (systemStep config) start events fun _ st event =>
        ∀ wait, event = .wait wait → ¬ st.Returned → RemovesCleanly args st wait := by
  have sameMode : config.mrcEstMode = args.mrcEstMode := (launched_of_main started).mrcEstMode
  constructor
  · rintro ⟨noNull, once⟩ early event isPrefix st reached wait rfl goesOn
    have closed := once early ((List.prefix_append early _).trans isPrefix) st reached
    refine closed.removesCleanly (knowsFiles_of_run started reached) sameMode
      (fclose_none_not_mem_iff.mp noNull early _ isPrefix st reached)
      (fun next stepped => ?_) goesOn
    rw [← callsAlong_concat _ reached]
    exact once _ isPrefix next (run_concat_eq_ok_iff.mpr ⟨st, reached, stepped⟩)
  · intro clean
    have kept : AlongRun (systemStep config) start events fun early st =>
        run (systemStep config) start early = .ok st ∧
          FilesClosed args (callsAlong config start early) st := by
      refine alongRun_of_atEachStep ⟨rfl, filesClosed_of_main started⟩ ?_ clean
      rintro early st event next ⟨reached, closed⟩ isClean stepped
      refine ⟨run_concat_eq_ok_iff.mpr ⟨st, reached, stepped⟩, ?_⟩
      rw [callsAlong_concat event reached]
      exact closed.stepped (knowsFiles_of_run started reached) sameMode isClean stepped
    constructor
    · exact fclose_none_not_mem_iff.mpr fun early event isPrefix st reached =>
        (knowsFiles_of_run started reached).fclose_none_not_mem sameMode
          (clean early event isPrefix st reached)
    · exact fun early isPrefix st reached => (kept early isPrefix st reached).2

end

/-! ## Threads that exit -/

/-- The first thread exits. -/
def firstExits : List Event := [.wait ⟨100, 0, false⟩]

theorem exists_main_phasesOnly :
    ∃ config start,
      main noInterpolation interleavedMachine phasesOnly quietLaunch = .ok (config, start) ∧
      callsAlong config start firstExits = [.fflush (some ⟨0, .counters⟩), .fflush none,
        .fflush none, .fclose (some ⟨0, .counters⟩), .fclose none] :=
  ⟨_, _, rfl, rfl⟩

/-- Without curves the first thread that exits takes the program with it: the second and the third
stream are null. -/
theorem exit_closes_null_stream :
    ∃ config start,
      main noInterpolation interleavedMachine phasesOnly quietLaunch = .ok (config, start) ∧
      .fclose none ∈ callsAlong config start firstExits ∧
      ¬ ClosesFiles phasesOnly config start firstExits := by
  obtain ⟨config, start, started, calls⟩ := exists_main_phasesOnly
  have isNull : .fclose none ∈ callsAlong config start firstExits := by
    rw [calls]
    decide
  exact ⟨config, start, started, isNull, fun closes => closes.1 isNull⟩

/-- The exact condition, applied to a run with curves. -/
theorem firstExits_closesFiles_iff :
    ∃ config start,
      main noInterpolation interleavedMachine onePhase quietLaunch = .ok (config, start) ∧
      (ClosesFiles onePhase config start firstExits ↔
        AtEachStep (systemStep config) start firstExits fun _ st event =>
          ∀ wait, event = .wait wait → ¬ st.Returned → RemovesCleanly onePhase st wait) := by
  obtain ⟨config, start, last, tinfo, started, -⟩ := exists_run_exitBeforeStop
  exact ⟨config, start, started, closesFiles_iff started firstExits⟩

end Datamime.Profiler
