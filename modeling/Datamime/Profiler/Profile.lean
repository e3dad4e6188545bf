/-
# Waiting for the threads

The main thread waits for the stops and the exits of the profiled threads until all of
them are gone. Once the run is done it detaches from each thread that stops, and the
first one to stop takes all others with it.
-/

import Datamime.Profiler.Handler

namespace Datamime.Profiler

open Datamime.Math Datamime.Hardware

/-! ## Wait statuses -/

/-- `WIFEXITED`. -/
def wIfExited (status : ℕ) : Prop := status % 2 ^ 7 = 0

/-- `WIFSTOPPED`. -/
def wIfStopped (status : ℕ) : Prop := status % 2 ^ 8 = 0x7f

/-- `WIFSIGNALED`. -/
def wIfSignaled (status : ℕ) : Prop := 0 < status % 2 ^ 7 ∧ status % 2 ^ 7 < 0x7f

/-- `WSTOPSIG`. -/
def wStopSig (status : ℕ) : ℕ := status / 2 ^ 8 % 2 ^ 8

instance (status : ℕ) : Decidable (wIfExited status) := inferInstanceAs (Decidable (_ = _))

instance (status : ℕ) : Decidable (wIfStopped status) := inferInstanceAs (Decidable (_ = _))

instance (status : ℕ) : Decidable (wIfSignaled status) := inferInstanceAs (Decidable (_ ∧ _))

/-- What a call of `waitpid` returns, and whether the next call of `ptrace` fails. -/
structure Wait where
  pid : ℤ
  status : ℕ
  ptraceFails : Bool

/-! ## The loop -/

/-- `ThreadInfo::flush`: without the files of the miss-curve mode a null stream is closed. -/
def ThreadInfo.flush (tinfo : ThreadInfo) : Except Fault Unit :=
  if tinfo.mrcOutfile.isSome ∧ tinfo.ipcOutfile.isSome then .ok () else .error .nullEntry

/-- Flush the files of a thread and forget the thread. -/
def State.remove (st : State) (pid : ℤ) : Except Fault State :=
  match st.tidMap.get? pid with
  | none => .error .nullEntry
  | some tinfo => do
      tinfo.flush
      return { st with tidMap := st.tidMap.erase pid }

/-- Stop signals for all profiled threads that are left. -/
def State.stopOthers (st : State) : State :=
  { st with
    stopped := (st.tidMap.entries.filter fun entry => !entry.2.isDummyThread).foldl
      (fun stopped entry => entry.2.tid :: stopped) st.stopped }

/-- The request that continues a thread after a signal that is not a stop signal. -/
def continueRequest (status : ℕ) : String :=
  if status / 2 ^ 16 = PTRACE_EVENT_STOP ∧ wStopSig status ≠ SIGTRAP then "ptrace(PTRACE_LISTEN)"
  else "ptrace(PTRACE_CONT)"

/-- One round of the loop of `profile`. -/
def profileStep (st : State) (wait : Wait) : Except Fault State :=
  if wait.pid = -1 then .error (.exit "waitpid failed: returned -1")
  else if wIfExited wait.status then st.remove wait.pid
  else if ¬ (wIfStopped wait.status ∨ wIfSignaled wait.status) then .error .assertion
  else if wIfStopped wait.status ∧ wStopSig wait.status ≠ SIGSTOP then
    if wait.ptraceFails then .error (.exit (continueRequest wait.status)) else .ok st
  else if st.done then
    if wait.ptraceFails then .error (.exit "ptrace(PTRACE_DETACH")
    else do
      let st ← st.remove wait.pid
      return if wait.pid = st.firstFinishedThread then st.stopOthers else st
  else if wIfSignaled wait.status then st.remove wait.pid
  else .error (.exit ("unexpected state: pid = " ++ toString wait.pid ++ "status = " ++
    toString wait.status))

end Datamime.Profiler
