/-
# The clock of the integrated server

Between its locked sections, a worker thread reads the clock: once after its request was drawn, on
every turn of the loop in which it sleeps until the request arrives, when it is handed the request,
when it responds, and when the latencies of the request are recorded. Other threads may run between
any two of these. If the clock never goes back, a request is handed out at its arrival time or
later, and then none of the assertions about the times can fail.
-/

import Datamime.Harness.Latencies

namespace Datamime.Harness

open Datamime.Math

variable {n : ℕ}

/-! ## The readings of the clock -/

/-- Where a thread stands while its phase is that of serving a request. -/
inductive Stage
  /-- It has no request, or the request has left `finiReq`. -/
  | outside
  /-- `startReq` has left the lock with a request. -/
  | drawn (genNs : ℕ)
  | sleeping (targetNs : ℕ)
  /-- `startReq` has returned. -/
  | returned
  /-- `recvReq` has filled the slot of the thread and returned. -/
  | received
  /-- `sendResp` has read the clock. -/
  | responding (respNs : ℕ)
  deriving DecidableEq

structure TimedConfig where
  server : ServerConfig
  minSleepNs : ℕ

/-- The server with the stages of its threads. The time in the slot of a thread is set when the
thread receives its request. -/
structure TimedState (n : ℕ) where
  server : ServerState n
  stages : Fin n → Stage

def TimedState.initial (n : ℕ) : TimedState n := ⟨.initial n, fun _ => .outside⟩

/-- A locked section, or a reading of the clock. -/
inductive TimedEvent (n : ℕ)
  /-- The next locked section of `startReq`, with the arrival time that it draws. -/
  | startReq (thread : Fin n) (genNs : ℕ)
  /-- The reading of `startReq` behind its lock. -/
  | arrive (thread : Fin n) (curNs : ℕ)
  /-- A reading of `sleepUntil`. -/
  | wake (thread : Fin n) (curNs : ℕ)
  /-- The reading of `recvReq`. -/
  | recvReq (thread : Fin n) (curNs : ℕ)
  /-- The reading of `sendResp`. -/
  | sendResp (thread : Fin n) (curNs : ℕ)
  /-- `finiReq` with its reading. -/
  | finiReq (thread : Fin n) (curNs : ℕ)
  /-- The rest of `sendResp`. -/
  | count (thread : Fin n)
  deriving DecidableEq

/-- What an event reads from the clock. -/
def TimedEvent.reading : TimedEvent n → Option ℕ
  | .startReq _ _ => none
  | .arrive _ curNs => some curNs
  | .wake _ curNs => some curNs
  | .recvReq _ curNs => some curNs
  | .sendResp _ curNs => some curNs
  | .finiReq _ curNs => some curNs
  | .count _ => none

namespace TimedState

def setStage (st : TimedState n) (thread : Fin n) (stage : Stage) : TimedState n :=
  { st with stages := Function.update st.stages thread stage }

/-- The stage behind a locked section of `startReq`. -/
def stageAfter (genNs : ℕ) : Phase → Stage
  | .serving _ => .drawn genNs
  | _ => .outside

/-- A locked section of `startReq`. -/
def startReq (st : TimedState n) (thread : Fin n) (genNs : ℕ) : Except Halt (TimedState n) := do
  let server ← recvReqSection st.server thread genNs 0
  return { st.setStage thread (stageAfter genNs (server.threads thread)) with server }

/-- The end of `startReq`: sleep if the request has not arrived. The sum of the times wraps. -/
def arrive (config : TimedConfig) (st : TimedState n) (thread : Fin n) (genNs curNs : ℕ) :
    TimedState n :=
  if curNs < genNs then
    st.setStage thread (.sleeping (max genNs ((curNs + config.minSleepNs) % 2 ^ 64)))
  else st.setStage thread .returned

/-- One turn of the loop in `sleepUntil`. -/
def wake (st : TimedState n) (thread : Fin n) (targetNs curNs : ℕ) : TimedState n :=
  if curNs < targetNs then st else st.setStage thread .returned

/-- The end of `recvReq`. -/
def recvReq (st : TimedState n) (thread : Fin n) (id curNs : ℕ) : TimedState n :=
  { st.setStage thread .received with server := st.server.moveTo thread (.serving ⟨id, curNs⟩) }

/-- The first part of `sendResp`. -/
def sendResp (st : TimedState n) (thread : Fin n) (info : ReqInfo) (curNs : ℕ) :
    Except Halt (TimedState n) := do
  require (info.startNs < curNs)
  return st.setStage thread (.responding curNs)

end TimedState

/-- One step of the server with its clock. -/
def timedStep (config : TimedConfig) (st : TimedState n) (event : TimedEvent n) :
    Except Halt (TimedState n) :=
  if st.server.dumped.isSome then .error .exited
  else
    match event with
    | .startReq thread genNs =>
        if st.stages thread = .outside then st.startReq thread genNs else .error .notReady
    | .arrive thread curNs =>
        match st.stages thread with
        | .drawn genNs => .ok (st.arrive config thread genNs curNs)
        | _ => .error .notReady
    | .wake thread curNs =>
        match st.stages thread with
        | .sleeping targetNs => .ok (st.wake thread targetNs curNs)
        | _ => .error .notReady
    | .recvReq thread curNs =>
        match st.stages thread, st.server.threads thread with
        | .returned, .serving info => .ok (st.recvReq thread info.id curNs)
        | _, _ => .error .notReady
    | .sendResp thread curNs =>
        match st.stages thread, st.server.threads thread with
        | .received, .serving info => st.sendResp thread info curNs
        | _, _ => .error .notReady
    | .finiReq thread curNs =>
        match st.stages thread with
        | .responding respNs => do
            let server ← finiReqSection st.server thread respNs curNs
            return { st.setStage thread .outside with server }
        | _ => .error .notReady
    | .count thread => do
        let server ← countSection config.server st.server thread
        return { st with server }

/-! ## What has to hold -/

/-- The second reading is later if a thread responds to a request that it has received. -/
def TimedEvent.advances : TimedEvent n → TimedEvent n → Bool
  | .recvReq thread a, .sendResp other b => thread ≠ other || a < b
  | _, _ => true

/-- The clock does not go back between two events, and it advances between the receipt of a request
and the response of the same thread. -/
def TimedEvent.Before (first second : TimedEvent n) : Prop :=
  (∀ a ∈ first.reading, ∀ b ∈ second.reading, a ≤ b) ∧ first.advances second = true

instance (first second : TimedEvent n) : Decidable (first.Before second) :=
  inferInstanceAs (Decidable (_ ∧ _))

/-- A record whose times add up. -/
def Latency.AddsUp (latency : Latency) : Prop := latency.sjrnNs = latency.queueNs + latency.svcNs

/-- Every request that a thread has received had arrived, and all recorded times add up. -/
structure TimedState.InTime (st : TimedState n) : Prop where
  arrived : ∀ thread info, st.server.threads thread = .serving info →
    (st.stages thread = .received ∨ ∃ respNs, st.stages thread = .responding respNs) →
    ∃ genNs, st.server.inFlightReqs.get? info.id = some genNs ∧ genNs ≤ info.startNs
  recorded : ∀ latency ∈ st.server.latencies, latency.AddsUp
  dumped : ∀ latencies, st.server.dumped = some latencies → ∀ latency ∈ latencies, latency.AddsUp

/-- The times from which `finiReq` computes the latencies of a request are in order, so that no
difference of them is negative. -/
def TimesInOrder (st : TimedState n) (event : TimedEvent n) : Prop :=
  ∀ thread curNs respNs info genNs, event = .finiReq thread curNs →
    st.stages thread = .responding respNs → st.server.threads thread = .serving info →
    st.server.inFlightReqs.get? info.id = some genNs →
    genNs ≤ info.startNs ∧ info.startNs < respNs ∧ respNs ≤ curNs

/-! ## What the events keep -/

section

variable {config : TimedConfig} {early : List (TimedEvent n)} {event : TimedEvent n}
  {st : TimedState n} {thread : Fin n}

/-- What is known about the arrival of a request, from the readings of the earlier events. -/
def Known (early : List (TimedEvent n)) (thread : Fin n) (stage : Stage) (info : ReqInfo)
    (genNs : ℕ) : Prop :=
  match stage with
  | .outside => False
  | .drawn drawnNs => genNs = drawnNs
  | .sleeping targetNs => genNs ≤ targetNs
  | .returned => ∃ earlier ∈ early, ∃ now ∈ earlier.reading, genNs ≤ now
  | .received => genNs ≤ info.startNs ∧ .recvReq thread info.startNs ∈ early
  | .responding respNs =>
      genNs ≤ info.startNs ∧ info.startNs < respNs ∧ .sendResp thread respNs ∈ early

/-- What is known stays known. -/
theorem Known.later {stage : Stage} {info : ReqInfo} {genNs : ℕ}
    (known : Known early thread stage info genNs) (event : TimedEvent n) :
    Known (early ++ [event]) thread stage info genNs := by
  cases stage with
  | outside => exact known
  | drawn drawnNs => exact known
  | sleeping targetNs => exact known
  | returned =>
      rcases known with ⟨earlier, isEarlier, reached⟩
      exact ⟨earlier, List.mem_append_left _ isEarlier, reached⟩
  | received => exact known.imp_right (List.mem_append_left _)
  | responding respNs => exact ⟨known.1, known.2.1, List.mem_append_left _ known.2.2⟩

/-- What holds after some events. -/
structure TimedState.Timed (config : TimedConfig) (early : List (TimedEvent n))
    (st : TimedState n) : Prop where
  accounted : st.server.Accounted config.server
  /-- A request that is served is in flight, and something is known about its arrival. -/
  serving : ∀ thread info, st.server.threads thread = .serving info →
    info.id < st.server.startedReqs ∧
      ∃ genNs, st.server.inFlightReqs.get? info.id = some genNs ∧
        Known early thread (st.stages thread) info genNs
  between : ∀ thread, st.stages thread ≠ .outside → ∃ info, st.server.threads thread = .serving info
  distinct : ∀ thread other info otherInfo, st.server.threads thread = .serving info →
    st.server.threads other = .serving otherInfo → info.id = otherInfo.id → thread = other
  starting : st.server.status = .INIT →
    ∀ thread, st.server.threads thread = .idle ∨ st.server.threads thread = .waiting
  drawn : st.server.hasDist = true → st.server.status ≠ .INIT
  unfinished : st.server.status ≠ .FINISHED
  recorded : ∀ latency ∈ st.server.latencies, latency.AddsUp

theorem timed_initial (config : TimedConfig) (n : ℕ) : (TimedState.initial n).Timed config [] where
  accounted := accounted_initial config.server n
  serving := fun _ _ absurdity => nomatch absurdity
  between := fun _ notOutside => absurd rfl notOutside
  distinct := fun _ _ _ _ absurdity => nomatch absurdity
  starting := fun _ _ => .inl rfl
  drawn := fun absurdity => nomatch absurdity
  unfinished := fun absurdity => nomatch absurdity
  recorded := fun _ absurdity => nomatch absurdity

theorem TimedState.Timed.inTime (timed : st.Timed config early) : st.InTime where
  arrived := fun thread info isServing isReceived => by
    rcases timed.serving thread info isServing with ⟨-, genNs, isInFlight, known⟩
    refine ⟨genNs, isInFlight, ?_⟩
    rcases isReceived with isReceived | ⟨respNs, isResponding⟩
    · rw [isReceived] at known
      exact known.1
    · rw [isResponding] at known
      exact known.1
  recorded := timed.recorded
  dumped := fun latencies isDumped => by
    rcases timed.accounted.dump latencies isDumped with ⟨rfl, -⟩
    exact timed.recorded

/-- A thread that serves a request goes to another stage. -/
theorem TimedState.Timed.setStage (timed : st.Timed config early) {stage : Stage} {info : ReqInfo}
    (isServing : st.server.threads thread = .serving info)
    (known : ∀ genNs, Known early thread (st.stages thread) info genNs →
      Known (early ++ [event]) thread stage info genNs) :
    (st.setStage thread stage).Timed config (early ++ [event]) where
  accounted := timed.accounted
  serving := fun other otherInfo isOther => by
    rcases timed.serving other otherInfo isOther with ⟨isStarted, genNs, isInFlight, knownOther⟩
    refine ⟨isStarted, genNs, isInFlight, ?_⟩
    by_cases same : other = thread
    · subst same
      cases isServing.symm.trans isOther
      simpa [TimedState.setStage] using known genNs knownOther
    · simpa [TimedState.setStage, same] using knownOther.later event
  between := fun other notOutside => by
    by_cases same : other = thread
    · subst same
      exact ⟨info, isServing⟩
    · exact timed.between other (by simpa [TimedState.setStage, same] using notOutside)
  distinct := timed.distinct
  starting := timed.starting
  drawn := timed.drawn
  unfinished := timed.unfinished
  recorded := timed.recorded

/-- A section of the server that changes the phase of one thread. The other requests stay in
flight. -/
theorem TimedState.Timed.section (timed : st.Timed config early) {server : ServerState n}
    {phase : Phase} {stage : Stage}
    (moved : server.threads = Function.update st.server.threads thread phase)
    (accounted : server.Accounted config.server)
    (own : ∀ info, phase = .serving info → info.id < server.startedReqs ∧
      (∃ genNs, server.inFlightReqs.get? info.id = some genNs ∧
        Known (early ++ [event]) thread stage info genNs) ∧
      ∀ other otherInfo, other ≠ thread → st.server.threads other = .serving otherInfo →
        otherInfo.id ≠ info.id)
    (outside : stage ≠ .outside → ∃ info, phase = .serving info)
    (started : st.server.startedReqs ≤ server.startedReqs)
    (others : ∀ other otherInfo, other ≠ thread → st.server.threads other = .serving otherInfo →
      server.inFlightReqs.get? otherInfo.id = st.server.inFlightReqs.get? otherInfo.id)
    (starting : server.status = .INIT →
      st.server.status = .INIT ∧ (phase = .idle ∨ phase = .waiting))
    (drawn : server.hasDist = true → server.status ≠ .INIT)
    (unfinished : server.status ≠ .FINISHED)
    (recorded : ∀ latency ∈ server.latencies, latency.AddsUp) :
    TimedState.Timed config (early ++ [event]) { st.setStage thread stage with server } where
  accounted := accounted
  serving := fun other info isServing => by
    by_cases same : other = thread
    · subst same
      have isPhase : phase = .serving info := by simpa [moved] using isServing
      rcases own info isPhase with ⟨isStarted, known, -⟩
      simpa [TimedState.setStage] using ⟨isStarted, known⟩
    · have wasServing : st.server.threads other = .serving info := by
        simpa [moved, same] using isServing
      rcases timed.serving other info wasServing with ⟨wasStarted, genNs, isInFlight, known⟩
      refine ⟨wasStarted.trans_le started, genNs, ?_, ?_⟩
      · rw [others other info same wasServing]
        exact isInFlight
      · simpa [TimedState.setStage, same] using known.later event
  between := fun other notOutside => by
    by_cases same : other = thread
    · subst same
      simpa [moved] using outside (by simpa [TimedState.setStage] using notOutside)
    · simpa [moved, same] using
        timed.between other (by simpa [TimedState.setStage, same] using notOutside)
  distinct := fun first second info otherInfo isFirst isSecond sameId => by
    by_cases isThread : first = thread
    · by_cases isOther : second = thread
      · exact isThread.trans isOther.symm
      · subst isThread
        have isPhase : phase = .serving info := by simpa [moved] using isFirst
        have wasSecond : st.server.threads second = .serving otherInfo := by
          simpa [moved, isOther] using isSecond
        exact absurd sameId.symm ((own info isPhase).2.2 second otherInfo isOther wasSecond)
    · have wasFirst : st.server.threads first = .serving info := by
        simpa [moved, isThread] using isFirst
      by_cases isOther : second = thread
      · subst isOther
        have isPhase : phase = .serving otherInfo := by simpa [moved] using isSecond
        exact absurd sameId ((own otherInfo isPhase).2.2 first info isThread wasFirst)
      · exact timed.distinct first second info otherInfo wasFirst
          (by simpa [moved, isOther] using isSecond) sameId
  starting := fun isInit other => by
    rcases starting isInit with ⟨wasInit, isBefore⟩
    by_cases same : other = thread
    · subst same
      simpa [moved] using isBefore
    · simpa [moved, same] using timed.starting wasInit other
  drawn := drawn
  unfinished := unfinished
  recorded := recorded

/-- A section of the server behind which the thread serves no request. No request leaves the ones
in flight. -/
theorem TimedState.Timed.leave (timed : st.Timed config early) {server : ServerState n}
    {phase : Phase} {stage : Stage}
    (moved : server.threads = Function.update st.server.threads thread phase)
    (accounted : server.Accounted config.server)
    (notServing : ∀ info, phase ≠ .serving info) (isOutside : stage = .outside)
    (sameStarted : server.startedReqs = st.server.startedReqs)
    (sameReqs : server.inFlightReqs = st.server.inFlightReqs)
    (starting : server.status = .INIT →
      st.server.status = .INIT ∧ (phase = .idle ∨ phase = .waiting))
    (drawn : server.hasDist = true → server.status ≠ .INIT)
    (unfinished : server.status ≠ .FINISHED)
    (recorded : ∀ latency ∈ server.latencies, latency.AddsUp) :
    TimedState.Timed config (early ++ [event]) { st.setStage thread stage with server } := by
  apply timed.section moved accounted
  · exact fun info isServing => absurd isServing (notServing info)
  · exact fun notOutside => absurd isOutside notOutside
  · exact sameStarted.ge
  · intro other otherInfo _ _
    rw [sameReqs]
  · exact starting
  · exact drawn
  · exact unfinished
  · exact recorded

/-- Nothing has changed but the time. -/
theorem TimedState.Timed.later (timed : st.Timed config early) (event : TimedEvent n) :
    st.Timed config (early ++ [event]) where
  accounted := timed.accounted
  serving := fun other info isServing => by
    rcases timed.serving other info isServing with ⟨isStarted, genNs, isInFlight, known⟩
    exact ⟨isStarted, genNs, isInFlight, known.later event⟩
  between := timed.between
  distinct := timed.distinct
  starting := timed.starting
  drawn := timed.drawn
  unfinished := timed.unfinished
  recorded := timed.recorded

/-- While a thread serves, the first requests have long been drawn. -/
theorem TimedState.Timed.not_init (timed : st.Timed config early) {phase : Phase}
    (isPhase : st.server.threads thread = phase) (notIdle : phase ≠ .idle)
    (notWaiting : phase ≠ .waiting) : st.server.status ≠ .INIT := by
  intro isInit
  rcases timed.starting isInit thread with isIdle | isWaiting
  · exact notIdle (isPhase.symm.trans isIdle)
  · exact notWaiting (isPhase.symm.trans isWaiting)

/-- No assertion fails, and what holds goes on holding. -/
def Fine (config : TimedConfig) (early : List (TimedEvent n)) :
    Except Halt (TimedState n) → Prop
  | .ok next => next.Timed config early
  | .error halt => halt ≠ .fault .assertion

theorem recvReqSection_error {server : ServerState n} {genNs startNs : ℕ} {halt : Halt}
    (stopped : recvReqSection server thread genNs startNs = .error halt) : halt = .notReady := by
  rw [recvReqSection] at stopped
  cases isPhase : server.threads thread with
  | idle =>
      simp only [isPhase] at stopped
      split at stopped
      · cases stopped
      · cases stopped
  | waiting =>
      simp only [isPhase] at stopped
      split at stopped
      · cases stopped
      · cases stopped
        rfl
  | opened =>
      simp only [isPhase] at stopped
      split at stopped
      · cases stopped
      · cases stopped
        rfl
  | serving info =>
      simp only [isPhase] at stopped
      cases stopped
      rfl
  | responded id =>
      simp only [isPhase] at stopped
      cases stopped
      rfl

theorem fine_startReq (timed : st.Timed config early) (genNs : ℕ) :
    Fine config (early ++ [event]) (st.startReq thread genNs) := by
  rw [TimedState.startReq]
  cases entered : recvReqSection st.server thread genNs 0 with
  | error halt =>
      rw [recvReqSection_error entered]
      exact fun absurdity => nomatch absurdity
  | ok server =>
      have accounted := accounted_recvReq timed.accounted entered
      rw [ok_bind]
      show TimedState.Timed config _ _
      rcases recvReq_cases entered with ⟨isIdle, isInit, rfl⟩ | ⟨isWaiting, allThere, rfl⟩ |
        ⟨isBefore, rfl⟩
      · have isOutside : TimedState.stageAfter genNs
            ((st.server.moveTo thread .waiting).threads thread) = .outside := by
          simp [ServerState.moveTo, TimedState.stageAfter]
        apply timed.leave rfl accounted (by simp) isOutside rfl rfl
        · exact fun _ => ⟨isInit, .inr rfl⟩
        · exact timed.drawn
        · exact timed.unfinished
        · exact timed.recorded
      · rw [openClient_eq] at accounted ⊢
        have started : (if st.server.hasDist then st.server.status else .WARMUP) ≠
            ClientStatus.INIT := by
          split
          · rename_i isDrawn
            exact timed.drawn isDrawn
          · rintro ⟨⟩
        have isOutside : TimedState.stageAfter genNs
            ((st.server.moveTo thread .opened).threads thread) = .outside := by
          simp [ServerState.moveTo, TimedState.stageAfter]
        apply timed.leave rfl accounted (by simp) isOutside rfl rfl
        · exact fun isInit => absurd isInit started
        · exact fun _ => started
        · show (if st.server.hasDist then st.server.status else .WARMUP) ≠ ClientStatus.FINISHED
          split
          · exact timed.unfinished
          · rintro ⟨⟩
        · exact timed.recorded
      · have notInit : st.server.status ≠ .INIT := by
          rcases isBefore with ⟨-, notInit⟩ | isOpened
          · exact notInit
          · exact timed.not_init isOpened (by simp) (by simp)
        have isNew (other : Fin n) (otherInfo : ReqInfo)
            (isServing : st.server.threads other = .serving otherInfo) :
            otherInfo.id ≠ st.server.startedReqs :=
          Nat.ne_of_lt (timed.serving other otherInfo isServing).1
        apply timed.section rfl accounted
        · intro info isPhase
          cases isPhase
          refine ⟨Nat.lt_succ_self _, ⟨genNs, Dict.get?_insert_self _ _ _, ?_⟩, ?_⟩
          · simp [drawRequest, ServerState.moveTo, TimedState.stageAfter, Known]
          · exact fun other otherInfo _ isServing => isNew other otherInfo isServing
        · exact fun _ => ⟨_, rfl⟩
        · exact Nat.le_succ _
        · exact fun other otherInfo _ isServing =>
            Dict.get?_insert_of_ne _ (isNew other otherInfo isServing) _
        · exact fun isInit => absurd isInit notInit
        · exact timed.drawn
        · exact timed.unfinished
        · exact timed.recorded

theorem timed_arrive (timed : st.Timed config early) {drawnNs curNs : ℕ}
    (isDrawn : st.stages thread = .drawn drawnNs) :
    (st.arrive config thread drawnNs curNs).Timed config (early ++ [.arrive thread curNs]) := by
  rcases timed.between thread (by simp [isDrawn]) with ⟨info, isServing⟩
  rw [TimedState.arrive]
  split
  · apply timed.setStage isServing
    intro genNs known
    simp only [isDrawn, Known] at known ⊢
    exact known.le.trans (le_max_left _ _)
  · rename_i hasArrived
    apply timed.setStage isServing
    intro genNs known
    simp only [isDrawn, Known] at known ⊢
    refine ⟨.arrive thread curNs, by simp, curNs, rfl, ?_⟩
    exact known.le.trans (not_lt.mp hasArrived)

/-- The loop ends at the time that was slept for, which is the arrival or later. -/
theorem timed_wake (timed : st.Timed config early) {targetNs curNs : ℕ}
    (isSleeping : st.stages thread = .sleeping targetNs) :
    (st.wake thread targetNs curNs).Timed config (early ++ [.wake thread curNs]) := by
  rcases timed.between thread (by simp [isSleeping]) with ⟨info, isServing⟩
  rw [TimedState.wake]
  split
  · exact timed.later _
  · rename_i isOver
    apply timed.setStage isServing
    intro genNs known
    simp only [isSleeping, Known] at known ⊢
    refine ⟨.wake thread curNs, by simp, curNs, rfl, ?_⟩
    exact known.trans (not_lt.mp isOver)

theorem timed_recvReq (timed : st.Timed config early) {info : ReqInfo} {curNs : ℕ}
    (isReturned : st.stages thread = .returned)
    (isServing : st.server.threads thread = .serving info)
    (before : ∀ earlier ∈ early, earlier.Before (.recvReq thread curNs)) :
    (st.recvReq thread info.id curNs).Timed config (early ++ [.recvReq thread curNs]) := by
  rcases timed.serving thread info isServing with ⟨isStarted, genNs, isInFlight, known⟩
  rw [isReturned] at known
  rcases known with ⟨earlier, isEarlier, now, isReading, hasArrived⟩
  have forward : now ≤ curNs := (before earlier isEarlier).1 now isReading curNs rfl
  have accounted : (st.server.moveTo thread (.serving ⟨info.id, curNs⟩)).Accounted config.server :=
    timed.accounted.move timed.accounted.undrawn rfl rfl rfl Iff.rfl rfl rfl
      (ServerState.pending_moveTo_of_none (by rw [isServing]; rfl) rfl)
  apply timed.section rfl accounted
  · intro other isPhase
    cases isPhase
    refine ⟨isStarted, ⟨genNs, isInFlight, ?_⟩, ?_⟩
    · exact ⟨hasArrived.trans forward, by simp⟩
    · intro other otherInfo different isOther same
      exact different (timed.distinct other thread otherInfo info isOther isServing same)
  · exact fun _ => ⟨_, rfl⟩
  · exact le_refl _
  · exact fun _ _ _ _ => rfl
  · exact fun isInit => absurd isInit (timed.not_init isServing (by simp) (by simp))
  · exact timed.drawn
  · exact timed.unfinished
  · exact timed.recorded

theorem fine_sendResp (timed : st.Timed config early) {info : ReqInfo} {curNs : ℕ}
    (isReceived : st.stages thread = .received)
    (isServing : st.server.threads thread = .serving info)
    (before : ∀ earlier ∈ early, earlier.Before (.sendResp thread curNs)) :
    Fine config (early ++ [.sendResp thread curNs]) (st.sendResp thread info curNs) := by
  rcases timed.serving thread info isServing with ⟨-, genNs, -, known⟩
  rw [isReceived] at known
  have advances : info.startNs < curNs := by
    simpa [TimedEvent.advances] using (before _ known.2).2
  simp only [TimedState.sendResp, require, advances, decide_true, if_true, ok_bind]
  apply timed.setStage isServing
  intro arrivedNs knownBefore
  rw [isReceived] at knownBefore
  exact ⟨knownBefore.1, advances, by simp⟩

/-- With its times in order, a request leaves `finiReq` with a record that adds up. -/
theorem finiReqSection_ok {server : ServerState n} {info : ReqInfo} {genNs respNs curNs : ℕ}
    (isServing : server.threads thread = .serving info)
    (isInFlight : server.inFlightReqs.get? info.id = some genNs) (arrived : genNs ≤ info.startNs)
    (advances : info.startNs < respNs) (forward : respNs ≤ curNs)
    (recorded : ∀ latency ∈ server.latencies, latency.AddsUp) :
    ∃ latencies, (∀ latency ∈ latencies, latency.AddsUp) ∧
      finiReqSection server thread respNs curNs =
        .ok { server.moveTo thread (.responded info.id) with
          latencies
          inFlightReqs := server.inFlightReqs.erase info.id
          numReqsInFlight := server.numReqsInFlight - 1 } := by
  have isLater : genNs < curNs := by omega
  have isWithin : respNs - info.startNs ≤ curNs - genNs := by omega
  by_cases isRoi : server.status = .ROI
  · refine ⟨server.latencies ++ [⟨info.id, curNs - genNs - (respNs - info.startNs),
      respNs - info.startNs, curNs - genNs⟩], ?_, ?_⟩
    · intro latency isRecorded
      rcases List.mem_append.mp isRecorded with isOld | isNew
      · exact recorded latency isOld
      · rw [List.mem_singleton.mp isNew]
        exact (Nat.sub_add_cancel isWithin).symm
    · simp only [finiReqSection, isServing, isInFlight, require, advances, recordLatency, isRoi,
        latencyOf, isLater, isWithin, decide_true, if_true, ok_bind]
      rfl
  · refine ⟨server.latencies, recorded, ?_⟩
    simp only [finiReqSection, isServing, isInFlight, require, advances, recordLatency, isRoi,
      decide_true, if_true, if_false, ok_bind]
    rfl

theorem fine_finiReq (timed : st.Timed config early) (running : st.server.dumped = none)
    {respNs curNs : ℕ} (isResponding : st.stages thread = .responding respNs)
    (before : ∀ earlier ∈ early, earlier.Before (.finiReq thread curNs)) :
    Fine config (early ++ [.finiReq thread curNs]) (do
      let server ← finiReqSection st.server thread respNs curNs
      return { st.setStage thread .outside with server }) := by
  rcases timed.between thread (by simp [isResponding]) with ⟨info, isServing⟩
  rcases timed.serving thread info isServing with ⟨isStarted, genNs, isInFlight, known⟩
  rw [isResponding] at known
  rcases known with ⟨arrived, advances, isEarlier⟩
  have forward : respNs ≤ curNs := (before _ isEarlier).1 respNs rfl curNs rfl
  rcases finiReqSection_ok isServing isInFlight arrived advances forward timed.recorded with
    ⟨latencies, recorded, isOk⟩
  have accounted := accounted_finiReq timed.accounted running isOk
  rw [isOk]
  apply timed.section rfl accounted
  · exact fun _ absurdity => nomatch absurdity
  · exact fun notOutside => absurd rfl notOutside
  · exact le_refl _
  · intro other otherInfo different isOther
    rw [Dict.get?_erase, if_neg]
    intro same
    exact different (timed.distinct other thread otherInfo info isOther isServing same)
  · exact fun isInit => absurd isInit (timed.not_init isServing (by simp) (by simp))
  · exact timed.drawn
  · exact timed.unfinished
  · exact recorded

/-- The region of interest begins once, and in the warm-up. -/
theorem TimedState.Timed.isWarmup (timed : st.Timed config early)
    (isResponded : ∃ id, st.server.threads thread = .responded id)
    (begins : st.server.finishedReqs + 1 = config.server.warmupReqs) :
    st.server.status = .WARMUP := by
  rcases isResponded with ⟨id, isResponded⟩
  cases isStatus : st.server.status with
  | INIT =>
      exact absurd isStatus (timed.not_init isResponded (by simp) (by simp))
  | WARMUP => rfl
  | ROI =>
      rcases timed.accounted.during isStatus with ⟨-, isWarm, -⟩
      omega
  | FINISHED => exact absurd isStatus timed.unfinished

theorem fine_count (timed : st.Timed config early) (running : st.server.dumped = none) :
    Fine config (early ++ [event]) (do
      let server ← countSection config.server st.server thread
      return { st with server }) := by
  cases counted : countSection config.server st.server thread with
  | error halt =>
      show halt ≠ .fault .assertion
      rintro rfl
      rw [countSection] at counted
      cases isPhase : st.server.threads thread with
      | responded id =>
          simp only [isPhase] at counted
          split at counted
          · rename_i begins
            have isWarmup := timed.isWarmup ⟨id, isPhase⟩ begins
            simp [startRoi, ServerState.moveTo, isWarmup] at counted
          · split at counted
            · cases counted
            · cases counted
      | _ => simp [isPhase] at counted
  | ok server =>
      have accounted := accounted_count timed.accounted running counted
      rcases count_cases counted with ⟨id, isResponded, left⟩
      have notInit := timed.not_init isResponded (by simp) (by simp)
      have isOutside : st.stages thread = .outside := by
        by_contra notOutside
        rcases timed.between thread notOutside with ⟨info, isServing⟩
        cases isResponded.symm.trans isServing
      have sameStages : st.setStage thread .outside = st := by
        simp [TimedState.setStage, ← isOutside]
      rw [ok_bind, ← sameStages]
      rcases left with ⟨-, -, rfl⟩ | ⟨-, -, rfl⟩ | ⟨-, rfl⟩
      · apply timed.leave rfl accounted (by simp) rfl rfl rfl
        · rintro ⟨⟩
        · rintro _ ⟨⟩
        · rintro ⟨⟩
        · rintro _ ⟨⟩
      · apply timed.leave rfl accounted (by simp) rfl rfl rfl
        · exact fun isInit => absurd isInit notInit
        · exact timed.drawn
        · exact timed.unfinished
        · exact timed.recorded
      · apply timed.leave rfl accounted (by simp) rfl rfl rfl
        · exact fun isInit => absurd isInit notInit
        · exact timed.drawn
        · exact timed.unfinished
        · exact timed.recorded

theorem timesInOrder (timed : st.Timed config early)
    (before : ∀ earlier ∈ early, earlier.Before event) : TimesInOrder st event := by
  rintro thread curNs respNs info genNs rfl isResponding isServing isInFlight
  rcases timed.serving thread info isServing with ⟨-, arrivedNs, isArrival, known⟩
  cases isArrival.symm.trans isInFlight
  rw [isResponding] at known
  rcases known with ⟨arrived, advances, isEarlier⟩
  exact ⟨arrived, advances, (before _ isEarlier).1 respNs rfl curNs rfl⟩

/-- Every event is fine whose reading is in order with the earlier ones. -/
theorem fine_timedStep (timed : st.Timed config early)
    (before : ∀ earlier ∈ early, earlier.Before event) :
    Fine config (early ++ [event]) (timedStep config st event) := by
  have notReady : Fine (n := n) config (early ++ [event]) (.error .notReady) :=
    fun absurdity => nomatch absurdity
  unfold timedStep
  split
  · exact fun absurdity => nomatch absurdity
  · rename_i isRunning
    have running : st.server.dumped = none := Option.not_isSome_iff_eq_none.mp isRunning
    cases event with
    | startReq thread genNs =>
        simp only
        split
        · exact fine_startReq timed genNs
        · exact notReady
    | arrive thread curNs =>
        simp only
        split
        · rename_i isDrawn
          exact timed_arrive timed isDrawn
        · exact notReady
    | wake thread curNs =>
        simp only
        split
        · rename_i isSleeping
          exact timed_wake timed isSleeping
        · exact notReady
    | recvReq thread curNs =>
        simp only
        split
        · rename_i isReturned isServing
          exact timed_recvReq timed isReturned isServing before
        · exact notReady
    | sendResp thread curNs =>
        simp only
        split
        · rename_i isReceived isServing
          exact fine_sendResp timed isReceived isServing before
        · exact notReady
    | finiReq thread curNs =>
        simp only
        split
        · rename_i isResponding
          exact fine_finiReq timed running isResponding before
        · exact notReady
    | count thread => exact fine_count timed running

end

/-! ## All runs -/

/-- In a run whose readings are in order, requests are received at their arrival or later, the
recorded times add up, no difference of times is negative and no assertion fails. -/
theorem inTime_along {config : TimedConfig} {events : List (TimedEvent n)}
    (ordered : events.Pairwise TimedEvent.Before) :
    (AlongRun (timedStep config) (.initial n) events fun _ st => st.InTime) ∧
      AtEachStep (timedStep config) (.initial n) events fun _ st event =>
        TimesInOrder st event ∧ timedStep config st event ≠ .error (.fault .assertion) := by
  have inOrder := @atEachStep_of_pairwise _ _ _ (timedStep config) (.initial n) events _ ordered
  have timed : AlongRun (timedStep config) (.initial n) events fun early st =>
      st.Timed config early := by
    apply alongRun_of_atEachStep (timed_initial config n) _ inOrder
    intro early st event next timed before stepped
    have fine := fine_timedStep timed before
    rwa [stepped] at fine
  constructor
  · exact fun early isPrefix st reached => (timed early isPrefix st reached).inTime
  · intro early event isPrefix st reached
    have shorter : early <+: events := (List.prefix_append early [event]).trans isPrefix
    have timedBefore := timed early shorter st reached
    have before := inOrder early event isPrefix st reached
    constructor
    · exact timesInOrder timedBefore before
    · intro failed
      have fine := fine_timedStep timedBefore before
      rw [failed] at fine
      exact fine rfl

/-- Two threads, with one request to warm up and two recorded ones. The first thread sleeps twice
before its first request arrives, and the second one serves its request across the beginning of the
region of interest. -/
def sleepsTwice : List (TimedEvent 2) :=
  let first : Fin 2 := ⟨0, Nat.two_pos⟩
  let second : Fin 2 := ⟨1, Nat.one_lt_two⟩
  [.startReq first 0, .startReq second 0, .startReq first 0, .startReq second 0,
    .startReq first 10, .arrive first 5, .startReq second 11, .wake first 8, .wake first 12,
    .recvReq first 12, .arrive second 13, .recvReq second 13, .sendResp first 15,
    .finiReq first 16, .count first, .startReq first 14, .arrive first 17, .recvReq first 17,
    .sendResp second 20, .finiReq second 21, .count second, .sendResp first 22,
    .finiReq first 24, .count first]

theorem exists_run_sleepsTwice :
    ∃ last, run (timedStep ⟨⟨2, 1⟩, 0⟩) (.initial 2) sleepsTwice = .ok last ∧
      last.server.dumped = some [⟨1, 3, 7, 10⟩, ⟨2, 5, 5, 10⟩] :=
  ⟨_, rfl, rfl⟩

theorem sleepsTwice_inTime :
    (∃ last, run (timedStep ⟨⟨2, 1⟩, 0⟩) (.initial 2) sleepsTwice = .ok last ∧
        last.server.dumped = some [⟨1, 3, 7, 10⟩, ⟨2, 5, 5, 10⟩]) ∧
      (AlongRun (timedStep ⟨⟨2, 1⟩, 0⟩) (.initial 2) sleepsTwice fun _ st => st.InTime) ∧
      AtEachStep (timedStep ⟨⟨2, 1⟩, 0⟩) (.initial 2) sleepsTwice fun _ st event =>
        TimesInOrder st event ∧
          timedStep ⟨⟨2, 1⟩, 0⟩ st event ≠ .error (.fault .assertion) :=
  ⟨exists_run_sleepsTwice, inTime_along (by decide)⟩

end Datamime.Harness
