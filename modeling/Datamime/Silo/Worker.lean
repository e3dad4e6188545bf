/-
# Workers that drop requests

A worker of the database benchmark takes a request, runs its transaction and answers. A transaction
that aborts is run again if the program was told to retry and is still running. Otherwise the worker
goes on without an answer. The harness keeps one slot for each worker, which the next request
overwrites, so it never hears of the old one again: it stays in flight forever, and is never
counted.

A step of the model is a decision of one worker or one locked section of the harness, so a run is an
interleaving of the workers.
-/

import Datamime.Harness.Latencies

namespace Datamime.Silo

open Datamime.Math Datamime.Harness

variable {n : ℕ}

/-! ## The workers -/

inductive RunMode
  | time
  | ops
  deriving DecidableEq

/-- The settings of the benchmark. -/
structure BenchConfig where
  server : ServerConfig
  retryAbortedTransaction : Bool
  backoffAbortedTransaction : Bool
  runMode : RunMode
  opsPerWorker : ℕ

/-- Where a worker stands in `bench_worker::run`. -/
inductive WorkerPhase
  /-- At the condition of the loop. -/
  | loop
  /-- In `tBenchRecvReq`. -/
  | receiving
  /-- Before the transaction. -/
  | executing
  /-- In `tBenchSendResp`. -/
  | sending
  | returned
  deriving DecidableEq

/-- A call that has taken or answered a request, with the id of the request. -/
inductive Call
  | received (id : ℕ)
  | sent (id : ℕ)
  deriving DecidableEq

/-- A `bench_worker`, with the calls that it has made. -/
structure Worker where
  phase : WorkerPhase
  ntxnCommits : ℕ
  ntxnAborts : ℕ
  backoffShifts : ℕ
  calls : List Call

def Worker.fresh : Worker := ⟨.loop, 0, 0, 0, []⟩

/-- The workers with the harness. -/
structure BenchState (n : ℕ) where
  server : ServerState n
  workers : Fin n → Worker
  running : Bool

def BenchState.initial (n : ℕ) : BenchState n := ⟨.initial n, fun _ => .fresh, true⟩

/-- Replace one worker. -/
def BenchState.setWorker (st : BenchState n) (thread : Fin n) (worker : Worker) : BenchState n :=
  { st with workers := Function.update st.workers thread worker }

/-- What happens in a run. -/
inductive Event (n : ℕ)
  /-- The time is over: `running = false`. -/
  | stop
  /-- A worker looks at the condition of its loop. -/
  | loop (thread : Fin n)
  /-- The next section of `tBenchRecvReq`. -/
  | recvReq (thread : Fin n) (genNs startNs : ℕ)
  /-- The transaction of a request commits or aborts. -/
  | txn (thread : Fin n) (committed : Bool)
  /-- `tBenchSendResp` up to the end of `finiReq`. -/
  | sendResp (thread : Fin n) (respNs curNs : ℕ)
  /-- The rest of `tBenchSendResp`. -/
  | count (thread : Fin n)

/-- The condition of the loop. -/
def goesOn (config : BenchConfig) (st : BenchState n) (worker : Worker) : Bool :=
  st.running && (config.runMode ≠ .ops || worker.ntxnCommits < config.opsPerWorker)

/-- The transaction committed. -/
def commit (st : BenchState n) (thread : Fin n) : BenchState n :=
  let worker := st.workers thread
  st.setWorker thread { worker with
    phase := .sending
    ntxnCommits := worker.ntxnCommits + 1
    backoffShifts := worker.backoffShifts / 2 }

/-- The transaction aborted and is run again. -/
def retry (config : BenchConfig) (st : BenchState n) (thread : Fin n) : BenchState n :=
  let worker := st.workers thread
  st.setWorker thread { worker with
    ntxnAborts := worker.ntxnAborts + 1
    backoffShifts :=
      if config.backoffAbortedTransaction && worker.backoffShifts < 63 then worker.backoffShifts + 1
      else worker.backoffShifts }

/-- The transaction aborted and the worker goes on. Nothing but its slot says which request it had,
and the slot is free for the next one. -/
def drop (st : BenchState n) (thread : Fin n) : BenchState n :=
  let worker := st.workers thread
  { st.setWorker thread { worker with phase := .loop, ntxnAborts := worker.ntxnAborts + 1 } with
    server := st.server.moveTo thread .idle }

/-- The worker has the request that is in its slot now, if it is through `recvReq`. -/
def Worker.afterRecvReq (worker : Worker) : Phase → Worker
  | .serving info =>
      { worker with phase := .executing, calls := worker.calls ++ [.received info.id] }
  | _ => worker

/-- The worker has answered the request that was in its slot. -/
def Worker.afterFiniReq (worker : Worker) : Phase → Worker
  | .responded id => { worker with calls := worker.calls ++ [.sent id] }
  | _ => worker

/-- One step of the benchmark. -/
def step (config : BenchConfig) (st : BenchState n) (event : Event n) :
    Except Halt (BenchState n) :=
  if st.server.dumped.isSome then .error .exited
  else
    match event with
    | .stop => if config.runMode = .time then .ok { st with running := false } else .error .notReady
    | .loop thread =>
        let worker := st.workers thread
        if worker.phase = .loop then
          .ok (st.setWorker thread { worker with
            phase := if goesOn config st worker then .receiving else .returned })
        else .error .notReady
    | .recvReq thread genNs startNs =>
        if (st.workers thread).phase = .receiving then do
          let server ← recvReqSection st.server thread genNs startNs
          let worker := (st.workers thread).afterRecvReq (server.threads thread)
          return { st.setWorker thread worker with server }
        else .error .notReady
    | .txn thread committed =>
        if (st.workers thread).phase = .executing then
          if committed then .ok (commit st thread)
          else if config.retryAbortedTransaction && st.running then .ok (retry config st thread)
          else .ok (drop st thread)
        else .error .notReady
    | .sendResp thread respNs curNs =>
        if (st.workers thread).phase = .sending then do
          let server ← finiReqSection st.server thread respNs curNs
          let worker := (st.workers thread).afterFiniReq (server.threads thread)
          return { st.setWorker thread worker with server }
        else .error .notReady
    | .count thread =>
        if (st.workers thread).phase = .sending then do
          let server ← countSection config.server st.server thread
          return { st.setWorker thread { st.workers thread with phase := .loop } with server }
        else .error .notReady

/-! ## What has to hold -/

/-- The calls for some requests, each of which is answered once before the next one. -/
def answered (ids : List ℕ) : List Call := ids.flatMap fun id => [.received id, .sent id]

/-- Every request that was taken has been answered once, before the next one. -/
def Closed (calls : List Call) : Prop := ∃ ids, calls = answered ids

/-- The last request has not been answered. -/
def Open (calls : List Call) (id : ℕ) : Prop := ∃ ids, calls = answered ids ++ [.received id]

/-- Each request is answered once before the next one is taken. -/
def Alternates (calls : List Call) : Prop := Closed calls ∨ ∃ id, Open calls id

/-- The request that a thread is serving or answering. -/
@[simp]
def heldId : Phase → Option ℕ
  | .idle => none
  | .waiting => none
  | .opened => none
  | .serving info => some info.id
  | .responded id => some id

/-- The request of a thread that is in flight. -/
@[simp]
def servingId : Phase → Option ℕ
  | .idle => none
  | .waiting => none
  | .opened => none
  | .serving info => some info.id
  | .responded _ => none

/-- The requests are answered one after the other, there are no more of them in flight than workers,
and each one that was started is counted or held by a worker. -/
structure BenchState.AnswersAll (st : BenchState n) : Prop where
  alternates : ∀ thread, Alternates (st.workers thread).calls
  inFlight : st.server.numReqsInFlight ≤ n
  accounted : ∀ id < st.server.startedReqs,
    id ∈ st.server.finished ∨ ∃ thread, heldId (st.server.threads thread) = some id

/-- If the event is an abort, the transaction is run again. -/
def AbortIsRetried (config : BenchConfig) (st : BenchState n) (event : Event n) : Prop :=
  ∀ thread, event = .txn thread false →
    config.retryAbortedTransaction = true ∧ st.running = true

/-! ## What the steps keep -/

section

variable {config : BenchConfig} {st next : BenchState n} {thread : Fin n} {calls : List Call}

theorem Closed.received (closed : Closed calls) (id : ℕ) : Open (calls ++ [.received id]) id := by
  rcases closed with ⟨ids, rfl⟩
  exact ⟨ids, rfl⟩

theorem Open.sent {id : ℕ} (isOpen : Open calls id) : Closed (calls ++ [.sent id]) := by
  rcases isOpen with ⟨ids, rfl⟩
  exact ⟨ids ++ [id], by simp [answered]⟩

/-- How the phase of a worker, its calls and its slot belong together. -/
def Stands (worker : Worker) (slot : Phase) : Prop :=
  match worker.phase with
  | .loop => slot = .idle ∧ Closed worker.calls
  | .receiving => heldId slot = none ∧ Closed worker.calls
  | .executing => ∃ info, slot = .serving info ∧ Open worker.calls info.id
  | .sending => (∃ info, slot = .serving info ∧ Open worker.calls info.id) ∨
      ∃ id, slot = .responded id ∧ Closed worker.calls
  | .returned => slot = .idle ∧ Closed worker.calls

/-- What holds as long as no request is dropped. -/
structure BenchState.Kept (st : BenchState n) : Prop where
  stands : ∀ thread, Stands (st.workers thread) (st.server.threads thread)
  total : st.server.finished.length + (Threads.collect heldId st.server.threads).length =
    st.server.startedReqs
  inFlight : st.server.numReqsInFlight = (Threads.collect servingId st.server.threads).length
  accounted : ∀ id < st.server.startedReqs,
    id ∈ st.server.finished ∨ ∃ thread, heldId (st.server.threads thread) = some id

theorem Stands.alternates {worker : Worker} {slot : Phase} (stands : Stands worker slot) :
    Alternates worker.calls := by
  rw [Stands] at stands
  split at stands
  · exact .inl stands.2
  · exact .inl stands.2
  · rcases stands with ⟨info, -, isOpen⟩
    exact .inr ⟨info.id, isOpen⟩
  · rcases stands with ⟨info, -, isOpen⟩ | ⟨id, -, closed⟩
    · exact .inr ⟨info.id, isOpen⟩
    · exact .inl closed
  · exact .inl stands.2

theorem BenchState.Kept.answersAll (kept : st.Kept) : st.AnswersAll where
  alternates := fun thread => (kept.stands thread).alternates
  inFlight := by
    rw [kept.inFlight]
    exact_mod_cast Threads.length_collect_le servingId st.server.threads
  accounted := kept.accounted

theorem kept_initial (n : ℕ) : (BenchState.initial n).Kept where
  stands := fun _ => ⟨rfl, [], rfl⟩
  total := by simp [BenchState.initial, ServerState.initial, Threads.collect]
  inFlight := by simp [BenchState.initial, ServerState.initial, Threads.collect]
  accounted := fun _ isStarted => absurd isStarted (Nat.not_lt_zero _)

/-- A worker goes on while its slot stays as it is. -/
theorem BenchState.Kept.setWorker (kept : st.Kept) {worker : Worker}
    (stands : Stands worker (st.server.threads thread)) : (st.setWorker thread worker).Kept where
  stands := fun other => by
    by_cases same : other = thread
    · subst same
      simpa [BenchState.setWorker] using stands
    · simpa [BenchState.setWorker, same] using kept.stands other
  total := kept.total
  inFlight := kept.inFlight
  accounted := kept.accounted

/-- A section of the harness that changes one slot. What it starts is in the slot afterwards, and
what was in the slot before is there still or has been counted. -/
theorem BenchState.Kept.section (kept : st.Kept) {server : ServerState n} {worker : Worker}
    {slot : Phase} (moved : server.threads = Function.update st.server.threads thread slot)
    (stands : Stands worker slot)
    (total : server.finished.length + (heldId slot).toList.length + st.server.startedReqs =
      st.server.finished.length + (heldId (st.server.threads thread)).toList.length +
        server.startedReqs)
    (inFlight : server.numReqsInFlight + (servingId (st.server.threads thread)).toList.length =
      st.server.numReqsInFlight + (servingId slot).toList.length)
    (stillFinished : ∀ id ∈ st.server.finished, id ∈ server.finished)
    (started : ∀ id < server.startedReqs, id < st.server.startedReqs ∨ heldId slot = some id)
    (held : ∀ id, heldId (st.server.threads thread) = some id →
      id ∈ server.finished ∨ heldId slot = some id) :
    BenchState.Kept { st.setWorker thread worker with server } where
  stands := fun other => by
    by_cases same : other = thread
    · subst same
      simpa [BenchState.setWorker, moved] using stands
    · simpa [BenchState.setWorker, moved, same] using kept.stands other
  total := by
    have changed := Threads.length_collect_update heldId st.server.threads thread slot
    have before := kept.total
    simp only [moved]
    omega
  inFlight := by
    have changed := Threads.length_collect_update servingId st.server.threads thread slot
    have before := kept.inFlight
    simp only [moved]
    omega
  accounted := fun id isStarted => by
    have inSlot (isHeld : heldId slot = some id) :
        ∃ other, heldId (server.threads other) = some id := by
      refine ⟨thread, ?_⟩
      rw [moved, Function.update_self]
      exact isHeld
    rcases started id isStarted with wasStarted | isHeld
    · rcases kept.accounted id wasStarted with isFinished | ⟨other, isHeld⟩
      · exact .inl (stillFinished id isFinished)
      · by_cases same : other = thread
        · subst same
          exact (held id isHeld).imp_right inSlot
        · refine .inr ⟨other, ?_⟩
          rw [moved, Function.update_of_ne same]
          exact isHeld
    · exact .inr (inSlot isHeld)

/-- A slot that holds no request serves none. -/
theorem servingId_eq_none {slot : Phase} (isFree : heldId slot = none) : servingId slot = none := by
  cases slot with
  | serving info => simp at isFree
  | _ => rfl

/-- A section between two requests, which starts none. -/
theorem BenchState.Kept.between (kept : st.Kept) {server : ServerState n} {worker : Worker}
    {slot : Phase} (moved : server.threads = Function.update st.server.threads thread slot)
    (stands : Stands worker slot) (wasFree : heldId (st.server.threads thread) = none)
    (isFree : heldId slot = none) (sameStarted : server.startedReqs = st.server.startedReqs)
    (sameFinished : server.finished = st.server.finished)
    (sameInFlight : server.numReqsInFlight = st.server.numReqsInFlight) :
    BenchState.Kept { st.setWorker thread worker with server } := by
  apply kept.section moved stands
  · rw [wasFree, isFree, sameStarted, sameFinished]
  · rw [servingId_eq_none wasFree, servingId_eq_none isFree, sameInFlight]
  · intro id isFinished
    rwa [sameFinished]
  · intro id isStarted
    rw [sameStarted] at isStarted
    exact .inl isStarted
  · intro id isHeld
    rw [wasFree] at isHeld
    cases isHeld

theorem kept_recvReq (kept : st.Kept) (isReceiving : (st.workers thread).phase = .receiving)
    {genNs startNs : ℕ} {server : ServerState n}
    (entered : recvReqSection st.server thread genNs startNs = .ok server) :
    BenchState.Kept { st.setWorker thread
      ((st.workers thread).afterRecvReq (server.threads thread)) with server } := by
  have stands := kept.stands thread
  rw [Stands, isReceiving] at stands
  rcases stands with ⟨wasFree, closed⟩
  rcases recvReq_cases entered with ⟨-, -, rfl⟩ | ⟨-, -, rfl⟩ | ⟨-, rfl⟩
  · apply kept.between rfl
    · simp only [ServerState.moveTo, Function.update_self, Worker.afterRecvReq, Stands,
        isReceiving]
      exact ⟨rfl, closed⟩
    · exact wasFree
    all_goals rfl
  · rw [openClient_eq]
    apply kept.between rfl
    · simp only [ServerState.moveTo, Function.update_self, Worker.afterRecvReq, Stands,
        isReceiving]
      exact ⟨rfl, closed⟩
    · exact wasFree
    all_goals rfl
  · apply kept.section rfl
    · simp only [drawRequest, ServerState.moveTo, Function.update_self, Worker.afterRecvReq, Stands]
      exact ⟨_, rfl, closed.received _⟩
    · rw [wasFree]
      simp only [heldId, drawRequest, ServerState.moveTo, Option.toList_some, Option.toList_none,
        List.length_singleton, List.length_nil]
      omega
    · rw [servingId_eq_none wasFree]
      simp [drawRequest]
    · exact fun _ isFinished => isFinished
    · intro id isStarted
      have isLast : id < st.server.startedReqs ∨ id = st.server.startedReqs :=
        Nat.lt_succ_iff_lt_or_eq.mp isStarted
      exact isLast.imp_right fun same => congrArg some same.symm
    · intro id isHeld
      rw [wasFree] at isHeld
      cases isHeld

theorem kept_finiReq (kept : st.Kept) (isSending : (st.workers thread).phase = .sending)
    {respNs curNs : ℕ} {server : ServerState n}
    (entered : finiReqSection st.server thread respNs curNs = .ok server) :
    BenchState.Kept { st.setWorker thread
      ((st.workers thread).afterFiniReq (server.threads thread)) with server } := by
  rcases finiReq_cases entered with ⟨info, latencies, inFlightReqs, isServing, -, rfl⟩
  have stands := kept.stands thread
  rw [Stands, isSending, isServing] at stands
  have isOpen : Open (st.workers thread).calls info.id := by
    rcases stands with ⟨other, same, isOpen⟩ | ⟨id, absurdity, -⟩
    · cases same
      exact isOpen
    · cases absurdity
  apply kept.section rfl
  · simp only [ServerState.moveTo, Function.update_self, Worker.afterFiniReq, Stands, isSending]
    exact .inr ⟨_, rfl, isOpen.sent⟩
  · simp [isServing, ServerState.moveTo]
  · simp [isServing]
  · exact fun _ isFinished => isFinished
  · exact fun _ isStarted => .inl isStarted
  · intro id isHeld
    rw [isServing] at isHeld
    exact .inr isHeld

theorem kept_count (kept : st.Kept) (isSending : (st.workers thread).phase = .sending)
    {server : ServerState n} (entered : countSection config.server st.server thread = .ok server) :
    BenchState.Kept
      { st.setWorker thread { st.workers thread with phase := .loop } with server } := by
  rcases count_cases entered with ⟨id, isResponded, counted⟩
  have stands := kept.stands thread
  rw [Stands, isSending, isResponded] at stands
  have closed : Closed (st.workers thread).calls := by
    rcases stands with ⟨info, absurdity, -⟩ | ⟨other, same, closed⟩
    · cases absurdity
    · exact closed
  have threads : server.threads = Function.update st.server.threads thread .idle := by
    rcases counted with ⟨-, -, rfl⟩ | ⟨-, -, rfl⟩ | ⟨-, rfl⟩
    all_goals rfl
  have finished : server.finished = st.server.finished ++ [id] := by
    rcases counted with ⟨-, -, rfl⟩ | ⟨-, -, rfl⟩ | ⟨-, rfl⟩
    all_goals rfl
  have started : server.startedReqs = st.server.startedReqs := by
    rcases counted with ⟨-, -, rfl⟩ | ⟨-, -, rfl⟩ | ⟨-, rfl⟩
    all_goals rfl
  have inFlight : server.numReqsInFlight = st.server.numReqsInFlight := by
    rcases counted with ⟨-, -, rfl⟩ | ⟨-, -, rfl⟩ | ⟨-, rfl⟩
    all_goals rfl
  apply kept.section threads
  · exact ⟨rfl, closed⟩
  · simp [isResponded, finished, started]
  · simp [isResponded, inFlight]
  · intro other isFinished
    rw [finished]
    exact List.mem_append_left _ isFinished
  · intro other isStarted
    rw [started] at isStarted
    exact .inl isStarted
  · intro other isHeld
    rw [isResponded] at isHeld
    cases isHeld
    simp [finished]

/-- Every step without a dropped request keeps the requests together. -/
theorem kept_step {event : Event n} (kept : st.Kept) (isRetried : AbortIsRetried config st event)
    (stepped : step config st event = .ok next) : next.Kept := by
  unfold step at stepped
  split at stepped
  · cases stepped
  · cases event with
    | stop =>
        simp only at stepped
        split at stepped
        · cases stepped
          exact ⟨kept.stands, kept.total, kept.inFlight, kept.accounted⟩
        · cases stepped
    | loop thread =>
        simp only at stepped
        split at stepped
        · rename_i atLoop
          cases stepped
          apply kept.setWorker
          have stands := kept.stands thread
          rw [Stands, atLoop] at stands
          cases goesOn config st (st.workers thread) with
          | true => exact ⟨by rw [stands.1]; rfl, stands.2⟩
          | false => exact stands
        · cases stepped
    | recvReq thread genNs startNs =>
        simp only at stepped
        split at stepped
        · rename_i isReceiving
          rcases bind_eq_ok_iff.mp stepped with ⟨server, entered, same⟩
          cases same
          exact kept_recvReq kept isReceiving entered
        · cases stepped
    | txn thread committed =>
        simp only at stepped
        split at stepped
        · rename_i isExecuting
          have stands := kept.stands thread
          rw [Stands, isExecuting] at stands
          cases committed with
          | true =>
              cases stepped
              exact kept.setWorker (.inl stands)
          | false =>
              rcases isRetried thread rfl with ⟨retries, isRunning⟩
              simp only [retries, isRunning, Bool.and_self, if_true] at stepped
              cases stepped
              apply kept.setWorker
              simpa only [Stands, isExecuting] using stands
        · cases stepped
    | sendResp thread respNs curNs =>
        simp only at stepped
        split at stepped
        · rename_i isSending
          rcases bind_eq_ok_iff.mp stepped with ⟨server, entered, same⟩
          cases same
          exact kept_finiReq kept isSending entered
        · cases stepped
    | count thread =>
        simp only at stepped
        split at stepped
        · rename_i isSending
          rcases bind_eq_ok_iff.mp stepped with ⟨server, entered, same⟩
          cases same
          exact kept_count kept isSending entered
        · cases stepped

/-- After a request was dropped, there are fewer requests left than were started. -/
theorem not_answersAll_drop (kept : st.Kept)
    (isExecuting : (st.workers thread).phase = .executing) :
    ¬ (drop st thread).AnswersAll := by
  intro answersAll
  have stands := kept.stands thread
  rw [Stands, isExecuting] at stands
  rcases stands with ⟨info, isServing, -⟩
  have changed := Threads.length_collect_update heldId st.server.threads thread .idle
  rw [isServing] at changed
  have total := kept.total
  have covers : List.range st.server.startedReqs ⊆ st.server.finished ++
      Threads.collect heldId (Function.update st.server.threads thread .idle) := by
    intro id isStarted
    rw [List.mem_append, Threads.mem_collect]
    exact answersAll.accounted id (List.mem_range.mp isStarted)
  have atMost := (List.nodup_range.subperm covers).length_le
  simp only [List.length_range, List.length_append] at atMost
  simp only [heldId, Option.toList_some, Option.toList_none, List.length_singleton,
    List.length_nil] at changed
  omega

/-- An abort that is not run again drops the request. -/
theorem not_answersAll_step {event : Event n} (kept : st.Kept)
    (notRetried : ¬ AbortIsRetried config st event)
    (stepped : step config st event = .ok next) : ¬ next.AnswersAll := by
  simp only [AbortIsRetried, not_forall] at notRetried
  rcases notRetried with ⟨thread, rfl, goesOn⟩
  unfold step at stepped
  split at stepped
  · cases stepped
  · simp only at stepped
    split at stepped
    · rename_i isExecuting
      have isDropped : (config.retryAbortedTransaction && st.running) = false := by
        rw [Bool.eq_false_iff, ne_eq, Bool.and_eq_true]
        exact goesOn
      simp only [isDropped, Bool.false_eq_true, if_false] at stepped
      cases stepped
      exact not_answersAll_drop kept isExecuting
    · cases stepped

end

/-! ## All runs -/

/-- In a run, the requests are all answered, bounded in number and accounted for precisely if every
abort is retried. -/
theorem answersAll_along_iff (config : BenchConfig) (events : List (Event n)) :
    AlongRun (step config) (.initial n) events (fun _ st => st.AnswersAll) ↔
      AtEachStep (step config) (.initial n) events fun _ st event =>
        ∀ next, step config st event = .ok next → AbortIsRetried config st event := by
  apply @alongRun_iff_atEachStep _ _ _ _ _ _ fun _ st => st.AnswersAll → st.Kept
  · exact fun _ => kept_initial n
  · exact (kept_initial n).answersAll
  · intro early st event next invariant isGood stepped isGoodNext
    have kept := invariant isGood
    by_cases isRetried : AbortIsRetried config st event
    · exact kept_step kept isRetried stepped
    · exact absurd isGoodNext (not_answersAll_step kept isRetried stepped)
  · intro early st event next invariant isGood stepped
    have kept := invariant isGood
    constructor
    · intro isGoodNext
      by_contra notRetried
      exact not_answersAll_step kept notRetried stepped isGoodNext
    · exact fun isRetried => (kept_step kept isRetried stepped).answersAll

/-- The settings without retries, with one warm-up request. -/
def withoutRetries : BenchConfig := ⟨⟨10, 1⟩, false, false, .time, 0⟩

/-- The transaction of the first request aborts, and the worker takes a second one. -/
def abortedOnce : List (Event 1) :=
  let tid : Fin 1 := ⟨0, Nat.one_pos⟩
  [.loop tid, .recvReq tid 0 0, .recvReq tid 0 0, .recvReq tid 10 20, .txn tid false, .loop tid,
    .recvReq tid 30 40]

/-- Two requests are in flight then, with one worker. -/
theorem aborted_request_stays_in_flight :
    ¬ AlongRun (step withoutRetries) (.initial 1) abortedOnce fun _ st => st.AnswersAll := by
  intro along
  have isGood := along abortedOnce (List.prefix_refl _) _ rfl
  have atMost := isGood.inFlight
  revert atMost
  decide

end Datamime.Silo
