/-
# The records of the region of interest

A request is recorded in one locked section and counted in a later one, so other
threads can begin the region of interest or dump the records in between. Over
every run the recorded requests and those pending at the start of the region are
together the counted requests and those still pending. The dump therefore holds
the requests that were counted in the region precisely if the same requests were
pending at both of its ends.
-/

import Datamime.Harness.Integrated
import Datamime.Math.Threads

namespace Datamime.Harness

open Datamime.Math

variable {n : ℕ}

/-! ## Pending requests -/

namespace ServerState

variable {st : ServerState n} {thread : Fin n} {phase : Phase}

/-- The pending requests of the other threads. -/
def pendingOthers (st : ServerState n) (thread : Fin n) : List ℕ :=
  ((List.finRange n).erase thread).filterMap fun other => (st.threads other).pendingId

theorem perm_pending (st : ServerState n) (thread : Fin n) :
    st.pending.Perm ((st.threads thread).pendingId.toList ++ st.pendingOthers thread) :=
  Threads.perm_collect Phase.pendingId st.threads thread

theorem pending_moveTo (st : ServerState n) (thread : Fin n) (phase : Phase) :
    (st.moveTo thread phase).pending.Perm (phase.pendingId.toList ++ st.pendingOthers thread) :=
  Threads.perm_collect_update Phase.pendingId st.threads thread phase

/-- A move between phases in which nothing is pending. -/
theorem pending_moveTo_of_none (before : (st.threads thread).pendingId = none)
    (after : phase.pendingId = none) : (st.moveTo thread phase).pending.Perm st.pending := by
  have old := st.perm_pending thread
  have new := st.pending_moveTo thread phase
  rw [before] at old
  rw [after] at new
  exact new.trans old.symm

end ServerState

/-! ## The invariant -/

/-- What every run keeps. -/
structure ServerState.Accounted (config : ServerConfig) (st : ServerState n) : Prop where
  counts : st.finishedReqs = st.finished.length
  undrawn : st.hasDist = false → st.status = .INIT
  /-- Before the region of interest nothing is recorded. -/
  before : st.status ≠ .ROI →
    st.latencies = [] ∧ (config.warmupReqs = 0 ∨ st.finishedReqs < config.warmupReqs)
  /-- The recorded requests and those pending at the start of the region are the
  requests counted since and those still pending. -/
  during : st.status = .ROI →
    1 ≤ config.warmupReqs ∧ config.warmupReqs ≤ st.finishedReqs ∧
      (st.latencies.map Latency.id ++ st.pendingAtRoi).Perm
        (st.finished.drop config.warmupReqs ++ st.pending)
  dump : ∀ latencies, st.dumped = some latencies →
    latencies = st.latencies ∧ 0 < config.maxReqs ∧
      st.finishedReqs = config.warmupReqs + config.maxReqs

theorem accounted_initial (config : ServerConfig) (n : ℕ) :
    (ServerState.initial n).Accounted config where
  counts := rfl
  undrawn := fun _ => rfl
  before := fun _ => ⟨rfl, Nat.eq_zero_or_pos _⟩
  during := fun isRoi => by cases isRoi
  dump := fun _ isDumped => by cases isDumped

section

variable {config : ServerConfig} {st next : ServerState n} {thread : Fin n}

/-- Sections that neither record nor count. -/
theorem ServerState.Accounted.move (accounted : st.Accounted config)
    (undrawn : next.hasDist = false → next.status = .INIT)
    (sameCount : next.finishedReqs = st.finishedReqs) (sameFinished : next.finished = st.finished)
    (sameLatencies : next.latencies = st.latencies)
    (sameRoi : next.status = .ROI ↔ st.status = .ROI)
    (sameStart : next.pendingAtRoi = st.pendingAtRoi) (sameDump : next.dumped = st.dumped)
    (samePending : next.pending.Perm st.pending) : next.Accounted config := by
  constructor
  · rw [sameCount, sameFinished]
    exact accounted.counts
  · exact undrawn
  · intro notRoi
    rw [sameLatencies, sameCount]
    exact accounted.before fun isRoi => notRoi (sameRoi.mpr isRoi)
  · intro isRoi
    obtain ⟨some_warmup, warm, balance⟩ := accounted.during (sameRoi.mp isRoi)
    rw [sameCount, sameLatencies, sameStart, sameFinished]
    exact ⟨some_warmup, warm, balance.trans (samePending.symm.append_left _)⟩
  · rw [sameDump, sameLatencies, sameCount]
    exact accounted.dump

theorem accounted_drawRequest (accounted : st.Accounted config) (genNs startNs : ℕ)
    (notPending : (st.threads thread).pendingId = none) :
    (drawRequest st thread genNs startNs).Accounted config :=
  accounted.move accounted.undrawn rfl rfl rfl Iff.rfl rfl rfl
    (ServerState.pending_moveTo_of_none notPending rfl)

/-- The first thread that comes between the barriers sets the distribution. -/
theorem openClient_eq (st : ServerState n) (thread : Fin n) :
    openClient st thread = { st.moveTo thread .opened with
      hasDist := true, status := if st.hasDist then st.status else .WARMUP } := by
  have sameDist : (st.moveTo thread .opened).hasDist = st.hasDist := rfl
  rw [openClient, sameDist]
  cases isDrawn : st.hasDist with
  | true =>
      simp only [if_true]
      rw [← isDrawn]
      rfl
  | false => rfl

theorem accounted_openClient (accounted : st.Accounted config)
    (notPending : (st.threads thread).pendingId = none) :
    (openClient st thread).Accounted config := by
  have samePending := @ServerState.pending_moveTo_of_none n st thread .opened notPending rfl
  rw [openClient]
  cases drawn : st.hasDist with
  | true =>
      have stillDrawn : (st.moveTo thread .opened).hasDist = true := drawn
      rw [stillDrawn]
      exact accounted.move accounted.undrawn rfl rfl rfl Iff.rfl rfl rfl samePending
  | false =>
      have notDrawn : (st.moveTo thread .opened).hasDist = false := drawn
      have isInit := accounted.undrawn drawn
      rw [notDrawn]
      have notRoi : st.status ≠ .ROI := by
        rw [isInit]
        decide
      exact accounted.move (fun isFalse => by cases isFalse) rfl rfl rfl
        (iff_of_false (fun isRoi => by cases isRoi) notRoi) rfl rfl samePending

/-- What a section of `recvReq` leaves. -/
theorem recvReq_cases {genNs startNs : ℕ}
    (stepped : recvReqSection st thread genNs startNs = .ok next) :
    (st.threads thread = .idle ∧ st.status = .INIT ∧ next = st.moveTo thread .waiting) ∨
      (st.threads thread = .waiting ∧
        (∀ other, st.threads other = .waiting ∨ st.threads other = .opened) ∧
        next = openClient st thread) ∨
      ((st.threads thread = .idle ∧ st.status ≠ .INIT ∨ st.threads thread = .opened) ∧
        next = drawRequest st thread genNs startNs) := by
  rw [recvReqSection] at stepped
  cases isPhase : st.threads thread with
  | idle =>
      simp only [isPhase] at stepped
      split at stepped
      · rename_i isInit
        cases stepped
        exact .inl ⟨rfl, isInit, rfl⟩
      · rename_i notInit
        cases stepped
        exact .inr (.inr ⟨.inl ⟨rfl, notInit⟩, rfl⟩)
  | waiting =>
      simp only [isPhase] at stepped
      split at stepped
      · rename_i allThere
        cases stepped
        exact .inr (.inl ⟨rfl, allThere, rfl⟩)
      · cases stepped
  | opened =>
      simp only [isPhase] at stepped
      split at stepped
      · cases stepped
        exact .inr (.inr ⟨.inr rfl, rfl⟩)
      · cases stepped
  | serving info => simp [isPhase] at stepped
  | responded id => simp [isPhase] at stepped

theorem accounted_recvReq (accounted : st.Accounted config) {genNs startNs : ℕ}
    (stepped : recvReqSection st thread genNs startNs = .ok next) : next.Accounted config := by
  rcases recvReq_cases stepped with ⟨isIdle, -, rfl⟩ | ⟨isWaiting, -, rfl⟩ | ⟨isBefore, rfl⟩
  · exact accounted.move accounted.undrawn rfl rfl rfl Iff.rfl rfl rfl
      (ServerState.pending_moveTo_of_none (by rw [isIdle]; rfl) rfl)
  · exact accounted_openClient accounted (by rw [isWaiting]; rfl)
  · apply accounted_drawRequest accounted genNs startNs
    rcases isBefore with ⟨isIdle, -⟩ | isOpened
    · rw [isIdle]
      rfl
    · rw [isOpened]
      rfl

/-- In the region of interest one record is appended, before it none. -/
theorem recordLatency_cases {id genNs svcNs curNs : ℕ} {latencies : List Latency}
    (recorded : recordLatency st id genNs svcNs curNs = .ok latencies) :
    (st.status = .ROI ∧ latencies.map Latency.id = st.latencies.map Latency.id ++ [id]) ∨
      (st.status ≠ .ROI ∧ latencies = st.latencies) := by
  rw [recordLatency] at recorded
  split at recorded
  · rename_i isRoi
    obtain ⟨latency, isLatency, recorded⟩ := bind_eq_ok_iff.mp recorded
    cases recorded
    rw [latencyOf] at isLatency
    obtain ⟨_, _, isLatency⟩ := bind_eq_ok_iff.mp isLatency
    obtain ⟨_, _, isLatency⟩ := bind_eq_ok_iff.mp isLatency
    cases isLatency
    exact .inl ⟨isRoi, by rw [List.map_append, List.map_singleton]⟩
  · rename_i notRoi
    cases recorded
    exact .inr ⟨notRoi, rfl⟩

/-- What `finiReq` leaves, for the accounts. -/
theorem finiReq_cases {respNs curNs : ℕ}
    (stepped : finiReqSection st thread respNs curNs = .ok next) :
    ∃ info latencies inFlightReqs,
      st.threads thread = .serving info ∧
      ((st.status = .ROI ∧
          latencies.map Latency.id = st.latencies.map Latency.id ++ [info.id]) ∨
        (st.status ≠ .ROI ∧ latencies = st.latencies)) ∧
      next = { st.moveTo thread (.responded info.id) with
        latencies
        inFlightReqs
        numReqsInFlight := st.numReqsInFlight - 1 } := by
  rw [finiReqSection] at stepped
  cases isPhase : st.threads thread with
  | serving info =>
      rw [isPhase] at stepped
      obtain ⟨_, _, stepped⟩ := bind_eq_ok_iff.mp stepped
      dsimp only at stepped
      cases isFlying : st.inFlightReqs.get? info.id with
      | none =>
          rw [isFlying] at stepped
          cases stepped
      | some genNs =>
          rw [isFlying] at stepped
          obtain ⟨latencies, recorded, stepped⟩ := bind_eq_ok_iff.mp stepped
          cases stepped
          exact ⟨info, latencies, _, rfl, recordLatency_cases recorded, rfl⟩
  | idle =>
      rw [isPhase] at stepped
      cases stepped
  | waiting =>
      rw [isPhase] at stepped
      cases stepped
  | opened =>
      rw [isPhase] at stepped
      cases stepped
  | responded id =>
      rw [isPhase] at stepped
      cases stepped

theorem accounted_finiReq (accounted : st.Accounted config) (running : st.dumped = none)
    {respNs curNs : ℕ} (stepped : finiReqSection st thread respNs curNs = .ok next) :
    next.Accounted config := by
  obtain ⟨info, latencies, inFlightReqs, isServing, recorded, rfl⟩ := finiReq_cases stepped
  have old := st.perm_pending thread
  have new := st.pending_moveTo thread (.responded info.id)
  rw [isServing] at old
  -- The request joins the pending ones.
  have joins : (st.moveTo thread (.responded info.id)).pending.Perm (info.id :: st.pending) :=
    new.trans (old.symm.cons info.id)
  constructor
  · exact accounted.counts
  · exact accounted.undrawn
  · intro notRoi
    obtain ⟨isEmpty, early⟩ := accounted.before notRoi
    rcases recorded with ⟨isRoi, -⟩ | ⟨-, same⟩
    · exact absurd isRoi notRoi
    · exact ⟨same.trans isEmpty, early⟩
  · intro isRoi
    obtain ⟨some_warmup, warm, balance⟩ := accounted.during isRoi
    rcases recorded with ⟨-, appended⟩ | ⟨notRoi, -⟩
    · refine ⟨some_warmup, warm, ?_⟩
      have left : (latencies.map Latency.id ++ st.pendingAtRoi).Perm
          (info.id :: (st.latencies.map Latency.id ++ st.pendingAtRoi)) := by
        rw [appended, List.append_assoc]
        exact List.perm_middle
      have right : (st.finished.drop config.warmupReqs ++
          (st.moveTo thread (.responded info.id)).pending).Perm
          (info.id :: (st.finished.drop config.warmupReqs ++ st.pending)) :=
        (joins.append_left _).trans List.perm_middle
      exact left.trans ((balance.cons info.id).trans right.symm)
    · exact absurd isRoi notRoi
  · intro dumped isDumped
    have stillRunning : st.dumped = some dumped := isDumped
    rw [running] at stillRunning
    cases stillRunning

/-- The state in which a request has been counted. -/
def ServerState.counted (st : ServerState n) (thread : Fin n) (id : ℕ) : ServerState n :=
  { st.moveTo thread .idle with
    finishedReqs := st.finishedReqs + 1
    finished := st.finished ++ [id] }

theorem count_cases (stepped : countSection config st thread = .ok next) :
    ∃ id, st.threads thread = .responded id ∧
      ((st.finishedReqs + 1 = config.warmupReqs ∧ st.status = .WARMUP ∧
          next = { st.counted thread id with
            status := .ROI, latencies := [], pendingAtRoi := (st.counted thread id).pending }) ∨
        (st.finishedReqs + 1 ≠ config.warmupReqs ∧
          st.finishedReqs + 1 = config.warmupReqs + config.maxReqs ∧
          next = { st.counted thread id with dumped := some st.latencies }) ∨
        (st.finishedReqs + 1 ≠ config.warmupReqs ∧ next = st.counted thread id)) := by
  rw [countSection] at stepped
  cases isPhase : st.threads thread with
  | responded id =>
      refine ⟨id, rfl, ?_⟩
      rw [isPhase] at stepped
      dsimp only at stepped
      split at stepped
      · rename_i begins
        rw [startRoi] at stepped
        split at stepped
        · rename_i isWarmup
          cases stepped
          exact .inl ⟨begins, isWarmup, rfl⟩
        · cases stepped
      · rename_i beginsNot
        split at stepped
        · rename_i ends
          cases stepped
          exact .inr (.inl ⟨beginsNot, ends, rfl⟩)
        · cases stepped
          exact .inr (.inr ⟨beginsNot, rfl⟩)
  | idle =>
      rw [isPhase] at stepped
      cases stepped
  | waiting =>
      rw [isPhase] at stepped
      cases stepped
  | opened =>
      rw [isPhase] at stepped
      cases stepped
  | serving info =>
      rw [isPhase] at stepped
      cases stepped

theorem ServerState.Accounted.counted_length (accounted : st.Accounted config) (id : ℕ) :
    st.finishedReqs + 1 = (st.finished ++ [id]).length := by
  rw [List.length_append, ← accounted.counts]
  rfl

/-- Counting moves a request from the pending ones to the finished ones. -/
theorem accounted_counted (accounted : st.Accounted config) (running : st.dumped = none) {id : ℕ}
    (isPending : st.threads thread = .responded id)
    (beginsNot : st.finishedReqs + 1 ≠ config.warmupReqs) :
    (st.counted thread id).Accounted config := by
  have old := st.perm_pending thread
  have new := st.pending_moveTo thread .idle
  rw [isPending] at old
  have leaves : st.pending.Perm (id :: (st.moveTo thread .idle).pending) :=
    old.trans (new.symm.cons id)
  constructor
  · exact accounted.counted_length id
  · exact accounted.undrawn
  · intro notRoi
    obtain ⟨isEmpty, early⟩ := accounted.before notRoi
    refine ⟨isEmpty, early.imp_right fun isBefore => ?_⟩
    exact lt_of_le_of_ne isBefore beginsNot
  · intro isRoi
    obtain ⟨some_warmup, warm, balance⟩ := accounted.during isRoi
    refine ⟨some_warmup, Nat.le_succ_of_le warm, balance.trans ?_⟩
    have later : (st.finished ++ [id]).drop config.warmupReqs =
        st.finished.drop config.warmupReqs ++ [id] := by
      rw [List.drop_append_of_le_length (accounted.counts ▸ warm)]
    have moved : (st.finished.drop config.warmupReqs ++ st.pending).Perm
        (st.finished.drop config.warmupReqs ++ [id] ++ (st.moveTo thread .idle).pending) := by
      rw [List.append_assoc]
      exact leaves.append_left _
    rw [← later] at moved
    exact moved
  · intro dumped isDumped
    have stillRunning : st.dumped = some dumped := isDumped
    rw [running] at stillRunning
    cases stillRunning

theorem accounted_count (accounted : st.Accounted config) (running : st.dumped = none)
    (stepped : countSection config st thread = .ok next) : next.Accounted config := by
  obtain ⟨id, isPending, ⟨begins, isWarmup, rfl⟩ | ⟨beginsNot, ends, rfl⟩ | ⟨beginsNot, rfl⟩⟩ :=
    count_cases stepped
  · -- The region of interest begins, with what is pending now.
    have noneSince : (st.finished ++ [id]).drop config.warmupReqs = [] := by
      apply List.drop_of_length_le
      rw [List.length_append, ← accounted.counts, ← begins]
      exact le_refl _
    constructor
    · exact accounted.counted_length id
    · intro notDrawn
      have isInit := accounted.undrawn notDrawn
      rw [isWarmup] at isInit
      cases isInit
    · exact fun notRoi => absurd rfl notRoi
    · intro _
      refine ⟨begins ▸ Nat.succ_pos _, begins.ge, ?_⟩
      have balance : (st.counted thread id).pending.Perm
          ((st.finished ++ [id]).drop config.warmupReqs ++ (st.counted thread id).pending) := by
        rw [noneSince, List.nil_append]
      exact balance
    · intro dumped isDumped
      have stillRunning : st.dumped = some dumped := isDumped
      rw [running] at stillRunning
      cases stillRunning
  · have counted := accounted_counted accounted running isPending beginsNot
    refine ⟨counted.counts, counted.undrawn, counted.before, counted.during, ?_⟩
    intro latencies isDumped
    have isRecorded : some st.latencies = some latencies := isDumped
    refine ⟨(Option.some.inj isRecorded).symm, ?_, ends⟩
    omega
  · exact accounted_counted accounted running isPending beginsNot

theorem accounted_serverStep (accounted : st.Accounted config) {entered : Section n}
    (stepped : serverStep config st entered = .ok next) : next.Accounted config := by
  unfold serverStep at stepped
  split at stepped
  · cases stepped
  · rename_i isRunning
    have running : st.dumped = none := Option.not_isSome_iff_eq_none.mp isRunning
    cases entered with
    | recvReq thread genNs startNs => exact accounted_recvReq accounted stepped
    | finiReq thread respNs curNs => exact accounted_finiReq accounted running stepped
    | count thread => exact accounted_count accounted running stepped

end

/-! ## The dump -/

/-- The dump holds one record for each request that was counted after the warm-up requests,
and no other. -/
def CollectsRegion (config : ServerConfig) (last : ServerState n) (latencies : List Latency) :
    Prop :=
  latencies.length = config.maxReqs ∧
    (latencies.map Latency.id).Perm (last.finished.drop config.warmupReqs)

/-- A run that reaches the dump collects exactly the requests of the region precisely if there
was a warm-up and the same requests were pending when the region began and when it ended. -/
theorem collectsRegion_iff_samePending {config : ServerConfig} {sections : List (Section n)}
    {last : ServerState n} {latencies : List Latency}
    (reached : run (serverStep config) (ServerState.initial n) sections = .ok last)
    (isDumped : last.dumped = some latencies) :
    CollectsRegion config last latencies ↔
      1 ≤ config.warmupReqs ∧ last.pendingAtRoi.Perm last.pending := by
  have accounted : last.Accounted config :=
    run_invariant (fun _ _ _ accounted stepped => accounted_serverStep accounted stepped)
      (accounted_initial config n) reached
  obtain ⟨rfl, some_reqs, total⟩ := accounted.dump latencies isDumped
  have inRegion : (last.finished.drop config.warmupReqs).length = config.maxReqs := by
    rw [List.length_drop, ← accounted.counts, total]
    omega
  by_cases isRoi : last.status = .ROI
  · obtain ⟨some_warmup, -, balance⟩ := accounted.during isRoi
    constructor
    · rintro ⟨-, same⟩
      refine ⟨some_warmup, ?_⟩
      exact (List.perm_append_left_iff _).mp (balance.trans (same.symm.append_right _))
    · rintro ⟨-, samePending⟩
      have same := (List.perm_append_right_iff last.pending).mp
        ((samePending.symm.append_left _).trans balance)
      refine ⟨?_, same⟩
      rw [← List.length_map Latency.id, same.length_eq, inRegion]
  · obtain ⟨isEmpty, early⟩ := accounted.before isRoi
    constructor
    · rintro ⟨size, -⟩
      rw [isEmpty, List.length_nil] at size
      omega
    · rintro ⟨some_warmup, -⟩
      omega

/-- One worker thread that serves two requests. -/
def singleThread : List (Section 1) :=
  [.recvReq 0 0 0, .recvReq 0 0 0, .recvReq 0 10 20, .finiReq 0 30 30, .count 0,
    .recvReq 0 40 50, .finiReq 0 70 70, .count 0]

/-- Both threads leave `finiReq` before the first of them counts its request. -/
def twoThreads : List (Section 2) :=
  [.recvReq 0 0 0, .recvReq 1 0 0, .recvReq 0 0 0, .recvReq 1 0 0, .recvReq 0 10 20,
    .recvReq 1 10 20, .finiReq 0 30 30, .finiReq 1 40 40, .count 0, .count 1]

/-- After one warm-up request, the record of the one further request is missing. -/
theorem pending_request_not_recorded :
    ∃ last, run (serverStep ⟨1, 1⟩) (ServerState.initial 2) twoThreads = .ok last ∧
      last.dumped = some [] ∧ last.finished = [0, 1] ∧ ¬ CollectsRegion ⟨1, 1⟩ last [] := by
  refine ⟨_, rfl, rfl, rfl, ?_⟩
  rintro ⟨size, -⟩
  cases size

theorem singleThread_collects_iff :
    ∃ last latencies,
      run (serverStep ⟨1, 1⟩) (ServerState.initial 1) singleThread = .ok last ∧
        last.dumped = some latencies ∧
        (CollectsRegion ⟨1, 1⟩ last latencies ↔
          1 ≤ (⟨1, 1⟩ : ServerConfig).warmupReqs ∧ last.pendingAtRoi.Perm last.pending) :=
  ⟨_, _, rfl, rfl, @collectsRegion_iff_samePending 1 ⟨1, 1⟩ singleThread _ _ rfl rfl⟩

end Datamime.Harness
