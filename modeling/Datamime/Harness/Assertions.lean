/-
# The assertions of the networked harness

A receiver asserts that it knows the request of a response, that the times of a recorded response
are in order, and that the client is warming up when the region of interest begins. A worker
asserts that its clock has advanced and that the sockets take its messages whole, which those of
clients whose processes have ended may not. The first assertion never fails. The third one fails
only in a client none of whose senders has passed the first barrier, because the region begins
once. If all processes read one clock that never goes back, no assertion about times fails either.
-/

import Datamime.Harness.Region

namespace Datamime.Harness

open Datamime.Math Datamime.Math.Threads

variable {m n : ℕ} {k : Fin m → ℕ}

namespace Network

variable {config : NetworkConfig m} {net next : Network m n k} {client : Fin m}

/-! ## Which assertions can fail -/

/-- A client none of whose senders has passed the barrier is told that the region begins. -/
def BeginsTooEarly (net : Network m n k) (event : NetEvent m n k) : Prop :=
  ∃ client thread curNs, event = .handle client thread curNs ∧
    (net.clients client).dumped = none ∧
    (net.clients client).receivers thread = .handling .roiBegin ∧
    (net.clients client).hasDist = false

/-- The times of a response are not in order, or the clock of a worker has not advanced. -/
def OutOfTime (net : Network m n k) (event : NetEvent m n k) : Prop :=
  (∃ client thread curNs id svcNs genNs, event = .handle client thread curNs ∧
    (net.clients client).dumped = none ∧
    (net.clients client).receivers thread = .handling (.response id svcNs) ∧
    (net.clients client).status = .ROI ∧
    (net.clients client).inFlightReqs.get? id = some genNs ∧
    (curNs ≤ genNs ∨ curNs - genNs < svcNs)) ∨
  ∃ worker curNs answered told client info, event = .sendResp worker curNs answered told ∧
    net.clientFds ≠ [] ∧ net.workers worker = .serving client info ∧ curNs ≤ info.startNs

/-- A socket does not take a message of the server whole: a response, or a message to all
clients. -/
def FallsShort (config : ServerConfig) (net : Network m n k) (event : NetEvent m n k) : Prop :=
  (∃ worker curNs answered told client info, event = .sendResp worker curNs answered told ∧
    net.clientFds ≠ [] ∧ net.workers worker = .serving client info ∧
    (answered = false ∨ announces config (net.finishedReqs + 1) = true ∧
      ∃ other ∈ net.clientFds, told other = false)) ∨
  ∃ told, event = .finish told ∧ ∃ other ∈ net.clientFds, told other = false

/-- A response that a receiver holds is one to a request in flight. -/
theorem Conserved.found (conserved : net.Conserved client) {thread : Fin (k client)} {id svcNs : ℕ}
    (isHandling : (net.clients client).receivers thread = .handling (.response id svcNs)) :
    ∃ genNs, (net.clients client).inFlightReqs.get? id = some genNs := by
  have isHeld : id ∈ collect ReceiverPhase.id? (net.clients client).receivers :=
    mem_collect.mpr ⟨thread, by rw [isHandling]; rfl⟩
  exact (Dict.mem_keys_iff _).mp
    (conserved.inFlight.mem_iff.mp (List.mem_append_right _ isHeld))

/-- A client that is told that the region begins has not begun it. -/
theorem Followed.begins_once (followed : net.Followed client)
    (isAnnounced : net.Announced config.server) (recorded : (net.clients client).Recorded)
    (running : (net.clients client).dumped = none) {thread : Fin (k client)}
    (isHandling : (net.clients client).receivers thread = .handling .roiBegin) :
    (net.clients client).status ≠ .ROI := by
  intro isRoi
  have hasBegun := recorded.begun.mp isRoi
  have isHeld : Reply.roiBegin ∈ collect ReceiverPhase.reply? (net.clients client).receivers :=
    mem_collect.mpr ⟨thread, by rw [isHandling]; rfl⟩
  have twice : 2 ≤ (net.messages client).count .roiBegin := by
    have once := List.one_le_count_iff.mpr hasBegun
    have again := List.one_le_count_iff.mpr isHeld
    rw [messages, List.count_append, List.count_append]
    omega
  have sentTwice : 2 ≤ ((net.messages client).map (Reply.sent client)).count .roiBegin :=
    twice.trans (List.count_le_count_map (f := Reply.sent client) (x := .roiBegin))
  rw [(followed.delivered running).1.count_eq, sentTo] at sentTwice
  have atMost := List.Sublist.count_le (a := Sent.roiBegin)
    (List.filter_sublist (p := Sent.concerns client) (l := net.log))
  rw [isAnnounced] at atMost
  split at atMost <;> omega

theorem clientStep_eq_error_iff
    {taken : ClientState (k client) → Except Halt (ClientState (k client))} {fault : Fault} :
    net.clientStep client taken = .error (.fault fault) ↔
      (net.clients client).dumped = none ∧ taken (net.clients client) = .error (.fault fault) := by
  rw [clientStep]
  cases isDumped : (net.clients client).dumped with
  | none => cases taken (net.clients client) <;> simp [bind, Except.bind, pure, Except.pure]
  | some latencies => simp

theorem serverStep_eq_error_iff {taken : Except Halt (Network m n k)} {fault : Fault} :
    net.serverStep taken = .error (.fault fault) ↔
      net.clientFds ≠ [] ∧ taken = .error (.fault fault) := by
  rw [serverStep]
  split <;> simp_all

end Network

namespace ClientState

variable {threads : ℕ} {st : ClientState threads} {fault : Fault}

theorem startReq_ne_fault (thread : Fin threads) (genNs : ℕ) :
    st.startReq thread genNs ≠ .error (.fault fault) := by
  rw [startReq]
  cases st.senders thread with
  | starting => dsimp only; split <;> rintro ⟨⟩
  | waiting => dsimp only; split <;> rintro ⟨⟩
  | opened => dsimp only; split <;> rintro ⟨⟩
  | _ => rintro ⟨⟩

/-- The times of a record are asserted in the region of interest. -/
theorem recordLatency_eq_error_iff {id genNs svcNs curNs : ℕ} :
    st.recordLatency id genNs svcNs curNs = .error (.fault fault) ↔
      fault = .assertion ∧ st.status = .ROI ∧ (curNs ≤ genNs ∨ curNs - genNs < svcNs) := by
  rw [recordLatency]
  by_cases isRoi : st.status = .ROI
  · rw [if_pos isRoi]
    by_cases isLater : genNs < curNs
    · by_cases isWithin : svcNs ≤ curNs - genNs
      · simp [latencyOf, require, isLater, isWithin, bind, Except.bind, pure, Except.pure]
      · simp [latencyOf, require, isLater, isWithin, isRoi, bind, Except.bind, eq_comm,
          not_le.mp isWithin]
    · simp [latencyOf, require, isLater, isRoi, bind, Except.bind, eq_comm, not_lt.mp isLater]
  · simp [isRoi]

theorem handle_eq_error_iff {thread : Fin threads} {reply : Reply} {curNs : ℕ} :
    st.handle thread reply curNs = .error (.fault fault) ↔
      st.act reply curNs = .error (.fault fault) := by
  rw [handle]
  cases st.act reply curNs <;> simp [bind, Except.bind, pure, Except.pure]

theorem finiReq_eq_error_iff {id svcNs curNs genNs : ℕ}
    (found : st.inFlightReqs.get? id = some genNs) :
    st.finiReq id svcNs curNs = .error (.fault fault) ↔
      st.recordLatency id genNs svcNs curNs = .error (.fault fault) := by
  simp only [finiReq, found]
  cases st.recordLatency id genNs svcNs curNs <;> simp [bind, Except.bind, pure, Except.pure]

end ClientState

namespace Network

variable {config : NetworkConfig m} {net next : Network m n k} {client : Fin m} {fault : Fault}

theorem require_bind_eq_error_iff {α : Type} {condition : Bool} {rest : Except Halt α} :
    (require condition >>= fun _ => rest) = .error (.fault fault) ↔
      (condition = false ∧ fault = .assertion) ∨
        condition = true ∧ rest = .error (.fault fault) := by
  cases condition <;> simp [require, bind, Except.bind, eq_comm]

theorem all_told_eq_false_iff {told : Fin m → Bool} :
    net.clientFds.all told = false ↔ ∃ other ∈ net.clientFds, told other = false := by
  rw [List.all_eq_false]
  simp only [Bool.not_eq_true]

theorem sendResp_eq_error_iff {worker : Fin n} {info : ReqInfo} {curNs : ℕ} {answered : Bool}
    {told : Fin m → Bool} :
    net.sendResp config.server worker client info curNs answered told = .error (.fault fault) ↔
      fault = .assertion ∧ (curNs ≤ info.startNs ∨ answered = false ∨
        announces config.server (net.finishedReqs + 1) = true ∧
          ∃ other ∈ net.clientFds, told other = false) := by
  have sameFds : (net.answer worker client info.id (curNs - info.startNs)).clientFds =
    net.clientFds := rfl
  have counted : (net.answer worker client info.id (curNs - info.startNs)).finishedReqs =
    net.finishedReqs + 1 := rfl
  rw [sendResp, require_bind_eq_error_iff, require_bind_eq_error_iff, require_bind_eq_error_iff,
    Bool.or_eq_false_iff, Bool.not_eq_false', sameFds, counted, all_told_eq_false_iff,
    decide_eq_false_iff_not, not_lt, decide_eq_true_iff]
  constructor
  · rintro (⟨isLate, isAssertion⟩ | ⟨-, ⟨unanswered, isAssertion⟩ |
      ⟨-, ⟨isShort, isAssertion⟩ | ⟨-, returned⟩⟩⟩)
    · exact ⟨isAssertion, .inl isLate⟩
    · exact ⟨isAssertion, .inr (.inl unanswered)⟩
    · exact ⟨isAssertion, .inr (.inr isShort)⟩
    · cases returned
  · rintro ⟨isAssertion, fails⟩
    by_cases isLate : curNs ≤ info.startNs
    · exact .inl ⟨isLate, isAssertion⟩
    · refine .inr ⟨not_le.mp isLate, ?_⟩
      cases answered with
      | false => exact .inl ⟨rfl, isAssertion⟩
      | true =>
          refine .inr ⟨rfl, .inl ⟨?_, isAssertion⟩⟩
          rcases fails with late | unanswered | isShort
          · exact absurd late isLate
          · cases unanswered
          · exact isShort

theorem finish_eq_error_iff {told : Fin m → Bool} :
    net.finish told = .error (.fault fault) ↔
      fault = .assertion ∧ ∃ other ∈ net.clientFds, told other = false := by
  rw [finish, require_bind_eq_error_iff, all_told_eq_false_iff]
  constructor
  · rintro (⟨isShort, isAssertion⟩ | ⟨-, returned⟩)
    · exact ⟨isAssertion, isShort⟩
    · cases returned
  · rintro ⟨isAssertion, isShort⟩
    exact .inl ⟨isShort, isAssertion⟩

/-- A receiver fails on a response only if its times are not in order, and on the beginning of the
region only if it comes too early. -/
theorem handle_fails_iff (conserved : net.Conserved client) (followed : net.Followed client)
    (isAnnounced : net.Announced config.server) (recorded : (net.clients client).Recorded)
    (running : (net.clients client).dumped = none) {thread : Fin (k client)} {reply : Reply}
    (isHandling : (net.clients client).receivers thread = .handling reply) {curNs : ℕ} :
    (net.clients client).handle thread reply curNs = .error (.fault fault) ↔
      fault = .assertion ∧ (BeginsTooEarly net (.handle client thread curNs) ∨
        OutOfTime net (.handle client thread curNs)) := by
  rw [ClientState.handle_eq_error_iff]
  cases reply with
  | response id svcNs =>
      obtain ⟨genNs, found⟩ := conserved.found isHandling
      rw [ClientState.act, ClientState.finiReq_eq_error_iff found,
        ClientState.recordLatency_eq_error_iff]
      refine and_congr_right fun _ => ⟨?_, ?_⟩
      · rintro ⟨isRoi, outOfOrder⟩
        exact .inr (.inl ⟨client, thread, curNs, id, svcNs, genNs, rfl, running, isHandling, isRoi,
          found, outOfOrder⟩)
      · rintro (⟨_, _, _, isEvent, -, isBegin, -⟩ |
          ⟨_, _, _, _, _, _, isEvent, -, isResponse, isRoi, isFound, outOfOrder⟩ |
          ⟨_, _, _, _, _, _, isEvent, -⟩)
        · cases isEvent
          rw [isHandling] at isBegin
          cases isBegin
        · cases isEvent
          rw [isHandling] at isResponse
          cases isResponse
          rw [found] at isFound
          cases isFound
          exact ⟨isRoi, outOfOrder⟩
        · cases isEvent
  | roiBegin =>
      have notRoi := followed.begins_once isAnnounced recorded running isHandling
      have fails : (net.clients client).startRoi = .error (.fault fault) ↔
          fault = .assertion ∧ (net.clients client).hasDist = false := by
        rw [recorded.undrawn, ClientState.startRoi]
        cases isStatus : (net.clients client).status with
        | INIT => simp [eq_comm]
        | WARMUP => simp
        | ROI => exact absurd isStatus notRoi
        | FINISHED => exact absurd isStatus recorded.unfinished
      rw [ClientState.act, fails]
      refine and_congr_right fun _ => ⟨?_, ?_⟩
      · exact fun undrawn => .inl ⟨client, thread, curNs, rfl, running, isHandling, undrawn⟩
      · rintro (⟨_, _, _, isEvent, -, -, undrawn⟩ | ⟨_, _, _, _, _, _, isEvent, -, isResponse, -⟩ |
          ⟨_, _, _, _, _, _, isEvent, -⟩)
        · cases isEvent
          exact undrawn
        · cases isEvent
          rw [isHandling] at isResponse
          cases isResponse
        · cases isEvent
  | finish =>
      rw [ClientState.act]
      refine iff_of_false (by rintro ⟨⟩) ?_
      rintro ⟨-, ⟨_, _, _, isEvent, -, isBegin, -⟩ |
        ⟨_, _, _, _, _, _, isEvent, -, isResponse, -⟩ | ⟨_, _, _, _, _, _, isEvent, -⟩⟩
      · cases isEvent
        rw [isHandling] at isBegin
        cases isBegin
      · cases isEvent
        rw [isHandling] at isResponse
        cases isResponse
      · cases isEvent

/-- The events in which nothing is asserted. -/
def Asserts : NetEvent m n k → Prop
  | .handle _ _ _ => True
  | .sendResp _ _ _ _ => True
  | .finish _ => True
  | _ => False

theorem step_ne_fault {event : NetEvent m n k} (assertsNothing : ¬ Asserts event) :
    net.step config event ≠ .error (.fault fault) := by
  intro failed
  cases event with
  | check client thread =>
      rw [step] at failed
      obtain ⟨-, stopped⟩ := clientStep_eq_error_iff.mp failed
      split at stopped <;> cases stopped
  | startReq client thread genNs =>
      rw [step] at failed
      obtain ⟨-, stopped⟩ := clientStep_eq_error_iff.mp failed
      exact ClientState.startReq_ne_fault thread genNs stopped
  | arrive client thread curNs =>
      rw [step] at failed
      obtain ⟨-, stopped⟩ := clientStep_eq_error_iff.mp failed
      split at stopped <;> cases stopped
  | wake client thread curNs =>
      rw [step] at failed
      obtain ⟨-, stopped⟩ := clientStep_eq_error_iff.mp failed
      split at stopped <;> cases stopped
  | send client thread =>
      rw [step] at failed
      split at failed
      · rw [clientStep] at failed
        split at failed <;> cases failed
      · cases failed
  | recv client thread =>
      rw [step] at failed
      split at failed
      · rw [clientStep] at failed
        split at failed <;> cases failed
      · cases failed
  | handle client thread curNs => exact assertsNothing trivial
  | recvReq worker client curNs =>
      rw [step] at failed
      obtain ⟨-, stopped⟩ := serverStep_eq_error_iff.mp failed
      split at stopped
      · split at stopped <;> cases stopped
      · cases stopped
  | sendResp worker curNs answered told => exact assertsNothing trivial
  | removeClient worker client =>
      rw [step] at failed
      obtain ⟨-, stopped⟩ := serverStep_eq_error_iff.mp failed
      split at stopped <;> cases stopped
  | finish told => exact assertsNothing trivial

/-- A receiver sends nothing. -/
theorem not_fallsShort_handle (thread : Fin (k client)) (curNs : ℕ) :
    ¬ FallsShort config.server net (.handle client thread curNs) := by
  rintro (⟨_, _, _, _, _, _, isEvent, -⟩ | ⟨_, isEvent, -⟩)
  · cases isEvent
  · cases isEvent

/-- A worker fails if its clock has not advanced or a message of it is not taken whole. -/
theorem sendResp_fails_iff {worker : Fin n} {curNs : ℕ} {answered : Bool} {told : Fin m → Bool} :
    net.step config (.sendResp worker curNs answered told) = .error (.fault fault) ↔
      fault = .assertion ∧ (OutOfTime net (.sendResp worker curNs answered told) ∨
        FallsShort config.server net (.sendResp worker curNs answered told)) := by
  rw [step, serverStep_eq_error_iff]
  constructor
  · rintro ⟨some_clients, stopped⟩
    split at stopped
    · rename_i client info isServing
      obtain ⟨isAssertion, isLate | isShort⟩ := sendResp_eq_error_iff.mp stopped
      · exact ⟨isAssertion, .inl (.inr
          ⟨worker, curNs, answered, told, client, info, rfl, some_clients, isServing, isLate⟩)⟩
      · exact ⟨isAssertion, .inr (.inl
          ⟨worker, curNs, answered, told, client, info, rfl, some_clients, isServing, isShort⟩)⟩
    · cases stopped
  · rintro ⟨isAssertion, (⟨_, _, _, _, _, _, isEvent, -⟩ |
      ⟨_, _, _, _, client, info, isEvent, some_clients, isServing, isLate⟩) |
      (⟨_, _, _, _, client, info, isEvent, some_clients, isServing, isShort⟩ |
        ⟨_, isEvent, -⟩)⟩
    · cases isEvent
    · cases isEvent
      rw [isServing]
      exact ⟨some_clients, sendResp_eq_error_iff.mpr ⟨isAssertion, .inl isLate⟩⟩
    · cases isEvent
      rw [isServing]
      exact ⟨some_clients, sendResp_eq_error_iff.mpr ⟨isAssertion, .inr isShort⟩⟩
    · cases isEvent

theorem finish_fails_iff {told : Fin m → Bool} :
    net.step config (.finish told) = .error (.fault fault) ↔
      fault = .assertion ∧ FallsShort config.server net (.finish told) := by
  rw [step, serverStep_eq_error_iff, finish_eq_error_iff]
  constructor
  · rintro ⟨-, isAssertion, isShort⟩
    exact ⟨isAssertion, .inr ⟨told, rfl, isShort⟩⟩
  · rintro ⟨isAssertion, ⟨_, _, _, _, _, _, isEvent, -⟩ | ⟨_, isEvent, other, isClient, isShort⟩⟩
    · cases isEvent
    · cases isEvent
      exact ⟨List.ne_nil_of_mem isClient, isAssertion, other, isClient, isShort⟩

/-- An event fails precisely if it begins the region too early, is out of time, or has a message
that a socket does not take whole. -/
theorem step_fails_iff (conserved : ∀ client, net.Conserved client)
    (followed : ∀ client, net.Followed client) (isAnnounced : net.Announced config.server)
    (recorded : ∀ client, (net.clients client).Recorded) (event : NetEvent m n k) :
    net.step config event = .error (.fault fault) ↔
      fault = .assertion ∧
        (BeginsTooEarly net event ∨ OutOfTime net event ∨ FallsShort config.server net event) := by
  by_cases asserts : Asserts event
  · cases event with
    | handle client thread curNs =>
        rw [or_iff_left (not_fallsShort_handle thread curNs), step, clientStep_eq_error_iff]
        constructor
        · rintro ⟨running, stopped⟩
          split at stopped
          · rename_i reply isHandling
            exact (handle_fails_iff (conserved client) (followed client) isAnnounced
              (recorded client) running isHandling).mp stopped
          · cases stopped
        · intro fails
          have isHeld : (net.clients client).dumped = none ∧ ∃ reply,
              (net.clients client).receivers thread = .handling reply := by
            rcases fails.2 with ⟨_, _, _, isEvent, running, isBegin, -⟩ |
              ⟨_, _, _, _, _, _, isEvent, running, isResponse, -⟩ |
              ⟨_, _, _, _, _, _, isEvent, -⟩
            · cases isEvent
              exact ⟨running, _, isBegin⟩
            · cases isEvent
              exact ⟨running, _, isResponse⟩
            · cases isEvent
          obtain ⟨running, reply, isHandling⟩ := isHeld
          refine ⟨running, ?_⟩
          rw [isHandling]
          exact (handle_fails_iff (conserved client) (followed client) isAnnounced
            (recorded client) running isHandling).mpr fails
    | sendResp worker curNs answered told =>
        rw [sendResp_fails_iff]
        refine and_congr_right fun _ => (or_iff_right ?_).symm
        rintro ⟨_, _, _, isEvent, -⟩
        cases isEvent
    | finish told =>
        rw [finish_fails_iff]
        refine and_congr_right fun _ => ⟨fun isShort => .inr (.inr isShort), ?_⟩
        rintro (⟨_, _, _, isEvent, -⟩ | (⟨_, _, _, _, _, _, isEvent, -⟩ |
          ⟨_, _, _, _, _, _, isEvent, -⟩) | isShort)
        · cases isEvent
        · cases isEvent
        · cases isEvent
        · exact isShort
    | _ => exact asserts.elim
  · refine iff_of_false (step_ne_fault asserts) ?_
    rintro ⟨-, ⟨_, _, _, rfl, -⟩ | (⟨_, _, _, _, _, _, rfl, -⟩ | ⟨_, _, _, _, _, _, rfl, -⟩) |
      (⟨_, _, _, _, _, _, rfl, -⟩ | ⟨_, rfl, -⟩)⟩
    all_goals exact asserts trivial

theorem announced_along (config : NetworkConfig m) (events : List (NetEvent m n k)) :
    AlongRun (step config) (initial m n k) events fun _ net => net.Announced config.server := by
  refine alongRun_of_preserved events ?_ ?_
  · rw [Announced, if_neg (by simp only [initial]; omega)]
    rfl
  · intro early net event next isAnnounced stepped
    exact announced_taken isAnnounced (step_taken stepped)

/-- Where every run fails. -/
theorem fails_iff_of_run {early : List (NetEvent m n k)}
    (reached : run (step config) (initial m n k) early = .ok net) (event : NetEvent m n k) :
    net.step config event = .error (.fault fault) ↔
      fault = .assertion ∧
        (BeginsTooEarly net event ∨ OutOfTime net event ∨ FallsShort config.server net event) :=
  step_fails_iff (conserved_of_run reached)
    (followed_along config early early (List.prefix_refl _) net reached)
    (announced_along config early early (List.prefix_refl _) net reached)
    (recorded_along config early early (List.prefix_refl _) net reached) event

/-- In every interleaving, the only assertions that fail are those about times, those about messages
that are not taken whole and, in a client that has drawn nothing yet, the one at the beginning of
the region. -/
theorem fails_iff_along (config : NetworkConfig m) (events : List (NetEvent m n k)) :
    AtEachStep (step config) (initial m n k) events fun _ net event =>
      ∀ fault, step config net event = .error (.fault fault) ↔
        fault = .assertion ∧
          (BeginsTooEarly net event ∨ OutOfTime net event ∨ FallsShort config.server net event) :=
  fun _ event _ _ reached _ => fails_iff_of_run reached event

end Network

end Datamime.Harness
