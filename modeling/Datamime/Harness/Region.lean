/-
# The records of the networked clients

The server counts the responses to all clients together. After the last response of the warm-up it
tells every connected client that the region of interest begins, and after the last one of the
region that the clients are to finish. A client with one receiver thread records exactly its own
responses between these two messages, so all clients together record as many as were asked for. A
client with more receivers can act on the messages out of order.
-/

import Datamime.Harness.Delivery
import Mathlib.Data.List.TakeWhile

namespace Datamime.Harness

open Datamime.Math Datamime.Math.Threads

variable {m n : ℕ} {k : Fin m → ℕ}

/-! ## What a client records -/

/-- The requests whose responses were acted on after the region of interest had begun. -/
def recordedOf (handled : List Reply) : List ℕ :=
  (handled.dropWhile (· ≠ .roiBegin)).filterMap Reply.id?

/-- A response is recorded if the region has begun. -/
theorem recordedOf_append_of_mem {handled : List Reply} (hasBegun : .roiBegin ∈ handled)
    (reply : Reply) :
    recordedOf (handled ++ [reply]) = recordedOf handled ++ reply.id?.toList := by
  obtain ⟨first, isFirst, begins⟩ : ∃ first ∈ handled, ¬ (decide (first ≠ .roiBegin)) = true :=
    ⟨.roiBegin, hasBegun, by simp⟩
  have some_left : handled.dropWhile (· ≠ .roiBegin) ≠ [] := by
    intro isNil
    exact begins (List.dropWhile_eq_nil_iff.mp isNil first isFirst)
  rw [recordedOf, List.dropWhile_append]
  rw [if_neg (by simpa using some_left), List.filterMap_append]
  cases isId : reply.id? <;> simp [recordedOf, isId]

theorem recordedOf_of_not_mem {handled : List Reply} (beginsNot : .roiBegin ∉ handled) :
    recordedOf handled = [] := by
  have allDropped : handled.dropWhile (· ≠ .roiBegin) = [] := by
    rw [List.dropWhile_eq_nil_iff]
    intro reply isReply
    have different : reply ≠ .roiBegin := fun same => beginsNot (same ▸ isReply)
    simpa using different
  rw [recordedOf, allDropped, List.filterMap_nil]

namespace ClientState

variable {threads : ℕ} {st next : ClientState threads}

/-- What a client has recorded. -/
structure Recorded (st : ClientState threads) : Prop where
  undrawn : st.hasDist = false ↔ st.status = .INIT
  unfinished : st.status ≠ .FINISHED
  begun : st.status = .ROI ↔ .roiBegin ∈ st.handled
  recorded : st.latencies.map Latency.id = recordedOf st.handled
  running : st.dumped = none → .finish ∉ st.handled
  /-- The process ends with the first message to finish. -/
  ended : ∀ latencies, st.dumped = some latencies → latencies = st.latencies ∧
    ∃ before, .finish ∉ before ∧ st.handled = before ++ [.finish]

theorem recorded_initial (threads : ℕ) : (initial threads).Recorded where
  undrawn := ⟨fun _ => rfl, fun _ => rfl⟩
  unfinished := by rintro ⟨⟩
  begun := ⟨by rintro ⟨⟩, fun isMember => absurd isMember (List.not_mem_nil)⟩
  recorded := rfl
  running := fun _ => List.not_mem_nil
  ended := by rintro _ ⟨⟩

/-- A step of a sender that leaves the status. -/
theorem Recorded.move (recorded : st.Recorded) (sameDist : next.hasDist = st.hasDist)
    (sameStatus : next.status = st.status) (sameLatencies : next.latencies = st.latencies)
    (sameHandled : next.handled = st.handled) (sameDumped : next.dumped = st.dumped) :
    next.Recorded where
  undrawn := by
    rw [sameDist, sameStatus]
    exact recorded.undrawn
  unfinished := by
    rw [sameStatus]
    exact recorded.unfinished
  begun := by
    rw [sameStatus, sameHandled]
    exact recorded.begun
  recorded := by
    rw [sameLatencies, sameHandled]
    exact recorded.recorded
  running := by
    rw [sameDumped, sameHandled]
    exact recorded.running
  ended := by
    rw [sameDumped, sameLatencies, sameHandled]
    exact recorded.ended

/-- The first sender between the barriers ends the initial phase. -/
theorem Recorded.openBarrier (recorded : st.Recorded) (thread : Fin threads) :
    (st.openBarrier thread).Recorded := by
  cases isDrawn : st.hasDist with
  | true =>
      have sameStatus : (st.openBarrier thread).status = st.status := by
        simp [ClientState.openBarrier, isDrawn]
      exact recorded.move (by rw [isDrawn]; rfl) sameStatus rfl rfl rfl
  | false =>
      have isInit := recorded.undrawn.mp isDrawn
      have isWarmup : (st.openBarrier thread).status = .WARMUP := by
        simp [ClientState.openBarrier, isDrawn]
      have beginsNot : .roiBegin ∉ st.handled := by
        rw [← recorded.begun, isInit]
        rintro ⟨⟩
      constructor
      · rw [isWarmup]
        exact ⟨by rintro ⟨⟩, by rintro ⟨⟩⟩
      · rw [isWarmup]
        rintro ⟨⟩
      · rw [isWarmup]
        exact ⟨by rintro ⟨⟩, fun isMember => absurd isMember beginsNot⟩
      · exact recorded.recorded
      · exact recorded.running
      · exact recorded.ended

/-- In the region of interest one record is appended, before it none. -/
theorem recordLatency_ids {id genNs svcNs curNs : ℕ} {latencies : List Latency}
    (isRecord : st.recordLatency id genNs svcNs curNs = .ok latencies) :
    latencies.map Latency.id =
      st.latencies.map Latency.id ++ if st.status = .ROI then [id] else [] := by
  rw [recordLatency] at isRecord
  split at isRecord
  · rename_i isRoi
    obtain ⟨latency, isLatency, isRecord⟩ := bind_eq_ok_iff.mp isRecord
    cases isRecord
    obtain ⟨_, -, isLatency⟩ := bind_eq_ok_iff.mp isLatency
    obtain ⟨_, -, isLatency⟩ := bind_eq_ok_iff.mp isLatency
    cases isLatency
    simp [isRoi]
  · rename_i notRoi
    cases isRecord
    simp [notRoi]

/-- A response is recorded precisely if the client has begun the region. -/
theorem Recorded.finiReq (recorded : st.Recorded) (running : st.dumped = none) {id svcNs : ℕ}
    (sameDist : next.hasDist = st.hasDist) (sameStatus : next.status = st.status)
    (appended : next.latencies.map Latency.id =
      st.latencies.map Latency.id ++ if st.status = .ROI then [id] else [])
    (acted : next.handled = st.handled ++ [.response id svcNs])
    (sameDumped : next.dumped = st.dumped) : next.Recorded where
  undrawn := by
    rw [sameDist, sameStatus]
    exact recorded.undrawn
  unfinished := by
    rw [sameStatus]
    exact recorded.unfinished
  begun := by
    rw [sameStatus, acted, recorded.begun]
    simp
  recorded := by
    rw [appended, acted]
    by_cases isRoi : st.status = .ROI
    · rw [if_pos isRoi, recordedOf_append_of_mem (recorded.begun.mp isRoi), recorded.recorded]
      rfl
    · have beginsNot : .roiBegin ∉ st.handled := fun begins => isRoi (recorded.begun.mpr begins)
      rw [if_neg isRoi, List.append_nil, recorded.recorded, recordedOf_of_not_mem beginsNot,
        recordedOf_of_not_mem (by simpa using beginsNot)]
  running := by
    intro _
    rw [acted]
    simpa using recorded.running running
  ended := by
    intro latencies isDumped
    rw [sameDumped, running] at isDumped
    cases isDumped

/-- The region begins with no record. -/
theorem Recorded.startRoi (recorded : st.Recorded) (running : st.dumped = none)
    (isWarmup : st.status = .WARMUP) (sameDist : next.hasDist = st.hasDist)
    (isRoi : next.status = .ROI) (cleared : next.latencies = [])
    (acted : next.handled = st.handled ++ [.roiBegin]) (sameDumped : next.dumped = st.dumped) :
    next.Recorded where
  undrawn := by
    rw [sameDist, isRoi, recorded.undrawn, isWarmup]
    exact ⟨by rintro ⟨⟩, by rintro ⟨⟩⟩
  unfinished := by
    rw [isRoi]
    rintro ⟨⟩
  begun := by
    rw [acted, isRoi]
    simp
  recorded := by
    have beginsNot : .roiBegin ∉ st.handled := by
      rw [← recorded.begun, isWarmup]
      rintro ⟨⟩
    have allDropped : st.handled.dropWhile (· ≠ .roiBegin) = [] := by
      rw [List.dropWhile_eq_nil_iff]
      intro reply isReply
      have different : reply ≠ .roiBegin := fun same => beginsNot (same ▸ isReply)
      simpa using different
    rw [cleared, acted, recordedOf, List.dropWhile_append, allDropped]
    simp [Reply.id?]
  running := by
    intro _
    rw [acted]
    simpa using recorded.running running
  ended := by
    intro latencies isDumped
    rw [sameDumped, running] at isDumped
    cases isDumped

/-- The process ends with what it has recorded. -/
theorem Recorded.dumpStats (recorded : st.Recorded) (running : st.dumped = none)
    (sameDist : next.hasDist = st.hasDist) (sameStatus : next.status = st.status)
    (sameLatencies : next.latencies = st.latencies)
    (acted : next.handled = st.handled ++ [.finish])
    (isDumped : next.dumped = some st.latencies) : next.Recorded where
  undrawn := by
    rw [sameDist, sameStatus]
    exact recorded.undrawn
  unfinished := by
    rw [sameStatus]
    exact recorded.unfinished
  begun := by
    rw [sameStatus, acted, recorded.begun]
    simp
  recorded := by
    rw [sameLatencies, acted, recorded.recorded]
    by_cases begins : .roiBegin ∈ st.handled
    · rw [recordedOf_append_of_mem begins]
      exact (List.append_nil _).symm
    · rw [recordedOf_of_not_mem begins, recordedOf_of_not_mem (by simpa using begins)]
  running := by
    intro notDumped
    rw [isDumped] at notDumped
    cases notDumped
  ended := by
    intro latencies isLast
    rw [isDumped] at isLast
    cases isLast
    exact ⟨sameLatencies.symm, st.handled, recorded.running running, acted⟩

end ClientState

namespace Network

variable {config : NetworkConfig m} {net next : Network m n k} {client other : Fin m}

theorem recorded_taken {event : NetEvent m n k}
    (recorded : ∀ client, (net.clients client).Recorded) (taken : Taken config net event next) :
    ∀ client, (next.clients client).Recorded := by
  cases taken with
  | checkFull => exact recorded
  | sleepOn => exact recorded
  | @check client thread running isLooping hasRoom =>
      exact forall_setClient recorded ((recorded client).move rfl rfl rfl rfl rfl)
  | @wait client thread genNs running isStarting isInit =>
      exact forall_setClient recorded ((recorded client).move rfl rfl rfl rfl rfl)
  | @openBarrier client thread genNs running isWaiting allThere =>
      exact forall_setClient recorded ((recorded client).openBarrier thread)
  | @drawRequest client thread genNs running isBefore =>
      exact forall_setClient recorded ((recorded client).move rfl rfl rfl rfl rfl)
  | @sleep client thread id genNs curNs running isDrawn isEarly =>
      exact forall_setClient recorded ((recorded client).move rfl rfl rfl rfl rfl)
  | @arrive client thread id genNs curNs running isDrawn hasArrived =>
      exact forall_setClient recorded ((recorded client).move rfl rfl rfl rfl rfl)
  | @wake client thread id targetNs curNs running isSleeping isOver =>
      exact forall_setClient recorded ((recorded client).move rfl rfl rfl rfl rfl)
  | @send client thread id running isSending =>
      exact forall_setClient recorded ((recorded client).move rfl rfl rfl rfl rfl)
  | @recv client thread reply later running isReading isNext =>
      exact forall_setClient recorded ((recorded client).move rfl rfl rfl rfl rfl)
  | @finiReq client thread id svcNs curNs genNs latencies running isHandling isInFlight isRecord =>
      refine forall_setClient recorded ?_
      have appended := ClientState.recordLatency_ids isRecord
      exact (recorded client).finiReq running rfl rfl appended rfl rfl
  | @startRoi client thread curNs running isHandling isWarmup =>
      refine forall_setClient recorded ?_
      exact (recorded client).startRoi running isWarmup rfl rfl rfl rfl rfl
  | @dumpStats client thread curNs running isHandling =>
      refine forall_setClient recorded ?_
      exact (recorded client).dumpStats running rfl rfl rfl rfl rfl
  | recvReq isIdle isNext isConnected => exact recorded
  | sendResp isServing isLater =>
      rw [clients_announce]
      exact recorded
  | removeClient hasEnded => exact recorded
  | finish =>
      rw [clients_broadcast]
      exact recorded

theorem recorded_along (config : NetworkConfig m) (events : List (NetEvent m n k)) :
    AlongRun (step config) (initial m n k) events fun _ net =>
      ∀ client, (net.clients client).Recorded := by
  refine alongRun_of_preserved events (fun client => ClientState.recorded_initial _) ?_
  intro early net event next recorded stepped
  exact recorded_taken recorded (step_taken stepped)

end Network

/-! ## What the server sends -/

/-- The answers in the log. -/
def Sent.answer? : Sent m → Option (Fin m × ℕ)
  | .answer client id => some (client, id)
  | _ => none

/-- What is said after the response with this number. -/
def announced (config : ServerConfig) (number : ℕ) : List (Sent m) :=
  if number = config.warmupReqs then [.roiBegin]
  else if number = config.warmupReqs + config.maxReqs then [.finish]
  else []

/-- What is sent if these requests are answered after a number of others. -/
def logFrom (config : ServerConfig) : ℕ → List (Fin m × ℕ) → List (Sent m)
  | _, [] => []
  | number, request :: rest =>
      .answer request.1 request.2 :: announced config (number + 1) ++
        logFrom config (number + 1) rest

theorem logFrom_append (config : ServerConfig) (number : ℕ) (first second : List (Fin m × ℕ)) :
    logFrom config number (first ++ second) =
      logFrom config number first ++ logFrom config (number + first.length) second := by
  induction first generalizing number with
  | nil => rfl
  | cons request rest ih =>
      have sameNumber : number + 1 + rest.length = number + (rest.length + 1) := by omega
      rw [List.cons_append, logFrom, ih, logFrom, List.length_cons, sameNumber]
      simp only [List.cons_append, List.append_assoc]

theorem answer?_announced (config : ServerConfig) (number : ℕ) :
    (announced config number : List (Sent m)).filterMap Sent.answer? = [] := by
  rw [announced]
  split
  · rfl
  · split <;> rfl

/-- The log tells which requests were answered. -/
theorem answer?_logFrom (config : ServerConfig) (number : ℕ) (served : List (Fin m × ℕ)) :
    (logFrom config number served).filterMap Sent.answer? = served := by
  induction served generalizing number with
  | nil => rfl
  | cons request rest ih =>
      rw [logFrom, List.cons_append, List.filterMap_cons, List.filterMap_append, ih,
        answer?_announced]
      rfl

/-- Nothing is said before the last response of a phase. -/
theorem logFrom_phase {config : ServerConfig} {number : ℕ} {served : List (Fin m × ℕ)}
    (some_served : served ≠ [])
    (quiet : ∀ i, number < i → i < number + served.length →
      i ≠ config.warmupReqs ∧ i ≠ config.warmupReqs + config.maxReqs) :
    logFrom config number served =
      served.map (fun request => .answer request.1 request.2) ++
        announced config (number + served.length) := by
  induction served generalizing number with
  | nil => exact absurd rfl some_served
  | cons request rest ih =>
      rcases rest with _ | ⟨other, rest⟩
      · simp [logFrom]
      · have isQuiet := quiet (number + 1) (Nat.lt_succ_self _) (by simp)
        have nothing : (announced config (number + 1) : List (Sent m)) = [] := by
          rw [announced, if_neg isQuiet.1, if_neg isQuiet.2]
        have sameNumber : number + 1 + (other :: rest).length =
            number + (request :: other :: rest).length := by
          simp only [List.length_cons]
          omega
        have later := @ih (number + 1) (List.cons_ne_nil _ _) (by
          intro i above below
          rw [sameNumber] at below
          exact quiet i (by omega) below)
        rw [logFrom, nothing, later, sameNumber]
        rfl

namespace Network

variable {config : NetworkConfig m} {net next : Network m n k}

/-- The region of interest is announced once, after the last response of the warm-up. -/
def Announced (config : ServerConfig) (net : Network m n k) : Prop :=
  net.log.count .roiBegin =
    if 1 ≤ config.warmupReqs ∧ config.warmupReqs ≤ net.finishedReqs then 1 else 0

/-- Unless the application ends the run itself, the log is that of the answered requests. -/
def Logged (config : ServerConfig) (net : Network m n k) : Prop :=
  ∃ served, net.log = logFrom config 0 served ∧ net.finishedReqs = served.length

/-- Only the server writes to the log. -/
theorem log_taken {event : NetEvent m n k} (taken : Taken config net event next) :
    (next.log = net.log ∧ next.finishedReqs = net.finishedReqs) ∨
      (∃ client id, next.log = net.log ++ .answer client id ::
          announced config.server (net.finishedReqs + 1) ∧
        next.finishedReqs = net.finishedReqs + 1) ∨
      ((∃ told, event = .finish told) ∧ next.log = net.log ++ [.finish] ∧
        next.finishedReqs = net.finishedReqs) := by
  cases taken with
  | @sendResp worker client info curNs answered told isServing isLater =>
      refine .inr (.inl ⟨client, info.id, ?_⟩)
      have isCounted : (net.answer worker client info.id (curNs - info.startNs)).finishedReqs =
        net.finishedReqs + 1 := rfl
      rcases announce_cases config.server
          (net.answer worker client info.id (curNs - info.startNs)) with
        ⟨begins, isNext⟩ | ⟨beginsNot, ends, isNext⟩ | ⟨beginsNot, endsNot, isNext⟩
      · rw [isCounted] at begins
        rw [isNext, broadcast_eq, announced, if_pos begins]
        exact ⟨List.append_assoc _ _ _, rfl⟩
      · rw [isCounted] at beginsNot ends
        rw [isNext, broadcast_eq, announced, if_neg beginsNot, if_pos ends]
        exact ⟨List.append_assoc _ _ _, rfl⟩
      · rw [isCounted] at beginsNot endsNot
        rw [isNext, announced, if_neg beginsNot, if_neg endsNot]
        exact ⟨rfl, rfl⟩
  | finish =>
      rw [broadcast_eq]
      exact .inr (.inr ⟨⟨_, rfl⟩, rfl, rfl⟩)
  | _ => exact .inl ⟨rfl, rfl⟩

theorem announced_taken {event : NetEvent m n k} (isAnnounced : net.Announced config.server)
    (taken : Taken config net event next) : next.Announced config.server := by
  rw [Announced] at isAnnounced ⊢
  rcases log_taken taken with ⟨sameLog, sameCount⟩ | ⟨client, id, grown, counted⟩ |
    ⟨-, grown, sameCount⟩
  · rw [sameLog, sameCount, isAnnounced]
  · have saidOnce :
        (announced config.server (net.finishedReqs + 1) : List (Sent m)).count .roiBegin =
          if net.finishedReqs + 1 = config.server.warmupReqs then 1 else 0 := by
      rw [announced]
      split
      · rfl
      · split <;> rfl
    rw [grown, counted, List.count_append, List.count_cons, isAnnounced, saidOnce]
    simp only [beq_iff_eq, reduceCtorEq, if_false]
    split_ifs <;> omega
  · rw [grown, sameCount, List.count_append, isAnnounced]
    rfl

theorem logged_taken {event : NetEvent m n k} (notFinish : ∀ told, event ≠ .finish told)
    (logged : net.Logged config.server) (taken : Taken config net event next) :
    next.Logged config.server := by
  obtain ⟨served, isLog, isCount⟩ := logged
  rcases log_taken taken with
    ⟨sameLog, sameCount⟩ | ⟨client, id, grown, counted⟩ | ⟨⟨told, isFinish⟩, -⟩
  · exact ⟨served, sameLog.trans isLog, sameCount.trans isCount⟩
  · refine ⟨served ++ [(client, id)], ?_, ?_⟩
    · rw [grown, isLog, isCount, logFrom_append, Nat.zero_add, logFrom, logFrom, List.append_nil]
    · rw [counted, isCount, List.length_append, List.length_singleton]
  · exact absurd isFinish (notFinish told)

end Network

/-! ## The dumps -/

/-- What is sent between the beginning of the region of interest and the first message to finish. -/
def region (log : List (Sent m)) : List (Sent m) :=
  (log.takeWhile (· ≠ .finish)).dropWhile (· ≠ .roiBegin)

theorem takeWhile_filter {α : Type*} {goesOn keep : α → Bool} (items : List α)
    (ends : ∀ item, goesOn item = false → keep item = true) :
    (items.filter keep).takeWhile goesOn = (items.takeWhile goesOn).filter keep := by
  induction items with
  | nil => rfl
  | cons item rest ih =>
      cases isOn : goesOn item with
      | true => cases isKept : keep item <;> simp [isOn, isKept, ih]
      | false => simp [isOn, ends item isOn]

theorem dropWhile_filter {α : Type*} {goesOn keep : α → Bool} (items : List α)
    (ends : ∀ item, goesOn item = false → keep item = true) :
    (items.filter keep).dropWhile goesOn = (items.dropWhile goesOn).filter keep := by
  induction items with
  | nil => rfl
  | cons item rest ih =>
      cases isOn : goesOn item with
      | true => cases isKept : keep item <;> simp [isOn, isKept, ih]
      | false => simp [isOn, ends item isOn]

/-- A client that is sent a region in order records the responses in it. -/
theorem recordedOf_eq_region {client : Fin m} {before : List Reply} {log : List (Sent m)}
    (unended : .finish ∉ before)
    (inOrder : (before ++ [Reply.finish]).map (Reply.sent client) <+:
      log.filter (Sent.concerns client)) :
    recordedOf (before ++ [.finish]) = (region log).filterMap (Sent.idTo client) := by
  obtain ⟨later, isSent⟩ := inOrder
  have isBefore : (log.takeWhile (· ≠ .finish)).filter (Sent.concerns client) =
      before.map (Reply.sent client) := by
    rw [← takeWhile_filter, ← isSent, List.map_append, List.append_assoc,
      List.takeWhile_append_of_pos]
    · simp [Reply.sent]
    · intro entry isEntry
      obtain ⟨reply, isReply, rfl⟩ := List.mem_map.mp isEntry
      cases reply with
      | finish => exact absurd isReply unended
      | _ => rfl
    · intro entry isFinish
      simp only [ne_eq, decide_not, Bool.not_eq_false', decide_eq_true_eq] at isFinish
      rw [isFinish]
      rfl
  have isRegion : (region log).filter (Sent.concerns client) =
      (before.dropWhile (· ≠ .roiBegin)).map (Reply.sent client) := by
    rw [region, ← dropWhile_filter, isBefore, List.dropWhile_map]
    · congr 2
      funext reply
      cases reply <;> rfl
    · intro entry isBegin
      simp only [ne_eq, decide_not, Bool.not_eq_false', decide_eq_true_eq] at isBegin
      rw [isBegin]
      rfl
  have concerned : (region log).filterMap (Sent.idTo client) =
      ((region log).filter (Sent.concerns client)).filterMap (Sent.idTo client) := by
    rw [List.filterMap_filter]
    apply List.filterMap_congr
    intro entry _
    cases entry with
    | answer receiver id =>
        by_cases same : receiver = client <;> simp [Sent.idTo, Sent.concerns, same]
    | _ => rfl
  have sameIds : (fun reply => Sent.idTo client (Reply.sent client reply)) = Reply.id? := by
    funext reply
    cases reply with
    | response id svcNs => exact if_pos rfl
    | _ => rfl
  rw [concerned, isRegion, List.filterMap_map]
  show _ = List.filterMap (fun reply => Sent.idTo client (Reply.sent client reply)) _
  rw [sameIds]
  by_cases begins : .roiBegin ∈ before
  · rw [recordedOf_append_of_mem begins]
    exact List.append_nil _
  · rw [recordedOf_of_not_mem (by simpa using begins)]
    exact (recordedOf_of_not_mem begins).symm

namespace Network

variable {config : NetworkConfig m} {net : Network m n k} {events : List (NetEvent m n k)}

/-- What a client with one receiver thread has dumped. -/
theorem ids_of_dumped {client : Fin m} {latencies : List Latency}
    (reached : run (step config) (initial m n k) events = .ok net) (single : k client = 1)
    (isDumped : (net.clients client).dumped = some latencies) :
    latencies.map Latency.id = (region net.log).filterMap (Sent.idTo client) := by
  have recorded := recorded_along config events events (List.prefix_refl _) net reached client
  have followed := followed_along config events events (List.prefix_refl _) net reached client
  obtain ⟨rfl, before, unended, isHandled⟩ := recorded.ended latencies isDumped
  have inOrder := followed.inOrder single
  rw [isHandled] at inOrder
  rw [recorded.recorded, isHandled]
  exact recordedOf_eq_region unended inOrder

/-- In every interleaving, a client with one receiver thread dumps one record for each response that
the server sent to it between the beginning of the region and the first message to finish, in order,
and no other. -/
theorem dump_eq_region {client : Fin m} (single : k client = 1) (config : NetworkConfig m)
    (events : List (NetEvent m n k)) :
    AlongRun (step config) (initial m n k) events fun _ net =>
      ∀ latencies, (net.clients client).dumped = some latencies →
        latencies.map Latency.id = (region net.log).filterMap (Sent.idTo client) :=
  fun _ _ _ reached _ isDumped => ids_of_dumped reached single isDumped

/-- Two clients of one thread each. The first one has the response that ends the warm-up and the
last one of the region. -/
def twoClients : List (NetEvent 2 1 fun _ => 1) :=
  let first : Fin 2 := ⟨0, Nat.two_pos⟩
  let second : Fin 2 := ⟨1, Nat.one_lt_two⟩
  let tid : Fin 1 := ⟨0, Nat.one_pos⟩
  let all : Fin 2 → Bool := fun _ => true
  [.check first tid, .startReq first tid 0, .startReq first tid 0, .startReq first tid 10,
    .check second tid, .startReq second tid 0, .startReq second tid 0, .startReq second tid 11,
    .arrive first tid 12, .send first tid, .arrive second tid 12, .send second tid,
    .recvReq tid first 14, .sendResp tid 15 true all,
    .recvReq tid second 16, .sendResp tid 18 true all,
    .recv first tid, .handle first tid 19, .recv first tid, .handle first tid 19,
    .check first tid, .startReq first tid 20, .arrive first tid 21, .send first tid,
    .recvReq tid first 22, .sendResp tid 25 true all, .recv first tid, .handle first tid 26,
    .recv first tid, .handle first tid 27, .recv second tid, .handle second tid 28,
    .recv second tid, .handle second tid 29, .recv second tid, .handle second tid 30]

def oneWarmup : NetworkConfig 2 := ⟨⟨2, 1⟩, fun _ => ⟨0⟩⟩

/-- What the two clients dump. -/
def twoDumps (client : Fin 2) : List Latency :=
  if client.val = 0 then [⟨1, 3, 3, 6⟩] else [⟨0, 16, 2, 18⟩]

theorem twoClients_dumped : ∃ net,
    run (step oneWarmup) (initial 2 1 fun _ => 1) twoClients = .ok net ∧
      ∀ client, (net.clients client).dumped = some (twoDumps client) :=
  ⟨_, rfl, Fin.forall_fin_two.mpr ⟨rfl, rfl⟩⟩

theorem twoClients_region : ∃ net,
    run (step oneWarmup) (initial 2 1 fun _ => 1) twoClients = .ok net ∧
      ∀ client, (twoDumps client).map Latency.id =
        (region net.log).filterMap (Sent.idTo client) := by
  obtain ⟨net, reached, isDumped⟩ := twoClients_dumped
  exact ⟨net, reached, fun client => dump_eq_region rfl oneWarmup twoClients twoClients
    (List.prefix_refl _) net reached _ (isDumped client)⟩

end Network

/-- The requests of one client among those of all. -/
def ofClient (client : Fin m) (served : List (Fin m × ℕ)) : List ℕ :=
  served.filterMap fun request => if request.1 = client then some request.2 else none

/-- Every request is one of exactly one client. -/
theorem sum_length_ofClient (served : List (Fin m × ℕ)) :
    ∑ client, (ofClient client served).length = served.length := by
  induction served with
  | nil => simp [ofClient]
  | cons request rest ih =>
      have split (client : Fin m) : (ofClient client (request :: rest)).length =
          (if request.1 = client then 1 else 0) + (ofClient client rest).length := by
        by_cases same : request.1 = client <;> simp [ofClient, same, Nat.add_comm]
      simp only [split]
      rw [Finset.sum_add_distrib, ih, Finset.sum_ite_eq, if_pos (Finset.mem_univ _),
        List.length_cons, Nat.add_comm]

theorem idTo_eq_ofClient (client : Fin m) (log : List (Sent m)) :
    log.filterMap (Sent.idTo client) = ofClient client (log.filterMap Sent.answer?) := by
  rw [ofClient, List.filterMap_filterMap]
  apply List.filterMap_congr
  intro entry _
  cases entry <;> rfl

/-- The message to finish comes after the last response of the region, if there is one. -/
theorem finish_mem_logFrom {config : ServerConfig} {number : ℕ} {served : List (Fin m × ℕ)}
    (ended : .finish ∈ logFrom config number served) :
    config.warmupReqs + config.maxReqs ≤ number + served.length ∧ 0 < config.maxReqs := by
  induction served generalizing number with
  | nil => cases ended
  | cons request rest ih =>
      rw [logFrom, List.mem_append, List.mem_cons] at ended
      rcases ended with (isAnswer | isAnnounced) | isLater
      · cases isAnswer
      · rw [announced] at isAnnounced
        split at isAnnounced
        · simp at isAnnounced
        · rename_i beginsNot
          split at isAnnounced
          · simp only [List.length_cons]
            omega
          · cases isAnnounced
      · have later := ih isLater
        simp only [List.length_cons]
        omega

/-- The region holds the responses after the warm-up, as many as were asked for. -/
theorem region_logFrom {config : ServerConfig} {served : List (Fin m × ℕ)}
    (some_warmup : 1 ≤ config.warmupReqs) (some_reqs : 0 < config.maxReqs)
    (enough : config.warmupReqs + config.maxReqs ≤ served.length) :
    (region (logFrom config 0 served)).filterMap Sent.answer? =
      (served.drop config.warmupReqs).take config.maxReqs := by
  obtain ⟨first, middle, later, rfl, isFirst, isMiddle⟩ : ∃ first middle later,
      served = first ++ (middle ++ later) ∧ first.length = config.warmupReqs ∧
        middle.length = config.maxReqs := by
    refine ⟨served.take config.warmupReqs, (served.drop config.warmupReqs).take config.maxReqs,
      (served.drop config.warmupReqs).drop config.maxReqs, ?_, ?_, ?_⟩
    · rw [List.take_append_drop, List.take_append_drop]
    · rw [List.length_take]
      omega
    · rw [List.length_take, List.length_drop]
      omega
  have ofFirst : logFrom config 0 first =
      first.map (fun request => .answer request.1 request.2) ++ [.roiBegin] := by
    rw [logFrom_phase (List.ne_nil_of_length_pos (by omega)) (by omega), Nat.zero_add, isFirst,
      announced, if_pos rfl]
  have ofMiddle : logFrom config config.warmupReqs middle =
      middle.map (fun request => .answer request.1 request.2) ++ [.finish] := by
    rw [logFrom_phase (List.ne_nil_of_length_pos (by omega)) (by omega), isMiddle, announced,
      if_neg (by omega), if_pos rfl]
  have isRegion : region (logFrom config 0 (first ++ (middle ++ later))) =
      .roiBegin :: middle.map (fun request => .answer request.1 request.2) := by
    rw [logFrom_append, logFrom_append, Nat.zero_add, isFirst, ofFirst, ofMiddle, region]
    simp only [List.append_assoc]
    have goesOn {test : Sent m → Bool} (always : ∀ client id, test (.answer client id) = true)
        (requests : List (Fin m × ℕ)) :
        ∀ entry ∈ requests.map fun request => Sent.answer request.1 request.2,
          test entry = true := by
      intro entry isEntry
      obtain ⟨request, -, rfl⟩ := List.mem_map.mp isEntry
      exact always request.1 request.2
    rw [List.takeWhile_append_of_pos (goesOn (by simp) first), List.singleton_append,
      List.takeWhile_cons_of_pos (by simp),
      List.takeWhile_append_of_pos (goesOn (by simp) middle),
      List.dropWhile_append_of_pos (goesOn (by simp) first), List.dropWhile_cons_of_neg (by simp)]
    simp
  have answered (requests : List (Fin m × ℕ)) :
      (requests.map fun request => Sent.answer request.1 request.2).filterMap Sent.answer? =
        requests := by
    rw [List.filterMap_map]
    exact List.filterMap_some
  rw [isRegion, List.filterMap_cons, answered, ← isFirst, List.drop_left, ← isMiddle,
    List.take_left]
  rfl

namespace Network

variable {config : NetworkConfig m} {net : Network m n k} {events : List (NetEvent m n k)}

theorem logged_along (noFinish : ∀ told, .finish told ∉ events)
    (reached : run (step config) (initial m n k) events = .ok net) : net.Logged config.server := by
  have along : AlongRun (step config) (initial m n k) events fun _ net =>
      net.Logged config.server := by
    have eachStep : AtEachStep (step config) (initial m n k) events fun _ _ event =>
        ∀ told, event ≠ .finish told := by
      rintro early event isPrefix net - told rfl
      exact noFinish told
        (isPrefix.subset (List.mem_append_right early (List.mem_singleton_self _)))
    refine alongRun_of_atEachStep ⟨[], rfl, rfl⟩ ?_ eachStep
    intro early net event next logged notFinish stepped
    exact logged_taken notFinish logged (step_taken stepped)
  exact along events (List.prefix_refl _) net reached

/-- Unless the application ends the run itself, the clients share the requests that were answered
after the warm-up: each dumps one record for every one of them that is its own, and together they
dump as many as were asked for. -/
theorem dumps_share_region (noFinish : ∀ told, .finish told ∉ events)
    (reached : run (step config) (initial m n k) events = .ok net)
    (some_warmup : 1 ≤ config.server.warmupReqs) (some_clients : 0 < m)
    (single : ∀ client, k client = 1) {dump : Fin m → List Latency}
    (isDumped : ∀ client, (net.clients client).dumped = some (dump client)) :
    (∀ client, (dump client).map Latency.id = ofClient client
      (((net.log.filterMap Sent.answer?).drop config.server.warmupReqs).take
        config.server.maxReqs)) ∧
      ∑ client, (dump client).length = config.server.maxReqs := by
  obtain ⟨served, isLog, -⟩ := logged_along noFinish reached
  have ended : .finish ∈ net.log := by
    let client : Fin m := ⟨0, some_clients⟩
    have recorded := recorded_along config events events (List.prefix_refl _) net reached client
    have followed := followed_along config events events (List.prefix_refl _) net reached client
    obtain ⟨-, before, -, isHandled⟩ := recorded.ended _ (isDumped client)
    have isSent := (followed.inOrder (single client)).subset
      (List.mem_map_of_mem (f := Reply.sent client) (a := .finish) (by rw [isHandled]; simp))
    exact List.mem_of_mem_filter isSent
  rw [isLog] at ended
  obtain ⟨enough, some_reqs⟩ := finish_mem_logFrom ended
  rw [Nat.zero_add] at enough
  have isRegion := region_logFrom some_warmup some_reqs enough
  have share (client : Fin m) : (dump client).map Latency.id = ofClient client
      ((served.drop config.server.warmupReqs).take config.server.maxReqs) := by
    rw [ids_of_dumped reached (single client) (isDumped client), idTo_eq_ofClient, isLog, isRegion]
  constructor
  · intro client
    rw [isLog, answer?_logFrom]
    exact share client
  · have sameLength (client : Fin m) : (dump client).length = (ofClient client
        ((served.drop config.server.warmupReqs).take config.server.maxReqs)).length := by
      rw [← share client, List.length_map]
    simp only [sameLength]
    rw [sum_length_ofClient, List.length_take, List.length_drop]
    omega

theorem twoClients_share : ∃ net,
    run (step oneWarmup) (initial 2 1 fun _ => 1) twoClients = .ok net ∧
      (∀ client, (twoDumps client).map Latency.id = ofClient client
        (((net.log.filterMap Sent.answer?).drop 1).take 2)) ∧
      ∑ client, (twoDumps client).length = 2 := by
  obtain ⟨net, reached, isDumped⟩ := twoClients_dumped
  have noFinish : ∀ told, NetEvent.finish told ∉ twoClients := by simp [twoClients]
  exact ⟨net, reached, dumps_share_region noFinish reached (by decide) (by decide)
    (fun _ => rfl) isDumped⟩

end Network

end Datamime.Harness
