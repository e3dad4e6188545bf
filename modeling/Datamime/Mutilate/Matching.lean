/-
# Responses and their requests

The operations in the queue are the last requests that were issued, and what has not been read are
the responses to the first of them. Every call of a connection keeps this. So each request is
finished once, in order, with its own response, and the counts of a connection are those of the
responses that it has read.
-/

import Datamime.Mutilate.Replies

namespace Datamime.Mutilate

open Datamime.Math

variable {π ρ T : Type} {prot : Protocol π}

/-! ## What the write machine does -/

namespace Connection

variable {conn next : Connection π T} {options : Options} {world : World T}

/-- `issue_get` or `issue_set`. -/
def issue (prot : Protocol π) (conn : Connection π T) (request : Request) : Connection π T :=
  (conn.push request (waitingFor request.op.type)).send (prot.send conn.protocol request)

theorem issueGet_eq (conn : Connection π T) (key : List Char) :
    conn.issueGet prot key = conn.issue prot (.get key) := rfl

theorem issueSet_eq (conn : Connection π T) (key value : List Char) :
    conn.issueSet prot key value = conn.issue prot (.set key value) := rfl

theorem issueSomething_eq (conn : Connection π T) :
    conn.issueSomething prot world =
      issue prot { conn with requests := conn.requests + 1 } (world.request conn.requests) := by
  rw [issueSomething]
  cases world.request conn.requests <;> rfl

/-- Issuing changes how much was sent and nothing else of the counts. -/
theorem issue_stats (prot : Protocol π) (conn : Connection π T) (request : Request) :
    { (conn.issue prot request).stats with txBytes := conn.stats.txBytes } = conn.stats := by
  unfold issue send
  dsimp only
  split <;> rfl

/-- Connections that differ in what only the write machine uses. -/
structure Retimed (conn next : Connection π T) : Prop where
  protocol : next.protocol = conn.protocol
  readState : next.readState = conn.readState
  loaderIssued : next.loaderIssued = conn.loaderIssued
  loaderCompleted : next.loaderCompleted = conn.loaderCompleted
  opQueue : next.opQueue = conn.opQueue
  input : next.input = conn.input
  output : next.output = conn.output
  issued : next.issued = conn.issued
  logged : next.logged = conn.logged
  stats : { next.stats with skips := conn.stats.skips } = conn.stats

/-- What the write machine does: it issues requests as long as the queue has room. -/
inductive Driven (prot : Protocol π) (options : Options) :
    Connection π T → Connection π T → Prop
  | retimed {first second} (same : Retimed first second) : Driven prot options first second
  | issue {first} (request : Request) (hasRoom : first.opQueue.length < options.depth) :
      Driven prot options first (first.issue prot request)
  | trans {first second third} (early : Driven prot options first second)
      (later : Driven prot options second third) : Driven prot options first third

section

variable [LinearOrder T] [Add T] [Sub T] [OfScientific T]

theorem retimed_skipLoop {now : T} {turns : ℕ}
    (returned : conn.skipLoop world now turns = .ok next) : Retimed conn next := by
  induction turns generalizing conn with
  | zero => cases returned
  | succ turns ih =>
      rw [skipLoop] at returned
      split at returned
      · have later := ih returned
        exact ⟨later.protocol, later.readState, later.loaderIssued, later.loaderCompleted,
          later.opQueue, later.input, later.output, later.issued, later.logged, by
            have same := later.stats
            simp only [advance] at same
            rw [ConnectionStats.mk.injEq] at same
            rw [ConnectionStats.mk.injEq]
            exact ⟨same.1, same.2.1, same.2.2.1, same.2.2.2.1, same.2.2.2.2.1, rfl⟩⟩
      · cases returned
        exact ⟨rfl, rfl, rfl, rfl, rfl, rfl, rfl, rfl, rfl, rfl⟩

theorem driven_issueNext {now : T} (hasRoom : conn.opQueue.length < options.depth)
    (returned : conn.issueNext prot options world now = .ok next) :
    Driven prot options conn next := by
  have drawn : Driven prot options conn { conn with requests := conn.requests + 1 } :=
    .retimed ⟨rfl, rfl, rfl, rfl, rfl, rfl, rfl, rfl, rfl, rfl⟩
  have issued : Driven prot options { conn with requests := conn.requests + 1 }
      (conn.issueSomething prot world) := by
    rw [issueSomething_eq]
    exact .issue _ hasRoom
  have advanced : Driven prot options (conn.issueSomething prot world)
      ((conn.issueSomething prot world).advance world) :=
    .retimed ⟨rfl, rfl, rfl, rfl, rfl, rfl, rfl, rfl, rfl, rfl⟩
  have before := (drawn.trans issued).trans advanced
  unfold issueNext at returned
  dsimp only at returned
  split at returned
  · exact before.trans (.retimed (retimed_skipLoop returned))
  · cases returned
    exact before

theorem driven_writeTurn {now : T} {isOver : Bool}
    (returned : conn.writeTurn prot options world now = .ok (next, isOver)) :
    Driven prot options conn next := by
  rw [writeTurn] at returned
  cases isState : conn.writeState with
  | INIT_WRITE =>
      rw [isState] at returned
      cases returned
      exact .retimed ⟨rfl, rfl, rfl, rfl, rfl, rfl, rfl, rfl, rfl, rfl⟩
  | ISSUING =>
      simp only [isState] at returned
      split at returned
      · cases returned
        exact .retimed ⟨rfl, rfl, rfl, rfl, rfl, rfl, rfl, rfl, rfl, rfl⟩
      · rename_i hasRoom
        split at returned
        · cases returned
          exact .retimed ⟨rfl, rfl, rfl, rfl, rfl, rfl, rfl, rfl, rfl, rfl⟩
        · split at returned
          · cases returned
            exact .retimed ⟨rfl, rfl, rfl, rfl, rfl, rfl, rfl, rfl, rfl, rfl⟩
          · obtain ⟨issued, isIssued, returned⟩ := bind_eq_ok_iff.mp returned
            cases returned
            exact driven_issueNext (not_le.mp hasRoom) isIssued
  | WAITING_FOR_TIME =>
      simp only [isState] at returned
      split at returned <;>
      · cases returned
        exact .retimed ⟨rfl, rfl, rfl, rfl, rfl, rfl, rfl, rfl, rfl, rfl⟩
  | WAITING_FOR_OPQ =>
      simp only [isState] at returned
      split at returned <;>
      · cases returned
        exact .retimed ⟨rfl, rfl, rfl, rfl, rfl, rfl, rfl, rfl, rfl, rfl⟩

theorem driven_driveWriteMachine
    (returned : conn.driveWriteMachine prot options world = .ok next) :
    Driven prot options conn next := by
  have reading : Driven prot options conn { conn with readings := conn.readings + 1 } :=
    .retimed ⟨rfl, rfl, rfl, rfl, rfl, rfl, rfl, rfl, rfl, rfl⟩
  unfold driveWriteMachine at returned
  dsimp only at returned
  split at returned
  · cases returned
    exact reading
  · exact reading.trans (loop_related driven_writeTurn .trans returned)

end

/-- What retiming and issuing keep, the write machine keeps. -/
theorem Driven.keeps (good : Connection π T → Prop) (driven : Driven prot options conn next)
    (retimed : ∀ conn next, good conn → Retimed conn next → good next)
    (issue : ∀ conn request, good conn → conn.opQueue.length < options.depth →
      good (conn.issue prot request)) (start_good : good conn) : good next := by
  induction driven with
  | retimed same => exact retimed _ _ start_good same
  | issue request hasRoom => exact issue _ request start_good hasRoom
  | trans _ _ early later => exact later (early start_good)

end Connection

/-! ## What has not been read -/

theorem Protocol.Reads.keeps {type : OpType} {st next : π} {bytes : List Char} {rxBytes : ℤ}
    {getMisses : ℕ} (reads : prot.Reads type st bytes next rxBytes getMisses)
    (request : Request) : (prot.send st request).1 = st := by
  cases reads with
  | last takes _ => exact takes.keeps request
  | part takes _ => exact takes.keeps request

theorem Protocol.Stream.eq_of_nil {st last : π} {stream : List Char} {rxBytes : ℤ} {getMisses : ℕ}
    (isStream : prot.Stream st [] stream last rxBytes getMisses) :
    stream = [] ∧ last = st ∧ rxBytes = 0 ∧ getMisses = 0 := by
  cases isStream
  exact ⟨rfl, rfl, rfl, rfl⟩

/-- The part that is read next belongs to the first response. It is the last part of it, or the
response goes on. -/
theorem Protocol.Stream.front {type : OpType} {types : List OpType} {st last : π}
    {stream : List Char} {rxBytes : ℤ} {getMisses : ℕ}
    (isStream : prot.Stream st (type :: types) stream last rxBytes getMisses) :
    ∃ bytes next rxPart missesPart done later rxLater missesLater,
      prot.Takes st bytes next rxPart missesPart done ∧ stream = bytes ++ later ∧
      rxBytes = rxPart + rxLater ∧ getMisses = missesPart + missesLater ∧
      (type = .GET ∧ done = false ∧
          prot.Stream next (type :: types) later last rxLater missesLater ∨
        (type = .GET → done = true) ∧
          prot.Stream next types later last rxLater missesLater) := by
  cases isStream with
  | cons reads later =>
      cases reads with
      | last takes isDone =>
          exact ⟨_, _, _, _, _, _, _, _, takes, rfl, rfl, rfl, .inr ⟨isDone, later⟩⟩
      | part takes reads =>
          exact ⟨_, _, _, _, _, _, _, _, takes, List.append_assoc _ _ _, add_assoc _ _ _,
            add_assoc _ _ _, .inl ⟨rfl, rfl, .cons reads later⟩⟩

/-- No request changes a protocol that waits for a response. -/
theorem Codec.stream_keeps {codec : Codec prot ρ} {st last : π} {types : List OpType}
    {stream : List Char} {rxBytes : ℤ} {getMisses : ℕ}
    (isStream : prot.Stream st types stream last rxBytes getMisses)
    (prepared : codec.Prepared last) (request : Request) : (prot.send st request).1 = st := by
  cases isStream with
  | nil => exact codec.keeps st prepared request
  | cons reads _ => exact reads.keeps request

namespace Session

/-- Elements without a partner do not count. -/
theorem zip_append_of_length_le {α β : Type} {front back : List α} {partners : List β}
    (enough : partners.length ≤ front.length) :
    (front ++ back).zip partners = front.zip partners := by
  induction front generalizing partners with
  | nil =>
      have none_left := List.length_eq_zero_iff.mp (Nat.le_zero.mp enough)
      rw [none_left, List.zip_nil_right, List.zip_nil_right]
  | cons element front ih =>
      cases partners with
      | nil => rfl
      | cons partner partners =>
          rw [List.cons_append, List.zip_cons_cons, List.zip_cons_cons,
            ih (Nat.le_of_succ_le_succ enough)]

/-- The next element has found its partner. -/
theorem zip_concat {α β : Type} {elements : List α} {partners : List β} {element : α}
    (isNext : elements[partners.length]? = some element) (partner : β) :
    elements.zip (partners ++ [partner]) = elements.zip partners ++ [(element, partner)] := by
  induction partners generalizing elements with
  | nil =>
      obtain ⟨rest, rfl⟩ : ∃ rest, elements = element :: rest := by
        cases elements with
        | nil => cases isNext
        | cons first rest =>
            cases isNext
            exact ⟨rest, rfl⟩
      rw [List.nil_append, List.zip_nil_right, List.zip_cons_cons, List.zip_nil_right,
        List.nil_append]
  | cons first partners ih =>
      cases elements with
      | nil => cases isNext
      | cons other elements =>
          rw [List.cons_append, List.zip_cons_cons, List.zip_cons_cons, ih isNext,
            List.cons_append]

/-- The answers of the server, each with the type of its request. -/
def answers (session : Session π ρ T) : List (OpType × ρ) :=
  (session.conn.issued.map (·.op.type)).zip session.replies

/-- The requests of a session are the finished ones and the queued ones, and its responses are those
that have been read and those that have not. -/
structure Follows (codec : Codec prot ρ) (session : Session π ρ T) (finished queued : List Request)
    (isRead unread : List ρ) : Prop where
  issued : session.conn.issued = finished ++ queued
  replies : session.replies = isRead ++ unread
  opQueue : session.conn.opQueue = queued.map Request.op
  read_length : isRead.length = finished.length
  unread_length : unread.length ≤ queued.length
  settled : session.settled ≤ finished.length
  fit : ∀ pair ∈ session.answers, codec.fits pair.1 pair.2 = true
  output : session.conn.output = (session.conn.issued.map codec.request).flatten
  stream : ∃ rxBytes getMisses,
    prot.Stream session.conn.protocol ((queued.take unread.length).map (·.op.type))
      (session.conn.input ++ session.wire)
      (codec.afterAll (codec.origin session.conn.issued) session.answers) rxBytes getMisses ∧
    session.conn.stats.rxBytes + rxBytes =
      ((session.replies.drop session.settled).map codec.rxBytes).sum ∧
    session.conn.stats.getMisses + getMisses +
        codec.missesOf (codec.origin session.conn.issued)
          (session.answers.take session.settled) =
      codec.missesOf (codec.origin session.conn.issued) session.answers

namespace Follows

variable {codec : Codec prot ρ} {session : Session π ρ T} {finished queued : List Request}
  {isRead unread : List ρ}

theorem initial [OfScientific T] :
    Follows codec (Session.initial codec : Session π ρ T) [] [] [] [] where
  issued := rfl
  replies := rfl
  opQueue := rfl
  read_length := rfl
  unread_length := le_rfl
  settled := le_rfl
  fit := by
    intro pair isMember
    cases isMember
  output := rfl
  stream := ⟨0, 0, .nil, rfl, rfl⟩

/-- Connections that agree on what is sent and received. -/
theorem congr (follows : Follows codec session finished queued isRead unread)
    {conn : Connection π T} (protocol : conn.protocol = session.conn.protocol)
    (opQueue : conn.opQueue = session.conn.opQueue) (input : conn.input = session.conn.input)
    (output : conn.output = session.conn.output) (issued : conn.issued = session.conn.issued)
    (rxBytes : conn.stats.rxBytes = session.conn.stats.rxBytes)
    (getMisses : conn.stats.getMisses = session.conn.stats.getMisses) :
    Follows codec { session with conn } finished queued isRead unread := by
  have sameAnswers : ({ session with conn } : Session π ρ T).answers = session.answers := by
    rw [answers, answers, issued]
  refine ⟨issued.trans follows.issued, follows.replies, opQueue.trans follows.opQueue,
    follows.read_length, follows.unread_length, follows.settled, ?_, ?_, ?_⟩
  · rw [sameAnswers]
    exact follows.fit
  · rw [output, issued]
    exact follows.output
  · rw [sameAnswers, protocol, input, issued, rxBytes, getMisses]
    exact follows.stream

theorem retimed (follows : Follows codec session finished queued isRead unread)
    {conn : Connection π T} (same : Connection.Retimed session.conn conn) :
    Follows codec { session with conn } finished queued isRead unread := by
  have rxBytes := congrArg ConnectionStats.rxBytes same.stats
  have getMisses := congrArg ConnectionStats.getMisses same.stats
  exact follows.congr same.protocol same.opQueue same.input same.output same.issued rxBytes
    getMisses

theorem replies_length_le (follows : Follows codec session finished queued isRead unread) :
    session.replies.length ≤ session.conn.issued.length := by
  have unread_length := follows.unread_length
  have read_length := follows.read_length
  rw [follows.issued, follows.replies, List.length_append, List.length_append]
  omega

theorem settled_le_replies (follows : Follows codec session finished queued isRead unread) :
    session.settled ≤ session.replies.length := by
  have read_length := follows.read_length
  have settled := follows.settled
  rw [follows.replies, List.length_append]
  omega

theorem answers_length (follows : Follows codec session finished queued isRead unread) :
    session.answers.length = session.replies.length := by
  rw [answers, List.length_zip, List.length_map]
  exact min_eq_right follows.replies_length_le

/-- The last protocol is prepared, unless nothing has been issued. -/
theorem prepared (follows : Follows codec session finished queued isRead unread)
    (some_issued : session.conn.issued ≠ []) :
    codec.Prepared (codec.afterAll (codec.origin session.conn.issued) session.answers) :=
  codec.prepared_afterAll (codec.prepared_origin some_issued) follows.fit

theorem origin_issue {issued : List Request} (some_issued : issued ≠ []) (request : Request) :
    codec.origin (issued ++ [request]) = codec.origin issued := by
  obtain ⟨first, rest, isIssued⟩ := List.exists_cons_of_ne_nil some_issued
  rw [isIssued]
  rfl

theorem answers_of_none_issued (none_issued : session.conn.issued = []) : session.answers = [] := by
  rw [answers, none_issued]
  rfl

/-- The first request prepares the protocol, and the later ones leave it as it is. -/
theorem issue_stream (follows : Follows codec session finished queued isRead unread)
    (request : Request) {rxBytes : ℤ} {getMisses : ℕ}
    (isStream : prot.Stream session.conn.protocol
      ((queued.take unread.length).map (·.op.type)) (session.conn.input ++ session.wire)
      (codec.afterAll (codec.origin session.conn.issued) session.answers) rxBytes getMisses) :
    prot.Stream (prot.send session.conn.protocol request).1
      ((queued.take unread.length).map (·.op.type)) (session.conn.input ++ session.wire)
      (codec.afterAll (codec.origin (session.conn.issued ++ [request])) session.answers)
      rxBytes getMisses := by
  by_cases none_issued : session.conn.issued = []
  · have none_queued : queued = [] := (List.append_eq_nil_iff.mp
      (follows.issued.symm.trans none_issued)).2
    have no_answers := answers_of_none_issued none_issued
    rw [none_queued, List.take_nil, List.map_nil] at isStream ⊢
    obtain ⟨isRead, isStart, rfl, rfl⟩ := isStream.eq_of_nil
    rw [none_issued, no_answers] at isStart
    rw [isRead, no_answers, none_issued, ← isStart]
    change prot.Stream (prot.send codec.start request).1 [] [] (codec.first request.op.type) 0 0
    rw [codec.send_start]
    exact .nil
  · rw [origin_issue none_issued, codec.stream_keeps isStream (follows.prepared none_issued)]
    exact isStream

/-- A request is issued behind the others. -/
theorem issue (follows : Follows codec session finished queued isRead unread) (request : Request) :
    Follows codec { session with conn := session.conn.issue prot request } finished
      (queued ++ [request]) isRead unread := by
  have issued : session.conn.issued ++ [request] = finished ++ (queued ++ [request]) := by
    rw [follows.issued, List.append_assoc]
  have enough : session.replies.length ≤ (session.conn.issued.map (·.op.type)).length := by
    rw [List.length_map]
    exact follows.replies_length_le
  have sameAnswers :
      ({ session with conn := session.conn.issue prot request } : Session π ρ T).answers =
        session.answers := by
    have grown : (session.conn.issued ++ [request]).map (·.op.type) =
        session.conn.issued.map (·.op.type) ++ [request.op.type] := by simp
    change ((session.conn.issued ++ [request]).map _).zip session.replies = _
    rw [grown, zip_append_of_length_le enough]
    rfl
  refine ⟨issued, follows.replies, ?_, follows.read_length, ?_, follows.settled, ?_, ?_, ?_⟩
  · change session.conn.opQueue ++ [request.op] = _
    rw [follows.opQueue]
    simp
  · have unread_length := follows.unread_length
    simp only [List.length_append, List.length_cons, List.length_nil]
    omega
  · rw [sameAnswers]
    exact follows.fit
  · change session.conn.output ++ (prot.send session.conn.protocol request).2.1 =
      ((session.conn.issued ++ [request]).map codec.request).flatten
    rw [codec.send_bytes, follows.output]
    simp
  · rw [sameAnswers]
    obtain ⟨rxBytes, getMisses, isStream, countsBytes, countsMisses⟩ := follows.stream
    have sameBytes := congrArg ConnectionStats.rxBytes
      (Connection.issue_stats prot session.conn request)
    have sameMisses := congrArg ConnectionStats.getMisses
      (Connection.issue_stats prot session.conn request)
    refine ⟨rxBytes, getMisses, ?_, ?_, ?_⟩
    · change prot.Stream (prot.send session.conn.protocol request).1
        (((queued ++ [request]).take unread.length).map (·.op.type))
        (session.conn.input ++ session.wire)
        (codec.afterAll (codec.origin (session.conn.issued ++ [request])) session.answers)
        rxBytes getMisses
      rw [List.take_append_of_le_length follows.unread_length]
      exact follows.issue_stream request isStream
    · exact (congrArg (· + rxBytes) sameBytes).trans countsBytes
    · change (session.conn.issue prot request).stats.getMisses + getMisses +
          codec.missesOf (codec.origin (session.conn.issued ++ [request]))
            (session.answers.take session.settled) =
        codec.missesOf (codec.origin (session.conn.issued ++ [request])) session.answers
      by_cases none_issued : session.conn.issued = []
      · have no_answers := answers_of_none_issued none_issued
        rw [no_answers, List.take_nil] at countsMisses ⊢
        exact (congrArg (· + getMisses + 0) sameMisses).trans countsMisses
      · rw [origin_issue none_issued, ← countsMisses]
        exact congrArg (· + getMisses + _) sameMisses

/-- The server answers the next request. -/
theorem answer (follows : Follows codec session finished queued isRead unread) {request : Request}
    (isNext : session.conn.issued[session.replies.length]? = some request) {reply : ρ}
    (fits : codec.fits request.op.type reply = true) :
    Follows codec { session with
      wire := session.wire ++ codec.encode reply
      replies := session.replies ++ [reply] } finished queued isRead (unread ++ [reply]) := by
  have nextQueued : queued[unread.length]? = some request := by
    rw [follows.issued, follows.replies, List.length_append, follows.read_length,
      List.getElem?_append_right (Nat.le_add_right _ _), Nat.add_sub_cancel_left] at isNext
    exact isNext
  obtain ⟨inQueue, -⟩ := List.getElem?_eq_some_iff.mp nextQueued
  have takesNext : queued.take (unread ++ [reply]).length =
      queued.take unread.length ++ [request] := by
    rw [List.length_append, List.length_singleton, List.take_add_one, nextQueued]
    rfl
  have grown : ({ session with
      wire := session.wire ++ codec.encode reply
      replies := session.replies ++ [reply] } : Session π ρ T).answers =
        session.answers ++ [(request.op.type, reply)] := by
    refine zip_concat ?_ reply
    rw [List.getElem?_map, isNext]
    rfl
  have some_issued : session.conn.issued ≠ [] := by
    intro none_issued
    rw [none_issued] at isNext
    cases isNext
  refine ⟨follows.issued, ?_, follows.opQueue, follows.read_length, ?_, follows.settled, ?_,
    follows.output, ?_⟩
  · change session.replies ++ [reply] = _
    rw [follows.replies, List.append_assoc]
  · rw [List.length_append]
    exact inQueue
  · rw [grown]
    intro pair isPair
    rcases List.mem_append.mp isPair with isEarlier | isLast
    · exact follows.fit pair isEarlier
    · rw [List.mem_singleton.mp isLast]
      exact fits
  · obtain ⟨rxBytes, getMisses, isStream, countsBytes, countsMisses⟩ := follows.stream
    have longer : prot.Stream session.conn.protocol
        ((queued.take (unread ++ [reply]).length).map (·.op.type))
        (session.conn.input ++ (session.wire ++ codec.encode reply))
        (codec.afterAll (codec.origin session.conn.issued)
          (session.answers ++ [(request.op.type, reply)]))
        (rxBytes + codec.rxBytes reply)
        (getMisses + codec.getMisses
          (codec.afterAll (codec.origin session.conn.issued) session.answers) reply) := by
      rw [takesNext, List.map_append, ← List.append_assoc, codec.afterAll_append]
      exact codec.answer isStream (follows.prepared some_issued) fits
    rw [grown]
    refine ⟨_, _, longer, ?_, ?_⟩
    · change session.conn.stats.rxBytes + (rxBytes + codec.rxBytes reply) =
        (((session.replies ++ [reply]).drop session.settled).map codec.rxBytes).sum
      rw [List.drop_append_of_le_length follows.settled_le_replies, List.map_append,
        List.sum_append, ← countsBytes, ← add_assoc]
      simp
    · have settled_le : session.settled ≤ session.answers.length := by
        rw [follows.answers_length]
        exact follows.settled_le_replies
      change session.conn.stats.getMisses + (getMisses + codec.getMisses _ reply) +
          codec.missesOf (codec.origin session.conn.issued)
            ((session.answers ++ [(request.op.type, reply)]).take session.settled) =
        codec.missesOf (codec.origin session.conn.issued)
          (session.answers ++ [(request.op.type, reply)])
      rw [List.take_append_of_le_length settled_le, codec.missesOf_append, ← countsMisses]
      simp only [Codec.missesOf]
      omega

theorem queued_eq_nil (follows : Follows codec session finished queued isRead unread)
    (none_queued : session.conn.opQueue = []) : queued = [] := by
  have isOpQueue := follows.opQueue
  rw [none_queued] at isOpQueue
  exact List.map_eq_nil_iff.mp isOpQueue.symm

theorem unread_eq_nil (follows : Follows codec session finished queued isRead unread)
    (none_queued : session.conn.opQueue = []) : unread = [] := by
  have unread_length := follows.unread_length
  rw [follows.queued_eq_nil none_queued] at unread_length
  exact List.length_eq_zero_iff.mp (Nat.le_zero.mp unread_length)

theorem issued_ne_nil (follows : Follows codec session finished queued isRead unread)
    (some_queued : session.conn.opQueue ≠ []) : session.conn.issued ≠ [] := by
  intro none_issued
  have none_queued := (List.append_eq_nil_iff.mp (follows.issued.symm.trans none_issued)).2
  have isOpQueue := follows.opQueue
  rw [none_queued] at isOpQueue
  exact some_queued isOpQueue

/-- While nothing is unread, nothing is on its way. -/
theorem nothing_unread (follows : Follows codec session finished queued isRead []) :
    session.conn.input = [] ∧ session.wire = [] := by
  obtain ⟨_, _, isStream, -, -⟩ := follows.stream
  exact List.append_eq_nil_iff.mp isStream.eq_of_nil.1

/-- While nothing is unread, nothing can be taken. -/
theorem waits_of_none_unread (follows : Follows codec session finished queued isRead [])
    (some_issued : session.conn.issued ≠ []) :
    prot.handleResponse session.conn.protocol session.conn.input = .ok none := by
  obtain ⟨_, _, isStream, -, -⟩ := follows.stream
  have prepared := follows.prepared some_issued
  rw [isStream.eq_of_nil.2.1] at prepared
  rw [follows.nothing_unread.1]
  exact codec.waits _ prepared

/-- What `handle_response` finds: too little, a part of the response to the first request in the
queue, or the end of that response. -/
theorem handles {request : Request} {later : List Request}
    (follows : Follows codec session finished (request :: later) isRead unread) :
    session.conn.handleResponse prot = .ok none ∨
    ∃ response, session.conn.handleResponse prot = .ok (some response) ∧
      response.rest.length < session.conn.input.length ∧
      (request.op.type = .GET ∧ response.done = false ∧
          Follows codec { session with conn := session.conn.take response }
            finished (request :: later) isRead unread ∨
        (request.op.type = .GET → response.done = true) ∧ ∃ reply unreadLater,
          Follows codec { session with conn :=
            { session.conn.take response with opQueue := later.map Request.op } }
            (finished ++ [request]) later (isRead ++ [reply]) unreadLater) := by
  have some_queued : session.conn.opQueue ≠ [] := by
    rw [follows.opQueue]
    exact List.cons_ne_nil _ _
  have some_issued := follows.issued_ne_nil some_queued
  have isHandled {response?} (taken : prot.handleResponse session.conn.protocol
      session.conn.input = .ok response?) :
      session.conn.handleResponse prot = .ok response? := by
    rw [Connection.handleResponse, if_neg some_queued, taken]
  cases unread with
  | nil => exact .inl (isHandled (follows.waits_of_none_unread some_issued))
  | cons reply unread =>
      obtain ⟨rxBytes, getMisses, isStream, countsBytes, countsMisses⟩ := follows.stream
      obtain ⟨bytes, next, rxPart, missesPart, done, stream, rxLater, missesLater, takes, isNext,
        rfl, rfl, isFront⟩ := isStream.front
      rcases takes.arrived_or_waits isNext with ⟨rest, isInput, isRest, taken⟩ | waits
      · have shorter : rest.length < session.conn.input.length := by
          rw [isInput, List.length_append]
          exact Nat.lt_add_of_pos_left (List.length_pos_iff.mpr takes.someBytes)
        have countsLater : session.conn.stats.rxBytes + rxPart + rxLater =
            ((session.replies.drop session.settled).map codec.rxBytes).sum := by
          rw [add_assoc]
          exact countsBytes
        have missesLater_eq : session.conn.stats.getMisses + missesPart + missesLater +
            codec.missesOf (codec.origin session.conn.issued)
              (session.answers.take session.settled) =
            codec.missesOf (codec.origin session.conn.issued) session.answers := by
          rw [Nat.add_assoc session.conn.stats.getMisses]
          exact countsMisses
        refine .inr ⟨⟨next, rest, rxPart, missesPart, done⟩, isHandled taken, shorter, ?_⟩
        rcases isFront with ⟨isGet, isPart, unreadStream⟩ | ⟨isDone, unreadStream⟩
        · rw [← isRest] at unreadStream
          exact .inl ⟨isGet, isPart, follows.issued, follows.replies, follows.opQueue,
            follows.read_length, follows.unread_length, follows.settled, follows.fit,
            follows.output, rxLater, missesLater, unreadStream, countsLater, missesLater_eq⟩
        · rw [← isRest] at unreadStream
          refine .inr ⟨isDone, reply, unread, ?_, ?_, rfl, ?_, ?_, ?_, follows.fit,
            follows.output, rxLater, missesLater, unreadStream, countsLater, missesLater_eq⟩
          · exact follows.issued.trans (List.append_cons finished request later)
          · exact follows.replies.trans (List.append_cons isRead reply unread)
          · rw [List.length_append, List.length_append, follows.read_length]
            rfl
          · exact Nat.le_of_succ_le_succ follows.unread_length
          · rw [List.length_append]
            exact Nat.le_add_right_of_le follows.settled
      · exact .inl (isHandled waits)

/-- A piece of what is on its way arrives. -/
theorem arrive (follows : Follows codec session finished queued isRead unread) (count : ℕ) :
    Follows codec { session with
      conn := { session.conn with input := session.conn.input ++ session.wire.take count }
      wire := session.wire.drop count } finished queued isRead unread := by
  obtain ⟨rxBytes, getMisses, isStream, counts⟩ := follows.stream
  refine ⟨follows.issued, follows.replies, follows.opQueue, follows.read_length,
    follows.unread_length, follows.settled, follows.fit, follows.output, rxBytes, getMisses, ?_,
    counts⟩
  change prot.Stream session.conn.protocol _
    (session.conn.input ++ session.wire.take count ++ session.wire.drop count) _ rxBytes getMisses
  rw [List.append_assoc, List.take_append_drop]
  exact isStream

/-- A start changes nothing of this. -/
theorem restart (follows : Follows codec session finished queued isRead unread) (started : ℕ) :
    Follows codec { session with started } finished queued isRead unread :=
  ⟨follows.issued, follows.replies, follows.opQueue, follows.read_length, follows.unread_length,
    follows.settled, follows.fit, follows.output, follows.stream⟩

/-- An idle connection is reset. -/
theorem reset (follows : Follows codec session finished queued isRead unread)
    (idle : session.conn.opQueue = []) :
    Follows codec { session with
      conn := { session.conn with
        timer := false
        readState := .IDLE
        writeState := .INIT_WRITE
        stats := .initial
        logged := [] }
      settled := session.replies.length } finished [] isRead [] := by
  have none_queued := follows.queued_eq_nil idle
  have none_unread := follows.unread_eq_nil idle
  subst none_queued
  subst none_unread
  obtain ⟨rxBytes, getMisses, isStream, -, -⟩ := follows.stream
  obtain ⟨-, -, rfl, rfl⟩ := isStream.eq_of_nil
  refine ⟨follows.issued, follows.replies, follows.opQueue, follows.read_length, le_rfl, ?_,
    follows.fit, follows.output, 0, 0, isStream, ?_, ?_⟩
  · rw [follows.replies, List.append_nil]
    exact follows.read_length.le
  · change (0 : ℤ) + 0 = ((session.replies.drop session.replies.length).map codec.rxBytes).sum
    rw [List.drop_length]
    rfl
  · change 0 + 0 + codec.missesOf (codec.origin session.conn.issued)
      (session.answers.take session.replies.length) = _
    rw [← follows.answers_length, List.take_length, Nat.zero_add]
    rfl

end Follows

end Session

end Datamime.Mutilate
