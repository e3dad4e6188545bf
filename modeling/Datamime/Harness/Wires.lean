/-
# The networked harness in bytes

The two queues of a connection are streams of bytes. A sender hands the in-memory form of its
message to `sendfull`, which may send a part of it, and a receiver reads the header and the data
with `recvfull`, which may fall short or take too much. A process that reads something else than a
whole message ends, or a thread of it does, or the server drops the client. A step of this model is
one locked section, one reading of the clock, or all calls on a socket for one message.
-/

import Datamime.Harness.Alignment
import Datamime.Harness.Networked

namespace Datamime.Harness

open Datamime.Math

/-! ## Whole reads -/

/-- What the header of a message from the server tells, unless its type is unknown. -/
def replyOf (header : List UInt8) : Option Reply :=
  let type := Bytes.ofBytes (Bytes.field header 0 4)
  if type = ResponseType.RESPONSE.code then
    some (.response (Bytes.ofBytes (Bytes.field header 8 8))
      (Bytes.ofBytes (Bytes.field header 16 8)))
  else if type = ResponseType.ROI_BEGIN.code then some .roiBegin
  else if type = ResponseType.FINISH.code then some .finish
  else none

/-- The message that a response is. -/
def Response.reply (resp : Response) : Reply :=
  match resp.type with
  | .RESPONSE => .response resp.id.toNat resp.svcNs.toNat
  | .ROI_BEGIN => .roiBegin
  | .FINISH => .finish

section

variable {req : Request} {resp : Response} {rest : List UInt8} {queued : ℕ → Option ℕ+}

theorem Response.id_header (resp : Response) :
    Bytes.ofBytes (Bytes.field resp.header 8 8) = resp.id.toNat := by
  have shape : resp.header = (Bytes.toBytes 4 resp.type.code ++ Bytes.toBytes 4 0) ++
      (Bytes.toBytes 8 resp.id.toNat ++
        (Bytes.toBytes 8 resp.svcNs.toNat ++ Bytes.toBytes 8 resp.data.length)) := by
    rw [header, List.append_assoc]
  rw [shape, Bytes.field_append (by simp) (by simp), Bytes.ofBytes_toBytes resp.id.toNat_lt]

theorem Response.svcNs_header (resp : Response) :
    Bytes.ofBytes (Bytes.field resp.header 16 8) = resp.svcNs.toNat := by
  have shape : resp.header = (Bytes.toBytes 4 resp.type.code ++ (Bytes.toBytes 4 0 ++
      Bytes.toBytes 8 resp.id.toNat)) ++
        (Bytes.toBytes 8 resp.svcNs.toNat ++ Bytes.toBytes 8 resp.data.length) := by
    simp only [header, List.append_assoc]
  rw [shape, Bytes.field_append (by simp) (by simp), Bytes.ofBytes_toBytes resp.svcNs.toNat_lt]

/-- The header tells what the message is. -/
theorem replyOf_header (resp : Response) : replyOf resp.header = some resp.reply := by
  rw [replyOf, resp.type_header, resp.id_header, resp.svcNs_header, Response.reply]
  cases resp.type <;> rfl

/-- A first read that returns the length of a part took that part. -/
theorem recvfull_part {part rest : List UInt8} {queued : ℕ → Option ℕ+}
    (whole : (recvfull ⟨part ++ rest, queued⟩ part.length).1 = part.length) :
    (recvfull ⟨part ++ rest, queued⟩ part.length).2.1 = part ∧
      (recvfull ⟨part ++ rest, queued⟩ part.length).2.2.unread = rest := by
  obtain ⟨kept, isLength⟩ := taken_of_recvfull whole
  exact List.append_inj kept isLength

/-- A turn that finds a request found the first one of the stream and took no more. -/
theorem recvReq_whole {header data : List UInt8}
    (found : (recvReq ⟨req.wire ++ rest, queued⟩).1 = .request header data) :
    header = req.header ∧ (recvReq ⟨req.wire ++ rest, queued⟩).2.unread = rest := by
  rw [Request.wire, List.append_assoc] at found ⊢
  have first := @recvfull_part req.header (req.data ++ rest) queued
  rw [req.length_header] at first
  by_cases isFull : (recvfull ⟨req.header ++ (req.data ++ rest), queued⟩ requestHeaderSize).1 =
      requestHeaderSize
  · obtain ⟨isHeader, left⟩ := first isFull
    generalize isRead : recvfull ⟨req.header ++ (req.data ++ rest), queued⟩ requestHeaderSize = read
      at isFull isHeader left
    obtain ⟨recvd, bytes, afterHeader⟩ := read
    dsimp only at isFull isHeader left
    subst isHeader
    rw [isFull] at isRead
    rw [recvReq_of_header isRead] at found ⊢
    obtain ⟨unread, later⟩ := afterHeader
    dsimp only at left
    subst left
    have second := @recvfull_part req.data rest later
    generalize recvfull ⟨req.data ++ rest, later⟩ req.data.length = read at found second ⊢
    obtain ⟨recvd, data, last⟩ := read
    dsimp only at found second ⊢
    cases checked : checkRecv recvd req.data.length with
    | clientLeft =>
        rw [checked] at found
        cases found
    | exits =>
        rw [checked] at found
        cases found
    | success =>
        have isWhole := (checkRecv_eq_success_iff (Int.natCast_nonneg _)).mp checked
        rw [checked] at found
        cases found
        exact ⟨rfl, (second isWhole.1).2⟩
  · rcases recvReq_of_not_full isFull with left | exits
    · rw [left] at found
      cases found
    · rw [exits] at found
      cases found

/-- A call that finds a message found the first one of the stream and took no more. -/
theorem clientRecv_whole {header data : List UInt8}
    (found : (clientRecv ⟨resp.wire ++ rest, queued⟩).1 = some (header, data)) :
    header = resp.header ∧ (clientRecv ⟨resp.wire ++ rest, queued⟩).2.unread = rest := by
  rw [Response.wire, List.append_assoc] at found ⊢
  have first := @recvfull_part resp.header (resp.payload ++ rest) queued
  rw [resp.length_header] at first
  rw [clientRecv] at found ⊢
  generalize recvfull ⟨resp.header ++ (resp.payload ++ rest), queued⟩ responseHeaderSize = read
    at found first ⊢
  obtain ⟨recvd, bytes, unread, later⟩ := read
  dsimp only at found first ⊢
  by_cases isFull : recvd = responseHeaderSize
  · obtain ⟨rfl, rfl⟩ := first isFull
    rw [if_neg (not_not_intro isFull), resp.type_header] at found ⊢
    by_cases carries : resp.type = .RESPONSE
    · have hasData := resp.payload_of_response carries
      rw [if_pos (resp.code_eq_iff.mpr carries), resp.len_header, asInt_of_lt resp.length_lt,
        hasData] at found ⊢
      have second := @recvfull_part resp.data rest later
      generalize recvfull ⟨resp.data ++ rest, later⟩ resp.data.length = read at found second ⊢
      obtain ⟨recvdData, stored, last⟩ := read
      dsimp only at found second ⊢
      by_cases isWhole : recvdData = resp.data.length
      · rw [if_neg (not_not_intro isWhole)] at found ⊢
        cases found
        exact ⟨rfl, (second isWhole).2⟩
      · rw [if_pos isWhole] at found
        cases found
    · rw [if_neg fun isCode => carries (resp.code_eq_iff.mp isCode)] at found ⊢
      cases found
      exact ⟨rfl, by rw [resp.payload_of_not_response carries, List.nil_append]⟩
  · rw [if_pos isFull] at found
    cases found

/-- At the end of the stream a call reads nothing. -/
theorem recvfull_nil {len : ℕ} (positive : 0 < len) (queued : ℕ → Option ℕ+) :
    recvfull ⟨[], queued⟩ len = (0, [], ⟨[], fun call => queued (call + 1)⟩) := by
  have result : recvLoop len len [] ⟨[], queued⟩ =
      ((len : ℤ), [], ⟨[], fun call => queued (call + 1)⟩) := by
    unfold recvLoop
    rw [if_pos (by exact_mod_cast positive)]
    cases isQueued : queued 0 <;> simp [Socket.recv, isQueued]
  rw [recvfull, result]
  dsimp only
  rw [sub_self]

/-- There the client counts as having left. -/
theorem recvReq_nil (queued : ℕ → Option ℕ+) :
    recvReq ⟨[], queued⟩ = (.clientLeft, ⟨[], fun call => queued (call + 1)⟩) := by
  rw [recvReq, recvfull_nil (by decide)]
  rfl

theorem clientRecv_nil (queued : ℕ → Option ℕ+) : (clientRecv ⟨[], queued⟩).1 = none := by
  rw [clientRecv, recvfull_nil (by decide)]
  rfl

end

/-! ## Reads that wait -/

/-- Whether the loop of `recvfull` waits at a connection that is open: a call of `recv` finds
nothing queued. -/
def recvWaits (len remaining : ℤ) (socket : Socket) : Bool :=
  if 0 < remaining then
    match _received : socket.recv len.toNat with
    | (recvd, _, next) =>
        if recvd = -1 then false
        else if recvd = 0 then true
        else recvWaits len (remaining - recvd) next
  else false
termination_by remaining.toNat
decreasing_by
  have bound := Socket.neg_one_le_recv socket len.toNat
  rw [_received] at bound
  dsimp only at bound
  omega

/-- Whether one of the reads of a request waits. -/
def requestWaits (socket : Socket) : Bool :=
  let (recvd, header, next) := recvfull socket requestHeaderSize
  let len := asInt (Bytes.ofBytes (Bytes.field header 16 8))
  recvWaits requestHeaderSize requestHeaderSize socket ||
    (checkRecv recvd requestHeaderSize = .success && recvWaits len len next)

/-- Whether one of the reads of a response waits. -/
def responseWaits (socket : Socket) : Bool :=
  let (recvd, header, next) := recvfull socket responseHeaderSize
  let len := asInt (Bytes.ofBytes (Bytes.field header 24 8))
  recvWaits responseHeaderSize responseHeaderSize socket ||
    (recvd = responseHeaderSize &&
      Bytes.ofBytes (Bytes.field header 0 4) = ResponseType.RESPONSE.code &&
      recvWaits len len next)

/-! ## The processes and their streams -/

/-- The data of a message, which the application fills in. -/
abbrev Payload := { data : List UInt8 // data.length ≤ MAX_REQ_BYTES }

/-- The server with `n` workers, its `m` clients and the bytes between them. -/
structure Wired (m n : ℕ) (k : Fin m → ℕ) where
  clients : ∀ client, ClientState (k client)
  /-- The sender threads that have returned: their last request was not sent whole. -/
  sendersDone : ∀ client, Fin (k client) → Bool
  /-- The receiver threads that have returned. -/
  receiversDone : ∀ client, Fin (k client) → Bool
  /-- Whether a receiver has returned with `recvLock`. -/
  recvLocked : Fin m → Bool
  toServer : Fin m → List UInt8
  toClient : Fin m → List UInt8
  clientFds : List (Fin m)
  workers : Fin n → WorkerPhase m
  finishedReqs : ℕ
  /-- What the server has sent, in order. The source does not keep it. -/
  log : List (Sent m)

/-- How many bytes the calls of `send` and `recv` accept and find, `none` for a call that fails. -/
abbrev Calls := ℕ → Option ℕ+

/-- A step of one thread. -/
inductive WireEvent (m n : ℕ) (k : Fin m → ℕ)
  | check (client : Fin m) (thread : Fin (k client))
  | startReq (client : Fin m) (thread : Fin (k client)) (genNs : ℕ)
  | arrive (client : Fin m) (thread : Fin (k client)) (curNs : UInt64)
  | wake (client : Fin m) (thread : Fin (k client)) (curNs : UInt64)
  | send (client : Fin m) (thread : Fin (k client)) (data : Payload) (accepts : Calls)
  | recv (client : Fin m) (thread : Fin (k client)) (queued : Calls)
  | handle (client : Fin m) (thread : Fin (k client)) (curNs : UInt64)
  | recvReq (worker : Fin n) (client : Fin m) (curNs : UInt64) (queued : Calls)
  | sendResp (worker : Fin n) (curNs : UInt64) (data : Payload) (answered : Calls)
      (told : Fin m → Calls)
  | finish (told : Fin m → Calls)

namespace Wired

variable {m n : ℕ} {k : Fin m → ℕ}

def initial (m n : ℕ) (k : Fin m → ℕ) : Wired m n k where
  clients := fun client => .initial (k client)
  sendersDone := fun _ _ => false
  receiversDone := fun _ _ => false
  recvLocked := fun _ => false
  toServer := fun _ => []
  toClient := fun _ => []
  clientFds := List.finRange m
  workers := fun _ => .idle
  finishedReqs := 0
  log := []

def setClient (st : Wired m n k) (client : Fin m) (own : ClientState (k client)) : Wired m n k :=
  { st with clients := Function.update st.clients client own }

def setWorker (st : Wired m n k) (worker : Fin n) (phase : WorkerPhase m) : Wired m n k :=
  { st with workers := Function.update st.workers worker phase }

/-- A step of a thread of a client that leaves the connections alone. -/
def clientStep (st : Wired m n k) (client : Fin m)
    (step : ClientState (k client) → Except Halt (ClientState (k client))) :
    Except Halt (Wired m n k) :=
  if (st.clients client).dumped.isSome then .error .exited
  else do
    let own ← step (st.clients client)
    return st.setClient client own

/-- The request that `startReq` has returned. -/
def request (st : Wired m n k) (client : Fin m) (id : ℕ) (data : Payload) : Request :=
  ⟨.ofNat id, .ofNat (((st.clients client).inFlightReqs.get? id).getD 0), data.val, data.property⟩

/-- `NetworkedClient::send` for a sender of `send`, which returns after a failure. -/
def send (st : Wired m n k) (client : Fin m) (thread : Fin (k client)) (id : ℕ) (data : Payload)
    (accepts : Calls) : Wired m n k :=
  let req := st.request client id data
  let (sent, out) := sendfull ⟨st.toServer client, accepts⟩ req.wire
  let st := { st with toServer := Function.update st.toServer client out.sent }
  if sent = req.wire.length then
    st.setClient client ((st.clients client).moveSender thread .looping)
  else
    { st with
      sendersDone := Function.update st.sendersDone client
        (Function.update (st.sendersDone client) thread true) }

/-- A receiver thread of `recv` returns. -/
def endReceiver (st : Wired m n k) (client : Fin m) (thread : Fin (k client)) : Wired m n k :=
  { st with
    receiversDone := Function.update st.receiversDone client
      (Function.update (st.receiversDone client) thread true) }

/-- `NetworkedClient::recv` for a receiver of `recv`. It does not release `recvLock` after a
failure. -/
def recv (st : Wired m n k) (client : Fin m) (thread : Fin (k client)) (queued : Calls) :
    Wired m n k :=
  let (found, socket) := clientRecv ⟨st.toClient client, queued⟩
  let st := { st with toClient := Function.update st.toClient client socket.unread }
  match found with
  | none => { st.endReceiver client thread with
      recvLocked := Function.update st.recvLocked client true }
  | some (header, _) =>
      match replyOf header with
      | some reply =>
          st.setClient client ((st.clients client).moveReceiver thread (.handling reply))
      | none => st.endReceiver client thread

/-- One turn of `NetworkedServer::recvReq` at a client. -/
def recvReq (st : Wired m n k) (worker : Fin n) (client : Fin m) (curNs : UInt64)
    (queued : Calls) : Except Halt (Wired m n k) :=
  let (found, socket) := Harness.recvReq ⟨st.toServer client, queued⟩
  let st := { st with toServer := Function.update st.toServer client socket.unread }
  match found with
  | .request header _ => .ok (st.setWorker worker
      (.serving client ⟨Bytes.ofBytes (Bytes.field header 0 8), curNs.toNat⟩))
  | .clientLeft => .ok { st with clientFds := st.clientFds.erase client }
  | .exits => .error .exited

/-- Send a message to a client, and assert that it is sent whole. -/
def sendTo (st : Wired m n k) (client : Fin m) (resp : Response) (accepts : Calls) :
    Except Halt (Wired m n k) := do
  let (sent, out) := sendfull ⟨st.toClient client, accepts⟩ resp.wire
  require (sent = resp.wire.length)
  return { st with toClient := Function.update st.toClient client out.sent }

/-- The loops of `sendResp` and of `finish` over the clients. -/
def broadcast (st : Wired m n k) (resp : Response) (told : Fin m → Calls) (entry : Sent m) :
    Except Halt (Wired m n k) := do
  let st ← st.clientFds.foldlM (fun st client => st.sendTo client resp (told client)) st
  return { st with log := st.log ++ [entry] }

/-- The response of `sendResp`. -/
def response (info : ReqInfo) (curNs : UInt64) (data : Payload) : Response :=
  ⟨.RESPONSE, .ofNat info.id, .ofNat (curNs.toNat - info.startNs), data.val, data.property⟩

/-- The request of a worker is answered. -/
def counted (st : Wired m n k) (worker : Fin n) (client : Fin m) (id : ℕ) : Wired m n k :=
  { st.setWorker worker .idle with
    finishedReqs := st.finishedReqs + 1
    log := st.log ++ [.answer client id] }

/-- What `sendResp` sends once the request is counted: the response with another type. -/
def announce (config : ServerConfig) (st : Wired m n k) (resp : Response) (told : Fin m → Calls) :
    Except Halt (Wired m n k) :=
  if st.finishedReqs = config.warmupReqs then
    st.broadcast { resp with type := .ROI_BEGIN } told .roiBegin
  else if st.finishedReqs = config.warmupReqs + config.maxReqs then
    st.broadcast { resp with type := .FINISH } told .finish
  else .ok st

/-- `NetworkedServer::sendResp`. -/
def sendResp (config : ServerConfig) (st : Wired m n k) (worker : Fin n) (client : Fin m)
    (info : ReqInfo) (curNs : UInt64) (data : Payload) (answered : Calls)
    (told : Fin m → Calls) : Except Halt (Wired m n k) := do
  require (info.startNs < curNs.toNat)
  let st ← st.sendTo client (response info curNs data) answered
  (st.counted worker client info.id).announce config (response info curNs data) told

/-- The message of `finish`: `new Response()` is all zero. -/
def finishResp : Response := ⟨.FINISH, 0, 0, [], Nat.zero_le _⟩

/-- One step of the processes. A read takes place when it need not wait; whether the server still
runs, which the reads of the clients depend on, is whether it has clients. -/
def step (config : NetworkConfig m) (st : Wired m n k) :
    WireEvent m n k → Except Halt (Wired m n k)
  | .check client thread => st.clientStep client fun own =>
      match own.senders thread with
      | .looping => .ok (own.check thread)
      | _ => .error .notReady
  | .startReq client thread genNs => st.clientStep client fun own => own.startReq thread genNs
  | .arrive client thread curNs => st.clientStep client fun own =>
      match own.senders thread with
      | .drawn id genNs => .ok (own.arrive (config.client client) thread id genNs curNs.toNat)
      | _ => .error .notReady
  | .wake client thread curNs => st.clientStep client fun own =>
      match own.senders thread with
      | .sleeping id targetNs => .ok (own.wake thread id targetNs curNs.toNat)
      | _ => .error .notReady
  | .send client thread data accepts =>
      if (st.clients client).dumped.isSome then .error .exited
      else
        match (st.clients client).senders thread, st.sendersDone client thread with
        | .sending id, false => .ok (st.send client thread id data accepts)
        | _, _ => .error .notReady
  | .recv client thread queued =>
      if (st.clients client).dumped.isSome then .error .exited
      else
        match (st.clients client).receivers thread, st.receiversDone client thread,
          st.recvLocked client with
        | .reading, false, false =>
            if st.clientFds ≠ [] ∧ responseWaits ⟨st.toClient client, queued⟩ then .error .notReady
            else .ok (st.recv client thread queued)
        | _, _, _ => .error .notReady
  | .handle client thread curNs => st.clientStep client fun own =>
      match own.receivers thread with
      | .handling reply => own.handle thread reply curNs.toNat
      | .reading => .error .notReady
  | .recvReq worker client curNs queued =>
      if st.clientFds = [] then .error .exited
      else if st.clientFds.contains client ∧ st.workers worker = .idle ∧
          ¬ ((st.clients client).dumped.isNone ∧ requestWaits ⟨st.toServer client, queued⟩) then
        st.recvReq worker client curNs queued
      else .error .notReady
  | .sendResp worker curNs data answered told =>
      if st.clientFds = [] then .error .exited
      else
        match st.workers worker with
        | .serving client info =>
            st.sendResp config.server worker client info curNs data answered told
        | .idle => .error .notReady
  | .finish told =>
      if st.clientFds = [] then .error .exited else st.broadcast finishResp told .finish

/-- No send of a client fails, none of its ids is too large for the message, and every read returns
a whole message that is not empty, except the read that meets the end of the stream of a client
whose process has ended. -/
def Whole (st : Wired m n k) : WireEvent m n k → Prop
  | .send client thread data accepts => ∀ id, (st.clients client).senders thread = .sending id →
      id < 2 ^ 64 ∧
        (sendfull ⟨st.toServer client, accepts⟩ (st.request client id data).wire).1 =
          (st.request client id data).wire.length
  | .recv client _ queued => (clientRecv ⟨st.toClient client, queued⟩).1.isSome
  | .recvReq _ client _ queued =>
      (∃ header data, (Harness.recvReq ⟨st.toServer client, queued⟩).1 = .request header data) ∨
        ((st.clients client).dumped.isSome ∧ st.toServer client = [])
  | _ => True

end Wired

end Datamime.Harness
