/-
# The mutexes of the networked harness

The threads of a client share a socket and the requests in flight, and those of a server the
sockets of its clients. Each operation locks what it needs and unlocks it by hand. Where a call of
`NetworkedClient::recv` reads less than a message, it returns while it holds the mutex, and no
other thread of the client receives from then on.
-/

import Datamime.Harness.Clients
import Datamime.Harness.Integrated
import Datamime.Math.Locks

namespace Datamime.Harness

open Datamime.Math Datamime.Math.Locks

/-- The mutexes of `Client` and `NetworkedClient`. -/
inductive ClientMutex
  | lock
  | sendLock
  | recvLock
  deriving DecidableEq

/-- The mutexes of `NetworkedServer`. -/
inductive ServerMutex
  | sendLock
  | recvLock
  deriving DecidableEq

namespace Locked

/-! ## The operations of a client -/

/-- `Client::startReq`, given the status that it finds and the request that the application
makes. It waits for the other threads and for the time of the request. -/
def startReq (status : ClientStatus) (id genNs : UInt64) (data : Memory) (len : ℕ) :
    Locking ClientMutex Request := do
  if status = .INIT then
    Locking.wait
    Locking.lock .lock
    Locking.unlock .lock
    Locking.wait
  Locking.lock .lock
  match Harness.startReq id genNs data len with
  | none => Locking.exit
  | some req =>
      Locking.unlock .lock
      Locking.wait
      return req

/-- `Client::finiReq`: the requests in flight after it, and what it records. -/
def finiReq (inFlightReqs : Dict ℕ ℕ) (status : ClientStatus) (resp : Response) (curNs : ℕ) :
    Locking ClientMutex (Dict ℕ ℕ × Option Latency) := do
  Locking.lock .lock
  let id := resp.id.toNat
  let svcNs := resp.svcNs.toNat
  match inFlightReqs.get? id with
  | none => Locking.exit
  | some genNs =>
      if status = .ROI then
        Locking.require (genNs < curNs)
        let sjrnNs := curNs - genNs
        Locking.require (svcNs ≤ sjrnNs)
        Locking.unlock .lock
        return (inFlightReqs.erase id, some ⟨id, sjrnNs - svcNs, svcNs, sjrnNs⟩)
      else
        Locking.unlock .lock
        return (inFlightReqs.erase id, none)

/-- `Client::startRoi`. -/
def startRoi (status : ClientStatus) : Locking ClientMutex ClientStatus := do
  Locking.lock .lock
  Locking.require (status = .WARMUP)
  Locking.unlock .lock
  return .ROI

/-- `NetworkedClient::send`. -/
def send (out : Outgoing) (req : Request) : Locking ClientMutex Bool := do
  Locking.lock .sendLock
  Locking.wait
  let (sent, _) := sendfull out req.wire
  Locking.unlock .sendLock
  return decide (sent = req.wire.length)

/-- `NetworkedClient::recv`. -/
def recv (socket : Socket) : Locking ClientMutex Bool := do
  Locking.lock .recvLock
  Locking.wait
  let (recvd, header, socket) := recvfull socket responseHeaderSize
  if recvd ≠ responseHeaderSize then return false
  if Bytes.ofBytes (Bytes.field header 0 4) = ResponseType.RESPONSE.code then
    Locking.wait
    let len := Bytes.ofBytes (Bytes.field header 24 8)
    let (recvd, _) := recvfull socket (asInt len)
    if recvd ≠ len then return false
  Locking.unlock .recvLock
  return true

/-! ## The operations of a server -/

/-- `NetworkedServer::recvReq`, given the sets that `select` leaves. It does not return where the
process ends or where it waits in `select`. -/
def recvReq (st : NetworkedServer) (selects : List (ℕ → Bool)) :
    Locking ServerMutex NetworkedServer := do
  Locking.lock .recvLock
  Locking.wait
  match st.recvReq selects with
  | some (.ok next) =>
      Locking.unlock .recvLock
      return next
  | _ => Locking.exit

/-- A call of `sendfull` and the assertion after it. -/
def sendWhole (outs : ℕ → Outgoing) (fd : ℕ) (msg : List UInt8) :
    Locking ServerMutex (ℕ → Outgoing) := do
  Locking.wait
  let (sent, out) := sendfull (outs fd) msg
  Locking.require (sent = msg.length)
  return Function.update outs fd out

/-- The loops of `sendResp` and of `finish` over the clients. -/
def sendClients (outs : ℕ → Outgoing) (clientFds : List ℕ) (msg : List UInt8) :
    Locking ServerMutex (ℕ → Outgoing) :=
  clientFds.foldlM (fun outs fd => sendWhole outs fd msg) outs

/-- What `sendResp` reads of the server. -/
structure Sending where
  finishedReqs : ℕ
  clientFds : List ℕ
  outs : ℕ → Outgoing

/-- `NetworkedServer::sendResp` for a request of the client with the given descriptor. -/
def sendResp (config : ServerConfig) (st : Sending) (info : ReqInfo) (fd : ℕ) (data : List UInt8)
    (fits : data.length ≤ MAX_RESP_BYTES) (curNs : ℕ) : Locking ServerMutex Sending := do
  Locking.lock .sendLock
  Locking.require (info.startNs < curNs)
  let resp : Response :=
    ⟨.RESPONSE, .ofNat info.id, .ofNat (curNs - info.startNs), data, fits⟩
  let outs ← sendWhole st.outs fd resp.wire
  let finishedReqs := st.finishedReqs + 1
  let outs ←
    if finishedReqs = config.warmupReqs then
      sendClients outs st.clientFds { resp with type := .ROI_BEGIN }.wire
    else if finishedReqs = config.warmupReqs + config.maxReqs then
      sendClients outs st.clientFds { resp with type := .FINISH }.wire
    else pure outs
  Locking.unlock .sendLock
  return { st with finishedReqs, outs }

/-- `NetworkedServer::finish`. -/
def finish (st : Sending) : Locking ServerMutex Sending := do
  Locking.lock .sendLock
  let resp : Response := ⟨.FINISH, 0, 0, [], Nat.zero_le _⟩
  let outs ← sendClients st.outs st.clientFds resp.wire
  Locking.unlock .sendLock
  return { st with outs }

/-! ## What they unlock -/

section

variable {outs : ℕ → Outgoing} {fd : ℕ} {msg : List UInt8} {held : ServerMutex → Bool}

theorem leaves_startReq (status : ClientStatus) (id genNs : UInt64) (data : Memory) (len : ℕ) :
    (startReq status id genNs data len).Leaves noMutex fun _ held => held = noMutex := by
  have draws : Locking.Leaves (do
      Locking.lock ClientMutex.lock
      match Harness.startReq id genNs data len with
      | none => Locking.exit
      | some req => do
          Locking.unlock .lock
          Locking.wait
          return req) noMutex fun _ held => held = noMutex := by
    apply Locking.leaves_lock_bind rfl
    cases Harness.startReq id genNs data len with
    | none => exact Locking.leaves_exit
    | some req =>
        apply Locking.leaves_unlock_bind rfl
        apply Locking.leaves_wait_bind
        exact Locking.leaves_pure (update_noMutex_false _)
  rw [startReq]
  split
  · apply Locking.leaves_wait_bind
    apply Locking.leaves_lock_bind rfl
    apply Locking.leaves_unlock_bind rfl
    apply Locking.leaves_wait_bind
    rw [update_noMutex_false]
    exact draws
  · exact draws

theorem leaves_finiReq (inFlightReqs : Dict ℕ ℕ) (status : ClientStatus) (resp : Response)
    (curNs : ℕ) :
    (finiReq inFlightReqs status resp curNs).Leaves noMutex fun _ held => held = noMutex := by
  rw [finiReq]
  apply Locking.leaves_lock_bind rfl
  dsimp only
  cases inFlightReqs.get? resp.id.toNat with
  | none => exact Locking.leaves_exit
  | some genNs =>
      dsimp only
      split
      · apply Locking.leaves_require_bind
        intro _
        apply Locking.leaves_require_bind
        intro _
        apply Locking.leaves_unlock_bind rfl
        exact Locking.leaves_pure (update_noMutex_false _)
      · apply Locking.leaves_unlock_bind rfl
        exact Locking.leaves_pure (update_noMutex_false _)

theorem leaves_startRoi (status : ClientStatus) :
    (startRoi status).Leaves noMutex fun _ held => held = noMutex := by
  rw [startRoi]
  apply Locking.leaves_lock_bind rfl
  apply Locking.leaves_require_bind
  intro _
  apply Locking.leaves_unlock_bind rfl
  exact Locking.leaves_pure (update_noMutex_false _)

theorem leaves_send (out : Outgoing) (req : Request) :
    (send out req).Leaves noMutex fun _ held => held = noMutex := by
  rw [send]
  apply Locking.leaves_lock_bind rfl
  apply Locking.leaves_wait_bind
  apply Locking.leaves_unlock_bind rfl
  exact Locking.leaves_pure (update_noMutex_false _)

/-- `recv` returns true only where it unlocks. -/
theorem leaves_recv (socket : Socket) :
    (recv socket).Leaves noMutex fun received held =>
      held = if received then noMutex else Function.update noMutex .recvLock true := by
  have unlocks : Locking.Leaves (do
      Locking.unlock ClientMutex.recvLock
      return true) (Function.update noMutex .recvLock true) fun received held =>
        held = if received then noMutex else Function.update noMutex .recvLock true := by
    apply Locking.leaves_unlock_bind rfl
    exact Locking.leaves_pure (update_noMutex_false _)
  rw [recv]
  apply Locking.leaves_lock_bind rfl
  apply Locking.leaves_wait_bind
  dsimp only
  split
  · exact Locking.leaves_pure rfl
  · split
    · apply Locking.leaves_wait_bind
      split
      · exact Locking.leaves_pure rfl
      · exact unlocks
    · exact unlocks

theorem leaves_recvReq (st : NetworkedServer) (selects : List (ℕ → Bool)) :
    (recvReq st selects).Leaves noMutex fun _ held => held = noMutex := by
  rw [recvReq]
  apply Locking.leaves_lock_bind rfl
  apply Locking.leaves_wait_bind
  split
  · apply Locking.leaves_unlock_bind rfl
    exact Locking.leaves_pure (update_noMutex_false _)
  · exact Locking.leaves_exit

theorem leaves_sendWhole : (sendWhole outs fd msg).Leaves held fun _ after => after = held := by
  rw [sendWhole]
  apply Locking.leaves_wait_bind
  apply Locking.leaves_require_bind
  intro _
  exact Locking.leaves_pure rfl

theorem leaves_sendClients (clientFds : List ℕ) :
    (sendClients outs clientFds msg).Leaves held fun _ after => after = held :=
  Locking.leaves_foldlM (fun _ _ => leaves_sendWhole) clientFds outs

theorem leaves_sendResp (config : ServerConfig) (st : Sending) (info : ReqInfo) (fd : ℕ)
    (data : List UInt8) (fits : data.length ≤ MAX_RESP_BYTES) (curNs : ℕ) :
    (sendResp config st info fd data fits curNs).Leaves noMutex fun _ held => held = noMutex := by
  rw [sendResp]
  apply Locking.leaves_lock_bind rfl
  apply Locking.leaves_require_bind
  intro _
  apply leaves_sendWhole.bind
  rintro outs _ rfl
  dsimp only
  have unlocks : ∀ outs : ℕ → Outgoing, Locking.Leaves (do
      Locking.unlock ServerMutex.sendLock
      return ({ st with finishedReqs := st.finishedReqs + 1, outs } : Sending))
      (Function.update noMutex .sendLock true) fun _ held => held = noMutex := by
    intro outs
    apply Locking.leaves_unlock_bind rfl
    exact Locking.leaves_pure (update_noMutex_false _)
  split
  · apply (leaves_sendClients st.clientFds).bind
    rintro outs _ rfl
    exact unlocks outs
  · split
    · apply (leaves_sendClients st.clientFds).bind
      rintro outs _ rfl
      exact unlocks outs
    · exact unlocks outs

theorem leaves_finish (st : Sending) :
    (finish st).Leaves noMutex fun _ held => held = noMutex := by
  rw [finish]
  apply Locking.leaves_lock_bind rfl
  apply (leaves_sendClients st.clientFds).bind
  rintro outs _ rfl
  apply Locking.leaves_unlock_bind rfl
  exact Locking.leaves_pure (update_noMutex_false _)

end

/-! ## Where `recv` reads a whole message -/

/-- `recvfull` returns as much as `recv` asks it for, for the header and for the data. -/
def ReadsWhole (socket : Socket) : Prop :=
  (recvfull socket responseHeaderSize).1 = responseHeaderSize ∧
    let header := (recvfull socket responseHeaderSize).2.1
    let len := Bytes.ofBytes (Bytes.field header 24 8)
    Bytes.ofBytes (Bytes.field header 0 4) = ResponseType.RESPONSE.code →
      (recvfull (recvfull socket responseHeaderSize).2.2 (asInt len)).1 = len

/-- `recv` returns whether its reads found a message. -/
theorem result_recv (socket : Socket) :
    (recv socket).result = some (clientRecv socket).1.isSome := by
  rw [recv, clientRecv]
  dsimp only
  split
  · rfl
  · split
    · split
      · rfl
      · rfl
    · rfl

theorem isSome_clientRecv_iff (socket : Socket) :
    (clientRecv socket).1.isSome = true ↔ ReadsWhole socket := by
  rw [clientRecv, ReadsWhole]
  dsimp only
  split
  · rename_i isShort
    simp [isShort]
  · rename_i isHeader
    rw [not_not] at isHeader
    split
    · rename_i isResponse
      split
      · rename_i isShort
        simp [isResponse, isShort]
      · rename_i isWhole
        rw [not_not] at isWhole
        simp [isHeader, isWhole]
    · rename_i isOther
      simp [isHeader, isOther]

theorem releases_recv_iff (socket : Socket) :
    (recv socket).trace.Releases ↔ ReadsWhole socket := by
  rcases leaves_recv socket with ⟨after, isAfter, atEnd⟩
  have isHeld := atEnd _ (result_recv socket)
  have returns : (recv socket).trace.returns = true := by
    rw [Locking.trace, result_recv]
    rfl
  rw [← isSome_clientRecv_iff, Trace.Releases, Locking.trace, isAfter, isHeld]
  cases (clientRecv socket).1.isSome with
  | true => simp
  | false =>
      simp only [Option.some_inj, Bool.false_eq_true, if_false, iff_false]
      intro released
      have same := congrFun (released returns) ClientMutex.recvLock
      rw [Function.update_self] at same
      cases same

end Locked

/-! ## Calls of several threads -/

/-- A call of an operation of a client, with what the socket and the clock give to it. -/
inductive ClientCall
  | startReq (status : ClientStatus) (id genNs : UInt64) (data : Memory) (len : ℕ)
  | finiReq (inFlightReqs : Dict ℕ ℕ) (status : ClientStatus) (resp : Response) (curNs : ℕ)
  | startRoi (status : ClientStatus)
  | send (out : Outgoing) (req : Request)
  | recv (socket : Socket)

namespace ClientCall

def trace : ClientCall → Trace ClientMutex
  | .startReq status id genNs data len => (Locked.startReq status id genNs data len).trace
  | .finiReq inFlightReqs status resp curNs =>
      (Locked.finiReq inFlightReqs status resp curNs).trace
  | .startRoi status => (Locked.startRoi status).trace
  | .send out req => (Locked.send out req).trace
  | .recv socket => (Locked.recv socket).trace

/-- A call of `recv` reads a whole message. -/
def ReadsWhole : ClientCall → Prop
  | .recv socket => Locked.ReadsWhole socket
  | _ => True

theorem wellLocked : WellLocked trace := by
  intro call
  cases call with
  | startReq status id genNs data len =>
      exact (Locked.leaves_startReq status id genNs data len).isSome
  | finiReq inFlightReqs status resp curNs =>
      exact (Locked.leaves_finiReq inFlightReqs status resp curNs).isSome
  | startRoi status => exact (Locked.leaves_startRoi status).isSome
  | send out req => exact (Locked.leaves_send out req).isSome
  | recv socket => exact (Locked.leaves_recv socket).isSome

theorem releases_iff (call : ClientCall) : call.trace.Releases ↔ call.ReadsWhole := by
  cases call with
  | startReq status id genNs data len =>
      exact iff_of_true (Locked.leaves_startReq status id genNs data len).releases trivial
  | finiReq inFlightReqs status resp curNs =>
      exact iff_of_true (Locked.leaves_finiReq inFlightReqs status resp curNs).releases trivial
  | startRoi status => exact iff_of_true (Locked.leaves_startRoi status).releases trivial
  | send out req => exact iff_of_true (Locked.leaves_send out req).releases trivial
  | recv socket => exact Locked.releases_recv_iff socket

end ClientCall

/-- A call of an operation of a server. -/
inductive ServerCall
  | recvReq (st : NetworkedServer) (selects : List (ℕ → Bool))
  | sendResp (config : ServerConfig) (st : Locked.Sending) (info : ReqInfo) (fd : ℕ)
      (data : List UInt8) (fits : data.length ≤ MAX_RESP_BYTES) (curNs : ℕ)
  | finish (st : Locked.Sending)

namespace ServerCall

def trace : ServerCall → Trace ServerMutex
  | .recvReq st selects => (Locked.recvReq st selects).trace
  | .sendResp config st info fd data fits curNs =>
      (Locked.sendResp config st info fd data fits curNs).trace
  | .finish st => (Locked.finish st).trace

theorem wellLocked : WellLocked trace := by
  intro call
  cases call with
  | recvReq st selects => exact (Locked.leaves_recvReq st selects).isSome
  | sendResp config st info fd data fits curNs =>
      exact (Locked.leaves_sendResp config st info fd data fits curNs).isSome
  | finish st => exact (Locked.leaves_finish st).isSome

theorem releases (call : ServerCall) : call.trace.Releases := by
  cases call with
  | recvReq st selects => exact (Locked.leaves_recvReq st selects).releases
  | sendResp config st info fd data fits curNs =>
      exact (Locked.leaves_sendResp config st info fd data fits curNs).releases
  | finish st => exact (Locked.leaves_finish st).releases

theorem neverLeft {n : ℕ} (events : List (LockEvent n ServerCall)) :
    NeverLeft trace events := by
  rw [neverLeft_iff wellLocked fun call => Iff.rfl]
  exact eachReturnsFrom_of_forall releases events

end ServerCall

/-- Every call of a server that returns unlocks what it locked, and every call of a client but
those of `recv` that read less than a message. In a run of any number of threads, no mutex is left
locked precisely as long as no such call of `recv` returns. -/
theorem unlocks_iff_readsWhole (clientCall : ClientCall) (serverCall : ServerCall) (n : ℕ)
    (clientEvents : List (LockEvent n ClientCall)) (serverEvents : List (LockEvent n ServerCall)) :
    (clientCall.trace.Releases ↔ clientCall.ReadsWhole) ∧ serverCall.trace.Releases ∧
    (NeverLeft ClientCall.trace clientEvents ↔
      EachReturnsFrom ClientCall.trace ClientCall.ReadsWhole clientEvents) ∧
    NeverLeft ServerCall.trace serverEvents := by
  refine ⟨clientCall.releases_iff, serverCall.releases, ?_, ServerCall.neverLeft serverEvents⟩
  exact neverLeft_iff ClientCall.wellLocked ClientCall.releases_iff clientEvents

/-- A socket whose other end has closed the connection. -/
def closedSocket : Socket := Socket.splitting [] fun _ => ⟨1, Nat.one_pos⟩

theorem recvfull_closedSocket :
    ∃ later, recvfull closedSocket responseHeaderSize = (0, [], Socket.splitting [] later) :=
  recvfull_short _ (Nat.zero_le _)

theorem trace_recv_closedSocket :
    (ClientCall.recv closedSocket).trace = ⟨[.lock .recvLock, .wait], true⟩ := by
  rcases recvfull_closedSocket with ⟨later, reads⟩
  rw [ClientCall.trace, Locked.recv, reads]
  rfl

/-- At the end of the stream, `recv` returns false while it holds its mutex. A second thread that
receives is blocked from then on. -/
theorem recv_closedSocket_blocks :
    (Locked.recv closedSocket).result = some false ∧
    ¬ (ClientCall.recv closedSocket).trace.Releases ∧
    ∃ st : LockState 2 ClientMutex ClientCall,
      run (lockStep ClientCall.trace) (LockState.initial 2 ClientMutex ClientCall)
        [.call 0 (.recv closedSocket), .act 0, .act 0, .ret 0, .call 1 (.recv closedSocket)] =
          .ok st ∧
      st.running 0 = none ∧
      ∀ events next, run (lockStep ClientCall.trace) st events = .ok next →
        lockStep ClientCall.trace next (.act 1) = .error .blocked := by
  have result : (Locked.recv closedSocket).result = some false := by
    rcases recvfull_closedSocket with ⟨later, reads⟩
    rw [Locked.recv, reads]
    rfl
  have holds : ¬ (ClientCall.recv closedSocket).trace.Releases := by
    rw [trace_recv_closedSocket]
    intro releases
    have same := congrFun (Option.some_inj.mp (releases rfl)) ClientMutex.recvLock
    cases same
  have reaches : ∃ st : LockState 2 ClientMutex ClientCall,
      run (lockStep ClientCall.trace) (LockState.initial 2 ClientMutex ClientCall)
        [.call 0 (.recv closedSocket), .act 0, .act 0, .ret 0, .call 1 (.recv closedSocket)] =
          .ok st ∧
      st.owner .recvLock = some 0 ∧ st.running 0 = none ∧
      st.running 1 = some ⟨.recv closedSocket, [.lock .recvLock, .wait]⟩ := by
    simp [run, lockStep, trace_recv_closedSocket, LockState.initial, LockState.proceed,
      LockState.setOwner]
  rcases reaches with ⟨st, reached, owns, idle, within⟩
  have left := left_of_idle ClientCall.wellLocked reached owns idle
  refine ⟨result, holds, st, reached, idle, ?_⟩
  intro events next later
  exact blocked_of_left (left_of_run ClientCall.wellLocked left later)
    (running_of_left ClientCall.wellLocked left within later)

end Datamime.Harness
