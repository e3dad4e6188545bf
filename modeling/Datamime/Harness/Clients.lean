/-
# The clients of a networked server

`NetworkedServer::recvReq` waits in `select` until a client can be read, reads a
request from the first such client at or after the head of the list, and removes a
client whose read returns nothing. A read of nothing is also what an empty payload
gives. Over every run, each turn at a client with a further request delivers that
request, and clients are removed only at the end of their stream, precisely if no
turn reaches an empty request.
-/

import Datamime.Harness.Alignment
import Datamime.Math.Run
import Mathlib.Data.List.Rotate

namespace Datamime.Harness

open Datamime.Math

/-! ## The server -/

/-- What a call of `recvReq` leaves for its thread: `activeFds[id]`, `reqInfo[id].id`, the
returned length and the bytes behind `*data`. -/
structure Delivery where
  fd : ℕ
  id : ℕ
  len : ℕ
  data : List UInt8
  deriving DecidableEq

/-- The state of a `NetworkedServer` that receiving changes. The sockets are those of the
accepted clients, and the deliveries are listed in the order of the calls. -/
structure NetworkedServer where
  clientFds : List ℕ
  recvClientHead : ℕ
  sockets : ℕ → Socket
  delivered : List Delivery

/-- How the process ends inside `recvReq`. -/
inductive Exit
  /-- `exit(0)`: no client is left. -/
  | finished
  /-- `exit(-1)` in `checkRecv`. -/
  | failed
  /-- `assert(fd != -1)`. -/
  | assertion
  deriving DecidableEq

namespace NetworkedServer

/-- The clients in the order in which the loop over `i` looks at them. -/
def scanned (st : NetworkedServer) : List ℕ :=
  (List.range st.clientFds.length).map fun i =>
    st.clientFds.getD ((st.recvClientHead + i) % st.clientFds.length) 0

/-- The client that the loop finds in the set that `select` left. -/
def chosen (st : NetworkedServer) (readSet : ℕ → Bool) : Option ℕ := st.scanned.find? readSet

def removeClient (st : NetworkedServer) (fd : ℕ) : NetworkedServer :=
  { st with clientFds := st.clientFds.erase fd }

/-- Move the head on, and take what the reads took from the socket. -/
def afterReads (st : NetworkedServer) (fd : ℕ) (socket : Socket) : NetworkedServer :=
  { st with
    recvClientHead := (st.recvClientHead + 1) % st.clientFds.length
    sockets := Function.update st.sockets fd socket }

def deliver (st : NetworkedServer) (fd : ℕ) (header data : List UInt8) : NetworkedServer :=
  { st with
    delivered := st.delivered ++ [{
      fd
      id := Bytes.ofBytes (Bytes.field header 0 8)
      len := Bytes.ofBytes (Bytes.field header 16 8)
      data }] }

/-- One turn of the loop of `NetworkedServer::recvReq`, given the set that `select` left. -/
def turn (st : NetworkedServer) (readSet : ℕ → Bool) : Except Exit NetworkedServer :=
  if st.clientFds = [] then .error .finished
  else
    match st.chosen readSet with
    | none => .error .assertion
    | some fd =>
        match Harness.recvReq (st.sockets fd) with
        | (.request header data, socket) => .ok ((st.afterReads fd socket).deliver fd header data)
        | (.clientLeft, socket) => .ok ((st.afterReads fd socket).removeClient fd)
        | (.exits, _) => .error .failed

/-- `NetworkedServer::recvReq`, given the sets that `select` leaves in its turns; `none` where
it waits in `select` after them. The turn that finds a request is the last one. -/
def recvReq (st : NetworkedServer) : List (ℕ → Bool) → Option (Except Exit NetworkedServer)
  | [] => if st.clientFds = [] then some (.error .finished) else none
  | readSet :: later =>
      match st.turn readSet with
      | .error ends => some (.error ends)
      | .ok next =>
          if st.delivered.length < next.delivered.length then some (.ok next)
          else next.recvReq later

end NetworkedServer

/-! ## The clients -/

/-- What a client sends before the end of its stream, and whether it ends the stream. A client
that closes its connection within a message leaves the begin of that message. -/
structure Client where
  requests : List Request
  unfinished : List UInt8
  closes : Bool
  within_message : ∃ req : Request, unfinished <+: req.wire ∧ unfinished ≠ req.wire
  closes_within : unfinished ≠ [] → closes = true

def Client.stream (client : Client) : List UInt8 :=
  client.requests.flatMap Request.wire ++ client.unfinished

/-- The clients that the constructor accepted. `accept` gives each its own descriptor. -/
structure Connections where
  clientFds : List ℕ
  distinct : clientFds.Nodup
  client : ℕ → Client
  chunks : ℕ → ℕ → ℕ+

/-- The delivery of a request, with its id and length. -/
def Request.delivery (req : Request) (fd : ℕ) : Delivery :=
  ⟨fd, req.id.toNat, req.data.length, req.data⟩

/-- The deliveries of one client. -/
def NetworkedServer.deliveredFrom (st : NetworkedServer) (fd : ℕ) : List Delivery :=
  st.delivered.filter fun delivery => delivery.fd = fd

namespace Connections

variable (conns : Connections)

/-- The server at the end of its constructor. -/
def accepted : NetworkedServer :=
  ⟨conns.clientFds, 0, fun fd => Socket.splitting (conns.client fd).stream (conns.chunks fd), []⟩

/-- `recvfull` returns exactly what it is asked for, up to the end of the stream. -/
def ReadsExactly : Prop :=
  ∀ fd ∈ conns.clientFds, ReadsPieces (conns.client fd).stream (conns.chunks fd)
    ((conns.client fd).requests.flatMap Request.lens)

/-- `select` leaves a descriptor, and only descriptors that a read would not wait for. -/
def SelectLeaves (st : NetworkedServer) (readSet : ℕ → Bool) : Prop :=
  st.clientFds ≠ [] →
    (∃ fd ∈ st.clientFds, readSet fd = true) ∧
    ∀ fd ∈ st.clientFds, readSet fd = true →
      (st.sockets fd).unread ≠ [] ∨ (conns.client fd).closes = true

/-- The first request of a client that is not delivered. -/
def awaited (st : NetworkedServer) (fd : ℕ) : Option Request :=
  (conns.client fd).requests[(st.deliveredFrom fd).length]?

/-- A turn finds a client, and delivers its next request with the id and length of it. -/
def DeliversAwaited (st : NetworkedServer) (readSet : ℕ → Bool) : Prop :=
  st.clientFds ≠ [] → ∃ fd ∈ st.clientFds, st.chosen readSet = some fd ∧
    ∀ req, conns.awaited st fd = some req →
      ∃ next, st.turn readSet = .ok next ∧ next.delivered = st.delivered ++ [req.delivery fd]

/-- Every removed client has closed its connection, and the server met the end of its stream
after delivering all its requests. -/
def RemovesClosed (st : NetworkedServer) : Prop :=
  ∀ fd ∈ conns.clientFds, fd ∉ st.clientFds →
    (conns.client fd).closes = true ∧ (st.sockets fd).unread = [] ∧
      st.deliveredFrom fd = (conns.client fd).requests.map fun req => req.delivery fd

/-- The turn is not at a client whose next request is empty. -/
def AwaitsPayload (st : NetworkedServer) (readSet : ℕ → Bool) : Prop :=
  ∀ fd, st.chosen readSet = some fd → ∀ req, conns.awaited st fd = some req → req.data ≠ []

end Connections

/-! ## One turn at a client -/

section

variable {req : Request} {rest : List UInt8} {chunks : ℕ → ℕ+} {lens : List ℕ}

theorem recvfull_short {unread : List UInt8} {len : ℕ} (chunks : ℕ → ℕ+)
    (ends : unread.length ≤ len) :
    ∃ later, recvfull (Socket.splitting unread chunks) len =
      ((unread.length : ℤ), unread, Socket.splitting [] later) := by
  have received := recvfull_cases unread chunks len
  generalize recvfull (Socket.splitting unread chunks) len = result at received
  cases received with
  | short later _ => exact ⟨later, rfl⟩
  | exact _ more _ => exact absurd more (not_lt_of_ge ends)
  | beyond _ more _ _ => exact absurd more (not_lt_of_ge ends)

theorem checkRecv_of_lt {recvd expected : ℕ} (less : recvd < expected) :
    checkRecv recvd expected = if recvd = 0 then .clientLeft else .exits := by
  rw [checkRecv]
  by_cases isZero : recvd = 0
  · rw [if_pos isZero, if_pos (by exact_mod_cast isZero)]
  · rw [if_neg isZero, if_neg (by exact_mod_cast isZero), if_neg (by omega),
      if_pos (by exact_mod_cast less.ne)]

/-- A request with a payload is found, and exactly it is taken. -/
theorem recvReq_of_payload (notEmpty : req.data ≠ [])
    (meets : ChunksMeetCalls (req.wire ++ rest) chunks (req.lens ++ lens)) :
    ∃ later, recvReq (Socket.splitting (req.wire ++ rest) chunks) =
        (.request req.header req.data, Socket.splitting rest later) ∧
      ChunksMeetCalls rest later lens := by
  have found := turn_of_chunksMeetCalls notEmpty meets
  obtain ⟨-, later, isLater, meetsLater⟩ := recvReq_of_turn found
  exact ⟨later, Prod.ext found isLater, (meetsLater lens).mp meets⟩

/-- An empty request counts as the client having left. -/
theorem recvReq_of_empty (isEmpty : req.data = [])
    (meets : ChunksMeetCalls (req.wire ++ rest) chunks (req.lens ++ lens)) :
    (recvReq (Socket.splitting (req.wire ++ rest) chunks)).1 = .clientLeft := by
  have noLength : req.data.length = 0 := by rw [isEmpty, List.length_nil]
  rw [Request.wire, List.append_assoc, Request.lens, List.cons_append, ← req.length_header]
    at meets
  obtain ⟨later, isHeader, -⟩ := recvfull_of_result (result_of_chunksMeetCalls meets)
  have readsNothing : recvfull (Socket.splitting (req.data ++ rest) later) (0 : ℕ) =
      (0, [], Socket.splitting (req.data ++ rest) later) := by
    rw [recvfull, recvLoop_zero]
    rfl
  rw [req.length_header] at isHeader
  rw [Request.wire, List.append_assoc, recvReq_of_header isHeader, noLength, readsNothing]
  rfl

/-- What a turn makes of a socket at which no request is complete. If the client counts as
having left, its stream has ended. -/
inductive Incomplete : Turn × Socket → Prop
  | clientLeft (later : ℕ → ℕ+) : Incomplete (.clientLeft, Socket.splitting [] later)
  | exits (socket : Socket) : Incomplete (.exits, socket)

/-- A last read that falls short. -/
theorem incomplete_of_lt {recvd expected : ℕ} (less : recvd < expected) (later : ℕ → ℕ+)
    (onSuccess : Turn × Socket) :
    Incomplete (match checkRecv recvd expected with
      | .clientLeft => (.clientLeft, Socket.splitting [] later)
      | .exits => (.exits, Socket.splitting [] later)
      | .success => onSuccess) := by
  rw [checkRecv_of_lt less]
  by_cases isZero : recvd = 0
  · rw [if_pos isZero]
    exact .clientLeft later
  · rw [if_neg isZero]
    exact .exits _

/-- The stream ends within the data of a request. -/
theorem recvReq_within_data {part : List UInt8} (chunks : ℕ → ℕ+)
    (isLess : part.length < req.data.length) :
    Incomplete (recvReq (Socket.splitting (req.header ++ part) chunks)) := by
  have taken := @recvfull_of_result req.header part chunks
  rw [req.length_header] at taken
  by_cases isFull : (recvfull (Socket.splitting (req.header ++ part) chunks)
      requestHeaderSize).1 = requestHeaderSize
  · obtain ⟨afterHeader, isHeader, -⟩ := taken isFull
    obtain ⟨later, isData⟩ := recvfull_short afterHeader isLess.le
    rw [recvReq_of_header isHeader, isData]
    exact incomplete_of_lt isLess later _
  · have received := recvfull_cases (req.header ++ part) chunks requestHeaderSize
    rw [recvReq]
    generalize recvfull (Socket.splitting (req.header ++ part) chunks) requestHeaderSize = result
      at received isFull
    cases received with
    | short later ends =>
        rw [List.length_append, req.length_header] at ends isFull
        exact absurd (show ((requestHeaderSize + part.length : ℕ) : ℤ) = _ by omega) isFull
    | exact calls more reaches => exact absurd rfl isFull
    | beyond result more never tooMany =>
        have isExit : checkRecv result.1 requestHeaderSize = .exits := by
          rw [checkRecv, if_neg (by omega), if_neg (by omega), if_pos isFull]
        obtain ⟨recvd, header, socket⟩ := result
        dsimp only at isExit ⊢
        rw [isExit]
        exact .exits socket

/-- Within a message, or at the end of the stream, no request is found. -/
theorem recvReq_of_unfinished (client : Client) (chunks : ℕ → ℕ+) :
    Incomplete (recvReq (Socket.splitting client.unfinished chunks)) := by
  obtain ⟨req, ⟨rest, isWire⟩, notWhole⟩ := client.within_message
  by_cases isShort : client.unfinished.length < requestHeaderSize
  · obtain ⟨later, isRead⟩ := recvfull_short chunks isShort.le
    rw [recvReq, isRead]
    exact incomplete_of_lt isShort later _
  · -- The header is whole, and a part of the data follows.
    have isLong : req.header.length ≤ client.unfinished.length := by
      rw [req.length_header]
      exact not_lt.mp isShort
    rw [Request.wire] at isWire notWhole
    obtain ⟨part, isSplit⟩ : req.header <+: client.unfinished :=
      List.prefix_of_prefix_length_le ⟨req.data, rfl⟩ ⟨rest, isWire⟩ isLong
    rw [← isSplit, List.append_assoc, List.append_cancel_left_eq] at isWire
    have isLess : part.length < req.data.length := by
      rw [← isWire, List.length_append]
      apply Nat.lt_add_of_pos_right
      apply List.length_pos_of_ne_nil
      rintro rfl
      rw [← isSplit, ← isWire, List.append_nil] at notWhole
      exact notWhole rfl
    rw [← isSplit]
    exact recvReq_within_data chunks isLess

end

/-! ## The scan -/

namespace NetworkedServer

variable {st : NetworkedServer} {readSet : ℕ → Bool} {fd : ℕ}

/-- Wherever the head stands, the loop looks at every client once. -/
theorem scanned_eq_rotate (st : NetworkedServer) :
    st.scanned = st.clientFds.rotate st.recvClientHead := by
  apply List.ext_getElem
  · rw [scanned, List.length_map, List.length_range, List.length_rotate]
  · intro i isIndex isRotated
    rw [List.length_rotate] at isRotated
    have within := Nat.mod_lt (st.recvClientHead + i) (Nat.zero_lt_of_lt isRotated)
    simp only [scanned, List.getElem_map, List.getElem_range, List.getElem_rotate]
    rw [List.getD_eq_getElem?_getD, List.getElem?_eq_getElem within, Option.getD_some]
    simp only [add_comm]

theorem mem_scanned : fd ∈ st.scanned ↔ fd ∈ st.clientFds := by
  rw [scanned_eq_rotate, List.mem_rotate]

theorem mem_of_chosen (isChosen : st.chosen readSet = some fd) :
    fd ∈ st.clientFds ∧ readSet fd = true :=
  ⟨mem_scanned.mp (List.mem_of_find?_eq_some isChosen), List.find?_some isChosen⟩

/-- The loop finds a client if `select` left one. -/
theorem exists_chosen (leaves : ∃ fd ∈ st.clientFds, readSet fd = true) :
    ∃ fd, st.chosen readSet = some fd := by
  obtain ⟨fd, isClient, isLeft⟩ := leaves
  exact Option.isSome_iff_exists.mp
    (List.find?_isSome.mpr ⟨fd, mem_scanned.mpr isClient, isLeft⟩)

/-! ## The turn -/

theorem turn_of_chosen (isChosen : st.chosen readSet = some fd) :
    st.turn readSet = match Harness.recvReq (st.sockets fd) with
      | (.request header data, socket) => .ok ((st.afterReads fd socket).deliver fd header data)
      | (.clientLeft, socket) => .ok ((st.afterReads fd socket).removeClient fd)
      | (.exits, _) => .error .failed := by
  rw [turn, if_neg (List.ne_nil_of_mem (mem_of_chosen isChosen).1), isChosen]

/-- What a turn does to the list of clients and to the deliveries. -/
theorem turn_cases {next : NetworkedServer} (turned : st.turn readSet = .ok next) :
    (next.delivered = st.delivered ∧ ∃ fd ∈ st.clientFds, next.clientFds = st.clientFds.erase fd) ∨
      ∃ fd delivery, st.chosen readSet = some fd ∧
        next.delivered = st.delivered ++ [delivery] ∧ next.clientFds = st.clientFds := by
  rw [turn] at turned
  split at turned
  · cases turned
  · cases isChosen : st.chosen readSet with
    | none =>
        rw [isChosen] at turned
        cases turned
    | some fd =>
        rw [isChosen] at turned
        dsimp only at turned
        generalize Harness.recvReq (st.sockets fd) = result at turned
        obtain ⟨found, socket⟩ := result
        cases found with
        | request header data =>
            cases turned
            exact .inr ⟨fd, _, rfl, rfl, rfl⟩
        | clientLeft =>
            cases turned
            exact .inl ⟨rfl, fd, (mem_of_chosen isChosen).1, rfl⟩
        | exits => cases turned

section

variable {next : NetworkedServer} (later : List (ℕ → Bool))

theorem recvReq_cons_of_same (turned : st.turn readSet = .ok next)
    (same : next.delivered = st.delivered) :
    st.recvReq (readSet :: later) = next.recvReq later := by
  rw [recvReq, turned]
  dsimp only
  rw [same, if_neg (lt_irrefl _)]

theorem recvReq_cons_of_delivered {delivery : Delivery} (turned : st.turn readSet = .ok next)
    (delivered : next.delivered = st.delivered ++ [delivery]) :
    st.recvReq (readSet :: later) = some (.ok next) := by
  rw [recvReq, turned]
  dsimp only
  rw [delivered, List.length_append, List.length_singleton, if_pos (Nat.lt_succ_self _)]

end

/-- A call ends after at most as many turns as there are clients, and one. -/
theorem recvReq_isSome {selects : List (ℕ → Bool)}
    (enough : st.clientFds.length ≤ selects.length) : (st.recvReq selects).isSome = true := by
  induction selects generalizing st with
  | nil =>
      rw [recvReq, if_pos (List.eq_nil_of_length_eq_zero (Nat.le_zero.mp enough))]
      rfl
  | cons readSet later ih =>
      cases turned : st.turn readSet with
      | error ends =>
          rw [recvReq, turned]
          rfl
      | ok next =>
          rcases turn_cases turned with ⟨same, fd, isClient, others⟩ | ⟨_, _, _, delivered, _⟩
          · rw [recvReq_cons_of_same later turned same]
            apply ih
            rw [others, List.length_erase_of_mem isClient]
            exact Nat.sub_le_of_le_add enough
          · rw [recvReq_cons_of_delivered later turned delivered]
            rfl

/-! ## What a turn leaves -/

section

variable (socket : Socket) (req : Request)

@[simp]
theorem sockets_self : (st.afterReads fd socket).sockets fd = socket := Function.update_self _ _ _

theorem sockets_of_ne {other : ℕ} (different : other ≠ fd) :
    (st.afterReads fd socket).sockets other = st.sockets other :=
  Function.update_of_ne different _ _

theorem delivered_deliver :
    ((st.afterReads fd socket).deliver fd req.header req.data).delivered =
      st.delivered ++ [req.delivery fd] := by
  rw [deliver, req.id_header, req.length_data_header]
  rfl

theorem deliveredFrom_deliver :
    ((st.afterReads fd socket).deliver fd req.header req.data).deliveredFrom fd =
      st.deliveredFrom fd ++ [req.delivery fd] := by
  rw [deliveredFrom, delivered_deliver, List.filter_append]
  simp [Request.delivery, deliveredFrom]

theorem deliveredFrom_deliver_of_ne {other : ℕ} (different : other ≠ fd) :
    ((st.afterReads fd socket).deliver fd req.header req.data).deliveredFrom other =
      st.deliveredFrom other := by
  rw [deliveredFrom, delivered_deliver, List.filter_append]
  simp [Request.delivery, deliveredFrom, different.symm]

end

end NetworkedServer

/-! ## The invariant -/

namespace Connections

variable {conns : Connections} {st next : NetworkedServer} {readSet : ℕ → Bool} {fd : ℕ}
variable {req : Request}

/-- A connected client has some of its requests delivered, and the others stand unread in its
socket. -/
structure InStream (conns : Connections) (st : NetworkedServer) (fd : ℕ)
    (done pending : List Request) (chunks : ℕ → ℕ+) : Prop where
  requests : (conns.client fd).requests = done ++ pending
  delivered : st.deliveredFrom fd = done.map fun req => req.delivery fd
  socket : st.sockets fd = Socket.splitting
    (pending.flatMap Request.wire ++ (conns.client fd).unfinished) chunks
  meets : ChunksMeetCalls (pending.flatMap Request.wire ++ (conns.client fd).unfinished) chunks
    (pending.flatMap Request.lens)

/-- What the server keeps while its turns deliver the awaited requests. -/
structure Serves (conns : Connections) (st : NetworkedServer) : Prop where
  distinct : st.clientFds.Nodup
  accepted : ∀ fd ∈ st.clientFds, fd ∈ conns.clientFds
  connected : ∀ fd ∈ st.clientFds, ∃ done pending chunks, conns.InStream st fd done pending chunks
  removed : conns.RemovesClosed st

theorem serves_accepted (reads : conns.ReadsExactly) : conns.Serves conns.accepted where
  distinct := conns.distinct
  accepted := fun _ isClient => isClient
  connected := fun fd isClient => ⟨[], (conns.client fd).requests, conns.chunks fd, rfl, rfl, rfl,
    (readsPieces_iff _ _ _).mp (reads fd isClient)⟩
  removed := fun _ isClient isRemoved => absurd isClient isRemoved

section

variable {done pending : List Request} {chunks : ℕ → ℕ+}

theorem InStream.awaited (inStream : conns.InStream st fd done pending chunks) :
    conns.awaited st fd = pending.head? := by
  rw [Connections.awaited, inStream.delivered, inStream.requests, List.length_map,
    List.getElem?_append_right le_rfl, Nat.sub_self, List.head?_eq_getElem?]

/-- A client at which nothing happened. -/
theorem InStream.of_same (inStream : conns.InStream st fd done pending chunks)
    (sameDelivered : next.deliveredFrom fd = st.deliveredFrom fd)
    (sameSocket : next.sockets fd = st.sockets fd) :
    conns.InStream next fd done pending chunks where
  requests := inStream.requests
  delivered := sameDelivered.trans inStream.delivered
  socket := sameSocket.trans inStream.socket
  meets := inStream.meets

end

theorem Serves.deliver {done rest : List Request} {chunks later : ℕ → ℕ+}
    (serves : conns.Serves st) (isClient : fd ∈ st.clientFds)
    (inStream : conns.InStream st fd done (req :: rest) chunks)
    (meets : ChunksMeetCalls (rest.flatMap Request.wire ++ (conns.client fd).unfinished) later
      (rest.flatMap Request.lens)) :
    conns.Serves ((st.afterReads fd (Socket.splitting
      (rest.flatMap Request.wire ++ (conns.client fd).unfinished) later)).deliver fd req.header
        req.data) where
  distinct := serves.distinct
  accepted := serves.accepted
  connected := by
    intro other isOther
    by_cases same : other = fd
    · subst same
      refine ⟨done ++ [req], rest, later, ?_, ?_, NetworkedServer.sockets_self _, meets⟩
      · rw [inStream.requests, List.append_assoc, List.singleton_append]
      · rw [NetworkedServer.deliveredFrom_deliver, inStream.delivered, List.map_append,
          List.map_singleton]
    · obtain ⟨doneOther, pendingOther, chunksOther, inStreamOther⟩ := serves.connected other isOther
      exact ⟨doneOther, pendingOther, chunksOther, inStreamOther.of_same
        (NetworkedServer.deliveredFrom_deliver_of_ne _ _ same)
        (NetworkedServer.sockets_of_ne _ same)⟩
  removed := by
    intro other isAccepted isRemoved
    have different : other ≠ fd := fun same => isRemoved (same ▸ isClient)
    obtain ⟨closes, ended, delivered⟩ := serves.removed other isAccepted isRemoved
    refine ⟨closes, ?_, ?_⟩
    · exact (congrArg Socket.unread (NetworkedServer.sockets_of_ne _ different)).trans ended
    · exact (NetworkedServer.deliveredFrom_deliver_of_ne _ _ different).trans delivered

theorem Serves.removeClient {done : List Request} {chunks : ℕ → ℕ+} (serves : conns.Serves st)
    (inStream : conns.InStream st fd done [] chunks)
    (closes : (conns.client fd).closes = true) (later : ℕ → ℕ+) :
    conns.Serves ((st.afterReads fd (Socket.splitting [] later)).removeClient fd) where
  distinct := serves.distinct.erase fd
  accepted := fun other isOther => serves.accepted other (List.mem_of_mem_erase isOther)
  connected := by
    intro other isOther
    obtain ⟨different, isConnected⟩ := serves.distinct.mem_erase_iff.mp isOther
    obtain ⟨doneOther, pendingOther, chunksOther, inStreamOther⟩ :=
      serves.connected other isConnected
    exact ⟨doneOther, pendingOther, chunksOther,
      inStreamOther.of_same rfl (NetworkedServer.sockets_of_ne _ different)⟩
  removed := by
    intro other isAccepted isRemoved
    by_cases same : other = fd
    · subst same
      have isAll : (conns.client other).requests = done := by
        rw [inStream.requests, List.append_nil]
      refine ⟨closes, ?_, ?_⟩
      · exact congrArg Socket.unread (NetworkedServer.sockets_self _)
      · exact inStream.delivered.trans (by rw [isAll])
    · have notConnected : other ∉ st.clientFds := fun isConnected =>
        isRemoved (serves.distinct.mem_erase_iff.mpr ⟨same, isConnected⟩)
      obtain ⟨closesOther, ended, delivered⟩ := serves.removed other isAccepted notConnected
      refine ⟨closesOther, ?_, delivered⟩
      exact (congrArg Socket.unread (NetworkedServer.sockets_of_ne _ same)).trans ended

/-- The awaited request of a client is the next one in its stream. -/
theorem Serves.exists_inStream (serves : conns.Serves st) (isClient : fd ∈ st.clientFds)
    (isAwaited : conns.awaited st fd = some req) :
    ∃ done rest chunks, conns.InStream st fd done (req :: rest) chunks := by
  rcases serves.connected fd isClient with ⟨done, pending, chunks, inStream⟩
  rw [inStream.awaited] at isAwaited
  rcases List.head?_eq_some_iff.mp isAwaited with ⟨rest, rfl⟩
  exact ⟨done, rest, chunks, inStream⟩

theorem InStream.socket_cons {done rest : List Request} {chunks : ℕ → ℕ+}
    (inStream : conns.InStream st fd done (req :: rest) chunks) :
    st.sockets fd = Socket.splitting
      (req.wire ++ (rest.flatMap Request.wire ++ (conns.client fd).unfinished)) chunks := by
  rw [inStream.socket, List.flatMap_cons, List.append_assoc]

theorem InStream.meets_cons {done rest : List Request} {chunks : ℕ → ℕ+}
    (inStream : conns.InStream st fd done (req :: rest) chunks) :
    ChunksMeetCalls (req.wire ++ (rest.flatMap Request.wire ++ (conns.client fd).unfinished))
      chunks (req.lens ++ rest.flatMap Request.lens) := by
  have meets := inStream.meets
  rwa [List.flatMap_cons, List.append_assoc, List.flatMap_cons] at meets

/-- A client whose next request has a payload is served. -/
theorem Serves.turn_of_payload (serves : conns.Serves st) (isChosen : st.chosen readSet = some fd)
    (isAwaited : conns.awaited st fd = some req) (notEmpty : req.data ≠ []) :
    ∃ next, st.turn readSet = .ok next ∧ next.delivered = st.delivered ++ [req.delivery fd] ∧
      conns.Serves next := by
  have isClient := (NetworkedServer.mem_of_chosen isChosen).1
  rcases serves.exists_inStream isClient isAwaited with ⟨done, rest, chunks, inStream⟩
  rcases recvReq_of_payload notEmpty inStream.meets_cons with ⟨later, found, meetsLater⟩
  have turned := NetworkedServer.turn_of_chosen isChosen
  rw [inStream.socket_cons, found] at turned
  exact ⟨_, turned, NetworkedServer.delivered_deliver _ req,
    serves.deliver isClient inStream meetsLater⟩

/-- A client whose next request is empty is removed in its place. -/
theorem Serves.turn_of_empty (serves : conns.Serves st) (isChosen : st.chosen readSet = some fd)
    (isAwaited : conns.awaited st fd = some req) (isEmpty : req.data = [])
    (turned : st.turn readSet = .ok next) : next.delivered = st.delivered := by
  have isClient := (NetworkedServer.mem_of_chosen isChosen).1
  rcases serves.exists_inStream isClient isAwaited with ⟨done, rest, chunks, inStream⟩
  have left := recvReq_of_empty isEmpty inStream.meets_cons
  rw [NetworkedServer.turn_of_chosen isChosen, inStream.socket_cons] at turned
  generalize recvReq _ = result at left turned
  rcases result with ⟨found, after⟩
  subst left
  cases turned
  rfl

/-- A client without a further request is removed, if the server goes on. -/
theorem Serves.turn_of_none (serves : conns.Serves st) (leaves : conns.SelectLeaves st readSet)
    (isChosen : st.chosen readSet = some fd) (isAwaited : conns.awaited st fd = none)
    (turned : st.turn readSet = .ok next) :
    conns.Serves next ∧ next.delivered = st.delivered := by
  obtain ⟨isClient, isLeft⟩ := NetworkedServer.mem_of_chosen isChosen
  obtain ⟨done, pending, chunks, inStream⟩ := serves.connected fd isClient
  rw [inStream.awaited] at isAwaited
  obtain rfl := List.head?_eq_none_iff.mp isAwaited
  have socket := inStream.socket
  rw [List.flatMap_nil, List.nil_append] at socket
  have closes : (conns.client fd).closes = true := by
    rcases (leaves (List.ne_nil_of_mem isClient)).2 fd isClient isLeft with unread | closes
    · rw [socket] at unread
      exact (conns.client fd).closes_within unread
    · exact closes
  have incomplete := recvReq_of_unfinished (conns.client fd) chunks
  rw [NetworkedServer.turn_of_chosen isChosen, socket] at turned
  generalize recvReq _ = result at incomplete turned
  cases incomplete with
  | clientLeft later =>
      cases turned
      exact ⟨serves.removeClient inStream closes later, rfl⟩
  | exits socket => cases turned

/-- While no request is empty, every turn keeps the server serving. -/
theorem Serves.turn_of_awaitsPayload (serves : conns.Serves st)
    (leaves : conns.SelectLeaves st readSet) (payload : conns.AwaitsPayload st readSet)
    (turned : st.turn readSet = .ok next) : conns.Serves next := by
  have connected : st.clientFds ≠ [] := by
    intro noClient
    rw [NetworkedServer.turn, if_pos noClient] at turned
    cases turned
  obtain ⟨fd, isChosen⟩ := NetworkedServer.exists_chosen (leaves connected).1
  cases isAwaited : conns.awaited st fd with
  | none => exact (serves.turn_of_none leaves isChosen isAwaited turned).1
  | some req =>
      have notEmpty := payload fd isChosen req isAwaited
      obtain ⟨served, isTurn, -, keeps⟩ := serves.turn_of_payload isChosen isAwaited notEmpty
      rw [isTurn] at turned
      cases turned
      exact keeps

/-- A turn delivers the awaited request precisely if this request has a payload. -/
theorem Serves.deliversAwaited_iff (serves : conns.Serves st)
    (leaves : conns.SelectLeaves st readSet) :
    conns.DeliversAwaited st readSet ↔ conns.AwaitsPayload st readSet := by
  constructor
  · intro delivers fd isChosen req isAwaited isEmpty
    have isClient := (NetworkedServer.mem_of_chosen isChosen).1
    obtain ⟨other, -, isOther, finds⟩ := delivers (List.ne_nil_of_mem isClient)
    obtain rfl : other = fd := Option.some_inj.mp (isOther.symm.trans isChosen)
    obtain ⟨next, turned, delivered⟩ := finds req isAwaited
    rw [serves.turn_of_empty isChosen isAwaited isEmpty turned] at delivered
    exact List.cons_ne_nil _ _ (List.self_eq_append_right.mp delivered)
  · intro payload connected
    obtain ⟨fd, isChosen⟩ := NetworkedServer.exists_chosen (leaves connected).1
    refine ⟨fd, (NetworkedServer.mem_of_chosen isChosen).1, isChosen, fun req isAwaited => ?_⟩
    obtain ⟨next, turned, delivered, -⟩ :=
      serves.turn_of_payload isChosen isAwaited (payload fd isChosen req isAwaited)
    exact ⟨next, turned, delivered⟩

/-- A call that returns has delivered the request that one client sent next. -/
theorem Serves.recvReq_delivers {selects : List (ℕ → Bool)} (serves : conns.Serves st)
    (leaves : AtEachStep NetworkedServer.turn st selects
      fun _ st readSet => conns.SelectLeaves st readSet)
    (payload : AtEachStep NetworkedServer.turn st selects
      fun _ st readSet => conns.AwaitsPayload st readSet)
    (returned : st.recvReq selects = some (.ok next)) :
    conns.Serves next ∧ ∃ fd req, conns.awaited st fd = some req ∧
      next.delivered = st.delivered ++ [req.delivery fd] := by
  induction selects generalizing st with
  | nil =>
      rw [NetworkedServer.recvReq] at returned
      split at returned <;> cases returned
  | cons readSet later ih =>
      obtain ⟨isLeft, leavesLater⟩ := atEachStep_cons_iff.mp leaves
      obtain ⟨hasPayload, payloadLater⟩ := atEachStep_cons_iff.mp payload
      cases turned : st.turn readSet with
      | error ends =>
          rw [NetworkedServer.recvReq, turned] at returned
          cases returned
      | ok middle =>
          have keeps := serves.turn_of_awaitsPayload isLeft hasPayload turned
          rcases NetworkedServer.turn_cases turned with
            ⟨same, -⟩ | ⟨fd, delivery, isChosen, delivered, -⟩
          · -- The turn removed a client, and the others await what they awaited.
            rw [NetworkedServer.recvReq_cons_of_same later turned same] at returned
            obtain ⟨served, fd, req, isAwaited, delivered⟩ :=
              ih keeps (leavesLater middle turned) (payloadLater middle turned) returned
            rw [awaited, NetworkedServer.deliveredFrom, same] at isAwaited
            rw [same] at delivered
            exact ⟨served, fd, req, isAwaited, delivered⟩
          · rw [NetworkedServer.recvReq_cons_of_delivered later turned delivered] at returned
            cases returned
            refine ⟨keeps, fd, ?_⟩
            cases isAwaited : conns.awaited st fd with
            | none =>
                rw [(serves.turn_of_none isLeft isChosen isAwaited turned).2] at delivered
                exact absurd (List.self_eq_append_right.mp delivered) (List.cons_ne_nil _ _)
            | some req =>
                obtain ⟨found, isTurn, isDelivered, -⟩ :=
                  serves.turn_of_payload isChosen isAwaited (hasPayload fd isChosen req isAwaited)
                rw [turned] at isTurn
                cases isTurn
                exact ⟨req, rfl, isDelivered⟩

end Connections

/-! ## Whole runs -/

/-- In every run, each turn delivers the request that its client sent next and only clients
that have closed their connections are removed, precisely if no turn is at a client whose next
request is empty. -/
theorem deliversRequests_iff (conns : Connections) (reads : conns.ReadsExactly)
    (selects : List (ℕ → Bool))
    (leaves : AtEachStep NetworkedServer.turn conns.accepted selects
      fun _ st readSet => conns.SelectLeaves st readSet) :
    (AtEachStep NetworkedServer.turn conns.accepted selects
        (fun _ st readSet => conns.DeliversAwaited st readSet) ∧
      AlongRun NetworkedServer.turn conns.accepted selects
        fun _ st => conns.RemovesClosed st) ↔
      AtEachStep NetworkedServer.turn conns.accepted selects
        fun _ st readSet => conns.AwaitsPayload st readSet := by
  have start := Connections.serves_accepted reads
  have kept : ∀ st readSet next, conns.Serves st → conns.SelectLeaves st readSet →
      conns.AwaitsPayload st readSet → st.turn readSet = .ok next → conns.Serves next :=
    fun st readSet next serves isLeft payload => serves.turn_of_awaitsPayload isLeft payload
  have agree := atEachStep_congr start kept
    (fun st readSet serves isLeft => serves.deliversAwaited_iff isLeft) leaves
  constructor
  · exact fun both => agree.mp both.1
  · intro payload
    refine ⟨agree.mpr payload, fun early isPrefix st reached => ?_⟩
    have along : AlongRun NetworkedServer.turn conns.accepted selects fun _ st => conns.Serves st :=
      @alongRun_of_atEachStep _ _ _ _ _ _ _ (fun _ st readSet =>
        conns.SelectLeaves st readSet ∧ conns.AwaitsPayload st readSet) start
        (fun _ st readSet next serves both => kept st readSet next serves both.1 both.2)
        fun early readSet isEarly st reached =>
          ⟨leaves early readSet isEarly st reached, payload early readSet isEarly st reached⟩
    exact (along early isPrefix st reached).removed

/-- One client with one request, which stays connected. All its bytes are queued. -/
def onlyClient (data : List UInt8) (fits : data.length ≤ MAX_REQ_BYTES) : Connections where
  clientFds := [7]
  distinct := List.nodup_singleton 7
  client := fun _ => {
    requests := [⟨5, 0, data, fits⟩]
    unfinished := []
    closes := false
    within_message := ⟨⟨0, 0, [], Nat.zero_le _⟩, List.nil_prefix, by decide⟩
    closes_within := fun isBegin => absurd rfl isBegin }
  chunks := fun _ _ => 100

/-- `select` leaves the client. -/
theorem onlyClient_leaves (data : List UInt8) (fits : data.length ≤ MAX_REQ_BYTES) :
    AtEachStep NetworkedServer.turn (onlyClient data fits).accepted [fun _ => true]
      fun _ st readSet => (onlyClient data fits).SelectLeaves st readSet := by
  refine atEachStep_cons_iff.mpr ⟨fun _ => ⟨⟨7, List.mem_singleton_self 7, rfl⟩, ?_⟩,
    fun _ _ => atEachStep_nil⟩
  exact fun _ _ _ => .inl (List.cons_ne_nil _ _)

def oneByte : Connections := onlyClient [1] (by decide)

theorem oneByte_deliversRequests_iff :
    (AtEachStep NetworkedServer.turn oneByte.accepted [fun _ => true]
        (fun _ st readSet => oneByte.DeliversAwaited st readSet) ∧
      AlongRun NetworkedServer.turn oneByte.accepted [fun _ => true]
        fun _ st => oneByte.RemovesClosed st) ↔
      AtEachStep NetworkedServer.turn oneByte.accepted [fun _ => true]
        fun _ st readSet => oneByte.AwaitsPayload st readSet := by
  apply deliversRequests_iff
  · intro fd isClient
    obtain rfl := List.mem_singleton.mp isClient
    unfold ReadsPieces
    decide +kernel
  · exact onlyClient_leaves _ _

def noBytes : Connections := onlyClient [] (by decide)

/-- A connected client sends a request without a payload. The server removes the client and
delivers nothing. -/
theorem empty_request_removes_client :
    noBytes.ReadsExactly ∧
    (AtEachStep NetworkedServer.turn noBytes.accepted [fun _ => true]
      fun _ st readSet => noBytes.SelectLeaves st readSet) ∧
    ((noBytes.accepted.turn fun _ => true).toOption.map
        fun next => (next.clientFds, next.delivered)) = some ([], []) ∧
    ¬ (AtEachStep NetworkedServer.turn noBytes.accepted [fun _ => true]
        fun _ st readSet => noBytes.DeliversAwaited st readSet) ∧
    ¬ AlongRun NetworkedServer.turn noBytes.accepted [fun _ => true]
        fun _ st => noBytes.RemovesClosed st := by
  have removed : ((noBytes.accepted.turn fun _ => true).toOption.map
      fun next => (next.clientFds, next.delivered)) = some ([], []) := by decide +kernel
  cases turned : noBytes.accepted.turn fun _ => true with
  | error ends =>
      rw [turned] at removed
      cases removed
  | ok next =>
      rw [turned] at removed
      obtain ⟨noClients, noDeliveries⟩ := Prod.mk.inj (Option.some.inj removed)
      refine ⟨?_, onlyClient_leaves _ _, removed, fun delivers => ?_, fun removes => ?_⟩
      · intro fd isClient
        obtain rfl := List.mem_singleton.mp isClient
        unfold ReadsPieces
        decide +kernel
      · obtain ⟨fd, isClient, -, finds⟩ :=
          (atEachStep_cons_iff.mp delivers).1 (List.cons_ne_nil _ _)
        obtain rfl := List.mem_singleton.mp isClient
        obtain ⟨other, isTurn, delivered⟩ := finds _ rfl
        rw [turned] at isTurn
        cases isTurn
        rw [noDeliveries] at delivered
        cases delivered
      · have reached : run NetworkedServer.turn noBytes.accepted [fun _ => true] = .ok next := by
          rw [run_cons_of_ok turned, run_nil]
        have closed := removes _ (List.prefix_refl _) next reached 7 (List.mem_singleton_self 7)
          (by rw [noClients]; exact List.not_mem_nil)
        exact absurd closed.1 (by decide)

end Datamime.Harness
