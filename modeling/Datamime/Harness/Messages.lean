/-
# Requests and responses on the wire

Client and server exchange the in-memory form of their message structures, without
the unused end of the data array. The receiving side first reads the part before
the data, which holds the length of the data, and then the data.
-/

import Datamime.Harness.Socket
import Datamime.Math.Bytes
import Datamime.Math.Memory

namespace Datamime.Harness

open Datamime.Math

def MAX_REQ_BYTES : ℕ := 2 ^ 20

def MAX_RESP_BYTES : ℕ := 2 ^ 20

/-- `Request`; the first `len` bytes of its data array. -/
structure Request where
  id : UInt64
  genNs : UInt64
  data : List UInt8
  fits : data.length ≤ MAX_REQ_BYTES

inductive ResponseType
  | RESPONSE
  | ROI_BEGIN
  | FINISH
  deriving DecidableEq

/-- The value of the enumeration in memory. -/
def ResponseType.code : ResponseType → ℕ
  | .RESPONSE => 0
  | .ROI_BEGIN => 1
  | .FINISH => 2

/-- `Response`; the first `len` bytes of its data array. -/
structure Response where
  type : ResponseType
  id : UInt64
  svcNs : UInt64
  data : List UInt8
  fits : data.length ≤ MAX_RESP_BYTES

/-! ## The sent form -/

/-- `sizeof(Request) - MAX_REQ_BYTES`. -/
def requestHeaderSize : ℕ := 24

/-- `sizeof(Response) - MAX_RESP_BYTES`. -/
def responseHeaderSize : ℕ := 32

namespace Request

def header (req : Request) : List UInt8 :=
  Bytes.toBytes 8 req.id.toNat ++
    (Bytes.toBytes 8 req.genNs.toNat ++ Bytes.toBytes 8 req.data.length)

/-- What `NetworkedClient::send` passes to `sendfull`. -/
def wire (req : Request) : List UInt8 := req.header ++ req.data

end Request

namespace Response

/-- The type stands in four bytes, then come four unused ones. -/
def header (resp : Response) : List UInt8 :=
  Bytes.toBytes 4 resp.type.code ++
    (Bytes.toBytes 4 0 ++
      (Bytes.toBytes 8 resp.id.toNat ++
        (Bytes.toBytes 8 resp.svcNs.toNat ++ Bytes.toBytes 8 resp.data.length)))

/-- Only a response carries its data; the other types are sent as a header. -/
def payload (resp : Response) : List UInt8 :=
  match resp.type with
  | .RESPONSE => resp.data
  | _ => []

/-- What `NetworkedServer::sendResp` passes to `sendfull`. -/
def wire (resp : Response) : List UInt8 := resp.header ++ resp.payload

end Response

/-! ## The receiving sides -/

/-- Conversion of a `size_t` to an `int`. -/
def asInt (n : ℕ) : ℤ := (BitVec.ofNat 32 n).toInt

/-- What `NetworkedServer::checkRecv` finds. -/
inductive Check
  | success
  | clientLeft
  | exits
  deriving DecidableEq

/-- `NetworkedServer::checkRecv`. -/
def checkRecv (recvd expected : ℤ) : Check :=
  if recvd = 0 then .clientLeft
  else if recvd = -1 then .exits
  else if recvd ≠ expected then .exits
  else .success

/-- How one turn of the loop of `NetworkedServer::recvReq` ends, at the chosen client. -/
inductive Turn
  /-- The header and the data that it found in the client's stream. -/
  | request (header data : List UInt8)
  | clientLeft
  | exits
  deriving DecidableEq

/-- The two reads of `NetworkedServer::recvReq`. -/
def recvReq (socket : Socket) : Turn × Socket :=
  let (recvd, header, socket) := recvfull socket requestHeaderSize
  match checkRecv recvd requestHeaderSize with
  | .clientLeft => (.clientLeft, socket)
  | .exits => (.exits, socket)
  | .success =>
      let len := asInt (Bytes.ofBytes (Bytes.field header 16 8))
      let (recvd, data, socket) := recvfull socket len
      match checkRecv recvd len with
      | .clientLeft => (.clientLeft, socket)
      | .exits => (.exits, socket)
      | .success => (.request header data, socket)

/-- The two reads of `NetworkedClient::recv`: the header and the data, or `none` where
it returns false. -/
def clientRecv (socket : Socket) : Option (List UInt8 × List UInt8) × Socket :=
  let (recvd, header, socket) := recvfull socket responseHeaderSize
  if recvd ≠ responseHeaderSize then (none, socket)
  else if Bytes.ofBytes (Bytes.field header 0 4) = ResponseType.RESPONSE.code then
    let len := Bytes.ofBytes (Bytes.field header 24 8)
    let (recvd, data, socket) := recvfull socket (asInt len)
    if recvd ≠ len then (none, socket) else (some (header, data), socket)
  else (some (header, []), socket)

/-- Successive turns of the server at one client. -/
def serverTurns (socket : Socket) : ℕ → List Turn
  | 0 => []
  | count + 1 =>
      let (turn, socket) := recvReq socket
      turn :: serverTurns socket count

/-- Successive calls of `NetworkedClient::recv`. -/
def clientRecvs (socket : Socket) : ℕ → List (Option (List UInt8 × List UInt8))
  | 0 => []
  | count + 1 =>
      let (received, socket) := clientRecv socket
      received :: clientRecvs socket count

/-! ## The lengths in the headers -/

theorem asInt_of_lt {n : ℕ} (small : n < 2 ^ 31) : asInt n = n := by
  have fits : (BitVec.ofNat 32 n).toNat = n := by
    rw [BitVec.toNat_ofNat]
    exact Nat.mod_eq_of_lt (by omega)
  rw [asInt, BitVec.toInt_eq_toNat_of_lt (by omega), fits]

namespace Request

@[simp]
theorem length_header (req : Request) : req.header.length = requestHeaderSize := by
  simp [header, requestHeaderSize]

theorem length_lt (req : Request) : req.data.length < 2 ^ 31 := by
  have bound := req.fits
  rw [MAX_REQ_BYTES] at bound
  omega

theorem id_header (req : Request) :
    Bytes.ofBytes (Bytes.field req.header 0 8) = req.id.toNat := by
  have starts := @Bytes.field_append [] (Bytes.toBytes 8 req.id.toNat)
  rw [header, ← List.nil_append (Bytes.toBytes 8 req.id.toNat ++ _), starts (by simp) (by simp),
    Bytes.ofBytes_toBytes req.id.toNat_lt]

/-- The header holds the length of the data. -/
theorem length_data_header (req : Request) :
    Bytes.ofBytes (Bytes.field req.header 16 8) = req.data.length := by
  have bound := req.length_lt
  have shape : req.header = (Bytes.toBytes 8 req.id.toNat ++ Bytes.toBytes 8 req.genNs.toNat) ++
      (Bytes.toBytes 8 req.data.length ++ []) := by
    rw [header, List.append_nil, List.append_assoc]
  rw [shape, Bytes.field_append (by simp) (by simp), Bytes.ofBytes_toBytes (by omega)]

theorem len_header (req : Request) :
    asInt (Bytes.ofBytes (Bytes.field req.header 16 8)) = req.data.length := by
  rw [req.length_data_header, asInt_of_lt req.length_lt]

end Request

namespace Response

@[simp]
theorem length_header (resp : Response) : resp.header.length = responseHeaderSize := by
  simp [header, responseHeaderSize]

theorem length_lt (resp : Response) : resp.data.length < 2 ^ 31 := by
  have bound := resp.fits
  rw [MAX_RESP_BYTES] at bound
  omega

theorem len_header (resp : Response) :
    Bytes.ofBytes (Bytes.field resp.header 24 8) = resp.data.length := by
  have bound := resp.length_lt
  have shape : resp.header = (Bytes.toBytes 4 resp.type.code ++ (Bytes.toBytes 4 0 ++
      (Bytes.toBytes 8 resp.id.toNat ++ Bytes.toBytes 8 resp.svcNs.toNat))) ++
      (Bytes.toBytes 8 resp.data.length ++ []) := by
    simp only [header, List.append_nil, List.append_assoc]
  rw [shape, Bytes.field_append (by simp) (by simp), Bytes.ofBytes_toBytes (by omega)]

theorem type_header (resp : Response) :
    Bytes.ofBytes (Bytes.field resp.header 0 4) = resp.type.code := by
  have small : resp.type.code < 256 ^ 4 := by
    cases resp.type <;> decide
  have starts := @Bytes.field_append [] (Bytes.toBytes 4 resp.type.code)
  rw [header, ← List.nil_append (Bytes.toBytes 4 resp.type.code ++ _),
    starts (by simp) (by simp), Bytes.ofBytes_toBytes small]

end Response

/-! ## The data arrays -/

/-- The request that `Client::startReq` makes, whose data array the client has filled up to some
length. A length beyond the array is not modelled. -/
def startReq (id genNs : UInt64) (data : Memory) (len : ℕ) : Option Request :=
  if fits : len ≤ MAX_REQ_BYTES then some ⟨id, genNs, data.read 0 len, by simpa using fits⟩
  else none

/-- The response that `IntegratedServer::sendResp` makes of some bytes of an array. -/
def sendResp (id svcNs : UInt64) (data : Memory) (len : ℕ) : Option Response :=
  if fits : len ≤ MAX_RESP_BYTES then
    some ⟨.RESPONSE, id, svcNs, data.read 0 len, by simpa using fits⟩
  else none

theorem startReq_eq (id genNs : UInt64) (data : Memory) {len : ℕ} (fits : len ≤ MAX_REQ_BYTES) :
    ∃ req, startReq id genNs data len = some req ∧ req.data = data.read 0 len :=
  ⟨_, dif_pos fits, rfl⟩

theorem sendResp_eq (id svcNs : UInt64) (data : Memory) {len : ℕ} (fits : len ≤ MAX_RESP_BYTES) :
    ∃ resp, sendResp id svcNs data len = some resp ∧ resp.payload = data.read 0 len :=
  ⟨_, dif_pos fits, rfl⟩

end Datamime.Harness
