/-
# Batches and predictions

A batch of images travels from the client to the server as a text with an end mark whose length
is counted, and the prediction travels back through `strncpy`. The first way keeps all bytes. The
second one keeps them precisely if no byte other than zero follows a zero byte.
-/

import Datamime.Math.Memory
import Datamime.Harness.Messages

namespace Datamime.Dnn

open Datamime.Math

/-- `tBenchClientGenReq`: what it makes of the data array, and what it returns. -/
def tBenchClientGenReq (data : Memory) (batch : List UInt8) : Memory × ℕ :=
  (data.copy 0 (batch ++ [0]), batch.length + 1)

/-- The string that the server makes of the data of a request, from which it loads the batch. -/
def dataAsString (data : List UInt8) : List UInt8 := data.take (data.length - 1)

/-- The array that the server makes of a serialized prediction, and its length. -/
def resultArray (heap : Memory) (rstr : List UInt8) : Memory × ℕ :=
  let resLen := rstr.length % 2 ^ 32
  (heap.copy 0 (Memory.strncpyBytes (rstr ++ [0]) resLen), resLen)

/-- What the arrays hold that the client and the server allocate. -/
structure Heap where
  req : Memory
  res : Memory

/-- The bytes from which the server loads the batch, and those that it sends back. -/
structure Exchange where
  loaded : List UInt8
  sent : List UInt8
  deriving DecidableEq

/-- `Server::processRequest`, for a request that the client made. The model turns the serialized
batch into the serialized prediction. There is no exchange if a message exceeds its array. -/
def processRequest (model : List UInt8 → List UInt8) (heap : Heap) (batch : List UInt8) :
    Option Exchange := do
  let (data, len) := tBenchClientGenReq heap.req batch
  let req ← Harness.startReq 0 0 data len
  let loaded := dataAsString req.data
  let (res, resLen) := resultArray heap.res (model loaded)
  let resp ← Harness.sendResp 0 0 res resLen
  return ⟨loaded, resp.payload⟩

/-- The server loads what the client serialized and sends what the model serialized. -/
def Exchanges (model : List UInt8 → List UInt8) (heap : Heap) (batch : List UInt8) : Prop :=
  processRequest model heap batch = some ⟨batch, model batch⟩

/-- The end mark is added on one side and removed on the other. -/
theorem dataAsString_of_genReq (heap : Memory) (batch : List UInt8) :
    dataAsString ((tBenchClientGenReq heap batch).1.read 0 (tBenchClientGenReq heap batch).2) =
      batch := by
  have isRead := Memory.read_copy_self heap 0 (batch ++ [0])
  rw [List.length_append, List.length_singleton] at isRead
  simp [tBenchClientGenReq, isRead, dataAsString]

/-- The array of a result holds what `strncpy` stored. -/
theorem read_resultArray (heap : Memory) {rstr : List UInt8}
    (fits : rstr.length ≤ Harness.MAX_RESP_BYTES) :
    (resultArray heap rstr).2 = rstr.length ∧
      (resultArray heap rstr).1.read 0 rstr.length =
        Memory.strncpyBytes (rstr ++ [0]) rstr.length := by
  have small : rstr.length % 2 ^ 32 = rstr.length :=
    Nat.mod_eq_of_lt (fits.trans_lt (by decide))
  have isRead := Memory.read_copy_self heap 0 (Memory.strncpyBytes (rstr ++ [0]) rstr.length)
  rw [Memory.length_strncpyBytes] at isRead
  simp only [resultArray, small, isRead, and_self]

/-- Within the limits of the messages there is an exchange. The batch arrives as it was
serialized, and the prediction leaves as `strncpy` copied it. -/
theorem processRequest_eq (model : List UInt8 → List UInt8) (heap : Heap) {batch : List UInt8}
    (fitsBatch : batch.length + 1 ≤ Harness.MAX_REQ_BYTES)
    (fits : (model batch).length ≤ Harness.MAX_RESP_BYTES) :
    processRequest model heap batch =
      some ⟨batch, Memory.strncpyBytes (model batch ++ [0]) (model batch).length⟩ := by
  rcases Harness.startReq_eq 0 0 (tBenchClientGenReq heap.req batch).1 fitsBatch with
    ⟨req, isReq, isData⟩
  rcases read_resultArray heap.res fits with ⟨isLen, isRead⟩
  rcases Harness.sendResp_eq 0 0 (resultArray heap.res (model batch)).1 fits with
    ⟨resp, isResp, isPayload⟩
  have loaded : dataAsString req.data = batch := by
    rw [isData]
    exact dataAsString_of_genReq heap.req batch
  have isReq' : Harness.startReq 0 0 (tBenchClientGenReq heap.req batch).1
      (tBenchClientGenReq heap.req batch).2 = some req := isReq
  simp [processRequest, isReq', loaded, isLen, isResp, isPayload, isRead]

/-- Within the limits of the messages, batch and prediction arrive precisely if no byte other
than zero follows a zero byte of the prediction. -/
theorem exchanges_iff (model : List UInt8 → List UInt8) (heap : Heap) {batch : List UInt8}
    (fitsBatch : batch.length + 1 ≤ Harness.MAX_REQ_BYTES)
    (fits : (model batch).length ≤ Harness.MAX_RESP_BYTES) :
    Exchanges model heap batch ↔ Memory.ZerosAtEnd (model batch) := by
  rw [Exchanges, processRequest_eq model heap fitsBatch fits, ← Memory.strncpyBytes_eq_iff]
  simp

/-- Arrays of zero bytes. -/
def Heap.cleared : Heap := ⟨fun _ => 0, fun _ => 0⟩

theorem padded_exchanges_iff :
    Exchanges (fun _ => [80, 75, 0, 0]) .cleared [1, 0, 2] ↔ Memory.ZerosAtEnd [80, 75, 0, 0] :=
  exchanges_iff (fun _ => [80, 75, 0, 0]) .cleared (by decide) (by decide)

/-- A zero byte within a prediction cuts it off. -/
theorem zero_byte_cuts_prediction :
    ¬ Exchanges (fun _ => [80, 75, 0, 4]) .cleared [1, 0, 2] := by
  rw [Exchanges, processRequest_eq (fun _ => [80, 75, 0, 4]) .cleared (by decide) (by decide)]
  decide

end Datamime.Dnn
