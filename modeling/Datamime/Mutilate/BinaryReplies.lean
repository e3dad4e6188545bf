/-
# Responses in the binary protocol

A response in the binary protocol is a header with the length of what follows. Whatever the pieces
in which responses arrive, each of them is counted with all its bytes, and as a miss precisely if
it answers a get with a status that is not zero.
-/

import Datamime.Mutilate.Runs
import Mathlib.Data.Rat.Defs

namespace Datamime.Mutilate

open Datamime.Math

/-- The opcode of a response to an operation. -/
def OpType.opcode : OpType → ℕ
  | .GET => Binary.CMD_GET
  | .SET => Binary.CMD_SET

structure BinaryReply where
  type : OpType
  keyLen : ℕ
  extraLen : ℕ
  dataType : ℕ
  status : ℕ
  /-- The fields between the length and the body. -/
  label : ℕ
  version : ℕ
  body : List Char
  deriving DecidableEq

namespace BinaryReply

/-- The header up to the status. -/
def front (reply : BinaryReply) : List Char :=
  NetworkOrder.toBytes 2 reply.keyLen ++ NetworkOrder.toBytes 1 reply.extraLen ++
    NetworkOrder.toBytes 1 reply.dataType

def header (reply : BinaryReply) : List Char :=
  NetworkOrder.toBytes 1 0x81 ++ (NetworkOrder.toBytes 1 reply.type.opcode ++ (reply.front ++
    (NetworkOrder.toBytes 2 reply.status ++ (NetworkOrder.toBytes 4 reply.body.length ++
      (NetworkOrder.toBytes 4 reply.label ++ NetworkOrder.toBytes 8 reply.version)))))

def encode (reply : BinaryReply) : List Char := reply.header ++ reply.body

/-- A reply that can be told, to an operation of the type. -/
def fits (type : OpType) (reply : BinaryReply) : Bool :=
  reply.type = type && reply.status < 2 ^ 16 && reply.body.length + 24 < 2 ^ 31

def isMiss (reply : BinaryReply) : Bool := reply.type = .GET && reply.status ≠ 0

variable {reply : BinaryReply}

theorem length_header (reply : BinaryReply) : reply.header.length = 24 := by
  simp [header, front]

theorem length_encode (reply : BinaryReply) : reply.encode.length = 24 + reply.body.length := by
  rw [encode, List.length_append, length_header]

/-- A field of the header, wherever it is read from. -/
theorem field_eq {input : List Char} (isHeader : input.take 24 = reply.header) {offset width : ℕ}
    (inside : offset + width ≤ 24) :
    (input.drop offset).take width = (reply.header.drop offset).take width := by
  rw [← isHeader, List.take_drop, List.take_drop, List.take_take, Nat.min_eq_left inside]

theorem opcode_eq (reply : BinaryReply) :
    NetworkOrder.ofBytes ((reply.header.drop 1).take 1) = reply.type.opcode := by
  have isField : (reply.header.drop 1).take 1 = NetworkOrder.toBytes 1 reply.type.opcode := by
    rw [header, List.drop_left' (NetworkOrder.length_toBytes 1 _),
      List.take_left' (NetworkOrder.length_toBytes 1 _)]
  rw [isField, NetworkOrder.ofBytes_toBytes]
  cases reply.type <;> decide

theorem status_eq (small : reply.status < 2 ^ 16) :
    NetworkOrder.ofBytes ((reply.header.drop 6).take 2) = reply.status := by
  have split : reply.header = (NetworkOrder.toBytes 1 0x81 ++
      (NetworkOrder.toBytes 1 reply.type.opcode ++ reply.front)) ++
      (NetworkOrder.toBytes 2 reply.status ++ (NetworkOrder.toBytes 4 reply.body.length ++
        (NetworkOrder.toBytes 4 reply.label ++ NetworkOrder.toBytes 8 reply.version))) := by
    simp only [header, List.append_assoc]
  rw [split, List.drop_left' (by simp [front]), List.take_left' (NetworkOrder.length_toBytes 2 _),
    NetworkOrder.ofBytes_toBytes small]

theorem bodyLen_eq (small : reply.body.length < 2 ^ 32) :
    NetworkOrder.ofBytes ((reply.header.drop 8).take 4) = reply.body.length := by
  have split : reply.header = (NetworkOrder.toBytes 1 0x81 ++
      (NetworkOrder.toBytes 1 reply.type.opcode ++ (reply.front ++
        NetworkOrder.toBytes 2 reply.status))) ++ (NetworkOrder.toBytes 4 reply.body.length ++
        (NetworkOrder.toBytes 4 reply.label ++ NetworkOrder.toBytes 8 reply.version)) := by
    simp only [header, List.append_assoc]
  rw [split, List.drop_left' (by simp [front]), List.take_left' (NetworkOrder.length_toBytes 4 _),
    NetworkOrder.ofBytes_toBytes small]

/-- What `handle_response` does once the header has arrived. -/
theorem handleResponse_of_header {input : List Char} (isHeader : input.take 24 = reply.header)
    (fits : reply.fits reply.type = true) :
    Binary.handleResponse input =
      if input.length < reply.encode.length then .ok none
      else .ok (some {
        state := ()
        rest := input.drop reply.encode.length
        rxBytes := reply.encode.length
        getMisses := if reply.isMiss then 1 else 0
        done := true }) := by
  simp only [BinaryReply.fits, decide_true, Bool.true_and, Bool.and_eq_true,
    decide_eq_true_eq] at fits
  obtain ⟨smallStatus, smallBody⟩ := fits
  have enough : ¬ input.length < 24 := by
    have whole := congrArg List.length isHeader
    rw [List.length_take, length_header] at whole
    omega
  have isLength : ((24 + reply.body.length : ℕ) : ℤ).bmod (2 ^ 32) = reply.encode.length := by
    rw [length_encode]
    exact Int.bmod_eq_of_le (by omega) (by omega)
  rw [Binary.handleResponse, if_neg enough, field_eq isHeader (by decide),
    field_eq isHeader (by decide), field_eq isHeader (by decide), opcode_eq,
    status_eq smallStatus, bodyLen_eq (by omega)]
  dsimp only
  have notSasl : ¬ (reply.type.opcode = Binary.CMD_SASL ∧ reply.status ≠ Binary.RESP_OK) := by
    rintro ⟨isSasl, -⟩
    revert isSasl
    cases reply.type <;> decide
  have isGet : reply.type.opcode = Binary.CMD_GET ↔ reply.type = .GET := by
    cases reply.type <;> decide
  have drained : EventBuffer.drain reply.encode.length input = input.drop reply.encode.length :=
    if_pos (Int.natCast_nonneg _)
  have missed : (reply.type.opcode = Binary.CMD_GET ∧ reply.status ≠ 0) ↔
      reply.isMiss = true := by
    rw [isGet, isMiss, Bool.and_eq_true, decide_eq_true_eq, decide_eq_true_eq]
  rw [isLength, if_neg notSasl, drained]
  simp only [missed, Nat.cast_lt]

end BinaryReply

namespace Binary

variable {reply : BinaryReply}

theorem handleResponse_eq (st : Unit) (input : List Char) :
    (protocolBinary none).handleResponse st input = handleResponse input := rfl

/-- A reply is read at once. -/
theorem takes_reply (fits : reply.fits reply.type = true) :
    (protocolBinary none).Takes () reply.encode () reply.encode.length
      (if reply.isMiss then 1 else 0) true where
  arrived := by
    intro more
    have isHeader : (reply.encode ++ more).take 24 = reply.header := by
      rw [BinaryReply.encode, List.append_assoc, List.take_left' reply.length_header]
    have isWhole : ¬ (reply.encode ++ more).length < reply.encode.length := by
      rw [List.length_append]
      omega
    have taken := BinaryReply.handleResponse_of_header isHeader fits
    rw [if_neg isWhole, List.drop_left] at taken
    rw [handleResponse_eq, taken]
  waits := by
    intro part isPart notWhole
    rw [handleResponse_eq]
    by_cases short : part.length < 24
    · rw [Binary.handleResponse, if_pos short]
    · have shorter := isPart.length_le.lt_of_ne fun same => notWhole (isPart.eq_of_length same)
      obtain ⟨rest, isWhole⟩ := isPart
      have isHeader : part.take 24 = reply.header := by
        rw [← List.take_append_of_le_length (not_lt.mp short), isWhole, BinaryReply.encode,
          List.take_left' reply.length_header]
      rw [BinaryReply.handleResponse_of_header isHeader fits, if_pos shorter]
  someBytes := by
    intro isEmpty
    have noLength := congrArg List.length isEmpty
    rw [BinaryReply.length_encode, List.length_nil] at noLength
    omega
  keeps := fun _ => rfl

theorem length_key (key : List Char) : (key.take (keylen key)).length = keylen key := by
  rw [List.length_take]
  exact Nat.min_eq_left (Nat.mod_le _ _)

/-- The length that is reported for a request is that of what is written. -/
theorem length_getRequest (key : List Char) :
    (getRequest key).1.length = (getRequest key).2 := by
  rw [getRequest, List.length_append, length_key]
  simp [header]

theorem length_setRequest (key value : List Char) :
    (setRequest key value).1.length = (setRequest key value).2 := by
  rw [setRequest]
  simp only [List.length_append, length_key]
  simp only [header, List.length_append, NetworkOrder.length_toBytes]
  omega

end Binary

/-- The binary protocol without an authentication, for a server that keeps to it. -/
def binaryCodec : Codec (protocolBinary none) BinaryReply where
  encode := BinaryReply.encode
  fits := BinaryReply.fits
  rxBytes := fun reply => reply.encode.length
  getMisses := fun _ reply => if reply.isMiss then 1 else 0
  after := fun _ _ _ => ()
  Prepared := fun _ => True
  waits := fun _ _ => rfl
  reads := by
    intro st type reply _ fits
    have isOwn : reply.type = type := by
      simp only [BinaryReply.fits, Bool.and_eq_true, decide_eq_true_eq] at fits
      exact fits.1.1
    subst isOwn
    exact .last (Binary.takes_reply fits) fun _ => rfl
  prepared_after := fun _ _ _ _ _ => trivial
  start := ()
  first := fun _ => ()
  prepared_first := fun _ => trivial
  send_start := fun _ => rfl
  keeps := fun _ _ _ => rfl
  request := fun
    | .get key => (Binary.getRequest key).1
    | .set key value => (Binary.setRequest key value).1
  send_bytes := by
    intro st request
    cases request with
    | get key => exact Prod.ext rfl (Binary.length_getRequest key).symm
    | set key value => exact Prod.ext rfl (Binary.length_setRequest key value).symm
  isUsable := rfl

/-! ## What is counted -/

namespace Session

theorem missesOf_binary (pairs : List (OpType × BinaryReply)) :
    binaryCodec.missesOf () pairs = (pairs.map Prod.snd).countP BinaryReply.isMiss := by
  induction pairs with
  | nil => rfl
  | cons pair rest ih =>
      rcases pair with ⟨type, reply⟩
      rw [List.map_cons, List.countP_cons, ← ih, Nat.add_comm]
      rfl

variable {T : Type} [LinearOrder T] [Add T] [Sub T] [OfScientific T] {options : Options}
  {world : World T} {session : Session Unit BinaryReply T}

/-- Once all has arrived, each answered request is finished, and the counts of the connection are
all bytes of the responses since the last reset and all misses among them. -/
theorem binary_counts {events : List (SessionEvent BinaryReply T)}
    (reached : run (step binaryCodec options world) (initial binaryCodec) events = .ok session)
    (arrived : session.wire = []) :
    session.finishedCount = session.replies.length ∧
    session.conn.stats.rxBytes = ((session.replies.drop session.settled).map fun reply =>
      (reply.encode.length : ℤ)).sum ∧
    session.conn.stats.getMisses =
      (session.replies.drop session.settled).countP BinaryReply.isMiss := by
  obtain ⟨isFinished, rxBytes, counted⟩ := finished_of_arrived reached arrived
  refine ⟨isFinished, rxBytes, ?_⟩
  have isGood := good_along binaryCodec options world events events (List.prefix_refl _) session
    reached
  obtain ⟨finished, queued, isRead, unread, sound⟩ := isGood.isSound
  have enough : session.replies.length ≤ (session.conn.issued.map (·.op.type)).length := by
    rw [List.length_map]
    exact sound.follows.replies_length_le
  rw [missesOf_binary, missesOf_binary, List.map_take, answers, List.map_snd_zip enough] at counted
  have split : session.replies.countP BinaryReply.isMiss =
      (session.replies.take session.settled).countP BinaryReply.isMiss +
        (session.replies.drop session.settled).countP BinaryReply.isMiss := by
    rw [← List.countP_append, List.take_append_drop]
  omega

/-- One key is looked up over and over. -/
def lookups : World ℚ where
  clock := fun _ => 0
  delay := fun _ => 0
  request := fun _ => .get "b".toList
  record := fun _ => ("a".toList, "xyz".toList)
  patience := 0

def hitAndMiss : List (SessionEvent BinaryReply ℚ) :=
  [.connected, .start 10, .answer ⟨.GET, 0, 4, 0, 0, 0, 7, "0000xyz".toList⟩,
    .answer ⟨.GET, 0, 0, 0, 1, 0, 0, "Not found".toList⟩, .arrive 40, .arrive 24]

theorem hitAndMiss_counts : ∃ session,
    run (step binaryCodec ⟨0, 2, false, true, false, false, true⟩ lookups) (initial binaryCodec)
        hitAndMiss = .ok session ∧
      session.conn.stats.getMisses =
        (session.replies.drop session.settled).countP BinaryReply.isMiss ∧
      session.replies.length = 2 := by
  have passes : (run (step binaryCodec ⟨0, 2, false, true, false, false, true⟩ lookups)
      (initial binaryCodec) hitAndMiss).toOption.any (fun session => session.wire = [] &&
        session.replies.length = 2) = true := by
    decide +kernel
  obtain ⟨session, reached, isChecked⟩ := exists_of_any passes
  simp only [Bool.and_eq_true, decide_eq_true_eq] at isChecked
  exact ⟨session, reached, (binary_counts reached isChecked.1).2.2, isChecked.2⟩

end Session

end Datamime.Mutilate
