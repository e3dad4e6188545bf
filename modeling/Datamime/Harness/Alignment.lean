/-
# Reads that stay aligned with the messages

`recvfull` asks for the full length again after a short read. A call therefore
takes exactly its piece of the stream precisely when some chunk ends where the
call ends. The same condition decides whether the server and the client find
every message that the other side sent.
-/

import Datamime.Harness.Messages

namespace Datamime.Harness

open Datamime.Math

/-! ## One read -/

theorem chunksMeetCalls_nil (chunks : ℕ → ℕ+) (lens : List ℕ) : ChunksMeetCalls [] chunks lens := by
  cases lens with
  | nil => trivial
  | cons len rest => exact .inl (Nat.zero_le len)

section

variable {part rest : List UInt8} {chunks : ℕ → ℕ+}

/-- A read that returns its full length took exactly its part of the stream. What
follows meets the chunks as before. -/
theorem recvfull_of_result
    (full : (recvfull (Socket.splitting (part ++ rest) chunks) part.length).1 = part.length) :
    ∃ later, recvfull (Socket.splitting (part ++ rest) chunks) part.length =
        ((part.length : ℤ), part, Socket.splitting rest later) ∧
      ∀ lens, ChunksMeetCalls (part ++ rest) chunks (part.length :: lens) ↔
        ChunksMeetCalls rest later lens := by
  have received := recvfull_cases (part ++ rest) chunks part.length
  generalize recvfull (Socket.splitting (part ++ rest) chunks) part.length = result
    at full received
  cases received with
  | short later ends =>
      have isLast : rest = [] := by
        apply List.eq_nil_of_length_eq_zero
        rw [List.length_append] at ends
        omega
      subst isLast
      rw [List.append_nil] at ends ⊢
      exact ⟨later, rfl, fun lens =>
        ⟨fun _ => chunksMeetCalls_nil later lens, fun _ => .inl ends⟩⟩
  | exact calls more reaches =>
      refine ⟨laterChunks chunks calls, by rw [List.take_left, List.drop_left], fun lens => ?_⟩
      rw [ChunksMeetCalls, List.drop_left]
      constructor
      · rintro (ends | ⟨first, isFirst, meets⟩)
        · omega
        · rwa [reaches.unique isFirst]
      · exact fun meets => .inr ⟨calls, reaches, meets⟩
  | beyond _ more never tooMany => exact absurd full tooMany.ne'

/-- Chunks that meet a read let it return its full length. -/
theorem result_of_chunksMeetCalls {lens : List ℕ}
    (meets : ChunksMeetCalls (part ++ rest) chunks (part.length :: lens)) :
    (recvfull (Socket.splitting (part ++ rest) chunks) part.length).1 = part.length := by
  have received := recvfull_cases (part ++ rest) chunks part.length
  generalize recvfull (Socket.splitting (part ++ rest) chunks) part.length = result at received
  cases received with
  | short later ends =>
      have whole : part.length ≤ (part ++ rest).length := by
        rw [List.length_append]
        omega
      exact congrArg Nat.cast (le_antisymm ends whole)
  | exact calls more reaches => rfl
  | beyond _ more never tooMany =>
      rcases meets with ends | ⟨first, isFirst, -⟩
      · omega
      · exact absurd isFirst (never first)

end

/-! ## The server -/

theorem checkRecv_eq_success_iff {recvd expected : ℤ} (sent : 0 ≤ expected) :
    checkRecv recvd expected = .success ↔ recvd = expected ∧ expected ≠ 0 := by
  rw [checkRecv]
  split
  · simp
    omega
  · split
    · simp
      omega
    · simp
      omega

/-- The lengths of the two reads of a request. -/
def Request.lens (req : Request) : List ℕ := [requestHeaderSize, req.data.length]

section

variable {req : Request} {rest : List UInt8} {chunks : ℕ → ℕ+}

/-- A turn that has read the header goes on with the data. -/
theorem recvReq_of_header {socket afterHeader : Socket}
    (isHeader : recvfull socket requestHeaderSize =
      ((requestHeaderSize : ℤ), req.header, afterHeader)) :
    recvReq socket = match recvfull afterHeader req.data.length with
      | (recvd, data, last) => match checkRecv recvd req.data.length with
        | .clientLeft => (.clientLeft, last)
        | .exits => (.exits, last)
        | .success => (.request req.header data, last) := by
  have fullHeader : checkRecv requestHeaderSize requestHeaderSize = .success := by decide
  have isLength := req.len_header
  rw [recvReq, isHeader]
  dsimp only
  rw [fullHeader]
  dsimp only
  generalize asInt (Bytes.ofBytes (Bytes.field req.header 16 8)) = len at isLength ⊢
  subst isLength
  rfl

/-- A turn that has not read the whole header finds no request. -/
theorem recvReq_of_not_full {socket : Socket}
    (notFull : (recvfull socket requestHeaderSize).1 ≠ requestHeaderSize) :
    (recvReq socket).1 = .clientLeft ∨ (recvReq socket).1 = .exits := by
  rw [recvReq]
  generalize recvfull socket requestHeaderSize = first at notFull ⊢
  obtain ⟨recvd, header, rest⟩ := first
  dsimp only at notFull ⊢
  cases checked : checkRecv recvd requestHeaderSize with
  | clientLeft => exact .inl rfl
  | exits => exact .inr rfl
  | success =>
      exact absurd ((checkRecv_eq_success_iff (Int.natCast_nonneg _)).mp checked).1 notFull

/-- A turn that finds the request took exactly the request. -/
theorem recvReq_of_turn
    (found : (recvReq (Socket.splitting (req.wire ++ rest) chunks)).1 =
      .request req.header req.data) :
    req.data ≠ [] ∧ ∃ later,
      (recvReq (Socket.splitting (req.wire ++ rest) chunks)).2 = Socket.splitting rest later ∧
      ∀ lens, ChunksMeetCalls (req.wire ++ rest) chunks (req.lens ++ lens) ↔
        ChunksMeetCalls rest later lens := by
  rw [Request.wire, List.append_assoc] at found ⊢
  have headerRead := @recvfull_of_result req.header (req.data ++ rest) chunks
  rw [req.length_header] at headerRead
  by_cases isFull : (recvfull (Socket.splitting (req.header ++ (req.data ++ rest)) chunks)
      requestHeaderSize).1 = requestHeaderSize
  · obtain ⟨afterHeader, isHeader, meetsHeader⟩ := headerRead isFull
    rw [recvReq_of_header isHeader] at found ⊢
    have dataRead := @recvfull_of_result req.data rest afterHeader
    generalize recvfull (Socket.splitting (req.data ++ rest) afterHeader) req.data.length =
      second at found dataRead ⊢
    obtain ⟨recvd, data, last⟩ := second
    dsimp only at found dataRead ⊢
    cases checked : checkRecv recvd req.data.length with
    | clientLeft =>
        rw [checked] at found
        cases found
    | exits =>
        rw [checked] at found
        cases found
    | success =>
        obtain ⟨isFullData, notEmpty⟩ :=
          (checkRecv_eq_success_iff (Int.natCast_nonneg _)).mp checked
        obtain ⟨later, isData, meetsData⟩ := dataRead isFullData
        cases isData
        refine ⟨fun isEmpty => notEmpty (by rw [isEmpty]; rfl), later, rfl, fun lens => ?_⟩
        exact (meetsHeader (req.data.length :: lens)).trans (meetsData lens)
  · rcases recvReq_of_not_full isFull with left | exits
    · rw [left] at found
      cases found
    · rw [exits] at found
      cases found

/-- Chunks that meet both reads let a turn find the request. -/
theorem turn_of_chunksMeetCalls {lens : List ℕ} (notEmpty : req.data ≠ [])
    (meets : ChunksMeetCalls (req.wire ++ rest) chunks (req.lens ++ lens)) :
    (recvReq (Socket.splitting (req.wire ++ rest) chunks)).1 = .request req.header req.data := by
  rw [Request.wire, List.append_assoc, Request.lens, List.cons_append, ← req.length_header]
    at meets
  obtain ⟨afterHeader, isHeader, meetsHeader⟩ :=
    recvfull_of_result (result_of_chunksMeetCalls meets)
  have meetsData := (meetsHeader _).mp meets
  obtain ⟨later, isData, -⟩ := recvfull_of_result (result_of_chunksMeetCalls meetsData)
  have fullData : checkRecv req.data.length req.data.length = .success :=
    (checkRecv_eq_success_iff (Int.natCast_nonneg _)).mpr
      ⟨rfl, fun isZero => notEmpty (List.eq_nil_of_length_eq_zero (by exact_mod_cast isZero))⟩
  rw [req.length_header] at isHeader
  rw [Request.wire, List.append_assoc, recvReq_of_header isHeader, isData]
  dsimp only
  rw [fullData]

end

/-- The server finds every request precisely if the chunks meet its reads and no
request is empty; a read of nothing counts as the client having left. -/
theorem serverTurns_iff (requests : List Request) (chunks : ℕ → ℕ+) :
    serverTurns (Socket.splitting (requests.flatMap Request.wire) chunks) requests.length =
        requests.map (fun req => .request req.header req.data) ↔
      ChunksMeetCalls (requests.flatMap Request.wire) chunks (requests.flatMap Request.lens) ∧
        ∀ req ∈ requests, req.data ≠ [] := by
  induction requests generalizing chunks with
  | nil => exact ⟨fun _ => ⟨trivial, fun _ isMember => by cases isMember⟩, fun _ => rfl⟩
  | cons req requests ih =>
      rw [List.flatMap_cons, List.flatMap_cons, List.length_cons, List.map_cons, serverTurns,
        List.forall_mem_cons]
      dsimp only
      rw [List.cons.injEq]
      constructor
      · rintro ⟨found, others⟩
        obtain ⟨notEmpty, later, isLater, meets⟩ := recvReq_of_turn found
        rw [isLater] at others
        obtain ⟨meetsOthers, notEmptyOthers⟩ := (ih later).mp others
        exact ⟨(meets _).mpr meetsOthers, notEmpty, notEmptyOthers⟩
      · rintro ⟨meets, notEmpty, notEmptyOthers⟩
        have found := turn_of_chunksMeetCalls notEmpty meets
        obtain ⟨-, later, isLater, meetsLater⟩ := recvReq_of_turn found
        rw [isLater]
        exact ⟨found, (ih later).mpr ⟨(meetsLater _).mp meets, notEmptyOthers⟩⟩

/-! ## The client -/

/-- The lengths of the reads of a response. -/
def Response.lens (resp : Response) : List ℕ :=
  match resp.type with
  | .RESPONSE => [responseHeaderSize, resp.data.length]
  | _ => [responseHeaderSize]

namespace Response

variable (resp : Response)

theorem code_eq_iff : resp.type.code = ResponseType.RESPONSE.code ↔ resp.type = .RESPONSE := by
  cases resp.type <;> decide

theorem payload_of_response (carries : resp.type = .RESPONSE) : resp.payload = resp.data := by
  rw [payload, carries]

theorem lens_of_response (carries : resp.type = .RESPONSE) :
    resp.lens = [responseHeaderSize, resp.data.length] := by
  rw [lens, carries]

theorem payload_of_not_response (carriesNot : resp.type ≠ .RESPONSE) : resp.payload = [] := by
  rw [payload]
  cases isType : resp.type with
  | RESPONSE => exact absurd isType carriesNot
  | ROI_BEGIN => rfl
  | FINISH => rfl

theorem lens_of_not_response (carriesNot : resp.type ≠ .RESPONSE) :
    resp.lens = [responseHeaderSize] := by
  rw [lens]
  cases isType : resp.type with
  | RESPONSE => exact absurd isType carriesNot
  | ROI_BEGIN => rfl
  | FINISH => rfl

end Response

section

variable {resp : Response} {rest : List UInt8} {chunks : ℕ → ℕ+}

/-- A call that finds the response took exactly the response. -/
theorem clientRecv_of_found
    (found : (clientRecv (Socket.splitting (resp.wire ++ rest) chunks)).1 =
      some (resp.header, resp.payload)) :
    ∃ later,
      (clientRecv (Socket.splitting (resp.wire ++ rest) chunks)).2 = Socket.splitting rest later ∧
      ∀ lens, ChunksMeetCalls (resp.wire ++ rest) chunks (resp.lens ++ lens) ↔
        ChunksMeetCalls rest later lens := by
  rw [Response.wire, List.append_assoc] at found ⊢
  have headerRead := @recvfull_of_result resp.header (resp.payload ++ rest) chunks
  rw [resp.length_header] at headerRead
  rw [clientRecv] at found ⊢
  generalize recvfull (Socket.splitting (resp.header ++ (resp.payload ++ rest)) chunks)
    responseHeaderSize = first at found headerRead ⊢
  obtain ⟨recvd, header, socket⟩ := first
  dsimp only at found headerRead ⊢
  by_cases isFull : recvd = responseHeaderSize
  · obtain ⟨afterHeader, isHeader, meetsHeader⟩ := headerRead isFull
    cases isHeader
    rw [if_neg (not_not_intro rfl), resp.type_header] at found ⊢
    by_cases carries : resp.type = .RESPONSE
    · have hasData := resp.payload_of_response carries
      rw [if_pos (resp.code_eq_iff.mpr carries), resp.len_header, asInt_of_lt resp.length_lt,
        hasData] at found ⊢
      have dataRead := @recvfull_of_result resp.data rest afterHeader
      generalize recvfull (Socket.splitting (resp.data ++ rest) afterHeader) resp.data.length =
        second at found dataRead ⊢
      obtain ⟨recvdData, data, last⟩ := second
      dsimp only at found dataRead ⊢
      by_cases isFullData : recvdData = resp.data.length
      · obtain ⟨later, isData, meetsData⟩ := dataRead isFullData
        cases isData
        rw [if_neg (not_not_intro rfl)]
        refine ⟨later, rfl, fun lens => ?_⟩
        rw [hasData] at meetsHeader
        rw [resp.lens_of_response carries]
        exact (meetsHeader (resp.data.length :: lens)).trans (meetsData lens)
      · rw [if_pos isFullData] at found
        cases found
    · have noData := resp.payload_of_not_response carries
      rw [if_neg fun isCode => carries (resp.code_eq_iff.mp isCode), noData,
        resp.lens_of_not_response carries, List.nil_append]
      rw [noData, List.nil_append] at meetsHeader
      exact ⟨afterHeader, rfl, meetsHeader⟩
  · rw [if_pos isFull] at found
    cases found

/-- Chunks that meet the reads let a call find the response. -/
theorem found_of_chunksMeetCalls {lens : List ℕ}
    (meets : ChunksMeetCalls (resp.wire ++ rest) chunks (resp.lens ++ lens)) :
    (clientRecv (Socket.splitting (resp.wire ++ rest) chunks)).1 =
      some (resp.header, resp.payload) := by
  obtain ⟨tail, isTail⟩ : ∃ tail, resp.lens = resp.header.length :: tail := by
    rw [Response.lens, resp.length_header]
    cases resp.type with
    | RESPONSE => exact ⟨_, rfl⟩
    | ROI_BEGIN => exact ⟨_, rfl⟩
    | FINISH => exact ⟨_, rfl⟩
  rw [Response.wire, List.append_assoc, isTail, List.cons_append] at meets
  obtain ⟨afterHeader, isHeader, meetsHeader⟩ :=
    recvfull_of_result (result_of_chunksMeetCalls meets)
  have meetsData := (meetsHeader _).mp meets
  rw [resp.length_header] at isHeader
  rw [Response.wire, List.append_assoc, clientRecv, isHeader]
  dsimp only
  rw [if_neg (not_not_intro rfl), resp.type_header, resp.len_header,
    asInt_of_lt resp.length_lt]
  by_cases carries : resp.type = .RESPONSE
  · have hasData := resp.payload_of_response carries
    have isData : tail = [resp.data.length] := by
      rw [resp.lens_of_response carries, resp.length_header] at isTail
      exact (List.cons.inj isTail).2.symm
    rw [hasData, isData] at meetsData
    obtain ⟨later, isRead, -⟩ := recvfull_of_result (result_of_chunksMeetCalls meetsData)
    rw [if_pos (resp.code_eq_iff.mpr carries), hasData, isRead]
    dsimp only
    rw [if_neg (not_not_intro rfl)]
  · rw [if_neg fun isCode => carries (resp.code_eq_iff.mp isCode),
      resp.payload_of_not_response carries]

end

/-- The client finds every response precisely if the chunks meet its reads. -/
theorem clientRecvs_iff (responses : List Response) (chunks : ℕ → ℕ+) :
    clientRecvs (Socket.splitting (responses.flatMap Response.wire) chunks) responses.length =
        responses.map (fun resp => some (resp.header, resp.payload)) ↔
      ChunksMeetCalls (responses.flatMap Response.wire) chunks
        (responses.flatMap Response.lens) := by
  induction responses generalizing chunks with
  | nil => exact ⟨fun _ => trivial, fun _ => rfl⟩
  | cons resp responses ih =>
      rw [List.flatMap_cons, List.flatMap_cons, List.length_cons, List.map_cons, clientRecvs]
      dsimp only
      rw [List.cons.injEq]
      constructor
      · rintro ⟨found, others⟩
        obtain ⟨later, isLater, meets⟩ := clientRecv_of_found found
        rw [isLater] at others
        exact (meets _).mpr ((ih later).mp others)
      · intro meets
        have found := found_of_chunksMeetCalls meets
        obtain ⟨later, isLater, meetsLater⟩ := clientRecv_of_found found
        rw [isLater]
        exact ⟨found, (ih later).mpr ((meetsLater _).mp meets)⟩

/-! ## All reads -/

/-- Successive reads take consecutive pieces of the stream, and the messages that
`sendfull` produced are found one after the other, precisely if a chunk ends where each
read ends. -/
theorem reads_aligned_iff (chunks accepts : ℕ → ℕ+) :
    (∀ stream lens, ReadsPieces stream chunks lens ↔ ChunksMeetCalls stream chunks lens) ∧
    (∀ requests : List Request,
      serverTurns (Socket.splitting (sendAll (Outgoing.splitting accepts)
          (requests.map Request.wire)).sent chunks) requests.length =
          requests.map (fun req => .request req.header req.data) ↔
        ChunksMeetCalls (requests.flatMap Request.wire) chunks (requests.flatMap Request.lens) ∧
          ∀ req ∈ requests, req.data ≠ []) ∧
    ∀ responses : List Response,
      clientRecvs (Socket.splitting (sendAll (Outgoing.splitting accepts)
          (responses.map Response.wire)).sent chunks) responses.length =
          responses.map (fun resp => some (resp.header, resp.payload)) ↔
        ChunksMeetCalls (responses.flatMap Response.wire) chunks
          (responses.flatMap Response.lens) := by
  refine ⟨fun stream lens => readsPieces_iff stream chunks lens, fun requests => ?_,
    fun responses => ?_⟩
  · rw [sent_sendAll, ← List.flatMap_def]
    exact serverTurns_iff requests chunks
  · rw [sent_sendAll, ← List.flatMap_def]
    exact clientRecvs_iff responses chunks

/-- A message of four bytes of which two arrive first, then the others with the first byte
of the next message. -/
def unevenChunks : ℕ → ℕ+ := fun call =>
  if call = 0 then ⟨2, Nat.two_pos⟩ else ⟨3, Nat.succ_pos 2⟩

/-- The call for the message returns five, and the next message is short of its first byte. -/
theorem short_read_takes_next_message :
    (recvfull (Socket.splitting [1, 2, 3, 4, 5, 6] unevenChunks) 4).1 = 5 ∧
      ¬ ReadsPieces [1, 2, 3, 4, 5, 6] unevenChunks [4, 2] := by
  constructor
  · decide +kernel
  · intro reads
    have calls := reads.1
    revert calls
    decide +kernel

end Datamime.Harness
