/-
# Whole messages over a stream socket

`send` and `recv` may transfer a part of what they are asked for. `sendfull` and
`recvfull` repeat them until the message is through. A socket is the bytes that
are still to come before the end of the stream together with the number of bytes
that each following call finds queued.
-/

import Mathlib.Algebra.BigOperators.Intervals
import Mathlib.Data.PNat.Basic
import Mathlib.Tactic

namespace Datamime.Harness

/-! ## Sending -/

/-- The sending side: what has been sent, and how many bytes the following calls
of `send` accept, `none` for a call that fails. -/
structure Outgoing where
  sent : List UInt8
  accepts : ℕ → Option ℕ+

/-- A sending side whose calls do not fail. -/
def Outgoing.splitting (accepts : ℕ → ℕ+) : Outgoing := ⟨[], fun call => some (accepts call)⟩

/-- The loop of `sendfull` over the part of the message from `cur` on. It returns
what remains. -/
def sendLoop (out : Outgoing) (cur : List UInt8) : List UInt8 × Outgoing :=
  if 0 < cur.length then
    match out.accepts 0 with
    | none => (cur, ⟨out.sent, fun call => out.accepts (call + 1)⟩)
    | some size =>
        sendLoop ⟨out.sent ++ cur.take size, fun call => out.accepts (call + 1)⟩ (cur.drop size)
  else (cur, out)
termination_by cur.length
decreasing_by
  have positive := size.pos
  rw [List.length_drop]
  omega

/-- `sendfull`, which returns how much of the message it sent. -/
def sendfull (out : Outgoing) (msg : List UInt8) : ℤ × Outgoing :=
  let (remaining, out) := sendLoop out msg
  (msg.length - remaining.length, out)

/-- Send one message after the other. -/
def sendAll (out : Outgoing) (msgs : List (List UInt8)) : Outgoing :=
  msgs.foldl (fun out msg => (sendfull out msg).2) out

theorem sendLoop_splitting (sent : List UInt8) (accepts : ℕ → ℕ+) (cur : List UInt8) :
    ∃ later : ℕ → ℕ+,
      sendLoop ⟨sent, fun call => some (accepts call)⟩ cur =
        ([], ⟨sent ++ cur, fun call => some (later call)⟩) := by
  induction h : cur.length using Nat.strong_induction_on generalizing sent accepts cur with
  | _ length ih =>
      rw [sendLoop]
      by_cases isEmpty : cur = []
      · subst isEmpty
        exact ⟨accepts, by simp⟩
      · have nonempty : 0 < cur.length := List.length_pos_of_ne_nil isEmpty
        have shorter : (cur.drop (accepts 0)).length < length := by
          have positive := (accepts 0).pos
          rw [List.length_drop]
          omega
        obtain ⟨later, sends⟩ := ih _ shorter (sent ++ cur.take (accepts 0))
          (fun call => accepts (call + 1)) (cur.drop (accepts 0)) rfl
        refine ⟨later, ?_⟩
        rw [if_pos nonempty]
        rw [List.append_assoc, List.take_append_drop] at sends
        exact sends

/-- However `send` splits the messages, the stream is their concatenation. -/
theorem sent_sendAll (accepts : ℕ → ℕ+) (msgs : List (List UInt8)) :
    (sendAll (Outgoing.splitting accepts) msgs).sent = msgs.flatten := by
  suffices general : ∀ (sent : List UInt8) (accepts : ℕ → ℕ+),
      (sendAll ⟨sent, fun call => some (accepts call)⟩ msgs).sent = sent ++ msgs.flatten from
    general [] accepts
  induction msgs with
  | nil => simp [sendAll]
  | cons msg msgs ih =>
      intro sent accepts
      obtain ⟨later, sends⟩ := sendLoop_splitting sent accepts msg
      have first : (sendfull ⟨sent, fun call => some (accepts call)⟩ msg).2 =
          ⟨sent ++ msg, fun call => some (later call)⟩ := by
        rw [sendfull, sends]
      rw [sendAll, List.foldl_cons, first]
      exact (ih (sent ++ msg) later).trans (by rw [List.flatten_cons, List.append_assoc])

/-- The loop sends what it does not leave. -/
theorem sendLoop_keeps (out : Outgoing) (cur : List UInt8) :
    (sendLoop out cur).2.sent ++ (sendLoop out cur).1 = out.sent ++ cur := by
  induction h : cur.length using Nat.strong_induction_on generalizing out cur with
  | _ length ih =>
      rw [sendLoop]
      split
      · rename_i nonempty
        split
        · rfl
        · rename_i size accepted
          have shorter : (cur.drop size).length < length := by
            have positive := size.pos
            rw [List.length_drop]
            omega
          have rest := ih _ shorter ⟨out.sent ++ cur.take size, fun call => out.accepts (call + 1)⟩
            (cur.drop size) rfl
          rwa [List.append_assoc, List.take_append_drop] at rest
      · rfl

/-- A call that returns the length of the message has sent all of it. -/
theorem sent_of_sendfull {out : Outgoing} {msg : List UInt8}
    (whole : (sendfull out msg).1 = msg.length) : (sendfull out msg).2.sent = out.sent ++ msg := by
  have keeps := sendLoop_keeps out msg
  rw [sendfull] at whole ⊢
  generalize sendLoop out msg = result at keeps whole ⊢
  obtain ⟨remaining, last⟩ := result
  dsimp only at keeps whole ⊢
  have none : remaining = [] := List.eq_nil_of_length_eq_zero (by omega)
  rw [none, List.append_nil] at keeps
  exact keeps

/-! ## Receiving -/

/-- The receiving side: the bytes before the end of the stream that have not been
taken, and how many bytes the following calls of `recv` find queued, `none` for a
call that fails. -/
structure Socket where
  unread : List UInt8
  queued : ℕ → Option ℕ+

namespace Socket

/-- A socket that splits a stream into chunks. -/
def splitting (stream : List UInt8) (chunks : ℕ → ℕ+) : Socket :=
  ⟨stream, fun call => some (chunks call)⟩

/-- `recv`: the result, the bytes that it stores, and the socket after it. -/
def recv (socket : Socket) (len : ℕ) : ℤ × List UInt8 × Socket :=
  let later := fun call => socket.queued (call + 1)
  match socket.queued 0 with
  | none => (-1, [], ⟨socket.unread, later⟩)
  | some size =>
      let bytes := socket.unread.take (min len size)
      (bytes.length, bytes, ⟨socket.unread.drop (min len size), later⟩)

/-- A call that does not fail returns a count. -/
theorem neg_one_le_recv (socket : Socket) (len : ℕ) : -1 ≤ (socket.recv len).1 := by
  rw [recv]
  cases socket.queued 0 with
  | none => exact le_refl _
  | some size =>
      dsimp only
      omega

end Socket

/-- The loop of `recvfull`. The bytes stored so far lie between `msg` and `cur`.
Each call of `recv` asks for `len` bytes. -/
def recvLoop (len remaining : ℤ) (stored : List UInt8) (socket : Socket) :
    ℤ × List UInt8 × Socket :=
  if 0 < remaining then
    match _received : socket.recv len.toNat with
    | (recvd, bytes, next) =>
        if recvd = -1 ∨ recvd = 0 then (remaining, stored, next)
        else recvLoop len (remaining - recvd) (stored ++ bytes) next
  else (remaining, stored, socket)
termination_by remaining.toNat
decreasing_by
  have bound := Socket.neg_one_le_recv socket len.toNat
  rw [_received] at bound
  dsimp only at bound
  omega

/-- `recvfull`: the result, the bytes stored from `msg` on, and the socket after it. -/
def recvfull (socket : Socket) (len : ℤ) : ℤ × List UInt8 × Socket :=
  let (remaining, stored, socket) := recvLoop len len [] socket
  (len - remaining, stored, socket)

/-- A call stores what it takes, and returns its length if it does not fail. -/
theorem Socket.recv_keeps (socket : Socket) (len : ℕ) :
    (socket.recv len).2.1 ++ (socket.recv len).2.2.unread = socket.unread ∧
      ((socket.recv len).1 = -1 ∧ (socket.recv len).2.1 = [] ∨
        (socket.recv len).1 = (socket.recv len).2.1.length) := by
  rw [Socket.recv]
  cases socket.queued 0 with
  | none => exact ⟨rfl, .inl ⟨rfl, rfl⟩⟩
  | some size => exact ⟨List.take_append_drop _ _, .inr rfl⟩

/-- The loop stores what it takes. -/
theorem recvLoop_keeps (len remaining : ℤ) (stored : List UInt8) (socket : Socket) :
    (recvLoop len remaining stored socket).2.1 ++
        (recvLoop len remaining stored socket).2.2.unread = stored ++ socket.unread ∧
      ((recvLoop len remaining stored socket).2.1.length : ℤ) +
        (recvLoop len remaining stored socket).1 = stored.length + remaining := by
  fun_induction recvLoop len remaining stored socket with
  | case1 remaining stored socket waits recvd bytes next received ends =>
      have keeps := socket.recv_keeps len.toNat
      rw [received] at keeps
      have nothing : bytes = [] := by
        rcases keeps.2 with ⟨-, isEmpty⟩ | isLength
        · exact isEmpty
        · dsimp only at isLength
          exact List.eq_nil_of_length_eq_zero (by omega)
      rw [← keeps.1, nothing]
      exact ⟨rfl, rfl⟩
  | case2 remaining stored socket waits recvd bytes next received goesOn ih =>
      have keeps := socket.recv_keeps len.toNat
      rw [received] at keeps
      obtain ⟨bytesKept, ⟨failed, -⟩ | isLength⟩ := keeps
      · exact absurd (.inl failed) goesOn
      · dsimp only at bytesKept isLength
        refine ⟨ih.1.trans (by rw [List.append_assoc, bytesKept]), ih.2.trans ?_⟩
        rw [List.length_append, isLength]
        omega
  | case3 remaining stored socket through => exact ⟨rfl, rfl⟩

/-- A call that returns its length has taken exactly the beginning of the stream. -/
theorem taken_of_recvfull {socket : Socket} {len : ℕ} (whole : (recvfull socket len).1 = len) :
    (recvfull socket len).2.1 ++ (recvfull socket len).2.2.unread = socket.unread ∧
      (recvfull socket len).2.1.length = len := by
  have keeps := recvLoop_keeps len len [] socket
  rw [recvfull] at whole ⊢
  generalize recvLoop (len : ℤ) len [] socket = result at keeps whole ⊢
  obtain ⟨remaining, stored, next⟩ := result
  dsimp only at keeps whole ⊢
  refine ⟨keeps.1, ?_⟩
  have total := keeps.2
  rw [List.length_nil] at total
  omega

/-! ## Where a call stops -/

/-- How much the first calls of `recv` transfer while the stream lasts. -/
def transfer (len : ℕ) (chunks : ℕ → ℕ+) (calls : ℕ) : ℕ :=
  ∑ call ∈ Finset.range calls, min len (chunks call)

/-- The chunks that follow the first ones. -/
def laterChunks (chunks : ℕ → ℕ+) (calls : ℕ) : ℕ → ℕ+ := fun call => chunks (calls + call)

theorem transfer_succ (len : ℕ) (chunks : ℕ → ℕ+) (calls : ℕ) :
    transfer len chunks (calls + 1) =
      min len (chunks 0) + transfer len (laterChunks chunks 1) calls := by
  rw [transfer, Finset.sum_range_succ', add_comm]
  simp only [transfer, laterChunks, add_comm]

@[simp]
theorem laterChunks_zero (chunks : ℕ → ℕ+) : laterChunks chunks 0 = chunks := by
  funext call
  rw [laterChunks, Nat.zero_add]

theorem laterChunks_succ (chunks : ℕ → ℕ+) (calls : ℕ) :
    laterChunks (laterChunks chunks 1) calls = laterChunks chunks (calls + 1) := by
  funext call
  simp only [laterChunks]
  congr 1
  omega

/-- The call that reaches an amount reaches it exactly. -/
def Reaches (len : ℕ) (chunks : ℕ → ℕ+) (amount calls : ℕ) : Prop :=
  transfer len chunks calls = amount ∧ ∀ fewer < calls, transfer len chunks fewer < amount

section

variable {len remaining : ℕ} {unread stored : List UInt8} {chunks : ℕ → ℕ+}

theorem recvLoop_zero (stored : List UInt8) (socket : Socket) :
    recvLoop len (0 : ℕ) stored socket = (0, stored, socket) := by
  unfold recvLoop
  exact if_neg (lt_irrefl 0)

theorem recvLoop_at_end (chunks : ℕ → ℕ+) (waits : 0 < remaining) :
    recvLoop len remaining stored (Socket.splitting [] chunks) =
      ((remaining : ℤ), stored, Socket.splitting [] (laterChunks chunks 1)) := by
  unfold recvLoop
  rw [if_pos (by exact_mod_cast waits)]
  simp [Socket.recv, Socket.splitting, laterChunks, add_comm]

/-- One round of the loop before the end of the stream. -/
theorem recvLoop_round (chunks : ℕ → ℕ+) (positive : 0 < len) (waits : 0 < remaining)
    (more : unread ≠ []) :
    recvLoop len remaining stored (Socket.splitting unread chunks) =
      recvLoop len (remaining - (min (min len (chunks 0)) unread.length : ℕ))
        (stored ++ unread.take (min len (chunks 0)))
        (Socket.splitting (unread.drop (min len (chunks 0))) (laterChunks chunks 1)) := by
  have some_left : 0 < unread.length := List.length_pos_of_ne_nil more
  have some_queued := (chunks 0).pos
  have shift : (fun call => some (chunks (call + 1))) =
      fun call => some (laterChunks chunks 1 call) := by
    simp only [laterChunks, add_comm]
  conv_lhs => unfold recvLoop
  rw [if_pos (by exact_mod_cast waits)]
  simp only [Socket.recv, Socket.splitting, Int.toNat_natCast, List.length_take]
  rw [if_neg (by omega), shift]

/-- Up to the end of the stream, everything is taken. -/
theorem recvLoop_short (within : remaining ≤ len) (short : unread.length ≤ remaining) :
    ∃ later : ℕ → ℕ+,
      recvLoop len remaining stored (Socket.splitting unread chunks) =
        ((remaining : ℤ) - unread.length, stored ++ unread, Socket.splitting [] later) := by
  induction h : unread.length using Nat.strong_induction_on
    generalizing unread stored chunks remaining with
  | _ left ih =>
      by_cases isEmpty : unread = []
      · subst isEmpty
        by_cases waits : 0 < remaining
        · exact ⟨laterChunks chunks 1, by rw [recvLoop_at_end chunks waits, ← h]; simp⟩
        · have isZero : remaining = 0 := by omega
          subst isZero
          exact ⟨chunks, by rw [recvLoop_zero, ← h]; simp⟩
      · have some_left : 0 < unread.length := List.length_pos_of_ne_nil isEmpty
        have some_queued := (chunks 0).pos
        have dropped := @List.length_drop _ (min len (chunks 0)) unread
        obtain ⟨later, rest⟩ := @ih (unread.drop (min len (chunks 0))).length (by omega)
          (remaining - min (min len (chunks 0)) unread.length)
          (unread.drop (min len (chunks 0))) (stored ++ unread.take (min len (chunks 0)))
          (laterChunks chunks 1) (by omega) (by omega) rfl
        refine ⟨later, ?_⟩
        rw [recvLoop_round chunks (by omega) (by omega) isEmpty]
        rw [List.append_assoc, List.take_append_drop, Nat.cast_sub (by omega)] at rest
        rw [rest, dropped]
        congr 1
        omega

/-- Chunks that end where the call ends. -/
theorem recvLoop_reaches {calls : ℕ} (within : remaining ≤ len)
    (long : remaining < unread.length) (reaches : Reaches len chunks remaining calls) :
    recvLoop len remaining stored (Socket.splitting unread chunks) =
      (0, stored ++ unread.take remaining,
        Socket.splitting (unread.drop remaining) (laterChunks chunks calls)) := by
  obtain ⟨total, fewer_lt⟩ := reaches
  induction calls generalizing unread stored chunks remaining with
  | zero =>
      have isZero : remaining = 0 := total.symm
      subst isZero
      rw [recvLoop_zero, laterChunks_zero]
      simp
  | succ calls ih =>
      have waits : 0 < remaining := fewer_lt 0 (Nat.succ_pos calls)
      have nonempty : unread ≠ [] := by
        rintro rfl
        exact absurd long (Nat.not_lt_zero _)
      rw [transfer_succ] at total
      have rest := @ih (remaining - min len (chunks 0)) (unread.drop (min len (chunks 0)))
        (stored ++ unread.take (min len (chunks 0))) (laterChunks chunks 1) (by omega)
        (by rw [List.length_drop]; omega) (by omega) (fun fewer isFewer => by
          have bound := fewer_lt (fewer + 1) (by omega)
          rw [transfer_succ] at bound
          omega)
      rw [recvLoop_round chunks (by omega) waits nonempty,
        min_eq_left (show min len (chunks 0) ≤ unread.length by omega),
        ← Nat.cast_sub (by omega), rest, List.append_assoc, List.drop_drop, laterChunks_succ,
        ← List.take_add, show min len (chunks 0) + (remaining - min len (chunks 0)) = remaining
          by omega]

/-- When the chunks do not end where the call ends, it takes too much. -/
theorem recvLoop_over (positive : 0 < len) (long : remaining < unread.length)
    (never : ∀ calls, transfer len chunks calls ≠ remaining) :
    (recvLoop len remaining stored (Socket.splitting unread chunks)).1 < 0 := by
  induction h : remaining using Nat.strong_induction_on
    generalizing unread stored chunks remaining with
  | _ amount ih =>
      subst h
      have waits : 0 < remaining := Nat.pos_of_ne_zero (never 0).symm
      have nonempty : unread ≠ [] := by
        rintro rfl
        exact absurd long (Nat.not_lt_zero _)
      have some_queued := (chunks 0).pos
      have once := never 1
      rw [transfer_succ] at once
      rw [recvLoop_round chunks positive waits nonempty]
      by_cases beyond : remaining < min (min len (chunks 0)) unread.length
      · unfold recvLoop
        rw [if_neg (by omega)]
        dsimp only
        omega
      · have first : min (min len (chunks 0)) unread.length = min len (chunks 0) := by omega
        have less : min len (chunks 0) < remaining := by
          have notEqual : min len (chunks 0) ≠ remaining := by
            simpa [transfer] using once
          omega
        rw [first, ← Nat.cast_sub (by omega)]
        refine ih (remaining - min len (chunks 0)) (by omega)
          (by rw [List.length_drop]; omega) (fun calls => ?_) rfl
        have later := never (calls + 1)
        rw [transfer_succ] at later
        omega

/-- If some calls transfer exactly an amount, a first call reaches it exactly. -/
theorem exists_reaches {amount calls : ℕ} (total : transfer len chunks calls = amount) :
    ∃ first, Reaches len chunks amount first := by
  have reached : ∃ calls, transfer len chunks calls = amount := ⟨calls, total⟩
  refine ⟨Nat.find reached, Nat.find_spec reached, fun fewer isFewer => ?_⟩
  have monotone : transfer len chunks fewer ≤ transfer len chunks (Nat.find reached) :=
    Finset.sum_le_sum_of_subset (Finset.range_subset_range.mpr (le_of_lt isFewer))
  rw [Nat.find_spec reached] at monotone
  exact lt_of_le_of_ne monotone (Nat.find_min reached isFewer)

/-- Two calls cannot both be the first that reaches an amount. -/
theorem Reaches.unique {amount first second : ℕ} (one : Reaches len chunks amount first)
    (other : Reaches len chunks amount second) : first = second := by
  rcases lt_trichotomy first second with less | equal | less
  · exact absurd one.1 (other.2 first less).ne
  · exact equal
  · exact absurd other.1 (one.2 second less).ne

/-- What a call of `recvfull` does on a socket whose calls of `recv` do not fail. -/
inductive Received (unread : List UInt8) (chunks : ℕ → ℕ+) (len : ℕ) :
    ℤ × List UInt8 × Socket → Prop
  /-- The stream ends first. -/
  | short (later : ℕ → ℕ+) (ends : unread.length ≤ len) :
      Received unread chunks len (unread.length, unread, Socket.splitting [] later)
  | exact (calls : ℕ) (more : len < unread.length) (reaches : Reaches len chunks len calls) :
      Received unread chunks len
        (len, unread.take len, Socket.splitting (unread.drop len) (laterChunks chunks calls))
  /-- The last chunk goes on beyond the end of the call. -/
  | beyond (result : ℤ × List UInt8 × Socket) (more : len < unread.length)
      (never : ∀ calls, ¬ Reaches len chunks len calls) (tooMany : len < result.1) :
      Received unread chunks len result

theorem recvfull_cases (unread : List UInt8) (chunks : ℕ → ℕ+) (len : ℕ) :
    Received unread chunks len (recvfull (Socket.splitting unread chunks) len) := by
  by_cases ends : unread.length ≤ len
  · obtain ⟨later, taken⟩ := @recvLoop_short len len unread [] chunks (le_refl len) ends
    have result : recvfull (Socket.splitting unread chunks) len =
        ((unread.length : ℤ), unread, Socket.splitting [] later) := by
      rw [recvfull, taken, List.nil_append]
      dsimp only
      rw [sub_sub_cancel]
    rw [result]
    exact .short later ends
  · have more : len < unread.length := by omega
    by_cases meets : ∃ calls, Reaches len chunks len calls
    · obtain ⟨calls, reaches⟩ := meets
      have result : recvfull (Socket.splitting unread chunks) len =
          ((len : ℤ), unread.take len,
            Socket.splitting (unread.drop len) (laterChunks chunks calls)) := by
        rw [recvfull, recvLoop_reaches (le_refl len) more reaches, List.nil_append]
        dsimp only
        rw [sub_zero]
      rw [result]
      exact .exact calls more reaches
    · have never : ∀ calls, transfer len chunks calls ≠ len := fun calls total =>
        meets (exists_reaches total)
      have positive : 0 < len := Nat.pos_of_ne_zero (never 0).symm
      have negative := @recvLoop_over len len unread [] chunks positive more never
      refine .beyond _ more (fun calls reaches => meets ⟨calls, reaches⟩) ?_
      rw [recvfull]
      dsimp only
      omega

end

/-! ## A sequence of calls -/

/-- Successive calls of `recvfull`: the result and the stored bytes of each, and
the socket after them. -/
def recvCalls (socket : Socket) : List ℕ → List (ℤ × List UInt8) × Socket
  | [] => ([], socket)
  | len :: rest =>
      let (recvd, msg, socket) := recvfull socket len
      let (calls, socket) := recvCalls socket rest
      ((recvd, msg) :: calls, socket)

/-- Cut a stream into consecutive pieces of the given lengths, as far as it goes. -/
def pieces (stream : List UInt8) : List ℕ → List (List UInt8)
  | [] => []
  | len :: rest => stream.take len :: pieces (stream.drop len) rest

/-- Each call takes exactly its piece of the stream, stores it, and returns its length. -/
def ReadsPieces (stream : List UInt8) (chunks : ℕ → ℕ+) (lens : List ℕ) : Prop :=
  (recvCalls (Socket.splitting stream chunks) lens).1 =
      (pieces stream lens).map (fun piece => ((piece.length : ℤ), piece)) ∧
    (recvCalls (Socket.splitting stream chunks) lens).2.unread = stream.drop lens.sum

/-- In each call, up to the one that meets the end of the stream, a chunk ends where
the call ends, counting of each chunk no more than the length of the call. -/
def ChunksMeetCalls : List UInt8 → (ℕ → ℕ+) → List ℕ → Prop
  | _, _, [] => True
  | stream, chunks, len :: rest =>
      stream.length ≤ len ∨
        ∃ calls, Reaches len chunks len calls ∧
          ChunksMeetCalls (stream.drop len) (laterChunks chunks calls) rest

/-- At the end of the stream every call returns nothing. -/
theorem readsPieces_nil (chunks : ℕ → ℕ+) (lens : List ℕ) : ReadsPieces [] chunks lens := by
  induction lens generalizing chunks with
  | nil => exact ⟨rfl, rfl⟩
  | cons len rest ih =>
      have received := recvfull_cases [] chunks len
      generalize isResult : recvfull (Socket.splitting [] chunks) len = result at received
      cases received with
      | short later ends =>
          obtain ⟨calls, left⟩ := ih later
          constructor
          · rw [recvCalls, isResult]
            dsimp only
            rw [calls, pieces, List.map_cons, List.take_nil, List.drop_nil]
          · rw [recvCalls, isResult]
            dsimp only
            rw [left, List.drop_nil, List.drop_nil]
      | exact calls more _ => exact absurd more (Nat.not_lt_zero _)
      | beyond _ more _ _ => exact absurd more (Nat.not_lt_zero _)

theorem readsPieces_cons {stream : List UInt8} {chunks later : ℕ → ℕ+} {len : ℕ} {rest : List ℕ}
    (result : recvfull (Socket.splitting stream chunks) len =
      (((stream.take len).length : ℤ), stream.take len, Socket.splitting (stream.drop len) later)) :
    ReadsPieces stream chunks (len :: rest) ↔ ReadsPieces (stream.drop len) later rest := by
  rw [ReadsPieces, recvCalls, result, ReadsPieces, pieces, List.map_cons, List.sum_cons,
    ← List.drop_drop]
  dsimp only
  rw [List.cons_inj_right]

/-- The calls read consecutive pieces of the stream precisely if the chunks meet their ends. -/
theorem readsPieces_iff (stream : List UInt8) (chunks : ℕ → ℕ+) (lens : List ℕ) :
    ReadsPieces stream chunks lens ↔ ChunksMeetCalls stream chunks lens := by
  induction lens generalizing stream chunks with
  | nil => exact ⟨fun _ => trivial, fun _ => ⟨rfl, rfl⟩⟩
  | cons len rest ih =>
      rw [ChunksMeetCalls]
      have received := recvfull_cases stream chunks len
      generalize isResult : recvfull (Socket.splitting stream chunks) len = result at received
      cases received with
      | short later ends =>
          have isShort : recvfull (Socket.splitting stream chunks) len =
              (((stream.take len).length : ℤ), stream.take len,
                Socket.splitting (stream.drop len) later) := by
            rw [isResult, List.take_of_length_le ends, List.drop_of_length_le ends]
          rw [readsPieces_cons isShort, List.drop_of_length_le ends]
          exact ⟨fun _ => .inl ends, fun _ => readsPieces_nil later rest⟩
      | exact calls more reaches =>
          have isExact : recvfull (Socket.splitting stream chunks) len =
              (((stream.take len).length : ℤ), stream.take len,
                Socket.splitting (stream.drop len) (laterChunks chunks calls)) := by
            rw [isResult, List.length_take, min_eq_left (le_of_lt more)]
          rw [readsPieces_cons isExact, ih]
          constructor
          · exact fun meets => .inr ⟨calls, reaches, meets⟩
          · rintro (ends | ⟨first, isFirst, meets⟩)
            · omega
            · rwa [reaches.unique isFirst]
      | beyond result more never tooMany =>
          constructor
          · intro reads
            have firstCall := congrArg List.head? reads.1
            rw [recvCalls, isResult, pieces] at firstCall
            simp only [List.map_cons, List.head?_cons, Option.some_inj, Prod.mk.injEq,
              List.length_take] at firstCall
            omega
          · rintro (ends | ⟨first, isFirst, -⟩)
            · omega
            · exact absurd isFirst (never first)

end Datamime.Harness
