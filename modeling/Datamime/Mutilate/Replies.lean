/-
# The responses that a connection reads

Whatever the pieces in which responses arrive, a connection takes them one after the other: what
has not been read is the rest of the response that is being read, and the responses to the later
requests. A request that is issued in between changes nothing of this.
-/

import Datamime.Mutilate.Session

namespace Datamime.Mutilate

open Datamime.Math

variable {π ρ T : Type} {prot : Protocol π}

namespace Protocol.Takes

variable {st next : π} {bytes : List Char} {rxBytes : ℤ} {getMisses : ℕ} {done : Bool}

/-- The part that comes next is taken if it has arrived, and waited for otherwise. -/
theorem arrived_or_waits (takes : prot.Takes st bytes next rxBytes getMisses done)
    {input wire stream : List Char} (isNext : input ++ wire = bytes ++ stream) :
    (∃ rest, input = bytes ++ rest ∧ rest ++ wire = stream ∧
      prot.handleResponse st input = .ok (some ⟨next, rest, rxBytes, getMisses, done⟩)) ∨
      prot.handleResponse st input = .ok none := by
  rcases List.append_eq_append_iff.mp isNext with ⟨missing, isBytes, -⟩ | ⟨rest, isInput, isWire⟩
  · by_cases isWhole : input = bytes
    · left
      rw [isWhole] at isNext ⊢
      refine ⟨[], (List.append_nil _).symm, List.append_cancel_left isNext, ?_⟩
      have taken := takes.arrived []
      rwa [List.append_nil] at taken
    · right
      exact takes.waits input ⟨missing, isBytes.symm⟩ isWhole
  · left
    refine ⟨rest, isInput, isWire.symm, ?_⟩
    rw [isInput]
    exact takes.arrived rest

end Protocol.Takes

/-- What is left to read: the responses to operations of these types, of which the first may have
been read in part, with the protocol behind them and what they add to the counts. -/
inductive Protocol.Stream (prot : Protocol π) : π → List OpType → List Char → π → ℤ → ℕ → Prop
  | nil {st} : Stream prot st [] [] st 0 0
  | cons {type types st bytes middle rxBytes getMisses stream last rxLater missesLater}
      (reads : prot.Reads type st bytes middle rxBytes getMisses)
      (later : Stream prot middle types stream last rxLater missesLater) :
      Stream prot st (type :: types) (bytes ++ stream) last (rxBytes + rxLater)
        (getMisses + missesLater)

/-! ## Sequences of responses -/

namespace Codec

variable {codec : Codec prot ρ}

/-- The server adds a response. -/
theorem answer {st last : π} {types : List OpType} {stream : List Char} {rxBytes : ℤ}
    {getMisses : ℕ} (isStream : prot.Stream st types stream last rxBytes getMisses)
    (prepared : codec.Prepared last) {type : OpType} {reply : ρ}
    (fits : codec.fits type reply = true) :
    prot.Stream st (types ++ [type]) (stream ++ codec.encode reply)
      (codec.after last type reply) (rxBytes + codec.rxBytes reply)
      (getMisses + codec.getMisses last reply) := by
  induction isStream with
  | nil =>
      have single := Protocol.Stream.cons (codec.reads _ type reply prepared fits) .nil
      simpa using single
  | cons reads later ih =>
      have grown := Protocol.Stream.cons reads (ih prepared)
      rw [List.append_assoc, add_assoc, add_assoc]
      exact grown

/-- The protocol behind some responses. -/
def afterAll (codec : Codec prot ρ) (st : π) : List (OpType × ρ) → π
  | [] => st
  | (type, reply) :: rest => codec.afterAll (codec.after st type reply) rest

/-- The misses that some responses are counted as. -/
def missesOf (codec : Codec prot ρ) (st : π) : List (OpType × ρ) → ℕ
  | [] => 0
  | (type, reply) :: rest =>
      codec.getMisses st reply + codec.missesOf (codec.after st type reply) rest

theorem afterAll_append (codec : Codec prot ρ) (st : π) (first second : List (OpType × ρ)) :
    codec.afterAll st (first ++ second) = codec.afterAll (codec.afterAll st first) second := by
  induction first generalizing st with
  | nil => rfl
  | cons pair rest ih =>
      rcases pair with ⟨type, reply⟩
      exact ih _

theorem missesOf_append (codec : Codec prot ρ) (st : π) (first second : List (OpType × ρ)) :
    codec.missesOf st (first ++ second) =
      codec.missesOf st first + codec.missesOf (codec.afterAll st first) second := by
  induction first generalizing st with
  | nil => exact (Nat.zero_add _).symm
  | cons pair rest ih =>
      rcases pair with ⟨type, reply⟩
      rw [List.cons_append, missesOf, ih, missesOf, afterAll, Nat.add_assoc]

/-- The protocol stays prepared. -/
theorem prepared_afterAll {st : π} (prepared : codec.Prepared st) {pairs : List (OpType × ρ)}
    (fit : ∀ pair ∈ pairs, codec.fits pair.1 pair.2 = true) :
    codec.Prepared (codec.afterAll st pairs) := by
  induction pairs generalizing st with
  | nil => exact prepared
  | cons pair rest ih =>
      rcases pair with ⟨type, reply⟩
      have prepared_next := codec.prepared_after st type reply prepared
        (fit _ List.mem_cons_self)
      exact ih prepared_next fun later isLater => fit later (List.mem_cons_of_mem _ isLater)

/-- The protocol before the first response. -/
def origin (codec : Codec prot ρ) : List Request → π
  | [] => codec.start
  | request :: _ => codec.first request.op.type

theorem prepared_origin {issued : List Request} (some_issued : issued ≠ []) :
    codec.Prepared (codec.origin issued) := by
  cases issued with
  | nil => exact absurd rfl some_issued
  | cons request rest => exact codec.prepared_first request.op.type

end Codec

end Datamime.Mutilate
