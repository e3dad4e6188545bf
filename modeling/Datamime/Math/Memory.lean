/-
# Arrays of bytes

A program copies bytes between arrays that it does not clear. An array is a function from
positions to bytes here, without an end, so that a copy behind the end of the array is a
statement about positions. A byte that no copy covers is what the array held before. A text that
ends with a zero byte is copied up to that byte only, which loses what follows a zero byte in a
binary text.
-/

import Mathlib.Data.List.TakeWhile
import Mathlib.Tactic

namespace Datamime.Math

/-- The bytes from the begin of an array on. -/
abbrev Memory := ℕ → UInt8

namespace Memory

/-- `memcpy` of some bytes to a position. -/
def copy (mem : Memory) (offset : ℕ) (bytes : List UInt8) : Memory := fun i =>
  if offset ≤ i then bytes.getD (i - offset) (mem i) else mem i

/-- The bytes at a range of positions. -/
def read (mem : Memory) (offset len : ℕ) : List UInt8 :=
  (List.range len).map fun i => mem (offset + i)

/-- The bytes that `strncpy` stores: the text up to its first zero byte, then zero bytes. -/
def strncpyBytes (text : List UInt8) (len : ℕ) : List UInt8 :=
  let copied := (text.takeWhile (· ≠ 0)).take len
  copied ++ List.replicate (len - copied.length) 0

variable {mem : Memory} {offset : ℕ} {bytes : List UInt8}

@[simp]
theorem length_read (mem : Memory) (offset len : ℕ) : (mem.read offset len).length = len := by
  simp [read]

@[simp]
theorem read_zero (mem : Memory) (offset : ℕ) : mem.read offset 0 = [] := rfl

/-- Positions before a copy keep their bytes. -/
theorem copy_of_lt {i : ℕ} (before : i < offset) : mem.copy offset bytes i = mem i :=
  if_neg (Nat.not_le_of_lt before)

@[simp]
theorem copy_nil (mem : Memory) (offset : ℕ) : mem.copy offset [] = mem := by
  funext i
  simp [copy]

/-- What is copied can be read. -/
theorem read_copy {len : ℕ} (inside : len ≤ bytes.length) :
    (mem.copy offset bytes).read offset len = bytes.take len := by
  apply List.ext_getElem
  · simp [inside]
  · intro i isRead isTaken
    have bound : i < bytes.length := by
      simp only [length_read] at isRead
      omega
    simp [read, copy, List.getD, bound]

@[simp]
theorem read_copy_self (mem : Memory) (offset : ℕ) (bytes : List UInt8) :
    (mem.copy offset bytes).read offset bytes.length = bytes := by
  rw [read_copy le_rfl, List.take_length]

/-! ## Texts with an end mark -/

/-- No byte but zero follows a zero byte. -/
def ZerosAtEnd (bytes : List UInt8) : Prop :=
  ∀ early late, bytes = early ++ 0 :: late → ∀ byte ∈ late, byte = 0

@[simp]
theorem length_strncpyBytes (text : List UInt8) (len : ℕ) :
    (strncpyBytes text len).length = len := by
  simp [strncpyBytes]

theorem zerosAtEnd_cons_zero (bytes : List UInt8) :
    ZerosAtEnd (0 :: bytes) ↔ ∀ byte ∈ bytes, byte = 0 := by
  constructor
  · intro atEnd
    exact atEnd [] bytes rfl
  · intro allZero early late split byte isLate
    apply allZero byte
    cases early with
    | nil => simpa [List.cons.inj split] using isLate
    | cons first early =>
        rw [(List.cons.inj split).2]
        simp [isLate]

theorem zerosAtEnd_cons_of_ne {byte : UInt8} (notZero : byte ≠ 0) (bytes : List UInt8) :
    ZerosAtEnd (byte :: bytes) ↔ ZerosAtEnd bytes := by
  constructor
  · intro atEnd early late split
    exact atEnd (byte :: early) late (by rw [split, List.cons_append])
  · intro atEnd early late split
    cases early with
    | nil => exact absurd (List.cons.inj split).1 notZero
    | cons first early => exact atEnd early late (List.cons.inj split).2

/-- The bytes before the end mark of a text, or before a zero byte in it. -/
theorem takeWhile_append_zero (bytes : List UInt8) :
    (bytes ++ [0]).takeWhile (· ≠ 0) = bytes.takeWhile (· ≠ 0) := by
  rw [List.takeWhile_append]
  split_ifs with allKept
  · rw [(List.takeWhile_prefix _).eq_of_length allKept]
    simp
  · rfl

/-- Copied as a text, bytes are kept precisely if all bytes from the first zero byte on are
zero. -/
theorem strncpyBytes_eq_iff (bytes : List UInt8) :
    strncpyBytes (bytes ++ [0]) bytes.length = bytes ↔ ZerosAtEnd bytes := by
  have shorter : (bytes.takeWhile (· ≠ 0)).length ≤ bytes.length :=
    (List.takeWhile_prefix _).length_le
  have stored : strncpyBytes (bytes ++ [0]) bytes.length = bytes.takeWhile (· ≠ 0) ++
      List.replicate (bytes.length - (bytes.takeWhile (· ≠ 0)).length) 0 := by
    simp only [strncpyBytes]
    rw [takeWhile_append_zero, List.take_of_length_le shorter]
  rw [stored]
  clear stored shorter
  induction bytes with
  | nil => simp [ZerosAtEnd]
  | cons byte bytes ih =>
      by_cases isZero : byte = 0
      · subst isZero
        rw [zerosAtEnd_cons_zero]
        simp [List.replicate_succ, eq_comm, List.eq_replicate_iff]
      · rw [zerosAtEnd_cons_of_ne isZero]
        simpa [isZero] using ih

end Memory

end Datamime.Math
