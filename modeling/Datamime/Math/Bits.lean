/-
# Bit fields and bit sets of a machine word

A hardware register packs several values into one word. A field is named by the
position of its lowest bit and by its width; writing one field replaces exactly
those bits, so fields that do not overlap never disturb each other.

A word is also read as a finite set of bit positions. The number of set bits of
a word built from distinct positions is the number of those positions.
-/

import Mathlib.Data.List.Nodup
import Mathlib.Data.List.Sort
import Mathlib.Tactic

namespace Datamime.Math

variable {w : ℕ}

namespace BitField

/-- The word whose lowest `width` bits are set. -/
def mask (w width : ℕ) : BitVec w := BitVec.ofNat w (2 ^ width - 1)

@[simp]
theorem getLsbD_mask (width i : ℕ) :
    (mask w width).getLsbD i = (decide (i < w) && decide (i < width)) := by
  simp [mask, BitVec.getLsbD_ofNat, Nat.testBit_two_pow_sub_one]

/-- Extract the field of `width` bits whose lowest bit stands at `pos`. -/
def read (register : BitVec w) (pos width : ℕ) : BitVec w :=
  (register >>> pos) &&& mask w width

/-- Replace the field of `width` bits whose lowest bit stands at `pos`. -/
def write (register : BitVec w) (pos width : ℕ) (value : BitVec w) : BitVec w :=
  (register &&& ~~~(mask w width <<< pos)) ||| ((value &&& mask w width) <<< pos)

/-- A bit inside the field comes from the value; any other bit is unchanged. -/
theorem getLsbD_write (register value : BitVec w) (pos width i : ℕ) (inside : i < w) :
    (write register pos width value).getLsbD i =
      if pos ≤ i ∧ i < pos + width then value.getLsbD (i - pos) else register.getLsbD i := by
  simp only [write, BitVec.getLsbD_or, BitVec.getLsbD_and, BitVec.getLsbD_not,
    BitVec.getLsbD_shiftLeft, getLsbD_mask]
  grind

/-- A field reads back what was written to it, cut to its width. -/
theorem read_write (register value : BitVec w) (pos width : ℕ) (fits : pos + width ≤ w) :
    read (write register pos width value) pos width = value &&& mask w width := by
  apply BitVec.eq_of_getLsbD_eq
  intro i hi
  simp [read, write]
  grind

/-- Writing one field does not change a field that does not overlap it. -/
theorem read_write_of_disjoint (register value : BitVec w) {pos width other otherWidth : ℕ}
    (disjoint : other + otherWidth ≤ pos ∨ pos + width ≤ other) :
    read (write register pos width value) other otherWidth =
      read register other otherWidth := by
  apply BitVec.eq_of_getLsbD_eq
  intro i hi
  simp [read, write]
  grind

/-- Cutting a word to `width` bits is reduction modulo `2 ^ width`. -/
theorem toNat_and_mask (value : BitVec w) (width : ℕ) (fits : width ≤ w) :
    (value &&& mask w width).toNat = value.toNat % 2 ^ width := by
  have small : 2 ^ width - 1 < 2 ^ w :=
    Nat.lt_of_lt_of_le (Nat.sub_lt (Nat.two_pow_pos width) Nat.one_pos)
      (Nat.pow_le_pow_right Nat.two_pos fits)
  rw [BitVec.toNat_and, mask, BitVec.toNat_ofNat, Nat.mod_eq_of_lt small,
    Nat.and_two_pow_sub_one_eq_mod]

end BitField

/-! ## Words as sets of positions -/

namespace BitSet

/-- The word with exactly the listed positions set. -/
def ofPositions (w : ℕ) (positions : List ℕ) : BitVec w :=
  positions.foldl (fun word position => word ||| (1#w <<< position)) 0

/-- The number of set bits. -/
def size (word : BitVec w) : ℕ := (List.range w).countP (word.getLsbD ·)

theorem getLsbD_foldl_or (positions : List ℕ) (word : BitVec w) {i : ℕ} (inside : i < w) :
    (positions.foldl (fun word position => word ||| (1#w <<< position)) word).getLsbD i =
      (word.getLsbD i || decide (i ∈ positions)) := by
  induction positions generalizing word with
  | nil => simp
  | cons position rest ih =>
      rw [List.foldl_cons, ih]
      have bit : (1#w <<< position).getLsbD i = decide (i = position) := by
        simp [BitVec.getLsbD_shiftLeft, BitVec.getLsbD_one]
        grind
      rw [BitVec.getLsbD_or, bit, Bool.or_assoc]
      by_cases here : i = position <;> simp [here]

@[simp]
theorem getLsbD_ofPositions (positions : List ℕ) {i : ℕ} (inside : i < w) :
    (ofPositions w positions).getLsbD i = decide (i ∈ positions) := by
  rw [ofPositions, getLsbD_foldl_or positions 0 inside]
  simp

/-- Distinct positions inside the word are counted once each. -/
theorem size_ofPositions {positions : List ℕ} (distinct : positions.Nodup)
    (inside : ∀ position ∈ positions, position < w) :
    size (ofPositions w positions) = positions.length := by
  have counted : (List.range w).countP (ofPositions w positions).getLsbD =
      ((List.range w).filter (· ∈ positions)).length := by
    rw [List.countP_eq_length_filter]
    congr 1
    apply List.filter_congr
    intro i hi
    exact getLsbD_ofPositions positions (List.mem_range.mp hi)
  have same : ((List.range w).filter (· ∈ positions)).Perm positions := by
    rw [List.perm_ext_iff_of_nodup (List.nodup_range.filter _) distinct]
    intro position
    simp only [List.mem_filter, List.mem_range, decide_eq_true_eq]
    exact ⟨And.right, fun listed => ⟨inside position listed, listed⟩⟩
  rw [size, counted, same.length_eq]

/-- The positions that are set, in their order. -/
def positions (word : BitVec w) : List ℕ := (List.range w).filter (word.getLsbD ·)

@[simp]
theorem mem_positions {word : BitVec w} {i : ℕ} : i ∈ positions word ↔ word.getLsbD i = true := by
  rw [positions, List.mem_filter, List.mem_range]
  exact and_iff_right_of_imp BitVec.lt_of_getLsbD

theorem sortedLT_positions (word : BitVec w) : (positions word).SortedLT :=
  (List.pairwise_lt_range.filter _).sortedLT

theorem positions_zero : positions (0 : BitVec w) = [] := by
  simp [positions]

/-- A word is the lowest bit of it and the word shifted down by one. -/
theorem positions_eq_shift (word : BitVec w) :
    positions word =
      (if word.getLsbD 0 then [0] else []) ++ (positions (word >>> 1)).map (· + 1) := by
  have later : ((positions (word >>> 1)).map (· + 1)).Pairwise (· < ·) :=
    (sortedLT_positions _).pairwise.map _ fun _ _ below => Nat.succ_lt_succ below
  refine (sortedLT_positions word).eq_of_mem_iff ?_ fun i => ?_
  · split
    · exact (List.pairwise_cons.mpr ⟨by simp, later⟩).sortedLT
    · exact later.sortedLT
  · cases i with
    | zero => by_cases lowest : word.getLsbD 0 <;> simp [lowest]
    | succ i => by_cases lowest : word.getLsbD 0 <;> simp [lowest, Nat.add_comm 1 i]

/-- A word is built from its own positions. -/
theorem ofPositions_positions (word : BitVec w) : ofPositions w (positions word) = word := by
  apply BitVec.eq_of_getLsbD_eq
  intro i inside
  rw [getLsbD_ofPositions _ inside, Bool.eq_iff_iff, decide_eq_true_iff, mem_positions]

end BitSet

end Datamime.Math
