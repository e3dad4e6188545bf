/-
# Unsigned numbers in memory and on the network

A number of a fixed width is stored with its least significant byte first, and sent with its most
significant byte first.
-/

import Mathlib.Tactic

namespace Datamime.Math.Bytes

/-- The bytes of a number that is stored in `width` bytes. -/
def toBytes : ℕ → ℕ → List UInt8
  | 0, _ => []
  | width + 1, value => UInt8.ofNat value :: toBytes width (value / 256)

/-- The number that a run of bytes stores. -/
def ofBytes : List UInt8 → ℕ
  | [] => 0
  | byte :: rest => byte.toNat + 256 * ofBytes rest

@[simp]
theorem length_toBytes (width value : ℕ) : (toBytes width value).length = width := by
  induction width generalizing value with
  | zero => rfl
  | succ width ih => rw [toBytes, List.length_cons, ih]

/-- A number that fits its width is read back. -/
theorem ofBytes_toBytes {width value : ℕ} (fits : value < 256 ^ width) :
    ofBytes (toBytes width value) = value := by
  induction width generalizing value with
  | zero =>
      rw [pow_zero] at fits
      have isZero : value = 0 := by omega
      rw [isZero]
      rfl
  | succ width ih =>
      have upper : value / 256 < 256 ^ width := by
        apply Nat.div_lt_of_lt_mul
        rwa [← pow_succ']
      rw [toBytes, ofBytes, ih upper, UInt8.toNat_ofNat']
      omega

/-- The bytes from an offset on. -/
def field (bytes : List UInt8) (offset width : ℕ) : List UInt8 := (bytes.drop offset).take width

/-- A field that other fields stand before and after. -/
theorem field_append {before middle after : List UInt8} {offset width : ℕ}
    (starts : before.length = offset) (wide : middle.length = width) :
    field (before ++ (middle ++ after)) offset width = middle := by
  rw [field, ← starts, List.drop_left, ← wide, List.take_left]

end Datamime.Math.Bytes

namespace Datamime.Math.NetworkOrder

/-- The bytes of a number that is sent in `width` bytes. -/
def toBytes : ℕ → ℕ → List Char
  | 0, _ => []
  | width + 1, value => toBytes width (value / 256) ++ [Char.ofNat (value % 256)]

def ofBytes (bytes : List Char) : ℕ := bytes.foldl (fun value byte => value * 256 + byte.toNat) 0

@[simp]
theorem length_toBytes (width value : ℕ) : (toBytes width value).length = width := by
  induction width generalizing value with
  | zero => rfl
  | succ width ih =>
      rw [toBytes, List.length_append, ih]
      rfl

theorem ofBytes_concat (bytes : List Char) (byte : Char) :
    ofBytes (bytes ++ [byte]) = ofBytes bytes * 256 + byte.toNat := by
  rw [ofBytes, List.foldl_append]
  rfl

theorem toNat_byte (value : ℕ) : (Char.ofNat (value % 256)).toNat = value % 256 := by
  have isByte : value % 256 < 256 := Nat.mod_lt _ (by decide)
  have valid : (value % 256).isValidChar := .inl (by omega)
  rw [Char.ofNat, dif_pos valid]
  rfl

/-- Reading back a number returns it, if there are enough bytes for it. -/
theorem ofBytes_toBytes {width value : ℕ} (fits : value < 256 ^ width) :
    ofBytes (toBytes width value) = value := by
  induction width generalizing value with
  | zero =>
      have isZero : value = 0 := by simpa using fits
      rw [isZero]
      rfl
  | succ width ih =>
      have less : value / 256 < 256 ^ width := by
        rw [Nat.div_lt_iff_lt_mul (by decide), ← Nat.pow_succ]
        exact fits
      rw [toBytes, ofBytes_concat, ih less, toNat_byte]
      omega

end Datamime.Math.NetworkOrder
