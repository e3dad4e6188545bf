/-
# Numbers and tokens of the C library

`atoi` reads an integer from the front of a text as a long number and keeps the low bits of it, so
that it is also zero for numbers that are not. `strtok_r` cuts a text at separators and skips
empty tokens. A double that a script prints is read back by `atof`.
-/

import Mathlib.Data.List.Infix
import Datamime.Math.CommandLine
import Datamime.Math.PyNumber

namespace Datamime.Math

namespace CNumber

open CommandLine

/-! ## Integers -/

/-- `strtol`, which stays within the long numbers. -/
def strtol (text : List Char) : ℤ :=
  max (-2 ^ 63) (min (2 ^ 63 - 1) ((leadingInt? text).getD 0))

/-- `atoi`: the low bits of the long number, with their sign. -/
def atoi (text : List Char) : ℤ := (strtol text).bmod (2 ^ 32)

theorem atoi_eq_zero_iff (text : List Char) : atoi text = 0 ↔ 2 ^ 32 ∣ strtol text :=
  Int.dvd_iff_bmod_eq_zero.symm

/-- A text that does not begin with a number. -/
theorem atoi_of_none {text : List Char} (noNumber : leadingInt? text = none) : atoi text = 0 := by
  simp [atoi, strtol, noNumber]

/-- The low bits of a number are zero if it is a multiple of their modulus, unless it is cut to the
largest long number. -/
theorem atoi_ne_zero_iff {text : List Char} {k : ℤ} (isNumber : leadingInt? text = some k)
    (nonneg : 0 ≤ k) : atoi text ≠ 0 ↔ ¬ 2 ^ 32 ∣ k ∨ 2 ^ 63 ≤ k := by
  rw [ne_eq, atoi_eq_zero_iff, strtol, isNumber, Option.getD_some]
  by_cases large : 2 ^ 63 ≤ k
  · have isCut : max (-2 ^ 63) (min (2 ^ 63 - 1) k) = (2 ^ 63 - 1 : ℤ) := by omega
    rw [isCut]
    exact iff_of_true (by decide) (.inr large)
  · have isKept : max (-2 ^ 63) (min (2 ^ 63 - 1) k) = k := by omega
    rw [isKept, or_iff_left large]

/-- A number of the type `int` is kept. -/
theorem atoi_of_small {text : List Char} {k : ℤ} (isNumber : leadingInt? text = some k)
    (above : -2 ^ 31 ≤ k) (below : k < 2 ^ 31) : atoi text = k := by
  have isKept : max (-2 ^ 63) (min (2 ^ 63 - 1) k) = k := by omega
  rw [atoi, strtol, isNumber, Option.getD_some, isKept]
  exact Int.bmod_eq_of_le (by omega) (by omega)

/-- `std::stoi`, unless it throws. -/
def stoi? (text : List Char) : Option ℤ :=
  (leadingInt? text).filter fun n => -2 ^ 31 ≤ n ∧ n < 2 ^ 31

/-! ## Tokens -/

/-- The results of `strtok_r`, called until there are no more. -/
def tokens (separator : Char) (text : List Char) : List (List Char) :=
  (text.splitOn separator).filter (· ≠ [])

section

variable {separator : Char} {word : List Char}

/-- A text without a separator is one token. -/
theorem tokens_of_not_mem (notEmpty : word ≠ []) (noSeparator : separator ∉ word) :
    tokens separator word = [word] := by
  simp [tokens, List.splitOn_eq_singleton noSeparator, notEmpty]

/-- The text before the first separator is the first token. -/
theorem tokens_append_cons (notEmpty : word ≠ []) (noSeparator : separator ∉ word)
    (rest : List Char) :
    tokens separator (word ++ separator :: rest) = word :: tokens separator rest := by
  simp [tokens, List.splitOn_append_cons_self_of_not_mem noSeparator, notEmpty]

end

/-- `strcasestr`, for a marker in lower case. -/
def strcasestr (text marker : List Char) : Prop := marker <:+: text.map Char.toLower

instance (text marker : List Char) : Decidable (strcasestr text marker) :=
  inferInstanceAs (Decidable (_ <:+: _))

/-- A letter of the marker that no character of the text becomes. -/
theorem not_strcasestr {text marker : List Char} {letter : Char} (isMember : letter ∈ marker)
    (missing : ∀ c ∈ text, c.toLower ≠ letter) : ¬ strcasestr text marker := by
  intro occurs
  rcases List.mem_map.mp (occurs.subset isMember) with ⟨c, inText, same⟩
  exact missing c inText same

end CNumber

/-! ## Doubles -/

/-- The characters of a printed number. -/
def IsNumeric (c : Char) : Prop := c.isDigit = true ∨ c = '.' ∨ c = '-' ∨ c = '+' ∨ c = 'e'

instance (c : Char) : Decidable (IsNumeric c) := inferInstanceAs (Decidable (_ ∨ _))

/-- The doubles, as one program prints them and another one reads them. A double with more than
sixteen digits before the point is printed with an exponent. -/
structure CDoubles extends Doubles where
  atof : List Char → Double
  /-- Round to hundredths in decimal, unless there are more digits than a decimal may have. -/
  quantize? : Double → Option Double
  isFinite : Double → Bool
  isNonneg : Double → Bool
  isZero : Double → Bool
  atof_repr : ∀ x, isFinite x = true → atof (repr x) = x
  atof_ofInt : ∀ n, atof (Text.ofInt n) = ofInt n
  isNumeric_of_mem_repr : ∀ x, isFinite x = true → ∀ c ∈ repr x, IsNumeric c
  isNonneg_ofInt : ∀ n, 0 ≤ n → isNonneg (ofInt n) = true
  toInt_nonneg : ∀ x, isFinite x = true → isNonneg x = true → 0 ≤ toInt x
  isFinite_of_quantize? : ∀ x q, quantize? x = some q → isNonneg x = true → isFinite q = true
  isNonneg_of_quantize? : ∀ x q, quantize? x = some q → isNonneg x = true → isNonneg q = true
  leadingInt?_repr : ∀ x q, quantize? x = some q → isNonneg x = true → |toInt q| < 10 ^ 16 →
    CommandLine.leadingInt? (repr q) = some (toInt q)
  leadingInt?_repr_large : ∀ x q, quantize? x = some q → isNonneg x = true →
    10 ^ 16 ≤ toInt q →
      ∃ digit, CommandLine.leadingInt? (repr q) = some digit ∧ 1 ≤ digit ∧ digit ≤ 9

theorem IsNumeric.range {c : Char} (isNumeric : IsNumeric c) :
    (48 ≤ c.toNat ∧ c.toNat ≤ 57) ∨ c.toNat = 46 ∨ c.toNat = 45 ∨ c.toNat = 43 ∨
      c.toNat = 101 := by
  rcases isNumeric with isDigit | rfl | rfl | rfl | rfl
  · left
    simpa [Char.isDigit, UInt32.le_iff_toNat_le] using isDigit
  all_goals simp

/-- The characters of a number have no upper case. -/
theorem IsNumeric.toLower_eq {c : Char} (isNumeric : IsNumeric c) : c.toLower = c := by
  have range := isNumeric.range
  have noUpper : ¬ (c.val ≥ 'A'.val ∧ c.val ≤ 'Z'.val) := by
    rintro ⟨above, below⟩
    have least : 65 ≤ c.toNat := UInt32.le_iff_toNat_le.mp above
    have most : c.toNat ≤ 90 := UInt32.le_iff_toNat_le.mp below
    omega
  exact dif_neg noUpper

theorem isNumeric_of_mem_ofInt {z : ℤ} {c : Char} (isMember : c ∈ Text.ofInt z) : IsNumeric c := by
  rcases Text.isDigit_of_mem_ofInt isMember with isDigit | isSign
  · exact .inl isDigit
  · exact .inr (.inr (.inl isSign))

/-! ## Doubles with whole values -/

theorem leadingInt?_wholeRepr (n : ℤ) : CommandLine.leadingInt? (wholeRepr n) = some n := by
  apply CommandLine.leadingInt?_ofInt_append
  simp

theorem isNumeric_of_mem_wholeRepr {n : ℤ} {c : Char} (isMember : c ∈ wholeRepr n) :
    IsNumeric c := by
  rcases List.mem_append.mp isMember with inside | isLast
  · exact isNumeric_of_mem_ofInt inside
  · have isPoint : c = '.' ∨ c = '0' := by simpa using isLast
    rcases isPoint with rfl | rfl
    · exact .inr (.inl rfl)
    · exact .inl rfl

/-- Whole numbers are hundredths already. -/
def wholeQuantize? (n : ℤ) : Option ℤ := if |n| < 10 ^ 16 then some n else none

theorem wholeQuantize?_eq_some {n q : ℤ} (isQuantized : wholeQuantize? n = some q) :
    n = q ∧ |q| < 10 ^ 16 := by
  rw [wholeQuantize?] at isQuantized
  split at isQuantized
  · rename_i small
    cases isQuantized
    exact ⟨rfl, small⟩
  · cases isQuantized

/-- The whole number that a text is read as. -/
def wholeAtof (text : List Char) : ℤ := (wholeRead? text).getD 0

theorem wholeAtof_wholeRepr (n : ℤ) : wholeAtof (wholeRepr n) = n := by
  rw [wholeAtof, wholeRead?_repr, Option.getD_some]

theorem wholeAtof_ofInt (n : ℤ) : wholeAtof (Text.ofInt n) = n := by
  rw [wholeAtof, wholeRead?_ofInt, Option.getD_some]

/-- The doubles with whole values, of which those below `10 ^ 16` are rounded. -/
def wholeCDoubles : CDoubles where
  toDoubles := wholeDoubles
  atof := wholeAtof
  quantize? := wholeQuantize?
  isFinite := fun _ => true
  isNonneg := fun n : ℤ => decide (0 ≤ n)
  isZero := fun n : ℤ => decide (n = 0)
  atof_repr := fun n _ => wholeAtof_wholeRepr n
  atof_ofInt := wholeAtof_ofInt
  isNumeric_of_mem_repr := fun _ _ _ => isNumeric_of_mem_wholeRepr
  isNonneg_ofInt := fun n nonneg => @decide_eq_true (0 ≤ n) _ nonneg
  toInt_nonneg := fun (n : ℤ) _ nonneg => @of_decide_eq_true (0 ≤ n) _ nonneg
  isFinite_of_quantize? := fun _ _ _ _ => rfl
  isNonneg_of_quantize? := fun _ _ isQuantized nonneg =>
    (wholeQuantize?_eq_some isQuantized).1 ▸ nonneg
  leadingInt?_repr := fun _ q _ _ _ => leadingInt?_wholeRepr q
  leadingInt?_repr_large := fun _ _ isQuantized _ large =>
    absurd ((le_abs_self _).trans_lt (wholeQuantize?_eq_some isQuantized).2) (not_lt.mpr large)

end Datamime.Math
