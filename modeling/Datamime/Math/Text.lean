/-
# Decimal numbers, words and lines

A program that writes a text file and a program that reads it back agree on very
little: numbers are written in decimal, fields are separated by blanks and
records by line ends. This module states that agreement for texts as lists of
characters. Printing then reading a number returns the number, splitting a line
of joined words returns the words, and splitting a text of terminated lines
returns the lines.
-/

import Mathlib.Data.List.Basic
import Mathlib.Tactic

namespace Datamime.Math.Text

/-! ## Numbers -/

/-- Decimal digits, with a leading minus sign for a negative number. -/
def ofInt : ℤ → List Char
  | .ofNat n => Nat.toDigits 10 n
  | .negSucc n => '-' :: Nat.toDigits 10 (n + 1)

/-- A nonempty string of decimal digits. -/
def toNat? (text : List Char) : Option ℕ :=
  if text ≠ [] ∧ text.all Char.isDigit then some (Nat.ofDigitChars 10 text 0) else none

/-- A decimal number with an optional sign. -/
def toInt? : List Char → Option ℤ
  | '-' :: digits => (toNat? digits).map fun n => -(n : ℤ)
  | '+' :: digits => (toNat? digits).map Int.ofNat
  | digits => (toNat? digits).map Int.ofNat

theorem isDigit_of_mem_toDigits {n : ℕ} {c : Char} (digit : c ∈ Nat.toDigits 10 n) :
    c.isDigit := Nat.isDigit_of_mem_toDigits (by decide) (by decide) digit

@[simp]
theorem toNat?_toDigits (n : ℕ) : toNat? (Nat.toDigits 10 n) = some n := by
  rw [toNat?, if_pos ⟨Nat.toDigits_ne_nil,
    List.all_eq_true.mpr fun _ => isDigit_of_mem_toDigits⟩, Nat.ofDigitChars_ten_toDigits]

/-- Reading back a printed number returns it. -/
@[simp]
theorem toInt?_ofInt (z : ℤ) : toInt? (ofInt z) = some z := by
  cases z with
  | ofNat n =>
      have digits : ∀ c ∈ Nat.toDigits 10 n, c ≠ '-' ∧ c ≠ '+' := by
        intro c isMember
        constructor <;> rintro rfl <;> exact absurd (isDigit_of_mem_toDigits isMember) (by decide)
      rw [ofInt, toInt?]
      · simp
      · intro rest starts
        exact (digits '-' (by simp [starts])).1 rfl
      · intro rest starts
        exact (digits '+' (by simp [starts])).2 rfl
  | negSucc n =>
      simp [ofInt, toInt?, Int.negSucc_eq]

/-- A printed number consists of digits and a sign. -/
theorem isDigit_of_mem_ofInt {z : ℤ} {c : Char} (isMember : c ∈ ofInt z) :
    c.isDigit ∨ c = '-' := by
  cases z with
  | ofNat n => exact .inl (isDigit_of_mem_toDigits isMember)
  | negSucc n =>
      rcases List.mem_cons.mp isMember with isSign | digit
      · exact .inr isSign
      · exact .inl (isDigit_of_mem_toDigits digit)

theorem comma_not_mem_ofInt (z : ℤ) : ',' ∉ ofInt z := fun isMember =>
  absurd (isDigit_of_mem_ofInt isMember) (by decide)

theorem point_not_mem_ofInt (z : ℤ) : '.' ∉ ofInt z := fun isMember =>
  absurd (isDigit_of_mem_ofInt isMember) (by decide)

/-! ## Words -/

/-- The characters that separate words. -/
def isBlank (c : Char) : Bool :=
  [9, 10, 11, 12, 13, 28, 29, 30, 31, 32, 133, 160, 5760, 8232, 8233, 8239, 8287, 12288].contains
    c.toNat || (8192 ≤ c.toNat && c.toNat ≤ 8202)

/-- A nonempty run of characters none of which is blank. -/
def IsWord (word : List Char) : Prop := word ≠ [] ∧ ∀ c ∈ word, isBlank c = false

/-- The characters of the word are tried, not all characters there are. -/
instance (word : List Char) : Decidable (IsWord word) :=
  have : Decidable (∀ c ∈ word, isBlank c = false) := List.decidableBAll _ word
  inferInstanceAs (Decidable (_ ∧ _))

/-- Split at runs of blanks; leading and trailing blanks leave no empty word. -/
def words (text : List Char) : List (List Char) :=
  (text.splitOnP isBlank).filter (· ≠ [])

/-- Words joined by single spaces. -/
def spaced : List (List Char) → List Char
  | [] => []
  | word :: rest => word ++ rest.flatMap (' ' :: ·)

theorem isBlank_eq_false_of_isDigit {c : Char} (digit : c.isDigit) : isBlank c = false := by
  have range : 48 ≤ c.toNat ∧ c.toNat ≤ 57 := by
    simpa [Char.isDigit, UInt32.le_iff_toNat_le] using digit
  simp only [isBlank, Bool.or_eq_false_iff, List.contains_eq_mem, decide_eq_false_iff_not,
    Bool.and_eq_false_iff, List.mem_cons, List.not_mem_nil, or_false]
  omega

theorem isWord_ofInt (z : ℤ) : IsWord (ofInt z) := by
  cases z with
  | ofNat n =>
      exact ⟨Nat.toDigits_ne_nil,
        fun c digit => isBlank_eq_false_of_isDigit (isDigit_of_mem_toDigits digit)⟩
  | negSucc n =>
      refine ⟨by simp [ofInt], ?_⟩
      intro c isMember
      rcases List.mem_cons.mp isMember with rfl | digit
      · decide
      · exact isBlank_eq_false_of_isDigit (isDigit_of_mem_toDigits digit)

theorem words_of_isWord {word : List Char} (isWord : IsWord word) : words word = [word] := by
  rw [words, List.splitOnP_eq_singleton isWord.2]
  simp [isWord.1]

/-- A word that a blank follows is the first word of the text. -/
theorem words_append_blank {word : List Char} (isWord : IsWord word) {blank : Char}
    (isSeparator : isBlank blank = true) (rest : List Char) :
    words (word ++ blank :: rest) = word :: words rest := by
  rw [words, List.splitOnP_append_cons_of_forall_mem isWord.2 blank isSeparator]
  simp [words, isWord.1]

/-- Splitting a line of joined words returns the words. -/
theorem words_spaced {list : List (List Char)} (areWords : ∀ word ∈ list, IsWord word) :
    words (spaced list) = list := by
  induction list with
  | nil => simp [spaced, words]
  | cons word rest ih =>
      have isWord : IsWord word := areWords word (by simp)
      cases rest with
      | nil => simpa [spaced] using words_of_isWord isWord
      | cons next rest =>
          have step : spaced (word :: next :: rest) = word ++ ' ' :: spaced (next :: rest) := by
            simp [spaced]
          rw [step, words_append_blank isWord (by decide),
            ih fun other isMember => areWords other (List.mem_cons_of_mem _ isMember)]

/-! ## Lines -/

/-- Split at line ends. A text that ends with a line end has no further line. -/
def lines (text : List Char) : List (List Char) :=
  let pieces := text.splitOn '\n'
  if pieces.getLast? = some [] then pieces.dropLast else pieces

/-- Each line followed by a line end. -/
def unlines (list : List (List Char)) : List Char := list.flatMap (· ++ ['\n'])

theorem splitOn_unlines {list : List (List Char)} (oneLine : ∀ line ∈ list, '\n' ∉ line) :
    (unlines list).splitOn '\n' = list ++ [[]] := by
  induction list with
  | nil => simp [unlines]
  | cons line rest ih =>
      have shape : unlines (line :: rest) = line ++ '\n' :: unlines rest := by simp [unlines]
      rw [shape, List.splitOn_append_cons_self_of_not_mem (oneLine line (by simp)),
        ih fun other isMember => oneLine other (List.mem_cons_of_mem _ isMember),
        List.cons_append]

/-- Splitting a text of terminated lines returns the lines. -/
@[simp]
theorem lines_unlines {list : List (List Char)} (oneLine : ∀ line ∈ list, '\n' ∉ line) :
    lines (unlines list) = list := by
  rw [lines, splitOn_unlines oneLine]
  simp

@[simp]
theorem lines_nil : lines [] = [] := rfl

/-- A text without line ends is one line, unless it is empty. -/
theorem lines_of_not_mem {text : List Char} (noEnd : '\n' ∉ text) :
    lines text = if text = [] then [] else [text] := by
  rw [lines, List.splitOn_eq_singleton noEnd]
  by_cases isEmpty : text = []
  · simp [isEmpty]
  · simp [isEmpty]

/-- The line before the first line end is the first one. -/
theorem lines_append_newline {line : List Char} (oneLine : '\n' ∉ line) (rest : List Char) :
    lines (line ++ '\n' :: rest) = line :: lines rest := by
  have some_piece : rest.splitOn '\n' ≠ [] := List.splitOn_ne_nil _ _
  rw [lines, lines, List.splitOn_append_cons_self_of_not_mem oneLine,
    List.getLast?_cons_of_ne_nil some_piece, List.dropLast_cons_of_ne_nil some_piece]
  split
  · rfl
  · rfl

theorem newline_not_mem_of_isWord {word : List Char} (isWord : IsWord word) : '\n' ∉ word :=
  fun isMember => absurd (isWord.2 '\n' isMember) (by decide)

theorem newline_not_mem_spaced {list : List (List Char)} (areWords : ∀ word ∈ list, IsWord word) :
    '\n' ∉ spaced list := by
  cases list with
  | nil => simp [spaced]
  | cons word rest =>
      simp only [spaced, List.mem_append, List.mem_flatMap, List.mem_cons, not_or, not_exists,
        not_and]
      refine ⟨newline_not_mem_of_isWord (areWords word (by simp)), fun other isMember => ?_⟩
      exact ⟨by decide,
        newline_not_mem_of_isWord (areWords other (List.mem_cons_of_mem _ isMember))⟩

/-! ## Fields -/

/-- A line without blanks at its ends. -/
def strip (line : List Char) : List Char :=
  ((line.dropWhile isBlank).reverse.dropWhile isBlank).reverse

theorem strip_of_plain {line : List Char} (plain : ∀ c ∈ line, isBlank c = false) :
    strip line = line := by
  have untouched : ∀ text : List Char, (∀ c ∈ text, isBlank c = false) →
      text.dropWhile isBlank = text := by
    intro text isPlain
    cases text with
    | nil => rfl
    | cons c rest => rw [List.dropWhile_cons_of_neg (by rw [isPlain c List.mem_cons_self]; decide)]
  rw [strip, untouched line plain, untouched line.reverse fun c isMember =>
    plain c (List.mem_reverse.mp isMember), List.reverse_reverse]

/-- Fields joined by commas. -/
def commaJoined (fields : List (List Char)) : List Char := [','].intercalate fields

/-- Splitting a line of joined fields returns the fields. -/
theorem splitOn_commaJoined {fields : List (List Char)} (some_field : fields ≠ [])
    (noComma : ∀ field ∈ fields, ',' ∉ field) : (commaJoined fields).splitOn ',' = fields :=
  List.splitOn_intercalate ',' noComma some_field

/-- A text has one piece more than separators. -/
theorem length_splitOn (separator : Char) (text : List Char) :
    (text.splitOn separator).length = text.count separator + 1 := by
  induction text with
  | nil => rfl
  | cons c rest ih =>
      rw [List.splitOn_cons_eq_if_modifyHead, List.count_cons]
      by_cases separates : c == separator
      · rw [if_pos separates, if_pos separates, List.length_cons, ih]
      · rw [if_neg separates, if_neg separates, List.length_modifyHead, ih]

/-- Each field with a comma behind it, but for the last one. -/
theorem dropLast_flatMap_comma (fields : List (List Char)) :
    (fields.flatMap (· ++ [','])).dropLast = commaJoined fields := by
  induction fields with
  | nil => rfl
  | cons field rest ih =>
      cases rest with
      | nil => simp [commaJoined]
      | cons next rest =>
          have notEmpty : (next :: rest).flatMap (· ++ [',']) ≠ [] := by simp
          rw [List.flatMap_cons, List.dropLast_append_of_ne_nil notEmpty, ih, commaJoined,
            commaJoined, List.intercalate_cons_cons]

/-- An empty field at the end is a comma at the end. -/
theorem commaJoined_append_nil {fields : List (List Char)} (some_field : fields ≠ []) :
    commaJoined (fields ++ [[]]) = commaJoined fields ++ [','] := by
  induction fields with
  | nil => exact absurd rfl some_field
  | cons field rest ih =>
      cases rest with
      | nil => simp [commaJoined]
      | cons next rest =>
          have joined := ih (List.cons_ne_nil next rest)
          rw [commaJoined, commaJoined, List.cons_append] at joined
          rw [commaJoined, commaJoined, List.cons_append, List.cons_append,
            List.intercalate_cons_cons, joined, List.intercalate_cons_cons, List.append_assoc,
            List.append_assoc, List.append_assoc]

theorem isBlank_of_mem_commaJoined {fields : List (List Char)}
    (areWords : ∀ field ∈ fields, IsWord field) {c : Char} (isMember : c ∈ commaJoined fields) :
    isBlank c = false := by
  rw [← dropLast_flatMap_comma] at isMember
  obtain ⟨field, isField, inside⟩ := List.mem_flatMap.mp (List.mem_of_mem_dropLast isMember)
  rcases List.mem_append.mp inside with inField | isComma
  · exact (areWords field isField).2 c inField
  · rw [List.mem_singleton.mp isComma]
    decide

end Datamime.Math.Text
