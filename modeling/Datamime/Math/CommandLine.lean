/-
# Command-line options

An option is a letter behind a dash. Several letters share a word as long as none of
them takes an argument; the argument of a letter is the rest of its word, or the next
word when nothing is left. Words of another kind are passed by, and the word of two
dashes ends the scan. A number is read from the front of its text, and what comes
behind the digits is ignored.
-/

import Mathlib.Data.List.TakeWhile
import Datamime.Math.Text

namespace Datamime.Math.CommandLine

/-! ## Options -/

/-- Whether a letter takes an argument, from the list of the letters in which a colon marks
those that do. -/
def takesArgument? : List Char → Char → Option Bool
  | [], _ => none
  | letter :: ':' :: rest, c => if c = letter then some true else takesArgument? rest c
  | letter :: rest, c => if c = letter then some false else takesArgument? rest c

/-- The options in a word behind its dash, and the letter that still waits for its argument. An
unknown letter is returned as a question mark. -/
def scanWord (optstring : List Char) : List Char → List (Char × List Char) × Option Char
  | [] => ([], none)
  | c :: rest =>
      let later := scanWord optstring rest
      match takesArgument? optstring c with
      | none => (('?', []) :: later.1, later.2)
      | some false => ((c, []) :: later.1, later.2)
      | some true => if rest = [] then ([], some c) else ([(c, rest)], none)

/-- The options in the words, where a letter may wait for its argument. -/
def scan (optstring : List Char) (posixlyCorrect : Bool) :
    Option Char → List (List Char) → List (Char × List Char)
  | none, [] => []
  | some _, [] => [('?', [])]
  | some c, argument :: words => (c, argument) :: scan optstring posixlyCorrect none words
  | none, word :: words =>
      match word with
      | ['-', '-'] => []
      | '-' :: c :: rest =>
          (scanWord optstring (c :: rest)).1 ++
            scan optstring posixlyCorrect (scanWord optstring (c :: rest)).2 words
      | _ => if posixlyCorrect then [] else scan optstring posixlyCorrect none words

/-- `getopt`, called until it returns -1: each letter with its argument, which is empty if it
takes none. -/
def getopt (optstring : List Char) (posixlyCorrect : Bool) (words : List (List Char)) :
    List (Char × List Char) :=
  scan optstring posixlyCorrect none words

/-- The argument of the last option with a letter. -/
def lastArgument? (letter : Char) : List (Char × List Char) → Option (List Char)
  | [] => none
  | (c, argument) :: rest =>
      (lastArgument? letter rest).or (if c = letter then some argument else none)

section

variable {optstring : List Char} {posixlyCorrect : Bool}

@[simp]
theorem getopt_nil : getopt optstring posixlyCorrect [] = [] := rfl

/-- A word of options that is not the end mark. -/
theorem getopt_cluster {c : Char} {rest : List Char} (notEnd : c :: rest ≠ ['-'])
    (words : List (List Char)) :
    getopt optstring posixlyCorrect (('-' :: c :: rest) :: words) =
      (scanWord optstring (c :: rest)).1 ++
        scan optstring posixlyCorrect (scanWord optstring (c :: rest)).2 words := by
  rw [getopt, scan.eq_def]
  dsimp only
  split
  · rename_i isEnd
    cases isEnd
    exact absurd rfl notEnd
  · rename_i isOption
    cases isOption
    rfl
  · rename_i noOption
    exact absurd rfl (noOption c rest)

/-- A letter with its argument in the same word. -/
theorem getopt_attached {c : Char} {argument : List Char}
    (takes : takesArgument? optstring c = some true) (notEmpty : argument ≠ [])
    (words : List (List Char)) :
    getopt optstring posixlyCorrect (('-' :: c :: argument) :: words) =
      (c, argument) :: getopt optstring posixlyCorrect words := by
  have isCluster : scanWord optstring (c :: argument) = ([(c, argument)], none) := by
    simp [scanWord, takes, notEmpty]
  rw [getopt_cluster (fun isEnd => notEmpty (List.cons.inj isEnd).2), isCluster]
  rfl

/-- A letter with its argument in the next word. -/
theorem getopt_separate {c : Char} (isLetter : c ≠ '-')
    (takes : takesArgument? optstring c = some true) (argument : List Char)
    (words : List (List Char)) :
    getopt optstring posixlyCorrect (['-', c] :: argument :: words) =
      (c, argument) :: getopt optstring posixlyCorrect words := by
  have isCluster : scanWord optstring [c] = ([], some c) := by simp [scanWord, takes]
  rw [getopt_cluster (fun isEnd => isLetter (List.cons.inj isEnd).1), isCluster]
  rfl

/-- A letter alone in its word. -/
theorem getopt_flag {c : Char} (isLetter : c ≠ '-')
    (takes : takesArgument? optstring c = some false) (words : List (List Char)) :
    getopt optstring posixlyCorrect (['-', c] :: words) =
      (c, []) :: getopt optstring posixlyCorrect words := by
  have isCluster : scanWord optstring [c] = ([(c, [])], none) := by simp [scanWord, takes]
  rw [getopt_cluster (fun isEnd => isLetter (List.cons.inj isEnd).1), isCluster]
  rfl

/-- A letter that may be left out. -/
theorem getopt_optional {c : Char} (isLetter : c ≠ '-')
    (takes : takesArgument? optstring c = some false) (given : Bool) (words : List (List Char)) :
    getopt optstring posixlyCorrect ((if given then [['-', c]] else []) ++ words) =
      (if given then [(c, [])] else []) ++ getopt optstring posixlyCorrect words := by
  cases given with
  | false => rfl
  | true => exact getopt_flag isLetter takes words

end

/-! ## Numbers -/

/-- `isspace`. -/
def isSpace (c : Char) : Bool := c.toNat = 32 || (9 ≤ c.toNat && c.toNat ≤ 13)

/-- The number whose digits a text starts with. -/
def leadingNat? (text : List Char) : Option ℕ := Text.toNat? (text.takeWhile Char.isDigit)

/-- The number that a text starts with, behind blanks and an optional sign. -/
def leadingInt? (text : List Char) : Option ℤ :=
  match text.dropWhile isSpace with
  | '-' :: digits => (leadingNat? digits).map fun n => -(n : ℤ)
  | '+' :: digits => (leadingNat? digits).map Int.ofNat
  | digits => (leadingNat? digits).map Int.ofNat

/-- Without a blank or a sign in front, the digits are taken. -/
theorem leadingInt?_cons {first : Char} (noSpace : isSpace first = false) (noMinus : first ≠ '-')
    (noPlus : first ≠ '+') (rest : List Char) :
    leadingInt? (first :: rest) = (leadingNat? (first :: rest)).map Int.ofNat := by
  rw [leadingInt?, List.dropWhile_cons_of_neg (by simp [noSpace])]
  split
  · rename_i starts
    cases starts
    exact absurd rfl noMinus
  · rename_i starts
    cases starts
    exact absurd rfl noPlus
  · rfl

/-- A number that starts with a digit has no sign and no blank in front. -/
theorem leadingInt?_cons_of_isDigit {first : Char} (digit : first.isDigit = true)
    (rest : List Char) :
    leadingInt? (first :: rest) = (leadingNat? (first :: rest)).map Int.ofNat := by
  have range : 48 ≤ first.toNat ∧ first.toNat ≤ 57 := by
    simpa [Char.isDigit, UInt32.le_iff_toNat_le] using digit
  have noSpace : isSpace first = false := by
    simp only [isSpace, Bool.or_eq_false_iff, Bool.and_eq_false_iff, decide_eq_false_iff_not]
    omega
  apply leadingInt?_cons noSpace
  · rintro rfl
    exact absurd digit (by decide)
  · rintro rfl
    exact absurd digit (by decide)

/-- A text that starts with another character has no number in front. -/
theorem leadingInt?_cons_eq_none {first : Char} (noSpace : isSpace first = false)
    (noMinus : first ≠ '-') (noPlus : first ≠ '+') (noDigit : first.isDigit = false)
    (rest : List Char) : leadingInt? (first :: rest) = none := by
  have noDigits : (first :: rest).takeWhile Char.isDigit = [] :=
    List.takeWhile_cons_of_neg (by simp [noDigit])
  rw [leadingInt?_cons noSpace noMinus noPlus, leadingNat?, noDigits]
  rfl

/-- The digits end at the first character that is none. -/
theorem leadingNat?_toDigits_append (n : ℕ) {rest : List Char}
    (ends : ∀ c ∈ rest.head?, c.isDigit = false) :
    leadingNat? (Nat.toDigits 10 n ++ rest) = some n := by
  have noDigits : rest.takeWhile Char.isDigit = [] := by
    cases rest with
    | nil => rfl
    | cons c rest => simpa using ends c rfl
  rw [leadingNat?, List.takeWhile_append_of_pos fun c => Text.isDigit_of_mem_toDigits, noDigits,
    List.append_nil, Text.toNat?_toDigits]

/-- Reading a printed number returns it, whatever stands behind its digits. -/
theorem leadingInt?_ofInt_append (z : ℤ) {rest : List Char}
    (ends : ∀ c ∈ rest.head?, c.isDigit = false) :
    leadingInt? (Text.ofInt z ++ rest) = some z := by
  cases z with
  | ofNat n =>
      have isNat := leadingNat?_toDigits_append n ends
      have notEmpty : Nat.toDigits 10 n ≠ [] := Nat.toDigits_ne_nil
      rcases List.exists_cons_of_ne_nil notEmpty with ⟨first, digits, isCons⟩
      have digit : first.isDigit = true := by
        apply @Text.isDigit_of_mem_toDigits n
        rw [isCons]
        exact List.mem_cons_self
      rw [isCons] at isNat
      rw [Text.ofInt, isCons, List.cons_append, leadingInt?_cons_of_isDigit digit,
        ← List.cons_append, isNat]
      rfl
  | negSucc n =>
      have noSpace : isSpace '-' = false := by decide
      rw [Text.ofInt, List.cons_append, leadingInt?,
        List.dropWhile_cons_of_neg (by rw [noSpace]; decide)]
      simp [leadingNat?_toDigits_append (n + 1) ends, Int.negSucc_eq]

/-- Reading a printed number returns it. -/
@[simp]
theorem leadingInt?_ofInt (z : ℤ) : leadingInt? (Text.ofInt z) = some z := by
  have isRead := @leadingInt?_ofInt_append z [] fun c isHead => nomatch isHead
  rwa [List.append_nil] at isRead

end Datamime.Math.CommandLine
