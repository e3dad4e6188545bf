/-
# The file of the search terms

`genTerms` writes a line for each term with its frequency, and `TermSet` reads the lines back. It
asks for the end of the file only at the bottom of its loop. The end of a file whose last line is
complete is noticed by a further round, which adds an empty term with the frequency of the line
before it. No file that `genTerms` writes is read back as it was written.
-/

import Datamime.Fault
import Datamime.Math.CommandLine
import Datamime.Math.TextStream

namespace Datamime.Xapian

open Datamime.Math

/-! ## The writer -/

/-- A term of the database with its collection frequency and the number of its matches. -/
structure DbTerm where
  term : List Char
  cnt : ℕ
  msetSize : ℕ

/-- The term begins with a lower-case letter and has no other characters. -/
def isLowercase (term : List Char) : Bool := term ≠ [] && term.all Char.isLower

/-- The line of a term. -/
def termLine (term : List Char) (cnt : ℕ) : List Char :=
  term ++ ',' :: (Nat.toDigits 10 cnt ++ ['\n'])

/-- The file that `genTerms` writes for the terms of a database. -/
def genTerms (llimit ulimit : ℕ) (allterms : List DbTerm) : List Char :=
  allterms.flatMap fun entry =>
    if isLowercase entry.term && decide (llimit ≤ entry.msetSize ∧ entry.msetSize ≤ ulimit) then
      termLine entry.term entry.cnt
    else []

/-- The file of a list of terms with their frequencies. -/
def termsFile (pairs : List (List Char × ℕ)) : List Char :=
  pairs.flatMap fun pair => termLine pair.1 pair.2

/-- The terms that `genTerms` writes. -/
def selected (llimit ulimit : ℕ) (allterms : List DbTerm) : List (List Char × ℕ) :=
  (allterms.filter fun entry =>
    isLowercase entry.term && decide (llimit ≤ entry.msetSize ∧ entry.msetSize ≤ ulimit)).map
      fun entry => (entry.term, entry.cnt)

/-! ## The reader -/

def MAX_TERM_LEN : ℕ := 128

def MAX_DIGITS : ℕ := 24

/-- How `TermSet` ends without terms. -/
inductive LoadError
  /-- `exit(-1)` after a message that a term or frequency is too big. -/
  | tooBig
  /-- `std::invalid_argument` from `std::stoi`. -/
  | invalidArgument
  /-- `std::out_of_range` from `std::stoi`. -/
  | outOfRange
  /-- The loop does not end. -/
  | noEnd
  deriving DecidableEq

/-- `std::stoi`. -/
def stoi (text : List Char) : Except LoadError ℤ :=
  match CommandLine.leadingInt? text with
  | none => .error .invalidArgument
  | some n => if -2 ^ 31 ≤ n ∧ n < 2 ^ 31 then .ok n else .error .outOfRange

/-- The variables of the loop. -/
structure Reader where
  fin : InputStream
  term : List Char
  freq : List Char
  termCount : ℕ
  terms : List (ℤ × List Char)

/-- One round of the loop. -/
def readRound (st : Reader) : Except LoadError Reader := do
  let (term, fin) := st.fin.getline ',' st.term
  if MAX_TERM_LEN ≤ term.length then .error .tooBig
  let (freq, fin) := fin.getline '\n' st.freq
  if MAX_DIGITS ≤ freq.length then .error .tooBig
  let value ← stoi freq
  return ⟨fin, term, freq, st.termCount + 1, st.terms ++ [(value, term)]⟩

/-- The loop, for a number of rounds. -/
def readLoop (st : Reader) : ℕ → Except LoadError Reader
  | 0 => .error .noEnd
  | rounds + 1 => do
      let next ← readRound st
      if next.fin.eof then return next else readLoop next rounds

/-- `std::sort` by frequency: some rearrangement with no frequency above an earlier one. -/
structure FrequencySort where
  apply : List (ℤ × List Char) → List (ℤ × List Char)
  perm : ∀ terms, (apply terms).Perm terms
  sorted : ∀ terms, (apply terms).Pairwise fun first second => second.1 ≤ first.1

/-- What a `TermSet` keeps of its file. -/
structure TermSet where
  terms : List (ℤ × List Char)
  termCount : ℕ

/-- The constructor of `TermSet`. Every round but the last takes a character from the file. -/
def TermSet.ofFile (sort : FrequencySort) (text : List Char) : Except LoadError TermSet := do
  let last ← readLoop ⟨.ofText text, [], [], 0, []⟩ (text.length + 1)
  return ⟨sort.apply last.terms, last.termCount⟩

/-- The pairs that the terms of a `TermSet` are compared with. -/
def asTerms (pairs : List (List Char × ℕ)) : List (ℤ × List Char) :=
  pairs.map fun pair => ((pair.2 : ℤ), pair.1)

/-- The file of the pairs is read back as exactly these pairs, sorted and counted. -/
def ReadsBack (sort : FrequencySort) (pairs : List (List Char × ℕ)) : Prop :=
  ∃ set, TermSet.ofFile sort (termsFile pairs) = .ok set ∧ set.terms.Perm (asTerms pairs) ∧
    (set.terms.Pairwise fun first second => second.1 ≤ first.1) ∧
    set.termCount = pairs.length

/-- A pair that `genTerms` can write, within the limits of the reader. -/
structure Writable (pair : List Char × ℕ) : Prop where
  lowercase : isLowercase pair.1 = true
  short : pair.1.length < MAX_TERM_LEN
  small : pair.2 < 2 ^ 31

/-- The file that `genTerms` writes is that of the selected terms. -/
theorem genTerms_eq (llimit ulimit : ℕ) (allterms : List DbTerm) :
    genTerms llimit ulimit allterms = termsFile (selected llimit ulimit allterms) := by
  induction allterms with
  | nil => rfl
  | cons entry allterms ih =>
      simp only [genTerms, termsFile, selected] at ih ⊢
      rw [List.flatMap_cons, ih, List.filter_cons]
      split_ifs <;> simp

/-! ## A round at a line -/

section

variable {pair : List Char × ℕ} {st : Reader}

theorem comma_not_mem_of_isLowercase {term : List Char} (lowercase : isLowercase term = true) :
    ',' ∉ term := by
  intro isMember
  simp only [isLowercase, Bool.and_eq_true, List.all_eq_true] at lowercase
  exact absurd (lowercase.2 ',' isMember) (by decide)

theorem newline_not_mem_toDigits (n : ℕ) : '\n' ∉ Nat.toDigits 10 n :=
  fun isMember => absurd (Text.isDigit_of_mem_toDigits isMember) (by decide)

/-- A frequency below 2 ^ 31 has few digits. -/
theorem length_toDigits_lt {n : ℕ} (small : n < 2 ^ 31) :
    (Nat.toDigits 10 n).length < MAX_DIGITS := by
  have bound : (Nat.toDigits 10 n).length ≤ 10 :=
    (Nat.length_toDigits_le_iff (by decide) (by decide)).mpr (small.trans (by decide))
  exact bound.trans_lt (by decide)

theorem stoi_toDigits {n : ℕ} (small : n < 2 ^ 31) : stoi (Nat.toDigits 10 n) = .ok (n : ℤ) := by
  have isRead : CommandLine.leadingInt? (Nat.toDigits 10 n) = some (n : ℤ) :=
    CommandLine.leadingInt?_ofInt (Int.ofNat n)
  rw [stoi, isRead]
  apply if_pos
  omega

/-- A round takes a line with its end, so the stream does not know that it has come to its
end. -/
theorem readRound_line (writable : Writable pair) {rest : List Char}
    (atLine : st.fin = .ofText (termLine pair.1 pair.2 ++ rest)) :
    readRound st = .ok ⟨.ofText rest, pair.1, Nat.toDigits 10 pair.2, st.termCount + 1,
      st.terms ++ [((pair.2 : ℤ), pair.1)]⟩ := by
  have line : termLine pair.1 pair.2 ++ rest =
      pair.1 ++ ',' :: (Nat.toDigits 10 pair.2 ++ '\n' :: rest) := by simp [termLine]
  have termRead := InputStream.getline_field (comma_not_mem_of_isLowercase writable.lowercase)
    (Nat.toDigits 10 pair.2 ++ '\n' :: rest) st.term
  have freqRead := InputStream.getline_field (newline_not_mem_toDigits pair.2) rest st.freq
  simp only [readRound, atLine, line, termRead, freqRead, stoi_toDigits writable.small, ok_bind,
    Nat.not_le_of_lt writable.short, Nat.not_le_of_lt (length_toDigits_lt writable.small)]
  rfl

/-- At the end of the file a round reads an empty term, and the frequency stays what it was. -/
theorem readRound_end (atEnd : st.fin = .ofText []) {freq : ℕ} (small : freq < 2 ^ 31)
    (isFreq : st.freq = Nat.toDigits 10 freq) :
    readRound st = .ok ⟨⟨[], true, true⟩, [], st.freq, st.termCount + 1,
      st.terms ++ [((freq : ℤ), [])]⟩ := by
  have notGood : (⟨[], true, true⟩ : InputStream).good = false := rfl
  have fewChars : ¬ MAX_TERM_LEN ≤ ([] : List Char).length := by decide
  simp only [readRound, atEnd, InputStream.getline_nil, InputStream.getline_of_not_good notGood,
    fewChars, isFreq, Nat.not_le_of_lt (length_toDigits_lt small), stoi_toDigits small, ok_bind]
  rfl

/-- In an empty file there is no frequency to stay what it was. -/
theorem readRound_empty (atEnd : st.fin = .ofText []) (noFreq : st.freq = []) :
    readRound st = .error .invalidArgument := by
  have notGood : (⟨[], true, true⟩ : InputStream).good = false := rfl
  have fewChars : ¬ MAX_TERM_LEN ≤ ([] : List Char).length := by decide
  have fewDigits : ¬ MAX_DIGITS ≤ ([] : List Char).length := by decide
  have noNumber : stoi [] = .error .invalidArgument := rfl
  simp only [readRound, atEnd, InputStream.getline_nil, InputStream.getline_of_not_good notGood,
    fewChars, noFreq, fewDigits, noNumber, error_bind]
  rfl

end

/-! ## The whole file -/

/-- The frequency of the last pair. -/
def lastFreq : ℕ → List (List Char × ℕ) → ℕ
  | freq, [] => freq
  | _, pair :: pairs => lastFreq pair.2 pairs

/-- The loop reads the lines that are left, and then the frequency of the last one again. -/
theorem readLoop_lines {pairs : List (List Char × ℕ)} (writable : ∀ pair ∈ pairs, Writable pair)
    {st : Reader} (atLines : st.fin = .ofText (termsFile pairs)) {freq : ℕ} (small : freq < 2 ^ 31)
    (isFreq : st.freq = Nat.toDigits 10 freq) {rounds : ℕ} (enough : pairs.length < rounds) :
    ∃ last, readLoop st rounds = .ok last ∧ last.termCount = st.termCount + pairs.length + 1 ∧
      last.terms = st.terms ++ asTerms pairs ++ [((lastFreq freq pairs : ℤ), [])] := by
  induction pairs generalizing st freq rounds with
  | nil =>
      rcases Nat.exists_eq_succ_of_ne_zero (Nat.ne_of_gt enough) with ⟨more, rfl⟩
      have ended := readRound_end atLines small isFreq
      refine ⟨_, by rw [readLoop, ended]; rfl, rfl, ?_⟩
      simp [asTerms, lastFreq]
  | cons pair pairs ih =>
      rcases Nat.exists_eq_succ_of_ne_zero (Nat.ne_of_gt (Nat.zero_lt_of_lt enough)) with
        ⟨more, rfl⟩
      have isWritable : Writable pair := writable pair List.mem_cons_self
      have others : ∀ other ∈ pairs, Writable other := fun other isMember =>
        writable other (List.mem_cons_of_mem pair isMember)
      have started := readRound_line isWritable atLines
      rcases @ih others ⟨.ofText (termsFile pairs), pair.1, Nat.toDigits 10 pair.2,
          st.termCount + 1, st.terms ++ [((pair.2 : ℤ), pair.1)]⟩ rfl pair.2 isWritable.small rfl
          more (Nat.lt_of_succ_lt_succ enough) with ⟨last, looped, counted, collected⟩
      refine ⟨last, by rw [readLoop, started]; exact looped, ?_, ?_⟩
      · simp only [counted, List.length_cons]
        omega
      · simp [collected, asTerms, lastFreq]

/-- Every line takes more than one character. -/
theorem length_le_length_termsFile (pairs : List (List Char × ℕ)) :
    pairs.length ≤ (termsFile pairs).length := by
  induction pairs with
  | nil => exact Nat.zero_le _
  | cons pair pairs ih =>
      simp only [termsFile, List.flatMap_cons, List.length_append, List.length_cons] at ih ⊢
      have someChars : 1 ≤ (termLine pair.1 pair.2).length := by
        simp only [termLine, List.length_append, List.length_cons]
        omega
      omega

/-- The file of no terms makes the constructor throw. -/
theorem ofFile_empty (sort : FrequencySort) :
    TermSet.ofFile sort (termsFile []) = .error .invalidArgument := by
  have thrown := @readRound_empty ⟨.ofText [], [], [], 0, []⟩ rfl rfl
  simp only [TermSet.ofFile, termsFile, List.flatMap_nil, List.length_nil, readLoop, thrown,
    error_bind]

/-- The file of some terms is read back with one term more, which is empty and has the last
frequency. -/
theorem ofFile_termsFile (sort : FrequencySort) {pair : List Char × ℕ}
    {pairs : List (List Char × ℕ)} (writable : ∀ other ∈ pair :: pairs, Writable other) :
    TermSet.ofFile sort (termsFile (pair :: pairs)) =
      .ok ⟨sort.apply (asTerms (pair :: pairs) ++ [((lastFreq pair.2 pairs : ℤ), [])]),
        pairs.length + 2⟩ := by
  have isWritable : Writable pair := writable pair List.mem_cons_self
  have started := @readRound_line pair ⟨.ofText (termsFile (pair :: pairs)), [], [], 0, []⟩
    isWritable (termsFile pairs) rfl
  rcases @readLoop_lines pairs (fun other isMember => writable other
      (List.mem_cons_of_mem pair isMember)) ⟨.ofText (termsFile pairs), pair.1,
      Nat.toDigits 10 pair.2, 1, [((pair.2 : ℤ), pair.1)]⟩ rfl pair.2 isWritable.small
      rfl (termsFile (pair :: pairs)).length (length_le_length_termsFile (pair :: pairs)) with
    ⟨last, looped, counted, collected⟩
  have read : readLoop ⟨.ofText (termsFile (pair :: pairs)), [], [], 0, []⟩
      ((termsFile (pair :: pairs)).length + 1) = .ok last := by
    rw [readLoop, started]
    exact looped
  have isCount : last.termCount = pairs.length + 2 := by
    simp only [counted]
    omega
  have isTerms : last.terms =
      asTerms (pair :: pairs) ++ [((lastFreq pair.2 pairs : ℤ), [])] := by
    simp [collected, asTerms]
  rw [TermSet.ofFile, read, ok_bind, isCount, isTerms]
  rfl

/-- No file that `genTerms` writes is read back as it was written. -/
theorem not_readsBack (sort : FrequencySort) {pairs : List (List Char × ℕ)}
    (writable : ∀ pair ∈ pairs, Writable pair) : ¬ ReadsBack sort pairs := by
  rintro ⟨set, isRead, -, -, counted⟩
  cases pairs with
  | nil =>
      rw [ofFile_empty] at isRead
      cases isRead
  | cons pair pairs =>
      cases isRead.symm.trans (ofFile_termsFile sort writable)
      exact absurd counted (Nat.succ_ne_self _)

/-- A stable sort by frequency. -/
def FrequencySort.stable : FrequencySort where
  apply := fun terms => terms.mergeSort fun first second => second.1 ≤ first.1
  perm := fun terms => List.mergeSort_perm terms _
  sorted := fun terms => by
    have sorted := @List.pairwise_mergeSort (ℤ × List Char)
      (fun first second => second.1 ≤ first.1)
      (fun first second third => by simpa using fun le le' => le'.trans le)
      (fun first second => by simpa using le_total second.1 first.1) terms
    simpa using sorted

/-- Two terms of the database. -/
def twoTerms : List (List Char × ℕ) := [(['c', 'a', 'r'], 7), (['d', 'o', 'g'], 12)]

theorem writable_of_mem_twoTerms : ∀ pair ∈ twoTerms, Writable pair := by
  intro pair isMember
  simp only [twoTerms, List.mem_cons, List.not_mem_nil, or_false] at isMember
  rcases isMember with rfl | rfl
  · exact ⟨by decide, by decide, by decide⟩
  · exact ⟨by decide, by decide, by decide⟩

theorem twoTerms_not_readBack : ¬ ReadsBack .stable twoTerms :=
  not_readsBack .stable writable_of_mem_twoTerms

/-- A file of one line gives two terms. -/
theorem extra_term_is_read : ¬ ReadsBack .stable [(['c', 'a', 'r'], 7)] := by
  rintro ⟨set, isRead, -, -, counted⟩
  have isWritable : Writable (['c', 'a', 'r'], 7) := ⟨by decide, by decide, by decide⟩
  cases isRead.symm.trans (ofFile_termsFile .stable (by simpa using isWritable))
  exact absurd counted (by decide)

end Datamime.Xapian
