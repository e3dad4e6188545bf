/-
# Input streams

A stream of characters remembers whether a read has met its end and whether one has failed. A
read of a line takes the characters up to a delimiter and the delimiter with them. The end of the
stream is only noticed by a read that looks beyond the last character, and a read from a stream
that is not good leaves its target alone. So a text whose last record ends with a delimiter has
been read to its end before the stream says so.
-/

import Mathlib.Data.List.TakeWhile
import Datamime.Math.Text

namespace Datamime.Math

/-- The unread characters of a stream and its state. -/
structure InputStream where
  unread : List Char
  eof : Bool
  fail : Bool
  deriving DecidableEq

namespace InputStream

/-- A stream that has just been opened. -/
def ofText (text : List Char) : InputStream := ⟨text, false, false⟩

def good (stream : InputStream) : Bool := !stream.eof && !stream.fail

/-- `std::getline`: the target after it, and the stream. -/
def getline (stream : InputStream) (delim : Char) (target : List Char) :
    List Char × InputStream :=
  if stream.good then
    match stream.unread.dropWhile (· ≠ delim) with
    | [] => (stream.unread, ⟨[], true, stream.unread = []⟩)
    | _ :: rest => (stream.unread.takeWhile (· ≠ delim), ofText rest)
  else (target, { stream with fail := true })

variable {delim : Char} {field rest target : List Char}

/-- A field that a delimiter ends. -/
theorem getline_field (noDelim : delim ∉ field) (rest target : List Char) :
    (ofText (field ++ delim :: rest)).getline delim target = (field, ofText rest) := by
  have plain : ∀ c ∈ field, decide (c ≠ delim) = true := by
    intro c isMember
    simp only [decide_eq_true_eq]
    rintro rfl
    exact noDelim isMember
  have dropped : (field ++ delim :: rest).dropWhile (· ≠ delim) = delim :: rest := by
    rw [List.dropWhile_append_of_pos plain]
    simp
  have taken : (field ++ delim :: rest).takeWhile (· ≠ delim) = field := by
    rw [List.takeWhile_append_of_pos plain]
    simp
  simp only [getline, ofText, dropped, taken]
  rfl

/-- A field that the text ends. -/
theorem getline_last (noDelim : delim ∉ field) (target : List Char) :
    (ofText field).getline delim target = (field, ⟨[], true, field = []⟩) := by
  have dropped : field.dropWhile (· ≠ delim) = [] := by
    rw [List.dropWhile_eq_nil_iff]
    intro c isMember
    simp only [decide_eq_true_eq]
    rintro rfl
    exact noDelim isMember
  simp only [getline, ofText, dropped]
  rfl

/-- At the end of the text a read fails and empties its target. -/
theorem getline_nil (delim : Char) (target : List Char) :
    (ofText []).getline delim target = ([], ⟨[], true, true⟩) := by
  simpa using @getline_last delim [] (by simp) target

/-- A read from a stream that is not good leaves its target alone. -/
theorem getline_of_not_good {stream : InputStream} (notGood : stream.good = false)
    (target : List Char) :
    stream.getline delim target = (target, { stream with fail := true }) := by
  simp [getline, notGood]

/-! ## Fields and lines -/

/-- The fields that are read as long as the stream is good, for a number of rounds. -/
def fields (delim : Char) : InputStream → ℕ → List (List Char)
  | _, 0 => []
  | stream, rounds + 1 =>
      if stream.good then
        let (field, next) := stream.getline delim []
        field :: next.fields delim rounds
      else []

theorem fields_of_not_good {stream : InputStream} (notGood : stream.good = false) (rounds : ℕ) :
    stream.fields delim rounds = [] := by
  cases rounds with
  | zero => rfl
  | succ rounds => simp [fields, notGood]

/-- The loop reads the pieces between the delimiters. -/
theorem fields_ofText (delim : Char) {text : List Char} {rounds : ℕ}
    (enough : text.length < rounds) : (ofText text).fields delim rounds = text.splitOn delim := by
  induction rounds generalizing text with
  | zero => exact absurd enough (Nat.not_lt_zero _)
  | succ rounds ih =>
      have isGood : (ofText text).good = true := rfl
      by_cases isMember : delim ∈ text
      · rcases List.eq_append_cons_of_mem isMember with ⟨field, rest, rfl, noDelim⟩
        have shorter : rest.length < rounds := by
          simp only [List.length_append, List.length_cons] at enough
          omega
        rw [List.splitOn_append_cons_self_of_not_mem noDelim, ← ih shorter, fields, if_pos isGood,
          getline_field noDelim]
      · have notGood : (⟨[], true, text = []⟩ : InputStream).good = false := rfl
        rw [List.splitOn_eq_singleton isMember, fields, if_pos isGood, getline_last isMember]
        simp only [fields_of_not_good notGood]

/-- `std::getline` for a line, as a condition. -/
def nextLine? (stream : InputStream) : Option (List Char × InputStream) :=
  let (line, next) := stream.getline '\n' []
  if next.fail then none else some (line, next)

/-- The lines that are left. -/
def lines (stream : InputStream) : List (List Char) :=
  if stream.good then Text.lines stream.unread else []

@[simp]
theorem lines_ofText (text : List Char) : (ofText text).lines = Text.lines text := rfl

/-- A read takes the first line that is left, if there is one. -/
theorem lines_eq (stream : InputStream) :
    stream.lines = match stream.nextLine? with
      | none => []
      | some (line, next) => line :: next.lines := by
  by_cases isGood : stream.good = true
  · have isText : stream = ofText stream.unread := by
      rcases stream with ⟨unread, eof, fail⟩
      simp only [good, Bool.and_eq_true, Bool.not_eq_true'] at isGood
      rw [ofText, isGood.1, isGood.2]
    rw [isText]
    generalize stream.unread = text
    by_cases isMember : '\n' ∈ text
    · rcases List.eq_append_cons_of_mem isMember with ⟨line, rest, rfl, oneLine⟩
      rw [lines_ofText, Text.lines_append_newline oneLine, nextLine?, getline_field oneLine]
      rfl
    · rw [lines_ofText, Text.lines_of_not_mem isMember, nextLine?, getline_last isMember]
      by_cases isEmpty : text = []
      · simp [isEmpty]
      · simp [isEmpty, lines, good]
  · have notGood : stream.good = false := by simpa using isGood
    rw [lines, notGood, nextLine?, getline_of_not_good notGood]
    rfl

end InputStream

end Datamime.Math
