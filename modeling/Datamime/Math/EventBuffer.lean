/-
# Event buffers

The bytes that have arrived on a connection wait in a buffer until there are enough of them. A line
is taken once its end has arrived, and a part of known length once all of it has.
-/

import Mathlib.Data.List.TakeWhile
import Mathlib.Tactic

namespace Datamime.Math.EventBuffer

/-- A line without its carriage return. -/
def chomp (line : List Char) : List Char :=
  if line.getLast? = some '\r' then line.dropLast else line

/-- `evbuffer_readln` for lines that end with a line feed, with or without a carriage return before
it: the line and what is left. -/
def readln (input : List Char) : Option (List Char × List Char) :=
  match input.dropWhile (· ≠ '\n') with
  | [] => none
  | _ :: rest => some (chomp (input.takeWhile (· ≠ '\n')), rest)

/-- `evbuffer_drain`. A negative count is a large one. -/
def drain (count : ℤ) (input : List Char) : List Char :=
  if 0 ≤ count then input.drop count.toNat else []

/-- A line that has arrived. -/
theorem readln_append {line : List Char} (oneLine : '\n' ∉ line) (rest : List Char) :
    readln (line ++ '\n' :: rest) = some (chomp line, rest) := by
  have goesOn : ∀ c ∈ line, decide (c ≠ '\n') = true := by
    intro c isMember
    have different : c ≠ '\n' := fun same => oneLine (same ▸ isMember)
    simpa using different
  have dropped : (line ++ '\n' :: rest).dropWhile (· ≠ '\n') = '\n' :: rest := by
    rw [List.dropWhile_append_of_pos goesOn]
    simp
  have taken : (line ++ '\n' :: rest).takeWhile (· ≠ '\n') = line := by
    rw [List.takeWhile_append_of_pos goesOn]
    simp
  rw [readln, dropped, taken]

theorem chomp_append_cr (line : List Char) : chomp (line ++ ['\r']) = line := by
  simp [chomp]

/-- A line that a carriage return and a line feed end. -/
theorem readln_crlf {line : List Char} (oneLine : '\n' ∉ line) (rest : List Char) :
    readln (line ++ '\r' :: '\n' :: rest) = some (line, rest) := by
  have stillOne : '\n' ∉ line ++ ['\r'] := by simpa using oneLine
  have isRead := readln_append stillOne rest
  rw [chomp_append_cr, List.append_assoc] at isRead
  exact isRead

/-- A line whose end has not arrived. -/
theorem readln_eq_none {input : List Char} (noEnd : '\n' ∉ input) : readln input = none := by
  have nothing : input.dropWhile (· ≠ '\n') = [] := by
    rw [List.dropWhile_eq_nil_iff]
    intro c isChar
    have different : c ≠ '\n' := fun same => noEnd (same ▸ isChar)
    simpa using different
  rw [readln, nothing]

/-- A line that a carriage return and a line feed end has not arrived before both of them. -/
theorem readln_part {line part : List Char} (oneLine : '\n' ∉ line)
    (isPart : part <+: line ++ ['\r', '\n']) (notWhole : part ≠ line ++ ['\r', '\n']) :
    readln part = none := by
  have split : line ++ ['\r', '\n'] = (line ++ ['\r']) ++ ['\n'] := by
    rw [List.append_assoc]
    rfl
  rw [split] at isPart notWhole
  rcases List.prefix_concat_iff.mp isPart with isWhole | isShorter
  · exact absurd isWhole notWhole
  · have stillOne : '\n' ∉ line ++ ['\r'] := by simpa using oneLine
    exact readln_eq_none fun isMember => stillOne (isShorter.subset isMember)

/-- Draining what stands in front. -/
theorem drain_length (front rest : List Char) : drain front.length (front ++ rest) = rest := by
  rw [drain, if_pos (Int.natCast_nonneg _), Int.toNat_natCast, List.drop_left]

end Datamime.Math.EventBuffer
