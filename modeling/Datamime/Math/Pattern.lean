/-
# Names with markers in them

Programs tell files apart by the names that other programs gave them. A pattern looks for a marker
anywhere in the name, a number is cut out behind the last marker, and lists of names are sorted
before they are paired. All of this depends on more than the part of the name that it is about. A
marker may arise where two parts of a name are joined, a wildcard does not skip a line break, and
a suffix may change the order of two names.

This module has these operations on lists of characters with the facts that make them safe to use.
-/

import Mathlib.Data.List.Lex
import Mathlib.Data.List.Sort
import Mathlib.Data.Char
import Mathlib.Tactic

namespace Datamime.Math.Pattern

universe u

/-! ## Markers in joined texts -/

section Markers

variable {α : Type u}

/-- A marker occurs in a joined text within one of its parts or across the joint. -/
theorem infix_append_iff {marker first second : List α} :
    marker <:+: first ++ second ↔ marker <:+: first ∨ marker <:+: second ∨
      ∃ before after, before ≠ [] ∧ after ≠ [] ∧ marker = before ++ after ∧
        before <:+ first ∧ after <+: second := by
  constructor
  · rintro ⟨left, right, isWhole⟩
    rw [List.append_assoc] at isWhole
    rcases List.append_eq_append_iff.mp isWhole with ⟨gap, rfl, isRest⟩ | ⟨gap, rfl, rfl⟩
    · rcases List.append_eq_append_iff.mp isRest with ⟨rest, rfl, -⟩ | ⟨after, rfl, rfl⟩
      · exact .inl ⟨left, rest, by rw [List.append_assoc]⟩
      · by_cases noneBefore : gap = []
        · subst noneBefore
          exact .inr (.inl ⟨[], right, rfl⟩)
        · by_cases noneAfter : after = []
          · subst noneAfter
            exact .inl ⟨left, [], by rw [List.append_nil, List.append_nil]⟩
          · exact .inr (.inr ⟨gap, after, noneBefore, noneAfter, rfl, ⟨left, rfl⟩, ⟨right, rfl⟩⟩)
    · exact .inr (.inl ⟨gap, right, by rw [List.append_assoc]⟩)
  · rintro (inFirst | inSecond | ⟨before, after, -, -, rfl, ⟨left, rfl⟩, ⟨right, rfl⟩⟩)
    · exact List.infix_append_of_infix_left inFirst
    · exact List.infix_append_of_infix_right inSecond
    · exact ⟨left, right, by simp only [List.append_assoc]⟩

theorem not_infix_of_not_mem {marker text : List α} {c : α} (isMember : c ∈ marker)
    (missing : c ∉ text) : ¬ marker <:+: text :=
  fun occurs => missing (occurs.subset isMember)

/-- A marker between two separators arises at a joint only if all of it but the last separator
stands before the joint. -/
theorem separated_infix_append_iff {sep : α} {word first second : List α} (noSep : sep ∉ word) :
    sep :: word ++ [sep] <:+: first ++ sep :: second ↔
      sep :: word ++ [sep] <:+: first ∨ sep :: word ++ [sep] <:+: sep :: second ∨
        sep :: word <:+ first := by
  rw [infix_append_iff]
  refine or_congr_right (or_congr_right ⟨?_, fun ends => ?_⟩)
  · rintro ⟨before, after, some_before, some_after, joined, ends, tail, starts⟩
    obtain ⟨b, before, rfl⟩ := List.exists_cons_of_ne_nil some_before
    obtain ⟨a, after, rfl⟩ := List.exists_cons_of_ne_nil some_after
    obtain ⟨rfl, -⟩ := List.cons.inj starts
    obtain rfl := (List.cons.inj joined).1
    have inner : word ++ [a] = before ++ a :: after := (List.cons.inj joined).2
    rcases List.eq_nil_or_concat' after with rfl | ⟨after, last, rfl⟩
    · obtain ⟨rfl, -⟩ := List.append_inj' inner rfl
      exact ends
    · rw [← List.cons_append, ← List.append_assoc] at inner
      obtain ⟨rfl, -⟩ := List.append_inj' inner rfl
      exact absurd (List.mem_append_right before List.mem_cons_self) noSep
  · exact ⟨sep :: word, [sep], List.cons_ne_nil _ _, List.cons_ne_nil _ _, rfl, ends,
      ⟨second, rfl⟩⟩

/-- Behind a marker that the first part does not have, there is only text of the second part. -/
theorem suffix_of_not_infix {marker first second skipped rest : List α}
    (missing : ¬ marker <:+: first) (isWhole : first ++ second = skipped ++ (marker ++ rest)) :
    rest <:+ second := by
  rw [← List.append_assoc] at isWhole
  rcases List.append_eq_append_iff.mp isWhole with ⟨gap, -, rfl⟩ | ⟨gap, rfl, -⟩
  · exact ⟨gap, rfl⟩
  · exact absurd ⟨skipped, gap, rfl⟩ missing

/-- A marker that begins in the first line is in the part in which this line ends. -/
theorem infix_of_begins_before {marker first second skipped rest : List α} {stop : α}
    (stops : stop ∈ first) (notSkipped : stop ∉ skipped) (notMarked : stop ∉ marker)
    (isWhole : first ++ second = skipped ++ (marker ++ rest)) : marker <:+: first := by
  rw [← List.append_assoc] at isWhole
  rcases List.append_eq_append_iff.mp isWhole with ⟨gap, isStart, -⟩ | ⟨gap, rfl, -⟩
  · have inStart : stop ∈ skipped ++ marker := by
      rw [isStart]
      exact List.mem_append_left _ stops
    exact absurd inStart fun isMember =>
      (List.mem_append.mp isMember).elim notSkipped notMarked
  · exact ⟨skipped, gap, rfl⟩

end Markers

section Occurrences

variable {α : Type u} [DecidableEq α]

/-- What follows the last occurrence of a marker. -/
def afterLast (marker : List α) : List α → Option (List α)
  | [] => if marker = [] then some [] else none
  | c :: rest =>
      match afterLast marker rest with
      | some found => some found
      | none => if marker <+: c :: rest then some ((c :: rest).drop marker.length) else none

/-- What precedes the first occurrence of a marker. -/
def beforeFirst (marker : List α) : List α → Option (List α)
  | [] => if marker = [] then some [] else none
  | c :: rest =>
      if marker <+: c :: rest then some []
      else (beforeFirst marker rest).map (c :: ·)

theorem afterLast_eq_none_iff {marker text : List α} :
    afterLast marker text = none ↔ ¬ marker <:+: text := by
  induction text with
  | nil => rw [afterLast, List.infix_nil]; split <;> simp [*]
  | cons c rest ih =>
      rw [afterLast, List.infix_cons_iff, not_or]
      cases found : afterLast marker rest with
      | some after =>
          rw [found] at ih
          refine iff_of_false (fun isNone => by cases isNone) fun ⟨_, missing⟩ => ?_
          cases ih.mpr missing
      | none =>
          have missing := ih.mp found
          by_cases starts : marker <+: c :: rest
          · simp [starts]
          · simp [starts, missing]

/-- A marker whose last character does not occur behind it is the last one. -/
theorem afterLast_append {marker rest : List α} {last : α} (before : List α)
    (ends : marker.getLast? = some last) (missing : last ∉ rest) :
    afterLast marker (before ++ (marker ++ rest)) = some rest := by
  have notLater : ∀ tail : List α, tail.length < marker.length → ¬ marker <:+: tail ++ rest := by
    intro tail isShort occurs
    rcases infix_append_iff.mp occurs with
      inTail | inRest | ⟨start, stop, -, some_stop, rfl, -, atRest⟩
    · exact absurd inTail.length_le isShort.not_ge
    · exact missing (inRest.subset (List.mem_of_getLast? ends))
    · rw [List.getLast?_append_of_ne_nil start some_stop] at ends
      exact missing (atRest.subset (List.mem_of_getLast? ends))
  induction before with
  | nil =>
      cases marker with
      | nil => cases ends
      | cons c tail =>
          have isLast := afterLast_eq_none_iff.mpr (notLater tail (Nat.lt_succ_self _))
          have starts : c :: tail <+: c :: (tail ++ rest) := ⟨rest, rfl⟩
          rw [List.nil_append, List.cons_append, afterLast, isLast]
          simp [starts]
  | cons c before ih => rw [List.cons_append, afterLast, ih]

/-- A marker whose first character does not occur before it is the first one. -/
theorem beforeFirst_append {text rest : List α} {first : α} (marker : List α)
    (missing : first ∉ text) : beforeFirst (first :: marker) (text ++ (first :: marker ++ rest)) =
      some text := by
  induction text with
  | nil =>
      have starts : first :: marker <+: first :: (marker ++ rest) := ⟨rest, rfl⟩
      rw [List.nil_append, List.cons_append, beforeFirst, if_pos starts]
  | cons c text ih =>
      have notStarts : ¬ first :: marker <+: c :: (text ++ (first :: marker ++ rest)) := by
        rintro ⟨tail, isWhole⟩
        exact missing (by rw [(List.cons.inj isWhole).1]; exact List.mem_cons_self)
      rw [List.cons_append, beforeFirst, if_neg notStarts,
        ih fun isMember => missing (List.mem_cons_of_mem c isMember), Option.map_some]

end Occurrences

/-! ## Patterns -/

/-- A part of a pattern: a text, or any characters of one line. -/
inductive Piece
  | literal (text : List Char)
  | anyOfLine
  deriving DecidableEq

/-- Whether a text starts with something that the pattern describes. -/
def matchesStart : List Piece → List Char → Bool
  | [], _ => true
  | .literal marker :: pattern, text =>
      marker.isPrefixOf text && matchesStart pattern (text.drop marker.length)
  | .anyOfLine :: pattern, text =>
      (List.range ((text.takeWhile (· ≠ '\n')).length + 1)).any fun skipped =>
        matchesStart pattern (text.drop skipped)

theorem matchesStart_literal_iff {marker text : List Char} {pattern : List Piece} :
    matchesStart (.literal marker :: pattern) text = true ↔
      ∃ rest, text = marker ++ rest ∧ matchesStart pattern rest = true := by
  rw [matchesStart, Bool.and_eq_true, List.isPrefixOf_iff_prefix]
  constructor
  · rintro ⟨⟨rest, rfl⟩, matched⟩
    rw [List.drop_left] at matched
    exact ⟨rest, rfl, matched⟩
  · rintro ⟨rest, rfl, matched⟩
    rw [List.drop_left]
    exact ⟨⟨rest, rfl⟩, matched⟩

theorem matchesStart_anyOfLine_iff {text : List Char} {pattern : List Piece} :
    matchesStart (.anyOfLine :: pattern) text = true ↔
      ∃ skipped rest, text = skipped ++ rest ∧ '\n' ∉ skipped ∧
        matchesStart pattern rest = true := by
  rw [matchesStart, List.any_eq_true]
  constructor
  · rintro ⟨count, inLine, matched⟩
    refine ⟨text.take count, text.drop count, (List.take_append_drop count text).symm, ?_, matched⟩
    have isStart : text.take count <+: text.takeWhile (· ≠ '\n') :=
      List.prefix_of_prefix_length_le (List.take_prefix count text) (List.takeWhile_prefix _)
        ((List.length_take_le count text).trans (Nat.lt_succ_iff.mp (List.mem_range.mp inLine)))
    intro isMember
    have kept := List.all_eq_true.mp List.all_takeWhile '\n' (isStart.subset isMember)
    simp at kept
  · rintro ⟨skipped, rest, rfl, oneLine, matched⟩
    refine ⟨skipped.length, List.mem_range.mpr (Nat.lt_succ_iff.mpr ?_), ?_⟩
    · have kept : ∀ c ∈ skipped, decide (c ≠ '\n') = true := fun c isMember =>
        decide_eq_true fun isBreak => oneLine (isBreak ▸ isMember)
      rw [List.takeWhile_append_of_pos kept, List.length_append]
      exact Nat.le_add_right _ _
    · rwa [List.drop_left]

/-- A marker anywhere in the first line. -/
theorem matchesStart_marker_iff {marker text : List Char} :
    matchesStart [.anyOfLine, .literal marker, .anyOfLine] text = true ↔
      ∃ skipped rest, text = skipped ++ (marker ++ rest) ∧ '\n' ∉ skipped := by
  rw [matchesStart_anyOfLine_iff]
  constructor
  · rintro ⟨skipped, rest, rfl, oneLine, matched⟩
    obtain ⟨rest, rfl, -⟩ := matchesStart_literal_iff.mp matched
    exact ⟨skipped, rest, rfl, oneLine⟩
  · rintro ⟨skipped, rest, rfl, oneLine⟩
    refine ⟨skipped, marker ++ rest, rfl, oneLine, matchesStart_literal_iff.mpr ⟨rest, rfl, ?_⟩⟩
    exact matchesStart_anyOfLine_iff.mpr ⟨[], rest, rfl, List.not_mem_nil, rfl⟩

/-- In a text of one line the marker may be anywhere. -/
theorem matchesStart_marker_iff_infix {marker text : List Char} (oneLine : '\n' ∉ text) :
    matchesStart [.anyOfLine, .literal marker, .anyOfLine] text = true ↔ marker <:+: text := by
  rw [matchesStart_marker_iff]
  constructor
  · rintro ⟨skipped, rest, rfl, -⟩
    exact List.infix_append' skipped marker rest
  · rintro ⟨skipped, rest, rfl⟩
    refine ⟨skipped, rest, List.append_assoc _ _ _, fun isMember => oneLine ?_⟩
    exact List.mem_append_left _ (List.mem_append_left _ isMember)

/-- A marker and later an ending. -/
theorem matchesStart_ending_iff_infix {marker ending text : List Char} (oneLine : '\n' ∉ text) :
    matchesStart [.anyOfLine, .literal marker, .anyOfLine, .literal ending] text = true ↔
      ∃ skipped rest, text = skipped ++ (marker ++ rest) ∧ ending <:+: rest := by
  rw [matchesStart_anyOfLine_iff]
  constructor
  · rintro ⟨skipped, tail, rfl, -, matched⟩
    obtain ⟨rest, rfl, ended⟩ := matchesStart_literal_iff.mp matched
    obtain ⟨between, tail, rfl, -, isEnding⟩ := matchesStart_anyOfLine_iff.mp ended
    obtain ⟨tail, rfl, -⟩ := matchesStart_literal_iff.mp isEnding
    exact ⟨skipped, _, rfl, List.infix_append' between ending tail⟩
  · rintro ⟨skipped, rest, rfl, between, tail, rfl⟩
    have inLine : ∀ c ∈ skipped ++ between, c ≠ '\n' := by
      rintro c isMember rfl
      exact oneLine (by simp only [List.mem_append] at isMember ⊢; tauto)
    refine ⟨skipped, _, rfl, fun isMember => inLine _ (List.mem_append_left _ isMember) rfl,
      matchesStart_literal_iff.mpr ⟨_, rfl, matchesStart_anyOfLine_iff.mpr
        ⟨between, ending ++ tail, List.append_assoc _ _ _,
          fun isMember => inLine _ (List.mem_append_right _ isMember) rfl,
          matchesStart_literal_iff.mpr ⟨tail, rfl, rfl⟩⟩⟩⟩

/-! ## Sorted names -/

/-- Names in the order of their characters. -/
def sorted (names : List (List Char)) : List (List Char) :=
  names.mergeSort fun first second => decide (first ≤ second)

/-- Sorting forgets the order in which the names came. -/
theorem sorted_eq_of_perm {names others : List (List Char)} (isPerm : names.Perm others) :
    sorted names = sorted others :=
  List.Perm.eq_of_sortedLE List.sortedLE_mergeSort List.sortedLE_mergeSort
    ((List.mergeSort_perm _ _).trans (isPerm.trans (List.mergeSort_perm _ _).symm))

/-- Sorting names that are made from keys sorts the keys. -/
theorem sorted_map {key : Type u} (text name : key → List Char) {keys : List key}
    (sameOrder : ∀ first ∈ keys, ∀ second ∈ keys,
      (text first ≤ text second ↔ name first ≤ name second)) :
    sorted (keys.map name) =
      (keys.mergeSort fun first second => decide (text first ≤ text second)).map name :=
  (List.map_mergeSort fun first isFirst second isSecond =>
    decide_eq_decide.mpr (sameOrder first isFirst second isSecond)).symm

/-- A common start does not change the order. -/
theorem append_le_append_left_iff (start : List Char) {first second : List Char} :
    start ++ first ≤ start ++ second ↔ first ≤ second := by
  constructor
  · intro le
    by_contra isBelow
    exact absurd le (List.append_left_lt (not_le.mp isBelow)).not_ge
  · intro le
    rcases le.lt_or_eq with lt | rfl
    · exact (List.append_left_lt lt).le
    · exact le_rfl

/-- A suffix that begins below all characters of the names keeps their order. -/
theorem append_lt_append_right {ending first second : List Char} {c : Char}
    (above : ∀ d ∈ second, c < d) (lt : first < second) :
    first ++ c :: ending < second ++ c :: ending := by
  induction first generalizing second with
  | nil =>
      cases second with
      | nil => exact absurd lt (lt_irrefl _)
      | cons d rest => exact List.cons_lt_cons_iff.mpr (.inl (above d List.mem_cons_self))
  | cons a first ih =>
      cases second with
      | nil => exact absurd lt (List.not_lt_nil _)
      | cons b second =>
          rcases List.cons_lt_cons_iff.mp lt with below | ⟨rfl, ltRest⟩
          · exact List.cons_lt_cons_iff.mpr (.inl below)
          · exact List.cons_lt_cons_iff.mpr (.inr ⟨rfl,
              ih (fun d isMember => above d (List.mem_cons_of_mem a isMember)) ltRest⟩)

theorem append_le_append_right_iff {ending first second : List Char} {c : Char}
    (aboveFirst : ∀ d ∈ first, c < d) (aboveSecond : ∀ d ∈ second, c < d) :
    first ++ c :: ending ≤ second ++ c :: ending ↔ first ≤ second := by
  constructor
  · intro le
    by_contra isBelow
    exact absurd le (append_lt_append_right aboveFirst (not_le.mp isBelow)).not_ge
  · intro le
    rcases le.lt_or_eq with lt | rfl
    · exact (append_lt_append_right aboveSecond lt).le
    · exact le_rfl

end Datamime.Math.Pattern
