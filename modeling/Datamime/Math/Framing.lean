/-
# Streams of frames

A stream that is a concatenation of frames can be read frame by frame only as long
as the reader stops at the ends of frames. A reader that stops inside of a frame is
not at the end of any frame, whatever the frames contain, since no suffix of the
frames has the right length.
-/

import Mathlib.Data.List.Infix
import Mathlib.Tactic

namespace Datamime.Math

universe u

variable {α : Type u}

/-- What is left of the stream is the concatenation of the last frames. -/
def AtBoundary (frames : List (List α)) (rest : List α) : Prop :=
  ∃ left, left <:+ frames ∧ rest = left.flatten

theorem atBoundary_start (frames : List (List α)) : AtBoundary frames frames.flatten :=
  ⟨frames, List.suffix_refl _, rfl⟩

/-- Taking one whole frame leads from a boundary to the next one. -/
theorem atBoundary_next {frames left : List (List α)} {frame : List α}
    (isSuffix : frame :: left <:+ frames) : AtBoundary frames left.flatten :=
  ⟨left, (List.suffix_cons frame left).trans isSuffix, rfl⟩

/-- Frames that arrive at the end leave a reader at its boundary. -/
theorem AtBoundary.append {frames : List (List α)} {rest : List α}
    (atBoundary : AtBoundary frames rest) (more : List (List α)) :
    AtBoundary (frames ++ more) (rest ++ more.flatten) := by
  obtain ⟨left, ⟨early, rfl⟩, rfl⟩ := atBoundary
  exact ⟨left ++ more, ⟨early, (List.append_assoc early left more).symm⟩,
    List.flatten_append.symm⟩

theorem length_flatten_le_of_suffix {shorter longer : List (List α)}
    (isSuffix : shorter <:+ longer) : shorter.flatten.length ≤ longer.flatten.length := by
  obtain ⟨early, rfl⟩ := isSuffix
  rw [List.flatten_append, List.length_append]
  exact Nat.le_add_left _ _

/-- Taking a proper part of a frame leads to no boundary. -/
theorem not_atBoundary_of_part {frames left : List (List α)} {frame : List α}
    (isSuffix : frame :: left <:+ frames) {taken : ℕ} (positive : 0 < taken)
    (part : taken < frame.length) :
    ¬ AtBoundary frames ((frame ++ left.flatten).drop taken) := by
  rintro ⟨other, otherSuffix, equal⟩
  have lengths := congrArg List.length equal
  rw [List.length_drop, List.length_append] at lengths
  rcases List.suffix_or_suffix_of_suffix isSuffix otherSuffix with longer | shorter
  · have atLeast := length_flatten_le_of_suffix longer
    rw [List.flatten_cons, List.length_append] at atLeast
    omega
  · rcases List.suffix_cons_iff.mp shorter with rfl | strictly
    · rw [List.flatten_cons, List.length_append] at lengths
      omega
    · have atMost := length_flatten_le_of_suffix strictly
      omega

end Datamime.Math
