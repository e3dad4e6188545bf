/-
# Curves through samples

A function that is known at some points only is read between them from the line through the two
nearest points, and outside of their range not at all. What is read lies between two of the
sampled values. A curve that is known to fall, or to rise, is then made to do so by a running
pick: each value is replaced by the pick between itself and the one before it.
-/

import Mathlib.Analysis.Convex.Segment
import Mathlib.Data.List.MinMax

namespace Datamime.Math

universe u

/-! ## Linear interpolation -/

section

variable {K : Type u}

/-- Points with one abscissa are equal. -/
def IsGraph (points : List (K × K)) : Prop :=
  ∀ p ∈ points, ∀ q ∈ points, p.1 = q.1 → p.2 = q.2

theorem isGraph_of_nodup {points : List (K × K)} (distinct : (points.map Prod.fst).Nodup) :
    IsGraph points := by
  intro p isPoint q isOther same
  rw [List.inj_on_of_nodup_map distinct isPoint isOther same]

/-- A point that comes twice does no harm. -/
theorem IsGraph.cons_self {points : List (K × K)} (graph : IsGraph points) {p : K × K}
    (listed : p ∈ points) : IsGraph (p :: points) := by
  have same : ∀ q ∈ p :: points, q ∈ points :=
    List.forall_mem_cons.mpr ⟨listed, fun _ isPoint => isPoint⟩
  exact fun q isPoint r isOther => graph q (same q isPoint) r (same r isOther)

variable [LinearOrder K]

/-- The nearest point on the left, which may lie at the abscissa itself. -/
def pointBelow (points : List (K × K)) (x : K) : Option (K × K) :=
  (points.filter fun p => p.1 ≤ x).argmax Prod.fst

/-- The nearest point on the right. -/
def pointAbove (points : List (K × K)) (x : K) : Option (K × K) :=
  (points.filter fun p => x ≤ p.1).argmin Prod.fst

/-- The value lies between two of the sampled ones. -/
def Bounded (samples : List K) (y : K) : Prop :=
  (∃ low ∈ samples, low ≤ y) ∧ ∃ high ∈ samples, y ≤ high

variable {points : List (K × K)} {x : K}

theorem pointBelow_cases {left : K × K} (isLeft : pointBelow points x = some left) :
    left ∈ points ∧ left.1 ≤ x := by
  have listed := List.argmax_mem (Option.mem_def.mpr isLeft)
  rw [List.mem_filter, decide_eq_true_eq] at listed
  exact listed

theorem pointAbove_cases {right : K × K} (isRight : pointAbove points x = some right) :
    right ∈ points ∧ x ≤ right.1 := by
  have listed := List.argmin_mem (Option.mem_def.mpr isRight)
  rw [List.mem_filter, decide_eq_true_eq] at listed
  exact listed

theorem exists_pointBelow {p : K × K} (listed : p ∈ points) (below : p.1 ≤ x) :
    ∃ left, pointBelow points x = some left := by
  rw [← Option.ne_none_iff_exists', pointBelow, Ne, List.argmax_eq_none]
  exact List.ne_nil_of_mem (List.mem_filter.mpr ⟨listed, decide_eq_true below⟩)

theorem exists_pointAbove {p : K × K} (listed : p ∈ points) (above : x ≤ p.1) :
    ∃ right, pointAbove points x = some right := by
  rw [← Option.ne_none_iff_exists', pointAbove, Ne, List.argmin_eq_none]
  exact List.ne_nil_of_mem (List.mem_filter.mpr ⟨listed, decide_eq_true above⟩)

variable [Field K]

/-- The line through two points. -/
def lineThrough (left right : K × K) (x : K) : K :=
  left.2 + (x - left.1) / (right.1 - left.1) * (right.2 - left.2)

/-- The piecewise linear function through some points. -/
def piecewiseLinear (points : List (K × K)) (x : K) : Option K :=
  match pointBelow points x, pointAbove points x with
  | some left, some right => some (lineThrough left right x)
  | _, _ => none

variable [IsStrictOrderedRing K]

/-- Between two points the line through them stays between their values. -/
theorem bounded_lineThrough {left right : K × K} (below : left.1 ≤ x) (above : x ≤ right.1) :
    Bounded [left.2, right.2] (lineThrough left right x) := by
  have fraction : 0 ≤ (x - left.1) / (right.1 - left.1) :=
    div_nonneg (sub_nonneg.mpr below) (sub_nonneg.mpr (below.trans above))
  have atMostOne : (x - left.1) / (right.1 - left.1) ≤ 1 :=
    div_le_one_of_le₀ (sub_le_sub_right above _) (sub_nonneg.mpr (below.trans above))
  have combination : lineThrough left right x =
      (1 - (x - left.1) / (right.1 - left.1)) • left.2 +
        ((x - left.1) / (right.1 - left.1)) • right.2 := by
    rw [lineThrough, smul_eq_mul, smul_eq_mul]
    ring
  have atLeast := Convex.min_le_combo left.2 right.2 (sub_nonneg.mpr atMostOne) fraction
    (sub_add_cancel 1 _)
  have atMost := Convex.combo_le_max left.2 right.2 (sub_nonneg.mpr atMostOne) fraction
    (sub_add_cancel 1 _)
  rw [← combination] at atLeast atMost
  refine ⟨⟨min left.2 right.2, ?_, atLeast⟩, max left.2 right.2, ?_, atMost⟩
  · rcases min_choice left.2 right.2 with isMin | isMin <;> simp [isMin]
  · rcases max_choice left.2 right.2 with isMax | isMax <;> simp [isMax]

/-- Within the range of the points there is a value, and it is bounded by theirs. -/
theorem exists_piecewiseLinear {p q : K × K} (first : p ∈ points) (below : p.1 ≤ x)
    (second : q ∈ points) (above : x ≤ q.1) :
    ∃ y, piecewiseLinear points x = some y ∧ Bounded (points.map Prod.snd) y := by
  obtain ⟨left, isLeft⟩ := exists_pointBelow first below
  obtain ⟨right, isRight⟩ := exists_pointAbove second above
  obtain ⟨leftListed, leftBelow⟩ := pointBelow_cases isLeft
  obtain ⟨rightListed, rightAbove⟩ := pointAbove_cases isRight
  refine ⟨lineThrough left right x, by rw [piecewiseLinear, isLeft, isRight], ?_⟩
  have listed : [left.2, right.2] ⊆ points.map Prod.snd :=
    List.cons_subset.mpr ⟨List.mem_map_of_mem leftListed,
      List.cons_subset.mpr ⟨List.mem_map_of_mem rightListed, List.nil_subset _⟩⟩
  obtain ⟨⟨low, isLow, atLeast⟩, high, isHigh, atMost⟩ := bounded_lineThrough leftBelow rightAbove
  exact ⟨⟨low, listed isLow, atLeast⟩, high, listed isHigh, atMost⟩

end

/-! ## Running picks -/

section

variable {α : Type u} {pick : α → α → α}

/-- A running pick that never goes back is ordered. -/
theorem pairwise_scanl {order : α → α → Prop} [IsTrans α order]
    (moves : ∀ a b, order a (pick a b)) (first : α) (values : List α) :
    (values.scanl pick first).Pairwise order := by
  rw [← List.isChain_iff_pairwise]
  induction values generalizing first with
  | nil => exact List.isChain_singleton _
  | cons value values ih =>
      rw [List.scanl_cons]
      have later := ih (pick first value)
      cases values with
      | nil => exact List.isChain_pair.mpr (moves first value)
      | cons second values =>
          rw [List.scanl_cons] at later ⊢
          exact List.isChain_cons_cons.mpr ⟨moves first value, later⟩

/-- What all values share, and a pick of two keeps, the picked values share. -/
theorem forall_mem_scanl {good : α → Prop} (picks : ∀ a b, good a → good b → good (pick a b))
    {first : α} {values : List α} (start_good : good first) (all : ∀ value ∈ values, good value) :
    ∀ value ∈ values.scanl pick first, good value := by
  induction values generalizing first with
  | nil => exact List.forall_mem_singleton.mpr start_good
  | cons value values ih =>
      obtain ⟨isGood, rest⟩ := List.forall_mem_cons.mp all
      rw [List.scanl_cons]
      exact List.forall_mem_cons.mpr ⟨start_good, ih (picks _ _ start_good isGood) rest⟩

/-- Where the same value comes twice in the end, so does the picked one. -/
theorem scanl_append_pair (settles : ∀ a b, pick (pick a b) b = pick a b) (first : α)
    (values : List α) (last : α) :
    (values ++ [last, last]).scanl pick first = values.scanl pick first ++
      [pick (values.foldl pick first) last, pick (values.foldl pick first) last] := by
  rw [List.scanl_append, List.scanl_cons, List.scanl_cons, List.scanl_nil, settles, List.tail_cons]

end

end Datamime.Math
