/-
# Empirical distributions and their distance

A finite sample stands for the distribution that gives each of its entries the
same weight. Two samples, of any two sizes, stand for the same distribution when
their cumulative distribution functions agree everywhere.

The distance of two samples is the area between those two step functions. It is
computed by a sweep over the merged sorted entries, which is where the functions
change. The area vanishes precisely when the distributions are the same.
-/

import Mathlib.Data.List.Sort
import Mathlib.Algebra.Order.Field.Basic
import Mathlib.Tactic

namespace Datamime.Math.Empirical

variable {K : Type*} [Field K] [LinearOrder K] [IsStrictOrderedRing K]

/-- The fraction of the entries that are at most `x`. -/
def cdf (sample : List K) (x : K) : K := (sample.countP (· ≤ x) : K) / sample.length

/-- The two samples stand for one distribution. -/
def SameDistribution (first second : List K) : Prop := ∀ x, cdf first x = cdf second x

/-- The distance of the two distribution functions at one point. -/
def gap (first second : List K) (x : K) : K := |cdf first x - cdf second x|

/-- The area under a step function that takes its steps at the listed points:
between two neighbours it keeps the height of the left one. -/
def sweep (height : K → K) : List K → K
  | left :: right :: rest => (right - left) * height left + sweep height (right :: rest)
  | _ => 0

/-- The area between the distribution functions of two samples. -/
def distance (first second : List K) : K :=
  sweep (gap first second) ((first ++ second).insertionSort (· ≤ ·))

omit [IsStrictOrderedRing K] in
/-- Only the entries up to `x` matter, so a point that no entry separates from
`x` has the same value. -/
theorem cdf_congr {sample : List K} {x y : K} (same : ∀ entry ∈ sample, entry ≤ x ↔ entry ≤ y) :
    cdf sample x = cdf sample y := by
  have counted : sample.countP (· ≤ x) = sample.countP (· ≤ y) :=
    List.countP_congr fun entry isMember => by simpa using same entry isMember
  rw [cdf, cdf, counted]

/-- At and above its largest entry a nonempty sample is exhausted. -/
theorem cdf_eq_one {sample : List K} (nonempty : sample ≠ []) {x : K}
    (above : ∀ entry ∈ sample, entry ≤ x) : cdf sample x = 1 := by
  have counted : sample.countP (· ≤ x) = sample.length :=
    List.countP_eq_length.mpr fun entry isMember => by simpa using above entry isMember
  rw [cdf, counted, div_self]
  exact_mod_cast (List.length_pos_iff.mpr nonempty).ne'

omit [IsStrictOrderedRing K] in
theorem cdf_eq_zero {sample : List K} {x : K} (below : ∀ entry ∈ sample, x < entry) :
    cdf sample x = 0 := by
  have counted : sample.countP (· ≤ x) = 0 :=
    List.countP_eq_zero.mpr fun entry isMember => by simpa using below entry isMember
  rw [cdf, counted, Nat.cast_zero, zero_div]

omit [IsStrictOrderedRing K] in
/-- Distribution functions change at entries only: two samples that agree at
every entry agree everywhere. -/
theorem sameDistribution_of_agree {first second : List K}
    (agree : ∀ entry ∈ first ++ second, cdf first entry = cdf second entry) :
    SameDistribution first second := by
  intro x
  let below := (first ++ second).filter (· ≤ x)
  by_cases noneBelow : below = []
  · have above : ∀ entry ∈ first ++ second, x < entry := by
      intro entry isMember
      simpa using (List.filter_eq_nil_iff.mp noneBelow) entry isMember
    rw [cdf_eq_zero fun entry isMember => above entry (List.mem_append_left _ isMember),
      cdf_eq_zero fun entry isMember => above entry (List.mem_append_right _ isMember)]
  · -- The largest entry up to `x` separates the entries exactly as `x` does.
    let top := below.maximum_of_length_pos (List.length_pos_iff.mpr noneBelow)
    have top_mem : top ∈ below := List.maximum_of_length_pos_mem _
    have top_le : top ≤ x := by simpa using (List.mem_filter.mp top_mem).2
    have separates : ∀ entry ∈ first ++ second, entry ≤ x ↔ entry ≤ top := by
      intro entry isMember
      refine ⟨fun le_x => ?_, fun le_top => le_top.trans top_le⟩
      exact List.le_maximum_of_length_pos_of_mem
        (List.mem_filter.mpr ⟨isMember, by simpa using le_x⟩) _
    calc
      cdf first x = cdf first top :=
        cdf_congr fun entry isMember => separates entry (List.mem_append_left _ isMember)
      _ = cdf second top := agree top (List.mem_filter.mp top_mem).1
      _ = cdf second x :=
        (cdf_congr fun entry isMember => separates entry (List.mem_append_right _ isMember)).symm

/-! ## The area -/

theorem sweep_nonneg {height : K → K} (nonneg : ∀ x, 0 ≤ height x) :
    ∀ {points : List K}, points.Pairwise (· ≤ ·) → 0 ≤ sweep height points
  | [], _ => le_rfl
  | [_], _ => le_rfl
  | left :: right :: rest, sorted => by
      have step : left ≤ right := List.rel_of_pairwise_cons sorted (by simp)
      exact add_nonneg (mul_nonneg (sub_nonneg.mpr step) (nonneg left))
        (sweep_nonneg nonneg sorted.of_cons)

/-- If the area vanishes and the height vanishes at the last point, the height
vanishes at every point: a point either has no width to its right, and then the
height of its neighbour, or has height zero. -/
theorem height_eq_zero_of_sweep_eq_zero {height : K → K} (nonneg : ∀ x, 0 ≤ height x) :
    ∀ {points : List K}, points.Pairwise (· ≤ ·) →
      (∀ last ∈ points.getLast?, height last = 0) → sweep height points = 0 →
      ∀ point ∈ points, height point = 0
  | [], _, _, _ => by simp
  | [only], _, atLast, _ => by
      intro point isMember
      rw [List.mem_singleton.mp isMember]
      exact atLast only rfl
  | left :: right :: rest, sorted, atLast, vanishes => by
      have step : left ≤ right := List.rel_of_pairwise_cons sorted (by simp)
      have here : 0 ≤ (right - left) * height left :=
        mul_nonneg (sub_nonneg.mpr step) (nonneg left)
      have later : 0 ≤ sweep height (right :: rest) := sweep_nonneg nonneg sorted.of_cons
      have parts : (right - left) * height left = 0 ∧ sweep height (right :: rest) = 0 :=
        (add_eq_zero_iff_of_nonneg here later).mp vanishes
      have tail := height_eq_zero_of_sweep_eq_zero nonneg sorted.of_cons
        (by simpa using atLast) parts.2
      intro point isMember
      rcases List.mem_cons.mp isMember with rfl | isMember
      · rcases mul_eq_zero.mp parts.1 with noWidth | flat
        · rw [← sub_eq_zero.mp noWidth]
          exact tail right (by simp)
        · exact flat
      · exact tail point isMember

omit [LinearOrder K] [IsStrictOrderedRing K] in
theorem sweep_eq_zero_of_flat {height : K → K} (flat : ∀ x, height x = 0) :
    ∀ points : List K, sweep height points = 0
  | [] => rfl
  | [_] => rfl
  | left :: right :: rest => by
      rw [sweep, flat left, mul_zero, sweep_eq_zero_of_flat flat (right :: rest), add_zero]

theorem distance_nonneg (first second : List K) : 0 ≤ distance first second :=
  sweep_nonneg (fun _ => abs_nonneg _) (List.pairwise_insertionSort _ _)

/-- The distance separates distributions: it is zero precisely between samples
that stand for the same one. -/
theorem distance_eq_zero_iff {first second : List K} (first_nonempty : first ≠ [])
    (second_nonempty : second ≠ []) :
    distance first second = 0 ↔ SameDistribution first second := by
  constructor
  · intro vanishes
    let points := (first ++ second).insertionSort (· ≤ ·)
    have sorted : points.Pairwise (· ≤ ·) := List.pairwise_insertionSort _ _
    have listed : ∀ {entry}, entry ∈ points ↔ entry ∈ first ++ second :=
      (List.perm_insertionSort _ _).mem_iff
    have atLast : ∀ last ∈ points.getLast?, gap first second last = 0 := by
      intro last isLast
      have largest : ∀ entry ∈ first ++ second, entry ≤ last := by
        intro entry isMember
        obtain ⟨_, rfl⟩ := List.mem_getLast?_eq_getLast isLast
        exact sorted.rel_getLast (listed.mpr isMember)
      rw [gap, cdf_eq_one first_nonempty fun entry isMember =>
          largest entry (List.mem_append_left _ isMember),
        cdf_eq_one second_nonempty fun entry isMember =>
          largest entry (List.mem_append_right _ isMember), sub_self, abs_zero]
    apply sameDistribution_of_agree
    intro entry isMember
    have flat := height_eq_zero_of_sweep_eq_zero (fun _ => abs_nonneg _) sorted atLast vanishes
      entry (listed.mpr isMember)
    exact sub_eq_zero.mp (abs_eq_zero.mp flat)
  · intro same
    apply sweep_eq_zero_of_flat
    intro x
    rw [gap, same x, sub_self, abs_zero]

omit [IsStrictOrderedRing K] in
/-- The distance does not depend on the order of the two samples. -/
theorem distance_comm (first second : List K) : distance first second = distance second first := by
  have samePoints : (first ++ second).insertionSort (· ≤ ·) =
      (second ++ first).insertionSort (· ≤ ·) := by
    refine List.Perm.eq_of_pairwise' (List.pairwise_insertionSort _ _)
      (List.pairwise_insertionSort _ _) ?_
    exact (List.perm_insertionSort _ _).trans
      (List.perm_append_comm.trans (List.perm_insertionSort _ _).symm)
  have sameGap : gap first second = gap second first := by
    funext x
    rw [gap, gap, abs_sub_comm]
  rw [distance, distance, samePoints, sameGap]

theorem cdf_nonneg (sample : List K) (x : K) : 0 ≤ cdf sample x :=
  div_nonneg (Nat.cast_nonneg _) (Nat.cast_nonneg _)

theorem cdf_le_one (sample : List K) (x : K) : cdf sample x ≤ 1 := by
  refine div_le_one_of_le₀ ?_ (Nat.cast_nonneg _)
  exact_mod_cast List.countP_le_length

/-- Two distribution functions are nowhere further apart than one. -/
theorem gap_le_one (first second : List K) (x : K) : gap first second x ≤ 1 := by
  rw [gap, abs_sub_le_iff]
  constructor
  · linarith [cdf_le_one first x, cdf_nonneg second x]
  · linarith [cdf_le_one second x, cdf_nonneg first x]

/-- An area of height at most one is at most as large as it is wide. -/
theorem sweep_le_width {height : K → K} (bounded : ∀ x, height x ≤ 1) {top : K} :
    ∀ {left : K} {points : List K}, (left :: points).Pairwise (· ≤ ·) →
      (∀ point ∈ left :: points, point ≤ top) → sweep height (left :: points) ≤ top - left
  | left, [], _, below => sub_nonneg.mpr (below left List.mem_cons_self)
  | left, right :: rest, sorted, below => by
      have step : left ≤ right := List.rel_of_pairwise_cons sorted List.mem_cons_self
      have here : (right - left) * height left ≤ right - left :=
        mul_le_of_le_one_right (sub_nonneg.mpr step) (bounded left)
      have later : sweep height (right :: rest) ≤ top - right :=
        sweep_le_width bounded sorted.of_cons fun point isMember =>
          below point (List.mem_cons_of_mem _ isMember)
      calc
        sweep height (left :: right :: rest) =
            (right - left) * height left + sweep height (right :: rest) := rfl
        _ ≤ (right - left) + (top - right) := add_le_add here later
        _ = top - left := by ring

/-- Samples between zero and one are at most one apart. -/
theorem distance_le_one {first second : List K}
    (unit : ∀ entry ∈ first ++ second, 0 ≤ entry ∧ entry ≤ 1) : distance first second ≤ 1 := by
  have listed : ∀ {entry}, entry ∈ (first ++ second).insertionSort (· ≤ ·) →
      0 ≤ entry ∧ entry ≤ 1 := fun isMember =>
    unit _ ((List.perm_insertionSort _ _).mem_iff.mp isMember)
  have sorted : ((first ++ second).insertionSort (· ≤ ·)).Pairwise (· ≤ ·) :=
    List.pairwise_insertionSort _ _
  rw [distance]
  generalize (first ++ second).insertionSort (· ≤ ·) = points at listed sorted
  cases points with
  | nil => exact zero_le_one
  | cons left points =>
      have width := sweep_le_width (gap_le_one first second) sorted fun point isMember =>
        (listed isMember).2
      exact width.trans (by linarith [(listed List.mem_cons_self).1])

/-! ## Scaling -/

theorem cdf_map_div (sample : List K) {scale : K} (positive : 0 < scale) (x : K) :
    cdf (sample.map (· / scale)) x = cdf sample (x * scale) := by
  have counted : (sample.map (· / scale)).countP (· ≤ x) = sample.countP (· ≤ x * scale) := by
    rw [List.countP_map]
    apply List.countP_congr
    intro entry _
    simp [div_le_iff₀ positive]
  rw [cdf, cdf, counted, List.length_map]

/-- Dividing both samples by one positive number does not change whether they
stand for the same distribution. -/
theorem sameDistribution_map_div_iff {first second : List K} {scale : K} (positive : 0 < scale) :
    SameDistribution (first.map (· / scale)) (second.map (· / scale)) ↔
      SameDistribution first second := by
  constructor
  · intro same x
    have atScaled := same (x / scale)
    rwa [cdf_map_div first positive, cdf_map_div second positive,
      div_mul_cancel₀ x positive.ne'] at atScaled
  · intro same x
    rw [cdf_map_div first positive, cdf_map_div second positive, same]

end Datamime.Math.Empirical
