/-
# Zipf-distributed samples

`ZipfSampler` draws an integer with a chance proportional to a negative power of it. It proposes a
real number from a bounding density, by the inverse of its distribution function, rounds it up to an
integer, and accepts the integer with a chance that makes up for the bound. Over exact real numbers
the bounding density is constant on the first cell and the power itself behind it, and the product
of density and acceptance is the same power of the integer on its whole cell.
-/

import Mathlib.Analysis.SpecialFunctions.Integrals.Basic
import Mathlib.MeasureTheory.Function.Floor
import Mathlib.Tactic
import Datamime.Math.RejectionSampling

namespace Datamime.Xapian

open Set MeasureTheory

noncomputable section

/-! ## The sampler -/

/-- `ZipfSampler`. -/
structure ZipfSampler where
  N : ℕ
  skew : ℝ
  t : ℝ

namespace ZipfSampler

/-- The constructor and `setParams`. -/
def ofParams (N : ℕ) (skew : ℝ) : ZipfSampler :=
  ⟨N, skew, ((N : ℝ) ^ (1 - skew) - skew) / (1 - skew)⟩

/-- The constructor without arguments. -/
instance : Inhabited ZipfSampler := ⟨ofParams 100 2⟩

/-- `_bInvCdf`. -/
def bInvCdf (zs : ZipfSampler) (p : ℝ) : ℝ :=
  if p * zs.t ≤ 1 then p * zs.t
  else ((p * zs.t) * (1 - zs.skew) + zs.skew) ^ (1 / (1 - zs.skew))

/-- The integer of a proposal. -/
def sampleX (invB : ℝ) : ℕ := ⌊invB + 1⌋₊

/-- The chance to accept a proposal. -/
def ratio (zs : ZipfSampler) (invB : ℝ) : ℝ :=
  let ratioTop := (sampleX invB : ℝ) ^ (-zs.skew)
  let ratioBottom := if sampleX invB ≤ 1 then 1 / zs.t else invB ^ (-zs.skew) / zs.t
  ratioTop / (ratioBottom * zs.t)

/-- One round of `getSample`, for the two random numbers that it draws. -/
def round (zs : ZipfSampler) (draw : ℝ × ℝ) : Option ℕ :=
  -- the assertion that `invB` is positive is `bInvCdf_mem`, for numbers between zero and one
  let invB := zs.bInvCdf draw.1
  if draw.2 < zs.ratio invB then some (sampleX invB) else none

/-- `getSample`, for at most the given number of rounds. -/
def getSample (zs : ZipfSampler) (fuel : ℕ) (draws : ℕ → ℝ × ℝ) : Option ℕ :=
  Rejection.firstAccepted zs.round fuel draws

/-- The bounding density. -/
def density (zs : ZipfSampler) (x : ℝ) : ℝ :=
  if x ≤ 1 then 1 / zs.t else x ^ (-zs.skew) / zs.t

/-- The distribution function of the bounding density. -/
def cdf (zs : ZipfSampler) (x : ℝ) : ℝ := ∫ u in (0 : ℝ)..x, zs.density u

end ZipfSampler

/-! ## The area under the bound -/

section

variable {s x y u : ℝ}

/-- The area up to a point under the function that is one up to one, and the power behind it. -/
def area (s x : ℝ) : ℝ := if x ≤ 1 then x else (x ^ (1 - s) - s) / (1 - s)

/-- The point up to which there is a given area. -/
def areaInv (s u : ℝ) : ℝ := if u ≤ 1 then u else (u * (1 - s) + s) ^ (1 / (1 - s))

theorem area_of_one_le (notOne : s ≠ 1) (beyond : 1 ≤ x) :
    area s x = (x ^ (1 - s) - s) / (1 - s) := by
  rcases beyond.eq_or_lt with rfl | isLater
  · have someLeft : 1 - s ≠ 0 := sub_ne_zero.mpr notOne.symm
    simp [area, someLeft]
  · rw [area, if_neg (not_le.mpr isLater)]

/-- Behind one the area grows, for exponents on both sides of one. -/
theorem area_lt_area_of_one_le (notOne : s ≠ 1) (beyond : 1 ≤ x) (isLater : x < y) :
    area s x < area s y := by
  have pos : 0 < x := zero_lt_one.trans_le beyond
  rw [area_of_one_le notOne beyond, area_of_one_le notOne (beyond.trans isLater.le)]
  rcases notOne.lt_or_gt with isLess | isGreater
  · have grows : x ^ (1 - s) < y ^ (1 - s) :=
      Real.rpow_lt_rpow pos.le isLater (sub_pos.mpr isLess)
    exact div_lt_div_of_pos_right (sub_lt_sub_right grows s) (sub_pos.mpr isLess)
  · have shrinks : y ^ (1 - s) < x ^ (1 - s) :=
      Real.rpow_lt_rpow_of_neg pos isLater (sub_neg.mpr isGreater)
    exact div_lt_div_of_neg_of_lt (sub_neg.mpr isGreater) (sub_lt_sub_right shrinks s)

theorem area_of_le_one (before : x ≤ 1) : area s x = x := if_pos before

theorem one_le_area (notOne : s ≠ 1) (beyond : 1 ≤ x) : 1 ≤ area s x := by
  rcases beyond.eq_or_lt with rfl | isLater
  · rw [area_of_le_one le_rfl]
  · have grows := area_lt_area_of_one_le notOne le_rfl isLater
    rw [area_of_le_one le_rfl] at grows
    exact grows.le

theorem strictMono_area (notOne : s ≠ 1) : StrictMono (area s) := by
  intro x y isLater
  rcases le_total y 1 with before | beyond
  · rw [area_of_le_one before, area_of_le_one (isLater.le.trans before)]
    exact isLater
  · rcases le_total 1 x with both | apart
    · exact area_lt_area_of_one_le notOne both isLater
    · rw [area_of_le_one apart]
      rcases apart.eq_or_lt with rfl | isBefore
      · have grows := area_lt_area_of_one_le notOne le_rfl isLater
        rwa [area_of_le_one le_rfl] at grows
      · exact isBefore.trans_le (one_le_area notOne beyond)

/-- The base of the inverse is positive up to any area. -/
theorem base_pos (pos : 0 < s) (notOne : s ≠ 1) (beyond : 1 < u) (isBelow : 1 ≤ x)
    (isArea : u < area s x) : 0 < u * (1 - s) + s := by
  rcases notOne.lt_or_gt with isLess | isGreater
  · have positive : 0 < u * (1 - s) := mul_pos (zero_lt_one.trans beyond) (sub_pos.mpr isLess)
    exact add_pos positive pos
  · rw [area_of_one_le notOne isBelow, lt_div_iff_of_neg (sub_neg.mpr isGreater)] at isArea
    have power : 0 < x ^ (1 - s) := Real.rpow_pos_of_pos (zero_lt_one.trans_le isBelow) _
    linarith

/-- The inverse of the area lies behind one for an area of more than one. -/
theorem one_lt_areaInv (pos : 0 < s) (notOne : s ≠ 1) (beyond : 1 < u) (isBelow : 1 ≤ x)
    (isArea : u < area s x) : 1 < areaInv s u := by
  have base := base_pos pos notOne beyond isBelow isArea
  rw [areaInv, if_neg (not_le.mpr beyond)]
  rcases notOne.lt_or_gt with isLess | isGreater
  · apply Real.one_lt_rpow
    · have grows : 1 * (1 - s) < u * (1 - s) :=
        mul_lt_mul_of_pos_right beyond (sub_pos.mpr isLess)
      linarith
    · exact one_div_pos.mpr (sub_pos.mpr isLess)
  · apply Real.one_lt_rpow_of_pos_of_lt_one_of_neg base
    · have shrinks : u * (1 - s) < 1 * (1 - s) :=
        mul_lt_mul_of_neg_right beyond (sub_neg.mpr isGreater)
      linarith
    · exact one_div_neg.mpr (sub_neg.mpr isGreater)

/-- Up to the point that the inverse returns, there is the given area. -/
theorem area_areaInv (pos : 0 < s) (notOne : s ≠ 1) (isBelow : 1 ≤ x) (isArea : u < area s x) :
    area s (areaInv s u) = u := by
  rcases le_or_gt u 1 with before | beyond
  · rw [areaInv, if_pos before, area_of_le_one before]
  · have base := base_pos pos notOne beyond isBelow isArea
    have someLeft : 1 - s ≠ 0 := sub_ne_zero.mpr notOne.symm
    rw [area_of_one_le notOne (one_lt_areaInv pos notOne beyond isBelow isArea).le, areaInv,
      if_neg (not_le.mpr beyond), ← Real.rpow_mul base.le, one_div_mul_cancel someLeft,
      Real.rpow_one, add_sub_cancel_right, mul_div_cancel_right₀ u someLeft]

/-- The inverse returns the point up to which the area was taken. -/
theorem areaInv_area (notOne : s ≠ 1) (x : ℝ) : areaInv s (area s x) = x := by
  rcases le_or_gt x 1 with before | beyond
  · rw [area_of_le_one before, areaInv, if_pos before]
  · have someLeft : 1 - s ≠ 0 := sub_ne_zero.mpr notOne.symm
    have isMore : 1 < area s x := by
      have grows := area_lt_area_of_one_le notOne le_rfl beyond
      rwa [area_of_le_one le_rfl] at grows
    have nonneg : 0 ≤ x := zero_le_one.trans beyond.le
    rw [areaInv, if_neg (not_le.mpr isMore), area_of_one_le notOne beyond.le,
      div_mul_cancel₀ _ someLeft, sub_add_cancel, ← Real.rpow_mul nonneg,
      mul_one_div_cancel someLeft, Real.rpow_one]

/-- The bound is a power of the argument, or of one where that is more. -/
theorem bound_eq (s u : ℝ) : (if u ≤ 1 then 1 else u ^ (-s)) = max u 1 ^ (-s) := by
  split_ifs with before
  · rw [max_eq_right before, Real.one_rpow]
  · rw [max_eq_left (not_le.mp before).le]

theorem continuous_bound (s : ℝ) : Continuous fun u : ℝ => max u 1 ^ (-s) := by
  apply Continuous.rpow_const (continuous_id.max continuous_const)
  intro u
  left
  exact (zero_lt_one.trans_le (le_max_right u 1)).ne'

/-- The area is the integral of the bound. -/
theorem integral_bound (notOne : s ≠ 1) (nonneg : 0 ≤ x) :
    ∫ u in (0 : ℝ)..x, max u 1 ^ (-s) = area s x := by
  have integrable (a b : ℝ) : IntervalIntegrable (fun u : ℝ => max u 1 ^ (-s)) volume a b :=
    (continuous_bound s).intervalIntegrable a b
  have first {y : ℝ} (isNonneg : 0 ≤ y) (before : y ≤ 1) :
      ∫ u in (0 : ℝ)..y, max u 1 ^ (-s) = y := by
    have isOne : EqOn (fun u : ℝ => max u 1 ^ (-s)) (fun _ => 1) (uIcc 0 y) := by
      intro u isIn
      rw [uIcc_of_le isNonneg] at isIn
      simp [max_eq_right (isIn.2.trans before)]
    simp [intervalIntegral.integral_congr isOne]
  rcases le_total x 1 with before | beyond
  · rw [area_of_le_one before, first nonneg before]
  · have someLeft : 1 - s ≠ 0 := sub_ne_zero.mpr notOne.symm
    have isPower : EqOn (fun u : ℝ => max u 1 ^ (-s)) (fun u => u ^ (-s)) (uIcc 1 x) := by
      intro u isIn
      rw [uIcc_of_le beyond] at isIn
      simp [max_eq_left isIn.1]
    have noZero : (0 : ℝ) ∉ uIcc 1 x := by
      rw [uIcc_of_le beyond]
      intro isIn
      linarith [isIn.1]
    have isRpow : -s ≠ -1 := neg_injective.ne notOne
    rw [← intervalIntegral.integral_add_adjacent_intervals (integrable 0 1) (integrable 1 x),
      first zero_le_one le_rfl, intervalIntegral.integral_congr isPower,
      integral_rpow (Or.inr ⟨isRpow, noZero⟩), area_of_one_le notOne beyond, neg_add_eq_sub,
      Real.one_rpow]
    field_simp
    ring

end

/-! ## What a round does -/

namespace ZipfSampler

variable {N : ℕ} {s x p : ℝ}

theorem t_eq (nonempty : 1 ≤ N) (notOne : s ≠ 1) : (ofParams N s).t = area s N :=
  (area_of_one_le notOne (by exact_mod_cast nonempty)).symm

theorem t_pos (nonempty : 1 ≤ N) (notOne : s ≠ 1) : 0 < (ofParams N s).t := by
  rw [t_eq nonempty notOne]
  exact zero_lt_one.trans_le (one_le_area notOne (by exact_mod_cast nonempty))

theorem bInvCdf_eq (zs : ZipfSampler) (p : ℝ) : zs.bInvCdf p = areaInv zs.skew (p * zs.t) := rfl

theorem density_eq (zs : ZipfSampler) (x : ℝ) : zs.density x = max x 1 ^ (-zs.skew) / zs.t := by
  rw [← bound_eq, density]
  split_ifs <;> rfl

theorem continuous_density (zs : ZipfSampler) : Continuous zs.density := by
  simpa only [← density_eq] using (continuous_bound zs.skew).div_const zs.t

/-- The distribution function is the area under the bound, relative to all of it. -/
theorem cdf_eq (notOne : s ≠ 1) (nonneg : 0 ≤ x) :
    (ofParams N s).cdf x = area s x / (ofParams N s).t := by
  simp only [cdf, density_eq, intervalIntegral.integral_div]
  congr 1
  exact integral_bound notOne nonneg

theorem cdf_N (nonempty : 1 ≤ N) (notOne : s ≠ 1) : (ofParams N s).cdf N = 1 := by
  rw [cdf_eq notOne N.cast_nonneg, ← t_eq nonempty notOne, div_self (t_pos nonempty notOne).ne']

/-- A uniform number below one is an area below all of it. -/
theorem mul_t_lt (nonempty : 1 ≤ N) (notOne : s ≠ 1) (atMost : p < 1) :
    p * (ofParams N s).t < area s N := by
  rw [← t_eq nonempty notOne]
  exact mul_lt_of_lt_one_left (t_pos nonempty notOne) atMost

/-- Up to its proposal, a uniform number has its share of the area. -/
theorem area_bInvCdf (nonempty : 1 ≤ N) (pos : 0 < s) (notOne : s ≠ 1) (atMost : p < 1) :
    area s ((ofParams N s).bInvCdf p) = p * (ofParams N s).t :=
  area_areaInv pos notOne (by exact_mod_cast nonempty) (mul_t_lt nonempty notOne atMost)

/-- The proposal lies up to a point exactly when the uniform number is at most the area up to it. -/
theorem bInvCdf_le_iff (nonempty : 1 ≤ N) (pos : 0 < s) (notOne : s ≠ 1) (atMost : p < 1) :
    (ofParams N s).bInvCdf p ≤ x ↔ p * (ofParams N s).t ≤ area s x := by
  rw [← (strictMono_area notOne).le_iff_le, area_bInvCdf nonempty pos notOne atMost]

theorem bInvCdf_mem (nonempty : 1 ≤ N) (pos : 0 < s) (notOne : s ≠ 1) (isUnit : p ∈ Ioo (0 : ℝ) 1) :
    (ofParams N s).bInvCdf p ∈ Ioo (0 : ℝ) N := by
  have isArea := area_bInvCdf nonempty pos notOne isUnit.2
  constructor
  · apply (strictMono_area notOne).lt_iff_lt.mp
    rw [area_of_le_one zero_le_one, isArea]
    exact mul_pos isUnit.1 (t_pos nonempty notOne)
  · apply (strictMono_area notOne).lt_iff_lt.mp
    rw [isArea]
    exact mul_t_lt nonempty notOne isUnit.2

/-- The distribution function takes the proposal back to the uniform number. -/
theorem cdf_bInvCdf (nonempty : 1 ≤ N) (pos : 0 < s) (notOne : s ≠ 1) (isUnit : p ∈ Ioo (0 : ℝ) 1) :
    (ofParams N s).cdf ((ofParams N s).bInvCdf p) = p := by
  rw [cdf_eq notOne (bInvCdf_mem nonempty pos notOne isUnit).1.le,
    area_bInvCdf nonempty pos notOne isUnit.2, mul_div_cancel_right₀ p (t_pos nonempty notOne).ne']

theorem bInvCdf_cdf (nonempty : 1 ≤ N) (notOne : s ≠ 1) (nonneg : 0 ≤ x) :
    (ofParams N s).bInvCdf ((ofParams N s).cdf x) = x := by
  rw [cdf_eq notOne nonneg, bInvCdf_eq, div_mul_cancel₀ _ (t_pos nonempty notOne).ne']
  exact areaInv_area notOne x

/-- A proposal is rounded up to an integer of the range. -/
theorem sampleX_mem (isIn : x ∈ Ioo (0 : ℝ) N) : sampleX x ∈ Finset.Icc 1 N := by
  have nonneg : 0 ≤ x + 1 := by linarith [isIn.1]
  rw [Finset.mem_Icc, sampleX, Nat.le_floor_iff nonneg, ← Nat.lt_succ_iff, Nat.floor_lt nonneg]
  push_cast
  exact ⟨by linarith [isIn.1], by linarith [isIn.2]⟩

theorem sampleX_eq_iff {k : ℕ} (first : 1 ≤ k) : sampleX x = k ↔ x ∈ Ico ((k : ℝ) - 1) k := by
  rw [sampleX, Nat.floor_eq_iff' (Nat.one_le_iff_ne_zero.mp first), mem_Ico, sub_le_iff_le_add,
    add_lt_add_iff_right]

/-- On its cell, the chance to accept makes up for the bound. -/
theorem ratio_eq {zs : ZipfSampler} {k : ℕ} (isPositive : 0 < zs.t) (first : 1 ≤ k)
    (isIn : x ∈ Ico ((k : ℝ) - 1) k) :
    zs.ratio x = (k : ℝ) ^ (-zs.skew) / max x 1 ^ (-zs.skew) := by
  rw [ratio, (sampleX_eq_iff first).mpr isIn]
  rcases first.eq_or_lt with rfl | isMore
  · have before : x ≤ 1 := by simpa using isIn.2.le
    simp [max_eq_right before, isPositive.ne']
  · have beyond : 1 ≤ x := by
      have atLeast : (2 : ℝ) ≤ k := by exact_mod_cast isMore
      linarith [isIn.1]
    simp [max_eq_left beyond, isPositive.ne', not_le.mpr isMore]

/-- The product of the bounding density and the chance to accept is the power of the integer. -/
theorem density_mul_ratio {zs : ZipfSampler} {k : ℕ} (isPositive : 0 < zs.t) (first : 1 ≤ k)
    (isIn : x ∈ Ico ((k : ℝ) - 1) k) :
    zs.density x * zs.ratio x = (k : ℝ) ^ (-zs.skew) / zs.t := by
  have power : 0 < max x 1 ^ (-zs.skew) :=
    Real.rpow_pos_of_pos (zero_lt_one.trans_le (le_max_right x 1)) _
  rw [density_eq, ratio_eq isPositive first isIn]
  field_simp

/-- A proposal is accepted with some chance, which is at most one. -/
theorem ratio_mem {zs : ZipfSampler} {k : ℕ} (isPositive : 0 < zs.t) (pos : 0 < zs.skew)
    (first : 1 ≤ k) (isIn : x ∈ Ico ((k : ℝ) - 1) k) : zs.ratio x ∈ Ioc (0 : ℝ) 1 := by
  have base : 0 < max x 1 := zero_lt_one.trans_le (le_max_right x 1)
  have atLeast : (1 : ℝ) ≤ k := by exact_mod_cast first
  have isBelow : max x 1 ≤ k := max_le isIn.2.le atLeast
  rw [ratio_eq isPositive first isIn]
  constructor
  · exact div_pos (Real.rpow_pos_of_pos (base.trans_le isBelow) _) (Real.rpow_pos_of_pos base _)
  · rw [div_le_one (Real.rpow_pos_of_pos base _)]
    exact Real.rpow_le_rpow_of_nonpos base isBelow (neg_nonpos.mpr pos.le)

/-! ## The law of the samples -/

/-- The law of the proposals. -/
def proposals (zs : ZipfSampler) (N : ℕ) : Measure ℝ :=
  (volume.restrict (Ioo 0 (N : ℝ))).withDensity fun x => ENNReal.ofReal (zs.density x)

theorem density_nonneg (nonempty : 1 ≤ N) (notOne : s ≠ 1) (x : ℝ) :
    0 ≤ (ofParams N s).density x := by
  rw [density_eq]
  have base : 0 ≤ max x 1 := zero_le_one.trans (le_max_right x 1)
  exact div_nonneg (Real.rpow_nonneg base _) (t_pos nonempty notOne).le

theorem lintegral_density (nonempty : 1 ≤ N) (notOne : s ≠ 1) (nonneg : 0 ≤ x) :
    ∫⁻ u in Ioc 0 x, ENNReal.ofReal ((ofParams N s).density u) =
      ENNReal.ofReal (area s x / (ofParams N s).t) := by
  rw [← cdf_eq notOne nonneg, cdf, intervalIntegral.integral_of_le nonneg,
    ofReal_integral_eq_lintegral_ofReal]
  · exact (continuous_density _).integrableOn_Ioc
  · exact ae_of_all _ (density_nonneg nonempty notOne)

theorem isProbabilityMeasure_proposals (nonempty : 1 ≤ N) (notOne : s ≠ 1) :
    IsProbabilityMeasure ((ofParams N s).proposals N) := by
  apply isProbabilityMeasure_iff.mpr
  rw [proposals, withDensity_apply _ MeasurableSet.univ, Measure.restrict_univ,
    restrict_Ioo_eq_restrict_Ioc, lintegral_density nonempty notOne N.cast_nonneg,
    ← t_eq nonempty notOne, div_self (t_pos nonempty notOne).ne', ENNReal.ofReal_one]

/-- Proposals lie up to a point as often as the area up to it says, within the range. -/
theorem proposals_Iic (nonempty : 1 ≤ N) (notOne : s ≠ 1) (x : ℝ) :
    (ofParams N s).proposals N (Iic x) =
      ENNReal.ofReal (area s (min x N) / (ofParams N s).t) := by
  have sameCell : Iic x ∩ Ioc 0 (N : ℝ) = Ioc 0 (min x N) := by
    rw [inter_comm, Ioc_inter_Iic, min_comm]
  rw [proposals, withDensity_apply _ measurableSet_Iic, restrict_Ioo_eq_restrict_Ioc,
    Measure.restrict_restrict measurableSet_Iic, sameCell]
  rcases lt_or_ge x 0 with isBefore | nonneg
  · have isNeg : min x N ≤ 0 := min_le_of_left_le isBefore.le
    have noArea : area s (min x N) / (ofParams N s).t ≤ 0 := by
      rw [area_of_le_one (isNeg.trans zero_le_one)]
      exact div_nonpos_of_nonpos_of_nonneg isNeg (t_pos nonempty notOne).le
    simp [Ioc_eq_empty (not_lt.mpr isNeg), ENNReal.ofReal_of_nonpos noArea]
  · exact lintegral_density nonempty notOne (le_min nonneg N.cast_nonneg)

theorem measurable_bInvCdf (zs : ZipfSampler) : Measurable zs.bInvCdf := by
  apply Measurable.ite
  · exact measurableSet_le (by fun_prop) (by fun_prop)
  · fun_prop
  · fun_prop

/-- The inverse of the distribution function turns uniform numbers into proposals. -/
theorem map_bInvCdf (nonempty : 1 ≤ N) (pos : 0 < s) (notOne : s ≠ 1) :
    Rejection.unit.map (ofParams N s).bInvCdf = (ofParams N s).proposals N := by
  have isProbability := isProbabilityMeasure_proposals nonempty notOne
  apply Rejection.map_unit_eq (measurable_bInvCdf _)
  intro p isUnit x
  have isShare : p ≤ ((ofParams N s).proposals N).real (Iic x) ↔
      p ≤ area s (min x N) / (ofParams N s).t := by
    rw [measureReal_def, proposals_Iic nonempty notOne, ENNReal.toReal_ofReal', le_max_iff,
      or_iff_left (not_le.mpr isUnit.1)]
  rw [isShare, le_div_iff₀ (t_pos nonempty notOne), (strictMono_area notOne).monotone.map_min,
    le_min_iff, and_iff_left (mul_t_lt nonempty notOne isUnit.2).le,
    bInvCdf_le_iff nonempty pos notOne isUnit.2]

theorem measurable_sampleX : Measurable sampleX :=
  Nat.measurable_floor.comp (measurable_id.add_const 1)

theorem measurable_ratio (zs : ZipfSampler) : Measurable zs.ratio := by
  have measurable := measurable_sampleX
  unfold ratio
  apply Measurable.div
  · fun_prop
  · apply Measurable.mul_const
    apply Measurable.ite
    · exact measurableSet_le (by fun_prop) (by fun_prop)
    · fun_prop
    · fun_prop

/-- A round returns an integer exactly when its proposal is accepted and rounded up to it. -/
theorem round_eq_some {zs : ZipfSampler} {draw : ℝ × ℝ} {k : ℕ} :
    zs.round draw = some k ↔
      draw.2 < zs.ratio (zs.bInvCdf draw.1) ∧ sampleX (zs.bInvCdf draw.1) = k := by
  simp [round]

theorem round_eq_none {zs : ZipfSampler} {draw : ℝ × ℝ} :
    zs.round draw = none ↔ zs.ratio (zs.bInvCdf draw.1) ≤ draw.2 := by
  simp [round]

theorem measurableSet_round (zs : ZipfSampler) (o : Option ℕ) :
    MeasurableSet {d | zs.round d = o} := by
  have proposal : Measurable fun d : ℝ × ℝ => zs.bInvCdf d.1 :=
    (measurable_bInvCdf zs).comp measurable_fst
  have chance : Measurable fun d : ℝ × ℝ => zs.ratio (zs.bInvCdf d.1) :=
    (measurable_ratio zs).comp proposal
  cases o with
  | none =>
      simp only [round_eq_none]
      exact measurableSet_le chance measurable_snd
  | some k =>
      simp only [round_eq_some]
      exact (measurableSet_lt measurable_snd chance).inter
        (measurable_sampleX.comp proposal (measurableSet_singleton k))

/-- On the cell of an integer, proposals are accepted as often as its power says, relative to the
area. -/
theorem proposals_accepted (nonempty : 1 ≤ N) (notOne : s ≠ 1) {k : ℕ} (isIn : k ∈ Finset.Icc 1 N) :
    ∫⁻ x in Ico ((k : ℝ) - 1) k, ENNReal.ofReal ((ofParams N s).ratio x)
        ∂(ofParams N s).proposals N =
      ENNReal.ofReal ((k : ℝ) ^ (-s) / (ofParams N s).t) := by
  rcases Finset.mem_Icc.mp isIn with ⟨first, last⟩
  have inRange : Ico ((k : ℝ) - 1) k ∩ Ico 0 (N : ℝ) = Ico ((k : ℝ) - 1) k := by
    apply inter_eq_left.mpr
    apply Ico_subset_Ico
    · have atLeast : (1 : ℝ) ≤ k := by exact_mod_cast first
      exact sub_nonneg.mpr atLeast
    · exact_mod_cast last
  have density : Measurable fun x => ENNReal.ofReal ((ofParams N s).density x) :=
    (continuous_density _).measurable.ennreal_ofReal
  rw [proposals, setLIntegral_withDensity_eq_setLIntegral_mul _ density
      (measurable_ratio _).ennreal_ofReal measurableSet_Ico,
    restrict_Ioo_eq_restrict_Ico, Measure.restrict_restrict measurableSet_Ico, inRange]
  have isConstant : EqOn ((fun x => ENNReal.ofReal ((ofParams N s).density x)) *
      fun x => ENNReal.ofReal ((ofParams N s).ratio x))
      (fun _ => ENNReal.ofReal ((k : ℝ) ^ (-s) / (ofParams N s).t)) (Ico ((k : ℝ) - 1) k) := by
    intro x inCell
    rw [Pi.mul_apply, ← ENNReal.ofReal_mul (density_nonneg nonempty notOne x),
      density_mul_ratio (t_pos nonempty notOne) first inCell]
    rfl
  rw [setLIntegral_congr_fun measurableSet_Ico isConstant]
  simp

/-- A round returns an integer of the range as often as its power says, relative to the area. -/
theorem round_law (nonempty : 1 ≤ N) (pos : 0 < s) (notOne : s ≠ 1) {k : ℕ}
    (isIn : k ∈ Finset.Icc 1 N) :
    (Rejection.unit.prod Rejection.unit) {d | (ofParams N s).round d = some k} =
      ENNReal.ofReal ((k : ℝ) ^ (-s) / (ofParams N s).t) := by
  have first := (Finset.mem_Icc.mp isIn).1
  have isProbability := isProbabilityMeasure_proposals nonempty notOne
  have isEvent : {d | (ofParams N s).round d = some k} =
      preimage (Prod.map (ofParams N s).bInvCdf id)
        {d | d.2 < (ofParams N s).ratio d.1 ∧ d.1 ∈ Ico ((k : ℝ) - 1) k} := by
    ext d
    simp only [round_eq_some, sampleX_eq_iff first]
    rfl
  have product : (Rejection.unit.prod Rejection.unit).map (Prod.map (ofParams N s).bInvCdf id) =
      ((ofParams N s).proposals N).prod Rejection.unit := by
    rw [← Measure.map_prod_map _ _ (measurable_bInvCdf _) measurable_id, Measure.map_id,
      map_bInvCdf nonempty pos notOne]
  have measurable : MeasurableSet
      {d : ℝ × ℝ | d.2 < (ofParams N s).ratio d.1 ∧ d.1 ∈ Ico ((k : ℝ) - 1) k} :=
    (measurableSet_lt measurable_snd ((measurable_ratio _).comp measurable_fst)).inter
      (measurable_fst measurableSet_Ico)
  rw [isEvent, ← Measure.map_apply ((measurable_bInvCdf _).prodMap measurable_id) measurable,
    product, Rejection.prod_unit_accepted (measurable_ratio _) measurableSet_Ico,
    proposals_accepted nonempty notOne isIn]
  intro x inCell
  exact (ratio_mem (t_pos nonempty notOne) pos first inCell).2

/-- A round whose uniform number is inside the unit interval returns nothing outside the range. -/
theorem round_mem (nonempty : 1 ≤ N) (pos : 0 < s) (notOne : s ≠ 1) {draw : ℝ × ℝ} {k : ℕ}
    (isUnit : draw.1 ∈ Ioo (0 : ℝ) 1) (isAccepted : (ofParams N s).round draw = some k) :
    k ∈ Finset.Icc 1 N := by
  rw [← (round_eq_some.mp isAccepted).2]
  exact sampleX_mem (bInvCdf_mem nonempty pos notOne isUnit)

/-- A round is accepted as often as all powers of the range say, relative to the area. -/
theorem accepted_law (nonempty : 1 ≤ N) (pos : 0 < s) (notOne : s ≠ 1) :
    (Rejection.unit.prod Rejection.unit) {d | (ofParams N s).round d ≠ none} =
      ENNReal.ofReal ((∑ k ∈ Finset.Icc 1 N, (k : ℝ) ^ (-s)) / (ofParams N s).t) := by
  have inUnit : ∀ᵐ d ∂(Rejection.unit.prod Rejection.unit), d.1 ∈ Ioo (0 : ℝ) 1 :=
    Measure.quasiMeasurePreserving_fst.ae (ae_restrict_mem measurableSet_Ioo)
  have sameEvent : {d | (ofParams N s).round d ≠ none} =ᵐ[Rejection.unit.prod Rejection.unit]
      ⋃ k ∈ Finset.Icc 1 N, {d | (ofParams N s).round d = some k} := by
    apply Filter.eventuallyEq_set.mpr
    filter_upwards [inUnit] with d isUnit
    simp only [mem_iUnion, mem_ofPred_eq, Option.ne_none_iff_exists', exists_prop]
    apply exists_congr
    intro k
    exact (and_iff_right_of_imp (round_mem nonempty pos notOne isUnit)).symm
  have apart : (Finset.Icc 1 N : Set ℕ).PairwiseDisjoint
      fun k => {d | (ofParams N s).round d = some k} := by
    intro j _ k _ isOther
    apply Set.disjoint_left.mpr
    intro d isFirst isSecond
    exact isOther (Option.some_injective _ (isFirst.symm.trans isSecond))
  rw [measure_congr sameEvent, measure_biUnion_finset apart fun k _ => measurableSet_round _ _,
    Finset.sum_congr rfl fun k isIn => round_law nonempty pos notOne isIn, Finset.sum_div,
    ENNReal.ofReal_sum_of_nonneg]
  intro k isIn
  exact div_nonneg (Real.rpow_nonneg k.cast_nonneg _) (t_pos nonempty notOne).le

/-- The chance of an integer under the law of Zipf. -/
def zipf (N : ℕ) (s : ℝ) (k : ℕ) : ℝ := (k : ℝ) ^ (-s) / ∑ j ∈ Finset.Icc 1 N, (j : ℝ) ^ (-s)

/-- The law of the uniform numbers that the rounds draw. -/
def draws : Measure (ℕ → ℝ × ℝ) := Measure.infinitePi fun _ => Rejection.unit.prod Rejection.unit

theorem sum_pos (nonempty : 1 ≤ N) : 0 < ∑ j ∈ Finset.Icc 1 N, (j : ℝ) ^ (-s) := by
  apply Finset.sum_pos
  · intro j isIn
    exact Real.rpow_pos_of_pos (by exact_mod_cast (Finset.mem_Icc.mp isIn).1) _
  · exact ⟨1, Finset.mem_Icc.mpr ⟨le_rfl, nonempty⟩⟩

/-- `getSample` returns an integer of the range as often as its law says. -/
theorem getSample_law (nonempty : 1 ≤ N) (pos : 0 < s) (notOne : s ≠ 1) {k : ℕ}
    (isIn : k ∈ Finset.Icc 1 N) :
    draws {d | ∃ fuel, (ofParams N s).getSample fuel d = some k} =
      ENNReal.ofReal (zipf N s k) := by
  have total : 0 < (∑ j ∈ Finset.Icc 1 N, (j : ℝ) ^ (-s)) / (ofParams N s).t :=
    div_pos (sum_pos nonempty) (t_pos nonempty notOne)
  rw [zipf, ← div_div_div_cancel_right₀ (t_pos nonempty notOne).ne',
    ENNReal.ofReal_div_of_pos total, ← round_law nonempty pos notOne isIn,
    ← accepted_law nonempty pos notOne]
  exact Rejection.infinitePi_firstAccepted (measurableSet_round _) k

/-- `getSample` returns an integer of the range, whatever is drawn but for a set without weight. -/
theorem getSample_returns (nonempty : 1 ≤ N) (pos : 0 < s) (notOne : s ≠ 1) :
    ∀ᵐ d ∂draws, ∃ k ∈ Finset.Icc 1 N, ∃ fuel, (ofParams N s).getSample fuel d = some k := by
  have isProbability : IsProbabilityMeasure draws := by
    unfold draws
    infer_instance
  have measurable (k : ℕ) :
      MeasurableSet {d | ∃ fuel, (ofParams N s).getSample fuel d = some k} :=
    Rejection.measurableSet_firstAccepted (measurableSet_round _) k
  have apart : (Finset.Icc 1 N : Set ℕ).PairwiseDisjoint
      fun k => {d | ∃ fuel, (ofParams N s).getSample fuel d = some k} :=
    (Rejection.pairwise_disjoint_firstAccepted (ofParams N s).round).set_pairwise _
  have always : draws (⋃ k ∈ Finset.Icc 1 N,
      {d | ∃ fuel, (ofParams N s).getSample fuel d = some k}) = 1 := by
    rw [measure_biUnion_finset apart fun k _ => measurable k,
      Finset.sum_congr rfl fun k isIn => getSample_law nonempty pos notOne isIn,
      ← ENNReal.ofReal_sum_of_nonneg]
    · simp only [zipf]
      rw [← Finset.sum_div, div_self (sum_pos nonempty).ne', ENNReal.ofReal_one]
    · intro k _
      exact div_nonneg (Real.rpow_nonneg k.cast_nonneg _) (sum_pos nonempty).le
  have isEvent := (mem_ae_iff_prob_eq_one
    (Finset.measurableSet_biUnion (Finset.Icc 1 N) fun k _ => measurable k)).mpr always
  filter_upwards [isEvent] with d isReturned
  simpa using isReturned

/-- The sampler inverts the distribution function of its bounding density, samples and accepts
within bounds, makes up for the bound on every cell, and so draws from the law of Zipf. -/
structure DrawsZipf (zs : ZipfSampler) (N : ℕ) (s : ℝ) : Prop where
  normalised : zs.cdf N = 1
  proposes : ∀ p ∈ Ioo (0 : ℝ) 1, zs.bInvCdf p ∈ Ioo (0 : ℝ) N
  rightInverse : ∀ p ∈ Ioo (0 : ℝ) 1, zs.cdf (zs.bInvCdf p) = p
  leftInverse : ∀ x ∈ Ioo (0 : ℝ) N, zs.bInvCdf (zs.cdf x) = x
  samples : ∀ p ∈ Ioo (0 : ℝ) 1, sampleX (zs.bInvCdf p) ∈ Finset.Icc 1 N
  accepts : ∀ p ∈ Ioo (0 : ℝ) 1, zs.ratio (zs.bInvCdf p) ∈ Ioc (0 : ℝ) 1
  compensates : ∀ k ∈ Finset.Icc 1 N, ∀ x ∈ Ioo ((k : ℝ) - 1) k,
    zs.density x * zs.ratio x = (k : ℝ) ^ (-s) / zs.t
  returns : ∀ᵐ d ∂draws, ∃ k ∈ Finset.Icc 1 N, ∃ fuel, zs.getSample fuel d = some k
  law : ∀ k ∈ Finset.Icc 1 N,
    draws {d | ∃ fuel, zs.getSample fuel d = some k} = ENNReal.ofReal (zipf N s k)

/-- For every range and every positive exponent but one, `getSample` draws from the law of Zipf. -/
theorem drawsZipf (nonempty : 1 ≤ N) (pos : 0 < s) (notOne : s ≠ 1) :
    (ofParams N s).DrawsZipf N s where
  normalised := cdf_N nonempty notOne
  proposes := fun _ isUnit => bInvCdf_mem nonempty pos notOne isUnit
  rightInverse := fun _ isUnit => cdf_bInvCdf nonempty pos notOne isUnit
  leftInverse := fun _ isIn => bInvCdf_cdf nonempty notOne isIn.1.le
  samples := fun _ isUnit => sampleX_mem (bInvCdf_mem nonempty pos notOne isUnit)
  accepts := by
    intro p isUnit
    have first := (Finset.mem_Icc.mp (sampleX_mem (bInvCdf_mem nonempty pos notOne isUnit))).1
    exact ratio_mem (t_pos nonempty notOne) pos first ((sampleX_eq_iff first).mp rfl)
  compensates := fun _ isIn _ inCell =>
    density_mul_ratio (t_pos nonempty notOne) (Finset.mem_Icc.mp isIn).1 ⟨inCell.1.le, inCell.2⟩
  returns := getSample_returns nonempty pos notOne
  law := fun _ isIn => getSample_law nonempty pos notOne isIn

/-- The parameters of the constructor without arguments. -/
theorem drawsZipf_hundred : (ofParams 100 2).DrawsZipf 100 2 :=
  drawsZipf (by norm_num) (by norm_num) (by norm_num)

end ZipfSampler

end

end Datamime.Xapian
