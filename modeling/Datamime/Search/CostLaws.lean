/-
# Laws of the cost

The optimizer treats the cost of a measured profile as a distance to the target.
So the cost should not depend on which of the two profiles is called the target,
it should vanish on two equal profiles, the unit in which a metric is measured
should not matter, and no metric should cost more than one, or the weights would
mean nothing.

Three of the laws hold for all profiles. The second fails where a curve is zero
everywhere: such a profile has no curve statistics, and the cost reads them even
though it never uses them.
-/

import Datamime.Search.ZeroCost

namespace Datamime.Search

open Datamime.Math Datamime.Math.ERat

/-! ## Changing the unit of a metric -/

/-- The ratio of two units of measurement. -/
abbrev UnitRatio := {ratio : ℚ // 0 < ratio}

/-- The same measurements in another unit. -/
def Sample.scale (s : Sample) (ratio : UnitRatio) : Sample where
  values := s.values.map (ratio.1 * ·)
  two_le := by simpa using s.two_le
  nonneg := by
    intro q isMember
    obtain ⟨entry, listed, rfl⟩ := List.mem_map.mp isMember
    exact mul_nonneg ratio.2.le (s.nonneg entry listed)

/-- The same curve in another unit. -/
def Curve.scale (curve : Curve) (ratio : UnitRatio) : Curve where
  estimates := curve.estimates.map fun estimate w => ratio.1 * estimate w
  two_le := by simpa using curve.two_le
  nonneg := by
    intro scaled isMember w
    obtain ⟨estimate, listed, rfl⟩ := List.mem_map.mp isMember
    exact mul_nonneg ratio.2.le (curve.nonneg estimate listed w)

/-- The profile with one metric measured in another unit. -/
def Profile.scale (profile : Profile) (ratio : UnitRatio) : Metric → Profile
  | .counter metric => { profile with
      counter := Function.update profile.counter metric ((profile.counter metric).scale ratio) }
  | .mrc => { profile with mrcs := profile.mrcs.scale ratio }
  | .ipc => { profile with ipcs := profile.ipcs.scale ratio }

theorem Curve.at_scale (curve : Curve) (ratio : UnitRatio) (w : Fin 12) :
    (curve.scale ratio).at w = (curve.at w).scale ratio := by
  simp [Curve.at, Curve.scale, Sample.scale]

/-! ## Curves that are zero everywhere -/

/-- Every estimate of the curve is zero at every way. -/
def Curve.AllZero (curve : Curve) : Prop := ∀ estimate ∈ curve.estimates, ∀ w, estimate w = 0

theorem Curve.any_toCurves (curve : Curve) : curve.toCurves.any = true ↔ ¬ curve.AllZero := by
  have entry_ne_zero (q : ℚ) : num q ≠ 0 ↔ q ≠ 0 :=
    not_congr ⟨fun same => ERat.num.inj same, congrArg num⟩
  simp only [Curves.any, Curve.toCurves, Curve.AllZero, List.any_map, List.any_eq_true,
    Function.comp_apply, List.mem_ofFn, decide_eq_true_eq, exists_exists_eq_and, entry_ne_zero,
    not_forall, exists_prop]

/-- A profile has curve statistics unless one of its curves is zero everywhere. -/
theorem Profile.hasCurveStats_iff (profile : Profile) :
    profile.HasCurveStats ↔ ¬ profile.mrcs.AllZero ∧ ¬ profile.ipcs.AllZero := by
  rw [← Curve.any_toCurves, ← Curve.any_toCurves, ← Bool.and_eq_true, Profile.HasCurveStats,
    Profile.stats, curveStats]
  split <;> simp_all

theorem Curve.allZero_scale_iff (curve : Curve) (ratio : UnitRatio) :
    (curve.scale ratio).AllZero ↔ curve.AllZero := by
  simp [Curve.AllZero, Curve.scale, ratio.2.ne']

theorem Profile.hasCurveStats_scale_iff (profile : Profile) (ratio : UnitRatio) (metric : Metric) :
    (profile.scale ratio metric).HasCurveStats ↔ profile.HasCurveStats := by
  rw [Profile.hasCurveStats_iff, Profile.hasCurveStats_iff]
  cases metric with
  | counter metric => rfl
  | mrc => exact and_congr_left' (not_congr (profile.mrcs.allZero_scale_iff ratio))
  | ipc => exact and_congr_right' (not_congr (profile.ipcs.allZero_scale_iff ratio))

/-! ## One pair of samples -/

theorem Sample.IsTop.symm {s t : Sample} {top : ℚ} (isTop : s.IsTop t top) : t.IsTop s top := by
  refine ⟨?_, fun entry isMember => isTop.2 entry ?_⟩
  · exact List.mem_append.mpr (List.mem_append.mp isTop.1).symm
  · exact List.mem_append.mpr (List.mem_append.mp isMember).symm

theorem pairCost_comm (s t : Sample) : pairCost s t = pairCost t s := by
  have sameTop : s.top t = t.top s := (s.isTop_top t).unique (t.isTop_top s).symm
  rw [pairCost, pairCost, sameTop, scaledDistance, scaledDistance, Empirical.distance_comm]

/-- In another unit the largest entry is the old one in that unit. -/
theorem Sample.top_scale (s t : Sample) (ratio : UnitRatio) :
    (s.scale ratio).top (t.scale ratio) = ratio.1 * s.top t := by
  have old := s.isTop_top t
  refine ((s.scale ratio).isTop_top (t.scale ratio)).unique ⟨?_, fun entry isMember => ?_⟩
  · rw [Sample.scale, Sample.scale, ← List.map_append]
    exact List.mem_map_of_mem old.1
  · rw [Sample.scale, Sample.scale, ← List.map_append] at isMember
    obtain ⟨entry, listed, rfl⟩ := List.mem_map.mp isMember
    exact mul_le_mul_of_nonneg_left (old.2 entry listed) ratio.2.le

theorem pairCost_scale (s t : Sample) (ratio : UnitRatio) :
    pairCost (s.scale ratio) (t.scale ratio) = pairCost s t := by
  have normalized (u : Sample) :
      (u.scale ratio).values.map (· / (ratio.1 * s.top t)) = u.values.map (· / s.top t) := by
    rw [Sample.scale, List.map_map]
    exact List.map_congr_left fun entry _ => mul_div_mul_left entry _ ratio.2.ne'
  have sameZero : ratio.1 * s.top t = 0 ↔ s.top t = 0 := by
    simp [ratio.2.ne']
  rw [pairCost, pairCost, Sample.top_scale, scaledDistance, scaledDistance, normalized, normalized]
  simp only [sameZero]

/-! ## Costs of bounded size -/

/-- The cost is not a number, or a number between zero and the bound. -/
def UpTo (bound : ℚ) (cost : ERat) : Prop :=
  cost = nan ∨ ∃ d, 0 ≤ d ∧ d ≤ bound ∧ cost = num d

theorem UpTo.add {bound bound' : ℚ} {cost cost' : ERat} (first : UpTo bound cost)
    (second : UpTo bound' cost') : UpTo (bound + bound') (cost + cost') := by
  rcases first with rfl | ⟨d, nonneg, below, rfl⟩
  · exact .inl (nan_add _)
  · rcases second with rfl | ⟨d', nonneg', below', rfl⟩
    · exact .inl (add_nan _)
    · exact .inr ⟨d + d', add_nonneg nonneg nonneg', add_le_add below below', rfl⟩

/-- Dividing by the bound leaves at most one. -/
theorem UpTo.div {n : ℕ} {cost : ERat} (positive : 0 < n) (upTo : UpTo n cost) :
    UpTo 1 (cost / num n) := by
  have cast_pos : (0 : ℚ) < n := by exact_mod_cast positive
  rcases upTo with rfl | ⟨d, nonneg, below, rfl⟩
  · exact .inl (nan_div _)
  · exact .inr ⟨d / n, div_nonneg nonneg cast_pos.le, (div_le_one cast_pos).mpr below,
      num_div_num cast_pos.ne'⟩

theorem pairCost_upTo_one (s t : Sample) : UpTo 1 (pairCost s t) := by
  have isTop := s.isTop_top t
  by_cases zero : s.top t = 0
  · exact .inl (if_pos zero)
  · have positive : 0 < s.top t := lt_of_le_of_ne isTop.nonneg (Ne.symm zero)
    refine .inr ⟨_, Empirical.distance_nonneg _ _, Empirical.distance_le_one ?_, if_neg zero⟩
    intro scaled isMember
    rw [← List.map_append] at isMember
    obtain ⟨entry, listed, rfl⟩ := List.mem_map.mp isMember
    exact ⟨div_nonneg (s.nonneg_append t entry listed) positive.le,
      (div_le_one positive).mpr (isTop.2 entry listed)⟩

/-! ## One curve -/

theorem curveCost_comm (measured target : Curve) :
    curveCost measured target = curveCost target measured := by
  simp only [curveCost, addWays, pairCost_comm]

theorem curveCost_scale (measured target : Curve) (ratio : UnitRatio) :
    curveCost (measured.scale ratio) (target.scale ratio) = curveCost measured target := by
  simp only [curveCost, addWays, Curve.at_scale, pairCost_scale]

/-- Every way adds at most one. -/
theorem addWays_upTo (measured target : Curve) (ws : List (Fin 12)) {bound : ℚ} {cost : ERat}
    (start : UpTo bound cost) : UpTo (bound + ws.length) (addWays measured target ws cost) := by
  induction ws generalizing bound cost with
  | nil => simpa [addWays] using start
  | cons w rest ih =>
      have later := ih (start.add (pairCost_upTo_one (measured.at w) (target.at w)))
      have counted : bound + 1 + rest.length = bound + (w :: rest).length := by
        rw [List.length_cons, Nat.cast_succ]
        ring
      rw [← counted]
      exact later

theorem curveCost_upTo_one (measured target : Curve) : UpTo 1 (curveCost measured target) := by
  have nothingYet : UpTo 0 0 := .inr ⟨0, le_rfl, le_rfl, rfl⟩
  have all := addWays_upTo measured target (List.finRange 12) nothingYet
  rw [List.length_finRange, zero_add] at all
  exact all.div (by norm_num)

/-! ## One metric -/

theorem metricCost_comm (target measured : Profile) :
    metricCost target measured = metricCost measured target := by
  funext metric
  cases metric with
  | counter metric => exact pairCost_comm _ _
  | mrc => exact curveCost_comm _ _
  | ipc => exact curveCost_comm _ _

/-- No metric notices that one of them is measured in another unit. -/
theorem metricCost_scale (target measured : Profile) (ratio : UnitRatio) (changed : Metric) :
    metricCost (target.scale ratio changed) (measured.scale ratio changed) =
      metricCost target measured := by
  funext metric
  cases changed with
  | counter changed =>
      cases metric with
      | counter metric =>
          by_cases same : metric = changed
          · subst same
            simp only [metricCost, Profile.scale, Function.update_self, pairCost_scale]
          · simp only [metricCost, Profile.scale, Function.update_of_ne same]
      | mrc => rfl
      | ipc => rfl
  | mrc =>
      cases metric with
      | counter metric => rfl
      | mrc => exact curveCost_scale _ _ ratio
      | ipc => rfl
  | ipc =>
      cases metric with
      | counter metric => rfl
      | mrc => rfl
      | ipc => exact curveCost_scale _ _ ratio

theorem metricCost_upTo_one (target measured : Profile) (metric : Metric) :
    UpTo 1 (metricCost target measured metric) := by
  cases metric with
  | counter metric => exact pairCost_upTo_one _ _
  | mrc => exact curveCost_upTo_one _ _
  | ipc => exact curveCost_upTo_one _ _

/-! ## The laws -/

/-- What the optimizer takes for granted about the cost of two profiles. -/
structure CostLaws (target measured : Profile) : Prop where
  symmetric : profileCost target measured = profileCost measured target
  zero_of_same : measured = target →
    ∃ costs, profileCost target measured = .ok costs ∧ costs.totalCost = 0
  unit_free : ∀ ratio metric,
    profileCost (target.scale ratio metric) (measured.scale ratio metric) =
      profileCost target measured
  unit_interval : ∀ costs, profileCost target measured = .ok costs → ∀ metric,
    costs.subcost metric ≠ nan → ∃ d, 0 ≤ d ∧ d ≤ 1 ∧ costs.subcost metric = num d

theorem profileCost_comm (target measured : Profile) :
    profileCost target measured = profileCost measured target := by
  by_cases stats : target.HasCurveStats ∧ measured.HasCurveStats
  · rw [profileCost_eq stats.1 stats.2, profileCost_eq stats.2 stats.1, metricCost_comm]
  · rw [profileCost_eq_error stats, profileCost_eq_error fun both => stats both.symm]

theorem profileCost_scale (target measured : Profile) (ratio : UnitRatio) (metric : Metric) :
    profileCost (target.scale ratio metric) (measured.scale ratio metric) =
      profileCost target measured := by
  have target_iff := target.hasCurveStats_scale_iff ratio metric
  have measured_iff := measured.hasCurveStats_scale_iff ratio metric
  by_cases stats : target.HasCurveStats ∧ measured.HasCurveStats
  · rw [profileCost_eq stats.1 stats.2,
      profileCost_eq (target_iff.mpr stats.1) (measured_iff.mpr stats.2), metricCost_scale]
  · rw [profileCost_eq_error stats, profileCost_eq_error]
    rwa [target_iff, measured_iff]

/-- A profile with curve statistics has no cost against itself. -/
theorem profileCost_self {profile : Profile} (stats : profile.HasCurveStats) :
    ∃ costs, profileCost profile profile = .ok costs ∧ costs.totalCost = 0 := by
  have cost := profileCost_eq stats stats
  refine ⟨_, cost, (totalCost_eq_zero_iff cost).mpr fun metric => .inr ?_⟩
  cases metric with
  | counter metric => exact fun _ => rfl
  | mrc => exact fun _ _ => rfl
  | ipc => exact fun _ _ => rfl

theorem subcost_upTo_one {target measured : Profile} {costs : Costs}
    (cost : profileCost target measured = .ok costs) (metric : Metric) :
    UpTo 1 (costs.subcost metric) := by
  by_cases stats : target.HasCurveStats ∧ measured.HasCurveStats
  · rw [profileCost_eq stats.1 stats.2] at cost
    cases cost
    exact metricCost_upTo_one target measured metric
  · rw [profileCost_eq_error stats] at cost
    cases cost

/-- The laws hold of two profiles, except when both are the same one and one of its curves is
zero everywhere. -/
theorem costLaws_iff (target measured : Profile) :
    CostLaws target measured ↔
      (measured = target → ¬ target.mrcs.AllZero ∧ ¬ target.ipcs.AllZero) := by
  constructor
  · intro laws same
    obtain ⟨costs, cost, -⟩ := laws.zero_of_same same
    subst same
    rw [← Profile.hasCurveStats_iff]
    by_contra missing
    rw [profileCost_eq_error fun both => missing both.1] at cost
    cases cost
  · intro curves
    refine ⟨profileCost_comm _ _, ?_, profileCost_scale _ _, ?_⟩
    · rintro rfl
      exact profileCost_self ((Profile.hasCurveStats_iff _).mpr (curves rfl))
    · intro costs cost metric isNumber
      exact (subcost_upTo_one cost metric).resolve_left isNumber

/-- A workload without a single miss at any way. -/
def fittingEverywhere : Profile where
  counter := (fittingProfile 0 le_rfl).counter
  mrcs := ⟨List.replicate 2 fun _ => 0, by simp, by simp⟩
  ipcs := (fittingProfile 0 le_rfl).ipcs

/-- The cost of a workload without misses against itself is not zero: it raises. -/
theorem no_cost_without_misses : ¬ CostLaws fittingEverywhere fittingEverywhere := by
  intro laws
  obtain ⟨costs, cost, -⟩ := laws.zero_of_same rfl
  have raised : profileCost fittingEverywhere fittingEverywhere = .error .keyError := rfl
  rw [raised] at cost
  cases cost

end Datamime.Search
