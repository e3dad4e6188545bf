/-
# What a cost of zero says

The optimizer drives the total cost to zero, so a zero has to mean that the two
profiles are alike. This module computes what it means. The cost of a metric is
not a number exactly when the metric is degenerate: for a counter metric when
both samples are all zero, for a curve when that is so at some single way. The
total is zero exactly when every metric is degenerate or agrees.

For a counter metric the two cases coincide. For a curve they do not: one
degenerate way hides whatever the curves do at the other ways.
-/

import Datamime.Search.CostModel
import Mathlib

namespace Datamime.Search

open Datamime.Math Datamime.Math.ERat

/-! ## Profiles with usable samples -/

/-- At least two finite non-negative measurements. -/
structure Sample where
  values : List ℚ
  two_le : 2 ≤ values.length
  nonneg : ∀ q ∈ values, 0 ≤ q

/-- A curve over twelve ways with at least two non-negative estimates. -/
structure Curve where
  estimates : List (Fin 12 → ℚ)
  two_le : 2 ≤ estimates.length
  nonneg : ∀ estimate ∈ estimates, ∀ w, 0 ≤ estimate w

/-- The sample of a curve at one way. -/
def Curve.at (curve : Curve) (w : Fin 12) : Sample where
  values := curve.estimates.map (· w)
  two_le := by simpa using curve.two_le
  nonneg := by
    intro q isMember
    obtain ⟨estimate, listed, rfl⟩ := List.mem_map.mp isMember
    exact curve.nonneg estimate listed w

/-- The array that the scripts load for a curve. -/
def Curve.toCurves (curve : Curve) : Curves where
  ways := 12
  rows := curve.estimates.map fun estimate => List.ofFn fun w => num (estimate w)
  rectangular := by simp

/-- What the search compares: eight samples and two curves. -/
structure Profile where
  counter : CounterMetric → Sample
  mrcs : Curve
  ipcs : Curve

/-- The statistics of a profile. -/
def Profile.stats (profile : Profile) : Stats where
  samples metric := (profile.counter metric).values.map num
  curveStats := curveStats profile.mrcs.toCurves profile.ipcs.toCurves

/-- The cost of a measured profile against a target. -/
def profileCost (target measured : Profile) : Except PyError Costs :=
  calculateCost target.stats target.mrcs.toCurves target.ipcs.toCurves
    measured.stats measured.mrcs.toCurves measured.ipcs.toCurves

/-- Two samples stand for the same distribution. -/
def Sample.Same (s t : Sample) : Prop := Empirical.SameDistribution s.values t.values

/-- Both samples are all zero. -/
def Sample.BothZero (s t : Sample) : Prop := ∀ q ∈ s.values ++ t.values, q = 0

/-- A metric agrees in two profiles; a curve agrees when it does at every way. -/
def Profile.Agrees (target measured : Profile) : Metric → Prop
  | .counter metric => (measured.counter metric).Same (target.counter metric)
  | .mrc => ∀ w, (measured.mrcs.at w).Same (target.mrcs.at w)
  | .ipc => ∀ w, (measured.ipcs.at w).Same (target.ipcs.at w)

/-- A metric normalizes zero by zero somewhere. -/
def Profile.Degenerate (target measured : Profile) : Metric → Prop
  | .counter metric => (measured.counter metric).BothZero (target.counter metric)
  | .mrc => ∃ w, (measured.mrcs.at w).BothZero (target.mrcs.at w)
  | .ipc => ∃ w, (measured.ipcs.at w).BothZero (target.ipcs.at w)

/-- The curves of the profile are good for statistics: neither is zero everywhere. -/
def Profile.HasCurveStats (profile : Profile) : Prop := profile.stats.curveStats.isSome

/-! ## The cost of one pair of samples -/

theorem Sample.values_ne_nil (s : Sample) : s.values ≠ [] := by
  intro isEmpty
  have := s.two_le
  simp [isEmpty] at this

/-- The running maximum of finite numbers is one of them and bounds them. -/
theorem foldl_npMaximum_map_num (rest : List ℚ) (first : ℚ) :
    ∃ top ∈ first :: rest, (∀ entry ∈ first :: rest, entry ≤ top) ∧
      (rest.map num).foldl npMaximum (num first) = num top := by
  induction rest generalizing first with
  | nil => exact ⟨first, by simp, by simp, rfl⟩
  | cons next rest ih =>
      have step :
          npMaximum (num first) (num next) = num (if first < next then next else first) := by
        by_cases larger : first < next <;> simp [npMaximum, lt, larger]
      rw [List.map_cons, List.foldl_cons, step]
      obtain ⟨top, isMember, bound, value⟩ := ih (if first < next then next else first)
      have two : first ≤ top ∧ next ≤ top := by
        have kept := bound (if first < next then next else first) (by simp)
        split at kept
        · exact ⟨by linarith, kept⟩
        · exact ⟨kept, by linarith⟩
      refine ⟨top, ?_, ?_, value⟩
      · rcases List.mem_cons.mp isMember with rfl | isMember
        · split <;> simp
        · simp [isMember]
      · intro entry listed
        rcases List.mem_cons.mp listed with rfl | listed
        · exact two.1
        · rcases List.mem_cons.mp listed with rfl | listed
          · exact two.2
          · exact bound entry (List.mem_cons_of_mem _ listed)

theorem npMax_map_num {entries : List ℚ} (nonempty : entries ≠ []) :
    ∃ top ∈ entries, (∀ entry ∈ entries, entry ≤ top) ∧
      npMax (entries.map num) = .ok (num top) := by
  cases entries with
  | nil => exact absurd rfl nonempty
  | cons first rest =>
      obtain ⟨top, isMember, bound, value⟩ := foldl_npMaximum_map_num rest first
      exact ⟨top, isMember, bound, by rw [List.map_cons, npMax, value]⟩

/-- Normalization divides both samples by the largest of all entries. -/
theorem normalizeSamples_map_num {s t : List ℚ} (s_nonempty : s ≠ []) (t_nonempty : t ≠ []) :
    ∃ top ∈ s ++ t, (∀ entry ∈ s ++ t, entry ≤ top) ∧
      normalizeSamples (s.map num) (t.map num) =
        .ok ((s.map num).map (· / num top), (t.map num).map (· / num top)) := by
  obtain ⟨max1, max1_mem, max1_bound, max1_eq⟩ := npMax_map_num s_nonempty
  obtain ⟨max2, max2_mem, max2_bound, max2_eq⟩ := npMax_map_num t_nonempty
  have larger : stdMax (num max1) (num max2) = num (if max1 < max2 then max2 else max1) := by
    by_cases less : max1 < max2 <;> simp [stdMax, lt, less]
  refine ⟨if max1 < max2 then max2 else max1, ?_, ?_, ?_⟩
  · split
    · exact List.mem_append_right _ max2_mem
    · exact List.mem_append_left _ max1_mem
  · intro entry isMember
    rcases List.mem_append.mp isMember with listed | listed
    · have := max1_bound entry listed
      split <;> linarith
    · have := max2_bound entry listed
      split <;> linarith
  · rw [← larger, normalizeSamples, max1_eq, max2_eq]
    rfl

theorem finiteEntries_map_num (entries : List ℚ) :
    finiteEntries (entries.map num) = some entries := by
  induction entries with
  | nil => rfl
  | cons first rest ih => rw [List.map_cons, finiteEntries, ih, Option.map_some]

theorem finiteEntries_of_nan_mem {entries : List ERat} (isMember : nan ∈ entries) :
    finiteEntries entries = none := by
  induction entries with
  | nil => simp at isMember
  | cons first rest ih =>
      cases first with
      | num q =>
          have later : nan ∈ rest := by simpa using isMember
          rw [finiteEntries, ih later, Option.map_none]
      | inf s => rfl
      | nan => rfl

/-- How a cost speaks about a metric: it is not a number when the metric is
degenerate, and otherwise a non-negative number that vanishes precisely when the
metric agrees. -/
def Judges (cost : ERat) (degenerate agrees : Prop) : Prop :=
  (degenerate ∧ cost = nan) ∨ (¬ degenerate ∧ ∃ d, 0 ≤ d ∧ cost = num d ∧ (d = 0 ↔ agrees))

/-- The distance of two samples after both were divided by a number; zero by zero is not a
number. -/
def scaledDistance (top : ℚ) (s t : Sample) : ERat :=
  if top = 0 then nan
  else num (Empirical.distance (s.values.map (· / top)) (t.values.map (· / top)))

/-- A largest entry of two samples. -/
def Sample.IsTop (s t : Sample) (top : ℚ) : Prop :=
  top ∈ s.values ++ t.values ∧ ∀ entry ∈ s.values ++ t.values, entry ≤ top

theorem Sample.nonneg_append (s t : Sample) : ∀ entry ∈ s.values ++ t.values, 0 ≤ entry := by
  intro entry isMember
  rcases List.mem_append.mp isMember with listed | listed
  · exact s.nonneg entry listed
  · exact t.nonneg entry listed

theorem Sample.IsTop.unique {s t : Sample} {top other : ℚ} (isTop : s.IsTop t top)
    (isOther : s.IsTop t other) : top = other :=
  le_antisymm (isOther.2 top isTop.1) (isTop.2 other isOther.1)

theorem Sample.IsTop.nonneg {s t : Sample} {top : ℚ} (isTop : s.IsTop t top) : 0 ≤ top :=
  s.nonneg_append t top isTop.1

/-- The largest entry is zero precisely if all entries are. -/
theorem Sample.IsTop.eq_zero_iff {s t : Sample} {top : ℚ} (isTop : s.IsTop t top) :
    top = 0 ↔ s.BothZero t := by
  constructor
  · intro zero entry isMember
    exact le_antisymm (zero ▸ isTop.2 entry isMember) (s.nonneg_append t entry isMember)
  · exact fun allZero => allZero top isTop.1

/-- The cost of one pair of samples is their distance after both were divided by their largest
entry. -/
theorem sampleCost_of_isTop {s t : Sample} {top : ℚ} (isTop : s.IsTop t top) :
    sampleCost (s.values.map num) (t.values.map num) = .ok (scaledDistance top s t) := by
  obtain ⟨other, other_mem, bound, normalized⟩ :=
    normalizeSamples_map_num s.values_ne_nil t.values_ne_nil
  obtain rfl : top = other := isTop.unique ⟨other_mem, bound⟩
  rw [sampleCost, normalized, ok_bind, scaledDistance]
  dsimp only
  by_cases zero : top = 0
  · -- Every entry is zero, so the first one already becomes zero by zero.
    obtain ⟨first, isFirst⟩ := List.exists_mem_of_ne_nil _ s.values_ne_nil
    have first_zero := isTop.eq_zero_iff.mp zero first (List.mem_append_left _ isFirst)
    have spoiled : nan ∈ (s.values.map num).map (· / num top) := by
      rw [List.map_map, List.mem_map]
      exact ⟨first, isFirst, by rw [first_zero, zero]; rfl⟩
    rw [if_pos zero, statisticalDistance, wassersteinDistance, finiteEntries_of_nan_mem spoiled]
    rfl
  · have scaled (entries : List ℚ) : (entries.map num).map (· / num top) =
        (entries.map (· / top)).map num := by
      rw [List.map_map, List.map_map]
      exact List.map_congr_left fun entry _ => num_div_num zero
    rw [if_neg zero, scaled, scaled, statisticalDistance, wassersteinDistance,
      finiteEntries_map_num, finiteEntries_map_num]
    rfl

/-- The largest entry of two samples. -/
def Sample.top (s t : Sample) : ℚ :=
  (s.values ++ t.values).maximum_of_length_pos (by
    have := s.two_le
    rw [List.length_append]
    omega)

theorem Sample.isTop_top (s t : Sample) : s.IsTop t (s.top t) :=
  ⟨List.maximum_of_length_pos_mem _, fun _ isMember =>
    List.le_maximum_of_length_pos_of_mem isMember _⟩

/-- The cost of one pair of samples. -/
def pairCost (s t : Sample) : ERat := scaledDistance (s.top t) s t

theorem sampleCost_eq (s t : Sample) :
    sampleCost (s.values.map num) (t.values.map num) = .ok (pairCost s t) :=
  sampleCost_of_isTop (s.isTop_top t)

/-- The cost of one pair of samples judges it. -/
theorem pairCost_judges (s t : Sample) : Judges (pairCost s t) (s.BothZero t) (s.Same t) := by
  have isTop := s.isTop_top t
  rw [pairCost, scaledDistance]
  split
  · rename_i zero
    exact .inl ⟨isTop.eq_zero_iff.mp zero, rfl⟩
  · rename_i nonzero
    have positive : 0 < s.top t := lt_of_le_of_ne isTop.nonneg (Ne.symm nonzero)
    refine .inr ⟨fun allZero => nonzero (isTop.eq_zero_iff.mpr allZero), _,
      Empirical.distance_nonneg _ _, rfl, ?_⟩
    rw [Empirical.distance_eq_zero_iff (by simpa using s.values_ne_nil)
      (by simpa using t.values_ne_nil), Empirical.sameDistribution_map_div_iff positive]
    rfl

theorem Judges.add {cost cost' : ERat} {degenerate degenerate' agrees agrees' : Prop}
    (first : Judges cost degenerate agrees) (second : Judges cost' degenerate' agrees') :
    Judges (cost + cost') (degenerate ∨ degenerate') (agrees ∧ agrees') := by
  rcases first with ⟨isDegenerate, rfl⟩ | ⟨notDegenerate, d, d_nonneg, rfl, d_zero⟩
  · exact .inl ⟨.inl isDegenerate, nan_add _⟩
  · rcases second with ⟨isDegenerate, rfl⟩ | ⟨notDegenerate', d', d'_nonneg, rfl, d'_zero⟩
    · exact .inl ⟨.inr isDegenerate, add_nan _⟩
    · refine .inr ⟨by tauto, d + d', add_nonneg d_nonneg d'_nonneg, rfl, ?_⟩
      rw [add_eq_zero_iff_of_nonneg d_nonneg d'_nonneg, d_zero, d'_zero]

theorem Judges.div {cost : ERat} {degenerate agrees : Prop}
    (judges : Judges cost degenerate agrees) {n : ℕ} (positive : 0 < n) :
    Judges (cost / num n) degenerate agrees := by
  have cast_pos : (0 : ℚ) < n := by exact_mod_cast positive
  rcases judges with ⟨isDegenerate, rfl⟩ | ⟨notDegenerate, d, d_nonneg, rfl, d_zero⟩
  · exact .inl ⟨isDegenerate, nan_div _⟩
  · refine .inr ⟨notDegenerate, d / n, div_nonneg d_nonneg cast_pos.le,
      num_div_num cast_pos.ne', ?_⟩
    rw [div_eq_zero_iff, d_zero]
    exact or_iff_left cast_pos.ne'

/-! ## The curves -/

theorem Curve.column_toCurves (curve : Curve) (w : Fin 12) :
    curve.toCurves.column w = .ok ((curve.at w).values.map num) := by
  rw [Curves.column, if_pos (show (w : ℕ) < curve.toCurves.ways from w.isLt)]
  simp only [Curve.toCurves, Curve.at, List.map_map]
  congr 1
  refine List.map_congr_left fun estimate _ => ?_
  show (List.ofFn fun w => num (estimate w)).getD w nan = num (estimate w)
  rw [List.getD_eq_getElem?_getD, List.getElem?_ofFn, dif_pos w.isLt, Option.getD_some]

/-- The cost of a curve at some ways, added to what was there. -/
def addWays (measured target : Curve) (ws : List (Fin 12)) (cost : ERat) : ERat :=
  ws.foldl (fun cost w => cost + pairCost (measured.at w) (target.at w)) cost

/-- The loop over the ways adds up the costs of both curves. -/
theorem sumWays_eq (target measured : Profile) (ws : List (Fin 12)) (mrcCost ipcCost : ERat) :
    sumWays measured.mrcs.toCurves measured.ipcs.toCurves target.mrcs.toCurves
        target.ipcs.toCurves (ws.map (·.val)) (mrcCost, ipcCost) =
      .ok (addWays measured.mrcs target.mrcs ws mrcCost,
        addWays measured.ipcs target.ipcs ws ipcCost) := by
  induction ws generalizing mrcCost ipcCost with
  | nil => rfl
  | cons w rest ih =>
      rw [List.map_cons, sumWays]
      simp only [Curve.column_toCurves, sampleCost_eq, ok_bind]
      exact ih _ _

/-- The cost of the ways so far judges all of them. -/
theorem addWays_judges (measured target : Curve) (ws : List (Fin 12)) {cost : ERat}
    {degenerate agrees : Prop} (start : Judges cost degenerate agrees) :
    Judges (addWays measured target ws cost)
      (degenerate ∨ ∃ w ∈ ws, (measured.at w).BothZero (target.at w))
      (agrees ∧ ∀ w ∈ ws, (measured.at w).Same (target.at w)) := by
  induction ws generalizing cost degenerate agrees with
  | nil => simpa [addWays] using start
  | cons w rest ih =>
      rw [addWays, List.foldl_cons]
      have later := ih (start.add (pairCost_judges (measured.at w) (target.at w)))
      rw [addWays] at later
      simpa [or_assoc, and_assoc] using later

/-- The cost of a curve: the mean over its ways. -/
def curveCost (measured target : Curve) : ERat :=
  addWays measured target (List.finRange 12) 0 / num (12 : ℕ)

theorem curveCost_judges (measured target : Curve) :
    Judges (curveCost measured target) (∃ w, (measured.at w).BothZero (target.at w))
      (∀ w, (measured.at w).Same (target.at w)) := by
  have nothingYet : Judges 0 False True := .inr ⟨not_false, 0, le_rfl, rfl, by simp⟩
  have all := (addWays_judges measured target (List.finRange 12) nothingYet).div
    (show 0 < 12 by norm_num)
  rw [curveCost]
  simpa using all

/-! ## The total -/

/-- Adding judged sub-costs to a number gives a number, and it stays zero exactly
as long as every metric is degenerate or agrees. -/
theorem addCosts_judged {subcost : Metric → ERat} {degenerate agrees : Metric → Prop}
    (judges : ∀ metric, Judges (subcost metric) (degenerate metric) (agrees metric))
    (metrics : List Metric) {total : ℚ} (total_nonneg : 0 ≤ total) :
    ∃ sum, addCosts subcost metrics (num total) = num sum ∧
      (sum = 0 ↔ total = 0 ∧ ∀ metric ∈ metrics, degenerate metric ∨ agrees metric) := by
  induction metrics generalizing total with
  | nil => exact ⟨total, rfl, by simp⟩
  | cons metric rest ih =>
      rcases judges metric with ⟨isDegenerate, isNan⟩ | ⟨notDegenerate, d, d_nonneg, value, d_zero⟩
      · obtain ⟨sum, sum_eq, sum_zero⟩ := ih total_nonneg
        refine ⟨sum, by rw [addCosts, isNan]; exact sum_eq, ?_⟩
        rw [sum_zero]
        simp [isDegenerate]
      · obtain ⟨sum, sum_eq, sum_zero⟩ := ih (add_nonneg total_nonneg d_nonneg)
        refine ⟨sum, ?_, ?_⟩
        · have step : num total + num d * num 1 = num (total + d) := by
            show num (total + d * 1) = num (total + d)
            rw [mul_one]
          rw [addCosts, value, if_neg (by simp), if_neg (by simp [skip]), weights, step]
          exact sum_eq
        · rw [sum_zero, add_eq_zero_iff_of_nonneg total_nonneg d_nonneg, d_zero]
          simp only [List.forall_mem_cons]
          tauto

/-- The cost of a metric. -/
def metricCost (target measured : Profile) : Metric → ERat
  | .counter metric => pairCost (measured.counter metric) (target.counter metric)
  | .mrc => curveCost measured.mrcs target.mrcs
  | .ipc => curveCost measured.ipcs target.ipcs

/-- With the statistics of both profiles at hand, a cost is the costs of the metrics and the sum
of those that are numbers. -/
theorem profileCost_eq {target measured : Profile} (target_stats : target.HasCurveStats)
    (measured_stats : measured.HasCurveStats) :
    profileCost target measured = .ok ⟨metricCost target measured,
      addCosts (metricCost target measured) Metric.all 0⟩ := by
  have counters : (CounterMetric.all.mapM fun metric => do
      let cost ← sampleCost (measured.stats.samples metric) (target.stats.samples metric)
      return (metric, cost) : Except PyError _) =
        .ok (CounterMetric.all.map fun metric =>
          (metric, pairCost (measured.counter metric) (target.counter metric))) := by
    simp only [Profile.stats, sampleCost_eq]
    rfl
  have ways : (List.finRange 12).map (·.val) = List.range 12 := by decide
  have stats_some :
      (target.stats.curveStats.isNone || measured.stats.curveStats.isNone) = false := by
    simp only [Profile.HasCurveStats] at target_stats measured_stats
    simp [target_stats, measured_stats]
  have curve_eq := sumWays_eq target measured (List.finRange 12) 0 0
  rw [ways] at curve_eq
  have assigned : subcostOf
      (fun metric => ((CounterMetric.all.map fun metric =>
        (metric, pairCost (measured.counter metric) (target.counter metric))).lookup
          metric).getD nan)
      (curveCost measured.mrcs target.mrcs) (curveCost measured.ipcs target.ipcs) =
      metricCost target measured := by
    funext metric
    rcases metric with metric | _ | _
    · cases metric <;> rfl
    · rfl
    · rfl
  rw [profileCost, calculateCost, stats_some, counters]
  show (sumWays _ _ _ _ (List.range 12) (0, 0) >>= _) = _
  rw [curve_eq, ← assigned]
  rfl

/-- The cost of every metric judges that metric. -/
theorem metricCost_judges (target measured : Profile) (metric : Metric) :
    Judges (metricCost target measured metric) (target.Degenerate measured metric)
      (target.Agrees measured metric) := by
  rcases metric with metric | _ | _
  · exact pairCost_judges _ _
  · exact curveCost_judges _ _
  · exact curveCost_judges _ _

/-! ## Zero -/

/-- Two profiles are alike when every metric agrees. -/
def Profile.SameAs (target measured : Profile) : Prop := ∀ metric, target.Agrees measured metric

/-- Differences that no cost shows: the counter metrics agree, each curve agrees
or is degenerate at some way, and yet one of the curves differs. -/
structure BlindSpot (target measured : Profile) : Prop where
  target_stats : target.HasCurveStats
  measured_stats : measured.HasCurveStats
  counters_agree : ∀ metric, target.Agrees measured (.counter metric)
  mrc_silent : target.Degenerate measured .mrc ∨ target.Agrees measured .mrc
  ipc_silent : target.Degenerate measured .ipc ∨ target.Agrees measured .ipc
  curve_differs : ¬ (target.Agrees measured .mrc ∧ target.Agrees measured .ipc)

/-- Two all-zero samples stand for the same distribution. -/
theorem Sample.BothZero.same {s t : Sample} (bothZero : s.BothZero t) : s.Same t := by
  apply Empirical.sameDistribution_of_agree
  intro entry isMember
  have zero := bothZero entry isMember
  rw [Empirical.cdf_eq_one s.values_ne_nil, Empirical.cdf_eq_one t.values_ne_nil]
  · intro other listed
    rw [zero, bothZero other (List.mem_append_right _ listed)]
  · intro other listed
    rw [zero, bothZero other (List.mem_append_left _ listed)]

theorem profileCost_eq_error {target measured : Profile}
    (missing : ¬ (target.HasCurveStats ∧ measured.HasCurveStats)) :
    profileCost target measured = .error .keyError := by
  have isNone : (target.stats.curveStats.isNone || measured.stats.curveStats.isNone) = true := by
    rw [Bool.or_eq_true]
    by_contra both
    rw [not_or] at both
    exact missing ⟨by simpa [Profile.HasCurveStats, Option.isSome_iff_ne_none] using both.1,
      by simpa [Profile.HasCurveStats, Option.isSome_iff_ne_none] using both.2⟩
  rw [profileCost, calculateCost, isNone]
  rfl

/-- The total cost is zero exactly when every metric is degenerate or agrees. -/
theorem totalCost_eq_zero_iff {target measured : Profile} {costs : Costs}
    (cost : profileCost target measured = .ok costs) :
    costs.totalCost = 0 ↔
      ∀ metric, target.Degenerate measured metric ∨ target.Agrees measured metric := by
  by_cases stats : target.HasCurveStats ∧ measured.HasCurveStats
  · rw [profileCost_eq stats.1 stats.2] at cost
    cases cost
    obtain ⟨sum, sum_eq, sum_zero⟩ :=
      addCosts_judged (metricCost_judges target measured) Metric.all le_rfl
    have total_num : addCosts (metricCost target measured) Metric.all 0 = num sum := sum_eq
    have zero_num : (num sum = 0) ↔ sum = 0 := ⟨fun same => ERat.num.inj same, congrArg num⟩
    dsimp only
    rw [total_num, zero_num, sum_zero]
    exact ⟨fun both metric => both.2 metric metric.mem_all,
      fun all => ⟨rfl, fun metric _ => all metric⟩⟩
  · rw [profileCost_eq_error stats] at cost
    cases cost

/-- A total cost of zero means that the profiles are alike, except in a blind spot. -/
theorem sameAs_of_zero_cost_iff_not_blindSpot (target measured : Profile) :
    (∀ costs, profileCost target measured = .ok costs → costs.totalCost = 0 →
      target.SameAs measured) ↔ ¬ BlindSpot target measured := by
  constructor
  · intro separates blind
    have cost := profileCost_eq blind.target_stats blind.measured_stats
    have zero := (totalCost_eq_zero_iff cost).mpr fun metric => by
      rcases metric with metric | _ | _
      · exact .inr (blind.counters_agree metric)
      · exact blind.mrc_silent
      · exact blind.ipc_silent
    have same := separates _ cost zero
    exact blind.curve_differs ⟨same .mrc, same .ipc⟩
  · intro noBlindSpot costs cost zero
    have silent := (totalCost_eq_zero_iff cost).mp zero
    have stats : target.HasCurveStats ∧ measured.HasCurveStats := by
      by_contra missing
      rw [profileCost_eq_error missing] at cost
      cases cost
    have counters (metric : CounterMetric) : target.Agrees measured (.counter metric) :=
      (silent (.counter metric)).elim Sample.BothZero.same id
    by_contra differs
    refine noBlindSpot ⟨stats.1, stats.2, counters, silent .mrc, silent .ipc, fun curves => ?_⟩
    refine differs fun metric => ?_
    rcases metric with metric | _ | _
    · exact counters metric
    · exact curves.1
    · exact curves.2

/-- Equal counters and equal instructions per cycle, and a miss curve that is
zero with all twelve ways and equal to `misses` with fewer. -/
def fittingProfile (misses : ℚ) (nonneg : 0 ≤ misses) : Profile where
  counter _ := ⟨[1, 1], by decide, by norm_num⟩
  mrcs := {
    estimates := List.replicate 2 fun w => if w = 11 then 0 else misses
    two_le := by simp
    nonneg := by
      intro estimate isMember w
      rw [List.eq_of_mem_replicate isMember]
      show 0 ≤ if w = 11 then 0 else misses
      split
      · exact le_rfl
      · exact nonneg }
  ipcs := ⟨List.replicate 2 fun _ => 1, by simp, by simp⟩

/-- Five and seven misses per way cost nothing, because both working sets fit. -/
theorem zero_cost_of_different_miss_curves :
    ∃ costs, profileCost (fittingProfile 5 (by norm_num)) (fittingProfile 7 (by norm_num)) =
        .ok costs ∧ costs.totalCost = 0 ∧
      ¬ (fittingProfile 5 (by norm_num)).SameAs (fittingProfile 7 (by norm_num)) := by
  have evaluated : (profileCost (fittingProfile 5 (by norm_num))
      (fittingProfile 7 (by norm_num))).map (·.totalCost) = .ok 0 := by decide +kernel
  obtain ⟨costs, cost⟩ : ∃ costs, profileCost (fittingProfile 5 (by norm_num))
      (fittingProfile 7 (by norm_num)) = .ok costs := by
    cases cost : profileCost (fittingProfile 5 (by norm_num)) (fittingProfile 7 (by norm_num)) with
    | ok costs => exact ⟨costs, rfl⟩
    | error error => simp [cost, Except.map] at evaluated
  refine ⟨costs, cost, by simpa [cost, Except.map] using evaluated, fun same => ?_⟩
  -- With one way the fractions of samples up to five already differ.
  have atFive := same .mrc 0 5
  revert atFive
  decide +kernel

end Datamime.Search
