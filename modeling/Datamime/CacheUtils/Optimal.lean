/-
# Optimal allocation on convex curves

On convex miss curves one way more never has a worse utility than a larger block,
so each round gives one way to an application that saves most with it. Such a
greedy division has the least total of misses.
-/

import Datamime.CacheUtils.Ucp
import Datamime.Math.ConvexAllocation

namespace Datamime.CacheUtils

open Datamime.Math

/-- The value of a curve at a number of ways. -/
def valueAt (curve : List ℚ) (ways : ℕ) : ℚ := curve.getD (ways - 1) 0

/-- The misses of an application with a number of ways. -/
def CurveMatrix.mpki (matrix : CurveMatrix ℚ) (a : Fin matrix.numApps) (ways : ℕ) : ℚ :=
  valueAt matrix.columns[a] ways

/-- One way more never raises the value. -/
def NonIncreasing (curve : List ℚ) : Prop :=
  ∀ ways, 1 ≤ ways → ways + 1 ≤ curve.length → valueAt curve (ways + 1) ≤ valueAt curve ways

/-- The changes with one way more never fall. -/
def Convex (curve : List ℚ) : Prop := ConvexBetween 1 curve.length (valueAt curve)

/-- Every application gets a way, and all ways are given. -/
def IsDivision (matrix : CurveMatrix ℚ) (ways : Fin matrix.numApps → ℕ) : Prop :=
  (∀ a, 1 ≤ ways a) ∧ ∑ a, ways a = matrix.nRows

/-! ## Curves that smoothing leaves -/

section

variable {curve : List ℚ}

theorem readCurve_eq_valueAt {ways : ℕ} (some_way : 1 ≤ ways) (within : ways ≤ curve.length) :
    readCurve curve ((ways : ℤ) - 1) = .ok (valueAt curve ways) := by
  have inside : ways - 1 < curve.length := by omega
  have isIndex : ((ways : ℤ) - 1).toNat = ways - 1 := by omega
  rw [readCurve, if_pos (by omega), isIndex, valueAt, List.getD_eq_getElem?_getD,
    List.getElem?_eq_getElem inside]
  rfl

theorem scanl_of_nonIncreasing {first : ℚ} {rest : List ℚ}
    (decreasing : NonIncreasing (first :: rest)) :
    rest.scanl (fun prevValue value => if exact.lt value prevValue then value else prevValue)
      first = first :: rest := by
  induction rest generalizing first with
  | nil => rfl
  | cons second rest ih =>
      have step : second ≤ first := decreasing 1 (le_refl 1) (by simp)
      have kept : (if exact.lt second first then second else first) = second := by
        by_cases falls : second < first
        · exact if_pos (decide_eq_true falls)
        · have same : second = first := le_antisymm step (not_lt.mp falls)
          rw [same, ite_self]
      have later : NonIncreasing (second :: rest) := by
        intro ways some_way within
        have shifted := decreasing (ways + 1) (by omega) (by simpa using within)
        obtain ⟨fewer, rfl⟩ : ∃ fewer, ways = fewer + 1 := ⟨ways - 1, by omega⟩
        exact shifted
      rw [List.scanl_cons, kept, ih later]

theorem smoothenMrcs_of_nonIncreasing {matrix : CurveMatrix ℚ}
    (decreasing : ∀ curve ∈ matrix.columns, NonIncreasing curve) :
    smoothenMrcs exact matrix = matrix := by
  obtain ⟨nRows, columns, sized⟩ := matrix
  have same : columns.map (smoothColumn fun prevValue value =>
      if exact.lt value prevValue then value else prevValue) = columns := by
    refine (List.map_congr_left fun curve isCurve => ?_).trans (List.map_id columns)
    cases curve with
    | nil => rfl
    | cons first rest => exact scanl_of_nonIncreasing (decreasing _ isCurve)
  rw [smoothenMrcs, smoothen]
  congr

/-! ## Single ways -/

theorem mrcUtility_eq {cur p : ℕ} (held : 1 ≤ cur) (within : cur + p ≤ curve.length) :
    mrcUtility exact curve cur p =
      .ok ((valueAt curve (cur + p) - valueAt curve cur) / p) := by
  have far := @readCurve_eq_valueAt curve (cur + p) (by omega) within
  rw [Nat.cast_add] at far
  rw [mrcUtility, far, ok_bind, readCurve_eq_valueAt held (by omega), ok_bind]
  rfl

/-- On a convex curve the search settles on one way. -/
theorem getMaxMarginalUtilMrcs_of_convex (decreasing : NonIncreasing curve) (convex : Convex curve)
    {cur parts : ℕ} (held : 1 ≤ cur) (some_part : 1 ≤ parts) (within : cur + parts ≤ curve.length) :
    getMaxMarginalUtilMrcs exact curve cur parts = .ok (slope (valueAt curve) cur, 1) := by
  have falls : slope (valueAt curve) cur ≤ 0 :=
    sub_nonpos.mpr (decreasing cur held (by omega))
  have first : tryPart exact (betterMrc exact) (mrcUtility exact curve cur)
      (exact.ofNat 1000, 0) 1 = .ok (slope (valueAt curve) cur, 1) := by
    rw [tryPart, mrcUtility_eq held (by omega), ok_bind]
    dsimp only
    rw [exact.sentinel, Bool.true_or, if_pos rfl, Nat.cast_one, div_one]
    rfl
  -- A larger block saves no more per way.
  have others : ∀ best : ℚ × ℕ, best = (slope (valueAt curve) cur, 1) →
      ∀ p ∈ List.range' 2 (parts - 1), ∃ next,
        tryPart exact (betterMrc exact) (mrcUtility exact curve cur) best p = .ok next ∧
          next = (slope (valueAt curve) cur, 1) := by
    rintro best rfl p isMember
    obtain ⟨above, below⟩ := List.mem_range'_1.mp isMember
    have mean := convex.slope_mul_le held (Nat.le_add_right cur p) (show cur + p ≤ _ by omega)
    rw [Nat.cast_add, add_sub_cancel_left] at mean
    have positive : (0 : ℚ) < p := by exact_mod_cast (by omega : 0 < p)
    have noBetter : slope (valueAt curve) cur ≤
        (valueAt curve (cur + p) - valueAt curve cur) / p := by
      rw [le_div_iff₀ positive, mul_comm]
      exact mean
    have notSentinel : slope (valueAt curve) cur ≠ 1000 := by linarith
    refine ⟨_, ?_, rfl⟩
    rw [tryPart, mrcUtility_eq held (by omega), ok_bind]
    have keeps : (exact.eq (slope (valueAt curve) cur) (exact.ofNat 1000) ||
        betterMrc exact ((valueAt curve (cur + p) - valueAt curve cur) / p)
          (slope (valueAt curve) cur)) = false := by
      rw [Bool.or_eq_false_iff]
      exact ⟨decide_eq_false notSentinel, decide_eq_false (not_lt.mpr noBetter)⟩
    dsimp only
    rw [keeps]
    rfl
  obtain ⟨last, isRun, rfl⟩ := exists_run_of_total others rfl
  obtain ⟨count, rfl⟩ : ∃ count, parts = count + 1 := ⟨parts - 1, by omega⟩
  rw [getMaxMarginalUtilMrcs, maxMarginalUtil, List.range'_succ, run_cons_of_ok first]
  exact isRun

end

/-! ## The greedy division -/

section

variable {matrix : CurveMatrix ℚ} {numLogicalCores : ℕ} {st : Allocation}

/-- The number of ways that each application holds. -/
def heldWays (matrix : CurveMatrix ℚ) (partitions : List Stack) (a : Fin matrix.numApps) : ℕ :=
  (partitions.getD a []).length

theorem heldWays_eq {a : Fin matrix.numApps} {partitions : List Stack} {stack : Stack}
    (isStack : partitions[(a : ℕ)]? = some stack) :
    heldWays matrix partitions a = stack.length := by
  rw [heldWays, List.getD_eq_getElem?_getD, isStack]
  rfl

theorem heldWays_set {a : Fin matrix.numApps} {partitions : List Stack}
    (within : (a : ℕ) < partitions.length) (stack : Stack) :
    heldWays matrix (partitions.set a stack) =
      Function.update (heldWays matrix partitions) a stack.length := by
  funext other
  by_cases same : other = a
  · subst same
    rw [Function.update_self, heldWays_eq (List.getElem?_set_self within)]
  · have different : (a : ℕ) ≠ other := fun equal => same (Fin.ext equal.symm)
    rw [Function.update_of_ne same, heldWays, heldWays, List.getD_eq_getElem?_getD,
      List.getElem?_set_ne different, ← List.getD_eq_getElem?_getD]

/-- Every curve is non-increasing and convex. -/
structure CurveMatrix.Regular (matrix : CurveMatrix ℚ) : Prop where
  decreasing : ∀ curve ∈ matrix.columns, NonIncreasing curve
  convex : ∀ curve ∈ matrix.columns, Convex curve

theorem CurveMatrix.Regular.convex_mpki (regular : matrix.Regular) (a : Fin matrix.numApps) :
    ConvexBetween 1 matrix.nRows (matrix.mpki a) := by
  have isCurve : matrix.columns[a] ∈ matrix.columns := List.getElem_mem _
  have isConvex := regular.convex _ isCurve
  rw [Convex, matrix.sized _ isCurve] at isConvex
  exact isConvex

/-- What an application saves with one way more. -/
def saving (matrix : CurveMatrix ℚ) (partitions : List Stack) (a : Fin matrix.numApps) : ℚ :=
  slope (matrix.mpki a) (heldWays matrix partitions a)

section

variable (regular : matrix.Regular)
  (divides : st.Divides matrix.numApps numLogicalCores matrix.nRows) (left : st.buckets ≠ [])
include regular divides left

theorem saving_nonpos (a : Fin matrix.numApps) : saving matrix st.partitions a ≤ 0 := by
  obtain ⟨stack, isStack, notEmpty⟩ := divides.held a a.isLt
  have isColumn : matrix.columns[a] ∈ matrix.columns := List.getElem_mem _
  have size := matrix.sized _ isColumn
  have held := List.length_pos_of_ne_nil notEmpty
  have some_left := List.length_pos_of_ne_nil left
  have within := divides.size_le isStack
  rw [saving, heldWays_eq isStack]
  exact sub_nonpos.mpr (regular.decreasing _ isColumn _ held (by omega))

/-- The best block of an application is one way. -/
theorem tryApp_of_regular (award : Award ℚ) (a : Fin matrix.numApps) :
    tryApp (mrcScheme exact) matrix st award a =
      .ok (if exact.eq award.maxMu (exact.ofNat 1000) ||
          betterMrc exact (saving matrix st.partitions a) award.maxMu
        then ⟨saving matrix st.partitions a, some a, 1⟩ else award) := by
  obtain ⟨stack, isStack, notEmpty⟩ := divides.held a a.isLt
  have isCurve : matrix.columns[(a : ℕ)]? = some matrix.columns[a] :=
    List.getElem?_eq_getElem a.isLt
  have isColumn : matrix.columns[a] ∈ matrix.columns := List.getElem_mem _
  have size := matrix.sized _ isColumn
  have held := List.length_pos_of_ne_nil notEmpty
  have some_left := List.length_pos_of_ne_nil left
  have within := divides.size_le isStack
  have isBest := getMaxMarginalUtilMrcs_of_convex (regular.decreasing _ isColumn)
    (regular.convex _ isColumn) held some_left (by omega)
  rw [saving, heldWays_eq isStack]
  exact tryApp_eq award isCurve isStack isBest

end

/-- The award after the first applications, of which one that saves most has it. -/
def Leads (matrix : CurveMatrix ℚ) (partitions : List Stack) (k : ℕ) (award : Award ℚ) : Prop :=
  k = 0 ∧ award = ⟨exact.ofNat 1000, none, 0⟩ ∨
    ∃ winner, award = ⟨saving matrix partitions winner, some winner, 1⟩ ∧
      ∀ a : Fin matrix.numApps, (a : ℕ) < k →
        saving matrix partitions winner ≤ saving matrix partitions a

/-- One application more. -/
theorem Leads.next {partitions : List Stack} {award : Award ℚ}
    (falls : ∀ a : Fin matrix.numApps, saving matrix partitions a ≤ 0)
    (last : Fin matrix.numApps) (leads : Leads matrix partitions last award) :
    Leads matrix partitions (last + 1)
      (if exact.eq award.maxMu (exact.ofNat 1000) ||
          betterMrc exact (saving matrix partitions last) award.maxMu
        then ⟨saving matrix partitions last, some last, 1⟩ else award) := by
  have upTo : ∀ a : Fin matrix.numApps, (a : ℕ) < last + 1 → (a : ℕ) < last ∨ a = last :=
    fun a isUpTo => (Nat.lt_succ_iff_lt_or_eq.mp isUpTo).imp_right Fin.ext
  refine .inr ?_
  rcases leads with ⟨isZero, rfl⟩ | ⟨winner, rfl, least⟩
  · rw [exact.sentinel, Bool.true_or, if_pos rfl]
    refine ⟨last, rfl, fun a isUpTo => ?_⟩
    rcases upTo a isUpTo with isEarlier | rfl
    · omega
    · exact le_refl _
  · have notSentinel : saving matrix partitions winner ≠ 1000 := by
      have bound := falls winner
      linarith
    have isNot : exact.eq (saving matrix partitions winner) (exact.ofNat 1000) = false :=
      decide_eq_false notSentinel
    rw [isNot, Bool.false_or]
    by_cases better : saving matrix partitions last < saving matrix partitions winner
    · rw [if_pos (show betterMrc exact _ _ = true from decide_eq_true better)]
      refine ⟨last, rfl, fun a isUpTo => ?_⟩
      rcases upTo a isUpTo with isEarlier | rfl
      · exact better.le.trans (least a isEarlier)
      · exact le_refl _
    · have stays : betterMrc exact (saving matrix partitions last)
          (saving matrix partitions winner) = false := decide_eq_false better
      rw [stays, if_neg Bool.false_ne_true]
      refine ⟨winner, rfl, fun a isUpTo => ?_⟩
      rcases upTo a isUpTo with isEarlier | rfl
      · exact least a isEarlier
      · exact not_lt.mp better

/-- The round finds an application that saves most with one way more. -/
theorem bestBlock_of_regular (regular : matrix.Regular)
    (divides : st.Divides matrix.numApps numLogicalCores matrix.nRows) (left : st.buckets ≠ [])
    (some_app : 1 ≤ matrix.numApps) :
    ∃ winner : Fin matrix.numApps,
      bestBlock (mrcScheme exact) matrix st =
        .ok ⟨slope (matrix.mpki winner) (heldWays matrix st.partitions winner), some winner, 1⟩ ∧
      ∀ a, slope (matrix.mpki winner) (heldWays matrix st.partitions winner) ≤
        slope (matrix.mpki a) (heldWays matrix st.partitions a) := by
  obtain ⟨award, isRun, leads⟩ : ∃ award, bestBlock (mrcScheme exact) matrix st = .ok award ∧
      Leads matrix st.partitions matrix.numApps award := by
    refine @exists_run_range _ _ (tryApp (mrcScheme exact) matrix st)
      (Leads matrix st.partitions) _ matrix.numApps (.inl ⟨rfl, rfl⟩)
      fun k isBelow award soFar => ?_
    exact ⟨_, tryApp_of_regular regular divides left award ⟨k, isBelow⟩,
      soFar.next (saving_nonpos regular divides left) ⟨k, isBelow⟩⟩
  rcases leads with ⟨isZero, -⟩ | ⟨winner, rfl, least⟩
  · omega
  · exact ⟨winner, isRun, fun a => least a a.isLt⟩

/-- What the rounds keep: the ways stay divided, and no application's last way saved less than
another would save with one more. -/
structure Allocation.Fair (matrix : CurveMatrix ℚ) (numLogicalCores : ℕ) (st : Allocation) :
    Prop where
  divides : st.Divides matrix.numApps numLogicalCores matrix.nRows
  balanced : Balanced 1 matrix.nRows matrix.mpki (heldWays matrix st.partitions)

theorem exists_fair_round (regular : matrix.Regular) (some_app : 1 ≤ matrix.numApps)
    (fair : st.Fair matrix numLogicalCores) (left : st.buckets ≠ []) :
    ∃ next, allocationRound (mrcScheme exact) matrix st = .ok next ∧
      next.Fair matrix numLogicalCores ∧ next.buckets.length < st.buckets.length := by
  obtain ⟨winner, isBest, least⟩ := bestBlock_of_regular regular fair.divides left some_app
  obtain ⟨stack, isStack, notEmpty⟩ := fair.divides.held winner winner.isLt
  obtain ⟨within, -⟩ := List.getElem?_eq_some_iff.mp isStack
  have some_left := List.length_pos_of_ne_nil left
  refine ⟨_, allocationRound_eq isBest isStack some_left, ⟨?_, ?_⟩, ?_⟩
  · refine fair.divides.give isStack (fun other => ⟨.inl, fun isIn => ?_⟩) fun isEmpty =>
      notEmpty (List.append_eq_nil_iff.mp isEmpty).2
    rcases isIn with isOther | rfl
    · exact isOther
    · exact winner.isLt
  · have oneMore : ((st.buckets.take 1).reverse ++ stack).length =
        heldWays matrix st.partitions winner + 1 := by
      rw [heldWays_eq isStack, List.length_append, List.length_reverse, List.length_take]
      omega
    dsimp only
    rw [heldWays_set within, oneMore]
    refine fair.balanced.give (fun a => regular.convex_mpki a) ?_ fun a _ => least a
    rw [heldWays_eq isStack]
    exact List.length_pos_of_ne_nil notEmpty
  · dsimp only
    rw [List.length_drop]
    omega

/-- The ways that the applications hold, once all are given. -/
theorem isDivision_heldWays
    (divides : st.Divides matrix.numApps numLogicalCores matrix.nRows) (none_left : st.buckets = [])
    (enough : matrix.numApps ≤ numLogicalCores) :
    IsDivision matrix (heldWays matrix st.partitions) := by
  refine ⟨fun a => ?_, ?_⟩
  · obtain ⟨stack, isStack, notEmpty⟩ := divides.held a a.isLt
    rw [heldWays_eq isStack]
    exact List.length_pos_of_ne_nil notEmpty
  · have total := (divides.partitioned none_left).1.length_eq
    rw [List.length_flatten, List.length_map, List.length_range] at total
    have sizes : (st.partitions.take matrix.numApps).map List.length =
        List.ofFn (heldWays matrix st.partitions) := by
      refine List.ext_getElem ?_ fun i first second => ?_
      · rw [List.length_map, List.length_take, List.length_ofFn, divides.cores]
        exact min_eq_left enough
      · have inside : i < st.partitions.length := by
          rw [List.length_map, List.length_take] at first
          omega
        rw [List.getElem_map, List.getElem_take, List.getElem_ofFn, heldWays,
          List.getD_eq_getElem?_getD, List.getElem?_eq_getElem inside]
        rfl
    rw [sizes, List.sum_ofFn] at total
    exact total

theorem within_of_isDivision {ways : Fin matrix.numApps → ℕ} (isDivision : IsDivision matrix ways)
    (a : Fin matrix.numApps) : 1 ≤ ways a ∧ ways a ≤ matrix.nRows := by
  refine ⟨isDivision.1 a, ?_⟩
  rw [← isDivision.2]
  exact Finset.single_le_sum (fun other _ => Nat.zero_le (ways other)) (Finset.mem_univ a)

/-- On non-increasing convex curves the way counts that `do_ucp_mrcs` chooses divide the ways
with the least total of misses. -/
theorem allocateMrcs_minimizes (regular : matrix.Regular) (some_app : 1 ≤ matrix.numApps)
    (fits : matrix.numApps ≤ matrix.nRows) (enough : matrix.numApps ≤ numLogicalCores) :
    ∃ partitions,
      (∀ rounds, matrix.nRows ≤ rounds →
        allocateMrcs exact matrix numLogicalCores matrix.nRows rounds = .ok partitions) ∧
      IsDivision matrix (heldWays matrix partitions) ∧
      ∀ ways, IsDivision matrix ways →
        ∑ a, matrix.mpki a (heldWays matrix partitions a) ≤ ∑ a, matrix.mpki a (ways a) := by
  obtain ⟨st, isStart, started⟩ := exists_started fits enough
  have one_each : ∀ a, heldWays matrix st.partitions a ≤ 1 := by
    intro a
    obtain ⟨stack, isStack, -⟩ := started.divides.held a a.isLt
    rw [heldWays_eq isStack]
    exact started.single a stack isStack
  have fair : st.Fair matrix numLogicalCores := ⟨started.divides, balanced_of_le one_each⟩
  obtain ⟨last, isLast, lastFair, none_left⟩ := exists_allocationLoop
    (fun st fair left => exists_fair_round regular some_app fair left) fair
  have isDivision := isDivision_heldWays lastFair.divides none_left enough
  refine ⟨last.partitions, fun rounds many => ?_, isDivision, fun ways isOther => ?_⟩
  · have left := started.left
    rw [allocateMrcs, smoothenMrcs_of_nonIncreasing regular.decreasing, allocate, isStart, ok_bind,
      isLast rounds (by omega), ok_bind]
    rfl
  · exact lastFair.balanced.sum_le regular.convex_mpki
      (fun a => within_of_isDivision isDivision a) (fun a => within_of_isDivision isOther a)
      (isDivision.2.trans isOther.2.symm)

end

/-- Two applications on a cache of four ways. -/
def convexCurves : CurveMatrix ℚ where
  nRows := 4
  columns := [[9, 5, 2, 1], [4, 3, 3, 3]]
  sized := by decide

theorem regular_convexCurves : convexCurves.Regular := by
  have isCurve : ∀ curve ∈ convexCurves.columns, curve = [9, 5, 2, 1] ∨ curve = [4, 3, 3, 3] := by
    intro curve isMember
    simpa [convexCurves] using isMember
  constructor
  · intro curve isMember ways some_way within
    rcases isCurve curve isMember with rfl | rfl
    · have bound : ways < 4 := within
      interval_cases ways <;> norm_num [valueAt]
    · have bound : ways < 4 := within
      interval_cases ways <;> norm_num [valueAt]
  · intro curve isMember ways some_way within
    rcases isCurve curve isMember with rfl | rfl
    · have bound : ways < 3 := Nat.lt_of_succ_lt_succ within
      interval_cases ways <;> norm_num [Math.slope, valueAt]
    · have bound : ways < 3 := Nat.lt_of_succ_lt_succ within
      interval_cases ways <;> norm_num [Math.slope, valueAt]

theorem convexCurves_minimizes :
    ∃ partitions,
      (∀ rounds, convexCurves.nRows ≤ rounds →
        allocateMrcs exact convexCurves 2 convexCurves.nRows rounds = .ok partitions) ∧
      IsDivision convexCurves (heldWays convexCurves partitions) ∧
      ∀ ways, IsDivision convexCurves ways →
        ∑ a, convexCurves.mpki a (heldWays convexCurves partitions a) ≤
          ∑ a, convexCurves.mpki a (ways a) :=
  allocateMrcs_minimizes regular_convexCurves (by decide) (by decide) (by decide)

end Datamime.CacheUtils
