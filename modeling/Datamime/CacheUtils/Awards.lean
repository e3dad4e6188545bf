/-
# The block of a round

In each round a block of ways goes to an application: the application and the size of the block
with the best utility per way, of several the first application and its smallest size. The two
scans behind this start from the number 1000, which stands for nothing found. Utilities of miss
curves are never positive, so that number is never met. Utilities of IPC curves can be equal to
it. Then what the scans find is not the best block, unless that is the last one they look at.
-/

import Datamime.CacheUtils.Optimal
import Datamime.Math.FirstBest

namespace Datamime.CacheUtils

open Datamime.Math

/-! ## The blocks of a round -/

/-- A block of `p` ways for application `a`. -/
structure IsBlock (numApps left a p : ℕ) : Prop where
  isApp : a < numApps
  some_way : 1 ≤ p
  enough : p ≤ left

/-- The block has the largest gain per way. Of several it is the one of the first application,
and there the smallest. -/
structure IsFirstLargest (gain : ℕ → ℕ → ℚ) (numApps left a p : ℕ) : Prop where
  isBlock : IsBlock numApps left a p
  largest : ∀ b q, IsBlock numApps left b q → gain b q ≤ gain a p
  first : ∀ b q, IsBlock numApps left b q → gain b q = gain a p → a < b ∨ a = b ∧ p ≤ q

/-- The candidates of an application. -/
def appBlocks (utility : ℕ → ℕ → ℚ) (left a : ℕ) : List (ℚ × Option ℕ × ℕ) :=
  (List.range' 1 left).map fun p => (utility a p, some a, p)

/-- The candidates of a round, application by application. -/
def blockGroups (utility : ℕ → ℕ → ℚ) (numApps left : ℕ) : List (List (ℚ × Option ℕ × ℕ)) :=
  (List.range numApps).map (appBlocks utility left)

/-- The order in which the scans meet the candidates. -/
def MetBefore (x y : ℚ × Option ℕ × ℕ) : Prop :=
  ∃ a b, x.2.1 = some a ∧ y.2.1 = some b ∧ (a < b ∨ a = b ∧ x.2.2 < y.2.2)

section

variable {utility : ℕ → ℕ → ℚ} {numApps left a p : ℕ}

theorem mem_appBlocks {x : ℚ × Option ℕ × ℕ} :
    x ∈ appBlocks utility left a ↔
      ∃ p, 1 ≤ p ∧ p ≤ left ∧ x = (utility a p, some a, p) := by
  rw [appBlocks, List.mem_map]
  constructor
  · rintro ⟨p, isMember, rfl⟩
    obtain ⟨some_way, enough⟩ := List.mem_range'_1.mp isMember
    exact ⟨p, some_way, by omega, rfl⟩
  · rintro ⟨p, some_way, enough, rfl⟩
    exact ⟨p, List.mem_range'_1.mpr ⟨some_way, by omega⟩, rfl⟩

theorem mem_blockGroups {x : ℚ × Option ℕ × ℕ} :
    x ∈ (blockGroups utility numApps left).flatten ↔
      ∃ a p, IsBlock numApps left a p ∧ x = (utility a p, some a, p) := by
  rw [List.mem_flatten]
  constructor
  · rintro ⟨group, isGroup, isMember⟩
    obtain ⟨a, isApp, rfl⟩ := List.mem_map.mp isGroup
    obtain ⟨p, some_way, enough, rfl⟩ := mem_appBlocks.mp isMember
    exact ⟨a, p, ⟨List.mem_range.mp isApp, some_way, enough⟩, rfl⟩
  · rintro ⟨a, p, isBlock, rfl⟩
    refine ⟨_, List.mem_map.mpr ⟨a, List.mem_range.mpr isBlock.isApp, rfl⟩, ?_⟩
    exact mem_appBlocks.mpr ⟨p, isBlock.some_way, isBlock.enough, rfl⟩

theorem appBlocks_ne_nil (some_left : 0 < left) : appBlocks utility left a ≠ [] :=
  List.ne_nil_of_mem (mem_appBlocks.mpr ⟨1, le_refl 1, some_left, rfl⟩)

theorem not_metBefore {x y : ℚ × Option ℕ × ℕ} (met : MetBefore x y) : ¬ MetBefore y x := by
  obtain ⟨a, b, isA, isB, order⟩ := met
  rintro ⟨c, d, isC, isD, reversed⟩
  rw [isB] at isC
  rw [isA] at isD
  cases isC
  cases isD
  omega

theorem sorted_blockGroups :
    (blockGroups utility numApps left).flatten.Pairwise MetBefore := by
  rw [List.pairwise_flatten]
  constructor
  · intro group isGroup
    obtain ⟨a, -, rfl⟩ := List.mem_map.mp isGroup
    exact List.pairwise_map.mpr ((List.pairwise_lt_range' 1 Nat.one_pos).imp fun less =>
      ⟨a, a, rfl, rfl, .inr ⟨rfl, less⟩⟩)
  · refine List.pairwise_map.mpr (List.pairwise_lt_range.imp fun {a b} less x isX y isY => ?_)
    obtain ⟨p, -, -, rfl⟩ := mem_appBlocks.mp isX
    obtain ⟨q, -, -, rfl⟩ := mem_appBlocks.mp isY
    exact ⟨a, b, rfl, rfl, .inl less⟩

theorem nodup_blockGroups : (blockGroups utility numApps left).flatten.Nodup := by
  refine List.Pairwise.imp (fun {x y} met => ?_) sorted_blockGroups
  rintro rfl
  exact not_metBefore met met

/-- The last candidate is the largest block for the last application. -/
theorem isLast_blockGroups_iff (isBlock : IsBlock numApps left a p) :
    IsLast (blockGroups utility numApps left).flatten (utility a p, some a, p) ↔
      a + 1 = numApps ∧ p = left := by
  obtain ⟨isApp, some_way, enough⟩ := isBlock
  obtain ⟨others, rfl⟩ : ∃ others, numApps = others + 1 := ⟨numApps - 1, by omega⟩
  obtain ⟨fewer, rfl⟩ : ∃ fewer, left = fewer + 1 := ⟨left - 1, by omega⟩
  have last : (blockGroups utility (others + 1) (fewer + 1)).flatten.getLast? =
      some (utility others (fewer + 1), some others, fewer + 1) := by
    rw [blockGroups, List.range_succ, List.map_append, List.map_singleton, List.flatten_append,
      List.flatten_singleton, appBlocks, List.range'_concat, List.map_append, List.map_singleton,
      ← List.append_assoc, List.getLast?_concat, one_mul, add_comm 1 fewer]
  constructor
  · rintro ⟨before, isEnd⟩
    rw [isEnd, List.getLast?_concat, Option.some_inj, Prod.mk.injEq, Prod.mk.injEq,
      Option.some_inj] at last
    omega
  · rintro ⟨isLastApp, rfl⟩
    obtain rfl : a = others := by omega
    obtain ⟨before, isEnd⟩ := List.getLast?_eq_some_iff.mp last
    exact ⟨before, isEnd⟩

end

/-! ## The scans -/

/-- The utilities by which an allocation function compares blocks, and what it gains by them. -/
structure Comparison where
  better : ℚ → ℚ → Prop
  decides : DecidableRel better
  strict : IsStrictTotalOrder ℚ better
  gainOf : ℚ → ℚ
  better_iff : ∀ u v, better u v ↔ gainOf v < gainOf u

attribute [instance] Comparison.decides Comparison.strict

/-- The best block is the first with the largest gain. -/
theorem isFirstBest_iff {comparison : Comparison} {utility : ℕ → ℕ → ℚ} {numApps left a p : ℕ}
    (isBlock : IsBlock numApps left a p) :
    IsFirstBest comparison.better (blockGroups utility numApps left).flatten
        (utility a p, some a, p) ↔
      IsFirstLargest (fun a p => comparison.gainOf (utility a p)) numApps left a p := by
  rw [isFirstBest_iff_of_pairwise (fun _ _ => not_metBefore) sorted_blockGroups]
  constructor
  · rintro ⟨-, noBetter, better⟩
    refine ⟨isBlock, fun b q isOther => ?_, fun b q isOther same => ?_⟩
    · have noBetter := noBetter _ (mem_blockGroups.mpr ⟨b, q, isOther, rfl⟩)
      rw [comparison.better_iff] at noBetter
      exact not_lt.mp noBetter
    · by_contra isEarlier
      have worse := better _ (mem_blockGroups.mpr ⟨b, q, isOther, rfl⟩)
        ⟨b, a, rfl, rfl, by dsimp only; omega⟩
      rw [comparison.better_iff, same] at worse
      exact lt_irrefl _ worse
  · rintro ⟨-, largest, first⟩
    refine ⟨mem_blockGroups.mpr ⟨a, p, isBlock, rfl⟩, fun other listed => ?_,
      fun other listed isEarlier => ?_⟩
    · obtain ⟨b, q, isOther, rfl⟩ := mem_blockGroups.mp listed
      rw [comparison.better_iff]
      exact not_lt.mpr (largest b q isOther)
    · obtain ⟨b, q, isOther, rfl⟩ := mem_blockGroups.mp listed
      rw [comparison.better_iff]
      refine lt_of_le_of_ne (largest b q isOther) fun same => ?_
      have order := first b q isOther same
      obtain ⟨c, d, isB, isA, isEarlier⟩ := isEarlier
      cases isB
      cases isA
      dsimp only at isEarlier
      omega

theorem IsFirstLargest.unique {gain : ℕ → ℕ → ℚ} {numApps left a p b q : ℕ}
    (one : IsFirstLargest gain numApps left a p) (other : IsFirstLargest gain numApps left b q) :
    a = b ∧ p = q := by
  have same : gain a p = gain b q :=
    le_antisymm (other.largest a p one.isBlock) (one.largest b q other.isBlock)
  have order := one.first b q other.isBlock same.symm
  have reversed := other.first a p one.isBlock same
  omega

/-- The utilities of the blocks of a round. -/
def blockUtility (utility : List ℚ → ℕ → ℕ → ℚ) (matrix : CurveMatrix ℚ) (st : Allocation)
    (a p : ℕ) : ℚ :=
  utility (matrix.columns.getD a []) (st.partitions.getD a []).length p

/-- An allocation function that compares blocks by the utilities of curves. Where it returns it
has read the curve at each number of ways that a block leads to. -/
structure Scheme.Compares (scheme : Scheme ℚ) (comparison : Comparison)
    (utility : List ℚ → ℕ → ℕ → ℚ) : Prop where
  ops : scheme.ops = exact
  better : ∀ mu maxMu, scheme.better mu maxMu = decide (comparison.better mu maxMu)
  scans : ∀ curve cur parts found, scheme.maxMarginalUtil curve cur parts = .ok found →
    found = scanBest comparison.better 1000 (1000, 0)
      ((List.range' 1 parts).map fun p => (utility curve cur p, p))
  reads : ∀ curve cur parts found, scheme.maxMarginalUtil curve cur parts = .ok found →
    ∀ p, 1 ≤ p → p ≤ parts → 1 ≤ cur ∧ cur + p ≤ curve.length

section

variable {scheme : Scheme ℚ} {comparison : Comparison} {utility : List ℚ → ℕ → ℕ → ℚ}
  {matrix : CurveMatrix ℚ} {st : Allocation} {award : Award ℚ}

/-- An application's turn looks at its stack and its curve. -/
theorem exists_search_of_tryApp {best next : Award ℚ} {a : ℕ}
    (turn : tryApp scheme matrix st best a = .ok next) :
    ∃ mu part, scheme.maxMarginalUtil (matrix.columns.getD a []) (st.partitions.getD a []).length
        st.buckets.length = .ok (mu, part) ∧
      (∃ stack, st.partitions[a]? = some stack) ∧
      next = if scheme.ops.eq best.maxMu (scheme.ops.ofNat 1000) || scheme.better mu best.maxMu
        then ⟨mu, some a, part⟩ else best := by
  rw [tryApp] at turn
  split at turn
  · cases turn
  rename_i curve isCurve
  obtain ⟨stack, isStack, turn⟩ := bind_eq_ok_iff.mp turn
  obtain ⟨⟨mu, part⟩, searched, turn⟩ := bind_eq_ok_iff.mp turn
  have held := getElem?_of_stackAt isStack
  refine ⟨mu, part, ?_, ⟨stack, held⟩, (Except.ok.inj turn).symm⟩
  rw [List.getD_eq_getElem?_getD, List.getD_eq_getElem?_getD, isCurve, held]
  exact searched

/-- The block of a round is what the scans of the applications' candidates find. -/
theorem view_of_bestBlock (compares : scheme.Compares comparison utility) (left : st.buckets ≠ [])
    (found : bestBlock scheme matrix st = .ok award) :
    (award.maxMu, award.maxMuAppIdx, award.maxMuBuckets) =
      scanGroups comparison.better 1000 (1000, none, 0)
        (blockGroups (blockUtility utility matrix st) matrix.numApps st.buckets.length) := by
  have some_left : 0 < st.buckets.length := List.length_pos_of_ne_nil left
  have turns : ∀ a ∈ List.range matrix.numApps, ∀ best next,
      tryApp scheme matrix st best a = .ok next →
      (next.maxMu, next.maxMuAppIdx, next.maxMuBuckets) =
        takeBetter comparison.better 1000 (best.maxMu, best.maxMuAppIdx, best.maxMuBuckets)
          (scanBest comparison.better 1000 (1000, none, 0)
            (appBlocks (blockUtility utility matrix st) st.buckets.length a)) := by
    intro a isApp best next turn
    obtain ⟨mu, part, searched, -, rfl⟩ := exists_search_of_tryApp turn
    have own : scanBest comparison.better 1000 (1000, none, 0)
        (appBlocks (blockUtility utility matrix st) st.buckets.length a) = (mu, some a, part) := by
      have candidates : appBlocks (blockUtility utility matrix st) st.buckets.length a =
          ((List.range' 1 st.buckets.length).map fun p =>
            (utility (matrix.columns.getD a []) (st.partitions.getD a []).length p, p)).map
              fun c => (c.1, some a, c.2) := by
        rw [List.map_map]
        rfl
      have restarted : scanBest comparison.better 1000 (1000, none, 0)
          (appBlocks (blockUtility utility matrix st) st.buckets.length a) =
          scanBest comparison.better 1000 (1000, some a, 0)
            (appBlocks (blockUtility utility matrix st) st.buckets.length a) :=
        scanBest_start (appBlocks_ne_nil some_left) _ _
      rw [restarted, candidates]
      exact (scanBest_map (fun p : ℕ => (some a, p)) (1000, 0) _).trans
        (congrArg (fun found => (found.1, some a, found.2)) (compares.scans _ _ _ _ searched).symm)
    rw [own, takeBetter, compares.ops, compares.better]
    have sameTest : (exact.eq best.maxMu (exact.ofNat 1000) ||
        decide (comparison.better mu best.maxMu)) = true ↔
          best.maxMu = 1000 ∨ comparison.better mu best.maxMu := by
      rw [Bool.or_eq_true, decide_eq_true_eq]
      exact or_congr_left decide_eq_true_iff
    by_cases taken : best.maxMu = 1000 ∨ comparison.better mu best.maxMu
    · rw [if_pos (sameTest.mpr taken), if_pos taken]
    · rw [if_neg (mt sameTest.mp taken), if_neg taken]
  have scanned := eq_scanBest_of_run (fun best : Award ℚ =>
    (best.maxMu, best.maxMuAppIdx, best.maxMuBuckets)) _ turns found
  rw [compares.ops] at scanned
  rw [scanGroups, blockGroups, List.map_map]
  exact scanned

theorem ne_nil_of_mem_blockGroups {utility : ℕ → ℕ → ℚ} {numApps left : ℕ} (some_left : 0 < left) :
    ∀ group ∈ blockGroups utility numApps left, group ≠ [] := by
  intro group isGroup
  obtain ⟨a, -, rfl⟩ := List.mem_map.mp isGroup
  exact appBlocks_ne_nil some_left

theorem Award.eq_of_view {slope : ℚ} {maxMuAppIdx : Option ℕ} {p : ℕ}
    (same : (award.maxMu, award.maxMuAppIdx, award.maxMuBuckets) = (slope, maxMuAppIdx, p)) :
    award = ⟨slope, maxMuAppIdx, p⟩ := by
  rw [Prod.mk.injEq, Prod.mk.injEq] at same
  obtain ⟨rfl, rfl, rfl⟩ := same
  rfl

/-- A round finds some block. -/
theorem exists_block_of_bestBlock (compares : scheme.Compares comparison utility)
    (some_app : 1 ≤ matrix.numApps) (left : st.buckets ≠ [])
    (found : bestBlock scheme matrix st = .ok award) :
    ∃ a p, IsBlock matrix.numApps st.buckets.length a p ∧
      award = ⟨blockUtility utility matrix st a p, some a, p⟩ := by
  have some_left : 0 < st.buckets.length := List.length_pos_of_ne_nil left
  have some_group : blockGroups (blockUtility utility matrix st) matrix.numApps
      st.buckets.length ≠ [] := by
    intro none
    rw [blockGroups, List.map_eq_nil_iff, List.range_eq_nil] at none
    omega
  have isMember := @scanGroups_mem _ _ _ comparison.better _ 1000 (1000, none, 0) _ rfl
    (ne_nil_of_mem_blockGroups some_left) some_group
  rw [← view_of_bestBlock compares left found] at isMember
  obtain ⟨a, p, isBlock, same⟩ := mem_blockGroups.mp isMember
  exact ⟨a, p, isBlock, Award.eq_of_view same⟩

/-- The round finds the first block with the largest gain precisely if that does not count as
nothing, or is the last one. -/
theorem bestBlock_isFirstLargest_iff (compares : scheme.Compares comparison utility)
    (some_app : 1 ≤ matrix.numApps) (left : st.buckets ≠ [])
    (found : bestBlock scheme matrix st = .ok award) :
    (∃ a p, award = ⟨blockUtility utility matrix st a p, some a, p⟩ ∧
      IsFirstLargest (fun a p => comparison.gainOf (blockUtility utility matrix st a p))
        matrix.numApps st.buckets.length a p) ↔
    ∀ a p, IsFirstLargest (fun a p => comparison.gainOf (blockUtility utility matrix st a p))
        matrix.numApps st.buckets.length a p →
      blockUtility utility matrix st a p = 1000 →
        a + 1 = matrix.numApps ∧ p = st.buckets.length := by
  have some_left : 0 < st.buckets.length := List.length_pos_of_ne_nil left
  set groups := blockGroups (blockUtility utility matrix st) matrix.numApps st.buckets.length
    with isGroups
  have someBlock : IsBlock matrix.numApps st.buckets.length 0 1 := ⟨some_app, le_refl 1, some_left⟩
  have nonempty : ∀ group ∈ groups, group ≠ [] := ne_nil_of_mem_blockGroups some_left
  obtain ⟨best, isBest⟩ : ∃ best, IsFirstBest comparison.better groups.flatten best :=
    exists_isFirstBest (List.ne_nil_of_mem (mem_blockGroups.mpr ⟨0, 1, someBlock, rfl⟩))
  obtain ⟨a, p, isBlock, rfl⟩ := mem_blockGroups.mp isBest.mem
  have isLargest := (isFirstBest_iff isBlock).mp isBest
  have scans := @scanGroups_eq_iff _ _ _ comparison.better _ 1000 (1000, none, 0) groups _ rfl
    nonempty nodup_blockGroups isBest
  rw [isLast_blockGroups_iff isBlock, ← view_of_bestBlock compares left found] at scans
  constructor
  · rintro ⟨b, q, rfl, isOther⟩ c d isThird
    obtain ⟨rfl, rfl⟩ := isOther.unique isLargest
    obtain ⟨rfl, rfl⟩ := isThird.unique isLargest
    exact scans.mp rfl
  · intro condition
    exact ⟨a, p, Award.eq_of_view (scans.mpr (condition a p isLargest)), isLargest⟩

end

/-! ## The two allocation functions -/

/-- Fewer misses are better. -/
def fewerMisses : Comparison where
  better := fun u v => u < v
  decides := inferInstance
  strict := inferInstance
  gainOf := fun u => -u
  better_iff := fun _ _ => neg_lt_neg_iff.symm

/-- More instructions are better. -/
def moreInstructions : Comparison where
  better := fun u v => v < u
  decides := inferInstance
  strict := inferInstance
  gainOf := id
  better_iff := fun _ _ => Iff.rfl

/-- The slope of a miss curve over `p` more ways. -/
def mrcSlope (curve : List ℚ) (cur p : ℕ) : ℚ := (valueAt curve (cur + p) - valueAt curve cur) / p

/-- The slope of an IPC curve over `p` more ways, in terms of the IPC with three ways. -/
def ipcSlope (curve : List ℚ) (cur p : ℕ) : ℚ :=
  (valueAt curve (cur + p) - valueAt curve cur) / (p * valueAt curve 3)

section

variable {curve : List ℚ} {cur p : ℕ}

theorem eq_valueAt_of_readCurve {i : ℤ} {ways : ℕ} {value : ℚ} (isIndex : i = (ways : ℤ) - 1)
    (returned : readCurve curve i = .ok value) :
    value = valueAt curve ways ∧ 1 ≤ ways ∧ ways ≤ curve.length := by
  have nonneg : 0 ≤ i := by
    by_contra negative
    rw [readCurve, if_neg negative] at returned
    cases returned
  have inside : i < curve.length := by
    by_contra outside
    rw [readCurve_eq_error (not_lt.mp outside)] at returned
    cases returned
  subst isIndex
  have isValue := readCurve_eq_valueAt (by omega : 1 ≤ ways) (by omega : ways ≤ curve.length)
  rw [returned] at isValue
  exact ⟨Except.ok.inj isValue, by omega, by omega⟩

theorem eq_mrcSlope_of_mrcUtility {mu : ℚ} (returned : mrcUtility exact curve cur p = .ok mu) :
    mu = mrcSlope curve cur p ∧ 1 ≤ cur ∧ cur + p ≤ curve.length := by
  obtain ⟨far, isFar, returned⟩ := bind_eq_ok_iff.mp returned
  obtain ⟨near, isNear, returned⟩ := bind_eq_ok_iff.mp returned
  obtain ⟨rfl, -, within⟩ := @eq_valueAt_of_readCurve curve _ (cur + p) _ (by push_cast; ring) isFar
  obtain ⟨rfl, held, -⟩ := eq_valueAt_of_readCurve rfl isNear
  exact ⟨(Except.ok.inj returned).symm, held, within⟩

theorem eq_ipcSlope_of_ipcUtility {mu : ℚ} (returned : ipcUtility exact curve cur p = .ok mu) :
    mu = ipcSlope curve cur p ∧ 1 ≤ cur ∧ cur + p ≤ curve.length := by
  obtain ⟨far, isFar, returned⟩ := bind_eq_ok_iff.mp returned
  obtain ⟨near, isNear, returned⟩ := bind_eq_ok_iff.mp returned
  obtain ⟨base, isBase, returned⟩ := bind_eq_ok_iff.mp returned
  obtain ⟨rfl, -, within⟩ := @eq_valueAt_of_readCurve curve _ (cur + p) _ (by push_cast; ring) isFar
  obtain ⟨rfl, held, -⟩ := eq_valueAt_of_readCurve rfl isNear
  obtain ⟨rfl, -, -⟩ := @eq_valueAt_of_readCurve curve _ 3 _ rfl isBase
  exact ⟨(Except.ok.inj returned).symm, held, within⟩

/-- The search among the blocks of an application is a scan. -/
theorem eq_scanBest_of_maxMarginalUtil {comparison : Comparison} {better : ℚ → ℚ → Bool}
    {utility : ℕ → Except Misuse ℚ} {slope : ℕ → ℚ} {parts : ℕ} {found : ℚ × ℕ}
    (compares : ∀ mu maxMu, better mu maxMu = decide (comparison.better mu maxMu))
    (isSlope : ∀ p mu, utility p = .ok mu → mu = slope p)
    (returned : maxMarginalUtil exact better utility parts = .ok found) :
    found = scanBest comparison.better 1000 (1000, 0)
      ((List.range' 1 parts).map fun p => (slope p, p)) := by
  refine eq_scanBest_of_run id (fun p => (slope p, p)) (fun p isPart best next turn => ?_) returned
  obtain ⟨mu, isUtility, turn⟩ := bind_eq_ok_iff.mp turn
  rw [isSlope p mu isUtility, compares] at turn
  have sameTest : (exact.eq best.1 (exact.ofNat 1000) ||
      decide (comparison.better (slope p) best.1)) = true ↔
        best.1 = 1000 ∨ comparison.better (slope p) best.1 := by
    rw [Bool.or_eq_true, decide_eq_true_eq]
    exact or_congr_left decide_eq_true_iff
  rw [← Except.ok.inj turn, id, id, takeBetter]
  exact if_congr sameTest rfl rfl

/-- Where the search returns it has found a utility for each block. -/
theorem exists_utility_of_maxMarginalUtil {better : ℚ → ℚ → Bool} {utility : ℕ → Except Misuse ℚ}
    {parts : ℕ} {found : ℚ × ℕ}
    (returned : maxMarginalUtil exact better utility parts = .ok found) (some_way : 1 ≤ p)
    (isPart : p ≤ parts) : ∃ mu, utility p = .ok mu := by
  obtain ⟨best, next, turn⟩ := exists_step_of_run returned
    (List.mem_range'_1.mpr ⟨some_way, by omega⟩ : p ∈ List.range' 1 parts)
  obtain ⟨mu, isUtility, -⟩ := bind_eq_ok_iff.mp turn
  exact ⟨mu, isUtility⟩

theorem mrcScheme_compares : (mrcScheme exact).Compares fewerMisses mrcSlope where
  ops := rfl
  better := fun _ _ => rfl
  scans := fun curve cur parts found returned =>
    eq_scanBest_of_maxMarginalUtil (fun _ _ => rfl)
      (fun _ _ isUtility => (eq_mrcSlope_of_mrcUtility isUtility).1) returned
  reads := by
    intro curve cur parts found returned p some_way isPart
    obtain ⟨mu, isUtility⟩ := exists_utility_of_maxMarginalUtil returned some_way isPart
    exact (eq_mrcSlope_of_mrcUtility isUtility).2

theorem ipcScheme_compares : (ipcScheme exact).Compares moreInstructions ipcSlope where
  ops := rfl
  better := fun _ _ => rfl
  scans := fun curve cur parts found returned =>
    eq_scanBest_of_maxMarginalUtil (fun _ _ => rfl)
      (fun _ _ isUtility => (eq_ipcSlope_of_ipcUtility isUtility).1) returned
  reads := by
    intro curve cur parts found returned p some_way isPart
    obtain ⟨mu, isUtility⟩ := exists_utility_of_maxMarginalUtil returned some_way isPart
    exact (eq_ipcSlope_of_ipcUtility isUtility).2

end

/-! ## Rounds -/

/-- The states that the allocation loop passes through. -/
inductive Reached {α : Type} (scheme : Scheme α) (matrix : CurveMatrix α)
    (numLogicalCores cacheNumWays : ℕ) : Allocation → Prop
  | start {st : Allocation}
      (started : startAllocation matrix.numApps numLogicalCores cacheNumWays = .ok st) :
      Reached scheme matrix numLogicalCores cacheNumWays st
  | round {st next : Allocation} (reached : Reached scheme matrix numLogicalCores cacheNumWays st)
      (left : st.buckets ≠ []) (awarded : allocationRound scheme matrix st = .ok next) :
      Reached scheme matrix numLogicalCores cacheNumWays next

/-- `p` ways go to an application, the others stay where they are. -/
def Allocation.give (st : Allocation) (a p : ℕ) : Allocation where
  partitions := st.partitions.set a ((st.buckets.take p).reverse ++ st.partitions.getD a [])
  buckets := st.buckets.drop p

/-- The round awards the first block with the largest gain, and gives its ways away. -/
def AwardsFirstLargest (scheme : Scheme ℚ) (matrix : CurveMatrix ℚ) (gain : ℕ → ℕ → ℚ)
    (st next : Allocation) : Prop :=
  ∃ slope a p, bestBlock scheme matrix st = .ok ⟨slope, some a, p⟩ ∧
    IsFirstLargest gain matrix.numApps st.buckets.length a p ∧ next = st.give a p

/-- Every round that the loop takes and that returns has a property. -/
def InEachRound (scheme : Scheme ℚ) (matrix : CurveMatrix ℚ) (numLogicalCores cacheNumWays : ℕ)
    (property : Allocation → Allocation → Prop) : Prop :=
  ∀ st next, Reached scheme matrix numLogicalCores cacheNumWays st → st.buckets ≠ [] →
    allocationRound scheme matrix st = .ok next → property st next

/-- Every round that the loop takes returns. -/
def RoundsReturn (scheme : Scheme ℚ) (matrix : CurveMatrix ℚ) (numLogicalCores cacheNumWays : ℕ) :
    Prop :=
  ∀ st, Reached scheme matrix numLogicalCores cacheNumWays st → st.buckets ≠ [] →
    ∃ next, allocationRound scheme matrix st = .ok next

section

variable {scheme : Scheme ℚ} {comparison : Comparison} {utility : List ℚ → ℕ → ℕ → ℚ}
  {matrix : CurveMatrix ℚ} {st next : Allocation} {numLogicalCores cacheNumWays : ℕ}

/-- What the loop ends with is the last state that it reaches. -/
theorem reached_of_allocationLoop {α : Type} {scheme : Scheme α} {matrix : CurveMatrix α}
    {rounds : ℕ} {last : Allocation}
    (reached : Reached scheme matrix numLogicalCores cacheNumWays st)
    (looped : allocationLoop scheme matrix rounds st = .ok last) :
    Reached scheme matrix numLogicalCores cacheNumWays last ∧ last.buckets = [] := by
  induction rounds generalizing st with
  | zero =>
      rw [allocationLoop] at looped
      split at looped
      · rename_i isEmpty
        cases looped
        exact ⟨reached, isEmpty⟩
      · cases looped
  | succ rounds ih =>
      by_cases isEmpty : st.buckets = []
      · rw [allocationLoop_of_empty isEmpty] at looped
        cases looped
        exact ⟨reached, isEmpty⟩
      · rw [allocationLoop_succ isEmpty] at looped
        obtain ⟨next, awarded, looped⟩ := bind_eq_ok_iff.mp looped
        exact ih (.round reached isEmpty awarded) looped

/-- A round that returns has looked at the stack and the curve of each application. -/
theorem reads_of_bestBlock (compares : scheme.Compares comparison utility) {award : Award ℚ}
    (found : bestBlock scheme matrix st = .ok award) {a p : ℕ}
    (isBlock : IsBlock matrix.numApps st.buckets.length a p) :
    (∃ stack, st.partitions[a]? = some stack) ∧ 1 ≤ (st.partitions.getD a []).length ∧
      (st.partitions.getD a []).length + p ≤ (matrix.columns.getD a []).length := by
  obtain ⟨best, later, turn⟩ := exists_step_of_run found (List.mem_range.mpr isBlock.isApp)
  obtain ⟨mu, part, searched, isStack, -⟩ := exists_search_of_tryApp turn
  exact ⟨isStack, compares.reads _ _ _ _ searched p isBlock.some_way isBlock.enough⟩

/-- A round gives away the block that it found. -/
theorem awardsFirstLargest_iff (compares : scheme.Compares comparison utility)
    (some_app : 1 ≤ matrix.numApps) (left : st.buckets ≠ [])
    (awarded : allocationRound scheme matrix st = .ok next) :
    AwardsFirstLargest scheme matrix
        (fun a p => comparison.gainOf (blockUtility utility matrix st a p)) st next ↔
      ∀ a p, IsFirstLargest (fun a p => comparison.gainOf (blockUtility utility matrix st a p))
          matrix.numApps st.buckets.length a p →
        blockUtility utility matrix st a p = 1000 →
          a + 1 = matrix.numApps ∧ p = st.buckets.length := by
  obtain ⟨award, found, given⟩ := bind_eq_ok_iff.mp awarded
  rw [← bestBlock_isFirstLargest_iff compares some_app left found]
  constructor
  · rintro ⟨slope, a, p, isAward, isLargest, -⟩
    obtain ⟨b, q, -, rfl⟩ := exists_block_of_bestBlock compares some_app left found
    have same := Except.ok.inj (found.symm.trans isAward)
    rw [Award.mk.injEq, Option.some_inj] at same
    obtain ⟨-, rfl, rfl⟩ := same
    exact ⟨b, q, rfl, isLargest⟩
  · rintro ⟨a, p, rfl, isLargest⟩
    refine ⟨_, a, p, found, isLargest, ?_⟩
    obtain ⟨⟨stack, isStack⟩, -⟩ := reads_of_bestBlock compares found isLargest.isBlock
    have moved := allocationRound_eq found isStack isLargest.isBlock.enough
    rw [awarded] at moved
    rw [Except.ok.inj moved, Allocation.give, List.getD_eq_getElem?_getD, isStack]
    rfl

theorem Scheme.DefinedOn.mono {fewer more : ℕ} (defined : scheme.DefinedOn matrix more)
    (less : fewer ≤ more) : scheme.DefinedOn matrix fewer :=
  fun curve isCurve cur parts held some_way within =>
    defined curve isCurve cur parts held some_way (within.trans less)

/-- The states that the loop reaches divide the ways. -/
theorem Reached.divides {α : Type} {scheme : Scheme α} {matrix : CurveMatrix α}
    (reached : Reached scheme matrix numLogicalCores cacheNumWays st) :
    st.Divides matrix.numApps numLogicalCores cacheNumWays := by
  induction reached with
  | start started => exact divides_of_startAllocation started
  | round reached left awarded ih => exact divides_of_round ih awarded

/-- Where the searches are defined on the whole cache the rounds return. -/
theorem roundsReturn_of_definedOn (some_app : 1 ≤ matrix.numApps)
    (defined : scheme.DefinedOn matrix cacheNumWays) :
    RoundsReturn scheme matrix numLogicalCores cacheNumWays := by
  intro st reached left
  obtain ⟨next, isNext, -⟩ := exists_round defined reached.divides left some_app
  exact ⟨next, isNext⟩

end

/-! ## Miss curves -/

/-- The misses that a block saves per way. -/
def missesSaved (matrix : CurveMatrix ℚ) (st : Allocation) (a p : ℕ) : ℚ :=
  -blockUtility mrcSlope matrix st a p

section

variable {curve : List ℚ}

/-- Smoothing leaves curves on which one way more never raises the misses. -/
theorem nonIncreasing_smoothColumn (curve : List ℚ) :
    NonIncreasing (smoothColumn
      (fun prevValue value => if exact.lt value prevValue then value else prevValue) curve) := by
  cases curve with
  | nil => exact fun ways some_way within => absurd within (by simp [smoothColumn])
  | cons first rest =>
      intro ways some_way within
      obtain ⟨i, rfl⟩ : ∃ i, ways = i + 1 := ⟨ways - 1, by omega⟩
      rw [smoothColumn] at within ⊢
      rw [valueAt, valueAt, Nat.add_sub_cancel, Nat.add_sub_cancel, List.getD_eq_getElem?_getD,
        List.getD_eq_getElem?_getD, List.getElem?_eq_getElem within,
        List.getElem?_eq_getElem (Nat.lt_of_succ_lt within), Option.getD_some, Option.getD_some,
        List.getElem_succ_scanl]
      split
      · rename_i falls
        exact (of_decide_eq_true falls).le
      · exact le_refl _

theorem NonIncreasing.valueAt_le (decreasing : NonIncreasing curve) {few many : ℕ}
    (some_way : 1 ≤ few) (fewer : few ≤ many) (within : many ≤ curve.length) :
    valueAt curve many ≤ valueAt curve few := by
  induction many, fewer using Nat.le_induction with
  | base => exact le_refl _
  | succ many fewer ih =>
      exact (decreasing many (by omega) within).trans (ih (by omega))

theorem mrcSlope_nonpos (decreasing : NonIncreasing curve) {cur p : ℕ} (held : 1 ≤ cur)
    (within : cur + p ≤ curve.length) : mrcSlope curve cur p ≤ 0 := by
  have falls := decreasing.valueAt_le held (Nat.le_add_right cur p) within
  exact div_nonpos_of_nonpos_of_nonneg (sub_nonpos.mpr falls) (Nat.cast_nonneg p)

end

/-- The slope that the scans of a round find is the least one of its blocks. -/
def FindsLeastSlope (matrix : CurveMatrix ℚ) (st : Allocation) : Prop :=
  ∀ award, bestBlock (mrcScheme exact) matrix st = .ok award →
    IsLeast {slope | ∃ a p, IsBlock matrix.numApps st.buckets.length a p ∧
      slope = blockUtility mrcSlope matrix st a p} award.maxMu

/-- In each round of `do_ucp_mrcs` the block that saves most misses per way is awarded, of several
the one of the first application and its smallest. The rounds return for every matrix that has a
row for each way. -/
theorem awardsFirstLargest_of_mrcs (mpkiVsWays : CurveMatrix ℚ) (numLogicalCores cacheNumWays : ℕ)
    (some_app : 1 ≤ mpkiVsWays.numApps) :
    (InEachRound (mrcScheme exact) (smoothenMrcs exact mpkiVsWays) numLogicalCores cacheNumWays
      fun st next =>
        AwardsFirstLargest (mrcScheme exact) (smoothenMrcs exact mpkiVsWays)
            (missesSaved (smoothenMrcs exact mpkiVsWays) st) st next ∧
          FindsLeastSlope (smoothenMrcs exact mpkiVsWays) st) ∧
      (cacheNumWays ≤ mpkiVsWays.nRows →
        RoundsReturn (mrcScheme exact) (smoothenMrcs exact mpkiVsWays) numLogicalCores
          cacheNumWays) := by
  have sameApps : (smoothenMrcs exact mpkiVsWays).numApps = mpkiVsWays.numApps :=
    numApps_smoothen mpkiVsWays _
  rw [← sameApps] at some_app
  set matrix := smoothenMrcs exact mpkiVsWays with isMatrix
  refine ⟨fun st next _ left awarded => ?_, fun rows =>
    roundsReturn_of_definedOn some_app ((mrcScheme_definedOn exact matrix).mono rows)⟩
  have falls : ∀ a p, IsBlock matrix.numApps st.buckets.length a p →
      blockUtility mrcSlope matrix st a p ≤ 0 := by
    intro a p isBlock
    obtain ⟨award, found, -⟩ := bind_eq_ok_iff.mp awarded
    obtain ⟨-, held, within⟩ := reads_of_bestBlock mrcScheme_compares found isBlock
    refine mrcSlope_nonpos ?_ held within
    rw [List.getD_eq_getElem?_getD, List.getElem?_eq_getElem isBlock.isApp, Option.getD_some]
    obtain ⟨curve, -, isColumn⟩ := List.mem_map.mp (List.getElem_mem isBlock.isApp)
    rw [← isColumn]
    exact nonIncreasing_smoothColumn curve
  have awards := (awardsFirstLargest_iff mrcScheme_compares some_app left awarded).mpr
    fun a p isLargest isSentinel => by
      have nonpos := falls a p isLargest.isBlock
      rw [isSentinel] at nonpos
      exact absurd nonpos (by norm_num)
  refine ⟨awards, fun award found => ?_⟩
  obtain ⟨slope, a, p, isAward, isLargest, -⟩ := awards
  obtain ⟨b, q, isBlock, rfl⟩ := exists_block_of_bestBlock mrcScheme_compares some_app left found
  have same := Except.ok.inj (found.symm.trans isAward)
  rw [Award.mk.injEq, Option.some_inj] at same
  obtain ⟨-, rfl, rfl⟩ := same
  refine ⟨⟨b, q, isBlock, rfl⟩, ?_⟩
  rintro _ ⟨c, d, isOther, rfl⟩
  exact neg_le_neg_iff.mp (isLargest.largest c d isOther)

/-- Two applications on a cache of five ways, one with a curve that is not convex. -/
def steppedCurves : CurveMatrix ℚ where
  nRows := 5
  columns := [[9, 9, 9, 0, 0], [6, 4, 4, 4, 1]]
  sized := by decide

theorem steppedCurves_awardsFirstLargest :
    (InEachRound (mrcScheme exact) (smoothenMrcs exact steppedCurves) 2 5
      fun st next =>
        AwardsFirstLargest (mrcScheme exact) (smoothenMrcs exact steppedCurves)
            (missesSaved (smoothenMrcs exact steppedCurves) st) st next ∧
          FindsLeastSlope (smoothenMrcs exact steppedCurves) st) ∧
      (5 ≤ steppedCurves.nRows →
        RoundsReturn (mrcScheme exact) (smoothenMrcs exact steppedCurves) 2 5) :=
  awardsFirstLargest_of_mrcs steppedCurves 2 5 (by decide)

/-! ## IPC curves -/

/-- The IPC that a block gains per way, in terms of the IPC with three ways. -/
def ipcGain (matrix : CurveMatrix ℚ) (st : Allocation) (a p : ℕ) : ℚ :=
  blockUtility ipcSlope matrix st a p

/-- Some block gains more than 1000, or none but the last one gains exactly 1000. -/
def SentinelApart (gain : ℕ → ℕ → ℚ) (numApps left : ℕ) : Prop :=
  (∃ a p, IsBlock numApps left a p ∧ 1000 < gain a p) ∨
    ∀ a p, IsBlock numApps left a p → gain a p = 1000 → a + 1 = numApps ∧ p = left

theorem exists_isFirstLargest (gain : ℕ → ℕ → ℚ) {numApps left : ℕ} (some_app : 1 ≤ numApps)
    (some_left : 1 ≤ left) : ∃ a p, IsFirstLargest gain numApps left a p := by
  obtain ⟨best, isBest⟩ : ∃ best,
      IsFirstBest moreInstructions.better (blockGroups gain numApps left).flatten best :=
    exists_isFirstBest (List.ne_nil_of_mem
      (mem_blockGroups.mpr ⟨0, 1, ⟨some_app, le_refl 1, some_left⟩, rfl⟩))
  obtain ⟨a, p, isBlock, rfl⟩ := mem_blockGroups.mp isBest.mem
  exact ⟨a, p, (isFirstBest_iff isBlock).mp isBest⟩

/-- The first block with the largest gain counts as nothing only if it is the last one. -/
theorem sentinelApart_iff {gain : ℕ → ℕ → ℚ} {numApps left : ℕ} (some_app : 1 ≤ numApps)
    (some_left : 1 ≤ left) :
    SentinelApart gain numApps left ↔
      ∀ a p, IsFirstLargest gain numApps left a p → gain a p = 1000 →
        a + 1 = numApps ∧ p = left := by
  constructor
  · rintro (⟨b, q, isOther, larger⟩ | apart) a p isLargest isSentinel
    · have atMost := isLargest.largest b q isOther
      rw [isSentinel] at atMost
      exact absurd larger (not_lt.mpr atMost)
    · exact apart a p isLargest.isBlock isSentinel
  · intro condition
    by_cases larger : ∃ a p, IsBlock numApps left a p ∧ 1000 < gain a p
    · exact .inl larger
    refine .inr fun b q isOther isSentinel => ?_
    obtain ⟨a, p, isLargest⟩ := exists_isFirstLargest gain some_app some_left
    have same : gain b q = gain a p := by
      refine le_antisymm (isLargest.largest b q isOther) ?_
      rw [isSentinel]
      exact not_lt.mp fun above => larger ⟨a, p, isLargest.isBlock, above⟩
    obtain ⟨isLastApp, isAll⟩ := condition a p isLargest (same.symm.trans isSentinel)
    have order := isLargest.first b q isOther same
    have isApp := isOther.isApp
    have enough := isOther.enough
    omega

/-- In the rounds of `do_ucp_ipcs` the first block with the largest gain per way is awarded
precisely if in each of them some block gains more than 1000, or none but the last one gains
exactly 1000. -/
theorem awardsFirstLargest_of_ipcs_iff (ipcVsWays : CurveMatrix ℚ)
    (numLogicalCores cacheNumWays : ℕ) (some_app : 1 ≤ ipcVsWays.numApps) :
    (InEachRound (ipcScheme exact) (smoothenIpcs exact ipcVsWays) numLogicalCores cacheNumWays
        (fun st next => AwardsFirstLargest (ipcScheme exact) (smoothenIpcs exact ipcVsWays)
          (ipcGain (smoothenIpcs exact ipcVsWays) st) st next) ↔
      InEachRound (ipcScheme exact) (smoothenIpcs exact ipcVsWays) numLogicalCores cacheNumWays
        fun st _ => SentinelApart (ipcGain (smoothenIpcs exact ipcVsWays) st) ipcVsWays.numApps
          st.buckets.length) ∧
      (cacheNumWays ≤ ipcVsWays.nRows → 3 ≤ ipcVsWays.nRows →
        RoundsReturn (ipcScheme exact) (smoothenIpcs exact ipcVsWays) numLogicalCores
          cacheNumWays) := by
  have sameApps : (smoothenIpcs exact ipcVsWays).numApps = ipcVsWays.numApps :=
    numApps_smoothen ipcVsWays _
  rw [← sameApps] at some_app ⊢
  set matrix := smoothenIpcs exact ipcVsWays with isMatrix
  refine ⟨forall₂_congr fun st next => forall₃_congr fun _ left awarded => ?_,
    fun rows base => roundsReturn_of_definedOn some_app
      ((ipcScheme_definedOn exact matrix base).mono rows)⟩
  exact (awardsFirstLargest_iff ipcScheme_compares some_app left awarded).trans
    (sentinelApart_iff some_app (List.length_pos_of_ne_nil left)).symm

/-- One application with little IPC up to three ways. -/
def lowBase : CurveMatrix ℚ where
  nRows := 5
  columns := [[1 / 1000, 1 / 1000, 1 / 1000, 3001 / 1000, 3001 / 1000]]
  sized := by decide

/-- The block of three ways gains exactly 1000, the one of four ways less. -/
theorem not_sentinelApart_lowBase :
    ¬ SentinelApart (ipcGain (smoothenIpcs exact lowBase) ⟨[[0]], [1, 2, 3, 4]⟩) 1 4 := by
  have smooth : (smoothenIpcs exact lowBase).columns = lowBase.columns := by decide +kernel
  have gains : ∀ p, ipcGain (smoothenIpcs exact lowBase) ⟨[[0]], [1, 2, 3, 4]⟩ 0 p =
      ipcSlope [1 / 1000, 1 / 1000, 1 / 1000, 3001 / 1000, 3001 / 1000] 1 p := by
    intro p
    rw [ipcGain, blockUtility, smooth]
    rfl
  rintro (⟨a, p, isBlock, larger⟩ | apart)
  · obtain ⟨isApp, some_way, enough⟩ := isBlock
    obtain rfl : a = 0 := by omega
    rw [gains] at larger
    interval_cases p <;> norm_num [ipcSlope, valueAt] at larger
  · have isLast := apart 0 3 ⟨by decide, by decide, by decide⟩ (by
      rw [gains]
      norm_num [ipcSlope, valueAt])
    exact absurd isLast.2 (by decide)

/-- The block of three ways is passed over for a worse one. -/
theorem sentinel_is_replaced :
    (∀ curve ∈ lowBase.columns, (∀ ipc ∈ curve, 0 ≤ ipc) ∧ 0 < valueAt curve 3) ∧
      ¬ InEachRound (ipcScheme exact) (smoothenIpcs exact lowBase) 1 5 fun st next =>
        AwardsFirstLargest (ipcScheme exact) (smoothenIpcs exact lowBase)
          (ipcGain (smoothenIpcs exact lowBase) st) st next := by
  refine ⟨by decide +kernel, fun awards => ?_⟩
  have reached : Reached (ipcScheme exact) (smoothenIpcs exact lowBase) 1 5
      ⟨[[0]], [1, 2, 3, 4]⟩ := .start rfl
  obtain ⟨next, awarded⟩ := roundsReturn_of_definedOn (by decide)
    (ipcScheme_definedOn exact (smoothenIpcs exact lowBase) (by decide)) _ reached (by decide)
  have isLargest := (awardsFirstLargest_iff ipcScheme_compares (by decide) (by decide) awarded).mp
    (awards _ next reached (by decide) awarded)
  exact not_sentinelApart_lowBase ((sentinelApart_iff (by decide) (by decide)).mpr isLargest)

theorem lowBase_awardsFirstLargest_iff :
    (InEachRound (ipcScheme exact) (smoothenIpcs exact lowBase) 1 5
        (fun st next => AwardsFirstLargest (ipcScheme exact) (smoothenIpcs exact lowBase)
          (ipcGain (smoothenIpcs exact lowBase) st) st next) ↔
      InEachRound (ipcScheme exact) (smoothenIpcs exact lowBase) 1 5
        fun st _ => SentinelApart (ipcGain (smoothenIpcs exact lowBase) st) lowBase.numApps
          st.buckets.length) ∧
      (5 ≤ lowBase.nRows → 3 ≤ lowBase.nRows →
        RoundsReturn (ipcScheme exact) (smoothenIpcs exact lowBase) 1 5) :=
  awardsFirstLargest_of_ipcs_iff lowBase 1 5 (by decide)

end Datamime.CacheUtils
