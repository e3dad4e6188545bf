/-
# Curves and marginal utilities

The curves are in floating point. The code uses a handful of operations on their
values, of which only one fact matters for where its loops lead: the number 1000,
which stands for a utility not found yet, equals itself.
-/

import Datamime.CacheUtils.Stacks
import Datamime.Math.Run

namespace Datamime.CacheUtils

open Datamime.Math

/-- The operations on `double` that the code uses. -/
structure Arithmetic (α : Type) where
  sub : α → α → α
  mul : α → α → α
  div : α → α → α
  ofNat : ℕ → α
  lt : α → α → Bool
  eq : α → α → Bool
  sentinel : eq (ofNat 1000) (ofNat 1000) = true

/-- Exact arithmetic. -/
def exact : Arithmetic ℚ where
  sub := fun a b => a - b
  mul := fun a b => a * b
  div := fun a b => a / b
  ofNat := fun n => n
  lt := fun a b => decide (a < b)
  eq := fun a b => decide (a = b)
  sentinel := by simp

/-- `arma::mat`, one column for each application. -/
structure CurveMatrix (α : Type) where
  nRows : ℕ
  columns : List (List α)
  sized : ∀ column ∈ columns, column.length = nRows

variable {α : Type}

/-- The number of applications. -/
def CurveMatrix.numApps (matrix : CurveMatrix α) : ℕ := matrix.columns.length

/-! ## Smoothing -/

/-- Replace each value but the first of a curve by the pick of it and the new value before it. -/
def smoothColumn (pick : α → α → α) : List α → List α
  | [] => []
  | first :: rest => rest.scanl pick first

theorem length_smoothColumn (pick : α → α → α) (curve : List α) :
    (smoothColumn pick curve).length = curve.length := by
  cases curve with
  | nil => rfl
  | cons first rest => rw [smoothColumn, List.length_scanl, List.length_cons]

def smoothen (pick : α → α → α) (matrix : CurveMatrix α) : CurveMatrix α where
  nRows := matrix.nRows
  columns := matrix.columns.map (smoothColumn pick)
  sized := by
    intro column isColumn
    obtain ⟨curve, isCurve, rfl⟩ := List.mem_map.mp isColumn
    rw [length_smoothColumn, matrix.sized curve isCurve]

/-- `smoothenMRCs`, with `std::min`. -/
def smoothenMrcs (ops : Arithmetic α) (mpkiVsWays : CurveMatrix α) : CurveMatrix α :=
  smoothen (fun prevValue value => if ops.lt value prevValue then value else prevValue) mpkiVsWays

/-- `smoothenIPCs`, with `std::max`. -/
def smoothenIpcs (ops : Arithmetic α) (ipcVsWays : CurveMatrix α) : CurveMatrix α :=
  smoothen (fun prevValue value => if ops.lt prevValue value then value else prevValue) ipcVsWays

/-! ## Marginal utilities -/

/-- A value of a curve. -/
def readCurve (curve : List α) (i : ℤ) : Except Misuse α :=
  if 0 ≤ i then
    match curve[i.toNat]? with
    | some value => .ok value
    | none => .error .curveBounds
  else .error .curveBounds

/-- One turn of the search: the best utility so far and its part. -/
def tryPart (ops : Arithmetic α) (better : α → α → Bool) (utility : ℕ → Except Misuse α)
    (best : α × ℕ) (p : ℕ) : Except Misuse (α × ℕ) := do
  let mu ← utility p
  return if ops.eq best.1 (ops.ofNat 1000) || better mu best.1 then (mu, p) else best

/-- The search for the best utility among the parts. -/
def maxMarginalUtil (ops : Arithmetic α) (better : α → α → Bool) (utility : ℕ → Except Misuse α)
    (parts : ℕ) : Except Misuse (α × ℕ) :=
  run (tryPart ops better utility) (ops.ofNat 1000, 0) (List.range' 1 parts)

/-- The utility of `p` more buckets for a miss curve. -/
def mrcUtility (ops : Arithmetic α) (curve : List α) (cur p : ℕ) : Except Misuse α := do
  let far ← readCurve curve ((cur : ℤ) + p - 1)
  let near ← readCurve curve ((cur : ℤ) - 1)
  return ops.div (ops.sub far near) (ops.ofNat p)

def baseIPCallocation : ℤ := 3

/-- The utility of `p` more buckets for an IPC curve. -/
def ipcUtility (ops : Arithmetic α) (curve : List α) (cur p : ℕ) : Except Misuse α := do
  let far ← readCurve curve ((cur : ℤ) + p - 1)
  let near ← readCurve curve ((cur : ℤ) - 1)
  let base ← readCurve curve (baseIPCallocation - 1)
  return ops.div (ops.sub far near) (ops.mul (ops.ofNat p) base)

/-- Which of two miss utilities is taken. -/
def betterMrc (ops : Arithmetic α) (mu maxMu : α) : Bool := ops.lt mu maxMu

/-- Which of two IPC utilities is taken. -/
def betterIpc (ops : Arithmetic α) (mu maxMu : α) : Bool := ops.lt maxMu mu

/-- `get_maxmarginalutil_mrcs`. -/
def getMaxMarginalUtilMrcs (ops : Arithmetic α) (curve : List α) (cur parts : ℕ) :
    Except Misuse (α × ℕ) :=
  maxMarginalUtil ops (betterMrc ops) (mrcUtility ops curve cur) parts

/-- `get_maxmarginalutil_ipcs`. -/
def getMaxMarginalUtilIpcs (ops : Arithmetic α) (curve : List α) (cur parts : ℕ) :
    Except Misuse (α × ℕ) :=
  maxMarginalUtil ops (betterIpc ops) (ipcUtility ops curve cur) parts

/-! ## Where they are defined -/

theorem exists_readCurve {curve : List α} {i : ℤ} (nonneg : 0 ≤ i) (within : i < curve.length) :
    ∃ value, readCurve curve i = .ok value := by
  have inside : i.toNat < curve.length := by omega
  refine ⟨curve[i.toNat], ?_⟩
  rw [readCurve, if_pos nonneg, List.getElem?_eq_getElem inside]

theorem readCurve_eq_error {curve : List α} {i : ℤ} (outside : (curve.length : ℤ) ≤ i) :
    readCurve curve i = .error .curveBounds := by
  have beyond : curve.length ≤ i.toNat := by omega
  rw [readCurve, if_pos (by omega), List.getElem?_eq_none beyond]

section

variable {ops : Arithmetic α} {better : α → α → Bool} {utility : ℕ → Except Misuse α}
  {curve : List α} {cur parts : ℕ}

/-- Where the utility of every part is defined, the search ends with one of the parts. -/
theorem exists_maxMarginalUtil (ops : Arithmetic α) (better : α → α → Bool)
    (some_part : 1 ≤ parts)
    (defined : ∀ p, 1 ≤ p → p ≤ parts → ∃ mu, utility p = .ok mu) :
    ∃ mu part, maxMarginalUtil ops better utility parts = .ok (mu, part) ∧ 1 ≤ part ∧
      part ≤ parts := by
  obtain ⟨count, rfl⟩ : ∃ count, parts = count + 1 := ⟨parts - 1, by omega⟩
  -- The first part replaces the number that stands for nothing found.
  obtain ⟨first, isFirst⟩ := defined 1 (le_refl 1) some_part
  have stepped : tryPart ops better utility (ops.ofNat 1000, 0) 1 = .ok (first, 1) := by
    rw [tryPart, isFirst, ok_bind]
    dsimp only
    rw [ops.sentinel, Bool.true_or, if_pos rfl]
    rfl
  have others : ∀ best : α × ℕ, (1 ≤ best.2 ∧ best.2 ≤ count + 1) →
      ∀ p ∈ List.range' 2 count, ∃ next, tryPart ops better utility best p = .ok next ∧
        1 ≤ next.2 ∧ next.2 ≤ count + 1 := by
    intro best isPart p isMember
    obtain ⟨above, below⟩ := List.mem_range'_1.mp isMember
    obtain ⟨mu, isUtility⟩ := defined p (by omega) (by omega)
    rw [tryPart, isUtility, ok_bind]
    refine ⟨_, rfl, ?_⟩
    split
    · exact ⟨by omega, by omega⟩
    · exact isPart
  obtain ⟨⟨mu, part⟩, isRun, isPart⟩ := exists_run_of_total others
    (show 1 ≤ (first, 1).2 ∧ (first, 1).2 ≤ count + 1 from ⟨le_refl 1, by simp⟩)
  refine ⟨mu, part, ?_, isPart⟩
  rw [maxMarginalUtil, List.range'_succ, run_cons_of_ok stepped]
  exact isRun

theorem exists_mrcUtility (ops : Arithmetic α) {p : ℕ} (held : 1 ≤ cur)
    (within : cur + p ≤ curve.length) : ∃ mu, mrcUtility ops curve cur p = .ok mu := by
  obtain ⟨far, isFar⟩ := @exists_readCurve α curve ((cur : ℤ) + p - 1) (by omega) (by omega)
  obtain ⟨near, isNear⟩ := @exists_readCurve α curve ((cur : ℤ) - 1) (by omega) (by omega)
  exact ⟨_, by rw [mrcUtility, isFar, ok_bind, isNear, ok_bind]; rfl⟩

/-- An IPC utility also needs the value at three ways. -/
theorem exists_ipcUtility (ops : Arithmetic α) {p : ℕ} (held : 1 ≤ cur)
    (within : cur + p ≤ curve.length) (base : 3 ≤ curve.length) :
    ∃ mu, ipcUtility ops curve cur p = .ok mu := by
  obtain ⟨far, isFar⟩ := @exists_readCurve α curve ((cur : ℤ) + p - 1) (by omega) (by omega)
  obtain ⟨near, isNear⟩ := @exists_readCurve α curve ((cur : ℤ) - 1) (by omega) (by omega)
  obtain ⟨value, isBase⟩ := @exists_readCurve α curve (baseIPCallocation - 1) (by decide)
    (by rw [baseIPCallocation]; omega)
  exact ⟨_, by rw [ipcUtility, isFar, ok_bind, isNear, ok_bind, isBase, ok_bind]; rfl⟩

theorem ipcUtility_eq_error (ops : Arithmetic α) {p : ℕ} (held : 1 ≤ cur)
    (within : cur + p ≤ curve.length) (noBase : curve.length < 3) :
    ipcUtility ops curve cur p = .error .curveBounds := by
  obtain ⟨far, isFar⟩ := @exists_readCurve α curve ((cur : ℤ) + p - 1) (by omega) (by omega)
  obtain ⟨near, isNear⟩ := @exists_readCurve α curve ((cur : ℤ) - 1) (by omega) (by omega)
  rw [ipcUtility, isFar, ok_bind, isNear, ok_bind,
    readCurve_eq_error (by rw [baseIPCallocation]; omega)]
  rfl

end

end Datamime.CacheUtils
