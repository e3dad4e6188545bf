/-
# What smoothing does to a curve

Smoothing replaces a miss curve by the greatest falling curve below it, and an IPC curve by the
least rising curve above it, as long as every value of the curve is a number or an infinity.
Nothing lies below a value that is no number. The dumps of the profiler smooth the columns that
they write with loops of their own, which do the same.
-/

import Datamime.CacheUtils.MarginalUtil
import Datamime.Math.ExtendedRational
import Datamime.Math.RunningBound
import Datamime.Profiler.CurveFiles

namespace Datamime.CacheUtils

open Datamime.Math Datamime.Profiler

/-- The arithmetic of doubles, infinities and not-a-number included. -/
def floating : Arithmetic ERat where
  sub := fun a b => a + -b
  mul := fun a b => a * b
  div := fun a b => a / b
  ofNat := fun n => .num n
  lt := ERat.lt
  eq := fun a b => decide (a = b) && !a.isNan
  sentinel := by simp

theorem picksMeet_stdMin : PicksMeet ERat.AtMost ERat.stdMin where
  trans := ERat.le_trans
  ordered := fun related =>
    ⟨ERat.atMost_self_iff.mpr (ERat.ne_nan_of_le related).1,
      ERat.atMost_self_iff.mpr (ERat.ne_nan_of_le related).2⟩
  left := by
    intro a b isOrdered alsoOrdered
    rw [ERat.stdMin]
    split
    · exact ERat.le_of_lt (by assumption)
    · exact isOrdered
  right := by
    intro a b isOrdered alsoOrdered
    rw [ERat.stdMin]
    split
    · exact alsoOrdered
    · rename_i notLess
      exact ERat.le_of_not_lt (ERat.atMost_self_iff.mp isOrdered)
        (ERat.atMost_self_iff.mp alsoOrdered) (Bool.eq_false_of_not_eq_true notLess)
  greatest := by
    intro a b c belowFirst belowSecond
    rw [ERat.stdMin]
    split
    · exact belowSecond
    · exact belowFirst
  of_below := by
    intro a b related
    rw [ERat.stdMin]
    split
    · rfl
    · rename_i notLess
      exact (ERat.eq_of_le_of_not_lt related (Bool.eq_false_of_not_eq_true notLess)).symm

theorem picksMeet_stdMax : PicksMeet ERat.AtLeast ERat.stdMax where
  trans := fun first second => ERat.le_trans second first
  ordered := fun related =>
    ⟨ERat.atLeast_self_iff.mpr (ERat.ne_nan_of_le related).2,
      ERat.atLeast_self_iff.mpr (ERat.ne_nan_of_le related).1⟩
  left := by
    intro a b isOrdered alsoOrdered
    rw [ERat.stdMax]
    split
    · exact ERat.le_of_lt (by assumption)
    · exact isOrdered
  right := by
    intro a b isOrdered alsoOrdered
    rw [ERat.stdMax]
    split
    · exact alsoOrdered
    · rename_i notLess
      exact ERat.le_of_not_lt (ERat.atLeast_self_iff.mp alsoOrdered)
        (ERat.atLeast_self_iff.mp isOrdered) (Bool.eq_false_of_not_eq_true notLess)
  greatest := by
    intro a b c belowFirst belowSecond
    rw [ERat.stdMax]
    split
    · exact belowSecond
    · exact belowFirst
  of_below := by
    intro a b related
    rw [ERat.stdMax]
    split
    · rfl
    · rename_i notLess
      exact ERat.eq_of_le_of_not_lt related (Bool.eq_false_of_not_eq_true notLess)

/-! ## One column -/

section

variable {below : ERat → ERat → Prop} {pick : ERat → ERat → ERat}

/-- A column is smoothed to the greatest falling one below it, unless it has a value that is not
a number: nothing lies below such a column. -/
theorem isGreatestFalling_smoothColumn_iff (meet : PicksMeet below pick)
    (ordered_iff : ∀ a, below a a ↔ a ≠ .nan) (column : List ERat) :
    IsGreatestFalling below column (smoothColumn pick column) ↔ ERat.nan ∉ column := by
  constructor
  · intro isBound isNan
    exact (ordered_iff .nan).mp (isBound.lies.ordered_of_mem meet isNan) rfl
  · intro areNumbers
    have ordered : ∀ value ∈ column, below value value := by
      intro value isValue
      apply (ordered_iff value).mpr
      rintro rfl
      exact areNumbers isValue
    cases column with
    | nil => exact ⟨List.Pairwise.nil, .nil, fun other _ lies => lies⟩
    | cons first rest => exact isGreatestFalling_scanl meet ordered

theorem smoothColumn_smoothColumn (settles : PickSettles pick) (column : List ERat) :
    smoothColumn pick (smoothColumn pick column) = smoothColumn pick column := by
  cases column with
  | nil => rfl
  | cons first rest =>
      have unfolded : smoothColumn pick (rest.scanl pick first) =
          (rest.scanl pick first).tail.scanl pick first := by
        cases rest with
        | nil => rfl
        | cons value rest => rw [List.scanl_cons, smoothColumn, List.tail_cons]
      rw [smoothColumn, unfolded, scanl_tail_scanl settles]

theorem liesBelow_smoothColumn (meet : PicksMeet below pick) {lower upper : List ERat}
    (lies : LiesBelow below lower upper) :
    LiesBelow below (smoothColumn pick lower) (smoothColumn pick upper) := by
  cases lies with
  | nil => exact .nil
  | cons start lies => exact LiesBelow.scanl meet start lies

theorem smoothColumn_of_falling (meet : PicksMeet below pick) {column : List ERat}
    (falling : Falling below column) : smoothColumn pick column = column := by
  cases column with
  | nil => rfl
  | cons first rest => exact falling.scanl_eq meet

theorem head?_smoothColumn (pick : ERat → ERat → ERat) (column : List ERat) :
    (smoothColumn pick column).head? = column.head? := by
  cases column with
  | nil => rfl
  | cons first rest => rw [smoothColumn, List.head?_scanl, List.head?_cons]

/-- Negation turns the two ways of smoothing into each other. -/
theorem smoothColumn_map_neg (column : List ERat) :
    smoothColumn ERat.stdMax (column.map (-·)) = (smoothColumn ERat.stdMin column).map (-·) := by
  have commutes (a b : ERat) : -ERat.stdMin a b = ERat.stdMax (-a) (-b) := by
    rw [ERat.stdMin, ERat.stdMax, ERat.lt_neg_neg]
    split <;> rfl
  cases column with
  | nil => rfl
  | cons first rest => exact (map_scanl commutes first rest).symm

/-- The loop of the dumps. -/
theorem smooth_eq_smoothColumn (pick : ERat → ERat → ERat) (column : List ERat) :
    smooth pick column = smoothColumn pick column := by
  cases column with
  | nil => rfl
  | cons first rest =>
      rw [smooth, smoothColumn]
      induction rest generalizing first with
      | nil => rfl
      | cons value rest ih => rw [smoothFrom, ih, List.scanl_cons]

end

/-! ## Matrices -/

/-- A matrix with a function applied to its entries. -/
def CurveMatrix.map {α β : Type} (f : α → β) (matrix : CurveMatrix α) : CurveMatrix β where
  nRows := matrix.nRows
  columns := matrix.columns.map (List.map f)
  sized := by
    intro column isColumn
    rcases List.mem_map.mp isColumn with ⟨curve, isCurve, rfl⟩
    rw [List.length_map, matrix.sized curve isCurve]

/-- The first row of a matrix. -/
def CurveMatrix.firstRow {α : Type} (matrix : CurveMatrix α) : List (Option α) :=
  matrix.columns.map List.head?

theorem CurveMatrix.ext_columns {α : Type} {first second : CurveMatrix α}
    (rows : first.nRows = second.nRows) (columns : first.columns = second.columns) :
    first = second := by
  rcases first with ⟨nRows, firstColumns, sized⟩
  subst rows columns
  rfl

theorem columns_map {α β : Type} (f : α → β) (matrix : CurveMatrix α) :
    (matrix.map f).columns = matrix.columns.map (List.map f) := rfl

theorem columns_smoothen {α : Type} (pick : α → α → α) (matrix : CurveMatrix α) :
    (smoothen pick matrix).columns = matrix.columns.map (smoothColumn pick) := rfl

/-- What a function that smooths a matrix does, in the order `below`. -/
structure Smooths (below : ERat → ERat → Prop) (smoothing : CurveMatrix ERat → CurveMatrix ERat) :
    Prop where
  /-- A column of numbers becomes the greatest falling one below it. -/
  extreme : ∀ matrix, List.Forall₂
    (fun column smoothed => IsGreatestFalling below column smoothed ↔ ERat.nan ∉ column)
    matrix.columns (smoothing matrix).columns
  idempotent : ∀ matrix, smoothing (smoothing matrix) = smoothing matrix
  monotone : ∀ lower upper : CurveMatrix ERat,
    List.Forall₂ (LiesBelow below) lower.columns upper.columns →
    List.Forall₂ (LiesBelow below) (smoothing lower).columns (smoothing upper).columns
  fixes : ∀ (matrix : CurveMatrix ERat) (j : ℕ) (column : List ERat),
    matrix.columns[j]? = some column → Falling below column →
    (smoothing matrix).columns[j]? = some column
  firstRow : ∀ matrix, (smoothing matrix).firstRow = matrix.firstRow

theorem smooths_smoothen {below : ERat → ERat → Prop} {pick : ERat → ERat → ERat}
    (meet : PicksMeet below pick) (settles : PickSettles pick)
    (ordered_iff : ∀ a, below a a ↔ a ≠ .nan) : Smooths below (smoothen pick) where
  extreme := by
    intro matrix
    rw [columns_smoothen, List.forall₂_map_right_iff, List.forall₂_same]
    exact fun column _ => isGreatestFalling_smoothColumn_iff meet ordered_iff column
  idempotent := by
    intro matrix
    refine CurveMatrix.ext_columns (by rfl) ?_
    rw [columns_smoothen, columns_smoothen, List.map_map]
    exact List.map_congr_left fun column _ => smoothColumn_smoothColumn settles column
  monotone := by
    intro lower upper lies
    rw [columns_smoothen, columns_smoothen, List.forall₂_map_left_iff,
      List.forall₂_map_right_iff]
    exact lies.imp fun _ _ => liesBelow_smoothColumn meet
  fixes := by
    intro matrix j column isColumn falling
    rw [columns_smoothen, List.getElem?_map, isColumn, Option.map_some,
      smoothColumn_of_falling meet falling]
  firstRow := by
    intro matrix
    rw [CurveMatrix.firstRow, CurveMatrix.firstRow, columns_smoothen, List.map_map]
    exact List.map_congr_left fun column _ => head?_smoothColumn pick column

theorem smoothenMrcs_floating : smoothenMrcs floating = smoothen ERat.stdMin := rfl

theorem smoothenIpcs_floating : smoothenIpcs floating = smoothen ERat.stdMax := rfl

theorem smoothenIpcs_map_neg (matrix : CurveMatrix ERat) :
    smoothenIpcs floating (matrix.map (-·)) = (smoothenMrcs floating matrix).map (-·) := by
  refine CurveMatrix.ext_columns (by rfl) ?_
  rw [smoothenIpcs_floating, smoothenMrcs_floating, columns_smoothen, columns_map, columns_map,
    columns_smoothen, List.map_map, List.map_map]
  exact List.map_congr_left fun column _ => smoothColumn_map_neg column

/-- A dump smooths the columns up to the current one and leaves the others. -/
theorem smoothColumns_eq (pick : ERat → ERat → ERat) (mrcEstIndex : ℕ)
    (matrix : CurveMatrix ERat) :
    smoothColumns pick mrcEstIndex matrix.columns =
      (smoothen pick matrix).columns.take (mrcEstIndex + 1) ++
        matrix.columns.drop (mrcEstIndex + 1) := by
  rw [smoothColumns, columns_smoothen, ← List.map_take]
  congr 1
  exact List.map_congr_left fun column _ => smooth_eq_smoothColumn pick column

theorem eq_smoothColumns_of_dumpEstimates {pick : ERat → ERat → ERat}
    {cacheNumWays mrcEstIndex : ℕ} {columns estimates : List (List ERat)}
    {file nextFile : Option (List Char)}
    (dumped : dumpEstimates pick cacheNumWays mrcEstIndex columns file =
      .ok (estimates, nextFile)) :
    estimates = smoothColumns pick mrcEstIndex columns := by
  cases file with
  | none => cases dumped
  | some text =>
      cases dumped
      rfl

theorem mrcEstimates_of_dump {cacheNumWays : ℕ} {tinfo next : ThreadInfo}
    (dumped : dumpMrcEstimates cacheNumWays tinfo = .ok next) (matrix : CurveMatrix ERat)
    (stored : matrix.columns = tinfo.mrcEstimates) :
    next.mrcEstimates =
      (smoothenMrcs floating matrix).columns.take (tinfo.mrcEstIndex + 1) ++
        tinfo.mrcEstimates.drop (tinfo.mrcEstIndex + 1) := by
  rcases bind_eq_ok_iff.mp dumped with ⟨⟨estimates, file⟩, smoothed, returned⟩
  cases returned
  rw [← stored, smoothenMrcs_floating, ← smoothColumns_eq, stored]
  exact eq_smoothColumns_of_dumpEstimates smoothed

theorem ipcCurveEstimates_of_dump {cacheNumWays : ℕ} {tinfo next : ThreadInfo}
    (dumped : dumpIpcEstimates cacheNumWays tinfo = .ok next) (matrix : CurveMatrix ERat)
    (stored : matrix.columns = tinfo.ipcCurveEstimates) :
    next.ipcCurveEstimates =
      (smoothenIpcs floating matrix).columns.take (tinfo.mrcEstIndex + 1) ++
        tinfo.ipcCurveEstimates.drop (tinfo.mrcEstIndex + 1) := by
  rcases bind_eq_ok_iff.mp dumped with ⟨⟨estimates, file⟩, smoothed, returned⟩
  cases returned
  rw [← stored, smoothenIpcs_floating, ← smoothColumns_eq, stored]
  exact eq_smoothColumns_of_dumpEstimates smoothed

/-- Smoothing the miss curves and smoothing the IPC curves, negation between them, and the dumps.
In `Smooths` the two orders stand for the two directions: along `ERat.AtLeast` a falling curve below
another one is a rising curve above it. -/
theorem smoothing_laws :
    Smooths ERat.AtMost (smoothenMrcs floating) ∧ Smooths ERat.AtLeast (smoothenIpcs floating) ∧
    (∀ matrix : CurveMatrix ERat,
      smoothenIpcs floating (matrix.map (-·)) = (smoothenMrcs floating matrix).map (-·)) ∧
    (∀ (cacheNumWays : ℕ) (tinfo next : ThreadInfo) (matrix : CurveMatrix ERat),
      dumpMrcEstimates cacheNumWays tinfo = .ok next → matrix.columns = tinfo.mrcEstimates →
      next.mrcEstimates =
        (smoothenMrcs floating matrix).columns.take (tinfo.mrcEstIndex + 1) ++
          tinfo.mrcEstimates.drop (tinfo.mrcEstIndex + 1)) ∧
    ∀ (cacheNumWays : ℕ) (tinfo next : ThreadInfo) (matrix : CurveMatrix ERat),
      dumpIpcEstimates cacheNumWays tinfo = .ok next → matrix.columns = tinfo.ipcCurveEstimates →
      next.ipcCurveEstimates =
        (smoothenIpcs floating matrix).columns.take (tinfo.mrcEstIndex + 1) ++
          tinfo.ipcCurveEstimates.drop (tinfo.mrcEstIndex + 1) := by
  refine ⟨?_, ?_, smoothenIpcs_map_neg, ?_, ?_⟩
  · exact smooths_smoothen picksMeet_stdMin pickSettles_stdMin fun _ => ERat.atMost_self_iff
  · exact smooths_smoothen picksMeet_stdMax pickSettles_stdMax fun _ => ERat.atLeast_self_iff
  · exact fun _ _ _ matrix dumped stored => mrcEstimates_of_dump dumped matrix stored
  · exact fun _ _ _ matrix dumped stored => ipcCurveEstimates_of_dump dumped matrix stored

/-- Two applications, each of which has a value that rises. -/
def risingMisses : CurveMatrix ERat where
  nRows := 3
  columns := [[.num 3, .num 5, .num 2], [.num 4, .num 1, .num 6]]
  sized := by simp

/-- A thread that stored the curves and dumps after its first round. -/
def risingThread : ThreadInfo :=
  { secondThread with
    mrcEstimates := risingMisses.columns, mrcEstIndex := 0, mrcOutfile := some [] }

theorem smoothing_laws_rising :
    IsGreatestFalling ERat.AtMost [.num 3, .num 5, .num 2] [.num 3, .num 3, .num 2] ∧
    ∃ next, dumpMrcEstimates 3 risingThread = .ok next ∧
      next.mrcEstimates = [[.num 3, .num 3, .num 2], [.num 4, .num 1, .num 6]] := by
  constructor
  · cases smoothing_laws.1.extreme risingMisses with
    | cons first _ => exact first.mpr (by decide)
  · exact ⟨_, rfl, smoothing_laws.2.2.2.1 3 risingThread _ risingMisses rfl rfl⟩

/-- One application whose misses at two ways are not a number. -/
def undefinedMisses : CurveMatrix ERat where
  nRows := 2
  columns := [[.num 1, .nan]]
  sized := by simp

/-- The smoothed curve does not lie below a curve with a value that is no number. -/
theorem undefinedMisses_not_extreme :
    ¬ List.Forall₂ (IsGreatestFalling ERat.AtMost) undefinedMisses.columns
      (smoothenMrcs floating undefinedMisses).columns := by
  intro extreme
  cases extreme with
  | cons isBound _ => cases isBound.lies with
    | cons _ lies => cases lies with
      | cons related _ => cases related

end Datamime.CacheUtils
