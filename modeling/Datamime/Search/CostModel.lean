/-
# The cost of a profile against a target

The search compares two profiles metric by metric. A profile has eight counter
metrics, each a sample of numbers, and two curves, the misses and the
instructions per cycle against the number of cache ways, each with one sample
for every way. A metric costs the distance of the two samples after both are
divided by their common maximum; a curve costs the mean of that over its ways.
The total leaves out the metrics whose cost is not a number.
-/

import Datamime.Fault
import Datamime.Math.Empirical
import Datamime.Math.ExtendedRational

namespace Datamime.Search

open Datamime.Math Datamime.Math.ERat

/-! ## Numerical library -/

/-- The larger of two values, or not-a-number as soon as one of them is. -/
def npMaximum (a b : ERat) : ERat :=
  if a.isNan || b.isNan then nan else if lt a b then b else a

/-- `array.max()`. An empty array has none. -/
def npMax : List ERat → Except PyError ERat
  | [] => .error .valueError
  | first :: rest => .ok (rest.foldl npMaximum first)

/-- The entries of an array none of which is an infinity or not-a-number. -/
def finiteEntries : List ERat → Option (List ℚ)
  | [] => some []
  | num q :: rest => (finiteEntries rest).map (q :: ·)
  | _ :: _ => none

/-- `scipy.stats.wasserstein_distance`, exact on finite samples. -/
def wassersteinDistance (first second : List ERat) : ERat :=
  match finiteEntries first, finiteEntries second with
  | some first, some second => num (Empirical.distance first second)
  | _, _ => nan

/-! ## Sample normalization -/

/-- `normalize_samples`: divide both samples by the maximum of all entries. -/
def normalizeSamples (s1 s2 : List ERat) : Except PyError (List ERat × List ERat) := do
  let max1 ← npMax s1
  let max2 ← npMax s2
  -- Python's `max` keeps its first argument unless the second is larger.
  let omax := stdMax max1 max2
  return (s1.map (· / omax), s2.map (· / omax))

def statisticalDistance (u v : List ERat) : ERat := wassersteinDistance u v

/-! ## Profiles -/

/-- The metrics that come straight from performance counters. -/
inductive CounterMetric
  | ci
  | l1iMpki
  | l1dMpki
  | l2Mpki
  | brMpki
  | itlbMpki
  | dtlbMpki
  | locMembw
  deriving DecidableEq

/-- The keys of the cost dictionary, the total apart. -/
inductive Metric
  | counter (metric : CounterMetric)
  | mrc
  | ipc
  deriving DecidableEq

/-- The counter metrics, in the order in which the dictionaries hold them. -/
def CounterMetric.all : List CounterMetric :=
  [ci, l1iMpki, l1dMpki, l2Mpki, brMpki, itlbMpki, dtlbMpki, locMembw]

/-- The keys of the cost dictionary in insertion order. -/
def Metric.all : List Metric := CounterMetric.all.map counter ++ [mrc, ipc]

theorem Metric.mem_all (metric : Metric) : metric ∈ Metric.all := by
  rcases metric with metric | _ | _
  · cases metric <;> decide
  · decide
  · decide

/-- A two-dimensional array: one row for each estimate, one column for each way. -/
structure Curves where
  ways : ℕ
  rows : List (List ERat)
  rectangular : ∀ row ∈ rows, row.length = ways

/-- `curves[:,w]`. -/
def Curves.column (curves : Curves) (w : ℕ) : Except PyError (List ERat) :=
  if w < curves.ways then .ok (curves.rows.map fun row => row.getD w nan)
  else .error .indexError

/-- The statistics of the two curves, present only when they are meaningful. -/
structure CurveStats where
  mrcMeans : List ERat
  mrcMaxs : List ERat
  mrcMins : List ERat
  ipcMeans : List ERat
  ipcMaxs : List ERat
  ipcMins : List ERat

/-- The statistics dictionary of one profile, as far as costs are computed from it. -/
structure Stats where
  samples : CounterMetric → List ERat
  curveStats : Option CurveStats

/-- `np.any`: some entry is not zero. -/
def Curves.any (curves : Curves) : Bool := curves.rows.any fun row => row.any (· ≠ 0)

/-- Apply a statistic to every column. -/
def Curves.mapColumns (curves : Curves) (statistic : List ERat → ERat) : List ERat :=
  (List.range curves.ways).map fun w =>
    statistic (curves.rows.map fun row => row.getD w nan)

/-- The mean of a column. -/
def mean (column : List ERat) : ERat := column.foldl (· + ·) 0 / num column.length

/-- A column statistic that folds the entries pairwise. -/
def fold1 (combine : ERat → ERat → ERat) : List ERat → ERat
  | [] => nan
  | first :: rest => rest.foldl combine first

/-- The curve part of `generate_stats`: left out when either array is all zero. -/
def curveStats (mrcs ipcs : Curves) : Option CurveStats :=
  if mrcs.any && ipcs.any then
    some {
      mrcMeans := mrcs.mapColumns mean
      mrcMaxs := mrcs.mapColumns (fold1 stdMax)
      mrcMins := mrcs.mapColumns (fold1 stdMin)
      ipcMeans := ipcs.mapColumns mean
      ipcMaxs := ipcs.mapColumns (fold1 stdMax)
      ipcMins := ipcs.mapColumns (fold1 stdMin) }
  else none

/-! ## The cost -/

/-- The cost dictionary. -/
structure Costs where
  subcost : Metric → ERat
  totalCost : ERat

/-- Uniform weights. -/
def weights : Metric → ERat := fun _ => num 1

/-- The metrics that are left out of the total by name: none. -/
def skip : List Metric := []

/-- The cost of one pair of samples. -/
def sampleCost (s t : List ERat) : Except PyError ERat := do
  let (sNormed, tNormed) ← normalizeSamples s t
  return statisticalDistance sNormed tNormed

/-- The loop over the ways: both curve costs accumulate side by side. -/
def sumWays (mrcs ipcs tmrcs tipcs : Curves) :
    List ℕ → ERat × ERat → Except PyError (ERat × ERat)
  | [], costs => .ok costs
  | w :: rest, (mrcCost, ipcCost) => do
      let mrcSlice ← mrcs.column w
      let ipcSlice ← ipcs.column w
      let tmrcSlice ← tmrcs.column w
      let tipcSlice ← tipcs.column w
      let mrcStep ← sampleCost mrcSlice tmrcSlice
      let ipcStep ← sampleCost ipcSlice tipcSlice
      sumWays mrcs ipcs tmrcs tipcs rest (mrcCost + mrcStep, ipcCost + ipcStep)

/-- The loop that adds the sub-costs up, skipping those that are not numbers. -/
def addCosts (subcost : Metric → ERat) : List Metric → ERat → ERat
  | [], total => total
  | metric :: rest, total =>
      if (subcost metric).isNan then addCosts subcost rest total
      else if metric ∈ skip then addCosts subcost rest total
      else addCosts subcost rest (total + subcost metric * weights metric)

/-- `subcost` after all its entries are assigned. -/
def subcostOf (counterCost : CounterMetric → ERat) (mrcCost ipcCost : ERat) : Metric → ERat
  | .counter metric => counterCost metric
  | .mrc => mrcCost
  | .ipc => ipcCost

/-- `calculate_cost`. Reading a missing entry of a statistics dictionary raises. -/
def calculateCost (tstats : Stats) (tmrcs tipcs : Curves) (stats : Stats) (mrcs ipcs : Curves) :
    Except PyError Costs := do
  if tstats.curveStats.isNone || stats.curveStats.isNone then throw .keyError
  let counterCosts ← CounterMetric.all.mapM fun metric => do
    let cost ← sampleCost (stats.samples metric) (tstats.samples metric)
    return (metric, cost)
  let ways := mrcs.ways
  let tways := tmrcs.ways
  if ¬ (tways = ways ∧ ways = 12) then throw .assertionError
  let (mrcCost, ipcCost) ← sumWays mrcs ipcs tmrcs tipcs (List.range ways) (0, 0)
  let subcost := subcostOf (fun metric => (counterCosts.lookup metric).getD nan)
    (mrcCost / num ways) (ipcCost / num ways)
  return { subcost, totalCost := addCosts subcost Metric.all 0 }

end Datamime.Search
