/-
# The statistics of a measured profile

A run leaves a table of counter samples and two files of curves. `generate_stats`
turns them into the samples that costs compare: ratios of counters, a few of them
sums of ratios that were sampled in different groups. Which counters it reads
depends on the microarchitecture, since they go by different names.

What can go wrong on the way is part of the model: a column that is not there, a
variable that only some branches assign, and an array of one dimension where two
are expected, which is what `loadtxt` makes of a file with a single column.
-/

import Datamime.Search.CostModel

namespace Datamime.Search

open Datamime.Math Datamime.Math.ERat

/-! ## Tables -/

/-- A table of samples. Counters of other groups leave a cell that is not a number. -/
structure Frame where
  rows : ℕ
  column : String → Option (List ERat)
  rectangular : ∀ name cells, column name = some cells → cells.length = rows

/-- `ctrs[name]`. -/
def Frame.get (ctrs : Frame) (name : String) : Except PyError (List ERat) :=
  match ctrs.column name with
  | some cells => .ok cells
  | none => .error .keyError

/-- Divide cell by cell. -/
def divide (numerators denominators : List ERat) : List ERat :=
  List.zipWith (· / ·) numerators denominators

/-- Multiply every cell by a number. -/
def times (factor : ℚ) (cells : List ERat) : List ERat := cells.map (num factor * ·)

def npSum (entries : List ERat) : ERat := entries.foldl (· + ·) 0

/-- `filter_nan`. -/
def filterNan (entries : List ERat) : List ERat := entries.filter fun entry => !entry.isNan

/-- Entrywise addition. An array with a single entry is stretched, other lengths have to agree. -/
def npAdd (s1 s2 : List ERat) : Except PyError (List ERat) :=
  if s1.length = s2.length then .ok (List.zipWith (· + ·) s1 s2)
  else if s1.length = 1 then .ok (s2.map (s1.headD nan + ·))
  else if s2.length = 1 then .ok (s1.map (· + s2.headD nan))
  else .error .valueError

/-- `truncate_and_add`. The second cut already sees the first one's result. -/
def truncateAndAdd (s1 s2 : List ERat) : Except PyError (List ERat) :=
  if s1.length ≠ s2.length then
    let s1 := s1.take (min s1.length s2.length)
    let s2 := s2.take (min s1.length s2.length)
    npAdd s1 s2
  else npAdd s1 s2

/-! ## Curves from files -/

/-- A curve file has one line for each of twelve ways and one column for each estimate. -/
structure CurveFile where
  estimates : List (Fin 12 → ERat)
  nonempty : estimates ≠ []

/-- What `loadtxt` returns: an array of one or of two dimensions. -/
inductive LoadedArray
  | vector (entries : List ERat)
  | matrix (curves : Curves)

/-- `np.loadtxt(.., unpack=True)`: one row for each column of the file, except that dimensions of
length one are dropped. -/
def CurveFile.loadtxt (file : CurveFile) : LoadedArray :=
  match file.estimates with
  | [only] => .vector (List.ofFn only)
  | estimates => .matrix {
      ways := 12
      rows := estimates.map List.ofFn
      rectangular := by simp }

/-- `np.any`. -/
def LoadedArray.any : LoadedArray → Bool
  | vector entries => entries.any (· ≠ 0)
  | matrix curves => curves.any

/-- What a reduction along the first axis returns: a number or a list of numbers. -/
inductive Reduced
  | scalar (entry : ERat)
  | vector (entries : List ERat)

/-- Apply a statistic along the first axis. -/
def LoadedArray.reduce (statistic : List ERat → ERat) : LoadedArray → Reduced
  | vector entries => .scalar (statistic entries)
  | matrix curves => .vector (curves.mapColumns statistic)

/-- `reduced.shape[0]`. A number has the empty shape. -/
def Reduced.shape0 : Reduced → Except PyError ℕ
  | scalar _ => .error .indexError
  | vector entries => .ok entries.length

/-- `reduced.reshape(n, 1)`. -/
def Reduced.reshape (n : ℕ) : Reduced → Except PyError (List ERat)
  | scalar entry => if n = 1 then .ok [entry] else .error .valueError
  | vector entries => if entries.length = n then .ok entries else .error .valueError

/-- The entries of a reduction. -/
def Reduced.entries : Reduced → List ERat
  | scalar entry => [entry]
  | vector entries => entries

/-- The smaller of two values, or not-a-number as soon as one of them is. -/
def npMinimum (a b : ERat) : ERat :=
  if a.isNan || b.isNan then nan else if lt b a then b else a

/-- The curve part of `generate_stats`: left out when either array is all zero. -/
def generateCurveStats (mrcs ipcs : LoadedArray) : Except PyError (Option CurveStats) :=
  if mrcs.any && ipcs.any then do
    let mrcMeans := mrcs.reduce mean
    let ipcMeans := ipcs.reduce mean
    let mrcMaxs := mrcs.reduce (fold1 npMaximum)
    let mrcMins := mrcs.reduce (fold1 npMinimum)
    let ipcMaxs := ipcs.reduce (fold1 npMaximum)
    let ipcMins := ipcs.reduce (fold1 npMinimum)
    let mrcMaxs ← mrcMaxs.reshape (← mrcMaxs.shape0)
    let mrcMins ← mrcMins.reshape mrcMaxs.length
    let ipcMaxs ← ipcMaxs.reshape (← ipcMaxs.shape0)
    let ipcMins ← ipcMins.reshape ipcMaxs.length
    return some {
      mrcMeans := mrcMeans.entries, mrcMaxs, mrcMins
      ipcMeans := ipcMeans.entries, ipcMaxs, ipcMins }
  else return none

/-! ## Microarchitectures -/

/-- The choices of `--uarch`. -/
inductive Uarch
  | broadwell
  | skylake
  | skylakeOld
  deriving DecidableEq

/-- The variables that the branches assign. Not every branch assigns the last one. -/
structure ArchMetrics where
  brMpki : List ERat
  l1iMpki : List ERat
  l1dMpki : List ERat
  l2Mpki : List ERat
  itlbMpki : List ERat
  dtlbMpki : List ERat
  locMembw : Option (List ERat)

/-- `1000 * ctrs[name] / ctrs["INST_RETIRED"]`. -/
def perKilo (ctrs : Frame) (name : String) : Except PyError (List ERat) := do
  let events ← ctrs.get name
  let instructions ← ctrs.get "INST_RETIRED"
  return divide (times 1000 events) instructions

/-- `filter_nan((1000 * ctrs[name] / ctrs["INST_RETIRED"]).to_numpy())`. -/
def filteredPerKilo (ctrs : Frame) (name : String) : Except PyError (List ERat) := do
  return filterNan (← perKilo ctrs name)

/-- `filter_nan(1000 * (ctrs[name] / ctrs["INST_RETIRED"]).to_numpy())`. -/
def filteredKiloRatio (ctrs : Frame) (name : String) : Except PyError (List ERat) := do
  let events ← ctrs.get name
  let instructions ← ctrs.get "INST_RETIRED"
  return filterNan (times 1000 (divide events instructions))

/-- The memory bandwidth, from the traffic and the reference cycles. -/
def memBandwidth (ctrs : Frame) (tscFreqMhz : ℤ) : Except PyError (List ERat) := do
  let traffic ← ctrs.get "local_mem_traffic"
  let cycles ← ctrs.get "ref_cycles"
  return divide (traffic.map fun bytes => bytes * num tscFreqMhz * num 1000000) cycles

/-- The data TLB metric, alike for both current microarchitectures. -/
def dtlbMetric (ctrs : Frame) : Except PyError (List ERat) := do
  let ldSHit ← filteredKiloRatio ctrs "DTLB_LOAD_MISSES.STLB_HIT"
  let ldSMiss ← filteredKiloRatio ctrs "DTLB_LOAD_MISSES.MISS_CAUSES_A_WALK"
  let stSHit ← filteredKiloRatio ctrs "DTLB_STORE_MISSES.STLB_HIT"
  let stSMiss ← filteredKiloRatio ctrs "DTLB_STORE_MISSES.MISS_CAUSES_A_WALK"
  let ldStats ← truncateAndAdd ldSHit ldSMiss
  let stStats ← truncateAndAdd stSHit stSMiss
  truncateAndAdd ldStats stStats

/-- The branch for `skylake`. -/
def skylakeMetrics (ctrs : Frame) (tscFreqMhz : ℤ) : Except PyError ArchMetrics := do
  let brMpki ← filteredPerKilo ctrs "BR_MISP_RETIRED.ALL_BRANCHES"
  let l1iMpki ← filteredPerKilo ctrs "FRONTEND_RETIRED.L1I_MISS"
  let itlbMpki ← filteredPerKilo ctrs "FRONTEND_RETIRED.ITLB_MISS"
  let ldL1dMpki ← filteredKiloRatio ctrs "MEM_LOAD_RETIRED.L1_MISS"
  let stL1dMpki ← filteredKiloRatio ctrs "L2_RQSTS.ALL_RFO"
  let l1dMpki ← truncateAndAdd ldL1dMpki stL1dMpki
  let ldL2Mpki ← filteredKiloRatio ctrs "MEM_LOAD_RETIRED.L2_MISS"
  let stL2Mpki ← filteredKiloRatio ctrs "OFFCORE_REQUESTS.DEMAND_RFO"
  let l2Mpki ← truncateAndAdd ldL2Mpki stL2Mpki
  let dtlbMpki ← dtlbMetric ctrs
  let locMembw ← memBandwidth ctrs tscFreqMhz
  return { brMpki, l1iMpki, l1dMpki, l2Mpki, itlbMpki, dtlbMpki, locMembw := some locMembw }

/-- The branch for `broadwell`. -/
def broadwellMetrics (ctrs : Frame) (tscFreqMhz : ℤ) : Except PyError ArchMetrics := do
  let brMpki ← filteredPerKilo ctrs "BR_MISP_RETIRED.ALL_BRANCHES"
  let l1iMpki ← filteredPerKilo ctrs "ICACHE.MISSES"
  let ldL1dMpki ← filteredKiloRatio ctrs "MEM_LOAD_UOPS_RETIRED.L1_MISS"
  let stL1dMpki ← filteredKiloRatio ctrs "L2_TRANS.RFO"
  let l1dMpki ← truncateAndAdd ldL1dMpki stL1dMpki
  let ldL2Mpki ← filteredKiloRatio ctrs "MEM_LOAD_UOPS_RETIRED.L2_MISS"
  let stL2Mpki ← filteredKiloRatio ctrs "OFFCORE_REQUESTS.DEMAND_RFO"
  let l2Mpki ← truncateAndAdd ldL2Mpki stL2Mpki
  let iHit ← filteredKiloRatio ctrs "ITLB_MISSES.STLB_HIT"
  let iMiss ← filteredKiloRatio ctrs "ITLB_MISSES.MISS_CAUSES_A_WALK"
  let itlbMpki ← truncateAndAdd iHit iMiss
  let dtlbMpki ← dtlbMetric ctrs
  let locMembw ← memBandwidth ctrs tscFreqMhz
  return { brMpki, l1iMpki, l1dMpki, l2Mpki, itlbMpki, dtlbMpki, locMembw := some locMembw }

/-- The branch for `skylake-old`, which filters nothing and leaves the bandwidth unassigned. -/
def skylakeOldMetrics (ctrs : Frame) : Except PyError ArchMetrics := do
  let brMpki ← perKilo ctrs "BR_MISP_RETIRED"
  let l1iMpki ← perKilo ctrs "FRONTEND_RETIRED.L1I_MISS"
  let l1dMpki ← perKilo ctrs "MEM_LOAD_UOPS_RETIRED.L1_MISS"
  let l2Mpki ← perKilo ctrs "MEM_LOAD_UOPS_RETIRED.L2_MISS"
  let itlbMpki ← perKilo ctrs "FRONTEND_RETIRED.ITLB_MISS"
  let dtlbMpki ← perKilo ctrs "DTLB-LOADS"
  return { brMpki, l1iMpki, l1dMpki, l2Mpki, itlbMpki, dtlbMpki, locMembw := none }

def archMetrics (arch : Uarch) (ctrs : Frame) (tscFreqMhz : ℤ) : Except PyError ArchMetrics :=
  match arch with
  | .skylake => skylakeMetrics ctrs tscFreqMhz
  | .broadwell => broadwellMetrics ctrs tscFreqMhz
  | .skylakeOld => skylakeOldMetrics ctrs

/-- Reading a variable that no branch has assigned raises. -/
def readLocal {α : Type} : Option α → Except PyError α
  | some value => .ok value
  | none => .error .unboundLocalError

/-- The statistics dictionary, with the averages that costs do not read. -/
structure ProfileStats extends Stats where
  avgIpc : ERat
  avgCi : ERat
  ipcDist : List ERat

/-- The samples of the eight counter metrics. -/
def samplesOf (ci : List ERat) (metrics : ArchMetrics) (locMembw : List ERat) :
    CounterMetric → List ERat
  | .ci => ci
  | .l1iMpki => metrics.l1iMpki
  | .l1dMpki => metrics.l1dMpki
  | .l2Mpki => metrics.l2Mpki
  | .brMpki => metrics.brMpki
  | .itlbMpki => metrics.itlbMpki
  | .dtlbMpki => metrics.dtlbMpki
  | .locMembw => locMembw

/-- `generate_stats`. -/
def generateStats (ctrs : Frame) (mrcs ipcs : LoadedArray) (arch : Uarch) (tscFreqMhz : ℤ) :
    Except PyError ProfileStats := do
  let unhalted ← ctrs.get "UNHALTED_REFERENCE_CYCLES"
  let refCycles ← ctrs.get "ref_cycles"
  let ci := divide unhalted refCycles
  let instructions ← ctrs.get "INST_RETIRED"
  let cycles ← ctrs.get "CPU_CLK_UNHALTED"
  let avgIpc := npSum instructions / npSum cycles
  -- The first sample is erroneous.
  let avgCi := npSum (unhalted.drop 1) / npSum (refCycles.drop 1)
  let ipcDist := (divide instructions cycles).drop 1
  let metrics ← archMetrics arch ctrs tscFreqMhz
  let locMembw ← readLocal metrics.locMembw
  let curveStats ← generateCurveStats mrcs ipcs
  return { samples := samplesOf ci metrics locMembw, curveStats, avgIpc, avgCi, ipcDist }

/-! ## What comes out of a table -/

/-- The table has a column of this name, with at least one sample that is a number. -/
def Frame.Sampled (ctrs : Frame) (name : String) : Prop :=
  ∃ cells, ctrs.column name = some cells ∧ ∃ cell ∈ cells, cell ≠ nan

/-- The cells of a column. -/
def Frame.cells (ctrs : Frame) (name : String) : List ERat := (ctrs.column name).getD []

/-- In some row the counter has a ratio to the retired instructions that is not
not-a-number: both were sampled there and they are not both zero or both infinite. -/
def Frame.Usable (ctrs : Frame) (name : String) : Prop :=
  ∃ pair ∈ (ctrs.cells name).zip (ctrs.cells "INST_RETIRED"), pair.1 / pair.2 ≠ nan

theorem Frame.Sampled.get_eq {ctrs : Frame} {name : String} (sampled : ctrs.Sampled name) :
    ctrs.get name = .ok (ctrs.cells name) := by
  obtain ⟨cells, column, -⟩ := sampled
  rw [Frame.get, Frame.cells, column]
  rfl

theorem Frame.Sampled.length_cells {ctrs : Frame} {name : String} (sampled : ctrs.Sampled name) :
    (ctrs.cells name).length = ctrs.rows := by
  obtain ⟨cells, column, -⟩ := sampled
  rw [Frame.cells, column]
  exact ctrs.rectangular name cells column

theorem Frame.Sampled.rows_pos {ctrs : Frame} {name : String} (sampled : ctrs.Sampled name) :
    0 < ctrs.rows := by
  obtain ⟨cells, column, cell, isMember, -⟩ := sampled
  rw [← ctrs.rectangular name cells column]
  exact List.length_pos_of_mem isMember

/-- A product with a positive number. -/
theorem num_mul_inf {q : ℚ} (positive : 0 < q) (negative : Bool) :
    num q * inf negative = inf negative := by
  show (if q = 0 then nan else inf (negative != decide (q < 0))) = _
  rw [if_neg positive.ne', decide_eq_false positive.le.not_gt, Bool.bne_false]

/-- A thousandfold is not a number only if the value is not. -/
theorem times_eq_nan_iff (x : ERat) : num 1000 * x = nan ↔ x = nan := by
  cases x with
  | num q => exact iff_of_false (fun same => by cases same) (fun same => by cases same)
  | inf negative => simp [num_mul_inf]
  | nan => exact iff_of_true rfl rfl

/-- Scaling the numerator scales the ratio. -/
theorem num_mul_div {q : ℚ} (positive : 0 < q) (a b : ERat) : num q * a / b = num q * (a / b) := by
  cases a with
  | num p =>
      cases b with
      | num r =>
          show (if r = 0 then if q * p = 0 then nan else inf (decide (q * p < 0))
              else num (q * p / r)) =
            num q * (if r = 0 then if p = 0 then nan else inf (decide (p < 0)) else num (p / r))
          have sameSign : q * p < 0 ↔ p < 0 := by
            rw [← not_le, ← not_le, mul_nonneg_iff_of_pos_left positive]
          by_cases r_zero : r = 0
          · by_cases p_zero : p = 0
            · rw [if_pos r_zero, if_pos r_zero, p_zero, mul_zero, if_pos rfl]
              rfl
            · simp [r_zero, p_zero, positive.ne', num_mul_inf positive, sameSign]
          · rw [if_neg r_zero, if_neg r_zero, mul_div_assoc]
            rfl
      | inf negative => exact congrArg num (mul_zero q).symm
      | nan => rfl
  | inf negative =>
      rw [num_mul_inf positive]
      cases b with
      | num r => exact (num_mul_inf positive _).symm
      | inf negative' => rfl
      | nan => rfl
  | nan => cases b <;> rfl

theorem filterNan_ne_nil_iff (entries : List ERat) :
    filterNan entries ≠ [] ↔ ∃ entry ∈ entries, entry ≠ nan := by
  have isNan_iff (entry : ERat) : entry.isNan = false ↔ entry ≠ nan := by
    cases entry <;> simp [isNan]
  simp [filterNan, List.filter_eq_nil_iff, isNan_iff]

/-- Cutting both arrays to the shorter length always lets them be added. -/
theorem truncateAndAdd_eq (s1 s2 : List ERat) :
    truncateAndAdd s1 s2 = .ok (List.zipWith (· + ·) s1 s2) := by
  have added {s t : List ERat} (sameLength : s.length = t.length) :
      npAdd s t = .ok (List.zipWith (· + ·) s t) := if_pos sameLength
  rw [truncateAndAdd]
  split
  · dsimp only
    rw [added (by simp), List.length_take, @List.zipWith_eq_zipWith_take_min _ _ _ _ s1 s2]
    simp
  · rename_i sameLength
    exact added (not_not.mp sameLength)

end Datamime.Search
