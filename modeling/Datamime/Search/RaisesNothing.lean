/-
# Which profiles can be compared

Every evaluation of the search ends in the same three calls: statistics of the
target, statistics of the measured profile, and the cost of the two. The search
stops for good when one of them raises. This module says for which profiles none
of them does.

Each counter that a branch filters has to keep a sample, or the maximum of an
empty array is asked for; a curve needs a second estimate, or its array loses a
dimension; and neither curve may be zero everywhere, or its statistics are
missing. For one of the microarchitectures nothing helps.
-/

import Datamime.Search.GenerateStats

namespace Datamime.Search

open Datamime.Math Datamime.Math.ERat

/-! ## The cost of loaded arrays -/

/-- `np.shape(array)[1]`. -/
def LoadedArray.shape1 : LoadedArray → Except PyError ℕ
  | vector _ => .error .indexError
  | matrix curves => .ok curves.ways

/-- `array[:,w]`. -/
def LoadedArray.column (array : LoadedArray) (w : ℕ) : Except PyError (List ERat) :=
  match array with
  | vector _ => .error .indexError
  | matrix curves => curves.column w

/-- The loop over the ways. -/
def sumLoadedWays (mrcs ipcs tmrcs tipcs : LoadedArray) :
    List ℕ → ERat × ERat → Except PyError (ERat × ERat)
  | [], costs => .ok costs
  | w :: rest, (mrcCost, ipcCost) => do
      let mrcSlice ← mrcs.column w
      let ipcSlice ← ipcs.column w
      let tmrcSlice ← tmrcs.column w
      let tipcSlice ← tipcs.column w
      let mrcStep ← sampleCost mrcSlice tmrcSlice
      let ipcStep ← sampleCost ipcSlice tipcSlice
      sumLoadedWays mrcs ipcs tmrcs tipcs rest (mrcCost + mrcStep, ipcCost + ipcStep)

/-- `calculate_cost` on arrays as they were loaded, which need not have two dimensions. -/
def calculateLoadedCost (tstats : Stats) (tmrcs tipcs : LoadedArray) (stats : Stats)
    (mrcs ipcs : LoadedArray) : Except PyError Costs := do
  if tstats.curveStats.isNone || stats.curveStats.isNone then throw .keyError
  let counterCosts ← CounterMetric.all.mapM fun metric => do
    let cost ← sampleCost (stats.samples metric) (tstats.samples metric)
    return (metric, cost)
  let ways ← mrcs.shape1
  let tways ← tmrcs.shape1
  if ¬ (tways = ways ∧ ways = 12) then throw .assertionError
  let (mrcCost, ipcCost) ← sumLoadedWays mrcs ipcs tmrcs tipcs (List.range ways) (0, 0)
  let subcost := subcostOf (fun metric => (counterCosts.lookup metric).getD nan)
    (mrcCost / num ways) (ipcCost / num ways)
  return { subcost, totalCost := addCosts subcost Metric.all 0 }

theorem sumLoadedWays_matrix (mrcs ipcs tmrcs tipcs : Curves) (ws : List ℕ)
    (costs : ERat × ERat) :
    sumLoadedWays (.matrix mrcs) (.matrix ipcs) (.matrix tmrcs) (.matrix tipcs) ws costs =
      sumWays mrcs ipcs tmrcs tipcs ws costs := by
  induction ws generalizing costs with
  | nil => rfl
  | cons w rest ih =>
      rw [sumLoadedWays, sumWays]
      simp only [LoadedArray.column, ih]

/-- On arrays of two dimensions this is the cost that the laws of costs are about. -/
theorem calculateLoadedCost_matrix (tstats stats : Stats) (tmrcs tipcs mrcs ipcs : Curves) :
    calculateLoadedCost tstats (.matrix tmrcs) (.matrix tipcs) stats (.matrix mrcs)
      (.matrix ipcs) = calculateCost tstats tmrcs tipcs stats mrcs ipcs := by
  rw [calculateLoadedCost, calculateCost]
  simp only [LoadedArray.shape1, ok_bind, sumLoadedWays_matrix]

/-! ## Profiles as they are measured -/

/-- The counters whose ratios a branch filters and adds up for a metric. -/
def Uarch.filtered : Uarch → CounterMetric → List String
  | .skylake, .brMpki => ["BR_MISP_RETIRED.ALL_BRANCHES"]
  | .skylake, .l1iMpki => ["FRONTEND_RETIRED.L1I_MISS"]
  | .skylake, .itlbMpki => ["FRONTEND_RETIRED.ITLB_MISS"]
  | .skylake, .l1dMpki => ["MEM_LOAD_RETIRED.L1_MISS", "L2_RQSTS.ALL_RFO"]
  | .skylake, .l2Mpki => ["MEM_LOAD_RETIRED.L2_MISS", "OFFCORE_REQUESTS.DEMAND_RFO"]
  | .broadwell, .brMpki => ["BR_MISP_RETIRED.ALL_BRANCHES"]
  | .broadwell, .l1iMpki => ["ICACHE.MISSES"]
  | .broadwell, .itlbMpki => ["ITLB_MISSES.STLB_HIT", "ITLB_MISSES.MISS_CAUSES_A_WALK"]
  | .broadwell, .l1dMpki => ["MEM_LOAD_UOPS_RETIRED.L1_MISS", "L2_TRANS.RFO"]
  | .broadwell, .l2Mpki => ["MEM_LOAD_UOPS_RETIRED.L2_MISS", "OFFCORE_REQUESTS.DEMAND_RFO"]
  | .skylake, .dtlbMpki | .broadwell, .dtlbMpki =>
      ["DTLB_LOAD_MISSES.STLB_HIT", "DTLB_LOAD_MISSES.MISS_CAUSES_A_WALK",
        "DTLB_STORE_MISSES.STLB_HIT", "DTLB_STORE_MISSES.MISS_CAUSES_A_WALK"]
  | _, _ => []

/-- The counters that statistics are made of. -/
def Uarch.reads (uarch : Uarch) : List String :=
  ["UNHALTED_REFERENCE_CYCLES", "ref_cycles", "INST_RETIRED", "CPU_CLK_UNHALTED"] ++
    match uarch with
    | .skylakeOld => ["BR_MISP_RETIRED", "FRONTEND_RETIRED.L1I_MISS",
        "MEM_LOAD_UOPS_RETIRED.L1_MISS", "MEM_LOAD_UOPS_RETIRED.L2_MISS",
        "FRONTEND_RETIRED.ITLB_MISS", "DTLB-LOADS"]
    | uarch => "local_mem_traffic" :: CounterMetric.all.flatMap uarch.filtered

/-- A profile measured on a microarchitecture: a table with samples of every
counter that is read, two files of curves, and the frequency of the time stamp counter. -/
structure RawProfile (uarch : Uarch) where
  ctrs : Frame
  sampled : ∀ name ∈ uarch.reads, ctrs.Sampled name
  mrcs : CurveFile
  ipcs : CurveFile
  tscFreqMhz : ℤ

variable {uarch : Uarch}

/-- The statistics of a measured profile. -/
def RawProfile.stats (profile : RawProfile uarch) : Except PyError ProfileStats :=
  generateStats profile.ctrs profile.mrcs.loadtxt profile.ipcs.loadtxt uarch profile.tscFreqMhz

/-- What the search computes after a run: the cost of the measured profile. -/
def searchCost (target measured : RawProfile uarch) : Except PyError Costs := do
  let tstats ← target.stats
  let stats ← measured.stats
  calculateLoadedCost tstats.toStats target.mrcs.loadtxt target.ipcs.loadtxt
    stats.toStats measured.mrcs.loadtxt measured.ipcs.loadtxt

/-- Every estimate in the file is zero at every way. -/
def CurveFile.AllZero (file : CurveFile) : Prop := ∀ estimate ∈ file.estimates, ∀ w, estimate w = 0

/-- A profile whose statistics are complete. -/
structure RawProfile.Comparable (profile : RawProfile uarch) : Prop where
  usable : ∀ metric, ∀ name ∈ uarch.filtered metric, profile.ctrs.Usable name
  mrcs_two_le : 2 ≤ profile.mrcs.estimates.length
  ipcs_two_le : 2 ≤ profile.ipcs.estimates.length
  mrcs_ne_zero : ¬ profile.mrcs.AllZero
  ipcs_ne_zero : ¬ profile.ipcs.AllZero

/-! ## Statistics of the curves -/

/-- The array of a file with at least two estimates. -/
def CurveFile.curves (file : CurveFile) : Curves where
  ways := 12
  rows := file.estimates.map List.ofFn
  rectangular := by simp

theorem CurveFile.loadtxt_of_two_le {file : CurveFile} (two_le : 2 ≤ file.estimates.length) :
    file.loadtxt = .matrix file.curves := by
  rw [CurveFile.loadtxt]
  split
  · rename_i single
    simp [single] at two_le
  · rfl

theorem CurveFile.loadtxt_of_not_two_le {file : CurveFile} (single : ¬ 2 ≤ file.estimates.length) :
    ∃ entries, file.loadtxt = .vector entries := by
  obtain ⟨only, isOnly⟩ : ∃ only, file.estimates = [only] := by
    apply List.length_eq_one_iff.mp
    have := List.length_pos_iff.mpr file.nonempty
    omega
  refine ⟨List.ofFn only, ?_⟩
  rw [CurveFile.loadtxt]
  simp only [isOnly]

theorem CurveFile.any_loadtxt (file : CurveFile) :
    file.loadtxt.any = true ↔ ¬ file.AllZero := by
  rw [CurveFile.loadtxt, CurveFile.AllZero]
  split
  · rename_i only isOnly
    simp [LoadedArray.any, isOnly, List.mem_ofFn, -List.ofFn_succ]
  · simp only [LoadedArray.any, Curves.any, List.any_map, List.any_eq_true, Function.comp_apply,
      List.mem_ofFn, decide_eq_true_eq, exists_exists_eq_and, not_forall, exists_prop]

/-- With two arrays of two dimensions the curve statistics raise nothing. -/
theorem generateCurveStats_of_matrix (mrcs ipcs : Curves) :
    ∃ stats, generateCurveStats (.matrix mrcs) (.matrix ipcs) = .ok stats ∧
      (stats.isSome = true ↔
        (LoadedArray.matrix mrcs).any = true ∧ (LoadedArray.matrix ipcs).any = true) := by
  rw [← Bool.and_eq_true, generateCurveStats]
  have reshaped (curves : Curves) (statistic : List ERat → ERat) (n : ℕ)
      (sameLength : n = curves.ways) :
      (Reduced.vector (curves.mapColumns statistic)).reshape n =
        .ok (curves.mapColumns statistic) := if_pos (by simp [sameLength, Curves.mapColumns])
  by_cases nonzero : (LoadedArray.matrix mrcs).any && (LoadedArray.matrix ipcs).any
  · rw [if_pos nonzero]
    simp (disch := simp [Curves.mapColumns]) only [LoadedArray.reduce, Reduced.shape0, ok_bind,
      reshaped]
    exact ⟨_, rfl, iff_of_true rfl nonzero⟩
  · rw [if_neg nonzero]
    exact ⟨none, rfl, iff_of_false (by simp) nonzero⟩

/-- Curve statistics come out only if neither array is zero and both have two dimensions. -/
theorem of_generateCurveStats {mrcs ipcs : LoadedArray} {stats : CurveStats}
    (generated : generateCurveStats mrcs ipcs = .ok (some stats)) :
    (mrcs.any = true ∧ ipcs.any = true) ∧
      (∃ curves, mrcs = .matrix curves) ∧ ∃ curves, ipcs = .matrix curves := by
  rw [generateCurveStats] at generated
  split at generated
  · rename_i nonzero
    refine ⟨by simpa using nonzero, ?_⟩
    cases mrcs with
    | vector entries => cases generated
    | matrix mrcs =>
        cases ipcs with
        | matrix ipcs => exact ⟨⟨mrcs, rfl⟩, ipcs, rfl⟩
        | vector entries =>
            exfalso
            simp only [bind_eq_ok_iff] at generated
            obtain ⟨_, _, _, _, _, _, _, impossible, _⟩ := generated
            cases impossible
  · cases generated

/-! ## Statistics of the counters -/

/-- The filtered samples of a counter per thousand retired instructions. -/
def Frame.mpki (ctrs : Frame) (name : String) : List ERat :=
  filterNan (times 1000 (divide (ctrs.cells name) (ctrs.cells "INST_RETIRED")))

/-- Filtering leaves a sample where the counter has a usable row. -/
theorem Frame.mpki_ne_nil_iff (ctrs : Frame) (name : String) :
    ctrs.mpki name ≠ [] ↔ ctrs.Usable name := by
  rw [Frame.mpki, filterNan_ne_nil_iff, times, divide, ← List.map_uncurry_zip_eq_zipWith]
  simp [Frame.Usable, times_eq_nan_iff]

section

variable {ctrs : Frame} (sampled : ∀ name ∈ uarch.reads, ctrs.Sampled name)

include sampled

theorem get_eq {name : String} (listed : name ∈ uarch.reads) :
    ctrs.get name = .ok (ctrs.cells name) := (sampled name listed).get_eq

theorem get_instructions_eq : ctrs.get "INST_RETIRED" = .ok (ctrs.cells "INST_RETIRED") :=
  get_eq sampled (List.mem_append_left _ (by decide))

theorem filteredKiloRatio_eq {name : String} (listed : name ∈ uarch.reads) :
    filteredKiloRatio ctrs name = .ok (ctrs.mpki name) := by
  rw [filteredKiloRatio, get_eq sampled listed, get_instructions_eq sampled]
  rfl

/-- The two ways in which the ratios are written give the same samples. -/
theorem filteredPerKilo_eq {name : String} (listed : name ∈ uarch.reads) :
    filteredPerKilo ctrs name = .ok (ctrs.mpki name) := by
  have scaled (events instructions : List ERat) :
      divide (times 1000 events) instructions = times 1000 (divide events instructions) := by
    rw [divide, divide, times, times, List.zipWith_map_left, List.map_zipWith]
    exact congrFun (congrFun (congrArg _ (funext₂ fun a b => num_mul_div (by norm_num) a b)) _) _
  rw [filteredPerKilo, perKilo, get_eq sampled listed, get_instructions_eq sampled]
  simp only [ok_bind, scaled]
  rfl

/-- A ratio that is not filtered has a sample for every row. -/
theorem divide_ne_nil {name name' : String} (listed : name ∈ uarch.reads)
    (listed' : name' ∈ uarch.reads) (change : ERat → ERat) :
    divide ((ctrs.cells name).map change) (ctrs.cells name') ≠ [] := by
  apply List.ne_nil_of_length_pos
  rw [divide, List.length_zipWith, List.length_map, (sampled name listed).length_cells,
    (sampled name' listed').length_cells, min_self]
  exact (sampled name listed).rows_pos

end

theorem memBandwidth_eq {ctrs : Frame} (known : uarch ≠ .skylakeOld)
    (sampled : ∀ name ∈ uarch.reads, ctrs.Sampled name) (tscFreqMhz : ℤ) :
    ∃ locMembw, memBandwidth ctrs tscFreqMhz = .ok locMembw ∧ locMembw ≠ [] := by
  have traffic : "local_mem_traffic" ∈ uarch.reads := by
    cases uarch with
    | skylakeOld => exact absurd rfl known
    | skylake => decide
    | broadwell => decide
  have cycles : "ref_cycles" ∈ uarch.reads := List.mem_append_left _ (by decide)
  rw [memBandwidth, get_eq sampled traffic, get_eq sampled cycles]
  exact ⟨_, rfl, divide_ne_nil sampled traffic cycles _⟩

/-- The current branches assign all their variables. A metric that they filter has a sample
exactly if all its counters have a usable row. -/
theorem archMetrics_eq {ctrs : Frame} (known : uarch ≠ .skylakeOld)
    (sampled : ∀ name ∈ uarch.reads, ctrs.Sampled name) (tscFreqMhz : ℤ) :
    ∃ metrics, archMetrics uarch ctrs tscFreqMhz = .ok metrics ∧
      ∃ locMembw, metrics.locMembw = some locMembw ∧ ∀ ci ≠ [], ∀ metric,
        samplesOf ci metrics locMembw metric ≠ [] ↔
          ∀ name ∈ uarch.filtered metric, ctrs.Usable name := by
  obtain ⟨locMembw, locMembw_eq, locMembw_nonempty⟩ := memBandwidth_eq known sampled tscFreqMhz
  cases uarch with
  | skylakeOld => exact absurd rfl known
  | skylake =>
      rw [archMetrics]
      simp (disch := decide) only [skylakeMetrics, dtlbMetric, filteredKiloRatio_eq sampled,
        filteredPerKilo_eq sampled, truncateAndAdd_eq, locMembw_eq, ok_bind]
      refine ⟨_, rfl, _, rfl, fun ci nonempty metric => ?_⟩
      cases metric <;> simp [samplesOf, Uarch.filtered, nonempty, locMembw_nonempty,
        ← Frame.mpki_ne_nil_iff, and_assoc]
  | broadwell =>
      rw [archMetrics]
      simp (disch := decide) only [broadwellMetrics, dtlbMetric, filteredKiloRatio_eq sampled,
        filteredPerKilo_eq sampled, truncateAndAdd_eq, locMembw_eq, ok_bind]
      refine ⟨_, rfl, _, rfl, fun ci nonempty metric => ?_⟩
      cases metric <;> simp [samplesOf, Uarch.filtered, nonempty, locMembw_nonempty,
        ← Frame.mpki_ne_nil_iff, and_assoc]

/-- The old branch leaves the bandwidth unassigned. -/
theorem locMembw_of_skylakeOld {ctrs : Frame} {tscFreqMhz : ℤ} {metrics : ArchMetrics}
    (computed : archMetrics .skylakeOld ctrs tscFreqMhz = .ok metrics) :
    metrics.locMembw = none := by
  simp only [archMetrics, skylakeOldMetrics, bind_eq_ok_iff] at computed
  obtain ⟨_, _, _, _, _, _, _, _, _, _, _, _, returned⟩ := computed
  cases returned
  rfl

/-! ## Statistics of a profile -/

namespace RawProfile

variable (profile : RawProfile uarch)

/-- The ratio of the reference cycles, a sample for every row. -/
def ci : List ERat :=
  divide (profile.ctrs.cells "UNHALTED_REFERENCE_CYCLES") (profile.ctrs.cells "ref_cycles")

theorem ci_ne_nil : profile.ci ≠ [] := by
  have rows := divide_ne_nil profile.sampled
    (show "UNHALTED_REFERENCE_CYCLES" ∈ uarch.reads from List.mem_append_left _ (by decide))
    (show "ref_cycles" ∈ uarch.reads from List.mem_append_left _ (by decide)) id
  rwa [List.map_id] at rows

/-- Statistics come out when the branch assigns the bandwidth and the curves raise nothing. -/
theorem stats_eq_ok_iff (stats : ProfileStats) :
    profile.stats = .ok stats ↔
      ∃ metrics, archMetrics uarch profile.ctrs profile.tscFreqMhz = .ok metrics ∧
        ∃ locMembw, metrics.locMembw = some locMembw ∧
          generateCurveStats profile.mrcs.loadtxt profile.ipcs.loadtxt = .ok stats.curveStats ∧
          stats.samples = samplesOf profile.ci metrics locMembw ∧
          stats.avgIpc = npSum (profile.ctrs.cells "INST_RETIRED") /
            npSum (profile.ctrs.cells "CPU_CLK_UNHALTED") ∧
          stats.avgCi = npSum ((profile.ctrs.cells "UNHALTED_REFERENCE_CYCLES").drop 1) /
            npSum ((profile.ctrs.cells "ref_cycles").drop 1) ∧
          stats.ipcDist = (divide (profile.ctrs.cells "INST_RETIRED")
            (profile.ctrs.cells "CPU_CLK_UNHALTED")).drop 1 := by
  have common {name : String} (listed : name ∈ ["UNHALTED_REFERENCE_CYCLES", "ref_cycles",
      "INST_RETIRED", "CPU_CLK_UNHALTED"]) : profile.ctrs.get name =
        .ok (profile.ctrs.cells name) := get_eq profile.sampled (List.mem_append_left _ listed)
  rw [RawProfile.stats, generateStats, common (by decide), common (by decide),
    common (by decide), common (by decide)]
  simp only [ok_bind, bind_eq_ok_iff]
  refine exists_congr fun metrics => and_congr_right fun _ => ?_
  constructor
  · rintro ⟨locMembw, assigned, curveStats, generated, returned⟩
    cases returned
    cases read : metrics.locMembw with
    | none =>
        rw [read] at assigned
        cases assigned
    | some value =>
        rw [read] at assigned
        cases assigned
        exact ⟨_, rfl, generated, rfl, rfl, rfl, rfl⟩
  · rintro ⟨locMembw, assigned, generated, samples_eq, avgIpc_eq, avgCi_eq, ipcDist_eq⟩
    refine ⟨locMembw, by rw [assigned]; rfl, stats.curveStats, generated, ?_⟩
    rw [← avgIpc_eq, ← avgCi_eq, ← ipcDist_eq]
    show Except.ok _ = Except.ok stats
    congr 1
    obtain ⟨⟨samples, curveStats⟩, avgIpc, avgCi, ipcDist⟩ := stats
    dsimp only at samples_eq ⊢
    rw [samples_eq]
    rfl

/-- A profile whose statistics come out was not measured on the old microarchitecture. -/
theorem known_of_stats {stats : ProfileStats} (generated : profile.stats = .ok stats) :
    uarch ≠ .skylakeOld := by
  rintro rfl
  obtain ⟨metrics, computed, locMembw, assigned, -⟩ :=
    (profile.stats_eq_ok_iff stats).mp generated
  rw [locMembw_of_skylakeOld computed] at assigned
  cases assigned

/-- A metric has a sample exactly if all the counters filtered for it have a usable row. -/
theorem samples_ne_nil_iff {stats : ProfileStats} (generated : profile.stats = .ok stats)
    (metric : CounterMetric) :
    stats.samples metric ≠ [] ↔ ∀ name ∈ uarch.filtered metric, profile.ctrs.Usable name := by
  obtain ⟨metrics, computed, locMembw, assigned, -, samples_eq, -⟩ :=
    (profile.stats_eq_ok_iff stats).mp generated
  obtain ⟨metrics', computed', locMembw', assigned', spec⟩ :=
    archMetrics_eq (profile.known_of_stats generated) profile.sampled profile.tscFreqMhz
  cases computed.symm.trans computed'
  cases assigned.symm.trans assigned'
  rw [samples_eq]
  exact spec profile.ci profile.ci_ne_nil metric

/-- Curve statistics come out only for two files of at least two estimates, none of them zero
everywhere. -/
theorem of_curveStats {stats : ProfileStats} (generated : profile.stats = .ok stats)
    (present : stats.curveStats.isSome) :
    (¬ profile.mrcs.AllZero ∧ ¬ profile.ipcs.AllZero) ∧
      2 ≤ profile.mrcs.estimates.length ∧ 2 ≤ profile.ipcs.estimates.length := by
  obtain ⟨-, -, -, -, curves, -⟩ := (profile.stats_eq_ok_iff stats).mp generated
  obtain ⟨curveStats, isStats⟩ := Option.isSome_iff_exists.mp present
  rw [isStats] at curves
  have facts := of_generateCurveStats curves
  rw [CurveFile.any_loadtxt, CurveFile.any_loadtxt] at facts
  refine ⟨facts.1, ?_, ?_⟩
  · by_contra single
    obtain ⟨entries, isVector⟩ := CurveFile.loadtxt_of_not_two_le single
    obtain ⟨matrix, isMatrix⟩ := facts.2.1
    cases isVector.symm.trans isMatrix
  · by_contra single
    obtain ⟨entries, isVector⟩ := CurveFile.loadtxt_of_not_two_le single
    obtain ⟨matrix, isMatrix⟩ := facts.2.2
    cases isVector.symm.trans isMatrix

/-- The statistics of a comparable profile are complete. -/
theorem Comparable.stats {profile : RawProfile uarch} (comparable : profile.Comparable)
    (known : uarch ≠ .skylakeOld) :
    ∃ stats, profile.stats = .ok stats ∧ stats.curveStats.isSome ∧
      ∀ metric, stats.samples metric ≠ [] := by
  obtain ⟨metrics, computed, locMembw, assigned, spec⟩ :=
    archMetrics_eq known profile.sampled profile.tscFreqMhz
  obtain ⟨curveStats, generated, present⟩ :=
    generateCurveStats_of_matrix profile.mrcs.curves profile.ipcs.curves
  rw [← CurveFile.loadtxt_of_two_le comparable.mrcs_two_le,
    ← CurveFile.loadtxt_of_two_le comparable.ipcs_two_le] at generated present
  rw [CurveFile.any_loadtxt, CurveFile.any_loadtxt] at present
  refine ⟨{ samples := samplesOf profile.ci metrics locMembw, curveStats, avgIpc := _,
            avgCi := _, ipcDist := _ },
    (profile.stats_eq_ok_iff _).mpr
      ⟨metrics, computed, locMembw, assigned, generated, rfl, rfl, rfl, rfl⟩,
    present.mpr ⟨comparable.mrcs_ne_zero, comparable.ipcs_ne_zero⟩, fun metric => ?_⟩
  exact (spec profile.ci profile.ci_ne_nil metric).mpr (comparable.usable metric)

end RawProfile

/-! ## The cost of two profiles -/

theorem exists_npMax_eq_ok_iff (entries : List ERat) :
    (∃ top, npMax entries = .ok top) ↔ entries ≠ [] := by
  cases entries with
  | nil => exact iff_of_false (by rintro ⟨top, impossible⟩; cases impossible) (by simp)
  | cons first rest => exact iff_of_true ⟨_, rfl⟩ (by simp)

/-- Two samples have a cost unless one of them is empty. -/
theorem exists_sampleCost_eq_ok_iff (s t : List ERat) :
    (∃ cost, sampleCost s t = .ok cost) ↔ s ≠ [] ∧ t ≠ [] := by
  rw [← exists_npMax_eq_ok_iff, ← exists_npMax_eq_ok_iff, sampleCost, normalizeSamples]
  cases npMax s <;> cases npMax t <;> simp [pure, Except.pure]

theorem CounterMetric.mem_all (metric : CounterMetric) : metric ∈ CounterMetric.all := by
  cases metric <;> decide

/-- All counter metrics have costs exactly if both profiles have samples of all of them. -/
theorem exists_counterCosts_iff (samples tsamples : CounterMetric → List ERat) :
    (∃ costs, (CounterMetric.all.mapM fun metric => do
        let cost ← sampleCost (samples metric) (tsamples metric)
        return (metric, cost) : Except PyError _) = .ok costs) ↔
      (∀ metric, samples metric ≠ []) ∧ ∀ metric, tsamples metric ≠ [] := by
  rw [exists_mapM_eq_ok_iff, ← forall_and]
  refine ⟨fun all metric => ?_, fun all metric _ => ?_⟩
  · obtain ⟨result, computed⟩ := all metric metric.mem_all
    obtain ⟨cost, cost_eq, -⟩ := bind_eq_ok_iff.mp computed
    exact (exists_sampleCost_eq_ok_iff _ _).mp ⟨cost, cost_eq⟩
  · obtain ⟨cost, cost_eq⟩ := (exists_sampleCost_eq_ok_iff _ _).mpr (all metric)
    exact ⟨(metric, cost), by rw [cost_eq]; rfl⟩

/-- The files of a comparable profile hold a nonempty column for every way. -/
theorem exists_column_eq_ok {file : CurveFile} (two_le : 2 ≤ file.estimates.length) {w : ℕ}
    (below : w < 12) : ∃ column, file.loadtxt.column w = .ok column ∧ column ≠ [] := by
  rw [CurveFile.loadtxt_of_two_le two_le]
  refine ⟨_, if_pos below, ?_⟩
  simpa [CurveFile.curves] using file.nonempty

theorem exists_sumLoadedWays_eq_ok {mrcs ipcs tmrcs tipcs : CurveFile}
    (mrcs_two_le : 2 ≤ mrcs.estimates.length) (ipcs_two_le : 2 ≤ ipcs.estimates.length)
    (tmrcs_two_le : 2 ≤ tmrcs.estimates.length) (tipcs_two_le : 2 ≤ tipcs.estimates.length)
    (ws : List ℕ) (below : ∀ w ∈ ws, w < 12) (costs : ERat × ERat) :
    ∃ sums, sumLoadedWays mrcs.loadtxt ipcs.loadtxt tmrcs.loadtxt tipcs.loadtxt ws costs =
      .ok sums := by
  induction ws generalizing costs with
  | nil => exact ⟨costs, rfl⟩
  | cons w rest ih =>
      have here := below w List.mem_cons_self
      obtain ⟨mrc, mrc_eq, mrc_nonempty⟩ := exists_column_eq_ok mrcs_two_le here
      obtain ⟨ipc, ipc_eq, ipc_nonempty⟩ := exists_column_eq_ok ipcs_two_le here
      obtain ⟨tmrc, tmrc_eq, tmrc_nonempty⟩ := exists_column_eq_ok tmrcs_two_le here
      obtain ⟨tipc, tipc_eq, tipc_nonempty⟩ := exists_column_eq_ok tipcs_two_le here
      obtain ⟨mrcStep, mrcStep_eq⟩ :=
        (exists_sampleCost_eq_ok_iff mrc tmrc).mpr ⟨mrc_nonempty, tmrc_nonempty⟩
      obtain ⟨ipcStep, ipcStep_eq⟩ :=
        (exists_sampleCost_eq_ok_iff ipc tipc).mpr ⟨ipc_nonempty, tipc_nonempty⟩
      obtain ⟨mrcCost, ipcCost⟩ := costs
      rw [sumLoadedWays]
      simp only [mrc_eq, ipc_eq, tmrc_eq, tipc_eq, mrcStep_eq, ipcStep_eq, ok_bind]
      exact ih (fun w listed => below w (List.mem_cons_of_mem _ listed)) _

/-- A cost needs the statistics of all curves and a sample of every metric. -/
theorem of_calculateLoadedCost {tstats stats : Stats} {tmrcs tipcs mrcs ipcs : LoadedArray}
    {costs : Costs} (cost : calculateLoadedCost tstats tmrcs tipcs stats mrcs ipcs = .ok costs) :
    (tstats.curveStats.isSome ∧ stats.curveStats.isSome) ∧
      (∀ metric, stats.samples metric ≠ []) ∧ ∀ metric, tstats.samples metric ≠ [] := by
  rw [calculateLoadedCost] at cost
  split at cost
  · cases cost
  · rename_i present
    simp only [bind_eq_ok_iff] at cost
    obtain ⟨counterCosts, computed, _⟩ := cost
    refine ⟨?_, (exists_counterCosts_iff _ _).mp ⟨counterCosts, computed⟩⟩
    rw [Bool.or_eq_true, not_or] at present
    exact ⟨by simpa [Option.isSome_iff_ne_none] using present.1,
      by simpa [Option.isSome_iff_ne_none] using present.2⟩

/-- With complete statistics and files of two estimates each there is a cost. -/
theorem exists_calculateLoadedCost_eq_ok {tstats stats : Stats}
    {mrcs ipcs tmrcs tipcs : CurveFile} (tstats_present : tstats.curveStats.isSome)
    (stats_present : stats.curveStats.isSome) (samples : ∀ metric, stats.samples metric ≠ [])
    (tsamples : ∀ metric, tstats.samples metric ≠ [])
    (mrcs_two_le : 2 ≤ mrcs.estimates.length) (ipcs_two_le : 2 ≤ ipcs.estimates.length)
    (tmrcs_two_le : 2 ≤ tmrcs.estimates.length) (tipcs_two_le : 2 ≤ tipcs.estimates.length) :
    ∃ costs, calculateLoadedCost tstats tmrcs.loadtxt tipcs.loadtxt stats mrcs.loadtxt
      ipcs.loadtxt = .ok costs := by
  obtain ⟨counterCosts, counters⟩ :=
    (exists_counterCosts_iff stats.samples tstats.samples).mpr ⟨samples, tsamples⟩
  obtain ⟨sums, summed⟩ := exists_sumLoadedWays_eq_ok mrcs_two_le ipcs_two_le tmrcs_two_le
    tipcs_two_le (List.range 12) (by simp) (0, 0)
  have missing : (tstats.curveStats.isNone || stats.curveStats.isNone) = false := by
    simp [tstats_present, stats_present]
  have ways {file : CurveFile} (two_le : 2 ≤ file.estimates.length) :
      file.loadtxt.shape1 = .ok 12 := by
    rw [CurveFile.loadtxt_of_two_le two_le]
    rfl
  rw [calculateLoadedCost, missing, counters]
  simp only [ok_bind, ways mrcs_two_le, ways tmrcs_two_le, summed]
  exact ⟨_, rfl⟩

/-- The search gets a cost for two profiles precisely if both are comparable and the
microarchitecture is not the old one. -/
theorem exists_searchCost_iff (target measured : RawProfile uarch) :
    (∃ costs, searchCost target measured = .ok costs) ↔
      uarch ≠ .skylakeOld ∧ target.Comparable ∧ measured.Comparable := by
  constructor
  · rintro ⟨costs, cost⟩
    simp only [searchCost, bind_eq_ok_iff] at cost
    obtain ⟨tstats, target_ok, stats, measured_ok, cost⟩ := cost
    obtain ⟨present, samples, tsamples⟩ := of_calculateLoadedCost cost
    obtain ⟨target_nonzero, target_long⟩ := target.of_curveStats target_ok present.1
    obtain ⟨measured_nonzero, measured_long⟩ := measured.of_curveStats measured_ok present.2
    refine ⟨target.known_of_stats target_ok, ⟨fun metric => ?_, target_long.1, target_long.2,
      target_nonzero.1, target_nonzero.2⟩, fun metric => ?_, measured_long.1, measured_long.2,
      measured_nonzero.1, measured_nonzero.2⟩
    · exact (target.samples_ne_nil_iff target_ok metric).mp (tsamples metric)
    · exact (measured.samples_ne_nil_iff measured_ok metric).mp (samples metric)
  · rintro ⟨known, target_good, measured_good⟩
    obtain ⟨tstats, target_ok, tstats_present, tsamples⟩ := target_good.stats known
    obtain ⟨stats, measured_ok, stats_present, samples⟩ := measured_good.stats known
    obtain ⟨costs, cost⟩ := exists_calculateLoadedCost_eq_ok tstats_present stats_present samples
      tsamples measured_good.mrcs_two_le measured_good.ipcs_two_le target_good.mrcs_two_le
      target_good.ipcs_two_le
    refine ⟨costs, ?_⟩
    rw [searchCost, target_ok, ok_bind, measured_ok, ok_bind, cost]

/-- A table with two samples of one of every counter, a miss curve with the given estimates and
two equal estimates of the instructions per cycle. -/
def steadyProfile (uarch : Uarch) (mrcs : CurveFile) : RawProfile uarch where
  ctrs := {
    rows := 2
    column := fun name => if name ∈ uarch.reads then some [num 1, num 1] else none
    rectangular := by
      intro name cells column
      split at column
      · cases column
        rfl
      · cases column }
  sampled := fun name listed => ⟨_, if_pos listed, num 1, List.mem_cons_self, by simp⟩
  mrcs
  ipcs := ⟨[fun _ => num 1, fun _ => num 1], by simp⟩
  tscFreqMhz := 2000

/-- Two estimates, the same number of misses at every way. -/
def flatMisses (misses : ℚ) : CurveFile := ⟨[fun _ => num misses, fun _ => num misses], by simp⟩

/-- A run that was too short for a second estimate. -/
def oneEstimate : CurveFile := ⟨[fun _ => num 1], by simp⟩

/-- The search stops at a workload without a single miss, at a run with a single estimate, and
at any run on the old microarchitecture. -/
theorem searchCost_raises :
    searchCost (steadyProfile .broadwell (flatMisses 0)) (steadyProfile .broadwell (flatMisses 0)) =
        .error .keyError ∧
      searchCost (steadyProfile .broadwell oneEstimate) (steadyProfile .broadwell oneEstimate) =
        .error .indexError ∧
      searchCost (steadyProfile .skylakeOld (flatMisses 1))
        (steadyProfile .skylakeOld (flatMisses 1)) = .error .unboundLocalError :=
  ⟨rfl, rfl, rfl⟩

end Datamime.Search
