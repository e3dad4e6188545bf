/-
# Isolation of the profiled core

While a slice is being sampled, the profiled core must have the sampled ways to itself.
Three steps have to fit together for that: the rows that the plan builds, the masks
that the rows are converted to, and the two levels of registers through which a core
comes by its mask. The registers are shared with the monitoring ids, which must
survive.
-/

import Datamime.Profiler.Plan

namespace Datamime.Profiler

open Datamime.Math Datamime.Hardware

/-! ## The rows of a slice -/

/-- The way is set in a row. -/
def IsSet (row : List ℕ) (way : ℕ) : Prop := ∃ set, row[way]? = some set ∧ 0 < set

theorem IsSet.lt_length {row : List ℕ} {way : ℕ} (isSet : IsSet row way) : way < row.length := by
  obtain ⟨set, found, -⟩ := isSet
  exact (List.getElem?_eq_some_iff.mp found).1

/-- The two rows of a slice divide the ways of the cache. -/
structure Divided (cacheCapacity : ℕ) (slice : Slice) : Prop where
  sampled_length : slice.sampled.length = cacheCapacity
  shared_length : slice.shared.length = cacheCapacity
  one_row : ∀ way < cacheCapacity, IsSet slice.sampled way ↔ ¬ IsSet slice.shared way

theorem divided_sliceOf {cacheCapacity ways : ℕ} (below : ways < cacheCapacity) :
    Divided cacheCapacity (sliceOf cacheCapacity ways) := by
  constructor
  · simp [sliceOf]
    omega
  · simp [sliceOf]
    omega
  · intro way inside
    by_cases first : way < ways
    · simp [IsSet, sliceOf, List.getElem?_append, first]
    · have second : way - ways < cacheCapacity - ways := by omega
      simp [IsSet, sliceOf, List.getElem?_append, first, second]

theorem divided_workaroundSlice : Divided 12 workaroundSlice := by
  refine ⟨rfl, rfl, fun way inside => ?_⟩
  interval_cases way <;> simp [IsSet, workaroundSlice]

/-- The slices of every plan divide the ways. -/
theorem divided_of_generateProfilingPlan {cacheCapacity : ℕ} {plan : Plan}
    (generated : generateProfilingPlan cacheCapacity = .ok plan) {slice : Slice}
    (listed : slice ∈ plan.slices) : Divided cacheCapacity slice := by
  rcases slice_cases_of_generateProfilingPlan generated listed with
    ⟨count, -, below, rfl⟩ | ⟨rfl, rfl⟩
  · exact divided_sliceOf below
  · exact divided_workaroundSlice

/-- The mask of a row contains exactly the ways that are set in it. -/
theorem getLsbD_getCbm {row : List ℕ} (short : row.length ≤ 32) (way : ℕ) :
    (getCbm (cbmEntries row)).getLsbD way = true ↔ IsSet row way := by
  by_cases inside : way < 32
  · rw [getCbm, BitSet.getLsbD_ofPositions _ inside, decide_eq_true_eq]
    exact mem_cbmEntries
  · rw [BitVec.getLsbD_of_ge _ _ (Nat.not_lt.mp inside)]
    exact iff_of_false Bool.false_ne_true fun isSet =>
      inside (isSet.lt_length.trans_le short)

namespace Divided

variable {cacheCapacity : ℕ} {slice : Slice}

/-- No way belongs to both masks. -/
theorem and_eq_zero (divided : Divided cacheCapacity slice) (fits : cacheCapacity ≤ 32) :
    getCbm (cbmEntries slice.sampled) &&& getCbm (cbmEntries slice.shared) = 0 := by
  apply BitVec.eq_of_getLsbD_eq
  intro way inside
  rw [BitVec.getLsbD_and, BitVec.ofNat_eq_ofNat, BitVec.getLsbD_zero, Bool.and_eq_false_iff]
  by_cases sampled : IsSet slice.sampled way
  · have below := divided.sampled_length ▸ sampled.lt_length
    have notShared := (divided.one_row way below).mp sampled
    rw [← getLsbD_getCbm (divided.shared_length.trans_le fits), Bool.not_eq_true] at notShared
    exact .inr notShared
  · rw [← getLsbD_getCbm (divided.sampled_length.trans_le fits), Bool.not_eq_true] at sampled
    exact .inl sampled

/-- Every way of the cache belongs to one of the masks. -/
theorem or_eq_fullMask (divided : Divided cacheCapacity slice) (fits : cacheCapacity ≤ 32) :
    getCbm (cbmEntries slice.sampled) ||| getCbm (cbmEntries slice.shared) =
      fullMask cacheCapacity := by
  apply BitVec.eq_of_getLsbD_eq
  intro way inside
  rw [BitVec.getLsbD_or, getLsbD_fullMask inside, Bool.eq_iff_iff, Bool.or_eq_true,
    decide_eq_true_eq, getLsbD_getCbm (divided.sampled_length.trans_le fits),
    getLsbD_getCbm (divided.shared_length.trans_le fits)]
  constructor
  · rintro (sampled | shared)
    · exact divided.sampled_length ▸ sampled.lt_length
    · exact divided.shared_length ▸ shared.lt_length
  · intro below
    by_cases shared : IsSet slice.shared way
    · exact .inr shared
    · exact .inl ((divided.one_row way below).mpr shared)

end Divided

/-! ## What is kept and what is recorded -/

/-- The monitoring ids are as before, and the other cores' entries give the shared ways. -/
structure Recorded (slice : Slice) (procIdxProfiled cores : ℕ) (before msrs : Msrs)
    (currentlySampling : ℕ → CoreSampling) : Prop where
  rmid : ∀ core, rmidOf msrs core = rmidOf before core
  sampling : ∀ core < cores, core ≠ procIdxProfiled →
    currentlySampling core = ⟨numWaysBeingSampled slice.shared, 1⟩

section

variable {machine : Machine} {slice : Slice} {procIdxProfiled : ℕ} {before : Msrs}

theorem recorded_succ {core : ℕ} {st next : Msrs × (ℕ → CoreSampling)}
    (recorded : Recorded slice procIdxProfiled core before st.1 st.2)
    (stepped : shareRemaining machine slice procIdxProfiled st core = .ok next) :
    Recorded slice procIdxProfiled (core + 1) before next.1 next.2 := by
  rw [shareRemaining] at stepped
  split at stepped
  · rename_i isProfiled
    cases stepped
    exact ⟨recorded.rmid, fun other below different =>
      recorded.sampling other (by omega) different⟩
  · obtain ⟨msrs, mapped, returned⟩ := bind_eq_ok_iff.mp stepped
    cases returned
    refine ⟨fun other => (rmidOf_of_setCos mapped other).trans (recorded.rmid other),
      fun other below different => ?_⟩
    by_cases here : other = core
    · rw [here]
      exact Function.update_self _ _ _
    · exact (Function.update_of_ne here _ _).trans
        (recorded.sampling other (by omega) different)

theorem recorded_of_foldlM {cores : ℕ} {st next : Msrs × (ℕ → CoreSampling)}
    (recorded : Recorded slice procIdxProfiled 0 before st.1 st.2)
    (looped : (List.range cores).foldlM (shareRemaining machine slice procIdxProfiled) st =
      .ok next) : Recorded slice procIdxProfiled cores before next.1 next.2 :=
  @foldlM_range_invariant _ _ _
    (fun passed st => Recorded slice procIdxProfiled passed before st.1 st.2)
    _ _ _ (fun _ _ _ => recorded_succ) recorded looped

theorem recorded_of_setCachewaysToCores {currentlySampling : ℕ → CoreSampling}
    {next : Msrs × (ℕ → CoreSampling)}
    (set : setCachewaysToCores machine slice procIdxProfiled before currentlySampling =
      .ok next) :
    Recorded slice procIdxProfiled machine.numLogicalCores before next.1 next.2 := by
  rcases setCachewaysToCores_cases set with ⟨first, second, mapped, atFirst, atSecond, atMapped,
    looped⟩
  refine recorded_of_foldlM ⟨fun core => ?_, nofun⟩ looped
  rw [rmidOf_of_setCos atMapped, rmidOf_of_setCbm atSecond (by decide),
    rmidOf_of_setCbm atFirst (by decide)]

end

/-! ## Isolation -/

/-- The profiled core has the ways of the first row, every other core has those of the second, and
no way is in both or in neither. The monitoring ids are those from before, and each core's entry
counts the ways that it really has. -/
structure Isolated (machine : Machine) (slice : Slice) (procIdxProfiled : ℕ) (before : Msrs)
    (next : Msrs × (ℕ → CoreSampling)) : Prop where
  profiled : ∀ way, (effectiveMask next.1 procIdxProfiled).getLsbD way = true ↔
    IsSet slice.sampled way
  others : ∀ core < machine.numLogicalCores, core ≠ procIdxProfiled →
    ∀ way, (effectiveMask next.1 core).getLsbD way = true ↔ IsSet slice.shared way
  disjoint : ∀ core < machine.numLogicalCores, core ≠ procIdxProfiled →
    effectiveMask next.1 procIdxProfiled &&& effectiveMask next.1 core = 0
  all_ways : ∀ core < machine.numLogicalCores, core ≠ procIdxProfiled →
    effectiveMask next.1 procIdxProfiled ||| effectiveMask next.1 core =
      fullMask machine.cacheNumWays
  rmid : ∀ core, rmidOf next.1 core = rmidOf before core
  sampling : ∀ core, core = procIdxProfiled ∨ core < machine.numLogicalCores →
    (next.2 core).ways = BitSet.size (effectiveMask next.1 core)

/-- After `set_cacheways_to_cores` the profiled core is isolated, whatever the registers held. -/
theorem isolated_of_setCachewaysToCores {machine : Machine} {plan : Plan} {slice : Slice}
    {procIdxProfiled : ℕ} {before : Msrs} {currentlySampling : ℕ → CoreSampling}
    {next : Msrs × (ℕ → CoreSampling)}
    (generated : generateProfilingPlan machine.cacheNumWays = .ok plan)
    (listed : slice ∈ plan.slices)
    (set : setCachewaysToCores machine slice procIdxProfiled before currentlySampling =
      .ok next) : Isolated machine slice procIdxProfiled before next := by
  have divided := divided_of_generateProfilingPlan generated listed
  have fits : machine.cacheNumWays ≤ 32 :=
    (narrow_of_generateProfilingPlan generated).2.1.trans (by decide)
  have sampledShort := divided.sampled_length.trans_le fits
  have sharedShort := divided.shared_length.trans_le fits
  have applied := applied_of_setCachewaysToCores set
  have recorded := recorded_of_setCachewaysToCores set
  have mine : effectiveMask next.1 procIdxProfiled = getCbm (cbmEntries slice.sampled) :=
    applied.effectiveMask_profiled
  have theirs : ∀ core < machine.numLogicalCores, core ≠ procIdxProfiled →
      effectiveMask next.1 core = getCbm (cbmEntries slice.shared) := by
    intro core inside different
    rw [effectiveMask, applied.others core inside different, applied.shared]
  constructor
  case profiled =>
    intro way
    rw [mine]
    exact getLsbD_getCbm sampledShort way
  case others =>
    intro core inside different way
    rw [theirs core inside different]
    exact getLsbD_getCbm sharedShort way
  case disjoint =>
    intro core inside different
    rw [mine, theirs core inside different]
    exact divided.and_eq_zero fits
  case all_ways =>
    intro core inside different
    rw [mine, theirs core inside different]
    exact divided.or_eq_fullMask fits
  case rmid => exact recorded.rmid
  case sampling =>
    intro core known
    by_cases isProfiled : core = procIdxProfiled
    · rw [isProfiled, mine, size_getCbm sampledShort, applied.sampling]
    · have inside := known.resolve_left isProfiled
      rw [theirs core inside isProfiled, size_getCbm sharedShort,
        recorded.sampling core inside isProfiled]

/-- A machine of four ways and three classes, whose second core is profiled. -/
def fourWays : Machine where
  numCores := 4
  numLogicalCores := 4
  opensMsr := fun _ => true
  cacheNumWays := 4
  cacheLineSize := 64
  catSupported := true
  l3CatSupported := true
  cbmLen := 4
  numCos := 3
  cmtMultiplier := 1
  numaNodeOfCpu := fun _ => 0
  numCos_le := by decide
  cbmLen_le := by decide

theorem fourWays_isolated : ∃ next,
    setCachewaysToCores fourWays (sliceOf 4 3) 1 (fun _ _ => 0xFFFFFFFFFFFFFFFF#64)
      (fun _ => ⟨0, 0⟩) = .ok next ∧
    Isolated fourWays (sliceOf 4 3) 1 (fun _ _ => 0xFFFFFFFFFFFFFFFF#64) next :=
  ⟨_, rfl, isolated_of_setCachewaysToCores rfl (List.mem_cons_self) rfl⟩

end Datamime.Profiler
