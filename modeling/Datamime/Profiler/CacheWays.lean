/-
# Allocating the ways of a slice

A sampling round steps through the slices of a plan. For each one the profiled core
moves to the first class of service and all other cores to the second, and the masks
of the two classes are set to the two rows of the slice.
-/

import Datamime.Profiler.State

namespace Datamime.Profiler

open Datamime.Math Datamime.Hardware

/-- `cbm_entries`: the columns of a row that are set. -/
def cbmEntries (row : List ℕ) : List ℕ :=
  (row.zipIdx.filter fun entry => 0 < entry.1).map Prod.snd

/-- `numWaysBeingSampled`. -/
def numWaysBeingSampled (row : List ℕ) : ℕ := (cbmEntries row).length

/-- The rows of a slice. -/
def Slice.rows (slice : Slice) : List (List ℕ) := [slice.sampled, slice.shared]

/-- One round of the last loop of `set_cacheways_to_cores`. -/
def shareRemaining (machine : Machine) (slice : Slice) (procIdxProfiled : ℕ)
    (st : Msrs × (ℕ → CoreSampling)) (procID : ℕ) : Except Fault (Msrs × (ℕ → CoreSampling)) :=
  if procID = procIdxProfiled then .ok st
  else do
    let msrs ← setCos machine st.1 procID 2
    return (msrs, Function.update st.2 procID ⟨numWaysBeingSampled slice.shared, 1⟩)

/-- `set_cacheways_to_cores`. -/
def setCachewaysToCores (machine : Machine) (slice : Slice) (procIdxProfiled : ℕ) (msrs : Msrs)
    (currentlySampling : ℕ → CoreSampling) : Except Fault (Msrs × (ℕ → CoreSampling)) := do
  catController machine
  let msrs ← slice.rows.zipIdx.foldlM
    (fun msrs row => setCbm machine msrs (row.2 + 1) (getCbm (cbmEntries row.1))) msrs
  let msrs ← setCos machine msrs procIdxProfiled 1
  let currentlySampling :=
    Function.update currentlySampling procIdxProfiled ⟨numWaysBeingSampled slice.sampled, 1⟩
  (List.range machine.numLogicalCores).foldlM (shareRemaining machine slice procIdxProfiled)
    (msrs, currentlySampling)

/-! ## The ways of a row -/

theorem mem_cbmEntries {row : List ℕ} {way : ℕ} :
    way ∈ cbmEntries row ↔ ∃ set, row[way]? = some set ∧ 0 < set := by
  rw [cbmEntries, List.mem_map]
  constructor
  · rintro ⟨⟨set, position⟩, listed, rfl⟩
    rw [List.mem_filter, List.mem_zipIdx_iff_getElem?, decide_eq_true_eq] at listed
    exact ⟨set, listed⟩
  · rintro ⟨set, found, positive⟩
    refine ⟨(set, way), ?_, rfl⟩
    rw [List.mem_filter, List.mem_zipIdx_iff_getElem?, decide_eq_true_eq]
    exact ⟨found, positive⟩

theorem lt_length_of_mem_cbmEntries {row : List ℕ} {way : ℕ} (isMember : way ∈ cbmEntries row) :
    way < row.length := by
  obtain ⟨set, found, -⟩ := mem_cbmEntries.mp isMember
  exact (List.getElem?_eq_some_iff.mp found).1

theorem nodup_cbmEntries (row : List ℕ) : (cbmEntries row).Nodup := by
  have positions : (row.zipIdx.map Prod.snd).Nodup := by
    rw [List.zipIdx_map_snd]
    exact List.nodup_range'
  exact positions.sublist (List.filter_sublist.map Prod.snd)

/-- The mask of a row contains as many ways as the row has set. -/
theorem size_getCbm {row : List ℕ} (short : row.length ≤ 32) :
    BitSet.size (getCbm (cbmEntries row)) = numWaysBeingSampled row :=
  BitSet.size_ofPositions (nodup_cbmEntries row) fun _ isMember =>
    lt_of_lt_of_le (lt_length_of_mem_cbmEntries isMember) short

theorem size_fullMask {cacheNumWays : ℕ} (fits : cacheNumWays ≤ 32) :
    BitSet.size (fullMask cacheNumWays) = cacheNumWays := by
  rw [fullMask, getCbm, BitSet.size_ofPositions List.nodup_range, List.length_range]
  exact fun way inside => lt_of_lt_of_le (List.mem_range.mp inside) fits

/-! ## The registers afterwards -/

/-- The registers map the profiled core to the sampled ways of a slice and all other
cores to the shared ones. -/
structure Applied (slice : Slice) (procIdxProfiled cores : ℕ) (msrs : Msrs)
    (currentlySampling : ℕ → CoreSampling) : Prop where
  profiled : cosOf msrs procIdxProfiled = 1
  others : ∀ core < cores, core ≠ procIdxProfiled → cosOf msrs core = 2
  sampled : maskOf msrs 1 = getCbm (cbmEntries slice.sampled)
  shared : maskOf msrs 2 = getCbm (cbmEntries slice.shared)
  sampling : currentlySampling procIdxProfiled = ⟨numWaysBeingSampled slice.sampled, 1⟩

variable {machine : Machine} {slice : Slice} {procIdxProfiled : ℕ}

theorem applied_succ {core : ℕ} {st next : Msrs × (ℕ → CoreSampling)}
    (applied : Applied slice procIdxProfiled core st.1 st.2)
    (stepped : shareRemaining machine slice procIdxProfiled st core = .ok next) :
    Applied slice procIdxProfiled (core + 1) next.1 next.2 := by
  rw [shareRemaining] at stepped
  split at stepped
  · rename_i isProfiled
    cases stepped
    refine { applied with others := fun other below different => ?_ }
    exact applied.others other (by omega) different
  · rename_i notProfiled
    obtain ⟨msrs, mapped, returned⟩ := bind_eq_ok_iff.mp stepped
    cases returned
    constructor
    · rw [cosOf_of_setCos mapped, if_neg (Ne.symm notProfiled)]
      exact applied.profiled
    · intro other below different
      rw [cosOf_of_setCos mapped]
      split
      · rfl
      · exact applied.others other (by omega) different
    · rw [maskOf_of_setCos mapped]
      exact applied.sampled
    · rw [maskOf_of_setCos mapped]
      exact applied.shared
    · exact (Function.update_of_ne (Ne.symm notProfiled) _ _).trans applied.sampling

theorem applied_of_foldlM {cores : ℕ} {st next : Msrs × (ℕ → CoreSampling)}
    (applied : Applied slice procIdxProfiled 0 st.1 st.2)
    (looped : (List.range cores).foldlM (shareRemaining machine slice procIdxProfiled) st =
      .ok next) : Applied slice procIdxProfiled cores next.1 next.2 :=
  @foldlM_range_invariant _ _ _ (fun passed st => Applied slice procIdxProfiled passed st.1 st.2)
    _ _ _ (fun _ _ _ => applied_succ) applied looped

/-- The masks of both rows are set, then the profiled core is moved, then all other cores. -/
theorem setCachewaysToCores_cases {msrs : Msrs} {currentlySampling : ℕ → CoreSampling}
    {next : Msrs × (ℕ → CoreSampling)}
    (set : setCachewaysToCores machine slice procIdxProfiled msrs currentlySampling = .ok next) :
    ∃ first second mapped,
      setCbm machine msrs 1 (getCbm (cbmEntries slice.sampled)) = .ok first ∧
      setCbm machine first 2 (getCbm (cbmEntries slice.shared)) = .ok second ∧
      setCos machine second procIdxProfiled 1 = .ok mapped ∧
      (List.range machine.numLogicalCores).foldlM (shareRemaining machine slice procIdxProfiled)
        (mapped, Function.update currentlySampling procIdxProfiled
          ⟨numWaysBeingSampled slice.sampled, 1⟩) = .ok next := by
  obtain ⟨-, -, set⟩ := bind_eq_ok_iff.mp set
  obtain ⟨masked, masks, set⟩ := bind_eq_ok_iff.mp set
  obtain ⟨mapped, atMapped, looped⟩ := bind_eq_ok_iff.mp set
  obtain ⟨first, atFirst, masks⟩ := bind_eq_ok_iff.mp masks
  obtain ⟨second, atSecond, done⟩ := bind_eq_ok_iff.mp masks
  cases done
  exact ⟨first, masked, mapped, atFirst, atSecond, atMapped, looped⟩

/-- A slice that was set is in force for all cores. -/
theorem applied_of_setCachewaysToCores {msrs : Msrs} {currentlySampling : ℕ → CoreSampling}
    {next : Msrs × (ℕ → CoreSampling)}
    (set : setCachewaysToCores machine slice procIdxProfiled msrs currentlySampling = .ok next) :
    Applied slice procIdxProfiled machine.numLogicalCores next.1 next.2 := by
  rcases setCachewaysToCores_cases set with ⟨first, second, mapped, atFirst, atSecond, atMapped,
    looped⟩
  refine applied_of_foldlM ⟨?_, nofun, ?_, ?_, ?_⟩ looped
  · rw [cosOf_of_setCos atMapped, if_pos rfl]
  · rw [maskOf_of_setCos atMapped, maskOf_of_setCbm atSecond, if_neg (by decide),
      maskOf_of_setCbm atFirst, if_pos (by decide)]
  · rw [maskOf_of_setCos atMapped, maskOf_of_setCbm atSecond, if_pos (by decide)]
  · exact Function.update_self _ _ _

/-- The profiled core may fill exactly the sampled ways. -/
theorem Applied.effectiveMask_profiled {cores : ℕ} {msrs : Msrs}
    {currentlySampling : ℕ → CoreSampling}
    (applied : Applied slice procIdxProfiled cores msrs currentlySampling) :
    effectiveMask msrs procIdxProfiled = getCbm (cbmEntries slice.sampled) := by
  rw [effectiveMask, applied.profiled, applied.sampled]

end Datamime.Profiler
