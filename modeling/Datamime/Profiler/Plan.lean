/-
# The profiling plan

For every supported number of cache ways there is a list of way counts to sample,
from most to least. Each of them becomes a slice: a row that gives the profiled
thread its ways and a row that gives the remaining ways to all others.
-/

import Datamime.Profiler.CacheWays

namespace Datamime.Profiler

open Datamime.Math Datamime.Hardware

/-- The way counts to sample. -/
def wayCounts : ℕ → Option (List ℕ)
  | 16 => some [15, 15, 11, 7, 4, 2, 1]
  | 15 => some [14, 14, 10, 7, 4, 2, 1]
  | 14 => some [13, 13, 9, 6, 4, 2, 1]
  | 13 => some [12, 12, 9, 6, 4, 2, 1]
  | 12 => some [11, 11, 8, 6, 4, 2, 1]
  | 11 => some [10, 10, 8, 6, 4, 2, 1]
  | 10 => some [9, 9, 8, 6, 4, 2, 1]
  | 9 => some [8, 8, 6, 4, 3, 2, 1]
  | 8 => some [7, 7, 6, 4, 3, 2, 1]
  | 7 => some [6, 6, 5, 4, 3, 2, 1]
  | 6 => some [5, 5, 4, 3, 2, 1]
  | 5 => some [4, 4, 3, 2, 1]
  | 4 => some [3, 3, 2, 1]
  | 3 => some [2, 2, 1]
  | _ => none

/-- The slice for a way count: the lowest ways are sampled, the others are shared. -/
def sliceOf (cacheCapacity ways : ℕ) : Slice where
  sampled := List.replicate ways 1 ++ List.replicate (cacheCapacity - ways) 0
  shared := List.replicate ways 0 ++ List.replicate (cacheCapacity - ways) 1

/-- The first two slices of a cache with twelve ways, which has a processor bug to avoid. -/
def workaroundSlice : Slice where
  sampled := [0, 1, 1, 1, 1, 1, 1, 1, 1, 1, 1, 1]
  shared := [1, 0, 0, 0, 0, 0, 0, 0, 0, 0, 0, 0]

/-- `allAppsCacheAssignments`, as `generate_profiling_plan` fills it. -/
def assignments (cacheCapacity : ℕ) (ways : List ℕ) : List Slice :=
  let slices := ways.map (sliceOf cacheCapacity)
  if cacheCapacity = 12 then (slices.set 0 workaroundSlice).set 1 workaroundSlice else slices

theorem length_assignments (cacheCapacity : ℕ) (ways : List ℕ) :
    (assignments cacheCapacity ways).length = ways.length := by
  rw [assignments]
  split <;> simp

theorem wayCounts_le {cacheCapacity : ℕ} {ways : List ℕ}
    (accepted : wayCounts cacheCapacity = some ways) : 3 ≤ cacheCapacity ∧ cacheCapacity ≤ 16 := by
  unfold wayCounts at accepted
  split at accepted <;> simp_all

/-- Every plan warms up, samples at least one way and leaves at least one to the others. -/
theorem wayCounts_bounds {cacheCapacity : ℕ} {ways : List ℕ}
    (accepted : wayCounts cacheCapacity = some ways) :
    2 ≤ ways.length ∧ ∀ count ∈ ways, 0 < count ∧ count < cacheCapacity := by
  unfold wayCounts at accepted
  split at accepted <;> simp_all <;> subst ways <;> simp

/-- `generate_profiling_plan`. -/
def generateProfilingPlan (cacheCapacity : ℕ) : Except Fault Plan :=
  match accepted : wayCounts cacheCapacity with
  | some ways => .ok ⟨assignments cacheCapacity ways, by
      rw [length_assignments]
      exact (wayCounts_bounds accepted).1⟩
  | none => .error (.exit "Invalid cache capacity passed to generate_profiling_plan().")

/-! ## The ways of a slice -/

theorem cbmEntries_sliceOf {cacheCapacity ways : ℕ} :
    cbmEntries (sliceOf cacheCapacity ways).sampled = List.range ways := by
  rw [cbmEntries, sliceOf, List.zipIdx_append, List.filter_append, List.map_append,
    List.length_replicate]
  have first : (List.replicate ways 1).zipIdx.filter (fun entry => decide (0 < entry.1)) =
      (List.replicate ways 1).zipIdx := by
    rw [List.filter_eq_self]
    rintro ⟨set, position⟩ listed
    have value := List.fst_mem_of_mem_zipIdx listed
    have isOne : set = 1 := (List.mem_replicate.mp value).2
    simp [isOne]
  have second : ∀ start, ((List.replicate (cacheCapacity - ways) 0).zipIdx start).filter
      (fun entry => decide (0 < entry.1)) = [] := by
    intro start
    rw [List.filter_eq_nil_iff]
    rintro ⟨set, position⟩ listed
    have value := List.fst_mem_of_mem_zipIdx listed
    have isZero : set = 0 := (List.mem_replicate.mp value).2
    simp [isZero]
  rw [first, second, List.map_nil, List.append_nil, List.zipIdx_map_snd, List.length_replicate,
    List.range_eq_range']

/-- A slice of a plan samples some of the ways, but not all of them. -/
structure Narrow (cacheCapacity : ℕ) (slice : Slice) : Prop where
  short : slice.sampled.length = cacheCapacity
  some_way : 0 < numWaysBeingSampled slice.sampled
  not_all : numWaysBeingSampled slice.sampled < cacheCapacity

theorem narrow_sliceOf {cacheCapacity ways : ℕ} (positive : 0 < ways)
    (below : ways < cacheCapacity) : Narrow cacheCapacity (sliceOf cacheCapacity ways) := by
  constructor
  · simp [sliceOf]
    omega
  · rw [numWaysBeingSampled, cbmEntries_sliceOf, List.length_range]
    exact positive
  · rw [numWaysBeingSampled, cbmEntries_sliceOf, List.length_range]
    exact below

theorem narrow_workaroundSlice : Narrow 12 workaroundSlice := by
  constructor <;> decide

/-- The slices of every plan, with the processor bug or without it. -/
theorem slice_cases_of_generateProfilingPlan {cacheCapacity : ℕ} {plan : Plan}
    (generated : generateProfilingPlan cacheCapacity = .ok plan) {slice : Slice}
    (listed : slice ∈ plan.slices) :
    (∃ count, 0 < count ∧ count < cacheCapacity ∧ slice = sliceOf cacheCapacity count) ∨
      cacheCapacity = 12 ∧ slice = workaroundSlice := by
  unfold generateProfilingPlan at generated
  split at generated
  · rename_i ways accepted
    obtain rfl := Except.ok.inj generated
    have regular : ∀ slice ∈ ways.map (sliceOf cacheCapacity),
        ∃ count, 0 < count ∧ count < cacheCapacity ∧ slice = sliceOf cacheCapacity count := by
      intro slice isMember
      obtain ⟨count, listed, rfl⟩ := List.mem_map.mp isMember
      obtain ⟨positive, below⟩ := (wayCounts_bounds accepted).2 count listed
      exact ⟨count, positive, below, rfl⟩
    simp only [assignments] at listed
    split at listed
    · rename_i twelve
      rcases List.mem_or_eq_of_mem_set listed with listed | isWorkaround
      · rcases List.mem_or_eq_of_mem_set listed with listed | isWorkaround
        · exact .inl (regular slice listed)
        · exact .inr ⟨twelve, isWorkaround⟩
      · exact .inr ⟨twelve, isWorkaround⟩
    · exact .inl (regular slice listed)
  · cases generated

/-- The slices of every plan are narrow. -/
theorem narrow_of_generateProfilingPlan {cacheCapacity : ℕ} {plan : Plan}
    (generated : generateProfilingPlan cacheCapacity = .ok plan) :
    3 ≤ cacheCapacity ∧ cacheCapacity ≤ 16 ∧
      ∀ slice ∈ plan.slices, Narrow cacheCapacity slice := by
  have bounds : 3 ≤ cacheCapacity ∧ cacheCapacity ≤ 16 := by
    unfold generateProfilingPlan at generated
    split at generated
    · rename_i ways accepted
      exact wayCounts_le accepted
    · cases generated
  refine ⟨bounds.1, bounds.2, fun slice listed => ?_⟩
  rcases slice_cases_of_generateProfilingPlan generated listed with
    ⟨count, positive, below, rfl⟩ | ⟨rfl, rfl⟩
  · exact narrow_sliceOf positive below
  · exact narrow_workaroundSlice

/-- The mask of a narrow slice is not the full mask. -/
theorem Narrow.getCbm_ne_fullMask {cacheCapacity : ℕ} {slice : Slice}
    (narrow : Narrow cacheCapacity slice) (fits : cacheCapacity ≤ 32) :
    getCbm (cbmEntries slice.sampled) ≠ fullMask cacheCapacity := by
  intro equal
  have sizes := congrArg BitSet.size equal
  rw [size_getCbm (narrow.short.trans_le fits), size_fullMask fits] at sizes
  exact absurd sizes narrow.not_all.ne

end Datamime.Profiler
