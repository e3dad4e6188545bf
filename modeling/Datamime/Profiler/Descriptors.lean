/-
# Descriptors of the cores

The loops that set up the cores run to the number of configured processors. The table of
register descriptors has one entry for each online processor. The two counts differ on a machine
with a processor that is offline, and there the loops index past the end of the table.
-/

import Datamime.Hardware.Sharing
import Datamime.Profiler.Isolation

namespace Datamime.Profiler

open Datamime.Math Datamime.Hardware

/-- The register of a core was accessed that has no descriptor. -/
def IsMissing (fault : Fault) : Prop := fault = .outOfRange .msrDescriptors

variable {machine : Machine} {msrs : Msrs}

/-! ## Loops that stay inside the table -/

theorem avoids_missing_setCos {core cos : ℕ} (online : core < machine.numCores) :
    Avoids IsMissing (setCos machine msrs core cos) :=
  avoids_setCos (fun _ => nofun) fun outside => absurd online outside.not_gt

theorem avoids_missing_setCbm {cos : ℤ} {cbm : BitVec 32} (cores : 0 < machine.numCores) :
    Avoids IsMissing (setCbm machine msrs cos cbm) :=
  avoids_setCbm (fun _ => nofun) (fun _ => nofun) fun none => absurd cores none.not_gt

theorem avoids_missing_catController : Avoids IsMissing (catController machine) :=
  avoids_catController nofun (fun _ => nofun) nofun nofun

theorem cores_of_catController (controls : catController machine = .ok ()) :
    0 < machine.numCores :=
  (catController_eq_ok_iff.mp controls).1.1

theorem avoids_missing_shareAllCacheWays {numLogicalCores cacheNumWays : ℕ}
    (online : numLogicalCores ≤ machine.numCores) :
    Avoids IsMissing (shareAllCacheWays machine numLogicalCores cacheNumWays msrs) := by
  refine avoids_missing_catController.bind fun _ _ => avoids_foldlM (fun _ core listed => ?_) _
  have inside := (List.mem_range.mp listed).trans_le online
  exact avoids_shareCore (fun _ => nofun) (fun _ => nofun) fun outside =>
    absurd inside outside.not_gt

theorem avoids_missing_setCachewaysToCores {slice : Slice} {procIdxProfiled : ℕ}
    {currentlySampling : ℕ → CoreSampling} (online : machine.numLogicalCores ≤ machine.numCores)
    (profiled : procIdxProfiled < machine.numLogicalCores) :
    Avoids IsMissing (setCachewaysToCores machine slice procIdxProfiled msrs
      currentlySampling) := by
  have cores : 0 < machine.numCores := by omega
  refine avoids_missing_catController.bind fun _ _ => ?_
  refine (avoids_foldlM (fun _ _ _ => avoids_missing_setCbm cores) _).bind fun _ _ => ?_
  refine (avoids_missing_setCos (by omega)).bind fun _ _ => ?_
  refine avoids_foldlM (fun st procID listed => ?_) _
  have inside := (List.mem_range.mp listed).trans_le online
  exact avoids_ite (fun _ => avoids_ok _) fun _ =>
    (avoids_missing_setCos inside).bind fun _ _ => avoids_ok _

/-! ## Machines that refuse earlier -/

/-- The controller is there, has a class, and accepts the mask of all ways. -/
structure AcceptsAllWays (machine : Machine) : Prop where
  controls : catController machine = .ok ()
  classes : 0 < machine.numCos
  fits : shiftRight (fullMask machine.cacheNumWays) machine.cbmLen = 0

theorem shiftRight_or (first second : BitVec 32) (count : ℕ) :
    shiftRight (first ||| second) count = shiftRight first count ||| shiftRight second count :=
  BitVec.ushiftRight_or_distrib first second _

/-- If the controller accepts both masks of a slice, it accepts the mask of all ways. -/
theorem fits_of_masks {plan : Plan} {slice : Slice}
    (generated : generateProfilingPlan machine.cacheNumWays = .ok plan)
    (listed : slice ∈ plan.slices)
    (sampled : shiftRight (getCbm (cbmEntries slice.sampled)) machine.cbmLen = 0)
    (shared : shiftRight (getCbm (cbmEntries slice.shared)) machine.cbmLen = 0) :
    shiftRight (fullMask machine.cacheNumWays) machine.cbmLen = 0 := by
  have inWord : machine.cacheNumWays ≤ 32 :=
    (narrow_of_generateProfilingPlan generated).2.1.trans (by decide)
  rw [← (divided_of_generateProfilingPlan generated listed).or_eq_fullMask inWord,
    shiftRight_or, sampled, shared, BitVec.or_self]

/-- Where the masks of all ways are refused, so is one of the masks of every slice, and no core
was accessed before. -/
theorem avoids_missing_of_refused {plan : Plan} {slice : Slice} {procIdxProfiled : ℕ}
    {currentlySampling : ℕ → CoreSampling}
    (generated : generateProfilingPlan machine.cacheNumWays = .ok plan)
    (listed : slice ∈ plan.slices) (refuses : ¬ AcceptsAllWays machine) :
    Avoids IsMissing (setCachewaysToCores machine slice procIdxProfiled msrs
      currentlySampling) := by
  refine avoids_missing_catController.bind fun _ controls => ?_
  have cores := cores_of_catController controls
  refine (avoids_foldlM (fun _ _ _ => avoids_missing_setCbm cores) _).bind fun masked masks => ?_
  obtain ⟨first, atFirst, masks⟩ := bind_eq_ok_iff.mp masks
  obtain ⟨second, atSecond, -⟩ := bind_eq_ok_iff.mp masks
  obtain ⟨supported, sampledFits, -⟩ := setCbm_eq_ok_iff.mp atFirst
  obtain ⟨-, sharedFits, -⟩ := setCbm_eq_ok_iff.mp atSecond
  exact absurd ⟨controls, by omega,
    fits_of_masks generated listed sampledFits sharedFits⟩ refuses

theorem avoids_missing_share_of_refused {numLogicalCores : ℕ}
    (refuses : ¬ AcceptsAllWays machine) :
    Avoids IsMissing (shareAllCacheWays machine numLogicalCores machine.cacheNumWays msrs) := by
  refine avoids_missing_catController.bind fun _ controls => ?_
  have cores := cores_of_catController controls
  -- The first core is there, and its round does not return.
  have first : ∀ msrs, Avoids IsMissing (shareCore machine machine.cacheNumWays msrs 0) := fun _ =>
    avoids_shareCore (fun _ => nofun) (fun _ => nofun) fun outside => absurd cores outside.not_gt
  cases numLogicalCores with
  | zero => exact avoids_ok msrs
  | succ others =>
      rw [List.range_succ_eq_map, List.foldlM_cons]
      refine (first msrs).bind fun next shared => absurd ?_ refuses
      rw [shareCore] at shared
      split at shared
      · rename_i supported
        obtain ⟨masked, atMasked, -⟩ := bind_eq_ok_iff.mp shared
        exact ⟨controls, by omega, (setCbm_eq_ok_iff.mp atMasked).2.1⟩
      · have supported := (setCos_eq_ok_iff.mp shared).1
        omega

/-! ## Past the end of the table -/

theorem setCos_eq_missing {core cos : ℕ} (supported : cos < machine.numCos)
    (offline : machine.numCores ≤ core) :
    setCos machine msrs core cos = .error (.outOfRange .msrDescriptors) := by
  rw [setCos, if_neg (Nat.not_le.mpr supported), Msrs.read, if_neg (Nat.not_lt.mpr offline)]
  rfl

/-- The first core without a descriptor is reached. -/
theorem shareAllCacheWays_eq_missing (accepts : AcceptsAllWays machine)
    (someOffline : machine.numCores < machine.numLogicalCores) :
    shareAllCacheWays machine machine.numLogicalCores machine.cacheNumWays msrs =
      .error (.outOfRange .msrDescriptors) := by
  have cores := cores_of_catController accepts.controls
  obtain ⟨middle, atMiddle⟩ := exists_foldlM_range
    (fun core online (_ : Msrs) => exists_shareCore accepts.classes accepts.fits online) msrs
  have missing : shareCore machine machine.cacheNumWays middle machine.numCores =
      .error (.outOfRange .msrDescriptors) := by
    rw [shareCore]
    split
    · rename_i supported
      obtain ⟨masked, atMasked⟩ : ∃ masked, setCbm machine middle machine.numCores
          (fullMask machine.cacheNumWays) = .ok masked :=
        ⟨_, setCbm_eq_ok_iff.mpr ⟨Int.ofNat_lt.mpr supported, accepts.fits, cores, rfl⟩⟩
      rw [atMasked, ok_bind]
      exact setCos_eq_missing supported le_rfl
    · exact setCos_eq_missing (Nat.sub_lt accepts.classes Nat.one_pos) le_rfl
  obtain ⟨others, isTotal⟩ : ∃ others, machine.numLogicalCores = machine.numCores + (others + 1) :=
    ⟨machine.numLogicalCores - machine.numCores - 1, by omega⟩
  rw [shareAllCacheWays, accepts.controls, ok_bind, isTotal, List.range_add,
    List.foldlM_append, atMiddle, ok_bind, List.range_succ_eq_map, List.map_cons,
    List.foldlM_cons, Nat.add_zero, missing]
  rfl

/-! ## Every core has a descriptor -/

/-- No call that sets up the cores accesses the registers of a core without a descriptor. -/
structure FindsDescriptors (machine : Machine) : Prop where
  sharing : ∀ msrs, shareAllCacheWays machine machine.numLogicalCores machine.cacheNumWays msrs ≠
    .error (.outOfRange .msrDescriptors)
  sampling : ∀ plan, generateProfilingPlan machine.cacheNumWays = .ok plan →
    ∀ slice ∈ plan.slices, ∀ procIdxProfiled < machine.numLogicalCores,
      ∀ msrs currentlySampling,
        setCachewaysToCores machine slice procIdxProfiled msrs currentlySampling ≠
          .error (.outOfRange .msrDescriptors)

/-- Every core has a descriptor precisely on the machines without an offline processor, and on
those where the controller refuses before a core is accessed. -/
theorem findsDescriptors_iff (machine : Machine) :
    FindsDescriptors machine ↔
      machine.numLogicalCores ≤ machine.numCores ∨ ¬ AcceptsAllWays machine := by
  constructor
  · intro finds
    by_contra! failing
    exact finds.sharing (fun _ _ => 0) (shareAllCacheWays_eq_missing failing.2 failing.1)
  · rintro (online | refuses)
    · exact ⟨fun msrs failed => avoids_missing_shareAllCacheWays online _ failed rfl,
        fun plan _ slice _ procIdxProfiled profiled msrs currentlySampling failed =>
          avoids_missing_setCachewaysToCores online profiled _ failed rfl⟩
    · exact ⟨fun msrs failed => avoids_missing_share_of_refused refuses _ failed rfl,
        fun plan generated slice listed procIdxProfiled _ msrs currentlySampling failed =>
          avoids_missing_of_refused generated listed refuses _ failed rfl⟩

/-- Eight configured processors, of which only the first four are online. -/
def halfOffline : Machine :=
  { fourWays with numLogicalCores := 8, opensMsr := fun core => decide (core < 4) }

theorem halfOffline_misses_descriptor : ¬ FindsDescriptors halfOffline := by
  intro finds
  refine finds.sharing (fun _ _ => 0) (shareAllCacheWays_eq_missing ⟨rfl, ?_, ?_⟩ ?_)
  · decide
  · decide
  · decide

end Datamime.Profiler
