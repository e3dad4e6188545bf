/-
# Sharing all ways, whatever the registers held

`share_all_cache_ways` undoes what a sampling round set up. It rewrites the masks of those
classes whose number is also the number of a core, and maps the cores beyond the last class to
that class. Every class that a core ends up in is one whose mask was rewritten, whichever of the
two counts is larger.
-/

import Datamime.Hardware.Faults

namespace Datamime.Hardware

open Datamime.Math

/-! ## What the controller throws -/

/-- The fault is an exception that the controller throws. -/
def IsThrown (fault : Fault) : Prop := ∃ what, fault = .thrown what

section

variable {machine : Machine} {msrs : Msrs}

/-- The mask of all ways passes the length check of the controller, except on a machine whose
masks fill the word. -/
theorem shiftRight_fullMask_eq_zero_iff {cacheNumWays : ℕ} (fits : cacheNumWays ≤ machine.cbmLen) :
    shiftRight (fullMask cacheNumWays) machine.cbmLen = 0 ↔
      machine.cbmLen < 32 ∨ cacheNumWays = 0 := by
  have limit := machine.cbmLen_le
  constructor
  · intro zero
    by_contra! failing
    have isWord : machine.cbmLen = 32 := by omega
    have firstBit := congrArg (BitVec.getLsbD · 0) zero
    simp only [shiftRight, isWord, Nat.mod_self, BitVec.ushiftRight_zero] at firstBit
    rw [getLsbD_fullMask (by decide), BitVec.ofNat_eq_ofNat, BitVec.getLsbD_zero,
      decide_eq_false_iff_not] at firstBit
    omega
  · intro shortMask
    apply BitVec.eq_of_getLsbD_eq
    intro way inside
    rw [shiftRight, BitVec.getLsbD_ushiftRight, BitVec.ofNat_eq_ofNat, BitVec.getLsbD_zero]
    by_cases inWord : machine.cbmLen % 32 + way < 32
    · rw [getLsbD_fullMask inWord, decide_eq_false_iff_not]
      rcases shortMask with short | rfl
      · rw [Nat.mod_eq_of_lt short]
        omega
      · exact Nat.not_lt_zero _
    · exact BitVec.getLsbD_of_ge _ _ (Nat.not_lt.mp inWord)

/-! ## The loop -/

variable {cacheNumWays : ℕ}

theorem avoids_thrown_shareCore (classes : 0 < machine.numCos)
    (fits : shiftRight (fullMask cacheNumWays) machine.cbmLen = 0) (coreID : ℕ) :
    Avoids IsThrown (shareCore machine cacheNumWays msrs coreID) := by
  refine avoids_shareCore (fun none => absurd none classes.ne') (fun exceeds => absurd fits exceeds)
    fun _ => ?_
  rintro ⟨what, ⟨⟩⟩

theorem exists_shareCore (classes : 0 < machine.numCos)
    (fits : shiftRight (fullMask cacheNumWays) machine.cbmLen = 0) {coreID : ℕ}
    (online : coreID < machine.numCores) :
    ∃ next, shareCore machine cacheNumWays msrs coreID = .ok next := by
  rw [shareCore]
  split
  · rename_i supported
    have firstCore : 0 < machine.numCores := by omega
    obtain ⟨masked, atMasked⟩ : ∃ masked,
        setCbm machine msrs coreID (fullMask cacheNumWays) = .ok masked :=
      ⟨_, setCbm_eq_ok_iff.mpr ⟨Int.ofNat_lt.mpr supported, fits, firstCore, rfl⟩⟩
    rw [atMasked, ok_bind]
    exact ⟨_, setCos_eq_ok_iff.mpr ⟨supported, online, rfl⟩⟩
  · exact ⟨_, setCos_eq_ok_iff.mpr ⟨Nat.sub_lt classes Nat.one_pos, online, rfl⟩⟩

/-- With masks that fill the word the first core already makes the controller throw. -/
theorem shareAllCacheWays_eq_thrown {cores : ℕ} (controls : catController machine = .ok ())
    (classes : 0 < machine.numCos) (positive : 0 < cores)
    (tooLong : shiftRight (fullMask cacheNumWays) machine.cbmLen ≠ 0) :
    shareAllCacheWays machine cores cacheNumWays msrs = .error (.thrown (cbmExceeds machine)) := by
  obtain ⟨others, rfl⟩ : ∃ others, cores = others + 1 := ⟨cores - 1, by omega⟩
  rw [shareAllCacheWays, controls, ok_bind, List.range_succ_eq_map, List.foldlM_cons, shareCore,
    if_pos classes, setCbm, if_neg (by omega), if_pos tooLong]
  rfl

end

/-! ## Every core has all ways -/

/-- `share_all_cache_ways` throws nothing, leaves every core in an existing class whose mask
contains all ways, and does return if every core has a descriptor. -/
structure SharesAll (machine : Machine) (numLogicalCores cacheNumWays : ℕ) (msrs : Msrs) :
    Prop where
  throws_nothing : ∀ what,
    shareAllCacheWays machine numLogicalCores cacheNumWays msrs ≠ .error (.thrown what)
  all_ways : ∀ next, shareAllCacheWays machine numLogicalCores cacheNumWays msrs = .ok next →
    ∀ core < numLogicalCores, cosOf next core < machine.numCos ∧
      ∀ way < cacheNumWays, (maskOf next (cosOf next core)).getLsbD way = true
  returns : numLogicalCores ≤ machine.numCores →
    ∃ next, shareAllCacheWays machine numLogicalCores cacheNumWays msrs = .ok next

theorem cosOf_lt_of_shareAllCacheWays {machine : Machine} {msrs next : Msrs}
    {numLogicalCores cacheNumWays : ℕ} (classes : 0 < machine.numCos)
    (shared : shareAllCacheWays machine numLogicalCores cacheNumWays msrs = .ok next)
    {core : ℕ} (inside : core < numLogicalCores) : cosOf next core < machine.numCos := by
  obtain ⟨-, -, looped⟩ := bind_eq_ok_iff.mp shared
  rw [(sharedBelow_of_foldlM looped).mapped core inside]
  omega

/-- All ways are shared on every machine whose devices open, except where a shift by the length of
the masks is a shift by the width of the word. -/
theorem sharesAll_iff {machine : Machine} {numLogicalCores cacheNumWays : ℕ} (msrs : Msrs)
    (cores : 0 < machine.numCores) (present : machine.catSupported = true)
    (l3Present : machine.l3CatSupported = true) (classes : 0 < machine.numCos)
    (fits : cacheNumWays ≤ machine.cbmLen) :
    SharesAll machine numLogicalCores cacheNumWays msrs ↔
      machine.OpensAll ∧ (machine.cbmLen < 32 ∨ cacheNumWays = 0 ∨ numLogicalCores = 0) := by
  have inWord : cacheNumWays ≤ 32 := fits.trans machine.cbmLen_le
  have mapped : ∀ next, shareAllCacheWays machine numLogicalCores cacheNumWays msrs = .ok next →
      ∀ core < numLogicalCores, cosOf next core < machine.numCos ∧
        ∀ way < cacheNumWays, (maskOf next (cosOf next core)).getLsbD way = true := by
    intro next shared core inside
    refine ⟨cosOf_lt_of_shareAllCacheWays classes shared inside, fun way below => ?_⟩
    have full := effectiveMask_of_shareAllCacheWays shared inside
    rw [effectiveMask] at full
    rw [full, getLsbD_fullMask (below.trans_le inWord), decide_eq_true_eq]
    exact below
  constructor
  · intro shares
    have opens : machine.OpensAll := by
      by_contra closed
      obtain ⟨core, failed⟩ := openMsrs_eq_thrown cores closed
      refine shares.throws_nothing (errorOpening core) ?_
      rw [shareAllCacheWays, catController, failed]
      rfl
    refine ⟨opens, ?_⟩
    by_contra! failing
    obtain ⟨wide, someWay, someCore⟩ := failing
    have controls := catController_eq_ok_iff.mpr ⟨⟨cores, opens⟩, present, l3Present⟩
    refine shares.throws_nothing _ (shareAllCacheWays_eq_thrown controls classes
      (Nat.pos_of_ne_zero someCore) fun zero => ?_)
    rcases (shiftRight_fullMask_eq_zero_iff fits).mp zero with short | none
    · omega
    · exact someWay none
  · rintro ⟨opens, condition⟩
    have controls := catController_eq_ok_iff.mpr ⟨⟨cores, opens⟩, present, l3Present⟩
    by_cases noCore : numLogicalCores = 0
    · have returned : shareAllCacheWays machine numLogicalCores cacheNumWays msrs = .ok msrs := by
        rw [shareAllCacheWays, controls, noCore]
        rfl
      refine ⟨fun what failed => ?_, mapped, fun _ => ⟨msrs, returned⟩⟩
      cases returned.symm.trans failed
    · have passes : shiftRight (fullMask cacheNumWays) machine.cbmLen = 0 :=
        (shiftRight_fullMask_eq_zero_iff fits).mpr (by tauto)
      rw [shareAllCacheWays, controls, ok_bind] at mapped
      refine ⟨fun what => ?_, ?_, fun online => ?_⟩
      · have loops : Avoids IsThrown
            (shareAllCacheWays machine numLogicalCores cacheNumWays msrs) := by
          rw [shareAllCacheWays, controls, ok_bind]
          exact avoids_foldlM (fun _ core _ => avoids_thrown_shareCore classes passes core) _
        exact fun failed => loops _ failed ⟨what, rfl⟩
      · rw [shareAllCacheWays, controls, ok_bind]
        exact mapped
      · rw [shareAllCacheWays, controls, ok_bind]
        exact exists_foldlM_range
          (fun core below _ => exists_shareCore classes passes (below.trans_le online)) _

/-- A machine with two classes for four cores. -/
def twoClasses : Machine where
  numCores := 4
  numLogicalCores := 4
  opensMsr := fun _ => true
  cacheNumWays := 20
  cacheLineSize := 64
  catSupported := true
  l3CatSupported := true
  cbmLen := 20
  numCos := 2
  cmtMultiplier := 1
  numaNodeOfCpu := fun _ => 0
  numCos_le := by decide
  cbmLen_le := by decide

theorem twoClasses_sharesAll_iff :
    SharesAll twoClasses 4 20 (fun _ _ => 0xFFFFFFFFFFFFFFFF#64) ↔
      twoClasses.OpensAll ∧ (twoClasses.cbmLen < 32 ∨ 20 = 0 ∨ 4 = 0) :=
  sharesAll_iff _ (by decide) rfl rfl (by decide) (by decide)

/-- The same machine with masks of 32 bits. -/
def wordMasks : Machine := { twoClasses with cbmLen := 32, cbmLen_le := by decide }

/-- Twenty ways fit a mask of 32 bits, but the controller throws. -/
theorem wordMasks_not_sharesAll :
    20 ≤ wordMasks.cbmLen ∧ ¬ SharesAll wordMasks 4 20 (fun _ _ => 0) := by
  refine ⟨by decide, fun shares => shares.throws_nothing (cbmExceeds wordMasks) ?_⟩
  exact shareAllCacheWays_eq_thrown rfl (by decide) (by decide) (by decide)

end Datamime.Hardware
