/-
# Cache allocation

A core is mapped to a class of service, a class of service has a capacity mask, and
the mask says which cache ways the cores of the class may fill. Mapping a core and
setting a mask change one register field each. The functions that the profiler
builds on them are described by what they leave behind: which class every core is
mapped to, and which ways the mask of that class contains.
-/

import Datamime.Hardware.Msr
import Datamime.Math.Bits

namespace Datamime.Hardware

open Datamime.Math

variable {machine : Machine} {msrs next : Msrs}

/-! ## The controller -/

/-- The constructor of `CATController`. -/
def catController (machine : Machine) : Except Fault Unit := do
  openMsrs machine
  if machine.catSupported = false then .error (.thrown "CAT not present")
  else if machine.l3CatSupported = false then .error (.thrown "L3 CAT not present")
  else .ok ()

/-- The controller can be constructed. -/
theorem catController_eq_ok_iff :
    catController machine = .ok () ↔ (0 < machine.numCores ∧ machine.OpensAll) ∧
      machine.catSupported = true ∧ machine.l3CatSupported = true := by
  rw [catController, bind_eq_ok_iff, ← openMsrs_eq_ok_iff]
  constructor
  · rintro ⟨_, opened, checked⟩
    refine ⟨opened, ?_⟩
    cases present : machine.catSupported <;> cases l3Present : machine.l3CatSupported <;> simp_all
  · rintro ⟨opened, present, l3Present⟩
    exact ⟨(), opened, by simp [present, l3Present]⟩

/-- The text of the exception for a class that the machine does not have. -/
def cosExceeds (machine : Machine) (cos : ℤ) : String :=
  "cos (" ++ toString cos ++ ") exceeds max supported cos (" ++
    toString ((machine.numCos : ℤ) - 1) ++ ")"

/-- The text of the exception for a mask with too many ways. -/
def cbmExceeds (machine : Machine) : String :=
  "Length of capacity bit mask exceeds max value (" ++ toString machine.cbmLen ++ ")"

/-- `CATController::getCos`. -/
def getCos (machine : Machine) (msrs : Msrs) (core : ℕ) : Except Fault (BitVec 32) := do
  let cos ← msrs.read machine core .pqrAssoc
  return (cos >>> 32).setWidth 32

/-- `CATController::setCos`. -/
def setCos (machine : Machine) (msrs : Msrs) (core cos : ℕ) : Except Fault Msrs :=
  if machine.numCos ≤ cos then .error (.thrown (cosExceeds machine cos))
  else do
    let pqrAssoc ← msrs.read machine core .pqrAssoc
    let cleared := pqrAssoc &&& 0xFFFFFFFF#64 -- clear away cos
    msrs.write machine core .pqrAssoc (cleared ||| (BitVec.ofNat 64 cos <<< 32))

/-- `word >> count`. The language leaves a count of 32 or more undefined; the shift instruction
takes the count modulo 32. -/
def shiftRight (word : BitVec 32) (count : ℕ) : BitVec 32 := word >>> (count % 32)

/-- `CATController::setCbm`. The class is a signed number that is compared from above only. -/
def setCbm (machine : Machine) (msrs : Msrs) (cos : ℤ) (cbm : BitVec 32) : Except Fault Msrs :=
  if machine.numCos ≤ cos then .error (.thrown (cosExceeds machine cos))
  else if shiftRight cbm machine.cbmLen ≠ 0 then .error (.thrown (cbmExceeds machine))
  else do
    let l3Mask ← msrs.read machine 0 (.l3Mask cos)
    let cleared := l3Mask &&& 0xFFFFFFFF00000000#64 -- clear away bit mask
    msrs.write machine 0 (.l3Mask cos) (cleared ||| cbm.setWidth 64)

/-! ## Fields -/

/-- The class that a core is mapped to. -/
def cosOf (msrs : Msrs) (core : ℕ) : ℕ := (BitField.read (msrs core .pqrAssoc) 32 32).toNat

/-- The mask of a class. -/
def maskOf (msrs : Msrs) (cos : ℕ) : BitVec 32 := (msrs 0 (.l3Mask cos)).setWidth 32

/-- The ways that a core may fill: the mask of the class that it is mapped to. -/
def effectiveMask (msrs : Msrs) (core : ℕ) : BitVec 32 := maskOf msrs (cosOf msrs core)

theorem pqrAssoc_eq_write (register : BitVec 64) (cos : ℕ) :
    (register &&& 0xFFFFFFFF#64) ||| (BitVec.ofNat 64 cos <<< 32) =
      BitField.write register 32 32 (BitVec.ofNat 64 cos) := by
  apply BitVec.eq_of_getLsbD_eq
  intro i inside
  rw [BitField.getLsbD_write register _ 32 32 i inside]
  have low : (0xFFFFFFFF#64).getLsbD i = decide (i < 32) := by
    have isMask : (0xFFFFFFFF#64) = BitField.mask 64 32 := by decide
    rw [isMask, BitField.getLsbD_mask]
    simp [inside]
  simp only [BitVec.getLsbD_or, BitVec.getLsbD_and, BitVec.getLsbD_shiftLeft, low]
  grind

theorem setCos_eq_ok_iff {core cos : ℕ} :
    setCos machine msrs core cos = .ok next ↔
      cos < machine.numCos ∧ core < machine.numCores ∧
        next = msrs.set core .pqrAssoc
          (BitField.write (msrs core .pqrAssoc) 32 32 (BitVec.ofNat 64 cos)) := by
  rw [setCos]
  split
  · rename_i exceeds
    exact ⟨nofun, fun accepted => absurd accepted.1 (Nat.not_lt.mpr exceeds)⟩
  · rename_i supported
    simp only [bind_eq_ok_iff, Msrs.read_eq_ok_iff, Msrs.write_eq_ok_iff, pqrAssoc_eq_write]
    constructor
    · rintro ⟨value, ⟨inside, rfl⟩, -, rfl⟩
      exact ⟨Nat.not_le.mp supported, inside, rfl⟩
    · rintro ⟨-, inside, rfl⟩
      exact ⟨_, ⟨inside, rfl⟩, inside, rfl⟩

theorem l3Mask_eq_write (register : BitVec 64) (cbm : BitVec 32) :
    (register &&& 0xFFFFFFFF00000000#64) ||| cbm.setWidth 64 =
      BitField.write register 0 32 (cbm.setWidth 64) := by
  apply BitVec.eq_of_getLsbD_eq
  intro i inside
  rw [BitField.getLsbD_write register _ 0 32 i inside]
  have high : (0xFFFFFFFF00000000#64).getLsbD i = decide (32 ≤ i) := by
    have isMask : (0xFFFFFFFF00000000#64) = ~~~(BitField.mask 64 32) := by decide
    rw [isMask, BitVec.getLsbD_not, BitField.getLsbD_mask]
    grind
  simp only [BitVec.getLsbD_or, BitVec.getLsbD_and, BitVec.getLsbD_setWidth, high]
  grind

theorem setCbm_eq_ok_iff {cos : ℤ} {cbm : BitVec 32} :
    setCbm machine msrs cos cbm = .ok next ↔
      cos < machine.numCos ∧ shiftRight cbm machine.cbmLen = 0 ∧ 0 < machine.numCores ∧
        next = msrs.set 0 (.l3Mask cos)
          ((msrs 0 (.l3Mask cos) &&& 0xFFFFFFFF00000000#64) ||| cbm.setWidth 64) := by
  rw [setCbm]
  split
  · rename_i exceeds
    exact ⟨nofun, fun accepted => absurd accepted.1 (not_lt.mpr exceeds)⟩
  · rename_i supported
    split
    · rename_i tooLong
      exact ⟨nofun, fun accepted => absurd accepted.2.1 tooLong⟩
    · rename_i fits
      simp only [bind_eq_ok_iff, Msrs.read_eq_ok_iff, Msrs.write_eq_ok_iff]
      constructor
      · rintro ⟨value, ⟨inside, rfl⟩, -, rfl⟩
        exact ⟨not_le.mp supported, not_not.mp fits, inside, rfl⟩
      · rintro ⟨-, -, inside, rfl⟩
        exact ⟨_, ⟨inside, rfl⟩, inside, rfl⟩

/-- The controller reads back the class that a core is mapped to. -/
theorem getCos_eq_ok_iff {core : ℕ} {cos : BitVec 32} :
    getCos machine msrs core = .ok cos ↔
      core < machine.numCores ∧ cos.toNat = cosOf msrs core := by
  have field : ((msrs core .pqrAssoc) >>> 32).setWidth 32 =
      (BitField.read (msrs core .pqrAssoc) 32 32).setWidth 32 := by
    apply BitVec.eq_of_getLsbD_eq
    intro i inside
    simp [BitField.read]
    omega
  have small : (BitField.read (msrs core .pqrAssoc) 32 32).toNat < 2 ^ 32 := by
    rw [BitField.read, BitField.toNat_and_mask _ _ (by decide)]
    exact Nat.mod_lt _ (by decide)
  rw [getCos, bind_eq_ok_iff]
  constructor
  · rintro ⟨value, found, returned⟩
    obtain ⟨inside, rfl⟩ := Msrs.read_eq_ok_iff.mp found
    obtain rfl := Except.ok.inj returned
    rw [field, BitVec.toNat_setWidth, Nat.mod_eq_of_lt small]
    exact ⟨inside, rfl⟩
  · rintro ⟨inside, equal⟩
    refine ⟨_, Msrs.read_eq_ok_iff.mpr ⟨inside, rfl⟩, congrArg Except.ok ?_⟩
    apply BitVec.eq_of_toNat_eq
    rw [field, BitVec.toNat_setWidth, Nat.mod_eq_of_lt small, equal, cosOf]

/-- Mapping a core to a class changes the class of that core only. -/
theorem cosOf_of_setCos {core cos : ℕ} (mapped : setCos machine msrs core cos = .ok next)
    (other : ℕ) : cosOf next other = if other = core then cos else cosOf msrs other := by
  obtain ⟨supported, -, rfl⟩ := setCos_eq_ok_iff.mp mapped
  split
  · rename_i here
    subst other
    have small : cos < 2 ^ 32 :=
      lt_of_lt_of_le supported (machine.numCos_le.trans (by decide))
    rw [cosOf, Msrs.set_self, BitField.read_write _ _ _ _ (by decide),
      BitField.toNat_and_mask _ _ (by decide), BitVec.toNat_ofNat,
      Nat.mod_eq_of_lt (small.trans (by decide)), Nat.mod_eq_of_lt small]
  · rename_i different
    rw [cosOf, cosOf, Msrs.set_of_ne _ (.inl different)]

/-- Mapping a core to a class changes no mask. -/
theorem maskOf_of_setCos {core cos : ℕ} (mapped : setCos machine msrs core cos = .ok next)
    (other : ℕ) : maskOf next other = maskOf msrs other := by
  obtain ⟨-, -, rfl⟩ := setCos_eq_ok_iff.mp mapped
  rw [maskOf, maskOf, Msrs.set_of_ne]
  exact .inr (by simp)

/-- Setting a mask maps no core to another class. -/
theorem cosOf_of_setCbm {cos : ℤ} {cbm : BitVec 32}
    (masked : setCbm machine msrs cos cbm = .ok next) (core : ℕ) :
    cosOf next core = cosOf msrs core := by
  obtain ⟨-, -, -, rfl⟩ := setCbm_eq_ok_iff.mp masked
  rw [cosOf, cosOf]
  by_cases here : core = 0 ∧ Register.pqrAssoc = .l3Mask cos
  · obtain ⟨rfl, isSame⟩ := here
    -- Only the lower half of the register changes, and the class is in the upper one.
    rw [← isSame, Msrs.set_self, l3Mask_eq_write,
      BitField.read_write_of_disjoint _ _ (.inr (by decide))]
  · rw [Msrs.set_of_ne _ (not_and_or.mp here)]

/-- Setting a mask changes the mask of that class only. -/
theorem maskOf_of_setCbm {cos : ℤ} {cbm : BitVec 32}
    (masked : setCbm machine msrs cos cbm = .ok next) (other : ℕ) :
    maskOf next other = if other = cos then cbm else maskOf msrs other := by
  obtain ⟨-, -, -, rfl⟩ := setCbm_eq_ok_iff.mp masked
  split
  · rename_i here
    rw [maskOf, here, Msrs.set_self, l3Mask_eq_write]
    apply BitVec.eq_of_getLsbD_eq
    intro i inside
    have wide : i < 64 := inside.trans (by decide)
    rw [BitVec.getLsbD_setWidth, BitField.getLsbD_write _ _ _ _ _ wide, if_pos (by omega)]
    simp [inside, wide]
  · rename_i different
    rw [maskOf, maskOf, Msrs.set_of_ne _ (.inr fun isSame => different (by simpa using isSame))]

/-! ## Sharing all ways -/

/-- The mask of a list of ways, one shift for each of them. -/
def getCbm (cbmEntries : List ℕ) : BitVec 32 := BitSet.ofPositions 32 cbmEntries

/-- The mask of all ways of the cache. -/
def fullMask (cacheNumWays : ℕ) : BitVec 32 := getCbm (List.range cacheNumWays)

theorem getLsbD_fullMask {cacheNumWays : ℕ} {way : ℕ} (inside : way < 32) :
    (fullMask cacheNumWays).getLsbD way = decide (way < cacheNumWays) := by
  rw [fullMask, getCbm, BitSet.getLsbD_ofPositions _ inside]
  exact decide_eq_decide.mpr List.mem_range

/-- One round of the loop of `share_all_cache_ways`. -/
def shareCore (machine : Machine) (cacheNumWays : ℕ) (msrs : Msrs) (coreID : ℕ) :
    Except Fault Msrs :=
  if coreID < machine.numCos then do
    let masked ← setCbm machine msrs coreID (fullMask cacheNumWays)
    setCos machine masked coreID coreID
  else setCos machine msrs coreID (machine.numCos - 1)

/-- `share_all_cache_ways`. -/
def shareAllCacheWays (machine : Machine) (numLogicalCores cacheNumWays : ℕ) (msrs : Msrs) :
    Except Fault Msrs := do
  catController machine
  (List.range numLogicalCores).foldlM (shareCore machine cacheNumWays) msrs

/-- What the loop has established for the cores that it has passed. -/
structure SharedBelow (machine : Machine) (cacheNumWays passed : ℕ) (msrs : Msrs) : Prop where
  mapped : ∀ core < passed, cosOf msrs core = min core (machine.numCos - 1)
  full : ∀ cos < passed, cos < machine.numCos → maskOf msrs cos = fullMask cacheNumWays

theorem sharedBelow_succ {cacheNumWays core : ℕ}
    (shared : SharedBelow machine cacheNumWays core msrs)
    (stepped : shareCore machine cacheNumWays msrs core = .ok next) :
    SharedBelow machine cacheNumWays (core + 1) next := by
  rw [shareCore] at stepped
  split at stepped
  · rename_i supported
    obtain ⟨masked, atMasked, mapped⟩ := bind_eq_ok_iff.mp stepped
    constructor
    · intro other below
      rw [cosOf_of_setCos mapped, cosOf_of_setCbm atMasked]
      split
      · omega
      · exact shared.mapped other (by omega)
    · intro cos below inside
      rw [maskOf_of_setCos mapped, maskOf_of_setCbm atMasked]
      split
      · rfl
      · exact shared.full cos (by omega) inside
  · rename_i exceeds
    constructor
    · intro other below
      rw [cosOf_of_setCos stepped]
      split
      · omega
      · exact shared.mapped other (by omega)
    · intro cos below inside
      rw [maskOf_of_setCos stepped]
      exact shared.full cos (by omega) inside

theorem sharedBelow_of_foldlM {cacheNumWays cores : ℕ}
    (looped : (List.range cores).foldlM (shareCore machine cacheNumWays) msrs = .ok next) :
    SharedBelow machine cacheNumWays cores next :=
  foldlM_range_invariant (fun _ _ _ => sharedBelow_succ) ⟨nofun, nofun⟩ looped

/-- After sharing, every core may fill every way. -/
theorem effectiveMask_of_shareAllCacheWays {numLogicalCores cacheNumWays : ℕ}
    (shared : shareAllCacheWays machine numLogicalCores cacheNumWays msrs = .ok next)
    {core : ℕ} (inside : core < numLogicalCores) :
    effectiveMask next core = fullMask cacheNumWays := by
  obtain ⟨-, -, looped⟩ := bind_eq_ok_iff.mp shared
  have below := sharedBelow_of_foldlM looped
  have supported : 0 < machine.numCos := by
    by_contra none
    -- Without any class the last round of the loop would have thrown.
    have zero : machine.numCos = 0 := by omega
    obtain ⟨cores, rfl⟩ : ∃ cores, numLogicalCores = cores + 1 := ⟨numLogicalCores - 1, by omega⟩
    rw [List.range_succ, List.foldlM_append] at looped
    obtain ⟨middle, -, last⟩ := bind_eq_ok_iff.mp looped
    rw [List.foldlM_cons] at last
    obtain ⟨final, stepped, -⟩ := bind_eq_ok_iff.mp last
    rw [shareCore, if_neg (by omega)] at stepped
    have exists_cos := (setCos_eq_ok_iff.mp stepped).1
    omega
  rw [effectiveMask, below.mapped core inside]
  exact below.full _ (by omega) (by omega)

end Datamime.Hardware
