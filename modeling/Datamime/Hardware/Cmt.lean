/-
# Cache monitoring

A monitoring counter is selected by writing a resource monitoring id and an event
into the fields of one register and is then read from another. The counter is
scaled to bytes. Selecting a counter leaves the cache allocation alone.
-/

import Datamime.Hardware.Cat

namespace Datamime.Hardware

open Datamime.Math

/-- What `IA32_QM_CTR` shows for each monitoring id and event at the time of a read. -/
abbrev QmCounters := ℕ → ℕ → BitVec 64

def LLC_OCCUPANCY : ℕ := 0x1

def LOCAL_MEM_BW : ℕ := 0x3

/-- `CMTController::setEvtselRmid`: ten bits from bit 32. -/
def setEvtselRmid (machine : Machine) (msrs : Msrs) (rmid : ℕ) : Except Fault Msrs := do
  let evtsel ← msrs.read machine 0 .qmEvtsel
  msrs.write machine 0 .qmEvtsel (BitField.write evtsel 32 10 (BitVec.ofNat 64 rmid))

/-- `CMTController::setEvtselEvt`: the lowest eight bits. -/
def setEvtselEvt (machine : Machine) (msrs : Msrs) (evt : ℕ) : Except Fault Msrs := do
  let evtsel ← msrs.read machine 0 .qmEvtsel
  msrs.write machine 0 .qmEvtsel (BitField.write evtsel 0 8 (BitVec.ofNat 64 evt))

/-- The counter that the selection register names. -/
def selected (counters : QmCounters) (evtsel : BitVec 64) : BitVec 64 :=
  counters (BitField.read evtsel 32 10).toNat (BitField.read evtsel 0 8).toNat

/-- `CMTController::readQmCtr`. -/
def readQmCtr (machine : Machine) (counters : QmCounters) (msrs : Msrs) (rmid evt : ℕ) :
    Except Fault (Msrs × ℤ) := do
  let msrs ← setEvtselRmid machine msrs rmid
  let msrs ← setEvtselEvt machine msrs evt
  let evtsel ← msrs.read machine 0 .qmEvtsel
  let ctr := selected counters evtsel
  if ctr.getLsbD 63 then .error (.thrown "Baaaaaad RMID or Event Type")
  else if ctr.getLsbD 62 then .error (.thrown "Counter unavailable")
  else return (msrs, (ctr.toNat : ℤ) * machine.cmtMultiplier)

/-- `CMTController::getLlcOccupancy`. -/
def getLlcOccupancy (machine : Machine) (counters : QmCounters) (msrs : Msrs) (rmid : ℕ) :
    Except Fault (Msrs × ℤ) :=
  readQmCtr machine counters msrs rmid LLC_OCCUPANCY

/-- `CMTController::getLocalMemTraffic`. -/
def getLocalMemTraffic (machine : Machine) (counters : QmCounters) (msrs : Msrs) (rmid : ℕ) :
    Except Fault (Msrs × ℤ) :=
  readQmCtr machine counters msrs rmid LOCAL_MEM_BW

/-- `CMTController::getMemTrafficMax`: the counter is 24 bits wide. -/
def getMemTrafficMax (machine : Machine) : ℤ := (machine.cmtMultiplier : ℤ) * 2 ^ 24

/-- `CMTController::setRmid`: the lowest ten bits. -/
def setRmid (machine : Machine) (msrs : Msrs) (core rmid : ℕ) : Except Fault Msrs := do
  let pqrAssoc ← msrs.read machine core .pqrAssoc
  msrs.write machine core .pqrAssoc (BitField.write pqrAssoc 0 10 (BitVec.ofNat 64 rmid))

variable {machine : Machine} {counters : QmCounters} {msrs next : Msrs}

theorem setEvtselRmid_eq_ok_iff {rmid : ℕ} :
    setEvtselRmid machine msrs rmid = .ok next ↔
      0 < machine.numCores ∧ next = msrs.set 0 .qmEvtsel
        (BitField.write (msrs 0 .qmEvtsel) 32 10 (BitVec.ofNat 64 rmid)) := by
  simp only [setEvtselRmid, bind_eq_ok_iff, Msrs.read_eq_ok_iff, Msrs.write_eq_ok_iff]
  constructor
  · rintro ⟨_, ⟨inside, rfl⟩, -, rfl⟩
    exact ⟨inside, rfl⟩
  · rintro ⟨inside, rfl⟩
    exact ⟨_, ⟨inside, rfl⟩, inside, rfl⟩

theorem setEvtselEvt_eq_ok_iff {evt : ℕ} :
    setEvtselEvt machine msrs evt = .ok next ↔
      0 < machine.numCores ∧ next = msrs.set 0 .qmEvtsel
        (BitField.write (msrs 0 .qmEvtsel) 0 8 (BitVec.ofNat 64 evt)) := by
  simp only [setEvtselEvt, bind_eq_ok_iff, Msrs.read_eq_ok_iff, Msrs.write_eq_ok_iff]
  constructor
  · rintro ⟨_, ⟨inside, rfl⟩, -, rfl⟩
    exact ⟨inside, rfl⟩
  · rintro ⟨inside, rfl⟩
    exact ⟨_, ⟨inside, rfl⟩, inside, rfl⟩

/-- The selection register after a counter was selected. -/
def selection (evtsel : BitVec 64) (rmid evt : ℕ) : BitVec 64 :=
  BitField.write (BitField.write evtsel 32 10 (BitVec.ofNat 64 rmid)) 0 8 (BitVec.ofNat 64 evt)

/-- The two fields do not disturb each other. -/
theorem selected_selection (evtsel : BitVec 64) (rmid evt : ℕ) :
    selected counters (selection evtsel rmid evt) = counters (rmid % 2 ^ 10) (evt % 2 ^ 8) := by
  rw [selected, selection, BitField.read_write_of_disjoint _ _ (.inr (by decide)),
    BitField.read_write _ _ _ _ (by decide), BitField.read_write _ _ _ _ (by decide),
    BitField.toNat_and_mask _ _ (by decide), BitField.toNat_and_mask _ _ (by decide),
    BitVec.toNat_ofNat, BitVec.toNat_ofNat, Nat.mod_mod_of_dvd _ (by decide),
    Nat.mod_mod_of_dvd _ (by decide)]

/-- A read returns the scaled counter of the id and the event, unless the hardware
marks it as bad or unavailable. Only the selection register changes. -/
theorem readQmCtr_eq_ok_iff {rmid evt : ℕ} {result : Msrs × ℤ} :
    readQmCtr machine counters msrs rmid evt = .ok result ↔
      0 < machine.numCores ∧
        (counters (rmid % 2 ^ 10) (evt % 2 ^ 8)).getLsbD 63 = false ∧
        (counters (rmid % 2 ^ 10) (evt % 2 ^ 8)).getLsbD 62 = false ∧
        result = (msrs.set 0 .qmEvtsel (selection (msrs 0 .qmEvtsel) rmid evt),
          ((counters (rmid % 2 ^ 10) (evt % 2 ^ 8)).toNat : ℤ) * machine.cmtMultiplier) := by
  have rewritten : (msrs.set 0 .qmEvtsel
      (BitField.write (msrs 0 .qmEvtsel) 32 10 (BitVec.ofNat 64 rmid))).set 0 .qmEvtsel
        (selection (msrs 0 .qmEvtsel) rmid evt) =
      msrs.set 0 .qmEvtsel (selection (msrs 0 .qmEvtsel) rmid evt) := by
    funext core register
    by_cases here : core = 0 ∧ register = .qmEvtsel
    · obtain ⟨rfl, rfl⟩ := here
      rw [Msrs.set_self, Msrs.set_self]
    · have elsewhere : core ≠ 0 ∨ register ≠ .qmEvtsel := not_and_or.mp here
      rw [Msrs.set_of_ne _ elsewhere, Msrs.set_of_ne _ elsewhere, Msrs.set_of_ne _ elsewhere]
  rw [readQmCtr]
  by_cases online : 0 < machine.numCores
  · rw [setEvtselRmid_eq_ok_iff.mpr ⟨online, rfl⟩, ok_bind,
      setEvtselEvt_eq_ok_iff.mpr ⟨online, rfl⟩, ok_bind, Msrs.set_self]
    change (Msrs.read machine ((msrs.set 0 .qmEvtsel _).set 0 .qmEvtsel
      (selection (msrs 0 .qmEvtsel) rmid evt)) 0 .qmEvtsel >>= _) = _ ↔ _
    rw [rewritten, Msrs.read_eq_ok_iff.mpr ⟨online, rfl⟩, ok_bind, Msrs.set_self]
    rw [selected_selection]
    unfold selection at rewritten ⊢
    rw [rewritten]
    generalize counters (rmid % 2 ^ 10) (evt % 2 ^ 8) = ctr
    dsimp only
    cases bad : ctr.getLsbD 63 with
    | true =>
        rw [if_pos rfl]
        exact ⟨nofun, fun accepted => nomatch accepted.2.1⟩
    | false =>
        rw [if_neg Bool.false_ne_true]
        cases unavailable : ctr.getLsbD 62 with
        | true =>
            rw [if_pos rfl]
            exact ⟨nofun, fun accepted => nomatch accepted.2.2.1⟩
        | false =>
            rw [if_neg Bool.false_ne_true]
            exact ⟨fun returned => ⟨online, rfl, rfl, (Except.ok.inj returned).symm⟩,
              fun accepted => congrArg Except.ok accepted.2.2.2.symm⟩
  · constructor
    · intro returned
      obtain ⟨middle, selectedId, -⟩ := bind_eq_ok_iff.mp returned
      exact absurd (setEvtselRmid_eq_ok_iff.mp selectedId).1 online
    · exact fun accepted => absurd accepted.1 online

/-- Selecting a counter maps no core to another class. -/
theorem cosOf_set_qmEvtsel (value : BitVec 64) (core : ℕ) :
    cosOf (msrs.set 0 .qmEvtsel value) core = cosOf msrs core := by
  rw [cosOf, cosOf, Msrs.set_of_ne]
  exact .inr (by simp)

/-- Selecting a counter changes no mask. -/
theorem maskOf_set_qmEvtsel (value : BitVec 64) (cos : ℕ) :
    maskOf (msrs.set 0 .qmEvtsel value) cos = maskOf msrs cos := by
  rw [maskOf, maskOf, Msrs.set_of_ne]
  exact .inr (by simp)

@[simp]
theorem effectiveMask_set_qmEvtsel (value : BitVec 64) (core : ℕ) :
    effectiveMask (msrs.set 0 .qmEvtsel value) core = effectiveMask msrs core := by
  rw [effectiveMask, effectiveMask, cosOf_set_qmEvtsel, maskOf_set_qmEvtsel]

theorem setRmid_eq_ok_iff {core rmid : ℕ} :
    setRmid machine msrs core rmid = .ok next ↔
      core < machine.numCores ∧ next = msrs.set core .pqrAssoc
        (BitField.write (msrs core .pqrAssoc) 0 10 (BitVec.ofNat 64 rmid)) := by
  simp only [setRmid, bind_eq_ok_iff, Msrs.read_eq_ok_iff, Msrs.write_eq_ok_iff]
  constructor
  · rintro ⟨_, ⟨inside, rfl⟩, -, rfl⟩
    exact ⟨inside, rfl⟩
  · rintro ⟨inside, rfl⟩
    exact ⟨_, ⟨inside, rfl⟩, inside, rfl⟩

/-- Setting a monitoring id maps no core to another class. -/
theorem cosOf_of_setRmid {core rmid : ℕ} (assigned : setRmid machine msrs core rmid = .ok next)
    (other : ℕ) : cosOf next other = cosOf msrs other := by
  obtain ⟨-, rfl⟩ := setRmid_eq_ok_iff.mp assigned
  by_cases here : other = core
  · subst other
    rw [cosOf, Msrs.set_self, BitField.read_write_of_disjoint _ _ (.inr (by decide)), cosOf]
  · rw [cosOf, cosOf, Msrs.set_of_ne _ (.inl here)]

/-- Setting a monitoring id changes no mask. -/
theorem maskOf_of_setRmid {core rmid : ℕ} (assigned : setRmid machine msrs core rmid = .ok next)
    (cos : ℕ) : maskOf next cos = maskOf msrs cos := by
  obtain ⟨-, rfl⟩ := setRmid_eq_ok_iff.mp assigned
  rw [maskOf, maskOf, Msrs.set_of_ne]
  exact .inr (by simp)

/-- Setting a monitoring id changes no core's ways. -/
theorem effectiveMask_of_setRmid {core rmid : ℕ}
    (assigned : setRmid machine msrs core rmid = .ok next) (other : ℕ) :
    effectiveMask next other = effectiveMask msrs other := by
  rw [effectiveMask, effectiveMask, maskOf_of_setRmid assigned, cosOf_of_setRmid assigned]

/-! ## Monitoring ids -/

/-- `CMTController::getRmid`. -/
def getRmid (machine : Machine) (msrs : Msrs) (core : ℕ) : Except Fault (BitVec 64) := do
  let pqrAssoc ← msrs.read machine core .pqrAssoc
  return pqrAssoc &&& 0x3ff#64

/-- The monitoring id of a core. -/
def rmidOf (msrs : Msrs) (core : ℕ) : ℕ := (BitField.read (msrs core .pqrAssoc) 0 10).toNat

/-- The controller reads back the id of a core. -/
theorem getRmid_eq_ok_iff {core : ℕ} {rmid : BitVec 64} :
    getRmid machine msrs core = .ok rmid ↔
      core < machine.numCores ∧ rmid.toNat = rmidOf msrs core := by
  have field : msrs core .pqrAssoc &&& 0x3ff#64 = BitField.read (msrs core .pqrAssoc) 0 10 := by
    have isMask : (0x3ff#64) = BitField.mask 64 10 := by decide
    rw [BitField.read, isMask, BitVec.ushiftRight_zero]
  rw [getRmid, bind_eq_ok_iff]
  constructor
  · rintro ⟨value, found, returned⟩
    obtain ⟨inside, rfl⟩ := Msrs.read_eq_ok_iff.mp found
    obtain rfl := Except.ok.inj returned
    rw [field]
    exact ⟨inside, rfl⟩
  · rintro ⟨inside, equal⟩
    refine ⟨_, Msrs.read_eq_ok_iff.mpr ⟨inside, rfl⟩, congrArg Except.ok ?_⟩
    apply BitVec.eq_of_toNat_eq
    rw [field, equal, rmidOf]

/-- Setting an id changes the id of that core only, and keeps its lowest ten bits. -/
theorem rmidOf_of_setRmid {core rmid : ℕ} (assigned : setRmid machine msrs core rmid = .ok next)
    (other : ℕ) :
    rmidOf next other = if other = core then rmid % 2 ^ 10 else rmidOf msrs other := by
  obtain ⟨-, rfl⟩ := setRmid_eq_ok_iff.mp assigned
  split
  · rename_i here
    subst other
    rw [rmidOf, Msrs.set_self, BitField.read_write _ _ _ _ (by decide),
      BitField.toNat_and_mask _ _ (by decide), BitVec.toNat_ofNat,
      Nat.mod_mod_of_dvd _ (by decide)]
  · rename_i different
    rw [rmidOf, rmidOf, Msrs.set_of_ne _ (.inl different)]

/-- Mapping a core to a class changes no monitoring id. -/
theorem rmidOf_of_setCos {core cos : ℕ} (mapped : setCos machine msrs core cos = .ok next)
    (other : ℕ) : rmidOf next other = rmidOf msrs other := by
  obtain ⟨-, -, rfl⟩ := setCos_eq_ok_iff.mp mapped
  by_cases here : other = core
  · subst other
    rw [rmidOf, Msrs.set_self, BitField.read_write_of_disjoint _ _ (.inl (by decide)), rmidOf]
  · rw [rmidOf, rmidOf, Msrs.set_of_ne _ (.inl here)]

/-- Setting the mask of a class changes no monitoring id. -/
theorem rmidOf_of_setCbm {cos : ℤ} {cbm : BitVec 32}
    (masked : setCbm machine msrs cos cbm = .ok next) (isOther : cos ≠ -1) (core : ℕ) :
    rmidOf next core = rmidOf msrs core := by
  obtain ⟨-, -, -, rfl⟩ := setCbm_eq_ok_iff.mp masked
  rw [rmidOf, rmidOf, Msrs.set_of_ne]
  exact .inr fun isSame => isOther (Register.l3Mask_eq_pqrAssoc.mp isSame.symm)

end Datamime.Hardware
