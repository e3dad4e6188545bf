/-
# Sequences of register calls

The two controllers of cache allocation and of monitoring update the registers independently of
each other: each call reads a register, replaces one field of it and writes it back. This module
gives the calls a meaning in which every register access takes effect when it happens, so that
what a rejected call leaves behind can be said. A sequence of calls is then read off its end: each
core and each class hold what was set last, and everything else is as it was. The register before
that of the first class is the association register, so this fails for the class -1, which the
length of the list of classes does not exclude.
-/

import Datamime.Hardware.Cmt
import Datamime.Hardware.Sharing
import Datamime.Math.History

namespace Datamime.Hardware

open Datamime.Math

/-! ## Calls with effects -/

/-- A call that accesses the registers. The accesses before a fault keep their effect. -/
abbrev Access (α : Type) := ExceptT Fault (StateM Msrs) α

/-- What a call returns, and the registers that it leaves behind. -/
def Access.runOn {α : Type} (access : Access α) (msrs : Msrs) : Except Fault α × Msrs :=
  access.run.run msrs

namespace MSR

/-- `MSR::read`. -/
def read (machine : Machine) (core : ℕ) (register : Register) : Access (BitVec 64) := do
  let msrs ← get
  if core < machine.numCores then return msrs core register
  else throw (.outOfRange .msrDescriptors)

/-- `MSR::write`. -/
def write (machine : Machine) (core : ℕ) (register : Register) (value : BitVec 64) :
    Access Unit := do
  let _prevVal ← read machine core register
  modify fun msrs => msrs.set core register value

end MSR

/-- A call of one of the setters. -/
inductive Call
  | setCos (core cos : ℕ)
  | setRmid (core rmid : ℕ)
  | setCbm (cos : ℤ) (cbm : BitVec 32)

/-- The body of a call. -/
def Call.body (machine : Machine) : Call → Access Unit
  | .setCos core cos => do
      if machine.numCos ≤ cos then throw (.thrown (cosExceeds machine cos))
      let pqrAssoc ← MSR.read machine core .pqrAssoc
      let cleared := pqrAssoc &&& 0xFFFFFFFF#64
      MSR.write machine core .pqrAssoc (cleared ||| (BitVec.ofNat 64 cos <<< 32))
  | .setRmid core rmid => do
      let pqrAssoc ← MSR.read machine core .pqrAssoc
      MSR.write machine core .pqrAssoc (BitField.write pqrAssoc 0 10 (BitVec.ofNat 64 rmid))
  | .setCbm cos cbm => do
      if machine.numCos ≤ cos then throw (.thrown (cosExceeds machine cos))
      if shiftRight cbm machine.cbmLen ≠ 0 then throw (.thrown (cbmExceeds machine))
      let l3Mask ← MSR.read machine 0 (.l3Mask cos)
      let cleared := l3Mask &&& 0xFFFFFFFF00000000#64
      MSR.write machine 0 (.l3Mask cos) (cleared ||| cbm.setWidth 64)

/-- The call without its effects on failure. -/
def Call.result (machine : Machine) (msrs : Msrs) : Call → Except Fault Msrs
  | .setCos core cos => Hardware.setCos machine msrs core cos
  | .setRmid core rmid => Hardware.setRmid machine msrs core rmid
  | .setCbm cos cbm => Hardware.setCbm machine msrs cos cbm

section

variable {machine : Machine} {msrs : Msrs}

theorem runOn_bind_of_ok {α β : Type} {access : Access α} {rest : α → Access β} {value : α}
    {next : Msrs} (returned : access.runOn msrs = (.ok value, next)) :
    (access >>= rest).runOn msrs = (rest value).runOn next := by
  have ran : access.run.run msrs = (.ok value, next) := returned
  rw [Access.runOn, ExceptT.run_bind, StateT.run_bind, ran]
  rfl

theorem runOn_bind_of_error {α β : Type} {access : Access α} {rest : α → Access β} {fault : Fault}
    {next : Msrs} (failed : access.runOn msrs = (.error fault, next)) :
    (access >>= rest).runOn msrs = (.error fault, next) := by
  have ran : access.run.run msrs = (.error fault, next) := failed
  rw [Access.runOn, ExceptT.run_bind, StateT.run_bind, ran]
  rfl

/-- A read changes nothing. -/
theorem MSR.runOn_read (core : ℕ) (register : Register) :
    (MSR.read machine core register).runOn msrs = (msrs.read machine core register, msrs) := by
  by_cases inside : core < machine.numCores
  · have here : MSR.read machine core register = (do
        let msrs ← get
        return msrs core register : Access (BitVec 64)) := by
      simp only [MSR.read, if_pos inside]
    rw [here, Msrs.read, if_pos inside]
    rfl
  · have here : MSR.read machine core register = (do
        let _msrs ← get
        throw (.outOfRange .msrDescriptors) : Access (BitVec 64)) := by
      simp only [MSR.read, if_neg inside]
    rw [here, Msrs.read, if_neg inside]
    rfl

/-- A call that reads one register and writes a new value to it. -/
theorem MSR.runOn_update (core : ℕ) (register : Register) (update : BitVec 64 → BitVec 64) :
    Access.runOn (do
        let value ← MSR.read machine core register
        MSR.write machine core register (update value)) msrs =
      match (do
        let value ← msrs.read machine core register
        msrs.write machine core register (update value)) with
      | .ok next => (.ok (), next)
      | .error fault => (.error fault, msrs) := by
  by_cases inside : core < machine.numCores
  · have found : msrs.read machine core register = .ok (msrs core register) := if_pos inside
    have read : (MSR.read machine core register).runOn msrs = (.ok (msrs core register), msrs) :=
      (MSR.runOn_read core register).trans (by rw [found])
    rw [runOn_bind_of_ok read, MSR.write, runOn_bind_of_ok read, found, ok_bind, Msrs.write, found]
    rfl
  · have missing : msrs.read machine core register = .error (.outOfRange .msrDescriptors) :=
      if_neg inside
    have read : (MSR.read machine core register).runOn msrs =
        (.error (.outOfRange .msrDescriptors), msrs) :=
      (MSR.runOn_read core register).trans (by rw [missing])
    rw [runOn_bind_of_error read, missing]
    rfl

/-- A call either takes effect as a whole or leaves every register as it was. -/
theorem Call.runOn_body (call : Call) :
    (call.body machine).runOn msrs = match call.result machine msrs with
      | .ok next => (.ok (), next)
      | .error fault => (.error fault, msrs) := by
  cases call with
  | setRmid core rmid =>
      exact MSR.runOn_update core .pqrAssoc fun pqrAssoc =>
        BitField.write pqrAssoc 0 10 (BitVec.ofNat 64 rmid)
  | setCos core cos =>
      rw [Call.body, Call.result, Hardware.setCos]
      by_cases exceeds : machine.numCos ≤ cos
      · rw [if_pos exceeds, if_pos exceeds]
        rfl
      · rw [if_neg exceeds, if_neg exceeds]
        exact MSR.runOn_update core .pqrAssoc fun pqrAssoc =>
          (pqrAssoc &&& 0xFFFFFFFF#64) ||| (BitVec.ofNat 64 cos <<< 32)
  | setCbm cos cbm =>
      rw [Call.body, Call.result, Hardware.setCbm]
      by_cases exceeds : machine.numCos ≤ cos
      · rw [if_pos exceeds, if_pos exceeds]
        rfl
      · rw [if_neg exceeds, if_neg exceeds]
        by_cases tooLong : shiftRight cbm machine.cbmLen ≠ 0
        · rw [if_pos tooLong, if_pos tooLong]
          rfl
        · rw [if_neg tooLong, if_neg tooLong]
          exact MSR.runOn_update 0 (.l3Mask cos) fun l3Mask =>
            (l3Mask &&& 0xFFFFFFFF00000000#64) ||| cbm.setWidth 64

end

/-! ## What a call changes -/

/-- `CATController::getCbm`. -/
def CATController.getCbm (machine : Machine) (msrs : Msrs) (cos : ℤ) :
    Except Fault (BitVec 32) :=
  if machine.numCos ≤ cos then .error (.thrown (cosExceeds machine cos))
  else do
    let l3Mask ← msrs.read machine 0 (.l3Mask cos)
    return (l3Mask &&& 0xFFFFFFFF#64).setWidth 32

/-- The call is not rejected, and its core is there. -/
def Call.Accepted (machine : Machine) : Call → Prop
  | .setCos core cos => cos < machine.numCos ∧ core < machine.numCores
  | .setRmid core _ => core < machine.numCores
  | .setCbm cos cbm =>
      cos < machine.numCos ∧ shiftRight cbm machine.cbmLen = 0 ∧ 0 < machine.numCores

instance (machine : Machine) (call : Call) : Decidable (call.Accepted machine) :=
  match call with
  | .setCos _ _ => inferInstanceAs (Decidable (_ < _ ∧ _ < _))
  | .setRmid _ _ => inferInstanceAs (Decidable (_ < _))
  | .setCbm _ _ => inferInstanceAs (Decidable (_ < _ ∧ _ = _ ∧ _ < _))

/-- The call sets the mask of the class -1, whose register is the association register. -/
def Call.Overlaps (machine : Machine) (call : Call) : Prop :=
  ∃ cbm, call = .setCbm (-1) cbm ∧ call.Accepted machine

/-- The class that a call sets for a core. -/
def Call.newCos (machine : Machine) (core : ℕ) (call : Call) : Option ℕ :=
  match call with
  | .setCos other cos => if other = core ∧ call.Accepted machine then some cos else none
  | _ => none

/-- The monitoring id that a call sets for a core. -/
def Call.newRmid (machine : Machine) (core : ℕ) (call : Call) : Option ℕ :=
  match call with
  | .setRmid other rmid =>
      if other = core ∧ call.Accepted machine then some (rmid % 2 ^ 10) else none
  | _ => none

/-- The mask that a call sets for a class. -/
def Call.newCbm (machine : Machine) (cos : ℤ) (call : Call) : Option (BitVec 32) :=
  match call with
  | .setCbm other cbm => if other = cos ∧ call.Accepted machine then some cbm else none
  | _ => none

/-- The registers after a call. A caller that catches the exception goes on from there. -/
def perform (machine : Machine) (msrs : Msrs) (call : Call) : Msrs :=
  ((call.body machine).runOn msrs).2

section

variable {machine : Machine} {msrs next : Msrs}

theorem Call.accepted_iff {call : Call} :
    call.Accepted machine ↔ ∃ next, call.result machine msrs = .ok next := by
  cases call with
  | setCos core cos =>
      constructor
      · exact fun accepted => ⟨_, setCos_eq_ok_iff.mpr ⟨accepted.1, accepted.2, rfl⟩⟩
      · rintro ⟨next, mapped⟩
        obtain ⟨supported, inside, -⟩ := setCos_eq_ok_iff.mp mapped
        exact ⟨supported, inside⟩
  | setRmid core rmid =>
      constructor
      · exact fun accepted => ⟨_, setRmid_eq_ok_iff.mpr ⟨accepted, rfl⟩⟩
      · rintro ⟨next, assigned⟩
        exact (setRmid_eq_ok_iff.mp assigned).1
  | setCbm cos cbm =>
      constructor
      · exact fun accepted =>
          ⟨_, setCbm_eq_ok_iff.mpr ⟨accepted.1, accepted.2.1, accepted.2.2, rfl⟩⟩
      · rintro ⟨next, masked⟩
        obtain ⟨supported, fits, online, -⟩ := setCbm_eq_ok_iff.mp masked
        exact ⟨supported, fits, online⟩

theorem perform_of_ok {call : Call} (returned : call.result machine msrs = .ok next) :
    perform machine msrs call = next := by
  rw [perform, Call.runOn_body, returned]

/-- A call that does not return changes no register. -/
theorem perform_of_not_accepted {call : Call} (rejected : ¬ call.Accepted machine) :
    perform machine msrs call = msrs := by
  rw [perform, Call.runOn_body]
  cases returned : call.result machine msrs with
  | ok next => exact absurd (Call.accepted_iff.mpr ⟨next, returned⟩) rejected
  | error fault => rfl

/-- What is observed of the registers after a call: a rejected call assigns nothing, and an
accepted one assigns what it leaves behind. -/
theorem observe_perform {α : Type} {observe : Msrs → α} {assigned : Option α} (call : Call)
    (rejects : ¬ call.Accepted machine → assigned = none)
    (accepts : call.Accepted machine → ∀ next, call.result machine msrs = .ok next →
      observe next = assigned.getD (observe msrs)) :
    observe (perform machine msrs call) = assigned.getD (observe msrs) := by
  by_cases accepted : call.Accepted machine
  · obtain ⟨next, returned⟩ := (@Call.accepted_iff machine msrs call).mp accepted
    rw [perform_of_ok returned]
    exact accepts accepted next returned
  · rw [perform_of_not_accepted accepted, rejects accepted, Option.getD_none]

/-- An accepted call replaces the value of its own key. -/
theorem getD_assigned {α κ : Type} [DecidableEq κ] {key other : κ} {accepted : Prop}
    [Decidable accepted]
    (isAccepted : accepted) (value old : α) :
    (if other = key ∧ accepted then some value else none).getD old =
      if key = other then value else old := by
  by_cases here : key = other
  · rw [if_pos ⟨here.symm, isAccepted⟩, if_pos here, Option.getD_some]
  · rw [if_neg fun both => here both.1.symm, if_neg here, Option.getD_none]

theorem cosOf_perform (call : Call) (core : ℕ) (msrs : Msrs) :
    cosOf (perform machine msrs call) core =
      (call.newCos machine core).getD (cosOf msrs core) := by
  apply @observe_perform machine msrs ℕ (cosOf · core)
  · intro rejected
    cases call with
    | setCos other cos => exact if_neg fun both => rejected both.2
    | setRmid other rmid => rfl
    | setCbm cos cbm => rfl
  · intro accepted next returned
    cases call with
    | setCos other cos =>
        exact (cosOf_of_setCos returned core).trans (getD_assigned accepted _ _).symm
    | setRmid other rmid => exact cosOf_of_setRmid returned core
    | setCbm cos cbm => exact cosOf_of_setCbm returned core

theorem rmidOf_perform {call : Call} (apart : ¬ call.Overlaps machine) (core : ℕ) (msrs : Msrs) :
    rmidOf (perform machine msrs call) core =
      (call.newRmid machine core).getD (rmidOf msrs core) := by
  apply @observe_perform machine msrs ℕ (rmidOf · core)
  · intro rejected
    cases call with
    | setCos other cos => rfl
    | setRmid other rmid => exact if_neg fun both => rejected both.2
    | setCbm cos cbm => rfl
  · intro accepted next returned
    cases call with
    | setCos other cos => exact rmidOf_of_setCos returned core
    | setRmid other rmid =>
        exact (rmidOf_of_setRmid returned core).trans (getD_assigned accepted _ _).symm
    | setCbm cos cbm =>
        refine rmidOf_of_setCbm returned (fun isMinusOne => apart ?_) core
        exact ⟨cbm, by rw [isMinusOne], accepted⟩

theorem maskOf_perform (call : Call) (cos : ℕ) (msrs : Msrs) :
    maskOf (perform machine msrs call) cos =
      (call.newCbm machine cos).getD (maskOf msrs cos) := by
  apply @observe_perform machine msrs (BitVec 32) (maskOf · cos)
  · intro rejected
    cases call with
    | setCos core other => rfl
    | setRmid core rmid => rfl
    | setCbm other cbm => exact if_neg fun both => rejected both.2
  · intro accepted next returned
    cases call with
    | setCos core other => exact maskOf_of_setCos returned cos
    | setRmid core rmid => exact maskOf_of_setRmid returned cos
    | setCbm other cbm =>
        exact (maskOf_of_setCbm returned cos).trans (getD_assigned accepted _ _).symm

/-- The bits between the two fields of the association register belong to no setter. -/
theorem getLsbD_pqrAssoc_perform {call : Call} (apart : ¬ call.Overlaps machine) (msrs : Msrs)
    (core : ℕ) {i : ℕ} (above : 10 ≤ i) (below : i < 32) :
    (perform machine msrs call core .pqrAssoc).getLsbD i =
      (msrs core .pqrAssoc).getLsbD i := by
  have inside : i < 64 := by omega
  by_cases accepted : call.Accepted machine
  · obtain ⟨next, returned⟩ := (@Call.accepted_iff machine msrs call).mp accepted
    rw [perform_of_ok returned]
    cases call with
    | setCos other cos =>
        obtain ⟨-, -, rfl⟩ := setCos_eq_ok_iff.mp returned
        by_cases here : core = other
        · rw [here, Msrs.set_self, BitField.getLsbD_write _ _ _ _ _ inside, if_neg (by omega)]
        · rw [Msrs.set_of_ne _ (.inl here)]
    | setRmid other rmid =>
        obtain ⟨-, rfl⟩ := setRmid_eq_ok_iff.mp returned
        by_cases here : core = other
        · rw [here, Msrs.set_self, BitField.getLsbD_write _ _ _ _ _ inside, if_neg (by omega)]
        · rw [Msrs.set_of_ne _ (.inl here)]
    | setCbm cos cbm =>
        obtain ⟨-, -, -, rfl⟩ := setCbm_eq_ok_iff.mp returned
        rw [Msrs.set_of_ne]
        refine .inr fun isSame => apart ⟨cbm, ?_, accepted⟩
        rw [Register.l3Mask_eq_pqrAssoc.mp isSame.symm]
  · rw [perform_of_not_accepted accepted]

/-- The mask of the class -1 lands in the association register of the first core. -/
theorem getLsbD_pqrAssoc_perform_of_overlaps {cbm : BitVec 32} {i : ℕ}
    (accepted : (Call.setCbm (-1) cbm).Accepted machine) (below : i < 32) (msrs : Msrs) :
    (perform machine msrs (.setCbm (-1) cbm) 0 .pqrAssoc).getLsbD i = cbm.getLsbD i := by
  obtain ⟨next, returned⟩ := (@Call.accepted_iff machine msrs (.setCbm (-1) cbm)).mp accepted
  rw [perform_of_ok returned]
  obtain ⟨-, -, -, rfl⟩ := setCbm_eq_ok_iff.mp returned
  have isSame : Register.l3Mask (-1) = .pqrAssoc := Register.l3Mask_eq_pqrAssoc.mpr rfl
  have inside : i < 64 := by omega
  rw [isSame, Msrs.set_self, l3Mask_eq_write, BitField.getLsbD_write _ _ _ _ _ inside,
    if_pos (by omega), BitVec.getLsbD_setWidth]
  simp [inside]

theorem catController_getCbm_eq_ok_iff {cos : ℕ} {cbm : BitVec 32} :
    CATController.getCbm machine msrs cos = .ok cbm ↔
      cos < machine.numCos ∧ 0 < machine.numCores ∧ cbm = maskOf msrs cos := by
  have low (word : BitVec 64) : (word &&& 0xFFFFFFFF#64).setWidth 32 = word.setWidth 32 := by
    apply BitVec.eq_of_getLsbD_eq
    intro i inside
    have isMask : (0xFFFFFFFF#64) = BitField.mask 64 32 := by decide
    have wide : i < 64 := inside.trans (by decide)
    rw [BitVec.getLsbD_setWidth, BitVec.getLsbD_setWidth, BitVec.getLsbD_and, isMask,
      BitField.getLsbD_mask, decide_eq_true wide, decide_eq_true inside, Bool.and_self,
      Bool.and_true]
  rw [CATController.getCbm]
  split
  · rename_i exceeds
    exact ⟨nofun, fun accepted => absurd accepted.1 (by omega)⟩
  · rename_i supported
    rw [bind_eq_ok_iff]
    constructor
    · rintro ⟨value, found, returned⟩
      obtain ⟨inside, rfl⟩ := Msrs.read_eq_ok_iff.mp found
      obtain rfl := Except.ok.inj returned
      exact ⟨by omega, inside, low _⟩
    · rintro ⟨-, inside, rfl⟩
      exact ⟨_, Msrs.read_eq_ok_iff.mpr ⟨inside, rfl⟩, congrArg Except.ok (low _)⟩

end

/-! ## Any sequence of calls -/

/-- What the registers hold after a sequence of calls: for each core and each class what was set
last, or else what it was at the start, and between the two fields of the association register
what it was at the start. -/
structure HoldsLast (machine : Machine) (start : Msrs) (calls : List Call) (last : Msrs) :
    Prop where
  cos : ∀ core < machine.numCores, ∃ cos, getCos machine last core = .ok cos ∧
    cos.toNat = (lastAssigned (Call.newCos machine core) calls).getD (cosOf start core)
  rmid : ∀ core < machine.numCores, ∃ rmid, getRmid machine last core = .ok rmid ∧
    rmid.toNat = (lastAssigned (Call.newRmid machine core) calls).getD (rmidOf start core)
  cbm : ∀ cos < machine.numCos, 0 < machine.numCores → CATController.getCbm machine last cos =
    .ok ((lastAssigned (Call.newCbm machine cos) calls).getD (maskOf start cos))
  between : ∀ core i, 10 ≤ i → i < 32 →
    (last core .pqrAssoc).getLsbD i = (start core .pqrAssoc).getLsbD i

/-- What one call leaves alone: the class and the id of every core that it does not set, the mask
of every class that it does not set, what is between the fields of the association register, and
every register if it is rejected. -/
structure LeavesOthers (machine : Machine) (msrs : Msrs) (call : Call) (next : Msrs) : Prop where
  cos : ∀ core, call.newCos machine core = none → cosOf next core = cosOf msrs core
  rmid : ∀ core, call.newRmid machine core = none → rmidOf next core = rmidOf msrs core
  cbm : ∀ cos : ℕ, call.newCbm machine cos = none → maskOf next cos = maskOf msrs cos
  between : ∀ core i, 10 ≤ i → i < 32 →
    (next core .pqrAssoc).getLsbD i = (msrs core .pqrAssoc).getLsbD i
  rejected : ∀ what, ((call.body machine).runOn msrs).1 = .error (.thrown what) → next = msrs

theorem leavesOthers_perform {machine : Machine} {call : Call} (apart : ¬ call.Overlaps machine)
    (msrs : Msrs) : LeavesOthers machine msrs call (perform machine msrs call) := by
  refine ⟨fun core none => ?_, fun core none => ?_, fun cos none => ?_,
    fun core i => getLsbD_pqrAssoc_perform apart msrs core, fun what failed => ?_⟩
  · rw [cosOf_perform, none, Option.getD_none]
  · rw [rmidOf_perform apart, none, Option.getD_none]
  · rw [maskOf_perform, none, Option.getD_none]
  · rw [Call.runOn_body] at failed
    apply perform_of_not_accepted
    rw [@Call.accepted_iff machine msrs]
    rintro ⟨next, returned⟩
    rw [returned] at failed
    cases failed

/-- The controller can read the class of every core that is there. -/
theorem exists_getCos {machine : Machine} (msrs : Msrs) {core : ℕ}
    (inside : core < machine.numCores) :
    ∃ cos, getCos machine msrs core = .ok cos ∧ cos.toNat = cosOf msrs core := by
  have small : cosOf msrs core < 2 ^ 32 := by
    rw [cosOf, BitField.read, BitField.toNat_and_mask _ _ (by decide)]
    exact Nat.mod_lt _ (by decide)
  have value : (BitVec.ofNat 32 (cosOf msrs core)).toNat = cosOf msrs core := by
    rw [BitVec.toNat_ofNat, Nat.mod_eq_of_lt small]
  exact ⟨_, getCos_eq_ok_iff.mpr ⟨inside, value⟩, value⟩

/-- The controller can read the id of every core that is there. -/
theorem exists_getRmid {machine : Machine} (msrs : Msrs) {core : ℕ}
    (inside : core < machine.numCores) :
    ∃ rmid, getRmid machine msrs core = .ok rmid ∧ rmid.toNat = rmidOf msrs core :=
  ⟨BitField.read (msrs core .pqrAssoc) 0 10, getRmid_eq_ok_iff.mpr ⟨inside, rfl⟩, rfl⟩

section

variable {machine : Machine} {calls : List Call}

theorem cosOf_foldl (core : ℕ) (start : Msrs) :
    cosOf (calls.foldl (perform machine) start) core =
      (lastAssigned (Call.newCos machine core) calls).getD (cosOf start core) :=
  @observe_foldl _ _ _ (perform machine) (cosOf · core) (Call.newCos machine core) _
    (fun call _ => cosOf_perform call core) start

theorem rmidOf_foldl (apart : ∀ call ∈ calls, ¬ call.Overlaps machine) (core : ℕ) (start : Msrs) :
    rmidOf (calls.foldl (perform machine) start) core =
      (lastAssigned (Call.newRmid machine core) calls).getD (rmidOf start core) :=
  @observe_foldl _ _ _ (perform machine) (rmidOf · core) (Call.newRmid machine core) _
    (fun call isCall => rmidOf_perform (apart call isCall) core) start

theorem maskOf_foldl (cos : ℕ) (start : Msrs) :
    maskOf (calls.foldl (perform machine) start) cos =
      (lastAssigned (Call.newCbm machine cos) calls).getD (maskOf start cos) :=
  @observe_foldl _ _ _ (perform machine) (maskOf · cos) (Call.newCbm machine cos) _
    (fun call _ => maskOf_perform call cos) start

theorem getLsbD_pqrAssoc_foldl (apart : ∀ call ∈ calls, ¬ call.Overlaps machine) (start : Msrs)
    (core : ℕ) {i : ℕ} (above : 10 ≤ i) (below : i < 32) :
    (calls.foldl (perform machine) start core .pqrAssoc).getLsbD i =
      (start core .pqrAssoc).getLsbD i := by
  induction calls generalizing start with
  | nil => rfl
  | cons call rest ih =>
      rw [List.foldl_cons, ih fun other later => apart other (List.mem_cons_of_mem call later),
        getLsbD_pqrAssoc_perform (apart call List.mem_cons_self) start core above below]

theorem holdsLast_foldl (apart : ∀ call ∈ calls, ¬ call.Overlaps machine) (start : Msrs) :
    HoldsLast machine start calls (calls.foldl (perform machine) start) := by
  refine ⟨fun core inside => ?_, fun core inside => ?_, fun cos supported online => ?_,
    fun core i => getLsbD_pqrAssoc_foldl apart start core⟩
  · obtain ⟨cos, returned, isCos⟩ := exists_getCos (calls.foldl (perform machine) start) inside
    exact ⟨cos, returned, isCos.trans (cosOf_foldl core start)⟩
  · obtain ⟨rmid, returned, isRmid⟩ := exists_getRmid (calls.foldl (perform machine) start) inside
    exact ⟨rmid, returned, isRmid.trans (rmidOf_foldl apart core start)⟩
  · rw [catController_getCbm_eq_ok_iff]
    exact ⟨supported, online, (maskOf_foldl cos start).symm⟩

end

/-- The setters do not disturb each other: whatever the registers held, each call sets its field
and nothing else, and the calls leave behind what was set last. -/
def Independent (machine : Machine) (calls : List Call) : Prop :=
  ∀ start, HoldsLast machine start calls (calls.foldl (perform machine) start) ∧
    ∀ early call late, calls = early ++ call :: late →
      LeavesOthers machine (early.foldl (perform machine) start) call
        ((early ++ [call]).foldl (perform machine) start)

/-- The first call that sets the class -1 changes a bit that belongs to no setter, for registers
that held the other value of it. -/
theorem not_independent_of_overlaps {machine : Machine} {early late : List Call}
    {cbm : BitVec 32} (apart : ∀ call ∈ early, ¬ call.Overlaps machine)
    (accepted : (Call.setCbm (-1) cbm).Accepted machine) :
    ¬ Independent machine (early ++ .setCbm (-1) cbm :: late) := by
  intro independent
  let start : Msrs := fun _ _ => if cbm.getLsbD 10 then 0 else BitVec.allOnes 64
  have opposite : (start 0 .pqrAssoc).getLsbD 10 = !cbm.getLsbD 10 := by
    dsimp only [start]
    cases cbm.getLsbD 10 <;> decide
  have kept := ((independent start).2 early _ late rfl).between 0 10 le_rfl (by decide)
  rw [List.foldl_concat, getLsbD_pqrAssoc_perform_of_overlaps accepted (by decide),
    getLsbD_pqrAssoc_foldl apart start 0 le_rfl (by decide), opposite] at kept
  exact Bool.not_ne_self _ kept.symm

/-- The setters are independent of each other, whatever the registers held and in whatever order
the calls come, precisely if no accepted call sets the mask of the class -1. -/
theorem independent_iff (machine : Machine) (calls : List Call) :
    Independent machine calls ↔ ∀ call ∈ calls, ¬ call.Overlaps machine := by
  constructor
  · intro independent
    by_contra! overlaps
    classical
    obtain ⟨other, isCall, otherOverlaps⟩ := overlaps
    have found : (calls.find? (Call.Overlaps machine ·)).isSome :=
      List.find?_isSome.mpr ⟨other, isCall, decide_eq_true otherOverlaps⟩
    obtain ⟨first, isFirst⟩ := Option.isSome_iff_exists.mp found
    obtain ⟨firstOverlaps, early, late, rfl, earlier⟩ :=
      List.find?_eq_some_iff_append.mp isFirst
    obtain ⟨cbm, rfl, accepted⟩ := of_decide_eq_true firstOverlaps
    refine not_independent_of_overlaps (fun call isEarly => ?_) accepted independent
    simpa using earlier call isEarly
  · intro apart start
    refine ⟨holdsLast_foldl apart start, ?_⟩
    rintro early call late rfl
    rw [List.foldl_concat]
    exact leavesOthers_perform (apart call (by simp)) _

/-- The first core loses its monitoring id to a mask of the class -1. -/
theorem minusOne_not_independent :
    ¬ Independent twoClasses [.setRmid 0 5, .setCbm (-1) 0x400#32] := by
  intro independent
  obtain ⟨rmid, returned, isRmid⟩ := (independent fun _ _ => 0).1.rmid 0 (by decide)
  have lost : getRmid twoClasses ([.setRmid 0 5, .setCbm (-1) 0x400#32].foldl (perform twoClasses)
      fun _ _ => 0) 0 = .ok 0#64 := by decide
  cases lost.symm.trans returned
  revert isRmid
  decide

end Datamime.Hardware
