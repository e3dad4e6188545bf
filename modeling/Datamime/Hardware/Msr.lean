/-
# Machines and model-specific registers

The profiler configures the processor through `/dev/cpu/*/msr`: one descriptor for
each online core, and registers that a core number and an address select.
The registers that hold the capacity masks and the monitoring counters belong to
the whole package; the profiler always reaches them through core 0.
-/

import Datamime.Fault
import Mathlib.Logic.Function.Basic

namespace Datamime.Hardware

/-- What `sysconf` and `CPUID` report about a machine. -/
structure Machine where
  /-- `getNumCores()`: the online processors. -/
  numCores : ℕ
  /-- The configured processors. -/
  numLogicalCores : ℕ
  /-- The device `/dev/cpu/<core>/msr` can be opened. It cannot while the processor is offline. -/
  opensMsr : ℕ → Bool
  cacheNumWays : ℕ
  cacheLineSize : ℕ
  catSupported : Bool
  l3CatSupported : Bool
  cbmLen : ℕ
  numCos : ℕ
  cmtMultiplier : ℕ
  numaNodeOfCpu : ℕ → ℤ
  /-- The number of classes is read from a 16-bit field. -/
  numCos_le : numCos ≤ 2 ^ 16
  /-- The length of the masks is one more than a 5-bit field. -/
  cbmLen_le : cbmLen ≤ 32

/-- A register, which is an offset into the device of a core. -/
structure Register where
  address : ℤ
  deriving DecidableEq

namespace Register

/-- `MSR_IA32_PQR_ASSOC`. -/
def pqrAssoc : Register := ⟨0xC8F⟩

/-- `MSR_IA32_L3_MASK_0 + cos`. -/
def l3Mask (cos : ℤ) : Register := ⟨0xC90 + cos⟩

/-- `MSR_IA32_QM_EVTSEL`. -/
def qmEvtsel : Register := ⟨0xC8D⟩

@[simp]
theorem l3Mask_inj {first second : ℤ} : l3Mask first = l3Mask second ↔ first = second := by
  simp [l3Mask]

theorem l3Mask_eq_pqrAssoc {cos : ℤ} : l3Mask cos = pqrAssoc ↔ cos = -1 := by
  rw [l3Mask, pqrAssoc, Register.mk.injEq]
  omega

theorem l3Mask_eq_qmEvtsel {cos : ℤ} : l3Mask cos = qmEvtsel ↔ cos = -3 := by
  rw [l3Mask, qmEvtsel, Register.mk.injEq]
  omega

@[simp]
theorem l3Mask_ne_pqrAssoc (cos : ℕ) : l3Mask cos ≠ pqrAssoc := by
  rw [ne_eq, l3Mask_eq_pqrAssoc]
  omega

@[simp]
theorem pqrAssoc_ne_l3Mask (cos : ℕ) : pqrAssoc ≠ l3Mask cos := (l3Mask_ne_pqrAssoc cos).symm

@[simp]
theorem l3Mask_ne_qmEvtsel (cos : ℕ) : l3Mask cos ≠ qmEvtsel := by
  rw [ne_eq, l3Mask_eq_qmEvtsel]
  omega

@[simp]
theorem pqrAssoc_ne_qmEvtsel : pqrAssoc ≠ qmEvtsel := by decide

end Register

/-- The register contents of every core. -/
abbrev Msrs := ℕ → Register → BitVec 64

/-- The text of the exception when the device of a core cannot be opened. -/
def errorOpening (core : ℕ) : String :=
  "msr file io error\nError opening /dev/cpu/" ++ toString core ++ "/msr"

/-- One round of the loop in the constructor of `MSR`. -/
def openMsr (machine : Machine) (core : ℕ) : Except Fault Unit :=
  if machine.opensMsr core then .ok () else .error (.thrown (errorOpening core))

/-- The constructor of `MSR`. -/
def openMsrs (machine : Machine) : Except Fault Unit :=
  if machine.numCores = 0 then .error .assertion
  else (List.range machine.numCores).foldlM (fun _ core => openMsr machine core) ()

/-- Every device that the constructor opens is there. -/
def Machine.OpensAll (machine : Machine) : Prop :=
  ∀ core < machine.numCores, machine.opensMsr core = true

instance (machine : Machine) : Decidable machine.OpensAll :=
  inferInstanceAs (Decidable (∀ core < machine.numCores, machine.opensMsr core = true))

theorem openMsrs_eq_ok_iff {machine : Machine} :
    openMsrs machine = .ok () ↔ 0 < machine.numCores ∧ machine.OpensAll := by
  have openMsr_iff (core : ℕ) : openMsr machine core = .ok () ↔ machine.opensMsr core = true := by
    rw [openMsr]
    split <;> simp_all
  rw [openMsrs]
  split
  · rename_i none
    exact ⟨nofun, fun opens => absurd none opens.1.ne'⟩
  · rename_i some_core
    constructor
    · intro opened
      refine ⟨Nat.pos_of_ne_zero some_core, ?_⟩
      refine @foldlM_range_invariant _ _ _
        (fun done _ => ∀ core < done, machine.opensMsr core = true) _ _ _
        (fun done _ _ before round core below => ?_) nofun opened
      rcases Nat.lt_succ_iff_lt_or_eq.mp below with earlier | rfl
      · exact before core earlier
      · exact (openMsr_iff core).mp round
    · rintro ⟨-, opens⟩
      obtain ⟨last, opened⟩ := exists_foldlM_range
        (fun core online (_ : Unit) => ⟨(), (openMsr_iff core).mpr (opens core online)⟩) ()
      exact opened

namespace Msrs

/-- `MSR::read`. The descriptors of the offline cores are missing. -/
def read (machine : Machine) (msrs : Msrs) (core : ℕ) (register : Register) :
    Except Fault (BitVec 64) :=
  if core < machine.numCores then .ok (msrs core register) else .error (.outOfRange .msrDescriptors)

/-- The contents after one register of one core changed. -/
def set (msrs : Msrs) (core : ℕ) (register : Register) (value : BitVec 64) : Msrs :=
  Function.update msrs core (Function.update (msrs core) register value)

/-- `MSR::write`. -/
def write (machine : Machine) (msrs : Msrs) (core : ℕ) (register : Register)
    (value : BitVec 64) : Except Fault Msrs := do
  let _prevVal ← msrs.read machine core register
  return msrs.set core register value

variable {machine : Machine} {msrs : Msrs} {core : ℕ} {register : Register}

@[simp]
theorem set_self (value : BitVec 64) : msrs.set core register value core register = value := by
  simp [set]

theorem set_of_ne {other : ℕ} {otherRegister : Register} (value : BitVec 64)
    (different : other ≠ core ∨ otherRegister ≠ register) :
    msrs.set core register value other otherRegister = msrs other otherRegister := by
  by_cases same : other = core
  · subst other
    rw [set, Function.update_self,
      Function.update_of_ne (different.resolve_left fun absurd => absurd rfl)]
  · rw [set, Function.update_of_ne same]

theorem read_eq_ok_iff {value : BitVec 64} :
    msrs.read machine core register = .ok value ↔
      core < machine.numCores ∧ value = msrs core register := by
  rw [read]
  split <;> simp_all [eq_comm]

theorem write_eq_ok_iff {value : BitVec 64} {next : Msrs} :
    msrs.write machine core register value = .ok next ↔
      core < machine.numCores ∧ next = msrs.set core register value := by
  rw [write, bind_eq_ok_iff]
  constructor
  · rintro ⟨prevVal, found, written⟩
    exact ⟨(read_eq_ok_iff.mp found).1, (Except.ok.inj written).symm⟩
  · rintro ⟨inside, rfl⟩
    exact ⟨_, read_eq_ok_iff.mpr ⟨inside, rfl⟩, rfl⟩

end Msrs

end Datamime.Hardware
