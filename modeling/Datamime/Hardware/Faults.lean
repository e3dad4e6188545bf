/-
# How the register calls fault

A call of a controller ends without a result for one of three reasons: the class does not exist,
the mask is too long, or the core has no descriptor. Whether a call avoids a kind of fault is
therefore said by three conditions, which the loops over the cores inherit. The constructor of the
controller has reasons of its own.
-/

import Datamime.Hardware.Cat
import Datamime.Math.Avoids

namespace Datamime.Hardware

open Datamime.Math

variable {machine : Machine} {msrs : Msrs} {bad : Fault → Prop}

theorem avoids_read {core : ℕ} {register : Register}
    (offline : machine.numCores ≤ core → ¬ bad (.outOfRange .msrDescriptors)) :
    Avoids bad (msrs.read machine core register) :=
  avoids_ite (fun _ => avoids_ok _) fun outside => avoids_error (offline (Nat.not_lt.mp outside))

theorem avoids_write {core : ℕ} {register : Register} {value : BitVec 64}
    (offline : machine.numCores ≤ core → ¬ bad (.outOfRange .msrDescriptors)) :
    Avoids bad (msrs.write machine core register value) :=
  (avoids_read offline).bind fun _ _ => avoids_ok _

theorem avoids_setCos {core cos : ℕ}
    (unsupported : machine.numCos ≤ cos → ¬ bad (.thrown (cosExceeds machine cos)))
    (offline : machine.numCores ≤ core → ¬ bad (.outOfRange .msrDescriptors)) :
    Avoids bad (setCos machine msrs core cos) :=
  avoids_ite (fun exceeds => avoids_error (unsupported exceeds)) fun _ =>
    (avoids_read offline).bind fun _ _ => avoids_write offline

theorem avoids_setCbm {cos : ℤ} {cbm : BitVec 32}
    (unsupported : machine.numCos ≤ cos → ¬ bad (.thrown (cosExceeds machine cos)))
    (tooLong : shiftRight cbm machine.cbmLen ≠ 0 → ¬ bad (.thrown (cbmExceeds machine)))
    (offline : machine.numCores ≤ 0 → ¬ bad (.outOfRange .msrDescriptors)) :
    Avoids bad (setCbm machine msrs cos cbm) :=
  avoids_ite (fun exceeds => avoids_error (unsupported exceeds)) fun _ =>
    avoids_ite (fun exceeds => avoids_error (tooLong exceeds)) fun _ =>
      (avoids_read offline).bind fun _ _ => avoids_write offline

theorem avoids_openMsrs (none : machine.numCores = 0 → ¬ bad .assertion)
    (closed : ∀ core, ¬ bad (.thrown (errorOpening core))) : Avoids bad (openMsrs machine) :=
  avoids_ite (fun isNone => avoids_error (none isNone)) fun _ => avoids_foldlM
    (fun _ core _ => avoids_ite (fun _ => avoids_ok _) fun _ => avoids_error (closed core)) _

/-- If a device cannot be opened, the exception names one. -/
theorem openMsrs_eq_thrown (cores : 0 < machine.numCores) (closed : ¬ machine.OpensAll) :
    ∃ core, openMsrs machine = .error (.thrown (errorOpening core)) := by
  have names : Avoids (fun fault => ∀ core, fault ≠ .thrown (errorOpening core))
      (openMsrs machine) :=
    avoids_openMsrs (fun none => absurd none cores.ne') fun core others => others core rfl
  cases opened : openMsrs machine with
  | ok _ => exact absurd (openMsrs_eq_ok_iff.mp opened).2 closed
  | error fault =>
      obtain ⟨core, isNamed⟩ := not_forall_not.mp (names fault opened)
      exact ⟨core, congrArg Except.error isNamed⟩

theorem avoids_catController (none : ¬ bad .assertion)
    (closed : ∀ core, ¬ bad (.thrown (errorOpening core)))
    (noCat : ¬ bad (.thrown "CAT not present")) (noL3Cat : ¬ bad (.thrown "L3 CAT not present")) :
    Avoids bad (catController machine) :=
  (avoids_openMsrs (fun _ => none) closed).bind fun _ _ => avoids_ite (fun _ => avoids_error noCat)
    fun _ => avoids_ite (fun _ => avoids_error noL3Cat) fun _ => avoids_ok _

/-- A round of `share_all_cache_ways` chooses a class that exists, if there is one. -/
theorem avoids_shareCore {cacheNumWays coreID : ℕ}
    (noClass : machine.numCos = 0 → ¬ bad (.thrown (cosExceeds machine ↑(machine.numCos - 1))))
    (tooLong : shiftRight (fullMask cacheNumWays) machine.cbmLen ≠ 0 →
      ¬ bad (.thrown (cbmExceeds machine)))
    (offline : machine.numCores ≤ coreID → ¬ bad (.outOfRange .msrDescriptors)) :
    Avoids bad (shareCore machine cacheNumWays msrs coreID) := by
  refine avoids_ite (fun supported => ?_) fun _ => ?_
  · refine (avoids_setCbm (fun exceeds => absurd supported (by omega)) tooLong fun none =>
      offline (by omega)).bind fun _ _ => ?_
    exact avoids_setCos (fun exceeds => absurd supported exceeds.not_gt) offline
  · exact avoids_setCos (fun exceeds => noClass (by omega)) offline

end Datamime.Hardware
