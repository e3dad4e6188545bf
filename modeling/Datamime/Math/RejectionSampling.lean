/-
# Rejection sampling

A rejection sampler draws rounds, independently and from one law, until a round is accepted. What
it returns has the law of a round under the condition that the round is accepted. A round that
proposes a real number and compares a uniform number with a chance accepts as often as the integral
of the chance says, and the inverse of a distribution function turns uniform numbers into proposals.
-/

import Mathlib.MeasureTheory.Constructions.BorelSpace.Order
import Mathlib.MeasureTheory.Measure.Lebesgue.Basic
import Mathlib.Order.CompletePartialOrder
import Mathlib.Probability.ProductMeasure
import Mathlib.Tactic

namespace Datamime.Rejection

open MeasureTheory Set
open scoped ENNReal

/-! ## Rounds until one is accepted -/

section

variable {Ω α : Type*}

/-- What the first accepted round returns, of at most the given number of rounds. -/
def firstAccepted (round : Ω → Option α) : ℕ → (ℕ → Ω) → Option α
  | 0, _ => none
  | fuel + 1, draws =>
      match round (draws 0) with
      | some a => some a
      | none => firstAccepted round fuel fun i => draws (i + 1)

/-- The draws for which a round is the first that is accepted, and returns the given value. -/
def acceptedAt (round : Ω → Option α) (a : α) (m : ℕ) : Set (ℕ → Ω) :=
  {draws | (∀ i < m, round (draws i) = none) ∧ round (draws m) = some a}

variable {round : Ω → Option α} {draws : ℕ → Ω} {a : α} {fuel m : ℕ}

theorem mem_acceptedAt_succ :
    draws ∈ acceptedAt round a (m + 1) ↔
      round (draws 0) = none ∧ (fun i => draws (i + 1)) ∈ acceptedAt round a m := by
  simp only [acceptedAt, mem_ofPred_eq, Nat.forall_lt_succ_left, and_assoc]

/-- Rounds return a value exactly when one of them is the first to be accepted and returns it. -/
theorem firstAccepted_eq_some :
    firstAccepted round fuel draws = some a ↔ ∃ m < fuel, draws ∈ acceptedAt round a m := by
  induction fuel generalizing draws with
  | zero => simp [firstAccepted]
  | succ fuel ih =>
      simp only [Nat.exists_lt_succ_left, mem_acceptedAt_succ]
      cases isFirst : round (draws 0) with
      | none => simp [firstAccepted, isFirst, ih, acceptedAt]
      | some b => simp [firstAccepted, isFirst, acceptedAt]

theorem setOf_exists_firstAccepted (round : Ω → Option α) (a : α) :
    {draws | ∃ fuel, firstAccepted round fuel draws = some a} = ⋃ m, acceptedAt round a m := by
  ext draws
  simp only [firstAccepted_eq_some, mem_ofPred_eq, mem_iUnion]
  constructor
  · rintro ⟨fuel, m, -, isAt⟩
    exact ⟨m, isAt⟩
  · rintro ⟨m, isAt⟩
    exact ⟨m + 1, m, Nat.lt_succ_self m, isAt⟩

/-- Draws have one first accepted round, and it returns one value. -/
theorem eq_of_mem_acceptedAt {b : α} {n : ℕ} (isFirst : draws ∈ acceptedAt round a m)
    (isSecond : draws ∈ acceptedAt round b n) : m = n ∧ a = b := by
  rcases lt_trichotomy m n with isLess | rfl | isGreater
  · have rejected := isSecond.1 m isLess
    simp [isFirst.2] at rejected
  · simpa [isFirst.2] using isSecond.2
  · have rejected := isFirst.1 n isGreater
    simp [isSecond.2] at rejected

theorem pairwise_disjoint_acceptedAt (round : Ω → Option α) (a : α) :
    Pairwise (Function.onFun Disjoint (acceptedAt round a)) := by
  intro m n isOther
  apply Set.disjoint_left.mpr
  intro draws isFirst isSecond
  exact isOther (eq_of_mem_acceptedAt isFirst isSecond).1

theorem pairwise_disjoint_firstAccepted (round : Ω → Option α) :
    Pairwise (Function.onFun Disjoint fun a =>
      {draws | ∃ fuel, firstAccepted round fuel draws = some a}) := by
  intro a b isOther
  apply Set.disjoint_left.mpr
  rintro draws ⟨fuel, isFirst⟩ ⟨fuel', isSecond⟩
  rcases firstAccepted_eq_some.mp isFirst with ⟨m, -, atFirst⟩
  rcases firstAccepted_eq_some.mp isSecond with ⟨n, -, atSecond⟩
  exact isOther (eq_of_mem_acceptedAt atFirst atSecond).2

theorem acceptedAt_eq_pi (round : Ω → Option α) (a : α) (m : ℕ) :
    acceptedAt round a m = Set.pi (Finset.range (m + 1)) fun i =>
      {d | round d = if i < m then none else some a} := by
  ext draws
  simp [acceptedAt, Set.mem_pi, Nat.le_iff_lt_or_eq, or_imp, forall_and]
  intro _
  apply forall₂_congr
  intro i isBefore
  rw [if_pos isBefore]

/-! ## The law of what is returned -/

variable [MeasurableSpace Ω] {law : Measure Ω}

/-- Rounds are independent: all before the accepted one are rejected. -/
theorem infinitePi_acceptedAt [IsProbabilityMeasure law]
    (decided : ∀ o, MeasurableSet {d | round d = o}) (a : α) (m : ℕ) :
    Measure.infinitePi (fun _ => law) (acceptedAt round a m) =
      law {d | round d = none} ^ m * law {d | round d = some a} := by
  rw [acceptedAt_eq_pi, Measure.infinitePi_pi _ fun i _ => decided _, Finset.prod_range_succ,
    if_neg (lt_irrefl m)]
  congr 1
  have before (i : ℕ) (isBefore : i ∈ Finset.range m) :
      law {d | round d = if i < m then none else some a} = law {d | round d = none} := by
    rw [if_pos (Finset.mem_range.mp isBefore)]
  rw [Finset.prod_congr rfl before, Finset.prod_const, Finset.card_range]

theorem measurableSet_acceptedAt (decided : ∀ o, MeasurableSet {d | round d = o}) (a : α) (m : ℕ) :
    MeasurableSet (acceptedAt round a m) := by
  rw [acceptedAt_eq_pi]
  exact MeasurableSet.pi (Finset.countable_toSet _) fun i _ => decided _

theorem measurableSet_firstAccepted (decided : ∀ o, MeasurableSet {d | round d = o}) (a : α) :
    MeasurableSet {draws | ∃ fuel, firstAccepted round fuel draws = some a} := by
  rw [setOf_exists_firstAccepted]
  exact MeasurableSet.iUnion fun m => measurableSet_acceptedAt decided a m

/-- The first accepted round returns a value as often as a round returns it, relative to how often a
round is accepted. -/
theorem infinitePi_firstAccepted [IsProbabilityMeasure law]
    (decided : ∀ o, MeasurableSet {d | round d = o}) (a : α) :
    Measure.infinitePi (fun _ => law) {draws | ∃ fuel, firstAccepted round fuel draws = some a} =
      law {d | round d = some a} / law {d | round d ≠ none} := by
  have accepted : law {d | round d ≠ none} = 1 - law {d | round d = none} :=
    prob_compl_eq_one_sub (decided none)
  rw [setOf_exists_firstAccepted,
    measure_iUnion (pairwise_disjoint_acceptedAt round a) (measurableSet_acceptedAt decided a)]
  simp_rw [infinitePi_acceptedAt decided]
  rw [ENNReal.tsum_mul_right, ENNReal.tsum_geometric, accepted, mul_comm, div_eq_mul_inv]

end

/-! ## Rounds that propose a number -/

/-- The law of a uniform random number. -/
noncomputable def unit : Measure ℝ := volume.restrict (Ioo 0 1)

instance : IsProbabilityMeasure unit := by
  apply isProbabilityMeasure_iff.mpr
  simp [unit]

theorem unit_Iio {c : ℝ} (atMost : c ≤ 1) : unit (Iio c) = ENNReal.ofReal c := by
  rw [unit, Measure.restrict_apply measurableSet_Iio, inter_comm, Ioo_inter_Iio,
    min_eq_right atMost]
  simp

theorem unit_Iic {c : ℝ} (atMost : c ≤ 1) : unit (Iic c) = ENNReal.ofReal c := by
  have noAtom : unit (Iic c) = unit (Iio c) := by
    rw [unit]
    exact measure_congr Iio_ae_eq_Iic.symm
  rw [noAtom, unit_Iio atMost]

/-- The inverse of a distribution function turns a uniform number into one of its distribution. -/
theorem map_unit_eq {G : ℝ → ℝ} (measurable : Measurable G) {law : Measure ℝ}
    [IsProbabilityMeasure law]
    (isInverse : ∀ p ∈ Ioo 0 1, ∀ x, G p ≤ x ↔ p ≤ law.real (Iic x)) : unit.map G = law := by
  have isFinite : IsFiniteMeasure (unit.map G) := inferInstance
  apply Measure.ext_of_Iic
  intro x
  have sameCell : Ioo 0 1 ∩ preimage G (Iic x) = Ioo 0 1 ∩ Iic (law.real (Iic x)) := by
    ext p
    exact and_congr_right fun isUnit => isInverse p isUnit x
  rw [Measure.map_apply measurable measurableSet_Iic, unit,
    Measure.restrict_apply (measurable measurableSet_Iic), inter_comm, sameCell, inter_comm,
    ← Measure.restrict_apply measurableSet_Iic, ← unit,
    unit_Iic measureReal_le_one]
  exact ofReal_measureReal

/-- A proposal in a cell is accepted as often as the integral of its chance says. -/
theorem prod_unit_accepted {law : Measure ℝ} [SFinite law] {ratio : ℝ → ℝ} {cell : Set ℝ}
    (measurable : Measurable ratio) (isCell : MeasurableSet cell)
    (isChance : ∀ x ∈ cell, ratio x ≤ 1) :
    (law.prod unit) {d | d.2 < ratio d.1 ∧ d.1 ∈ cell} =
      ∫⁻ x in cell, ENNReal.ofReal (ratio x) ∂law := by
  have isEvent : MeasurableSet {d : ℝ × ℝ | d.2 < ratio d.1 ∧ d.1 ∈ cell} :=
    (measurableSet_lt measurable_snd (measurable.comp measurable_fst)).inter (measurable_fst isCell)
  rw [Measure.prod_apply isEvent, ← lintegral_indicator isCell]
  apply lintegral_congr
  intro x
  by_cases isIn : x ∈ cell
  · rw [indicator_of_mem isIn, ← unit_Iio (isChance x isIn)]
    congr 1
    ext y
    simp [isIn]
  · rw [indicator_of_notMem isIn]
    simp [isIn]

end Datamime.Rejection
