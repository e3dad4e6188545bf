/-
# Dividing units among convex costs

Equal units are divided among finitely many parties, and each party has a cost
for the number of units it gets. If every cost is convex, a division has the
least total cost as soon as no party's last unit saved less than another party
would save with one more. Giving the next unit to the party that saves most keeps
a division in this balance.
-/

import Mathlib.Algebra.BigOperators.Field
import Mathlib.Algebra.Order.BigOperators.Group.Finset
import Mathlib.Tactic

namespace Datamime.Math

variable {ι α : Type*} [Field α] [LinearOrder α] [IsStrictOrderedRing α]

/-- The change of the cost with one unit more. -/
def slope (cost : ℕ → α) (units : ℕ) : α := cost (units + 1) - cost units

/-- From `lo` to `hi` units the change of the cost never falls. -/
def ConvexBetween (lo hi : ℕ) (cost : ℕ → α) : Prop :=
  ∀ units, lo ≤ units → units + 2 ≤ hi → slope cost units ≤ slope cost (units + 1)

section

variable {lo hi : ℕ} {cost : ℕ → α}

omit [IsStrictOrderedRing α] in
theorem ConvexBetween.slope_le (convex : ConvexBetween lo hi cost) {few many : ℕ}
    (above : lo ≤ few) (fewer : few ≤ many) (below : many + 1 ≤ hi) :
    slope cost few ≤ slope cost many := by
  induction many, fewer using Nat.le_induction with
  | base => exact le_refl _
  | succ many fewer ih =>
      have earlier := ih (by omega)
      have step := convex many (by omega) (by omega)
      exact earlier.trans step

/-- A bound on each change bounds the whole change from below. -/
theorem mul_le_sub_of_le_slope {few many : ℕ} {bound : α} (fewer : few ≤ many)
    (each : ∀ units, few ≤ units → units < many → bound ≤ slope cost units) :
    ((many : α) - few) * bound ≤ cost many - cost few := by
  induction many, fewer using Nat.le_induction with
  | base => simp
  | succ many fewer ih =>
      have earlier := ih fun units above below => each units above (Nat.lt_succ_of_lt below)
      have last := each many fewer (Nat.lt_succ_self many)
      rw [slope] at last
      rw [Nat.cast_succ]
      linarith

/-- A bound on each change bounds the whole change from above. -/
theorem sub_le_mul_of_slope_le {few many : ℕ} {bound : α} (fewer : few ≤ many)
    (each : ∀ units, few ≤ units → units < many → slope cost units ≤ bound) :
    cost many - cost few ≤ ((many : α) - few) * bound := by
  induction many, fewer using Nat.le_induction with
  | base => simp
  | succ many fewer ih =>
      have earlier := ih fun units above below => each units above (Nat.lt_succ_of_lt below)
      have last := each many fewer (Nat.lt_succ_self many)
      rw [slope] at last
      rw [Nat.cast_succ]
      linarith

/-- The mean change over several units is no less than the change of the first. -/
theorem ConvexBetween.slope_mul_le (convex : ConvexBetween lo hi cost) {few many : ℕ}
    (above : lo ≤ few) (fewer : few ≤ many) (below : many ≤ hi) :
    ((many : α) - few) * slope cost few ≤ cost many - cost few :=
  mul_le_sub_of_le_slope fewer fun _ isAbove isBelow =>
    convex.slope_le above isAbove (isBelow.trans_le below)

end

/-! ## Balanced divisions -/

section

variable {lo hi : ℕ} {cost : ι → ℕ → α} {chosen other : ι → ℕ}

/-- The last unit of each party beyond `lo` saved at least what any party below `hi`
would save with one more. -/
def Balanced (lo hi : ℕ) (cost : ι → ℕ → α) (chosen : ι → ℕ) : Prop :=
  ∀ rich poor, lo < chosen rich → chosen poor < hi →
    slope (cost rich) (chosen rich - 1) ≤ slope (cost poor) (chosen poor)

omit [IsStrictOrderedRing α] in
/-- Nothing has been given beyond `lo`. -/
theorem balanced_of_le (few : ∀ party, chosen party ≤ lo) : Balanced lo hi cost chosen :=
  fun rich _ isRich _ => absurd isRich (not_lt.mpr (few rich))

omit [IsStrictOrderedRing α] in
/-- The next unit goes to a party that saves most with it. -/
theorem Balanced.give [DecidableEq ι] (balanced : Balanced lo hi cost chosen)
    (convex : ∀ party, ConvexBetween lo hi (cost party)) {winner : ι}
    (above : lo ≤ chosen winner)
    (most : ∀ party, chosen party < hi →
      slope (cost winner) (chosen winner) ≤ slope (cost party) (chosen party)) :
    Balanced lo hi cost (Function.update chosen winner (chosen winner + 1)) := by
  intro rich poor isRich isPoor
  by_cases poorWon : poor = winner
  · subst poorWon
    rw [Function.update_self] at isPoor ⊢
    have rises := convex poor (chosen poor) above isPoor
    by_cases richWon : rich = poor
    · subst richWon
      rw [Function.update_self]
      exact rises
    · rw [Function.update_of_ne richWon] at isRich ⊢
      exact (balanced rich poor isRich (by omega)).trans rises
  · rw [Function.update_of_ne poorWon] at isPoor ⊢
    by_cases richWon : rich = winner
    · subst richWon
      rw [Function.update_self]
      exact most poor isPoor
    · rw [Function.update_of_ne richWon] at isRich ⊢
      exact balanced rich poor isRich isPoor

/-- A balanced division has the least total cost among the divisions of the same total. -/
theorem Balanced.sum_le [Fintype ι] (balanced : Balanced lo hi cost chosen)
    (convex : ∀ party, ConvexBetween lo hi (cost party))
    (chosen_within : ∀ party, lo ≤ chosen party ∧ chosen party ≤ hi)
    (other_within : ∀ party, lo ≤ other party ∧ other party ≤ hi)
    (sameTotal : ∑ party, chosen party = ∑ party, other party) :
    ∑ party, cost party (chosen party) ≤ ∑ party, cost party (other party) := by
  classical
  by_cases dominated : ∀ party, chosen party ≤ other party
  · have same : ∀ party ∈ Finset.univ, chosen party = other party :=
      (Finset.sum_eq_sum_iff_of_le fun party _ => dominated party).mp sameTotal
    exact le_of_eq (Finset.sum_congr rfl fun party isMember => by rw [same party isMember])
  · -- Among the parties that get less in the other division, one saved least with its last unit.
    have losers : (Finset.univ.filter fun party => other party < chosen party).Nonempty := by
      obtain ⟨party, loses⟩ := not_forall.mp dominated
      exact ⟨party, Finset.mem_filter.mpr ⟨Finset.mem_univ party, not_le.mp loses⟩⟩
    obtain ⟨least, isLoser, isLeast⟩ :=
      Finset.exists_max_image _ (fun party => slope (cost party) (chosen party - 1)) losers
    have loses : other least < chosen least := (Finset.mem_filter.mp isLoser).2
    have isRich : lo < chosen least := (other_within least).1.trans_lt loses
    set price := slope (cost least) (chosen least - 1) with isPrice
    have exchange : ∀ party, ((other party : α) - chosen party) * price ≤
        cost party (other party) - cost party (chosen party) := by
      intro party
      obtain ⟨above, below⟩ := chosen_within party
      obtain ⟨otherAbove, otherBelow⟩ := other_within party
      rcases le_total (chosen party) (other party) with gains | falls
      · refine mul_le_sub_of_le_slope gains fun units isAbove isBelow => ?_
        have isPoor : chosen party < hi := by omega
        exact (balanced least party isRich isPoor).trans
          ((convex party).slope_le above isAbove (by omega))
      · have bound : cost party (chosen party) - cost party (other party) ≤
            ((chosen party : α) - other party) * price := by
          refine sub_le_mul_of_slope_le falls fun units isAbove isBelow => ?_
          have isMember : party ∈ Finset.univ.filter fun party => other party < chosen party :=
            Finset.mem_filter.mpr ⟨Finset.mem_univ party, by omega⟩
          exact ((convex party).slope_le (otherAbove.trans isAbove)
            (show units ≤ chosen party - 1 by omega) (by omega)).trans (isLeast party isMember)
        linarith
    have total : ∑ party, ((other party : α) - chosen party) * price = 0 := by
      rw [← Finset.sum_mul, Finset.sum_sub_distrib, ← Nat.cast_sum, ← Nat.cast_sum, sameTotal,
        sub_self, zero_mul]
    have saved := Finset.sum_le_sum fun party (_ : party ∈ Finset.univ) => exchange party
    rw [total, Finset.sum_sub_distrib] at saved
    linarith

end

end Datamime.Math
