/-
# The order of the hidden layers

A generated model arranges its hidden layers either at random or at even intervals. The
even arrangement places a pooling block after a convolution block whose number is a multiple of
the interval, and the interval of two counts need not be a whole number. The random arrangement
always has the requested numbers of blocks. The even one has them precisely if both counts
divide the number of convolution blocks.
-/

import Datamime.Fault
import Mathlib.Algebra.Order.Floor.Ring
import Mathlib.Data.Int.CardIntervalMod

namespace Datamime.Dnn

/-- The entries of `layer_order`. -/
inductive Block
  | c
  | t
  | p
  deriving DecidableEq

/-! ## The arrangements -/

/-- `x / y`. -/
def pyDiv (x y : ℚ) : Except PyError ℚ :=
  if y = 0 then .error .zeroDivisionError else .ok (x / y)

/-- `x % y`. -/
def pyMod (x y : ℚ) : Except PyError ℚ :=
  if y = 0 then .error .zeroDivisionError else .ok (x - y * ⌊x / y⌋)

/-- One round of the loop over `l`. -/
def evenRound (mplInterval sclInterval : ℚ) (layerOrder : List Block) (l : ℕ) :
    Except PyError (List Block) := do
  let layerOrder := layerOrder ++ [.c]
  let layerOrder := if (← pyMod l mplInterval) = 0 then layerOrder ++ [.p] else layerOrder
  let layerOrder := if (← pyMod l sclInterval) = 0 then layerOrder ++ [.t] else layerOrder
  return layerOrder

/-- The arrangement at even intervals. -/
def evenOrder (convLayers stridedConvLayers maxpoolLayers : ℕ) : Except PyError (List Block) := do
  let mplInterval ← pyDiv convLayers maxpoolLayers
  let sclInterval ← if 0 < stridedConvLayers then pyDiv convLayers stridedConvLayers else .ok 0
  (List.range convLayers).foldlM (evenRound mplInterval sclInterval) []

/-- `random.shuffle`: some rearrangement of the list. -/
structure Shuffle where
  apply : List Block → List Block
  perm : ∀ order, (apply order).Perm order

/-- The random arrangement. -/
def shuffledOrder (shuffle : Shuffle) (convLayers stridedConvLayers maxpoolLayers : ℕ) :
    List Block :=
  shuffle.apply (List.replicate convLayers .c ++ List.replicate stridedConvLayers .t ++
    List.replicate maxpoolLayers .p)

/-- `layer_order` in `GeneratedModel.__init__`. -/
def layerOrder (shuffle : Shuffle) (convLayers stridedConvLayers maxpoolLayers : ℕ)
    (evenInterval : Bool) : Except PyError (List Block) :=
  if evenInterval then evenOrder convLayers stridedConvLayers maxpoolLayers
  else .ok (shuffledOrder shuffle convLayers stridedConvLayers maxpoolLayers)

/-- The order has the requested number of each block. -/
structure HasCounts (convLayers stridedConvLayers maxpoolLayers : ℕ) (order : List Block) :
    Prop where
  conv : order.count .c = convLayers
  strided : order.count .t = stridedConvLayers
  maxpool : order.count .p = maxpoolLayers

/-- Both arrangements return an order with the requested numbers. -/
def Arranges (shuffle : Shuffle) (convLayers stridedConvLayers maxpoolLayers : ℕ) : Prop :=
  ∀ evenInterval, ∃ order,
    layerOrder shuffle convLayers stridedConvLayers maxpoolLayers evenInterval = .ok order ∧
      HasCounts convLayers stridedConvLayers maxpoolLayers order

/-! ## The random arrangement -/

theorem hasCounts_shuffledOrder (shuffle : Shuffle)
    (convLayers stridedConvLayers maxpoolLayers : ℕ) :
    HasCounts convLayers stridedConvLayers maxpoolLayers
      (shuffledOrder shuffle convLayers stridedConvLayers maxpoolLayers) := by
  have same := shuffle.perm (List.replicate convLayers .c ++
    List.replicate stridedConvLayers .t ++ List.replicate maxpoolLayers .p)
  exact
    { conv := (same.count_eq .c).trans (by simp [List.count_replicate])
      strided := (same.count_eq .t).trans (by simp [List.count_replicate])
      maxpool := (same.count_eq .p).trans (by simp [List.count_replicate]) }

/-! ## Multiples of an interval -/

section

variable {convLayers stridedConvLayers maxpoolLayers : ℕ}

/-- A number is a multiple of the interval precisely if its product with the count is one of
the number of convolution blocks. -/
theorem pyMod_interval {blocks : ℕ} (someConv : 0 < convLayers) (someBlocks : 0 < blocks) (l : ℕ) :
    ∃ rest, pyMod l ((convLayers : ℚ) / blocks) = .ok rest ∧
      (rest = 0 ↔ convLayers ∣ l * blocks) := by
  have conv_ne : (convLayers : ℚ) ≠ 0 := by exact_mod_cast someConv.ne'
  have blocks_ne : (blocks : ℚ) ≠ 0 := by exact_mod_cast someBlocks.ne'
  have interval_ne : (convLayers : ℚ) / blocks ≠ 0 := div_ne_zero conv_ne blocks_ne
  refine ⟨_, if_neg interval_ne, ?_⟩
  have quotient : (l : ℚ) / (convLayers / blocks) = (l * blocks : ℕ) / convLayers := by
    push_cast
    field_simp
  rw [quotient, sub_eq_zero, eq_comm, div_mul_eq_mul_div, div_eq_iff blocks_ne]
  have whole : ⌊((l * blocks : ℕ) : ℚ) / convLayers⌋ = ((l * blocks / convLayers : ℕ) : ℤ) :=
    Rat.floor_natCast_div_natCast _ _
  rw [whole]
  constructor
  · intro equal
    refine ⟨l * blocks / convLayers, ?_⟩
    exact_mod_cast equal.symm
  · intro divides
    exact_mod_cast Nat.mul_div_cancel' divides

/-- The blocks that a round of the even arrangement appends. -/
def blocksAt (convLayers stridedConvLayers maxpoolLayers l : ℕ) : List Block :=
  .c :: ((if convLayers ∣ l * maxpoolLayers then [.p] else []) ++
    if convLayers ∣ l * stridedConvLayers then [.t] else [])

theorem evenRound_eq (someConv : 0 < convLayers) (someStrided : 0 < stridedConvLayers)
    (someMaxpool : 0 < maxpoolLayers) (order : List Block) (l : ℕ) :
    evenRound ((convLayers : ℚ) / maxpoolLayers) ((convLayers : ℚ) / stridedConvLayers) order l =
      .ok (order ++ blocksAt convLayers stridedConvLayers maxpoolLayers l) := by
  rcases pyMod_interval someConv someMaxpool l with ⟨mplRest, isMplRest, atMpl⟩
  rcases pyMod_interval someConv someStrided l with ⟨sclRest, isSclRest, atScl⟩
  simp only [evenRound, isMplRest, isSclRest, ok_bind, atMpl, atScl, blocksAt]
  split_ifs <;> simp [pure, Except.pure]

/-- The even arrangement appends the blocks of each round. -/
theorem evenOrder_eq (someConv : 0 < convLayers) (someStrided : 0 < stridedConvLayers)
    (someMaxpool : 0 < maxpoolLayers) :
    evenOrder convLayers stridedConvLayers maxpoolLayers =
      .ok ((List.range convLayers).flatMap
        (blocksAt convLayers stridedConvLayers maxpoolLayers)) := by
  have strided_ne : (stridedConvLayers : ℚ) ≠ 0 := by exact_mod_cast someStrided.ne'
  have maxpool_ne : (maxpoolLayers : ℚ) ≠ 0 := by exact_mod_cast someMaxpool.ne'
  have looped (rounds : List ℕ) (order : List Block) :
      rounds.foldlM (evenRound ((convLayers : ℚ) / maxpoolLayers)
          ((convLayers : ℚ) / stridedConvLayers)) order =
        .ok (order ++ rounds.flatMap (blocksAt convLayers stridedConvLayers maxpoolLayers)) := by
    induction rounds generalizing order with
    | nil => simp [pure, Except.pure]
    | cons l rounds ih =>
        rw [List.foldlM_cons, evenRound_eq someConv someStrided someMaxpool, ok_bind, ih]
        simp
  simp [evenOrder, pyDiv, strided_ne, maxpool_ne, someStrided, looped]

/-- Without strided blocks the interval is zero, and the first round divides by it. -/
theorem evenOrder_of_no_strided (someConv : 0 < convLayers) (someMaxpool : 0 < maxpoolLayers) :
    evenOrder convLayers 0 maxpoolLayers = .error .zeroDivisionError := by
  have maxpool_ne : (maxpoolLayers : ℚ) ≠ 0 := by exact_mod_cast someMaxpool.ne'
  rcases pyMod_interval someConv someMaxpool 0 with ⟨rest, isRest, -⟩
  rcases Nat.exists_eq_succ_of_ne_zero someConv.ne' with ⟨rounds, rfl⟩
  have firstRound : evenRound (((rounds + 1 : ℕ) : ℚ) / maxpoolLayers) 0 [] 0 =
      .error .zeroDivisionError := by
    simp only [evenRound, isRest, ok_bind]
    simp [pyMod]
  rw [evenOrder, pyDiv, if_neg maxpool_ne, ok_bind, if_neg (lt_irrefl 0), List.range_succ_eq_map]
  simp only [ok_bind, List.foldlM_cons, Nat.succ_eq_add_one, firstRound, error_bind]

/-! ## Numbers of blocks -/

/-- The multiples of the interval below the number of convolution blocks. -/
theorem count_multiples (someConv : 0 < convLayers) (blocks : ℕ) :
    Nat.count (fun l => convLayers ∣ l * blocks) convLayers = convLayers.gcd blocks := by
  have gcd_pos : 0 < convLayers.gcd blocks := Nat.gcd_pos_of_pos_left blocks someConv
  rcases Nat.exists_coprime convLayers blocks with ⟨step, rest, coprime, isConv, isBlocks⟩
  generalize convLayers.gcd blocks = g at gcd_pos isConv isBlocks ⊢
  have step_pos : 0 < step := by
    apply Nat.pos_of_ne_zero
    rintro rfl
    simp [isConv] at someConv
  have multiples (l : ℕ) : convLayers ∣ l * blocks ↔ l ≡ 0 [MOD step] := by
    rw [isConv, isBlocks, ← mul_assoc, Nat.mul_dvd_mul_iff_right gcd_pos,
      coprime.dvd_mul_right, Nat.modEq_zero_iff_dvd]
  simp only [multiples]
  rw [Nat.count_modEq_card _ step_pos, isConv, Nat.mul_div_cancel_left _ step_pos]
  simp

theorem count_evenBlocks (rounds : ℕ) :
    let order := (List.range rounds).flatMap
      (blocksAt convLayers stridedConvLayers maxpoolLayers)
    order.count .c = rounds ∧
      order.count .t = Nat.count (fun l => convLayers ∣ l * stridedConvLayers) rounds ∧
      order.count .p = Nat.count (fun l => convLayers ∣ l * maxpoolLayers) rounds := by
  induction rounds with
  | zero => simp
  | succ rounds ih =>
      simp only [List.range_succ, List.flatMap_append, List.count_append, ih, Nat.count_succ,
        List.flatMap_singleton, blocksAt]
      split_ifs <;> simp

/-- The even arrangement has as many pooling and strided blocks as the greatest common
divisors say. -/
theorem hasCounts_evenOrder (someConv : 0 < convLayers) (someStrided : 0 < stridedConvLayers)
    (someMaxpool : 0 < maxpoolLayers) :
    ∃ order, evenOrder convLayers stridedConvLayers maxpoolLayers = .ok order ∧
      HasCounts convLayers (convLayers.gcd stridedConvLayers) (convLayers.gcd maxpoolLayers)
        order := by
  rcases @count_evenBlocks convLayers stridedConvLayers maxpoolLayers convLayers with
    ⟨conv, strided, maxpool⟩
  refine ⟨_, evenOrder_eq someConv someStrided someMaxpool, conv, ?_, ?_⟩
  · rw [strided, count_multiples someConv]
  · rw [maxpool, count_multiples someConv]

/-- Both arrangements have the requested numbers precisely if the numbers of pooling and
strided blocks divide that of the convolution blocks. -/
theorem arranges_iff (shuffle : Shuffle) (someConv : 1 ≤ convLayers)
    (someMaxpool : 1 ≤ maxpoolLayers) :
    Arranges shuffle convLayers stridedConvLayers maxpoolLayers ↔
      maxpoolLayers ∣ convLayers ∧ stridedConvLayers ∣ convLayers := by
  rcases Nat.eq_zero_or_pos stridedConvLayers with rfl | someStrided
  · -- The even arrangement divides by zero, and zero divides no positive number.
    apply iff_of_false
    · intro arranges
      rcases arranges true with ⟨order, isOrder, -⟩
      rw [layerOrder, if_pos rfl, evenOrder_of_no_strided someConv someMaxpool] at isOrder
      cases isOrder
    · rintro ⟨-, divides⟩
      exact absurd (Nat.eq_zero_of_zero_dvd divides) (Nat.ne_of_gt someConv)
  · rcases hasCounts_evenOrder someConv someStrided someMaxpool with ⟨even, isEven, counts⟩
    constructor
    · intro arranges
      rcases arranges true with ⟨order, isOrder, requested⟩
      rw [layerOrder, if_pos rfl, isEven] at isOrder
      cases isOrder
      exact ⟨Nat.gcd_eq_right_iff_dvd.mp (counts.maxpool.symm.trans requested.maxpool),
        Nat.gcd_eq_right_iff_dvd.mp (counts.strided.symm.trans requested.strided)⟩
    · rintro ⟨maxpoolDivides, stridedDivides⟩ evenInterval
      cases evenInterval with
      | false =>
          exact ⟨_, rfl, hasCounts_shuffledOrder shuffle convLayers stridedConvLayers
            maxpoolLayers⟩
      | true =>
          rw [Nat.gcd_eq_right maxpoolDivides, Nat.gcd_eq_right stridedDivides] at counts
          exact ⟨even, isEven, counts⟩

end

/-- A shuffle that changes nothing. -/
def Shuffle.unchanged : Shuffle := ⟨id, fun order => List.Perm.refl order⟩

/-- Four convolution blocks with two strided and four pooling blocks. -/
theorem four_two_four_arranges_iff :
    Arranges .unchanged 4 2 4 ↔ 4 ∣ 4 ∧ 2 ∣ 4 :=
  arranges_iff .unchanged (by decide) (by decide)

/-- The counts that the script takes by default cannot be arranged at even intervals. -/
theorem default_counts_not_arranged : ¬ Arranges .unchanged 1 0 1 := by
  intro arranges
  rcases arranges true with ⟨order, isOrder, -⟩
  revert isOrder
  rw [layerOrder, if_pos rfl, evenOrder_of_no_strided one_pos one_pos]
  exact fun absurdity => by cases absurdity

/-- With two pooling blocks for three convolution blocks, the even arrangement has one. -/
example : ¬ Arranges .unchanged 3 3 2 :=
  fun arranges => by
    rcases arranges true with ⟨order, isOrder, counts⟩
    rcases @hasCounts_evenOrder 3 3 2 (by decide) (by decide) (by decide) with
      ⟨even, isEven, counted⟩
    rw [layerOrder, if_pos rfl, isEven] at isOrder
    cases isOrder
    exact absurd (counted.maxpool.symm.trans counts.maxpool) (by decide)

end Datamime.Dnn
