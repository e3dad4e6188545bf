/-
# The full tree

`build_tree` for a depth and an odd multiple of its power of two builds the full tree of that depth
around that value. Its values are consecutive numbers, and those at the leaves are the odd ones.
-/

import Datamime.Microbenchmark.StoredTree

namespace Datamime.Microbenchmark

open Datamime.Math Datamime.Math.SearchTree

/-- The full tree of a depth around a value. -/
def fullTree : ℕ → ℤ → BinaryTree ℤ
  | 0, val => .node val .nil .nil
  | depth + 1, val =>
      .node val (fullTree depth (val - 2 ^ depth)) (fullTree depth (val + 2 ^ depth))

/-- The value is an odd multiple of the power of two that belongs to the depth. -/
def Centred (depth : ℕ) (val : ℤ) : Prop := ∃ m : ℤ, val = 2 ^ depth * (2 * m + 1)

section

variable {depth : ℕ} {val key : ℤ}

theorem centred_zero_iff : Centred 0 val ↔ val % 2 = 1 := by
  rw [Centred]
  constructor
  · rintro ⟨m, rfl⟩
    omega
  · intro isOdd
    refine ⟨val / 2, ?_⟩
    omega

/-- The values of the children are such multiples for the next smaller depth. -/
theorem Centred.children (centred : Centred (depth + 1) val) :
    Centred depth (val - 2 ^ depth) ∧ Centred depth (val + 2 ^ depth) := by
  rcases centred with ⟨m, rfl⟩
  constructor
  · refine ⟨2 * m, ?_⟩
    ring
  · refine ⟨2 * m + 1, ?_⟩
    ring

theorem Centred.tmod (centred : Centred depth val) : val.tmod (2 ^ depth) = 0 := by
  rcases centred with ⟨m, rfl⟩
  exact Int.mul_tmod_right _ _

theorem Centred.even (centred : Centred (depth + 1) val) : val % 2 = 0 := by
  rcases centred with ⟨m, rfl⟩
  rw [pow_succ, mul_assoc, mul_left_comm]
  exact Int.mul_emod_right _ _

theorem fullTree_ne_nil (depth : ℕ) (val : ℤ) : fullTree depth val ≠ .nil := by
  cases depth <;> simp [fullTree]

/-- The values are consecutive. -/
theorem inorder_fullTree (depth : ℕ) (val : ℤ) :
    inorder (fullTree depth val) =
      (List.range (2 ^ (depth + 1) - 1)).map fun i : ℕ => val - 2 ^ depth + 1 + (i : ℤ) := by
  induction depth generalizing val with
  | zero => simp [fullTree, inorder]
  | succ depth ih =>
      have halves : 2 ^ (depth + 2) - 1 = (2 ^ (depth + 1) - 1) + 1 + (2 ^ (depth + 1) - 1) := by
        have positive : 0 < 2 ^ (depth + 1) := Nat.two_pow_pos _
        rw [pow_succ]
        omega
      have size : ((2 ^ (depth + 1) - 1 : ℕ) : ℤ) = 2 ^ (depth + 1) - 1 := by
        rw [Nat.cast_sub Nat.one_le_two_pow]
        norm_num
      rw [fullTree, inorder, ih, ih, halves, List.range_add, List.range_succ, List.map_append,
        List.map_append, List.map_map, List.append_assoc]
      congr 1
      · apply List.map_congr_left
        intro i _
        ring
      · rw [List.map_singleton, List.singleton_append, size]
        congr 1
        · ring
        · apply List.map_congr_left
          intro i _
          simp only [Function.comp_apply, Nat.cast_add, Nat.cast_one, size]
          ring

theorem ordered_fullTree (depth : ℕ) (val : ℤ) : Ordered (fullTree depth val) := by
  rw [Ordered, inorder_fullTree, List.pairwise_map]
  apply List.Pairwise.imp _ List.pairwise_lt_range
  intro i j isLess
  have less : (i : ℤ) < j := by exact_mod_cast isLess
  linarith

/-- The odd values between the ends are those at the leaves. -/
theorem mem_leaves_fullTree (centred : Centred depth val) :
    key ∈ leaves (fullTree depth val) ↔
      key % 2 = 1 ∧ val - 2 ^ depth < key ∧ key < val + 2 ^ depth := by
  induction depth generalizing val with
  | zero =>
      rw [centred_zero_iff] at centred
      simp only [fullTree, leaves, isNil, Bool.and_self, if_true, List.mem_singleton, pow_zero]
      omega
  | succ depth ih =>
      rcases centred.children with ⟨atLeft, atRight⟩
      have isEven := centred.even
      have hasChild : ¬ (fullTree depth (val - 2 ^ depth) = .nil ∧
          fullTree depth (val + 2 ^ depth) = .nil) :=
        fun both => fullTree_ne_nil _ _ both.1
      have positive : (0 : ℤ) < 2 ^ depth := by positivity
      rw [fullTree, leaves_node hasChild, List.mem_append, ih atLeft, ih atRight, pow_succ]
      omega

/-! ## Building it -/

/-- The values of the tree are positive numbers of type `int`. -/
def InRange (depth : ℕ) (val : ℤ) : Prop := 2 ^ depth ≤ val ∧ val + 2 ^ depth < 2 ^ 31

theorem toInt_of_range {n : ℤ} (nonneg : 0 ≤ n) (small : n < 2 ^ 31) : toInt n = .ok n := by
  rw [toInt, if_pos]
  omega

theorem InRange.shifted (inRange : InRange depth val) : shifted depth = .ok (2 ^ depth) := by
  have positive : (0 : ℤ) < 2 ^ depth := by positivity
  rw [Microbenchmark.shifted]
  exact toInt_of_range positive.le (by linarith [inRange.1, inRange.2])

theorem InRange.toInt (inRange : InRange depth val) : toInt val = .ok val := by
  have positive : (0 : ℤ) < 2 ^ depth := by positivity
  exact toInt_of_range (by linarith [inRange.1]) (by linarith [inRange.2])

theorem require_true : require (decide ((0 : ℤ) = 0)) = .ok () := rfl

theorem InRange.children (inRange : InRange (depth + 1) val) :
    InRange depth (val - 2 ^ depth) ∧ InRange depth (val + 2 ^ depth) := by
  have positive : (0 : ℤ) < 2 ^ depth := by positivity
  rcases inRange with ⟨low, high⟩
  rw [pow_succ] at low high
  constructor
  · exact ⟨by linarith, by linarith⟩
  · exact ⟨by linarith, by linarith⟩

/-- What a call of `build_tree` leaves. -/
structure Built (heap next : Heap) (parent : Option ℕ) (tree : BinaryTree ℤ)
    (slots : BinaryTree Slot) : Prop where
  values : slots.map Slot.val = tree
  isRoot : link slots = some heap.next
  stored : Stored next parent slots
  addrs : (inorder (slots.map Slot.addr)).Nodup
  fresh : ∀ addr, HasAddr slots addr → heap.next ≤ addr ∧ addr < next.next
  others : Arena.SameOn (· < heap.next) heap next
  strays : next.strays = heap.strays
  grows : heap.next < next.next

theorem built_leaf (heap : Heap) (parent : Option ℕ) (val : ℤ) :
    Built heap (heap.alloc (Node.new val parent)).2 parent (.node val .nil .nil)
      (.node ⟨heap.next, val⟩ .nil .nil) where
  values := rfl
  isRoot := rfl
  stored := ⟨Arena.holds_alloc heap _, trivial, trivial⟩
  addrs := by simp [BinaryTree.map, inorder]
  fresh := by
    intro addr isAddr
    have same : addr = heap.next := by simpa [HasAddr, BinaryTree.map, inorder] using isAddr
    rw [same]
    exact ⟨le_refl _, Nat.lt_succ_self _⟩
  others := Arena.sameOn_alloc heap _
  strays := rfl
  grows := Nat.lt_succ_self _

section

variable {heap next leftHeap rightHeap : Heap} {parent : Option ℕ} {left right tree : BinaryTree ℤ}
  {slots leftSlots rightSlots : BinaryTree Slot}

theorem Built.represents (built : Built heap next none tree slots) :
    Represents next heap.next tree :=
  ⟨slots, built.values, built.isRoot, built.stored, built.addrs,
    fun addr isAddr => (built.fresh addr isAddr).2⟩

/-- The root while the left child is built. -/
theorem Built.holds_root
    (atLeft : Built (heap.alloc (Node.new val parent)).2 leftHeap (some heap.next) left leftSlots) :
    leftHeap.Holds heap.next (Node.new val parent) :=
  (Arena.holds_alloc heap _).of_sameOn atLeft.others (Nat.lt_succ_self _)

/-- The root while the right child is built. -/
theorem Built.holds_linked {node : Node}
    (atLeft : Built (heap.alloc (Node.new val parent)).2 leftHeap (some heap.next) left leftSlots)
    (atRight : Built (leftHeap.set heap.next node) rightHeap (some heap.next) right rightSlots) :
    rightHeap.Holds heap.next node :=
  (atLeft.holds_root.set node).of_sameOn atRight.others (Nat.lt_of_succ_lt atLeft.grows)

/-- The root is created, the left child built and linked, and then the right one. -/
theorem built_node
    (atLeft : Built (heap.alloc (Node.new val parent)).2 leftHeap (some heap.next) left leftSlots)
    (atRight : Built (leftHeap.set heap.next ⟨some (heap.next + 1), none, val, parent⟩) rightHeap
      (some heap.next) right rightSlots) :
    Built heap
      (rightHeap.set heap.next ⟨some (heap.next + 1), some leftHeap.next, val, parent⟩) parent
      (.node val left right) (.node ⟨heap.next, val⟩ leftSlots rightSlots) := by
  have isBefore : heap.next < leftHeap.next := Nat.lt_of_succ_lt atLeft.grows
  have grows : leftHeap.next < rightHeap.next := atRight.grows
  have ofLeft : ∀ addr, HasAddr leftSlots addr → heap.next < addr ∧ addr < leftHeap.next :=
    fun addr isLeft => atLeft.fresh addr isLeft
  have ofRight : ∀ addr, HasAddr rightSlots addr → leftHeap.next ≤ addr ∧ addr < rightHeap.next :=
    fun addr isRight => atRight.fresh addr isRight
  -- What the second half leaves of the first half.
  have stays : Arena.SameOn (fun addr => addr ≠ heap.next ∧ addr < leftHeap.next) leftHeap
      (rightHeap.set heap.next ⟨some (heap.next + 1), some leftHeap.next, val, parent⟩) := by
    have linked : Arena.SameOn (fun addr => addr ≠ heap.next ∧ addr < leftHeap.next) leftHeap
        (leftHeap.set heap.next ⟨some (heap.next + 1), none, val, parent⟩) :=
      (Arena.sameOn_set _).mono fun _ isKept => isKept.1
    have built : Arena.SameOn (fun addr => addr ≠ heap.next ∧ addr < leftHeap.next)
        (leftHeap.set heap.next ⟨some (heap.next + 1), none, val, parent⟩) rightHeap :=
      atRight.others.mono fun _ isKept => isKept.2
    exact (linked.trans built).trans ((Arena.sameOn_set _).mono fun _ isKept => isKept.1)
  constructor
  · rw [BinaryTree.map, atLeft.values, atRight.values]
  · rfl
  · refine ⟨?_, ?_, ?_⟩
    · have atRoot := (atLeft.holds_linked atRight).set
        ⟨some (heap.next + 1), some leftHeap.next, val, parent⟩
      rw [atLeft.isRoot, atRight.isRoot]
      exact atRoot
    · refine atLeft.stored.of_sameOn stays ?_
      intro addr isLeft
      exact ⟨(ofLeft addr isLeft).1.ne', (ofLeft addr isLeft).2⟩
    · refine atRight.stored.of_sameOn (Arena.sameOn_set _) ?_
      intro addr isRight
      exact (isBefore.trans_le (ofRight addr isRight).1).ne'
  · rw [addrs_node_iff]
    refine ⟨⟨atLeft.addrs, atRight.addrs⟩, ?_, ?_⟩
    · intro addr isLeft
      refine ⟨(ofLeft addr isLeft).1.ne', ?_⟩
      intro isRight
      exact absurd (ofRight addr isRight).1 (ofLeft addr isLeft).2.not_ge
    · intro isRight
      exact absurd (ofRight _ isRight).1 isBefore.not_ge
  · intro addr isAddr
    rcases hasAddr_node.mp isAddr with rfl | isLeft | isRight
    · exact ⟨le_refl _, isBefore.trans grows⟩
    · exact ⟨(ofLeft addr isLeft).1.le, (ofLeft addr isLeft).2.trans grows⟩
    · exact ⟨isBefore.le.trans (ofRight addr isRight).1, (ofRight addr isRight).2⟩
  · have created := (Arena.sameOn_alloc heap (Node.new val parent)).trans
      (atLeft.others.mono fun addr isOld => Nat.lt_succ_of_lt isOld)
    refine created.trans (stays.mono ?_)
    intro addr isOld
    exact ⟨isOld.ne, isOld.trans isBefore⟩
  · exact atRight.strays.trans atLeft.strays
  · exact isBefore.trans grows

end

/-- `build_tree` fails no assertion and stores the full tree. -/
theorem exists_buildTree (centred : Centred depth val) (inRange : InRange depth val)
    (parent : Option ℕ) (heap : Heap) :
    ∃ next slots, buildTree depth val parent heap = .ok (heap.next, next) ∧
      Built heap next parent (fullTree depth val) slots := by
  induction depth generalizing val parent heap with
  | zero =>
      have isOdd : val.tmod 2 = 1 := by
        rw [centred_zero_iff] at centred
        rw [Int.tmod_eq_emod_of_nonneg (by linarith [inRange.1])]
        exact centred
      refine ⟨_, _, ?_, built_leaf heap parent val⟩
      rw [buildTree, inRange.shifted, ok_bind, centred.tmod, require_true, ok_bind]
      dsimp only
      rw [Arena.alloc_fst, deref_of_holds (Arena.holds_alloc heap _), ok_bind]
      dsimp only
      rw [isOdd]
      rfl
  | succ depth ih =>
      rcases centred.children with ⟨centredLeft, centredRight⟩
      rcases inRange.children with ⟨inRangeLeft, inRangeRight⟩
      rcases ih centredLeft inRangeLeft (some heap.next) (heap.alloc (Node.new val parent)).2 with
        ⟨leftHeap, leftSlots, buildsLeft, atLeft⟩
      rcases ih centredRight inRangeRight (some heap.next)
        (leftHeap.set heap.next ⟨some (heap.next + 1), none, val, parent⟩) with
        ⟨rightHeap, rightSlots, buildsRight, atRight⟩
      refine ⟨_, _, ?_, built_node atLeft atRight⟩
      rw [buildTree, inRange.shifted, ok_bind, centred.tmod, require_true, ok_bind]
      dsimp only
      rw [Arena.alloc_fst, inRangeLeft.shifted, ok_bind, inRangeLeft.toInt, ok_bind, buildsLeft,
        ok_bind]
      dsimp only
      rw [store_of_holds atLeft.holds_root, ok_bind, inRangeRight.toInt, ok_bind]
      have linked : leftHeap.set heap.next
          { Node.new val parent with left := some (heap.alloc (Node.new val parent)).2.next } =
            leftHeap.set heap.next ⟨some (heap.next + 1), none, val, parent⟩ := rfl
      rw [linked, buildsRight, ok_bind]
      dsimp only
      rw [store_of_holds (atLeft.holds_linked atRight)]
      rfl

end

end Datamime.Microbenchmark
