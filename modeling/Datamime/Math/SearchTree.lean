/-
# Removing leaves of a tree

A tree from which only leaves are removed, one after the other, stays a part of the tree at its
root. So the values that remain stay in order, and with a value the values above it remain.
-/

import Mathlib.Data.List.Nodup
import Mathlib.Data.Tree.Basic
import Mathlib.Tactic

namespace Datamime.Math.SearchTree

universe u v

variable {α : Type u} {β : Type v}

/-! ## Values in order, and at the leaves -/

def inorder : BinaryTree α → List α
  | .nil => []
  | .node value left right => inorder left ++ value :: inorder right

def isNil : BinaryTree α → Bool
  | .nil => true
  | .node _ _ _ => false

/-- The values at the nodes without children. -/
def leaves : BinaryTree α → List α
  | .nil => []
  | .node value left right =>
      if isNil left && isNil right then [value] else leaves left ++ leaves right

/-- The values at the leaves other than the root. -/
def nonRootLeaves : BinaryTree α → List α
  | .nil => []
  | .node _ left right => leaves left ++ leaves right

/-- The tree without the leaves that are to be dropped. -/
def dropLeaves (drop : α → Bool) : BinaryTree α → BinaryTree α
  | .nil => .nil
  | .node value left right =>
      if isNil left && isNil right && drop value then .nil
      else .node value (dropLeaves drop left) (dropLeaves drop right)

/-- The same, but the root stays. -/
def dropNonRootLeaves (drop : α → Bool) : BinaryTree α → BinaryTree α
  | .nil => .nil
  | .node value left right => .node value (dropLeaves drop left) (dropLeaves drop right)

/-- The values increase. -/
def Ordered [LT α] (tree : BinaryTree α) : Prop := (inorder tree).Pairwise (· < ·)

/-- A part of a tree that has the root of every part that it has something of. -/
inductive Pruned : BinaryTree α → BinaryTree α → Prop
  | nil (tree : BinaryTree α) : Pruned .nil tree
  | node {value : α} {left right fewerLeft fewerRight : BinaryTree α}
      (atLeft : Pruned fewerLeft left) (atRight : Pruned fewerRight right) :
      Pruned (.node value fewerLeft fewerRight) (.node value left right)

/-- One value stands above another one. -/
def Above (upper lower : α) : BinaryTree α → Prop
  | .nil => False
  | .node value left right =>
      value = upper ∧ (lower ∈ inorder left ∨ lower ∈ inorder right) ∨
        Above upper lower left ∨ Above upper lower right

/-- With a value of the tree, all values above it are there. -/
def AncestorClosed (full tree : BinaryTree α) : Prop :=
  ∀ upper lower, Above upper lower full → lower ∈ inorder tree → upper ∈ inorder tree

/-- What is left when a value is removed that stands at a leaf other than the root. Where it does
not stand there, nothing changes. -/
structure Removes [DecidableEq α] (value : α) (tree next : BinaryTree α) : Prop where
  of_mem : value ∈ nonRootLeaves tree → inorder next = (inorder tree).erase value ∧ Pruned next tree
  of_not_mem : value ∉ nonRootLeaves tree → next = tree

/-! ## Leaves -/

theorem isNil_iff {tree : BinaryTree α} : isNil tree = true ↔ tree = .nil := by
  cases tree <;> simp [isNil]

theorem leaves_subset (tree : BinaryTree α) : leaves tree ⊆ inorder tree := by
  induction tree with
  | nil => simp [leaves]
  | node value left right ihLeft ihRight =>
      intro leaf isLeaf
      rw [leaves] at isLeaf
      rw [inorder, List.mem_append, List.mem_cons]
      split at isLeaf
      · exact .inr (.inl (List.mem_singleton.mp isLeaf))
      · rcases List.mem_append.mp isLeaf with atLeft | atRight
        · exact .inl (ihLeft atLeft)
        · exact .inr (.inr (ihRight atRight))

/-- Below a node with children, every leaf is in one of them. -/
theorem leaves_node {value : α} {left right : BinaryTree α}
    (hasChild : ¬ (left = .nil ∧ right = .nil)) :
    leaves (.node value left right) = leaves left ++ leaves right := by
  rw [leaves, if_neg]
  simpa [isNil_iff] using hasChild

theorem nonRootLeaves_subset (tree : BinaryTree α) : nonRootLeaves tree ⊆ leaves tree := by
  cases tree with
  | nil => simp [nonRootLeaves]
  | node value left right =>
      by_cases isLeaf : left = .nil ∧ right = .nil
      · rcases isLeaf with ⟨rfl, rfl⟩
        simp [nonRootLeaves, leaves]
      · rw [leaves_node isLeaf, nonRootLeaves]
        exact List.Subset.refl _

/-! ## Parts of a tree -/

theorem Pruned.refl (tree : BinaryTree α) : Pruned tree tree := by
  induction tree with
  | nil => exact .nil _
  | node value left right ihLeft ihRight => exact .node ihLeft ihRight

theorem Pruned.trans {first second third : BinaryTree α} (fewer : Pruned first second)
    (few : Pruned second third) : Pruned first third := by
  induction fewer generalizing third with
  | nil => exact .nil _
  | node _ _ ihLeft ihRight =>
      cases few with
      | node atLeft atRight => exact .node (ihLeft atLeft) (ihRight atRight)

theorem Pruned.sublist {fewer tree : BinaryTree α} (pruned : Pruned fewer tree) :
    (inorder fewer).Sublist (inorder tree) := by
  induction pruned with
  | nil tree => exact List.nil_sublist _
  | node _ _ ihLeft ihRight => exact ihLeft.append (ihRight.cons_cons _)

theorem Ordered.of_pruned [LT α] {fewer tree : BinaryTree α} (ordered : Ordered tree)
    (pruned : Pruned fewer tree) : Ordered fewer :=
  List.Pairwise.sublist pruned.sublist ordered

theorem Ordered.nodup [Preorder α] {tree : BinaryTree α} (ordered : Ordered tree) :
    (inorder tree).Nodup :=
  List.Pairwise.imp (fun less => less.ne) ordered

theorem mem_of_above {upper lower : α} {tree : BinaryTree α} (above : Above upper lower tree) :
    lower ∈ inorder tree := by
  induction tree with
  | nil => exact above.elim
  | node value left right ihLeft ihRight =>
      rw [inorder, List.mem_append, List.mem_cons]
      rcases above with ⟨_, atLeft | atRight⟩ | atLeft | atRight
      · exact .inl atLeft
      · exact .inr (.inr atRight)
      · exact .inl (ihLeft atLeft)
      · exact .inr (.inr (ihRight atRight))

/-- A value of one child is neither that of the node nor one of the other child. -/
theorem nodup_node_iff {value : α} {left right : BinaryTree α} :
    (inorder (.node value left right)).Nodup ↔
      ((inorder left).Nodup ∧ (inorder right).Nodup) ∧
        (∀ entry ∈ inorder left, entry ≠ value ∧ entry ∉ inorder right) ∧
          value ∉ inorder right := by
  rw [inorder, List.nodup_append', List.nodup_cons, List.disjoint_cons_right]
  constructor
  · rintro ⟨atLeft, ⟨notRight, atRight⟩, notLeft, disjoint⟩
    refine ⟨⟨atLeft, atRight⟩, fun entry isEntry => ⟨?_, disjoint isEntry⟩, notRight⟩
    rintro rfl
    exact notLeft isEntry
  · rintro ⟨⟨atLeft, atRight⟩, others, notRight⟩
    refine ⟨atLeft, ⟨notRight, atRight⟩, fun isEntry => (others value isEntry).1 rfl, ?_⟩
    intro entry isEntry
    exact (others entry isEntry).2

theorem Pruned.ancestorClosed {full tree : BinaryTree α} (pruned : Pruned tree full)
    (nodup : (inorder full).Nodup) : AncestorClosed full tree := by
  intro upper lower above isThere
  induction pruned with
  | nil => cases isThere
  | @node value left right fewerLeft fewerRight atLeft atRight ihLeft ihRight =>
      rcases nodup_node_iff.mp nodup with ⟨⟨nodupLeft, nodupRight⟩, others, notRight⟩
      rw [inorder, List.mem_append, List.mem_cons] at isThere ⊢
      rcases above with ⟨rfl, _⟩ | inLeft | inRight
      · exact .inr (.inl rfl)
      · have isBelow := others lower (mem_of_above inLeft)
        rcases isThere with there | same | there
        · exact .inl (ihLeft nodupLeft inLeft there)
        · exact absurd same isBelow.1
        · exact absurd (atRight.sublist.subset there) isBelow.2
      · have isBelow := mem_of_above inRight
        rcases isThere with there | rfl | there
        · exact absurd isBelow (others lower (atLeft.sublist.subset there)).2
        · exact absurd isBelow notRight
        · exact .inr (.inr (ihRight nodupRight inRight there))

/-! ## Removing a leaf -/

section

variable {drop : α → Bool}

theorem pruned_dropLeaves (tree : BinaryTree α) : Pruned (dropLeaves drop tree) tree := by
  induction tree with
  | nil => exact .nil _
  | node value left right ihLeft ihRight =>
      rw [dropLeaves]
      split
      · exact .nil _
      · exact .node ihLeft ihRight

theorem pruned_dropNonRootLeaves (tree : BinaryTree α) :
    Pruned (dropNonRootLeaves drop tree) tree := by
  cases tree with
  | nil => exact .nil _
  | node value left right =>
      exact .node (pruned_dropLeaves left) (pruned_dropLeaves right)

theorem dropLeaves_eq_self {tree : BinaryTree α} (keeps : ∀ leaf ∈ leaves tree, drop leaf = false) :
    dropLeaves drop tree = tree := by
  induction tree with
  | nil => rfl
  | node value left right ihLeft ihRight =>
      rw [dropLeaves]
      by_cases isLeaf : left = .nil ∧ right = .nil
      · rcases isLeaf with ⟨rfl, rfl⟩
        rw [keeps value (by simp [leaves, isNil]), Bool.and_false]
        rfl
      · rw [leaves_node isLeaf] at keeps
        rw [ihLeft fun leaf isBelow => keeps leaf (List.mem_append_left _ isBelow),
          ihRight fun leaf isBelow => keeps leaf (List.mem_append_right _ isBelow), if_neg]
        intro drops
        rw [Bool.and_eq_true, Bool.and_eq_true, isNil_iff, isNil_iff] at drops
        exact isLeaf drops.1

theorem dropNonRootLeaves_eq_self {tree : BinaryTree α}
    (keeps : ∀ leaf ∈ nonRootLeaves tree, drop leaf = false) :
    dropNonRootLeaves drop tree = tree := by
  cases tree with
  | nil => rfl
  | node value left right =>
      rw [dropNonRootLeaves,
        dropLeaves_eq_self fun leaf isBelow => keeps leaf (List.mem_append_left _ isBelow),
        dropLeaves_eq_self fun leaf isBelow => keeps leaf (List.mem_append_right _ isBelow)]

/-- A tree whose root is not dropped keeps it. -/
theorem dropLeaves_node {value : α} {left right : BinaryTree α}
    (stays : ¬ (left = .nil ∧ right = .nil)) :
    dropLeaves drop (.node value left right) = dropNonRootLeaves drop (.node value left right) := by
  rw [dropLeaves, dropNonRootLeaves, if_neg]
  intro drops
  rw [Bool.and_eq_true, Bool.and_eq_true, isNil_iff, isNil_iff] at drops
  exact stays drops.1

end

section

variable [DecidableEq α] {value : α}

theorem inorder_dropLeaves {tree : BinaryTree α} (nodup : (inorder tree).Nodup)
    (isLeaf : value ∈ leaves tree) :
    inorder (dropLeaves (· = value) tree) = (inorder tree).filter (· ≠ value) := by
  induction tree with
  | nil => cases isLeaf
  | node root left right ihLeft ihRight =>
      by_cases alone : left = .nil ∧ right = .nil
      · rcases alone with ⟨rfl, rfl⟩
        have same : value = root := by simpa [leaves, isNil] using isLeaf
        simp [dropLeaves, isNil, inorder, same]
      · rcases nodup_node_iff.mp nodup with ⟨⟨nodupLeft, nodupRight⟩, others, notRight⟩
        have keeps : ∀ tree : BinaryTree α, value ∉ inorder tree →
            inorder (dropLeaves (· = value) tree) = (inorder tree).filter (· ≠ value) := by
          intro tree isAway
          rw [dropLeaves_eq_self, List.filter_eq_self.mpr]
          · intro entry isEntry
            simp only [ne_eq, decide_eq_true_eq]
            rintro rfl
            exact isAway isEntry
          · intro leaf isBelow
            simp only [decide_eq_false_iff_not]
            rintro rfl
            exact isAway (leaves_subset tree isBelow)
        rw [dropLeaves_node alone, dropNonRootLeaves, inorder, inorder, List.filter_append,
          List.filter_cons]
        rw [leaves_node alone, List.mem_append] at isLeaf
        rcases isLeaf with atLeft | atRight
        · have isBelow := others value (leaves_subset left atLeft)
          rw [ihLeft nodupLeft atLeft, keeps right isBelow.2, if_pos]
          simpa using isBelow.1.symm
        · have isBelow := leaves_subset right atRight
          rw [ihRight nodupRight atRight, keeps left fun inLeft => (others value inLeft).2 isBelow,
            if_pos]
          simp only [ne_eq, decide_eq_true_eq]
          rintro rfl
          exact notRight isBelow

theorem dropNonRootLeaves_of_not_mem {tree : BinaryTree α} (notLeaf : value ∉ nonRootLeaves tree) :
    dropNonRootLeaves (· = value) tree = tree := by
  apply dropNonRootLeaves_eq_self
  intro leaf isLeaf
  simp only [decide_eq_false_iff_not]
  rintro rfl
  exact notLeaf isLeaf

/-- Dropping a value from the leaves other than the root removes it. -/
theorem removes_dropNonRootLeaves {tree : BinaryTree α} (nodup : (inorder tree).Nodup) :
    Removes value tree (dropNonRootLeaves (· = value) tree) where
  of_mem := by
    intro isLeaf
    refine ⟨?_, pruned_dropNonRootLeaves tree⟩
    cases tree with
    | nil => cases isLeaf
    | node root left right =>
        have hasChild : ¬ (left = .nil ∧ right = .nil) := by
          rintro ⟨rfl, rfl⟩
          cases isLeaf
        rw [nodup.erase_eq_filter, ← dropLeaves_node hasChild,
          inorder_dropLeaves nodup (nonRootLeaves_subset _ isLeaf)]
        apply List.filter_congr
        intro entry _
        simp [bne, beq_eq_decide]
  of_not_mem := dropNonRootLeaves_of_not_mem

end

/-! ## Values under a map -/

section

variable (f : α → β) (tree : BinaryTree α)

theorem inorder_map : inorder (tree.map f) = (inorder tree).map f := by
  induction tree with
  | nil => rfl
  | node value left right ihLeft ihRight =>
      rw [BinaryTree.map, inorder, inorder, ihLeft, ihRight, List.map_append, List.map_cons]

@[simp]
theorem isNil_map : isNil (tree.map f) = isNil tree := by
  cases tree <;> rfl

theorem leaves_map : leaves (tree.map f) = (leaves tree).map f := by
  induction tree with
  | nil => rfl
  | node value left right ihLeft ihRight =>
      rw [BinaryTree.map, leaves, leaves, isNil_map, isNil_map, ihLeft, ihRight]
      split
      · rfl
      · rw [List.map_append]

theorem dropLeaves_map (drop : β → Bool) :
    dropLeaves drop (tree.map f) = (dropLeaves (fun value => drop (f value)) tree).map f := by
  induction tree with
  | nil => rfl
  | node value left right ihLeft ihRight =>
      rw [BinaryTree.map, dropLeaves, dropLeaves, isNil_map, isNil_map, ihLeft, ihRight]
      split <;> rfl

theorem dropNonRootLeaves_map (drop : β → Bool) :
    dropNonRootLeaves drop (tree.map f) =
      (dropNonRootLeaves (fun value => drop (f value)) tree).map f := by
  cases tree with
  | nil => rfl
  | node value left right =>
      rw [BinaryTree.map, dropNonRootLeaves, dropNonRootLeaves, dropLeaves_map, dropLeaves_map]
      rfl

theorem length_inorder : (inorder tree).length = tree.numNodes := by
  induction tree with
  | nil => rfl
  | node value left right ihLeft ihRight =>
      rw [inorder, List.length_append, List.length_cons, ihLeft, ihRight, BinaryTree.numNodes,
        Nat.add_assoc]

end

end Datamime.Math.SearchTree
