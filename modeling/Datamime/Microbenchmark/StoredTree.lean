/-
# Trees in the heap

A tree is stored where each of its nodes is, with links to its children and to its parent. A call
of `build_tree` stores the full tree, and a call of `delete_if_leaf` leaves the tree without the
leaf with the key.
-/

import Datamime.Math.SearchTree
import Datamime.Microbenchmark.Tree

namespace Datamime.Microbenchmark

open Datamime.Math Datamime.Math.SearchTree

/-- A node's address and value. -/
structure Slot where
  addr : ℕ
  val : ℤ

/-- The link to the root of a tree. -/
def link : BinaryTree Slot → Option ℕ
  | .nil => none
  | .node slot _ _ => some slot.addr

/-- The nodes of the tree are there, and are linked to each other and to the parent. -/
def Stored (heap : Heap) (parent : Option ℕ) : BinaryTree Slot → Prop
  | .nil => True
  | .node slot left right =>
      heap.Holds slot.addr ⟨link left, link right, slot.val, parent⟩ ∧
        Stored heap (some slot.addr) left ∧ Stored heap (some slot.addr) right

/-- The address of a node of the tree. -/
def HasAddr (tree : BinaryTree Slot) (addr : ℕ) : Prop := addr ∈ inorder (tree.map Slot.addr)

/-- The tree with the values is stored from the root on, each node at its own address. -/
def Represents (heap : Heap) (root : ℕ) (tree : BinaryTree ℤ) : Prop :=
  ∃ slots : BinaryTree Slot, slots.map Slot.val = tree ∧ link slots = some root ∧
    Stored heap none slots ∧ (inorder (slots.map Slot.addr)).Nodup ∧
    ∀ addr, HasAddr slots addr → addr < heap.next

section

variable {heap next : Heap} {parent : Option ℕ} {slot : Slot} {left right tree : BinaryTree Slot}
  {addr root : ℕ} {key : ℤ} {calls : ℕ} {kept : ℕ → Prop}

theorem hasAddr_node : HasAddr (.node slot left right) addr ↔
    addr = slot.addr ∨ HasAddr left addr ∨ HasAddr right addr := by
  rw [HasAddr, BinaryTree.map, inorder, List.mem_append, List.mem_cons]
  exact or_left_comm

/-- A tree whose nodes are as they were is still stored. -/
theorem Stored.of_sameOn (stored : Stored heap parent tree) (same : Arena.SameOn kept heap next)
    (within : ∀ addr, HasAddr tree addr → kept addr) : Stored next parent tree := by
  induction tree generalizing parent with
  | nil => exact trivial
  | node slot left right ihLeft ihRight =>
      rcases stored with ⟨atRoot, atLeft, atRight⟩
      refine ⟨atRoot.of_sameOn same (within _ (hasAddr_node.mpr (.inl rfl))), ?_, ?_⟩
      · exact ihLeft atLeft fun addr isLeft => within addr (hasAddr_node.mpr (.inr (.inl isLeft)))
      · exact ihRight atRight fun addr isRight =>
          within addr (hasAddr_node.mpr (.inr (.inr isRight)))

/-! ## Single operations -/

theorem deref_of_holds {node : Node} (holds : heap.Holds addr node) :
    deref heap (some addr) = .ok (node, heap) := by
  rw [deref, Option.bind_some, holds.read]

theorem store_of_holds {node : Node} (holds : heap.Holds addr node) (f : Node → Node) :
    store heap (some addr) f = .ok (heap.set addr (f node)) := by
  rw [store, Option.bind_some, holds.modify]

theorem deleteNode_of_holds {node : Node} (holds : heap.Holds addr node) :
    deleteNode heap (some addr) = .ok (heap.remove addr) := by
  rw [deleteNode, holds.delete]

/-- The link of a deleted leaf is followed. -/
theorem deref_removed {node : Node} (holds : heap.Holds addr node) :
    deref (heap.remove addr) (some addr) = .ok (node, (heap.remove addr).note addr) := by
  rw [deref, Option.bind_some, holds.read_remove]

/-! ## A key that is at no leaf -/

theorem isLeaf_links :
    (Node.mk (link left) (link right) slot.val parent).isLeaf = (isNil left && isNil right) := by
  rw [Node.isLeaf]
  cases left <;> cases right <;> rfl

theorem deleteFrom_none (enough : 0 < calls) : deleteFrom calls heap none key = .ok heap := by
  cases calls with
  | zero => cases enough
  | succ calls => rfl

/-- At a node whose value is another one, the search goes on below it. -/
theorem deleteFrom_node (stored : Stored heap parent (.node slot left right))
    (different : key ≠ slot.val) :
    deleteFrom (calls + 1) heap (some slot.addr) key =
      deleteFrom calls heap (link (if slot.val < key then right else left)) key := by
  rw [deleteFrom, deref_of_holds stored.1]
  simp only [ok_bind]
  rw [if_neg different]
  split <;> rfl

/-- Where no leaf holds the key, nothing changes. -/
theorem deleteFrom_of_not_mem (stored : Stored heap parent tree)
    (notLeaf : key ∉ leaves (tree.map Slot.val)) (enough : tree.height < calls) :
    deleteFrom calls heap (link tree) key = .ok heap := by
  induction tree generalizing parent calls with
  | nil => exact deleteFrom_none (Nat.zero_lt_of_lt enough)
  | node slot left right ihLeft ihRight =>
      cases calls with
      | zero => cases enough
      | succ calls =>
          rw [BinaryTree.height] at enough
          rw [BinaryTree.map, leaves, isNil_map, isNil_map] at notLeaf
          by_cases same : key = slot.val
          · -- The node is not a leaf.
            rw [link, deleteFrom, deref_of_holds stored.1]
            simp only [ok_bind, isLeaf_links]
            rw [if_pos same, if_neg]
            · rfl
            · intro alone
              rw [if_pos alone] at notLeaf
              exact notLeaf (List.mem_singleton.mpr same)
          · have below : key ∉ leaves (left.map Slot.val) ∧ key ∉ leaves (right.map Slot.val) := by
              by_cases alone : (isNil left && isNil right) = true
              · rw [Bool.and_eq_true, isNil_iff, isNil_iff] at alone
                rcases alone with ⟨rfl, rfl⟩
                simp [leaves, BinaryTree.map]
              · rw [if_neg alone, List.mem_append, not_or] at notLeaf
                exact notLeaf
            rw [link, deleteFrom_node stored same]
            split
            · exact ihRight stored.2.2 below.2 (by omega)
            · exact ihLeft stored.2.1 below.1 (by omega)

/-- The root is not deleted. -/
theorem deleteFrom_root (stored : Stored heap none (.node slot left right)) :
    deleteFrom (calls + 1) heap (some slot.addr) slot.val = .ok heap := by
  rw [deleteFrom, deref_of_holds stored.1]
  simp only [ok_bind]
  rw [if_pos trivial]
  split <;> rfl

/-! ## A key at a leaf -/

/-- The node without its link to a child. -/
def Node.without (node : Node) (addr : ℕ) : Node :=
  if node.left = some addr then { node with left := none } else { node with right := none }

/-- The heap after a leaf is deleted and the link of its parent is cleared. -/
def unlinked (heap : Heap) (addr above : ℕ) (node : Node) : Heap :=
  ((heap.remove addr).note addr).set above (node.without addr)

theorem sameOn_unlinked {above : ℕ} {node : Node} :
    Arena.SameOn (fun other => other ≠ addr ∧ other ≠ above) heap
      (unlinked heap addr above node) := by
  have removed : Arena.SameOn (fun other => other ≠ addr ∧ other ≠ above) heap
      ((heap.remove addr).note addr) :=
    (Arena.sameOn_remove.mono fun _ different => different.1).trans Arena.sameOn_note
  exact removed.trans ((Arena.sameOn_set _).mono fun _ different => different.2)

theorem holds_unlinked {above : ℕ} {node : Node} (holds : heap.Holds above node)
    (different : above ≠ addr) :
    (unlinked heap addr above node).Holds above (node.without addr) := by
  have stays : ((heap.remove addr).note addr).Holds above node :=
    holds.of_sameOn (Arena.sameOn_remove.trans Arena.sameOn_note) different
  exact stays.set _

/-- A leaf with the key is deleted, and its parent's link to it is cleared. -/
theorem deleteFrom_leaf {above : ℕ} {node : Node}
    (atLeaf : heap.Holds slot.addr (Node.new slot.val (some above)))
    (atParent : heap.Holds above node) (different : above ≠ slot.addr)
    (isChild : node.left = some slot.addr ∨ node.right = some slot.addr) :
    deleteFrom (calls + 1) heap (some slot.addr) slot.val =
      .ok (unlinked heap slot.addr above node) := by
  have stays : ((heap.remove slot.addr).note slot.addr).Holds above node :=
    atParent.of_sameOn (Arena.sameOn_remove.trans Arena.sameOn_note) different
  have isLeaf : (Node.new slot.val (some above)).isLeaf = true := rfl
  have isVal : slot.val = (Node.new slot.val (some above)).val := rfl
  rw [deleteFrom, deref_of_holds atLeaf, ok_bind]
  dsimp only
  rw [if_pos isVal, if_pos isLeaf]
  dsimp only [Node.new]
  rw [deref_of_holds atParent, ok_bind]
  dsimp only
  rw [unlinked, Node.without]
  by_cases isLeft : node.left = some slot.addr
  · rw [if_pos isLeft, if_pos isLeft, isLeft, deleteNode_of_holds atLeaf]
    simp only [ok_bind, deref_removed atLeaf]
    exact store_of_holds stays _
  · rw [if_neg isLeft, if_neg isLeft, isChild.resolve_left isLeft, deleteNode_of_holds atLeaf]
    simp only [ok_bind, deref_removed atLeaf]
    exact store_of_holds stays _

/-- What a call leaves that deletes a leaf below the root. -/
structure Deleted (heap next : Heap) (parent : Option ℕ) (tree : BinaryTree Slot) (key : ℤ) :
    Prop where
  stored : Stored next parent (dropNonRootLeaves (fun slot => slot.val = key) tree)
  others : Arena.SameOn (fun addr => ¬ HasAddr tree addr) heap next
  size : next.next = heap.next
  stray : ∃ gone, next.strays = heap.strays ++ [gone]

theorem dropLeaves_of_not_mem (notLeaf : key ∉ leaves (tree.map Slot.val)) :
    dropLeaves (fun slot : Slot => slot.val = key) tree = tree := by
  apply dropLeaves_eq_self
  intro leaf isLeaf
  simp only [decide_eq_false_iff_not]
  rintro rfl
  apply notLeaf
  rw [leaves_map]
  exact List.mem_map_of_mem isLeaf

/-- The addresses of a node and of its children are different ones. -/
theorem addrs_node_iff : (inorder ((BinaryTree.node slot left right).map Slot.addr)).Nodup ↔
    ((inorder (left.map Slot.addr)).Nodup ∧ (inorder (right.map Slot.addr)).Nodup) ∧
      (∀ addr, HasAddr left addr → addr ≠ slot.addr ∧ ¬ HasAddr right addr) ∧
        ¬ HasAddr right slot.addr :=
  nodup_node_iff

/-- A value that is at a leaf of one child is not at the node, and at no leaf of the other child. -/
theorem mem_left_of_ordered {val : ℤ} {left right : BinaryTree ℤ}
    (ordered : Ordered (.node val left right)) (atLeft : key ∈ leaves left) :
    key < val ∧ key ∉ leaves right := by
  rcases List.pairwise_append.mp ordered with ⟨_, _, below⟩
  have isLess := below key (leaves_subset left atLeft)
  refine ⟨isLess val List.mem_cons_self, ?_⟩
  intro atRight
  have less := isLess key (List.mem_cons_of_mem val (leaves_subset right atRight))
  exact lt_irrefl key less

theorem mem_right_of_ordered {val : ℤ} {left right : BinaryTree ℤ}
    (ordered : Ordered (.node val left right)) (atRight : key ∈ leaves right) :
    val < key ∧ key ∉ leaves left := by
  rcases List.pairwise_append.mp ordered with ⟨_, above, below⟩
  refine ⟨(List.pairwise_cons.mp above).1 key (leaves_subset right atRight), ?_⟩
  intro atLeft
  have less := below key (leaves_subset left atLeft) key
    (List.mem_cons_of_mem val (leaves_subset right atRight))
  exact lt_irrefl key less

theorem Ordered.children {val : ℤ} {left right : BinaryTree ℤ}
    (ordered : Ordered (.node val left right)) : Ordered left ∧ Ordered right := by
  rcases List.pairwise_append.mp ordered with ⟨atLeft, atRight, _⟩
  exact ⟨atLeft, (List.pairwise_cons.mp atRight).2⟩

/-- The child with the key is a leaf, or the leaf is further below. -/
theorem child_cases {child : BinaryTree Slot} (isLeaf : key ∈ leaves (child.map Slot.val)) :
    (∃ leaf, child = .node leaf .nil .nil ∧ leaf.val = key) ∨
      ∃ slot left right, child = .node slot left right ∧ ¬ (left = .nil ∧ right = .nil) ∧
        key ∈ nonRootLeaves (child.map Slot.val) := by
  cases child with
  | nil => cases isLeaf
  | node slot left right =>
      by_cases alone : left = .nil ∧ right = .nil
      · rcases alone with ⟨rfl, rfl⟩
        left
        exact ⟨slot, rfl, (List.mem_singleton.mp isLeaf).symm⟩
      · right
        refine ⟨slot, left, right, rfl, alone, ?_⟩
        rw [BinaryTree.map, leaves_node] at isLeaf
        · exact isLeaf
        · simpa [← isNil_iff] using alone

theorem hasAddr_of_link (isLinked : link tree = some addr) : HasAddr tree addr := by
  cases tree with
  | nil => cases isLinked
  | node slot left right =>
      cases isLinked
      exact hasAddr_node.mpr (.inl rfl)

theorem dropLeaves_leaf {leaf : Slot} :
    dropLeaves (fun slot : Slot => slot.val = leaf.val) (.node leaf .nil .nil) = .nil := by
  simp [dropLeaves, isNil]

/-- A leaf to the left of the root is deleted. -/
theorem deleted_left_leaf {leaf : Slot}
    (stored : Stored heap parent (.node slot (.node leaf .nil .nil) right))
    (addrs : (inorder ((BinaryTree.node slot (.node leaf .nil .nil) right).map Slot.addr)).Nodup)
    (notLeaf : leaf.val ∉ leaves (right.map Slot.val)) :
    Deleted heap (unlinked heap leaf.addr slot.addr ⟨some leaf.addr, link right, slot.val, parent⟩)
      parent (.node slot (.node leaf .nil .nil) right) leaf.val := by
  rcases addrs_node_iff.mp addrs with ⟨_, others, notRight⟩
  rcases others leaf.addr (hasAddr_node.mpr (.inl rfl)) with ⟨different, leafAway⟩
  constructor
  · rw [dropNonRootLeaves, dropLeaves_of_not_mem notLeaf, dropLeaves_leaf]
    refine ⟨?_, trivial, ?_⟩
    · have atRoot := holds_unlinked stored.1 different.symm
      rw [link, Node.without, if_pos rfl] at atRoot
      exact atRoot
    · refine stored.2.2.of_sameOn sameOn_unlinked ?_
      intro addr isRight
      constructor
      · rintro rfl
        exact leafAway isRight
      · rintro rfl
        exact notRight isRight
  · refine sameOn_unlinked.mono ?_
    intro addr isAway
    rw [hasAddr_node, hasAddr_node, not_or, not_or, not_or] at isAway
    exact ⟨isAway.2.1.1, isAway.1⟩
  · rfl
  · exact ⟨leaf.addr, rfl⟩

/-- A leaf to the right of the root is deleted. -/
theorem deleted_right_leaf {leaf : Slot}
    (stored : Stored heap parent (.node slot left (.node leaf .nil .nil)))
    (addrs : (inorder ((BinaryTree.node slot left (.node leaf .nil .nil)).map Slot.addr)).Nodup)
    (notLeaf : leaf.val ∉ leaves (left.map Slot.val)) :
    Deleted heap (unlinked heap leaf.addr slot.addr ⟨link left, some leaf.addr, slot.val, parent⟩)
      parent (.node slot left (.node leaf .nil .nil)) leaf.val := by
  rcases addrs_node_iff.mp addrs with ⟨_, others, notRight⟩
  have leafRight : HasAddr (.node leaf .nil .nil) leaf.addr := hasAddr_node.mpr (.inl rfl)
  have different : slot.addr ≠ leaf.addr := by
    intro same
    rw [same] at notRight
    exact notRight leafRight
  have notLinked : link left ≠ some leaf.addr := by
    intro isLinked
    exact (others leaf.addr (hasAddr_of_link isLinked)).2 leafRight
  constructor
  · rw [dropNonRootLeaves, dropLeaves_of_not_mem notLeaf, dropLeaves_leaf]
    refine ⟨?_, ?_, trivial⟩
    · have atRoot := holds_unlinked stored.1 different
      rw [Node.without, if_neg notLinked] at atRoot
      exact atRoot
    · refine stored.2.1.of_sameOn sameOn_unlinked ?_
      intro addr isLeft
      rcases others addr isLeft with ⟨notRoot, notLeaf⟩
      refine ⟨?_, notRoot⟩
      rintro rfl
      exact notLeaf leafRight
  · refine sameOn_unlinked.mono ?_
    intro addr isAway
    rw [hasAddr_node, hasAddr_node, not_or, not_or, not_or] at isAway
    exact ⟨isAway.2.2.1, isAway.1⟩
  · rfl
  · exact ⟨leaf.addr, rfl⟩

/-- A tree whose root has a child keeps its root. -/
theorem link_dropLeaves {drop : Slot → Bool} (hasChild : ¬ (left = .nil ∧ right = .nil)) :
    link (dropLeaves drop (.node slot left right)) = some slot.addr := by
  rw [dropLeaves_node hasChild]
  rfl

/-- A leaf further below is deleted, in the left child. -/
theorem Deleted.of_left {child : Slot} {first second : BinaryTree Slot}
    (deleted : Deleted heap next (some slot.addr) (.node child first second) key)
    (hasChild : ¬ (first = .nil ∧ second = .nil))
    (stored : Stored heap parent (.node slot (.node child first second) right))
    (addrs : (inorder ((BinaryTree.node slot (.node child first second) right).map
      Slot.addr)).Nodup)
    (notLeaf : key ∉ leaves (right.map Slot.val)) :
    Deleted heap next parent (.node slot (.node child first second) right) key := by
  rcases addrs_node_iff.mp addrs with ⟨_, others, notRight⟩
  constructor
  · rw [dropNonRootLeaves, dropLeaves_of_not_mem notLeaf]
    refine ⟨?_, ?_, ?_⟩
    · rw [link_dropLeaves hasChild]
      refine stored.1.of_sameOn deleted.others ?_
      intro isLeft
      exact (others slot.addr isLeft).1 rfl
    · rw [dropLeaves_node hasChild]
      exact deleted.stored
    · refine stored.2.2.of_sameOn deleted.others ?_
      intro addr isRight isLeft
      exact (others addr isLeft).2 isRight
  · refine deleted.others.mono ?_
    intro addr isAway isLeft
    exact isAway (hasAddr_node.mpr (.inr (.inl isLeft)))
  · exact deleted.size
  · exact deleted.stray

/-- A leaf further below is deleted, in the right child. -/
theorem Deleted.of_right {child : Slot} {first second : BinaryTree Slot}
    (deleted : Deleted heap next (some slot.addr) (.node child first second) key)
    (hasChild : ¬ (first = .nil ∧ second = .nil))
    (stored : Stored heap parent (.node slot left (.node child first second)))
    (addrs : (inorder ((BinaryTree.node slot left (.node child first second)).map
      Slot.addr)).Nodup)
    (notLeaf : key ∉ leaves (left.map Slot.val)) :
    Deleted heap next parent (.node slot left (.node child first second)) key := by
  rcases addrs_node_iff.mp addrs with ⟨_, others, notRight⟩
  constructor
  · rw [dropNonRootLeaves, dropLeaves_of_not_mem notLeaf]
    refine ⟨?_, ?_, ?_⟩
    · rw [link_dropLeaves hasChild]
      exact stored.1.of_sameOn deleted.others notRight
    · refine stored.2.1.of_sameOn deleted.others ?_
      intro addr isLeft
      exact (others addr isLeft).2
    · rw [dropLeaves_node hasChild]
      exact deleted.stored
  · refine deleted.others.mono ?_
    intro addr isAway isRight
    exact isAway (hasAddr_node.mpr (.inr (.inr isRight)))
  · exact deleted.size
  · exact deleted.stray

/-- Where a leaf below the root holds the key, it is deleted. -/
theorem exists_deleteFrom (stored : Stored heap parent tree) (isRoot : link tree = some root)
    (addrs : (inorder (tree.map Slot.addr)).Nodup) (ordered : Ordered (tree.map Slot.val))
    (isLeaf : key ∈ nonRootLeaves (tree.map Slot.val)) (enough : tree.height < calls) :
    ∃ next, deleteFrom calls heap (some root) key = .ok next ∧
      Deleted heap next parent tree key := by
  induction tree generalizing parent calls root with
  | nil => cases isLeaf
  | node slot left right ihLeft ihRight =>
      cases isRoot
      rcases addrs_node_iff.mp addrs with ⟨⟨addrsLeft, addrsRight⟩, others, notRight⟩
      rcases Ordered.children ordered with ⟨orderedLeft, orderedRight⟩
      rw [BinaryTree.height] at enough
      rcases Nat.exists_eq_add_one_of_ne_zero (Nat.ne_zero_of_lt enough) with ⟨calls, rfl⟩
      have enoughLeft : left.height < calls := by omega
      have enoughRight : right.height < calls := by omega
      rcases List.mem_append.mp isLeaf with atLeft | atRight
      · rcases mem_left_of_ordered ordered atLeft with ⟨isLess, notLeaf⟩
        rw [deleteFrom_node stored isLess.ne, if_neg isLess.le.not_gt]
        rcases child_cases atLeft with ⟨leaf, rfl, rfl⟩ | ⟨child, _, _, rfl, hasChild, isBelow⟩
        · rcases Nat.exists_eq_add_one_of_ne_zero (Nat.ne_zero_of_lt enoughLeft) with ⟨calls, rfl⟩
          have different := (others leaf.addr (hasAddr_node.mpr (.inl rfl))).1
          refine ⟨_, deleteFrom_leaf stored.2.1.1 stored.1 different.symm (.inl rfl), ?_⟩
          exact deleted_left_leaf stored addrs notLeaf
        · rcases ihLeft stored.2.1 rfl addrsLeft orderedLeft isBelow enoughLeft with
            ⟨next, deletes, deleted⟩
          exact ⟨next, deletes, deleted.of_left hasChild stored addrs notLeaf⟩
      · rcases mem_right_of_ordered ordered atRight with ⟨isLess, notLeaf⟩
        rw [deleteFrom_node stored isLess.ne', if_pos isLess]
        rcases child_cases atRight with ⟨leaf, rfl, rfl⟩ | ⟨child, _, _, rfl, hasChild, isBelow⟩
        · rcases Nat.exists_eq_add_one_of_ne_zero (Nat.ne_zero_of_lt enoughRight) with ⟨calls, rfl⟩
          have different : slot.addr ≠ leaf.addr := by
            intro same
            rw [same] at notRight
            exact notRight (hasAddr_node.mpr (.inl rfl))
          refine ⟨_, deleteFrom_leaf stored.2.2.1 stored.1 different (.inr rfl), ?_⟩
          exact deleted_right_leaf stored addrs notLeaf
        · rcases ihRight stored.2.2 rfl addrsRight orderedRight isBelow enoughRight with
            ⟨next, deletes, deleted⟩
          exact ⟨next, deletes, deleted.of_right hasChild stored addrs notLeaf⟩

/-! ## A call for a tree -/

/-- A tree is not higher than the number of nodes that were created. -/
theorem height_le_next (addrs : (inorder (tree.map Slot.addr)).Nodup)
    (within : ∀ addr, HasAddr tree addr → addr < heap.next) : tree.height ≤ heap.next := by
  have isPart : inorder (tree.map Slot.addr) ⊆ List.range heap.next := by
    intro addr isAddr
    exact List.mem_range.mpr (within addr isAddr)
  have fewer := (addrs.subperm isPart).length_le
  rw [inorder_map, List.length_map, length_inorder, List.length_range] at fewer
  exact tree.height_le_numNodes.trans fewer

/-- What a call of `delete_if_leaf` leaves. -/
structure Called (heap next : Heap) (root : ℕ) (tree : BinaryTree ℤ) (key : ℤ) : Prop where
  represents : Represents next root (dropNonRootLeaves (· = key) tree)
  of_mem : key ∈ nonRootLeaves tree → ∃ gone, next.strays = heap.strays ++ [gone]
  of_not_mem : key ∉ nonRootLeaves tree → next = heap

theorem deleteIfLeaf_of_not_mem {tree : BinaryTree ℤ} (represents : Represents heap root tree)
    (notLeaf : key ∉ nonRootLeaves tree) : deleteIfLeaf heap root key = .ok heap := by
  rcases represents with ⟨slots, rfl, isRoot, stored, addrs, within⟩
  have enough := Nat.lt_succ_of_le (height_le_next addrs within)
  rw [deleteIfLeaf, ← isRoot]
  by_cases isLeaf : key ∈ leaves (slots.map Slot.val)
  · rcases child_cases isLeaf with ⟨leaf, rfl, rfl⟩ | ⟨_, _, _, _, _, isBelow⟩
    · exact deleteFrom_root stored
    · exact absurd isBelow notLeaf
  · exact deleteFrom_of_not_mem stored isLeaf enough

theorem exists_deleteIfLeaf {tree : BinaryTree ℤ} (represents : Represents heap root tree)
    (ordered : Ordered tree) (key : ℤ) :
    ∃ next, deleteIfLeaf heap root key = .ok next ∧ Called heap next root tree key := by
  by_cases isLeaf : key ∈ nonRootLeaves tree
  · rcases represents with ⟨slots, rfl, isRoot, stored, addrs, within⟩
    have enough := Nat.lt_succ_of_le (height_le_next addrs within)
    rcases exists_deleteFrom stored isRoot addrs ordered isLeaf enough with ⟨next, deletes, deleted⟩
    have fewer : (inorder ((dropNonRootLeaves (fun slot => slot.val = key) slots).map
        Slot.addr)).Sublist (inorder (slots.map Slot.addr)) := by
      rw [inorder_map, inorder_map]
      exact (pruned_dropNonRootLeaves slots).sublist.map _
    refine ⟨next, deletes, ?_, fun _ => deleted.stray, fun notLeaf => absurd isLeaf notLeaf⟩
    refine ⟨_, (dropNonRootLeaves_map _ _ _).symm, ?_, deleted.stored, addrs.sublist fewer, ?_⟩
    · cases slots with
      | nil => cases isRoot
      | node slot left right => exact isRoot
    · intro addr isAddr
      rw [deleted.size]
      exact within addr (fewer.subset isAddr)
  · refine ⟨heap, deleteIfLeaf_of_not_mem represents isLeaf, ?_, ?_, fun _ => rfl⟩
    · rw [dropNonRootLeaves_of_not_mem isLeaf]
      exact represents
    · exact fun isBelow => absurd isBelow isLeaf

/-- What is stored behind a link is one tree. -/
theorem stored_unique {other : BinaryTree Slot} (stored : Stored heap parent tree)
    (others : Stored heap parent other) (same : link tree = link other) : tree = other := by
  induction tree generalizing parent other with
  | nil =>
      cases other with
      | nil => rfl
      | node _ _ _ => cases same
  | node slot left right ihLeft ihRight =>
      cases other with
      | nil => cases same
      | node second secondLeft secondRight =>
          rcases slot with ⟨addr, val⟩
          rcases second with ⟨secondAddr, secondVal⟩
          cases same
          have cells := stored.1.cell.symm.trans others.1.cell
          simp only [Option.some_inj, Node.mk.injEq] at cells
          rcases cells with ⟨sameLeft, sameRight, rfl, _⟩
          rw [ihLeft stored.2.1 others.2.1 sameLeft, ihRight stored.2.2 others.2.2 sameRight]

theorem Represents.unique {first second : BinaryTree ℤ} (one : Represents heap root first)
    (other : Represents heap root second) : first = second := by
  rcases one with ⟨slots, rfl, isRoot, stored, _⟩
  rcases other with ⟨others, rfl, otherRoot, otherStored, _⟩
  rw [stored_unique stored otherStored (isRoot.trans otherRoot.symm)]

end

end Datamime.Microbenchmark
