/-
# The deletions of the microbenchmark

Whatever keys are drawn, the tree stays a search tree, each call of `delete_if_leaf` removes the key
if it is at a leaf other than the root, and with a key the keys above it remain. Each call that
deletes a leaf also reads the deleted leaf. So no deleted node is accessed precisely if nothing is
deleted, and the first key that is deleted is an odd one.
-/

import Datamime.Math.Run
import Datamime.Microbenchmark.BuildTree

namespace Datamime.Microbenchmark

open Datamime.Math Datamime.Math.SearchTree

/-- A call of `delete_if_leaf` as a step of a run. -/
def deleteStep (root : ℕ) (heap : Heap) (key : ℤ) : Except Failure Heap :=
  deleteIfLeaf heap root key

/-- `build_tree` builds the search tree of the numbers from 1 on. In every state of the run, the
heap represents a search tree that has, with a key, the keys above it in the first tree. Each call
of `delete_if_leaf` removes its key if that is at a leaf other than the root, and else nothing. -/
def KeepsTree (depth : ℕ) (keys : List ℤ) : Prop :=
  ∃ root heap full, buildTree depth (2 ^ depth) none Arena.empty = .ok (root, heap) ∧
    Represents heap root full ∧ Ordered full ∧
    inorder full = (List.range (2 ^ (depth + 1) - 1)).map (fun i : ℕ => (i : ℤ) + 1) ∧
    (∃ last, run (deleteStep root) heap keys = .ok last) ∧
    AlongRun (deleteStep root) heap keys (fun _ st =>
      ∃ tree, Represents st root tree ∧ Ordered tree ∧ AncestorClosed full tree) ∧
    AtEachStep (deleteStep root) heap keys fun _ st key =>
      ∃ tree next nextTree, Represents st root tree ∧ deleteStep root st key = .ok next ∧
        Represents next root nextTree ∧ Removes key tree nextTree

/-- `do_stuff` accesses no deleted node. -/
def NeverStrays (depth : ℕ) (keys : List ℤ) : Prop :=
  ∃ steps heap, doStuff depth keys = .ok (steps, heap) ∧ heap.strays = []

/-- There is only the root, or no odd key of the tree is drawn. -/
def DrawsNoLeaf (depth : ℕ) (keys : List ℤ) : Prop :=
  depth = 0 ∨ ∀ key ∈ keys, ¬ (key % 2 = 1 ∧ 0 < key ∧ key < 2 ^ (depth + 1))

section

variable {heap : Heap} {root depth : ℕ} {tree full : BinaryTree ℤ} {key : ℤ} {keys : List ℤ}

/-! ## A run of deletions -/

/-- A part of the first tree is represented. -/
def RepresentsPart (full : BinaryTree ℤ) (root : ℕ) (heap : Heap) : Prop :=
  ∃ tree, Represents heap root tree ∧ Pruned tree full

/-- One call keeps the tree. -/
theorem exists_deleteStep (ordered : Ordered full) (part : RepresentsPart full root heap)
    (key : ℤ) :
    ∃ tree next nextTree, Represents heap root tree ∧ deleteStep root heap key = .ok next ∧
      Represents next root nextTree ∧ Removes key tree nextTree ∧ Pruned nextTree full := by
  rcases part with ⟨tree, represents, pruned⟩
  have orderedTree := ordered.of_pruned pruned
  rcases exists_deleteIfLeaf represents orderedTree key with ⟨next, deletes, called⟩
  refine ⟨tree, next, _, represents, deletes, called.represents, ?_, ?_⟩
  · exact removes_dropNonRootLeaves orderedTree.nodup
  · exact (pruned_dropNonRootLeaves tree).trans pruned

theorem representsPart_of_step (ordered : Ordered full) {next : Heap}
    (part : RepresentsPart full root heap) (stepped : deleteStep root heap key = .ok next) :
    RepresentsPart full root next := by
  rcases exists_deleteStep ordered part key with
    ⟨_, reached, tree, _, deletes, represents, _, pruned⟩
  rw [stepped] at deletes
  cases deletes
  exact ⟨tree, represents, pruned⟩

theorem alongRun_representsPart (ordered : Ordered full) (represents : Represents heap root full)
    (keys : List ℤ) :
    AlongRun (deleteStep root) heap keys fun _ st => RepresentsPart full root st :=
  alongRun_of_preserved keys ⟨full, represents, Pruned.refl full⟩
    fun _ _ _ _ part stepped => representsPart_of_step ordered part stepped

theorem exists_run_deletions (ordered : Ordered full) (part : RepresentsPart full root heap)
    (keys : List ℤ) : ∃ last, run (deleteStep root) heap keys = .ok last := by
  have total : ∀ st, RepresentsPart full root st → ∀ key ∈ keys,
      ∃ next, deleteStep root st key = .ok next ∧ RepresentsPart full root next := by
    intro st part key _
    rcases exists_deleteStep ordered part key with
      ⟨_, next, tree, _, deletes, represents, _, pruned⟩
    exact ⟨next, deletes, tree, represents, pruned⟩
  rcases exists_run_of_total total part with ⟨last, reached, _⟩
  exact ⟨last, reached⟩

/-! ## The loop of `do_stuff` -/

/-- What the loop notes of accesses to deleted nodes. -/
structure Looped (heap next : Heap) (tree : BinaryTree ℤ) (keys : List ℤ) : Prop where
  grows : heap.strays <+: next.strays
  same_iff : next.strays = heap.strays ↔ ∀ key ∈ keys, key ∉ nonRootLeaves tree

/-- The root of a tree, and whether it is a leaf. -/
theorem Represents.exists_root (represents : Represents heap root tree) :
    ∃ node, heap.Holds root node ∧ (node.isLeaf = true → nonRootLeaves tree = []) := by
  rcases represents with ⟨slots, rfl, isRoot, stored, _⟩
  cases slots with
  | nil => cases isRoot
  | node slot left right =>
      cases isRoot
      refine ⟨_, stored.1, ?_⟩
      intro isLeaf
      rw [isLeaf_links, Bool.and_eq_true, isNil_iff, isNil_iff] at isLeaf
      rcases isLeaf with ⟨rfl, rfl⟩
      rfl

/-- A call that deletes a leaf is noted, and the others change nothing. -/
theorem Called.looped {next last : Heap} (called : Called heap next root tree key)
    (later : Looped next last (dropNonRootLeaves (· = key) tree) keys) :
    Looped heap last tree (key :: keys) := by
  by_cases isLeaf : key ∈ nonRootLeaves tree
  · rcases called.of_mem isLeaf with ⟨gone, noted⟩
    have grows := later.grows
    rw [noted] at grows
    refine ⟨(List.prefix_append _ _).trans grows, ?_⟩
    apply iff_of_false
    · intro same
      rw [same] at grows
      have longer := grows.length_le
      rw [List.length_append, List.length_singleton] at longer
      omega
    · intro noLeaf
      exact noLeaf key List.mem_cons_self isLeaf
  · rcases called.of_not_mem isLeaf with rfl
    rw [dropNonRootLeaves_of_not_mem isLeaf] at later
    refine ⟨later.grows, ?_⟩
    rw [later.same_iff, List.forall_mem_cons]
    exact (and_iff_right isLeaf).symm

theorem exists_stuffLoop (represents : Represents heap root tree) (ordered : Ordered tree)
    (keys : List ℤ) (steps : ℕ) :
    ∃ result next, stuffLoop root keys steps heap = .ok (result, next) ∧
      Looped heap next tree keys := by
  induction keys generalizing heap tree steps with
  | nil =>
      rcases represents.exists_root with ⟨node, isThere, _⟩
      rw [stuffLoop, deref_of_holds isThere, ok_bind]
      dsimp only
      split
      · rw [deleteNode_of_holds isThere]
        exact ⟨_, _, rfl, List.prefix_refl _, by simp [Arena.remove]⟩
      · exact ⟨_, _, rfl, List.prefix_refl _, by simp⟩
  | cons key rest ih =>
      rcases represents.exists_root with ⟨node, isThere, atRoot⟩
      rw [stuffLoop, deref_of_holds isThere, ok_bind]
      dsimp only
      split
      · rename_i isLeaf
        rw [deleteNode_of_holds isThere]
        refine ⟨_, _, rfl, List.prefix_refl _, ?_⟩
        simp [atRoot isLeaf, Arena.remove]
      · rcases exists_deleteIfLeaf represents ordered key with ⟨next, deletes, called⟩
        have orderedNext : Ordered (dropNonRootLeaves (· = key) tree) :=
          ordered.of_pruned (pruned_dropNonRootLeaves tree)
        rcases ih called.represents orderedNext (steps + 1) with ⟨result, last, loops, looped⟩
        rw [deletes, ok_bind]
        exact ⟨result, last, loops, called.looped looped⟩

/-! ## From the start -/

theorem nonRootLeaves_fullTree :
    key ∈ nonRootLeaves (fullTree depth (2 ^ depth)) ↔
      depth ≠ 0 ∧ key % 2 = 1 ∧ 0 < key ∧ key < 2 ^ (depth + 1) := by
  cases depth with
  | zero => simp [fullTree, nonRootLeaves, leaves]
  | succ depth =>
      have hasChild : ¬ (fullTree depth (2 ^ (depth + 1) - 2 ^ depth) = .nil ∧
          fullTree depth (2 ^ (depth + 1) + 2 ^ depth) = .nil) :=
        fun both => fullTree_ne_nil _ _ both.1
      have centred : Centred (depth + 1) (2 ^ (depth + 1)) := ⟨0, by ring⟩
      have atLeaf := @mem_leaves_fullTree _ _ key centred
      rw [fullTree, leaves_node hasChild] at atLeaf
      rw [fullTree, nonRootLeaves, atLeaf, sub_self, ← two_mul, ← pow_succ']
      simp

/-- The tree that `do_stuff` starts with. -/
theorem exists_start (inRange : (2 : ℤ) ^ (depth + 1) < 2 ^ 31) :
    ∃ heap, buildTree depth (2 ^ depth) none Arena.empty = .ok (0, heap) ∧
      Represents heap 0 (fullTree depth (2 ^ depth)) ∧ heap.strays = [] := by
  have centred : Centred depth (2 ^ depth) := ⟨0, by ring⟩
  have within : InRange depth (2 ^ depth) := by
    refine ⟨le_refl _, ?_⟩
    rw [← two_mul, ← pow_succ']
    exact inRange
  rcases exists_buildTree centred within none Arena.empty with ⟨heap, slots, builds, built⟩
  exact ⟨heap, builds, built.represents, built.strays⟩

theorem keepsTree (inRange : (2 : ℤ) ^ (depth + 1) < 2 ^ 31) (keys : List ℤ) :
    KeepsTree depth keys := by
  rcases exists_start inRange with ⟨heap, builds, represents, _⟩
  have ordered := ordered_fullTree depth (2 ^ depth)
  have along := alongRun_representsPart ordered represents keys
  refine ⟨0, heap, _, builds, represents, ordered, ?_, ?_, ?_, ?_⟩
  · rw [inorder_fullTree]
    apply List.map_congr_left
    intro i _
    ring
  · exact exists_run_deletions ordered ⟨_, represents, Pruned.refl _⟩ keys
  · intro early isPrefix st reached
    rcases along early isPrefix st reached with ⟨tree, isTree, pruned⟩
    exact ⟨tree, isTree, ordered.of_pruned pruned, pruned.ancestorClosed ordered.nodup⟩
  · intro early key isPrefix st reached
    have shorter : early <+: keys := (List.prefix_append early [key]).trans isPrefix
    rcases exists_deleteStep ordered (along early shorter st reached) key with
      ⟨tree, next, nextTree, isTree, deletes, isNext, removes, _⟩
    exact ⟨tree, next, nextTree, isTree, deletes, isNext, removes⟩

theorem neverStrays_iff (inRange : (2 : ℤ) ^ (depth + 1) < 2 ^ 31) (keys : List ℤ) :
    NeverStrays depth keys ↔ DrawsNoLeaf depth keys := by
  rcases exists_start inRange with ⟨heap, builds, represents, noStrays⟩
  rcases exists_stuffLoop represents (ordered_fullTree depth _) keys 0 with
    ⟨result, last, loops, looped⟩
  have ends : doStuff depth keys = .ok (result, last) := by
    have positive : (0 : ℤ) < 2 ^ depth := by positivity
    have double : (2 : ℤ) ^ (depth + 1) = 2 * 2 ^ depth := pow_succ' _ _
    rw [doStuff, shifted, toInt_of_range positive.le (by linarith), ok_bind, builds, ok_bind]
    dsimp only
    rw [shifted, toInt_of_range (by linarith) inRange, ok_bind,
      toInt_of_range (by linarith) (by linarith), ok_bind]
    exact loops
  have strays : NeverStrays depth keys ↔ last.strays = heap.strays := by
    rw [NeverStrays, ends, noStrays]
    constructor
    · rintro ⟨_, _, same, isEmpty⟩
      cases same
      exact isEmpty
    · intro isEmpty
      exact ⟨result, last, rfl, isEmpty⟩
  rw [strays, looped.same_iff, DrawsNoLeaf]
  simp only [nonRootLeaves_fullTree]
  by_cases isZero : depth = 0
  · simp [isZero]
  · simp [isZero]

end

/-- For every depth for which the tree's values are numbers of type `int`, and for all keys: the
tree is kept, and no deleted node is accessed precisely if there is only the root or no odd key of
the tree is drawn. -/
theorem keepsTree_and_neverStrays_iff (depth : ℕ) (keys : List ℤ)
    (inRange : (2 : ℤ) ^ (depth + 1) < 2 ^ 31) :
    KeepsTree depth keys ∧ (NeverStrays depth keys ↔ DrawsNoLeaf depth keys) :=
  ⟨keepsTree inRange keys, neverStrays_iff inRange keys⟩

theorem keepsTree_three : KeepsTree 1 [2, 3] ∧ (NeverStrays 1 [2, 3] ↔ DrawsNoLeaf 1 [2, 3]) :=
  keepsTree_and_neverStrays_iff 1 [2, 3] (by norm_num)

/-- The tree of three nodes: the leaf with the key 1 is read after it is deleted. -/
theorem drawsOne_strays : (2 : ℤ) ^ (1 + 1) < 2 ^ 31 ∧ ¬ NeverStrays 1 [1] := by
  refine ⟨by norm_num, ?_⟩
  rintro ⟨_, _, ends, isEmpty⟩
  cases ends
  cases isEmpty

end Datamime.Microbenchmark
