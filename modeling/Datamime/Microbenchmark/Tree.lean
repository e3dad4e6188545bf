/-
# The tree of the microbenchmark

`do_stuff` builds a full search tree of its depth and deletes leaves of it until only the root is
left. `delete_if_leaf` deletes a leaf through the link of its parent, and then clears that link,
which it finds through the deleted leaf.
-/

import Datamime.Math.Arena
import Datamime.Fault

namespace Datamime.Microbenchmark

open Datamime.Math

structure Node where
  left : Option ℕ
  right : Option ℕ
  val : ℤ
  parent : Option ℕ
  deriving DecidableEq

/-- The constructor `Node`. -/
def Node.new (val : ℤ) (parent : Option ℕ) : Node := ⟨none, none, val, parent⟩

def Node.isLeaf (node : Node) : Bool := node.left.isNone && node.right.isNone

/-- The nodes that `new` has created. A link is an address, or null. -/
abbrev Heap := Arena Node

/-- Why a call does not return. -/
inductive Failure
  | assertion
  /-- A result is not in the range of `int`. -/
  | overflow
  /-- There is no node behind a link that is followed. -/
  | nullLink
  /-- The links do not come to an end. -/
  | endless
  deriving DecidableEq

/-- `assert`. -/
def require (condition : Bool) : Except Failure Unit :=
  if condition then .ok () else .error .assertion

/-- A result of type `int`. -/
def toInt (n : ℤ) : Except Failure ℤ :=
  if -2 ^ 31 ≤ n ∧ n < 2 ^ 31 then .ok n else .error .overflow

/-- `1 << depth`. -/
def shifted (depth : ℕ) : Except Failure ℤ := toInt (2 ^ depth)

/-- Follow a link. -/
def deref (heap : Heap) (link : Option ℕ) : Except Failure (Node × Heap) :=
  match link.bind heap.read with
  | some found => .ok found
  | none => .error .nullLink

/-- Change the node behind a link. -/
def store (heap : Heap) (link : Option ℕ) (f : Node → Node) : Except Failure Heap :=
  match link.bind fun addr => heap.modify addr f with
  | some next => .ok next
  | none => .error .nullLink

/-- `delete`, which does nothing for a null link. -/
def deleteNode (heap : Heap) : Option ℕ → Except Failure Heap
  | none => .ok heap
  | some addr =>
      match heap.delete addr with
      | some next => .ok next
      | none => .error .nullLink

/-- `build_tree`. -/
def buildTree : ℕ → ℤ → Option ℕ → Heap → Except Failure (ℕ × Heap)
  | 0, val, parent, heap => do
      let size ← shifted 0
      require (val.tmod size = 0)
      let (root, heap) := heap.alloc (Node.new val parent)
      let (node, heap) ← deref heap (some root)
      require node.isLeaf
      require (val.tmod 2 = 1)
      return (root, heap)
  | depth + 1, val, parent, heap => do
      let size ← shifted (depth + 1)
      require (val.tmod size = 0)
      let (root, heap) := heap.alloc (Node.new val parent)
      let diff ← shifted depth
      let lower ← toInt (val - diff)
      let (left, heap) ← buildTree depth lower (some root) heap
      let heap ← store heap (some root) fun node => { node with left := some left }
      let upper ← toInt (val + diff)
      let (right, heap) ← buildTree depth upper (some root) heap
      let heap ← store heap (some root) fun node => { node with right := some right }
      return (root, heap)

/-- The recursion of `delete_if_leaf`, for at most so many calls. -/
def deleteFrom : ℕ → Heap → Option ℕ → ℤ → Except Failure Heap
  | 0, _, _, _ => .error .endless
  | _ + 1, heap, none, _ => .ok heap
  | calls + 1, heap, some root, key => do
      let (node, heap) ← deref heap (some root)
      if key = node.val then
        if node.isLeaf then
          match node.parent with
          | none => return heap
          | some parent => do
              let (above, heap) ← deref heap (some parent)
              if above.left = some root then
                let heap ← deleteNode heap above.left
                -- `root->parent` of the node that is just deleted
                let (gone, heap) ← deref heap (some root)
                store heap gone.parent fun node => { node with left := none }
              else
                let heap ← deleteNode heap above.right
                let (gone, heap) ← deref heap (some root)
                store heap gone.parent fun node => { node with right := none }
        else return heap
      else if node.val < key then deleteFrom calls heap node.right key
      else deleteFrom calls heap node.left key

/-- `delete_if_leaf`. A chain of links that is longer than the number of nodes does not end. -/
def deleteIfLeaf (heap : Heap) (root : ℕ) (key : ℤ) : Except Failure Heap :=
  deleteFrom (heap.next + 1) heap (some root) key

/-- The loop of `do_stuff` for the keys that are drawn: the number of steps, and the tree. Without
a number the keys do not bring the loop to its end. -/
def stuffLoop (root : ℕ) : List ℤ → ℕ → Heap → Except Failure (Option ℕ × Heap)
  | keys, steps, heap => do
      let (node, heap) ← deref heap (some root)
      if node.isLeaf then
        let heap ← deleteNode heap (some root)
        return (some steps, heap)
      else
        match keys with
        | [] => return (none, heap)
        | key :: rest => do
            let heap ← deleteIfLeaf heap root key
            stuffLoop root rest (steps + 1) heap

/-- `do_stuff`. -/
def doStuff (depth : ℕ) (keys : List ℤ) : Except Failure (Option ℕ × Heap) := do
  let middle ← shifted depth
  let (root, heap) ← buildTree depth middle none Arena.empty
  let size ← shifted (depth + 1)
  let _ ← toInt (size - 1)
  stuffLoop root keys 0 heap

end Datamime.Microbenchmark
