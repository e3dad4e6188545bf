/-
# Cells that are deleted

Cells are created one after the other, changed by their address and deleted. What a deleted cell
held stays there, since nothing clears it, and each later access to the cell is noted as a stray
one. An access to a cell that is not deleted notes nothing.
-/

import Mathlib.Logic.Function.Basic
import Mathlib.Tactic

namespace Datamime.Math

universe u

/-- Cells, of which those before `next` have been created. -/
structure Arena (α : Type u) where
  cells : ℕ → Option α
  deleted : ℕ → Bool
  next : ℕ
  /-- The accesses to deleted cells, in order. -/
  strays : List ℕ

namespace Arena

variable {α : Type u}

def empty : Arena α := ⟨fun _ => none, fun _ => false, 0, []⟩

/-- Create a cell. -/
def alloc (arena : Arena α) (value : α) : ℕ × Arena α :=
  (arena.next,
    { arena with
      cells := Function.update arena.cells arena.next (some value)
      deleted := Function.update arena.deleted arena.next false
      next := arena.next + 1 })

/-- Note a stray access. -/
def note (arena : Arena α) (addr : ℕ) : Arena α :=
  { arena with strays := arena.strays ++ [addr] }

/-- An access. -/
def touch (arena : Arena α) (addr : ℕ) : Arena α :=
  if arena.deleted addr then arena.note addr else arena

/-- There is nothing at an address where no cell was created. -/
def read (arena : Arena α) (addr : ℕ) : Option (α × Arena α) :=
  (arena.cells addr).map fun value => (value, arena.touch addr)

def modify (arena : Arena α) (addr : ℕ) (f : α → α) : Option (Arena α) :=
  (arena.cells addr).map fun value =>
    let arena := arena.touch addr
    { arena with cells := Function.update arena.cells addr (some (f value)) }

def delete (arena : Arena α) (addr : ℕ) : Option (Arena α) :=
  (arena.cells addr).map fun _ =>
    let arena := arena.touch addr
    { arena with deleted := Function.update arena.deleted addr true }

/-! ## Cells that are there -/

/-- The cell is there and holds the value. -/
structure Holds (arena : Arena α) (addr : ℕ) (value : α) : Prop where
  cell : arena.cells addr = some value
  live : arena.deleted addr = false

/-- The cells at some addresses are as they were. -/
def SameOn (kept : ℕ → Prop) (arena next : Arena α) : Prop :=
  ∀ addr, kept addr →
    next.cells addr = arena.cells addr ∧ next.deleted addr = arena.deleted addr

variable {arena next later : Arena α} {addr other : ℕ} {value : α} {kept fewer : ℕ → Prop}

theorem SameOn.refl : SameOn kept arena arena := fun _ _ => ⟨rfl, rfl⟩

theorem SameOn.trans (first : SameOn kept arena next) (second : SameOn kept next later) :
    SameOn kept arena later := by
  intro addr isKept
  rcases first addr isKept with ⟨sameCell, sameLive⟩
  rcases second addr isKept with ⟨laterCell, laterLive⟩
  exact ⟨laterCell.trans sameCell, laterLive.trans sameLive⟩

theorem SameOn.mono (same : SameOn kept arena next) (within : ∀ addr, fewer addr → kept addr) :
    SameOn fewer arena next :=
  fun addr isKept => same addr (within addr isKept)

theorem Holds.of_sameOn (holds : arena.Holds addr value) (same : SameOn kept arena next)
    (isKept : kept addr) : next.Holds addr value := by
  rcases same addr isKept with ⟨sameCell, sameLive⟩
  exact ⟨sameCell.trans holds.cell, sameLive.trans holds.live⟩

/-! ## What the operations do -/

theorem alloc_fst (arena : Arena α) (value : α) : (arena.alloc value).1 = arena.next := rfl

theorem holds_alloc (arena : Arena α) (value : α) : (arena.alloc value).2.Holds arena.next value :=
  ⟨Function.update_self _ _ _, Function.update_self _ _ _⟩

theorem sameOn_alloc (arena : Arena α) (value : α) :
    SameOn (· < arena.next) arena (arena.alloc value).2 := by
  intro addr isBefore
  exact ⟨Function.update_of_ne isBefore.ne _ _, Function.update_of_ne isBefore.ne _ _⟩

theorem Holds.read (holds : arena.Holds addr value) : arena.read addr = some (value, arena) := by
  rw [Arena.read, holds.cell, touch, holds.live]
  rfl

/-- The arena after a cell that is there is given a value. -/
def set (arena : Arena α) (addr : ℕ) (value : α) : Arena α :=
  { arena with cells := Function.update arena.cells addr (some value) }

theorem Holds.modify (holds : arena.Holds addr value) (f : α → α) :
    arena.modify addr f = some (arena.set addr (f value)) := by
  rw [Arena.modify, holds.cell, touch, holds.live]
  rfl

theorem Holds.set (holds : arena.Holds addr value) (new : α) :
    (arena.set addr new).Holds addr new :=
  ⟨Function.update_self _ _ _, holds.live⟩

theorem sameOn_set (new : α) : SameOn (· ≠ addr) arena (arena.set addr new) :=
  fun _ different => ⟨Function.update_of_ne different _ _, rfl⟩

/-- The arena after a cell that is there is deleted. -/
def remove (arena : Arena α) (addr : ℕ) : Arena α :=
  { arena with deleted := Function.update arena.deleted addr true }

theorem Holds.delete (holds : arena.Holds addr value) :
    arena.delete addr = some (arena.remove addr) := by
  rw [Arena.delete, holds.cell, touch, holds.live]
  rfl

theorem sameOn_remove : SameOn (· ≠ addr) arena (arena.remove addr) :=
  fun _ different => ⟨rfl, Function.update_of_ne different _ _⟩

theorem sameOn_note : SameOn kept arena (arena.note addr) := fun _ _ => ⟨rfl, rfl⟩

/-- A deleted cell still holds its value, and reading it is a stray access. -/
theorem Holds.read_remove (holds : arena.Holds addr value) :
    (arena.remove addr).read addr = some (value, (arena.remove addr).note addr) := by
  have isDeleted : (arena.remove addr).deleted addr = true := Function.update_self _ _ _
  have isThere : (arena.remove addr).cells addr = some value := holds.cell
  rw [Arena.read, isThere, touch, if_pos isDeleted]
  rfl

end Arena

end Datamime.Math
