/-
# What the threads of a program hold

Each of several threads is in some phase, and a thread in some phases holds something, such as a
request that it serves. When one thread changes its phase, the others keep what they hold. So the
things that are held at a time can be counted and compared as a list, up to its order.
-/

import Mathlib.Data.List.FinRange
import Mathlib.Tactic

namespace Datamime.Math.Threads

universe u v

variable {n : ℕ} {α : Type u} {β : Type v} {hold : α → Option β} {threads : Fin n → α}
  {thread : Fin n}

/-- What the threads hold. -/
def collect (hold : α → Option β) (threads : Fin n → α) : List β :=
  (List.finRange n).filterMap fun thread => hold (threads thread)

/-- What the other threads hold. -/
def collectOthers (hold : α → Option β) (threads : Fin n → α) (thread : Fin n) : List β :=
  ((List.finRange n).erase thread).filterMap fun other => hold (threads other)

theorem mem_collect {held : β} :
    held ∈ collect hold threads ↔ ∃ thread, hold (threads thread) = some held := by
  simp [collect]

/-- There are not more things held than threads. -/
theorem length_collect_le (hold : α → Option β) (threads : Fin n → α) :
    (collect hold threads).length ≤ n := by
  simpa [collect] using List.length_filterMap_le (fun thread => hold (threads thread))
    (List.finRange n)

/-- What one thread holds, and what the others hold. -/
theorem perm_collect (hold : α → Option β) (threads : Fin n → α) (thread : Fin n) :
    (collect hold threads).Perm ((hold (threads thread)).toList ++
      collectOthers hold threads thread) := by
  have split := (List.perm_cons_erase (List.mem_finRange thread)).filterMap
    fun other => hold (threads other)
  refine split.trans ?_
  rw [List.filterMap_cons]
  cases hold (threads thread) with
  | none => exact List.Perm.refl _
  | some held => exact List.Perm.refl _

/-- A thread that changes its phase leaves what the others hold. -/
@[simp]
theorem collectOthers_update (hold : α → Option β) (threads : Fin n → α) (thread : Fin n)
    (phase : α) : collectOthers hold (Function.update threads thread phase) thread =
      collectOthers hold threads thread := by
  apply List.filterMap_congr
  intro other isOther
  have different : other ≠ thread := by
    rintro rfl
    exact (List.nodup_finRange n).not_mem_erase isOther
  rw [Function.update_of_ne different]

theorem perm_collect_update (hold : α → Option β) (threads : Fin n → α) (thread : Fin n)
    (phase : α) : (collect hold (Function.update threads thread phase)).Perm
      ((hold phase).toList ++ collectOthers hold threads thread) := by
  simpa using perm_collect hold (Function.update threads thread phase) thread

/-- The number of things held changes by what the thread held and what it holds then. -/
theorem length_collect_update (hold : α → Option β) (threads : Fin n → α) (thread : Fin n)
    (phase : α) : (collect hold (Function.update threads thread phase)).length +
        (hold (threads thread)).toList.length =
      (collect hold threads).length + (hold phase).toList.length := by
  have before := (perm_collect hold threads thread).length_eq
  have after := (perm_collect_update hold threads thread phase).length_eq
  simp only [List.length_append] at before after
  omega

/-- The same for how often one thing is held. -/
theorem count_collect_update [DecidableEq β] (hold : α → Option β) (threads : Fin n → α)
    (thread : Fin n) (phase : α) (held : β) :
    (collect hold (Function.update threads thread phase)).count held +
        (hold (threads thread)).toList.count held =
      (collect hold threads).count held + (hold phase).toList.count held := by
  have before := (perm_collect hold threads thread).count_eq held
  have after := (perm_collect_update hold threads thread phase).count_eq held
  simp only [List.count_append] at before after
  omega

/-- A single thread holds all that is held. -/
theorem collect_of_single (single : n = 1) (thread : Fin n) :
    collect hold threads = (hold (threads thread)).toList := by
  subst single
  have isOnly : ∀ other : Fin 1, threads other = threads thread := fun other => by
    rw [Subsingleton.elim other thread]
  rw [collect, List.finRange_succ, List.finRange_zero, List.map_nil, List.filterMap_cons, isOnly]
  cases hold (threads thread) <;> rfl

end Datamime.Math.Threads
