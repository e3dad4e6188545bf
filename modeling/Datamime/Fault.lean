/-
# Ends without a result

A call of the profiler ends without a result when the process exits, when an
exception leaves the handler, or when the code relies on something that is not
there: an array element, a divisor, a map entry, a value of a variable, the truth
of an assertion. A call of the analysis scripts ends without a result when Python raises.
-/

import Mathlib.Tactic

namespace Datamime

universe u v

/-- The arrays that the profiler indexes. -/
inductive IndexedArray
  | values
  | xPoints
  | yPoints
  | cacheAssignments
  | estimates
  | msrDescriptors
  | assignableCores
  deriving DecidableEq

/-- How a call of the profiler ends without a result. -/
inductive Fault
  /-- `std::exit`, with the logged message. -/
  | exit (message : String)
  /-- An uncaught exception, with its text. -/
  | thrown (what : String)
  | outOfRange (array : IndexedArray)
  | divisionByZero
  | assertion
  /-- A null entry of a map, or a null stream, was dereferenced. -/
  | nullEntry
  /-- A variable was read that nothing had set. -/
  | uninitialised
  deriving DecidableEq

/-- The exceptions that the analysis scripts can raise. -/
inductive PyError
  | keyError
  | indexError
  | valueError
  | assertionError
  | zeroDivisionError
  | unboundLocalError
  | overflowError
  | runtimeError
  deriving DecidableEq

/-- A sequenced call returns when its first part does and the rest does. -/
theorem bind_eq_ok_iff {ε : Type u} {α β : Type v} {first : Except ε α}
    {rest : α → Except ε β} {result : β} :
    (first >>= rest) = .ok result ↔ ∃ value, first = .ok value ∧ rest value = .ok result := by
  cases first <;> simp [bind, Except.bind]

@[simp]
theorem ok_bind {ε : Type u} {α β : Type v} (value : α) (rest : α → Except ε β) :
    (Except.ok value >>= rest) = rest value := rfl

@[simp]
theorem error_bind {ε : Type u} {α β : Type v} (fault : ε) (rest : α → Except ε β) :
    (Except.error fault >>= rest) = .error fault := rfl

/-- A list is processed to its end when every entry of it is. -/
theorem exists_mapM_eq_ok_iff {ε α β : Type u} (f : α → Except ε β) (xs : List α) :
    (∃ results, xs.mapM f = .ok results) ↔ ∀ x ∈ xs, ∃ result, f x = .ok result := by
  induction xs with
  | nil => exact iff_of_true ⟨[], rfl⟩ (by simp)
  | cons first rest ih =>
      rw [List.forall_mem_cons, ← ih, List.mapM_cons]
      cases f first with
      | error fault => simp
      | ok result =>
          cases rest.mapM f with
          | error fault => simp
          | ok results => exact iff_of_true ⟨result :: results, rfl⟩ ⟨⟨result, rfl⟩, results, rfl⟩

/-- The results where each entry has a known one. -/
theorem mapM_eq_ok_map {ε α β : Type u} {f : α → Except ε β} {g : α → β} {xs : List α}
    (known : ∀ x ∈ xs, f x = .ok (g x)) : xs.mapM f = .ok (xs.map g) := by
  induction xs with
  | nil => rfl
  | cons first rest ih =>
      rw [List.mapM_cons, known first List.mem_cons_self,
        ih fun x isMember => known x (List.mem_cons_of_mem first isMember)]
      rfl

theorem length_of_mapM_eq_ok {ε α β : Type u} {f : α → Except ε β} {xs : List α}
    {results : List β} (mapped : xs.mapM f = .ok results) : results.length = xs.length := by
  induction xs generalizing results with
  | nil =>
      cases mapped
      rfl
  | cons first rest ih =>
      rw [List.mapM_cons] at mapped
      obtain ⟨result, atFirst, mapped⟩ := bind_eq_ok_iff.mp mapped
      obtain ⟨others, atRest, mapped⟩ := bind_eq_ok_iff.mp mapped
      cases mapped
      rw [List.length_cons, List.length_cons, ih atRest]

/-- Each result is that of some entry. -/
theorem exists_of_mem_mapM {ε α β : Type u} {f : α → Except ε β} {xs : List α} {results : List β}
    (mapped : xs.mapM f = .ok results) {result : β} (isResult : result ∈ results) :
    ∃ x ∈ xs, f x = .ok result := by
  induction xs generalizing results with
  | nil =>
      cases mapped
      cases isResult
  | cons first rest ih =>
      rw [List.mapM_cons] at mapped
      obtain ⟨atHead, atFirst, mapped⟩ := bind_eq_ok_iff.mp mapped
      obtain ⟨others, atRest, mapped⟩ := bind_eq_ok_iff.mp mapped
      cases mapped
      rcases List.mem_cons.mp isResult with rfl | isLater
      · exact ⟨first, List.mem_cons_self, atFirst⟩
      · obtain ⟨x, isMember, atMember⟩ := ih atRest isLater
        exact ⟨x, List.mem_cons_of_mem first isMember, atMember⟩

/-- The results stand in the order of the entries. -/
theorem getElem?_of_mapM {ε α β : Type u} {f : α → Except ε β} {xs : List α} {results : List β}
    (mapped : xs.mapM f = .ok results) {i : ℕ} {x : α} (isEntry : xs[i]? = some x) :
    ∃ result, results[i]? = some result ∧ f x = .ok result := by
  induction xs generalizing results i with
  | nil => cases isEntry
  | cons first rest ih =>
      rw [List.mapM_cons] at mapped
      obtain ⟨atHead, atFirst, mapped⟩ := bind_eq_ok_iff.mp mapped
      obtain ⟨others, atRest, mapped⟩ := bind_eq_ok_iff.mp mapped
      cases mapped
      cases i with
      | zero =>
          cases isEntry
          exact ⟨atHead, rfl, atFirst⟩
      | succ i => exact ih atRest isEntry

/-- A counting loop that returns has kept what each of its rounds keeps. -/
theorem foldlM_range_invariant {ε : Type u} {σ : Type v} {round : σ → ℕ → Except ε σ}
    {invariant : ℕ → σ → Prop} {start last : σ} {count : ℕ}
    (round_keeps : ∀ done before after, invariant done before → round before done = .ok after →
      invariant (done + 1) after)
    (starts : invariant 0 start)
    (looped : (List.range count).foldlM round start = .ok last) : invariant count last := by
  induction count generalizing last with
  | zero =>
      cases looped
      exact starts
  | succ count ih =>
      rw [List.range_succ, List.foldlM_append] at looped
      obtain ⟨middle, atMiddle, final⟩ := bind_eq_ok_iff.mp looped
      rw [List.foldlM_cons] at final
      obtain ⟨after, rounded, returned⟩ := bind_eq_ok_iff.mp final
      cases returned
      exact round_keeps count middle last (ih atMiddle) rounded

/-- A counting loop returns if each of its rounds does. -/
theorem exists_foldlM_range {ε : Type u} {σ : Type v} {round : σ → ℕ → Except ε σ} {count : ℕ}
    (each : ∀ done < count, ∀ before, ∃ after, round before done = .ok after) (start : σ) :
    ∃ last, (List.range count).foldlM round start = .ok last := by
  induction count with
  | zero => exact ⟨start, rfl⟩
  | succ count ih =>
      obtain ⟨middle, atMiddle⟩ := ih fun done below => each done (by omega)
      obtain ⟨last, atLast⟩ := each count (by omega) middle
      refine ⟨last, ?_⟩
      rw [List.range_succ, List.foldlM_append, bind_eq_ok_iff]
      refine ⟨middle, atMiddle, ?_⟩
      rw [List.foldlM_cons, bind_eq_ok_iff]
      exact ⟨last, atLast, rfl⟩

/-- Read an array element; the source computes its indices in a signed type. -/
def index {α : Type*} (array : IndexedArray) (xs : List α) (i : ℤ) : Except Fault α :=
  if 0 ≤ i then
    match xs[i.toNat]? with
    | some x => .ok x
    | none => .error (.outOfRange array)
  else .error (.outOfRange array)

/-- Overwrite an array element. -/
def setAt {α : Type*} (array : IndexedArray) (xs : List α) (i : ℤ) (x : α) :
    Except Fault (List α) :=
  if 0 ≤ i ∧ i < xs.length then .ok (xs.set i.toNat x) else .error (.outOfRange array)

section

variable {α : Type*} {array : IndexedArray} {xs : List α} {i : ℤ}

theorem index_eq_ok_iff {x : α} :
    index array xs i = .ok x ↔ 0 ≤ i ∧ xs[i.toNat]? = some x := by
  rw [index]
  split
  · cases xs[i.toNat]? <;> simp_all
  · simp_all

/-- An element is there precisely when the index lies in the array. -/
theorem exists_index_eq_ok_iff : (∃ x, index array xs i = .ok x) ↔ 0 ≤ i ∧ i < xs.length := by
  simp only [index_eq_ok_iff, exists_and_left]
  refine and_congr_right fun nonneg => ?_
  rw [← Option.isSome_iff_exists]
  simp only [isSome_getElem?]
  omega

theorem setAt_eq_ok_iff {x : α} {ys : List α} :
    setAt array xs i x = .ok ys ↔ (0 ≤ i ∧ i < xs.length) ∧ xs.set i.toNat x = ys := by
  rw [setAt]
  split <;> simp_all

end

end Datamime
