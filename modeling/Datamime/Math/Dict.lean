/-
# Insertion-ordered dictionaries

A dictionary maps each key to one value and lists its entries in the order in
which the keys were first inserted. Distinctness of the keys is part of the
value, so an entry is listed precisely when a lookup finds it.
-/

import Mathlib.Data.List.Nodup
import Mathlib.Tactic

namespace Datamime.Math

universe u v

variable {κ : Type u} {ν : Type v}

/-- A finite map with the order of first insertion. -/
structure Dict (κ : Type u) (ν : Type v) where
  entries : List (κ × ν)
  distinct : (entries.map Prod.fst).Nodup

namespace Dict

variable [DecidableEq κ]

/-- The dictionary without entries. -/
def empty : Dict κ ν := ⟨[], List.nodup_nil⟩

/-- The value of a key. -/
def get? (dict : Dict κ ν) (key : κ) : Option ν := dict.entries.lookup key

/-- Overwrite the value of a key in place, or append a new key. -/
def insertEntry (key : κ) (value : ν) : List (κ × ν) → List (κ × ν)
  | [] => [(key, value)]
  | (other, old) :: rest =>
      if other = key then (key, value) :: rest else (other, old) :: insertEntry key value rest

theorem fst_mem_insertEntry {key other : κ} {value : ν} {entries : List (κ × ν)} :
    other ∈ (insertEntry key value entries).map Prod.fst ↔
      other = key ∨ other ∈ entries.map Prod.fst := by
  induction entries with
  | nil => simp [insertEntry]
  | cons entry rest ih =>
      rcases entry with ⟨first, old⟩
      by_cases equal : first = key
      · subst first
        simp [insertEntry]
      · rw [insertEntry, if_neg equal, List.map_cons, List.mem_cons, ih, List.map_cons,
          List.mem_cons]
        tauto

theorem nodup_insertEntry {key : κ} {value : ν} {entries : List (κ × ν)}
    (distinct : (entries.map Prod.fst).Nodup) :
    ((insertEntry key value entries).map Prod.fst).Nodup := by
  induction entries with
  | nil => simp [insertEntry]
  | cons entry rest ih =>
      rcases entry with ⟨first, old⟩
      rw [List.map_cons, List.nodup_cons] at distinct
      by_cases equal : first = key
      · subst first
        rw [insertEntry, if_pos rfl, List.map_cons, List.nodup_cons]
        exact distinct
      · rw [insertEntry, if_neg equal, List.map_cons, List.nodup_cons, fst_mem_insertEntry]
        exact ⟨not_or.mpr ⟨equal, distinct.1⟩, ih distinct.2⟩

/-- `dict[key] = value`. -/
def insert (dict : Dict κ ν) (key : κ) (value : ν) : Dict κ ν :=
  ⟨insertEntry key value dict.entries, nodup_insertEntry dict.distinct⟩

theorem get?_id (dict : Dict κ ν) (key : κ) : (id dict).get? key = dict.get? key := rfl

@[simp]
theorem get?_empty (key : κ) : (empty : Dict κ ν).get? key = none := rfl

theorem lookup_insertEntry (key other : κ) (value : ν) (entries : List (κ × ν)) :
    (insertEntry key value entries).lookup other =
      if other = key then some value else entries.lookup other := by
  induction entries with
  | nil =>
      by_cases equal : other = key <;>
        simp [insertEntry, List.lookup_cons, equal, beq_eq_false_iff_ne.mpr]
  | cons entry rest ih =>
      rcases entry with ⟨first, old⟩
      by_cases equal : first = key
      · subst first
        rw [insertEntry, if_pos rfl, List.lookup_cons, List.lookup_cons]
        by_cases here : other = key
        · simp [here]
        · simp [here, beq_eq_false_iff_ne.mpr here]
      · rw [insertEntry, if_neg equal, List.lookup_cons, List.lookup_cons, ih]
        by_cases here : other = first
        · subst other
          simp [equal]
        · simp [beq_eq_false_iff_ne.mpr here]

/-- An insertion changes exactly one key. -/
theorem get?_insert (dict : Dict κ ν) (key other : κ) (value : ν) :
    (dict.insert key value).get? other = if other = key then some value else dict.get? other :=
  lookup_insertEntry key other value dict.entries

@[simp]
theorem get?_insert_self (dict : Dict κ ν) (key : κ) (value : ν) :
    (dict.insert key value).get? key = some value := by
  rw [get?_insert, if_pos rfl]

theorem get?_insert_of_ne (dict : Dict κ ν) {key other : κ} (different : other ≠ key) (value : ν) :
    (dict.insert key value).get? other = dict.get? other := by
  rw [get?_insert, if_neg different]

omit [DecidableEq κ] in
theorem ext_entries {first second : Dict κ ν} (same : first.entries = second.entries) :
    first = second := by
  cases first
  cases second
  cases same
  rfl

/-- A second insertion for the same key replaces the first. -/
theorem insert_insert (dict : Dict κ ν) (key : κ) (old new : ν) :
    (dict.insert key old).insert key new = dict.insert key new := by
  apply ext_entries
  show insertEntry key new (insertEntry key old dict.entries) = insertEntry key new dict.entries
  induction dict.entries with
  | nil => simp [insertEntry]
  | cons entry rest ih =>
      rcases entry with ⟨first, value⟩
      by_cases here : first = key
      · simp [insertEntry, here]
      · simp [insertEntry, here, ih]

/-- Inserting the value that is there changes nothing. -/
theorem insert_of_get? {dict : Dict κ ν} {key : κ} {value : ν}
    (found : dict.get? key = some value) : dict.insert key value = dict := by
  apply ext_entries
  show insertEntry key value dict.entries = dict.entries
  have listed : dict.entries.lookup key = some value := found
  generalize dict.entries = entries at listed
  induction entries with
  | nil => cases listed
  | cons entry rest ih =>
      rcases entry with ⟨first, old⟩
      rw [List.lookup_cons] at listed
      by_cases here : first = key
      · rw [here, beq_self_eq_true] at listed
        cases listed
        rw [insertEntry, if_pos here, here]
      · rw [beq_eq_false_iff_ne.mpr (Ne.symm here)] at listed
        rw [insertEntry, if_neg here, ih listed]

/-- A new key is listed last. -/
theorem entries_insert_of_get?_eq_none {dict : Dict κ ν} {key : κ} (absent : dict.get? key = none)
    (value : ν) : (dict.insert key value).entries = dict.entries ++ [(key, value)] := by
  show insertEntry key value dict.entries = _
  have unlisted : dict.entries.lookup key = none := absent
  generalize dict.entries = entries at unlisted
  induction entries with
  | nil => rfl
  | cons entry rest ih =>
      rcases entry with ⟨first, old⟩
      rw [List.lookup_cons] at unlisted
      by_cases here : first = key
      · rw [here, beq_self_eq_true] at unlisted
        cases unlisted
      · rw [beq_eq_false_iff_ne.mpr (Ne.symm here)] at unlisted
        rw [insertEntry, if_neg here, ih unlisted, List.cons_append]

/-- The last entry stays the last one when its value is replaced. -/
theorem entries_insert_of_last {dict : Dict κ ν} {earlier : List (κ × ν)} {key : κ} {old : ν}
    (last : dict.entries = earlier ++ [(key, old)]) (value : ν) :
    (dict.insert key value).entries = earlier ++ [(key, value)] := by
  have distinct := dict.distinct
  show insertEntry key value dict.entries = _
  rw [last] at distinct ⊢
  clear last
  induction earlier with
  | nil => simp [insertEntry]
  | cons entry rest ih =>
      rcases entry with ⟨first, other⟩
      rw [List.cons_append, List.map_cons, List.nodup_cons] at distinct
      have different : first ≠ key := by
        rintro rfl
        exact distinct.1 (by simp)
      rw [List.cons_append, insertEntry, if_neg different, ih distinct.2, List.cons_append]

/-- The dictionary with every value replaced by its image. -/
def mapValues {μ : Type*} (image : ν → μ) (dict : Dict κ ν) : Dict κ μ :=
  ⟨dict.entries.map fun entry => (entry.1, image entry.2), by
    rw [List.map_map]
    exact dict.distinct⟩

theorem mapValues_insert {μ : Type*} (image : ν → μ) (dict : Dict κ ν) (key : κ) (value : ν) :
    (dict.insert key value).mapValues image = (dict.mapValues image).insert key (image value) := by
  apply ext_entries
  show (insertEntry key value dict.entries).map _ =
    insertEntry key (image value) (dict.entries.map _)
  induction dict.entries with
  | nil => rfl
  | cons entry rest ih =>
      rcases entry with ⟨first, old⟩
      by_cases here : first = key
      · simp [insertEntry, here]
      · simp [insertEntry, here, ih]

theorem get?_mapValues {μ : Type*} (image : ν → μ) (dict : Dict κ ν) (key : κ) :
    (dict.mapValues image).get? key = (dict.get? key).map image := by
  show (dict.entries.map _).lookup key = (dict.entries.lookup key).map image
  induction dict.entries with
  | nil => rfl
  | cons entry rest ih =>
      rcases entry with ⟨first, old⟩
      rw [List.map_cons, List.lookup_cons, List.lookup_cons, ih]
      cases key == first <;> rfl

/-- Insert a value for a key that has none. -/
def emplace (dict : Dict κ ν) (key : κ) (value : ν) : Dict κ ν :=
  if (dict.get? key).isSome then dict else dict.insert key value

/-- Remove a key. -/
def erase (dict : Dict κ ν) (key : κ) : Dict κ ν :=
  ⟨dict.entries.filter fun entry => entry.1 ≠ key,
    dict.distinct.sublist (List.filter_sublist.map Prod.fst)⟩

/-- The number of keys. -/
def size (dict : Dict κ ν) : ℕ := dict.entries.length

/-- A removal changes exactly one key. -/
theorem get?_erase (dict : Dict κ ν) (key other : κ) :
    (dict.erase key).get? other = if other = key then none else dict.get? other := by
  show (dict.entries.filter fun entry => entry.1 ≠ key).lookup other = _
  rw [get?]
  induction dict.entries with
  | nil => simp
  | cons entry rest ih =>
      rcases entry with ⟨first, value⟩
      by_cases here : first = key
      · subst first
        rw [List.filter_cons_of_neg (by simp), ih, List.lookup_cons]
        by_cases same : other = key
        · simp [same]
        · simp [same, beq_eq_false_iff_ne.mpr same]
      · rw [List.filter_cons_of_pos (by simpa using here), List.lookup_cons, List.lookup_cons, ih]
        by_cases same : other = first
        · subst other
          simp [here]
        · simp [beq_eq_false_iff_ne.mpr same]

/-- A listed entry is the one that a lookup finds. -/
theorem mem_entries_iff (dict : Dict κ ν) {key : κ} {value : ν} :
    (key, value) ∈ dict.entries ↔ dict.get? key = some value := by
  obtain ⟨entries, distinct⟩ := dict
  show (key, value) ∈ entries ↔ entries.lookup key = some value
  induction entries with
  | nil => simp
  | cons entry rest ih =>
      rcases entry with ⟨first, old⟩
      rw [List.map_cons, List.nodup_cons] at distinct
      rw [List.lookup_cons]
      by_cases here : key = first
      · subst first
        have absent : (key, value) ∉ rest := fun listed =>
          distinct.1 (List.mem_map.mpr ⟨(key, value), listed, rfl⟩)
        simp [absent, eq_comm]
      · rw [beq_eq_false_iff_ne.mpr here]
        simp only [List.mem_cons, Prod.mk.injEq, here, false_and, false_or]
        exact ih distinct.2

/-- Insert a list of entries one after the other. -/
def insertAll (dict : Dict κ ν) (items : List (κ × ν)) : Dict κ ν :=
  items.foldl (fun dict item => dict.insert item.1 item.2) dict

theorem get?_insertAll_of_not_mem {dict : Dict κ ν} {items : List (κ × ν)} {key : κ}
    (absent : key ∉ items.map Prod.fst) : (dict.insertAll items).get? key = dict.get? key := by
  induction items generalizing dict with
  | nil => rfl
  | cons item rest ih =>
      rw [List.map_cons, List.mem_cons, not_or] at absent
      rw [insertAll, List.foldl_cons]
      exact (ih absent.2).trans (get?_insert_of_ne dict absent.1 item.2)

/-- Items with distinct keys can all be looked up after their insertion. -/
theorem get?_insertAll_of_mem {dict : Dict κ ν} {items : List (κ × ν)}
    (distinct : (items.map Prod.fst).Nodup) {key : κ} {value : ν}
    (isMember : (key, value) ∈ items) :
    (dict.insertAll items).get? key = some value := by
  induction items generalizing dict with
  | nil => simp at isMember
  | cons item rest ih =>
      rw [List.map_cons, List.nodup_cons] at distinct
      rw [insertAll, List.foldl_cons]
      rcases List.mem_cons.mp isMember with rfl | later
      · exact (get?_insertAll_of_not_mem distinct.1).trans (get?_insert_self dict key value)
      · exact ih distinct.2 later

/-! ## The keys -/

/-- The keys in the order of their first insertion. -/
def keys (dict : Dict κ ν) : List κ := dict.entries.map Prod.fst

omit [DecidableEq κ] in
@[simp]
theorem keys_empty : (empty : Dict κ ν).keys = [] := rfl

omit [DecidableEq κ] in
theorem nodup_keys (dict : Dict κ ν) : dict.keys.Nodup := dict.distinct

omit [DecidableEq κ] in
theorem length_keys (dict : Dict κ ν) : dict.keys.length = dict.size := List.length_map _

/-- The keys are those that a lookup finds. -/
theorem mem_keys_iff (dict : Dict κ ν) {key : κ} :
    key ∈ dict.keys ↔ ∃ value, dict.get? key = some value := by
  simp [keys, mem_entries_iff]

/-- A new key comes last. -/
theorem keys_insert_of_new {dict : Dict κ ν} {key : κ} (isNew : key ∉ dict.keys) (value : ν) :
    (dict.insert key value).keys = dict.keys ++ [key] := by
  have absent : dict.get? key = none := by
    cases found : dict.get? key with
    | none => rfl
    | some old => exact absurd (dict.mem_keys_iff.mpr ⟨old, found⟩) isNew
  simp [keys, entries_insert_of_get?_eq_none absent]

/-- A removal takes one key away. -/
theorem perm_keys_erase {dict : Dict κ ν} {key : κ} (isKey : key ∈ dict.keys) :
    dict.keys.Perm (key :: (dict.erase key).keys) := by
  have erased : (dict.erase key).keys = dict.keys.erase key := by
    rw [dict.nodup_keys.erase_eq_filter]
    simp [keys, erase, List.filter_map, Function.comp_def, bne, beq_eq_decide]
  rw [erased]
  exact List.perm_cons_erase isKey

end Dict

end Datamime.Math
