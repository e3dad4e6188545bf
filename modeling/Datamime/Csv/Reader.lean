/-
# What the reader computes

Each function of the reader is described by its effect on a log: the header lines
yield the positions of the events, a datapoint yields the row whose cells are the
values looked up in it, and one round of the loop over the samples yields the
expected row of its sample, provided the state describes the samples before it.
-/

import Datamime.Csv.Log

namespace Datamime.Csv

open Datamime.Math

/-! ## Header lines -/

/-- The positions of the events of a group. -/
def Group.positions (group : Group) : Dict Token ℕ := Dict.empty.insertAll group.events.zipIdx

theorem fst_zipIdx {α : Type} (list : List α) (start : ℕ) :
    (list.zipIdx start).map Prod.fst = list := List.zipIdx_map_fst start list

theorem Group.get?_positions {group : Group} (distinct : group.events.Nodup) (event : Token)
    (position : ℕ) :
    group.positions.get? event = some position ↔ group.events[position]? = some event := by
  have keys : (group.events.zipIdx.map Prod.fst).Nodup := by rwa [fst_zipIdx]
  constructor
  · intro found
    have isMember : event ∈ group.events := by
      by_contra absent
      rw [Group.positions, Dict.get?_insertAll_of_not_mem (by rwa [fst_zipIdx]),
        Dict.get?_empty] at found
      cases found
    obtain ⟨other, here⟩ := List.mem_iff_getElem?.mp isMember
    have listed : (event, other) ∈ group.events.zipIdx := by
      rw [List.mem_zipIdx_iff_getElem?]
      exact here
    rw [Group.positions, Dict.get?_insertAll_of_mem keys listed] at found
    cases found
    exact here
  · intro here
    apply Dict.get?_insertAll_of_mem keys
    rw [List.mem_zipIdx_iff_getElem?]
    exact here

/-- The dictionary of groups that the header lines yield. -/
def groupsOf (groups : List Group) : Groups :=
  Dict.empty.insertAll (groups.map fun group => (Text.ofInt group.id, group.positions))

theorem ofInt_injective : Function.Injective Text.ofInt := by
  intro a b equal
  have readBack := congrArg Text.toInt? equal
  simpa using readBack

theorem nodup_ids {groups : List Group} (distinct : (groups.map Group.id).Nodup) :
    ((groups.map fun group => (Text.ofInt group.id, group.positions)).map Prod.fst).Nodup := by
  have same : (groups.map fun group => (Text.ofInt group.id, group.positions)).map Prod.fst =
      (groups.map Group.id).map Text.ofInt := by
    simp [Function.comp_def]
  rw [same]
  exact distinct.map ofInt_injective

theorem foldlM_addHeader {groups : List Group} {dict : Groups} {allEvents : List Token}
    (distinct : (groups.map Group.id).Nodup)
    (fresh : ∀ group ∈ groups, dict.get? (Text.ofInt group.id) = none) :
    (groups.map Group.header).foldlM addHeader (dict, allEvents) =
      .ok (dict.insertAll (groups.map fun group => (Text.ofInt group.id, group.positions)),
        allEvents ++ groups.flatMap Group.rotating) := by
  induction groups generalizing dict allEvents with
  | nil => simp [Dict.insertAll, pure, Except.pure]
  | cons group rest ih =>
      rw [List.map_cons, List.nodup_cons] at distinct
      have first : addHeader (dict, allEvents) group.header =
          .ok (dict.insert (Text.ofInt group.id) group.positions, allEvents ++ group.rotating) := by
        have absent : groupEvents dict (Text.ofInt group.id) = Dict.empty := by
          rw [groupEvents, fresh group (by simp), Option.getD_none]
        rw [Group.header, addHeader, absent]
        rfl
      have later : ∀ other ∈ rest,
          (dict.insert (Text.ofInt group.id) group.positions).get? (Text.ofInt other.id) =
            none := by
        intro other isMember
        have different : Text.ofInt other.id ≠ Text.ofInt group.id := fun equal =>
          distinct.1 (List.mem_map.mpr ⟨other, isMember, ofInt_injective equal⟩)
        rw [Dict.get?_insert_of_ne dict different]
        exact fresh other (List.mem_cons_of_mem _ isMember)
      rw [List.map_cons, List.foldlM_cons, first]
      show (rest.map Group.header).foldlM addHeader _ = _
      rw [ih distinct.2 later]
      simp [Dict.insertAll]

/-- The header lines of a layout are understood as the layout. -/
theorem getGroups_headers (layout : Layout) :
    getGroups (layout.groups.map Group.header) =
      .ok (groupsOf layout.groups, fixedEvents ++ layout.groups.flatMap Group.rotating) :=
  foldlM_addHeader layout.distinctIds fun _ _ => Dict.get?_empty _

theorem Layout.distinctEvents (layout : Layout) {group : Group} (isMember : group ∈ layout.groups) :
    group.events.Nodup := by
  have distinct := (List.nodup_append.mp layout.distinctColumns).2.1
  rw [List.nodup_append] at distinct
  rw [Group.events, List.nodup_append]
  refine ⟨distinct.1, ?_, ?_⟩
  · exact (List.nodup_flatMap.mp distinct.2.1).1 group isMember
  · intro event isFixed other isRotating
    exact distinct.2.2 event isFixed other (List.mem_flatMap.mpr ⟨group, isMember, isRotating⟩)

theorem Layout.mem_columns {layout : Layout} {group : Group} (isMember : group ∈ layout.groups)
    {event : Token} (isEvent : event ∈ group.events) : event ∈ layout.columns := by
  rw [Group.events, List.mem_append] at isEvent
  rw [Layout.columns, List.mem_append, List.mem_append, List.mem_flatMap]
  exact .inr (isEvent.imp_right fun isRotating => ⟨group, isMember, isRotating⟩)

theorem Layout.not_mem_leadColumns {layout : Layout} {group : Group}
    (isMember : group ∈ layout.groups) {event : Token} (isEvent : event ∈ group.events) :
    event ∉ leadColumns true := by
  intro isLead
  refine (List.nodup_append.mp layout.distinctColumns).2.2 event isLead event ?_ rfl
  rw [Group.events, List.mem_append] at isEvent
  rw [List.mem_append, List.mem_flatMap]
  exact isEvent.imp_right fun isRotating => ⟨group, isMember, isRotating⟩

/-- A group of the layout is found with the positions of its events. -/
theorem groupEvents_groupsOf (layout : Layout) {group : Group} (isMember : group ∈ layout.groups) :
    groupEvents (groupsOf layout.groups) (Text.ofInt group.id) = group.positions := by
  have listed : (Text.ofInt group.id, group.positions) ∈
      layout.groups.map fun group => (Text.ofInt group.id, group.positions) :=
    List.mem_map.mpr ⟨group, isMember, rfl⟩
  rw [groupEvents, groupsOf, Dict.get?_insertAll_of_mem (nodup_ids layout.distinctIds) listed,
    Option.getD_some]

/-! ## Rows -/

theorem get?_columnIdxs {columns : List Token} (distinct : columns.Nodup) {column : Token}
    (isMember : column ∈ columns) :
    (Dict.empty.insertAll columns.zipIdx).get? column = some (columns.idxOf column) := by
  apply Dict.get?_insertAll_of_mem (by rwa [fst_zipIdx])
  rw [List.mem_zipIdx_iff_getElem?]
  exact List.getElem?_idxOf isMember

theorem set_idxOf_map {columns : List Token} (distinct : columns.Nodup) {column : Token}
    (cells : Token → Cell) (cell : Cell) :
    (columns.map cells).set (columns.idxOf column) cell =
      columns.map (Function.update cells column cell) := by
  induction columns with
  | nil => rfl
  | cons first rest ih =>
      rw [List.nodup_cons] at distinct
      by_cases here : first = column
      · subst first
        rw [List.idxOf_cons_self, List.map_cons, List.set_cons_zero, List.map_cons,
          Function.update_self]
        congr 1
        apply List.map_congr_left
        intro other isMember
        rw [Function.update_of_ne]
        rintro rfl
        exact distinct.1 isMember
      · rw [List.idxOf_cons_ne _ here, List.map_cons, List.set_cons_succ, ih distinct.2,
          List.map_cons, Function.update_of_ne here]

/-- Values with distinct names end up in the columns of their names. -/
theorem fillRow_map {columns : List Token} (distinct : columns.Nodup) {items : List (Token × ℚ)}
    (named : ∀ item ∈ items, item.1 ∈ columns) (distinctNames : (items.map Prod.fst).Nodup)
    (cells : Token → Cell) :
    fillRow (Dict.empty.insertAll columns.zipIdx) items (columns.map cells) =
      .ok (columns.map fun column => (items.lookup column).or (cells column)) := by
  induction items generalizing cells with
  | nil => simp [fillRow]
  | cons item rest ih =>
      rcases item with ⟨name, value⟩
      rw [List.map_cons, List.nodup_cons] at distinctNames
      have found := get?_columnIdxs distinct (named (name, value) (by simp))
      rw [fillRow, entry, found]
      show fillRow _ rest ((columns.map cells).set _ _) = _
      rw [set_idxOf_map distinct,
        ih (fun item isMember => named item (List.mem_cons_of_mem _ isMember)) distinctNames.2]
      congr 2
      funext column
      rw [List.lookup_cons]
      by_cases here : column = name
      · subst column
        have absent : rest.lookup name = none := by
          rw [List.lookup_eq_none_iff]
          intro item isMember
          rw [bne_iff_ne]
          rintro rfl
          exact distinctNames.1 (List.mem_map.mpr ⟨item, isMember, rfl⟩)
        simp [absent]
      · rw [Function.update_of_ne here, beq_eq_false_iff_ne.mpr here]

/-- The row of a datapoint holds in each column what the datapoint has under its name. -/
theorem fillRow_entries {columns : List Token} (distinct : columns.Nodup)
    (datapoint : Dict Token ℚ) (named : ∀ item ∈ datapoint.entries, item.1 ∈ columns) :
    fillRow (Dict.empty.insertAll columns.zipIdx) datapoint.entries
        (List.replicate columns.length none) =
      .ok (columns.map datapoint.get?) := by
  have blank : List.replicate columns.length none = columns.map fun _ => (none : Cell) := by
    rw [List.map_const']
  -- Equality of words is the same test for the list lookup and for the dictionary.
  have sameLookup : ∀ column, datapoint.entries.lookup column = datapoint.get? column := by
    intro column
    rw [Dict.get?]
    congr 1
    exact lawful_beq_subsingleton _ _
  rw [blank, fillRow_map distinct named datapoint.distinct]
  simp [sameLookup]

end Datamime.Csv
