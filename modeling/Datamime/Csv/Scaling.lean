/-
# The multiplexing ratio of a sample

A group that shares its counters with others counts only for a part of the time
for which it is enabled. The cell of an event should be scaled by the ratio of
the two times over the sample's own interval. The reader keeps the last interval
where it should keep the last cumulative time, so from the third sample of a
group on an alternating sum of earlier times leaks into the interval.
-/

import Datamime.Csv.Rows

namespace Datamime.Csv

open Datamime.Math

variable {layout : Layout}

/-- The fraction of the sample's own interval for which its group was counting. -/
def ownRatio (past : List (Sample layout)) (sample : Sample layout) : ℚ :=
  (gainInGroup past sample Sample.timeRunning : ℚ) /
    (gainInGroup past sample Sample.timeEnabled : ℚ)

/-- The cells of a sample are its gains, scaled by the ratio of its own interval. -/
def ScaledByOwnRatio (table : Table) (past : List (Sample layout)) (sample : Sample layout) :
    Prop :=
  ∀ event ∈ sample.group.events, table.cell past.length event =
    some (some ((gainInGroup past sample (·.count event) : ℚ) / ownRatio past sample))

/-- The alternating sum of the cumulative times of a group before its previous sample. -/
def carriedTime (past : List (Sample layout)) (sample : Sample layout)
    (field : Sample layout → ℤ) : ℤ :=
  leftover ((ofGroup past sample.group.id).map field).dropLast

/-- No counter of the sample's group moved, or the times that are carried over from
before the previous sample have the same ratio as the sample's own interval. -/
def UnaffectedByCarry (past : List (Sample layout)) (sample : Sample layout) : Prop :=
  (∀ event ∈ sample.group.events, gainInGroup past sample (·.count event) = 0) ∨
    carriedTime past sample Sample.timeRunning * gainInGroup past sample Sample.timeEnabled =
      carriedTime past sample Sample.timeEnabled * gainInGroup past sample Sample.timeRunning

/-- The interval that the reader attributes to a sample exceeds the sample's own one
by the carried time. -/
theorem readInterval_eq (past : List (Sample layout)) (sample : Sample layout)
    (field : Sample layout → ℤ) :
    readInterval past sample field =
      gainInGroup past sample field + carriedTime past sample field := by
  rw [readInterval, gainInGroup, carriedTime, storedTime, previousOfGroup]
  cases List.eq_nil_or_concat (ofGroup past sample.group.id) with
  | inl empty => simp [empty, fieldOf]
  | inr nonempty =>
      obtain ⟨earlier, last, shape⟩ := nonempty
      rw [shape, List.concat_eq_append, List.map_append, List.map_singleton, leftover_concat,
        List.dropLast_concat, List.getLast?_concat]
      simp only [fieldOf, Option.map_some, Option.getD_some]
      ring

/-! ## The assertions hold -/

/-- The totals of a group never hold more than its cumulative times, and never more
running than enabled time. -/
structure TotalsBounded (samples : List (Sample layout)) : Prop where
  nonneg : 0 ≤ leftover (samples.map Sample.timeRunning)
  ordered : leftover (samples.map Sample.timeRunning) ≤ leftover (samples.map Sample.timeEnabled)
  lag_nonneg : leftover (samples.map Sample.timeRunning) ≤
    fieldOf samples.getLast? Sample.timeRunning
  lag_ordered :
    fieldOf samples.getLast? Sample.timeRunning - leftover (samples.map Sample.timeRunning) ≤
      fieldOf samples.getLast? Sample.timeEnabled - leftover (samples.map Sample.timeEnabled)

theorem totalsBounded_nil : TotalsBounded ([] : List (Sample layout)) := by
  constructor <;> simp [fieldOf]

theorem totalsBounded_concat {samples : List (Sample layout)} {sample : Sample layout}
    (bounded : TotalsBounded samples)
    (runs : 0 < sample.timeRunning - fieldOf samples.getLast? Sample.timeRunning)
    (within : sample.timeRunning - fieldOf samples.getLast? Sample.timeRunning ≤
      sample.timeEnabled - fieldOf samples.getLast? Sample.timeEnabled) :
    TotalsBounded (samples ++ [sample]) := by
  obtain ⟨nonneg, ordered, lag_nonneg, lag_ordered⟩ := bounded
  constructor
  all_goals
    simp only [List.map_append, List.map_cons, List.map_nil, leftover_concat,
      List.getLast?_concat, fieldOf, Option.map_some, Option.getD_some] at *
    omega

theorem timesAdvance_of_initial {early samples : List (Sample layout)}
    (isPrefix : early <+: samples) (advance : TimesAdvance samples) : TimesAdvance early :=
  timesAdvance_iff.mpr fun past sample shorter =>
    timesAdvance_iff.mp advance past sample (shorter.trans isPrefix)

/-- After every sample the totals of every group are bounded. -/
theorem totalsBounded_ofGroup {past : List (Sample layout)} (advance : TimesAdvance past)
    (id : ℤ) : TotalsBounded (ofGroup past id) := by
  induction past using List.reverseRecOn with
  | nil => exact totalsBounded_nil
  | append_singleton past sample ih =>
      have bounded := ih (timesAdvance_of_initial (List.prefix_append _ _) advance)
      rw [ofGroup_concat]
      split
      · rename_i here
        obtain ⟨runs, within⟩ := timesAdvance_iff.mp advance past sample (List.prefix_refl _)
        subst id
        exact totalsBounded_concat bounded runs within
      · exact bounded

/-- Times that advance are accepted. -/
theorem accepts_of_timesAdvance {past : List (Sample layout)} {sample : Sample layout}
    (advance : TimesAdvance (past ++ [sample])) : Accepts past sample := by
  have bounded := totalsBounded_ofGroup
    (timesAdvance_of_initial (List.prefix_append past [sample]) advance) sample.group.id
  obtain ⟨runs, within⟩ := timesAdvance_iff.mp advance past sample (List.prefix_refl _)
  obtain ⟨nonneg, ordered, lag_nonneg, lag_ordered⟩ := bounded
  have running : 0 < readInterval past sample Sample.timeRunning := by
    simp only [readInterval, storedTime, gainInGroup, previousOfGroup] at *
    omega
  have enabled : readInterval past sample Sample.timeRunning ≤
      readInterval past sample Sample.timeEnabled := by
    simp only [readInterval, storedTime, gainInGroup, previousOfGroup] at *
    omega
  have enabledPositive : (0 : ℚ) < readInterval past sample Sample.timeEnabled :=
    Int.cast_pos.mpr (lt_of_lt_of_le running enabled)
  refine ⟨fun _ => ?_, ?_, ?_⟩
  · simp only [readInterval] at running enabled
    omega
  · exact div_pos (Int.cast_pos.mpr running) enabledPositive
  · exact (div_le_one enabledPositive).mpr (Int.cast_le.mpr enabled)

/-- A log whose times advance is read without a failing assertion or a division by zero. -/
theorem toCsv_of_timesAdvance {text : List Char} {samples : List (Sample layout)}
    (reads : ReadsAs text layout samples) (advance : TimesAdvance samples) :
    toCsv true text = .ok ⟨layout.columns, expectedRows [] samples⟩ := by
  rw [toCsv_eq_ok_iff reads, allFrom_iff]
  refine ⟨fun early sample isPrefix => ?_, rfl⟩
  rw [List.nil_append]
  exact accepts_of_timesAdvance (timesAdvance_of_initial isPrefix advance)

/-! ## When the cells are scaled by the own ratio -/

/-- The reader's multiplier is the own ratio precisely when the carried times have
that ratio, too. -/
theorem rowMultiplier_eq_ownRatio_iff {past : List (Sample layout)} {sample : Sample layout}
    (accepts : Accepts past sample)
    (runs : 0 < gainInGroup past sample Sample.timeRunning)
    (within : gainInGroup past sample Sample.timeRunning ≤
      gainInGroup past sample Sample.timeEnabled) :
    rowMultiplier past sample = ownRatio past sample ↔
      carriedTime past sample Sample.timeRunning * gainInGroup past sample Sample.timeEnabled =
        carriedTime past sample Sample.timeEnabled *
          gainInGroup past sample Sample.timeRunning := by
  have readNonzero : (readInterval past sample Sample.timeEnabled : ℚ) ≠ 0 := by
    intro zero
    have positive := accepts.2.1
    rw [rowMultiplier, zero, div_zero] at positive
    exact lt_irrefl 0 positive
  have ownNonzero : (gainInGroup past sample Sample.timeEnabled : ℚ) ≠ 0 :=
    Int.cast_ne_zero.mpr (lt_of_lt_of_le runs within).ne'
  rw [rowMultiplier, ownRatio, div_eq_div_iff readNonzero ownNonzero, readInterval_eq,
    readInterval_eq]
  norm_cast
  constructor <;> intro equal <;> linarith

theorem scaled_eq_iff {gain multiplier ratio : ℚ} (multiplierPositive : 0 < multiplier)
    (ratioPositive : 0 < ratio) :
    gain * (1 / multiplier) = gain / ratio ↔ gain = 0 ∨ multiplier = ratio := by
  rw [mul_one_div, div_eq_div_iff multiplierPositive.ne' ratioPositive.ne', mul_comm gain ratio,
    mul_comm gain multiplier, mul_eq_mul_right_iff, or_comm, eq_comm (a := ratio)]

/-- In a log whose times advance, every sample is read, and its cells are scaled by its
own ratio precisely when the carried times do not affect it. -/
theorem scaledByOwnRatio_iff_unaffectedByCarry {text : List Char} {samples : List (Sample layout)}
    (reads : ReadsAs text layout samples) (advance : TimesAdvance samples) :
    ∃ table, toCsv true text = .ok table ∧
      ∀ past sample rest, samples = past ++ sample :: rest →
        (ScaledByOwnRatio table past sample ↔ UnaffectedByCarry past sample) := by
  refine ⟨_, toCsv_of_timesAdvance reads advance, ?_⟩
  rintro past sample rest rfl
  have isPrefix : past ++ [sample] <+: past ++ sample :: rest := ⟨rest, by simp⟩
  have accepts := accepts_of_timesAdvance (timesAdvance_of_initial isPrefix advance)
  obtain ⟨runs, within⟩ := timesAdvance_iff.mp advance past sample isPrefix
  have ownPositive : 0 < ownRatio past sample :=
    div_pos (Int.cast_pos.mpr runs) (Int.cast_pos.mpr (lt_of_lt_of_le runs within))
  have cellwise : ∀ event ∈ sample.group.events,
      (Table.cell ⟨layout.columns, expectedRows [] (past ++ sample :: rest)⟩ past.length event =
        some (some ((gainInGroup past sample (·.count event) : ℚ) / ownRatio past sample)) ↔
      gainInGroup past sample (·.count event) = 0 ∨
        rowMultiplier past sample = ownRatio past sample) := by
    intro event isEvent
    rw [cell_expected (Layout.mem_columns sample.isMember isEvent),
      rowCell_of_isEvent sample past isEvent, Option.some_inj, Option.some_inj,
      scaled_eq_iff accepts.2.1 ownPositive, Int.cast_eq_zero]
  rw [ScaledByOwnRatio, UnaffectedByCarry, ← rowMultiplier_eq_ownRatio_iff accepts runs within]
  constructor
  · intro scaled
    by_cases equal : rowMultiplier past sample = ownRatio past sample
    · exact .inr equal
    · exact .inl fun event isEvent =>
        ((cellwise event isEvent).mp (scaled event isEvent)).resolve_right equal
  · rintro (still | equal) event isEvent
    · exact (cellwise event isEvent).mpr (.inl (still event isEvent))
    · exact (cellwise event isEvent).mpr (.inr equal)

/-! ## A group that is multiplexed unevenly -/

/-- One group without rotating events. -/
def unevenLayout : Layout where
  groups := [⟨4, []⟩]
  distinctIds := by decide
  distinctColumns := by decide

/-- Three samples of the group. It runs for the whole first interval and for half of
the second and of the third; every event occurs once in each interval. -/
def unevenSamples : List (Sample unevenLayout) :=
  [⟨⟨4, []⟩, by decide, 0, 7, 10, 10, 10, 10, 0, 0, [1, 1, 1], rfl⟩,
    ⟨⟨4, []⟩, by decide, 0, 7, 20, 20, 20, 15, 0, 0, [2, 2, 2], rfl⟩,
    ⟨⟨4, []⟩, by decide, 0, 7, 30, 30, 30, 20, 0, 0, [3, 3, 3], rfl⟩]

/-- The counters file of these samples. -/
def unevenLog : List Char :=
  "group 4 UNHALTED_REFERENCE_CYCLES INST_RETIRED CPU_CLK_UNHALTED
4 0 7 10 10 10 10 0 0 1 1 1
4 0 7 20 20 20 15 0 0 2 2 2
4 0 7 30 30 30 20 0 0 3 3 3
".toList

theorem readsAs_unevenLog : ReadsAs unevenLog unevenLayout unevenSamples := by
  refine ⟨unevenSamples.map fun sample => sample.values.map Text.ofInt, ?_, ?_⟩
  · decide +kernel
  · exact List.forall₂_map_left_iff.mpr
      (List.forall₂_same.mpr fun sample _ => toInts_map_ofInt sample.values)

theorem timesAdvance_unevenSamples : TimesAdvance unevenSamples := by
  simp only [TimesAdvance, unevenSamples, AllFrom, Advances]
  decide +kernel

/-- The third sample should be scaled by one half, the reader scales it by three quarters. -/
theorem uneven_sample_scaled_by_wrong_ratio :
    ReadsAs unevenLog unevenLayout unevenSamples ∧ TimesAdvance unevenSamples ∧
      ∃ table, toCsv true unevenLog = .ok table ∧
        table.cell 2 "INST_RETIRED".toList = some (some (4 / 3)) ∧
        ∃ past sample, unevenSamples = past ++ [sample] ∧ past.length = 2 ∧
          ownRatio past sample = 1 / 2 ∧ ¬ ScaledByOwnRatio table past sample := by
  refine ⟨readsAs_unevenLog, timesAdvance_unevenSamples,
    ⟨unevenLayout.columns, expectedRows [] unevenSamples⟩,
    toCsv_of_timesAdvance readsAs_unevenLog timesAdvance_unevenSamples, by decide +kernel,
    unevenSamples.take 2, unevenSamples.getLast (by decide), rfl, rfl, by decide +kernel, ?_⟩
  intro scaled
  exact absurd (scaled "INST_RETIRED".toList (by decide)) (by decide +kernel)

/-- In that log the times advance, so the exact condition applies to each of its samples. -/
theorem unevenLog_scaled_iff :
    ∃ table, toCsv true unevenLog = .ok table ∧
      ∀ past sample rest, unevenSamples = past ++ sample :: rest →
        (ScaledByOwnRatio table past sample ↔ UnaffectedByCarry past sample) :=
  scaledByOwnRatio_iff_unaffectedByCarry readsAs_unevenLog timesAdvance_unevenSamples

end Datamime.Csv
