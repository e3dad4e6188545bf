/-
# Counters logs

The abstract content of a counters file: the event groups that its header lines
name and the samples that its other lines carry. A layout carries the facts that
make a header line unambiguous, a sample carries a counter for each event of its
group. The cells that a table of such a log is expected to hold are stated here,
without reference to how the reader computes them.
-/

import Datamime.Csv.ToCsv

namespace Datamime.Csv

open Datamime.Math

/-- An event group, as its header line names it. -/
structure Group where
  id : ℤ
  rotating : List Token
  deriving DecidableEq

/-- The events of a group in the order of its counters. -/
def Group.events (group : Group) : List Token := fixedEvents ++ group.rotating

/-- The words of a header line. -/
def Group.header (group : Group) : List Token :=
  "group".toList :: Text.ofInt group.id :: group.events

/-- Event groups with distinct ids, whose rotating events name columns of their own. -/
structure Layout where
  groups : List Group
  distinctIds : (groups.map Group.id).Nodup
  distinctColumns :
    (leadColumns true ++ (fixedEvents ++ groups.flatMap Group.rotating)).Nodup

/-- The columns of the table. -/
def Layout.columns (layout : Layout) : List Token :=
  leadColumns true ++ (fixedEvents ++ layout.groups.flatMap Group.rotating)

theorem Layout.nodup_columns (layout : Layout) : layout.columns.Nodup := layout.distinctColumns

/-- A complete sample: one counter for each event of one of the groups. -/
structure Sample (layout : Layout) where
  group : Group
  isMember : group ∈ layout.groups
  cpu : ℤ
  tid : ℤ
  nanoseconds : ℤ
  tsc : ℤ
  timeEnabled : ℤ
  timeRunning : ℤ
  localMemTraffic : ℤ
  l3Occupancy : ℤ
  counts : List ℤ
  complete : counts.length = group.events.length

namespace Sample

variable {layout : Layout}

/-- The numbers on the line of a sample. -/
def values (sample : Sample layout) : List ℤ :=
  sample.group.id :: sample.cpu :: sample.tid :: sample.nanoseconds :: sample.tsc ::
    sample.timeEnabled :: sample.timeRunning :: sample.localMemTraffic ::
      sample.l3Occupancy :: sample.counts

/-- The cumulative counter of an event. -/
def count (sample : Sample layout) (event : Token) : ℤ :=
  sample.counts.getD (sample.group.events.idxOf event) 0

end Sample

variable {layout : Layout}

/-- Printed numbers are read back. -/
theorem toInts_map_ofInt (values : List ℤ) : toInts (values.map Text.ofInt) = .ok values := by
  induction values with
  | nil => rfl
  | cons value rest ih =>
      rw [List.map_cons, toInts, Text.toInt?_ofInt]
      dsimp only
      rw [ih, ok_bind]
      rfl

/-- The text has the header lines of the layout and the lines of the samples. -/
def ReadsAs (text : List Char) (layout : Layout) (samples : List (Sample layout)) : Prop :=
  ∃ data, separateHeaders (thymeLog text) = .ok (layout.groups.map Group.header, data) ∧
    List.Forall₂ (fun tokens sample => toInts tokens = .ok sample.values) data samples

/-! ## The two kinds of previous sample -/

/-- The earlier samples of a group. -/
def ofGroup (past : List (Sample layout)) (id : ℤ) : List (Sample layout) :=
  past.filter (·.group.id = id)

/-- The sample of the same group that comes right before. -/
def previousOfGroup (past : List (Sample layout)) (sample : Sample layout) :
    Option (Sample layout) := (ofGroup past sample.group.id).getLast?

/-- A field of the previous sample, zero if there is none. -/
def fieldOf (previous : Option (Sample layout)) (field : Sample layout → ℤ) : ℤ :=
  (previous.map field).getD 0

/-- What a field gained since the group's previous sample. -/
def gainInGroup (past : List (Sample layout)) (sample : Sample layout)
    (field : Sample layout → ℤ) : ℤ :=
  field sample - fieldOf (previousOfGroup past sample) field

/-- What a field gained since the previous sample of any group. -/
def gain (past : List (Sample layout)) (sample : Sample layout)
    (field : Sample layout → ℤ) : ℤ :=
  field sample - fieldOf past.getLast? field

/-- Every sample of a list stands in a relation to the samples before it. -/
def AllFrom (good : List (Sample layout) → Sample layout → Prop) (past : List (Sample layout)) :
    List (Sample layout) → Prop
  | [] => True
  | sample :: rest => good past sample ∧ AllFrom good (past ++ [sample]) rest

theorem allFrom_iff {good : List (Sample layout) → Sample layout → Prop}
    {past samples : List (Sample layout)} :
    AllFrom good past samples ↔
      ∀ early sample, early ++ [sample] <+: samples → good (past ++ early) sample := by
  induction samples generalizing past with
  | nil => simp [AllFrom]
  | cons first rest ih =>
      rw [AllFrom, ih]
      constructor
      · rintro ⟨isGood, restGood⟩ early sample isPrefix
        cases early with
        | nil =>
            rw [List.nil_append, List.cons_prefix_cons] at isPrefix
            rw [List.append_nil, isPrefix.1]
            exact isGood
        | cons other early =>
            rw [List.cons_append, List.cons_prefix_cons] at isPrefix
            obtain ⟨rfl, isPrefix⟩ := isPrefix
            have later := restGood early sample isPrefix
            rwa [List.append_assoc] at later
      · intro isGood
        refine ⟨?_, fun early sample isPrefix => ?_⟩
        · have here := isGood [] first (by simp)
          rwa [List.append_nil] at here
        · rw [List.append_assoc]
          exact isGood (first :: early) sample (List.cons_prefix_cons.mpr ⟨rfl, isPrefix⟩)

/-- Since the group's previous sample the group has run, though not for longer than it
was enabled. -/
def Advances (past : List (Sample layout)) (sample : Sample layout) : Prop :=
  0 < gainInGroup past sample Sample.timeRunning ∧
    gainInGroup past sample Sample.timeRunning ≤ gainInGroup past sample Sample.timeEnabled

/-- In every group the cumulative times increase, and the group never runs longer
than it is enabled. -/
def TimesAdvance (samples : List (Sample layout)) : Prop := AllFrom Advances [] samples

theorem timesAdvance_iff {samples : List (Sample layout)} :
    TimesAdvance samples ↔
      ∀ past sample, past ++ [sample] <+: samples → Advances past sample := by
  simp only [TimesAdvance, allFrom_iff, List.nil_append]

/-! ## The cells of a row -/

/-- What the totals of a group hold after samples with these cumulative times: each
time is overwritten by the interval that ends with it. -/
def leftover (times : List ℤ) : ℤ := times.foldl (fun total time => time - total) 0

@[simp] theorem leftover_nil : leftover [] = 0 := rfl

theorem leftover_concat (times : List ℤ) (time : ℤ) :
    leftover (times ++ [time]) = time - leftover times := by
  simp [leftover]

/-- The leftover of a time of the sample's group. -/
def storedTime (past : List (Sample layout)) (sample : Sample layout)
    (field : Sample layout → ℤ) : ℤ :=
  leftover ((ofGroup past sample.group.id).map field)

/-- The interval of a time that the reader attributes to a sample. -/
def readInterval (past : List (Sample layout)) (sample : Sample layout)
    (field : Sample layout → ℤ) : ℤ := field sample - storedTime past sample field

/-- The multiplier that the reader attributes to a sample. -/
def rowMultiplier (past : List (Sample layout)) (sample : Sample layout) : ℚ :=
  (readInterval past sample Sample.timeRunning : ℚ) /
    (readInterval past sample Sample.timeEnabled : ℚ)

/-- The cell of a column in the row of a sample. -/
def rowCell (past : List (Sample layout)) (sample : Sample layout) (column : Token) : Cell :=
  if column = "timestamp".toList then some (sample.tsc : ℚ)
  else if column = "ref_cycles".toList then some (gain past sample Sample.tsc : ℚ)
  else if column = "local_mem_traffic".toList then
    some (gain past sample Sample.localMemTraffic : ℚ)
  else if column = "l3_occupancy".toList then some (gain past sample Sample.l3Occupancy : ℚ)
  else if column ∈ sample.group.events then
    some ((gainInGroup past sample (·.count column) : ℚ) * (1 / rowMultiplier past sample))
  else none

/-- The row of a sample. -/
def expectedRow (past : List (Sample layout)) (sample : Sample layout) : List Cell :=
  layout.columns.map (rowCell past sample)

/-- The rows of a list of samples that follow others. -/
def expectedRows (past : List (Sample layout)) : List (Sample layout) → List (List Cell)
  | [] => []
  | sample :: rest => expectedRow past sample :: expectedRows (past ++ [sample]) rest

/-- The reader accepts the times of a sample: they pass its assertions, and no division
by zero occurs. -/
def Accepts (past : List (Sample layout)) (sample : Sample layout) : Prop :=
  (ofGroup past sample.group.id ≠ [] →
    storedTime past sample Sample.timeEnabled < sample.timeEnabled ∧
      storedTime past sample Sample.timeRunning < sample.timeRunning) ∧
  0 < rowMultiplier past sample ∧ rowMultiplier past sample ≤ 1

end Datamime.Csv
