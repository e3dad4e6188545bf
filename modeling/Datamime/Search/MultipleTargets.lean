/-
# The profiles of several threads, read back

The harness leaves one directory for all profiled threads. Each thread has a file of counters and,
when curves are estimated, two files of curves, all named by the header of the run, what is in the
file and the number of the thread. `read_multiple_targets` knows nothing but the names. It sorts
the files into three lists by a pattern, brings each list into the order of its names and pairs
them by position.

So two things have to hold. Every file has to come into its list and no other, and the order of
the numbers as texts has to be the same in all lists, although the files of counters have a suffix
that the others lack. The suffix does no harm. The pattern, however, looks for its markers in the
whole name, where a header ending in such a marker without its underscore makes one of every file.
-/

import Datamime.Math.Pattern
import Datamime.Search.TargetFiles

namespace Datamime.Search

open Datamime.Math Datamime.Math.Pattern

/-! ## Reading a directory -/

/-- `tregex`: any of three patterns. -/
def tregex : List (List Piece) := [
  [.anyOfLine, .literal "_mrc_".toList, .anyOfLine],
  [.anyOfLine, .literal "_ipc_".toList, .anyOfLine],
  [.anyOfLine, .literal "_grouped_".toList, .anyOfLine, .literal ".csv".toList]]

/-- The group of `tregex.match(fn)` that is set, counted from zero. -/
def regexGroup (fn : List Char) : Option ℕ := tregex.findIdx? (matchesStart · fn)

/-- `int(text)` of a decimal number. -/
def pyInt (text : List Char) : Except PyError ℤ :=
  match Text.toInt? text with
  | some number => .ok number
  | none => .error .valueError

/-- `get_tid_from_fn`. Where no ".csv" is found, the slice leaves out the last character. -/
def getTidFromFn (fn : List Char) : Except PyError ℤ :=
  match afterLast "_mrc_".toList fn with
  | some tid => pyInt tid
  | none =>
      match afterLast "_ipc_".toList fn with
      | some tid => pyInt tid
      | none =>
          match afterLast "_grouped_counters_".toList fn with
          | some substr => pyInt ((beforeFirst ".csv".toList substr).getD substr.dropLast)
          | none => .error .runtimeError

section

variable {γ κ : Type}

/-- The files at one position of the three lists. -/
def readTarget (readCsv : List Char → γ) (loadtxt : List Char → κ) (checkTidEq : Bool) :
    List Char × List Char × List Char → Except PyError (γ × κ × κ)
  | (tctrsFn, tmrcsFn, tipcsFn) => do
      let tctrsTid ← getTidFromFn tctrsFn
      let tmrcsTid ← getTidFromFn tmrcsFn
      let tipcsTid ← getTidFromFn tipcsFn
      let asserted :=
        if checkTidEq then tctrsTid = tmrcsTid ∧ tmrcsTid = tipcsTid else tmrcsTid = tipcsTid
      if ¬ asserted then throw .assertionError
      return (readCsv tctrsFn, loadtxt tmrcsFn, loadtxt tipcsFn)

/-- `read_multiple_targets`, for a directory without subdirectories. -/
def readMultipleTargets (readCsv : List Char → γ) (loadtxt : List Char → κ) (checkTidEq : Bool)
    (filenames : List (List Char)) : Except PyError (List γ × List κ × List κ) := do
  let tmrcsFiles := sorted (filenames.filter (regexGroup · = some 0))
  let tipcsFiles := sorted (filenames.filter (regexGroup · = some 1))
  let tctrsFiles := sorted (filenames.filter (regexGroup · = some 2))
  let targets ← (tctrsFiles.zip (tmrcsFiles.zip tipcsFiles)).mapM
    (readTarget readCsv loadtxt checkTidEq)
  return (targets.map (·.1), targets.map (·.2.1), targets.map (·.2.2))

end

/-! ## Names under a header -/

/-- The header has none of the markers in it. -/
structure Unmarked (header : List Char) : Prop where
  mrc : ¬ "_mrc_".toList <:+: header
  ipc : ¬ "_ipc_".toList <:+: header
  grouped : ¬ "_grouped_".toList <:+: header

/-- The header makes no marker with what follows it, and is on one line. -/
structure PlainHeader (header : List Char) : Prop where
  mrc : ¬ "_mrc".toList <:+ header
  ipc : ¬ "_ipc".toList <:+ header
  oneLine : '\n' ∉ header

/-- One triple for each thread, all three members from files of this thread. -/
def TripleEach {γ κ : Type} (header : List Char) (tids : List ℕ) (readCsv : List Char → γ)
    (loadtxt : List Char → κ) (result : Except PyError (List γ × List κ × List κ)) : Prop :=
  ∃ (order : List ℕ) (mode : Bool), order.Perm tids ∧ result = .ok
    (order.map fun tid => readCsv (csvFile (countersFile mode header tid)),
      order.map fun tid => loadtxt (mrcFile header tid),
      order.map fun tid => loadtxt (ipcFile header tid))

/-! ## Which list a file comes into -/

theorem findIdx?_three {α : Type} (test : α → Bool) (first second third : α) :
    ([first, second, third].findIdx? test = some 0 ↔ test first = true) ∧
      ([first, second, third].findIdx? test = some 1 ↔
        ¬ test first = true ∧ test second = true) ∧
      ([first, second, third].findIdx? test = some 2 ↔
        ¬ test first = true ∧ ¬ test second = true ∧ test third = true) := by
  rw [List.findIdx?_cons, List.findIdx?_cons, List.findIdx?_cons, List.findIdx?_nil]
  cases test first <;> cases test second <;> cases test third <;> decide

section Groups

variable {header fn : List Char}

theorem regexGroup_eq_zero_iff (oneLine : '\n' ∉ fn) :
    regexGroup fn = some 0 ↔ "_mrc_".toList <:+: fn := by
  rw [← matchesStart_marker_iff_infix oneLine]
  exact (findIdx?_three _ _ _ _).1

theorem regexGroup_eq_one_iff (oneLine : '\n' ∉ fn) :
    regexGroup fn = some 1 ↔ ¬ "_mrc_".toList <:+: fn ∧ "_ipc_".toList <:+: fn := by
  rw [← matchesStart_marker_iff_infix oneLine, ← matchesStart_marker_iff_infix oneLine]
  exact (findIdx?_three _ _ _ _).2.1

theorem regexGroup_eq_two_iff (oneLine : '\n' ∉ fn) :
    regexGroup fn = some 2 ↔ ¬ "_mrc_".toList <:+: fn ∧ ¬ "_ipc_".toList <:+: fn ∧
      ∃ skipped rest, fn = skipped ++ ("_grouped_".toList ++ rest) ∧ ".csv".toList <:+: rest := by
  rw [← matchesStart_marker_iff_infix oneLine, ← matchesStart_marker_iff_infix oneLine,
    ← matchesStart_ending_iff_infix oneLine]
  exact (findIdx?_three _ _ _ _).2.2

/-- A group that is set is one of three. -/
theorem regexGroup_lt {group : ℕ} (isGroup : regexGroup fn = some group) : group < 3 := by
  rw [regexGroup, List.findIdx?_eq_some_iff_getElem] at isGroup
  exact isGroup.1

/-- A marker in a name that starts with a header without it. -/
theorem marked_iff {word rest : List Char} (noSep : '_' ∉ word)
    (unmarked : ¬ '_' :: word ++ ['_'] <:+: header) :
    '_' :: word ++ ['_'] <:+: header ++ '_' :: rest ↔
      '_' :: word ++ ['_'] <:+: '_' :: rest ∨ '_' :: word <:+ header := by
  rw [separated_infix_append_iff noSep, or_iff_right unmarked]

theorem mrc_marked_iff (unmarked : Unmarked header) (rest : List Char) :
    "_mrc_".toList <:+: header ++ '_' :: rest ↔
      "_mrc_".toList <:+: '_' :: rest ∨ "_mrc".toList <:+ header :=
  @marked_iff header "mrc".toList rest (by decide) unmarked.mrc

theorem ipc_marked_iff (unmarked : Unmarked header) (rest : List Char) :
    "_ipc_".toList <:+: header ++ '_' :: rest ↔
      "_ipc_".toList <:+: '_' :: rest ∨ "_ipc".toList <:+ header :=
  @marked_iff header "ipc".toList rest (by decide) unmarked.ipc

theorem grouped_marked_iff (unmarked : Unmarked header) (rest : List Char) :
    "_grouped_".toList <:+: header ++ '_' :: rest ↔
      "_grouped_".toList <:+: '_' :: rest ∨ "_grouped".toList <:+ header :=
  @marked_iff header "grouped".toList rest (by decide) unmarked.grouped

/-- Names under a header on one line are on one line. -/
theorem oneLine_of_written (oneLine : '\n' ∉ header)
    (written : fn = targetConfigs ∨ fn = logFile header ∨ ∃ tid, fn ∈ threadFiles header tid) :
    '\n' ∉ fn := by
  have noBreak := not_mem_digits (c := '\n') (by decide)
  rcases written with rfl | rfl | ⟨tid, isFile⟩
  · decide
  · simp [logFile, oneLine]
  · simp only [threadFiles, List.mem_cons, List.not_mem_nil, or_false] at isFile
    rcases isFile with rfl | rfl | rfl | rfl | rfl | rfl <;>
      simp [countersFile, csvFile, mrcFile, ipcFile, oneLine, noBreak]

/-- No file of counters of a plain header is taken for a curve. -/
theorem counters_not_curve (mode : Bool) (unmarked : Unmarked header) (plain : PlainHeader header)
    (tid : ℕ) (ending : List Char) (noM : 'm' ∉ ending) (noI : 'i' ∉ ending) :
    ¬ "_mrc_".toList <:+: countersFile mode header tid ++ ending ∧
      ¬ "_ipc_".toList <:+: countersFile mode header tid ++ ending := by
  have start : ∃ kind, countersFile mode header tid ++ ending =
      header ++ '_' :: (kind ++ Nat.toDigits 10 tid ++ ending) ∧ 'm' ∉ kind ∧ 'i' ∉ kind := by
    cases mode with
    | false =>
        refine ⟨"grouped_counters_".toList, ?_, by decide, by decide⟩
        rw [countersFile, List.append_assoc]
        rfl
    | true =>
        refine ⟨"counters_".toList, ?_, by decide, by decide⟩
        rw [countersFile, List.append_assoc]
        rfl
  obtain ⟨kind, isWhole, kindM, kindI⟩ := start
  have missing : ∀ c : Char, c ≠ '_' → c.isDigit = false → c ∉ kind → c ∉ ending →
      c ∉ '_' :: (kind ++ Nat.toDigits 10 tid ++ ending) := by
    intro c notSep notDigit notKind notEnding
    simp [notSep, notKind, notEnding, not_mem_digits notDigit]
  rw [isWhole, mrc_marked_iff unmarked, ipc_marked_iff unmarked, or_iff_left plain.mrc,
    or_iff_left plain.ipc]
  exact ⟨@not_infix_of_not_mem _ _ _ 'm' (by decide)
      (missing 'm' (by decide) (by decide) kindM noM),
    @not_infix_of_not_mem _ _ _ 'i' (by decide) (missing 'i' (by decide) (by decide) kindI noI)⟩

/-- A file in none of the lists. -/
theorem regexGroup_eq_none (oneLine : '\n' ∉ fn) (notMrc : ¬ "_mrc_".toList <:+: fn)
    (notIpc : ¬ "_ipc_".toList <:+: fn)
    (notEnding : ∀ skipped rest, fn = skipped ++ ("_grouped_".toList ++ rest) →
      ¬ ".csv".toList <:+: rest) : regexGroup fn = none := by
  cases isGroup : regexGroup fn with
  | none => rfl
  | some group =>
      have small := regexGroup_lt isGroup
      interval_cases group
      · exact absurd ((regexGroup_eq_zero_iff oneLine).mp isGroup) notMrc
      · exact absurd ((regexGroup_eq_one_iff oneLine).mp isGroup).2 notIpc
      · obtain ⟨-, -, skipped, rest, isWhole, ends⟩ := (regexGroup_eq_two_iff oneLine).mp isGroup
        exact absurd ends (notEnding skipped rest isWhole)

variable (unmarked : Unmarked header) (plain : PlainHeader header) (tid : ℕ)

include plain in
theorem regexGroup_mrcFile : regexGroup (mrcFile header tid) = some 0 :=
  (regexGroup_eq_zero_iff (oneLine_of_written plain.oneLine
    (.inr (.inr ⟨tid, by simp [threadFiles]⟩)))).mpr (List.infix_append' header _ _)

include unmarked plain in
theorem regexGroup_ipcFile : regexGroup (ipcFile header tid) = some 1 := by
  refine (regexGroup_eq_one_iff (oneLine_of_written plain.oneLine
    (.inr (.inr ⟨tid, by simp [threadFiles]⟩)))).mpr ⟨?_, List.infix_append' header _ _⟩
  have isWhole : ipcFile header tid = header ++ '_' :: ("ipc_".toList ++ Nat.toDigits 10 tid) := rfl
  rw [isWhole, mrc_marked_iff unmarked, or_iff_left plain.mrc]
  refine @not_infix_of_not_mem _ _ _ 'm' (by decide) ?_
  simp [not_mem_digits (c := 'm') (by decide)]

include unmarked plain in
theorem regexGroup_countersFile (mode : Bool) :
    regexGroup (countersFile mode header tid) = none := by
  have notCurve := counters_not_curve mode unmarked plain tid [] List.not_mem_nil List.not_mem_nil
  rw [List.append_nil] at notCurve
  refine regexGroup_eq_none (oneLine_of_written plain.oneLine (.inr (.inr ⟨tid, ?_⟩)))
    notCurve.1 notCurve.2 fun skipped rest isWhole ends => ?_
  · cases mode <;> simp [threadFiles]
  · have isRest := suffix_of_not_infix unmarked.grouped isWhole
    refine @not_infix_of_not_mem _ _ _ '.' (by decide) ?_ (ends.trans isRest.isInfix)
    cases mode <;> simp [not_mem_digits (c := '.') (by decide)]

include unmarked plain in
theorem regexGroup_logFile : regexGroup (logFile header) = none := by
  have isWhole : logFile header = header ++ '_' :: "datamime-profiler.log".toList := rfl
  refine regexGroup_eq_none (oneLine_of_written plain.oneLine (.inr (.inl rfl))) ?_ ?_
    fun skipped rest isSplit ends => ?_
  · rw [isWhole, mrc_marked_iff unmarked, or_iff_left plain.mrc]
    decide
  · rw [isWhole, ipc_marked_iff unmarked, or_iff_left plain.ipc]
    decide
  · have isRest := suffix_of_not_infix unmarked.grouped isSplit
    exact absurd (ends.trans isRest.isInfix) (by decide)

theorem regexGroup_targetConfigs : regexGroup targetConfigs = none := by decide

include unmarked plain in
theorem regexGroup_csv_grouped : regexGroup (csvFile (countersFile false header tid)) = some 2 := by
  refine (regexGroup_eq_two_iff (oneLine_of_written plain.oneLine
    (.inr (.inr ⟨tid, by simp [threadFiles]⟩)))).mpr ?_
  obtain ⟨notMrc, notIpc⟩ := counters_not_curve false unmarked plain tid ".csv".toList
    (by decide) (by decide)
  refine ⟨notMrc, notIpc, header, "counters_".toList ++ Nat.toDigits 10 tid ++ ".csv".toList, ?_,
    ⟨_, [], List.append_nil _⟩⟩
  rw [csvFile, countersFile, List.append_assoc, List.append_assoc, List.append_assoc]
  rfl

include unmarked plain in
/-- Converted basic counters are taken for grouped ones under a header that ends in that word. -/
theorem regexGroup_csv_basic :
    regexGroup (csvFile (countersFile true header tid)) =
      if "_grouped".toList <:+ header then some 2 else none := by
  have oneLine : '\n' ∉ csvFile (countersFile true header tid) :=
    oneLine_of_written plain.oneLine (.inr (.inr ⟨tid, by simp [threadFiles]⟩))
  obtain ⟨notMrc, notIpc⟩ := counters_not_curve true unmarked plain tid ".csv".toList
    (by decide) (by decide)
  split
  · rename_i ends
    obtain ⟨start, rfl⟩ := ends
    refine (regexGroup_eq_two_iff oneLine).mpr ⟨notMrc, notIpc, start,
      "counters_".toList ++ Nat.toDigits 10 tid ++ ".csv".toList, ?_, ⟨_, [], List.append_nil _⟩⟩
    rw [csvFile, countersFile]
    simp only [List.append_assoc]
    rfl
  · rename_i notEnds
    refine regexGroup_eq_none oneLine notMrc notIpc fun skipped rest isWhole _ => ?_
    have isFile : csvFile (countersFile true header tid) =
        header ++ '_' :: ("counters_".toList ++ Nat.toDigits 10 tid ++ ".csv".toList) := by
      rw [csvFile, countersFile, List.append_assoc]
      rfl
    have marked : "_grouped_".toList <:+: csvFile (countersFile true header tid) := by
      rw [isWhole]
      exact List.infix_append' skipped _ rest
    rw [isFile, grouped_marked_iff unmarked, or_iff_left notEnds] at marked
    refine @not_infix_of_not_mem _ _ _ 'g' (by decide) ?_ marked
    simp [not_mem_digits (c := 'g') (by decide)]

/-- The files of each list, whatever else is in the directory. -/
theorem group_of_written {header : List Char} (unmarked : Unmarked header)
    (plain : PlainHeader header) {tids : List ℕ} {fn : List Char} {group : ℕ}
    (written : fn = targetConfigs ∨ fn = logFile header ∨ ∃ tid ∈ tids, fn ∈ threadFiles header tid)
    (isGroup : regexGroup fn = some group) :
    ∃ tid ∈ tids, (group = 0 ∧ fn = mrcFile header tid) ∨ (group = 1 ∧ fn = ipcFile header tid) ∨
      (group = 2 ∧ (fn = csvFile (countersFile false header tid) ∨
        ("_grouped".toList <:+ header ∧ fn = csvFile (countersFile true header tid)))) := by
  rcases written with rfl | rfl | ⟨tid, isThread, isFile⟩
  · cases regexGroup_targetConfigs.symm.trans isGroup
  · cases (regexGroup_logFile unmarked plain).symm.trans isGroup
  · refine ⟨tid, isThread, ?_⟩
    simp only [threadFiles, List.mem_cons, List.not_mem_nil, or_false] at isFile
    rcases isFile with rfl | rfl | rfl | rfl | rfl | rfl
    · cases (regexGroup_countersFile unmarked plain tid true).symm.trans isGroup
    · rw [regexGroup_csv_basic unmarked plain tid] at isGroup
      split at isGroup
      · cases isGroup
        exact .inr (.inr ⟨rfl, .inr ⟨‹_›, rfl⟩⟩)
      · cases isGroup
    · cases (regexGroup_countersFile unmarked plain tid false).symm.trans isGroup
    · cases (regexGroup_csv_grouped unmarked plain tid).symm.trans isGroup
      exact .inr (.inr ⟨rfl, .inl rfl⟩)
    · cases (regexGroup_mrcFile plain tid).symm.trans isGroup
      exact .inl ⟨rfl, rfl⟩
    · cases (regexGroup_ipcFile unmarked plain tid).symm.trans isGroup
      exact .inr (.inl ⟨rfl, rfl⟩)

end Groups

/-! ## The number in a name -/

theorem pyInt_digits (tid : ℕ) : pyInt (Nat.toDigits 10 tid) = .ok tid := by
  have readBack := Text.toInt?_ofInt (Int.ofNat tid)
  rw [Text.ofInt] at readBack
  rw [pyInt, readBack]
  rfl

theorem getTidFromFn_mrcFile (header : List Char) (tid : ℕ) :
    getTidFromFn (mrcFile header tid) = .ok tid := by
  have found := @afterLast_append _ _ "_mrc_".toList (Nat.toDigits 10 tid) '_' header rfl
    (not_mem_digits (by decide) tid)
  rw [getTidFromFn, mrcFile, found]
  exact pyInt_digits tid

theorem getTidFromFn_ipcFile {header : List Char} (unmarked : Unmarked header)
    (plain : PlainHeader header) (tid : ℕ) : getTidFromFn (ipcFile header tid) = .ok tid := by
  have found := @afterLast_append _ _ "_ipc_".toList (Nat.toDigits 10 tid) '_' header rfl
    (not_mem_digits (by decide) tid)
  have oneLine : '\n' ∉ ipcFile header tid :=
    oneLine_of_written plain.oneLine (.inr (.inr ⟨tid, by simp [threadFiles]⟩))
  have notMrc := ((regexGroup_eq_one_iff oneLine).mp (regexGroup_ipcFile unmarked plain tid)).1
  rw [getTidFromFn, afterLast_eq_none_iff.mpr notMrc, ipcFile, found]
  exact pyInt_digits tid

/-- Converted counters that are taken for grouped ones. -/
theorem getTidFromFn_csv {header : List Char} (unmarked : Unmarked header)
    (plain : PlainHeader header) {mode : Bool} (tid : ℕ)
    (taken : mode = true → "_grouped".toList <:+ header) :
    getTidFromFn (csvFile (countersFile mode header tid)) = .ok tid := by
  obtain ⟨notMrc, notIpc⟩ := counters_not_curve mode unmarked plain tid ".csv".toList (by decide)
    (by decide)
  have isName : ∃ start, csvFile (countersFile mode header tid) =
      start ++ ("_grouped_counters_".toList ++ (Nat.toDigits 10 tid ++ ".csv".toList)) := by
    cases mode with
    | false => exact ⟨header, by simp only [csvFile, countersFile, List.append_assoc]; rfl⟩
    | true =>
        obtain ⟨start, rfl⟩ := taken rfl
        exact ⟨start, by simp only [csvFile, countersFile, List.append_assoc]; rfl⟩
  obtain ⟨start, isName⟩ := isName
  have found := @afterLast_append _ _ "_grouped_counters_".toList
    (Nat.toDigits 10 tid ++ ".csv".toList) '_' start rfl
    (by simp [not_mem_digits (c := '_') (by decide)])
  have cut : beforeFirst ".csv".toList (Nat.toDigits 10 tid ++ ".csv".toList) =
      some (Nat.toDigits 10 tid) :=
    @beforeFirst_append _ _ (Nat.toDigits 10 tid) [] '.' "csv".toList
      (not_mem_digits (by decide) tid)
  rw [← csvFile] at notMrc notIpc
  rw [getTidFromFn, afterLast_eq_none_iff.mpr notMrc, afterLast_eq_none_iff.mpr notIpc, isName,
    found]
  show pyInt ((beforeFirst _ _).getD _) = _
  rw [cut]
  exact pyInt_digits tid

/-! ## The order of the numbers -/

/-- The threads in the order of their numbers as texts. -/
def textOrder (tids : List ℕ) : List ℕ :=
  tids.mergeSort fun first second => decide (Nat.toDigits 10 first ≤ Nat.toDigits 10 second)

theorem textOrder_perm (tids : List ℕ) : (textOrder tids).Perm tids := List.mergeSort_perm _ _

/-- A naming of the threads that keeps the order of the numbers as texts. -/
def KeepsTextOrder (name : ℕ → List Char) : Prop :=
  ∀ first second, Nat.toDigits 10 first ≤ Nat.toDigits 10 second ↔ name first ≤ name second

theorem KeepsTextOrder.injective {name : ℕ → List Char} (keeps : KeepsTextOrder name) :
    Function.Injective name := by
  intro first second sameName
  have sameText : Nat.toDigits 10 first = Nat.toDigits 10 second :=
    le_antisymm ((keeps first second).mpr sameName.le) ((keeps second first).mpr sameName.ge)
  have sameNumber := congrArg Text.toNat? sameText
  rwa [Text.toNat?_toDigits, Text.toNat?_toDigits, Option.some.injEq] at sameNumber

theorem KeepsTextOrder.sorted_map {name : ℕ → List Char} (keeps : KeepsTextOrder name)
    (tids : List ℕ) : sorted (tids.map name) = (textOrder tids).map name :=
  Pattern.sorted_map (Nat.toDigits 10) name fun first _ second _ => keeps first second

theorem mrcFile_keepsTextOrder (header : List Char) : KeepsTextOrder (mrcFile header) :=
  fun _ _ => by rw [mrcFile, mrcFile, append_le_append_left_iff, append_le_append_left_iff]

theorem ipcFile_keepsTextOrder (header : List Char) : KeepsTextOrder (ipcFile header) :=
  fun _ _ => by rw [ipcFile, ipcFile, append_le_append_left_iff, append_le_append_left_iff]

/-- A point comes before all digits, so the suffix keeps the order of numbers of any lengths. -/
theorem csvFile_keepsTextOrder (mode : Bool) (header : List Char) :
    KeepsTextOrder fun tid => csvFile (countersFile mode header tid) := by
  have above : ∀ tid, ∀ d ∈ Nat.toDigits 10 tid, '.' < d := by
    intro tid d isMember
    have isDigit := Text.isDigit_of_mem_toDigits isMember
    simp only [Char.isDigit, Bool.and_eq_true, decide_eq_true_eq] at isDigit
    exact lt_of_lt_of_le (by decide : '.' < '0') isDigit.1
  intro first second
  have csv : ".csv".toList = '.' :: "csv".toList := rfl
  show _ ↔ csvFile (countersFile mode header first) ≤ csvFile (countersFile mode header second)
  rw [csvFile, csvFile, countersFile, countersFile, List.append_assoc, List.append_assoc,
    List.append_assoc, List.append_assoc, append_le_append_left_iff, append_le_append_left_iff,
    csv, append_le_append_right_iff (above first) (above second)]

/-- The list of the files that one naming makes. -/
theorem sorted_filter_eq {filenames : List (List Char)} {tids : List ℕ} {name : ℕ → List Char}
    (group : ℕ) (nodup : filenames.Nodup) (distinct : tids.Nodup) (keeps : KeepsTextOrder name)
    (members : ∀ fn, fn ∈ filenames ∧ regexGroup fn = some group ↔ fn ∈ tids.map name) :
    sorted (filenames.filter (regexGroup · = some group)) = (textOrder tids).map name := by
  rw [← keeps.sorted_map]
  refine sorted_eq_of_perm ((List.perm_ext_iff_of_nodup (nodup.filter _)
    (distinct.map keeps.injective)).mpr fun fn => ?_)
  rw [List.mem_filter, decide_eq_true_iff]
  exact members fn

/-! ## One triple for each thread -/

/-- Basic counters come before grouped ones. -/
theorem basic_lt_grouped (header : List Char) (first second : ℕ) :
    csvFile (countersFile true header first) < csvFile (countersFile false header second) := by
  have below : ∀ rest others : List Char,
      "_counters_".toList ++ rest < "_grouped_counters_".toList ++ others := fun rest others =>
    List.cons_lt_cons_iff.mpr (.inr ⟨rfl, List.cons_lt_cons_iff.mpr (.inl (by decide))⟩)
  simp only [csvFile, countersFile, List.append_assoc]
  exact List.append_left_lt (below _ _)

section Triples

variable {header : List Char} {tids : List ℕ} {filenames : List (List Char)}
  (unmarked : Unmarked header) (plain : PlainHeader header) (distinct : tids.Nodup)
  (holds : HoldsProfile header tids filenames)

include unmarked plain distinct holds in
theorem sorted_tmrcs : sorted (filenames.filter (regexGroup · = some 0)) =
    (textOrder tids).map (mrcFile header) := by
  refine sorted_filter_eq 0 holds.nodup distinct (mrcFile_keepsTextOrder header) fun fn =>
    ⟨fun ⟨isFile, isGroup⟩ => ?_, fun isName => ?_⟩
  · obtain ⟨tid, isThread, ⟨-, rfl⟩ | ⟨other, -⟩ | ⟨other, -⟩⟩ :=
      group_of_written unmarked plain (holds.written fn isFile) isGroup
    · exact List.mem_map_of_mem isThread
    · cases other
    · cases other
  · obtain ⟨tid, isThread, rfl⟩ := List.mem_map.mp isName
    exact ⟨holds.mrc tid isThread, regexGroup_mrcFile plain tid⟩

include unmarked plain distinct holds in
theorem sorted_tipcs : sorted (filenames.filter (regexGroup · = some 1)) =
    (textOrder tids).map (ipcFile header) := by
  refine sorted_filter_eq 1 holds.nodup distinct (ipcFile_keepsTextOrder header) fun fn =>
    ⟨fun ⟨isFile, isGroup⟩ => ?_, fun isName => ?_⟩
  · obtain ⟨tid, isThread, ⟨other, -⟩ | ⟨-, rfl⟩ | ⟨other, -⟩⟩ :=
      group_of_written unmarked plain (holds.written fn isFile) isGroup
    · cases other
    · exact List.mem_map_of_mem isThread
    · cases other
  · obtain ⟨tid, isThread, rfl⟩ := List.mem_map.mp isName
    exact ⟨holds.ipc tid isThread, regexGroup_ipcFile unmarked plain tid⟩

include unmarked plain distinct holds in
/-- Without basic counters among them the list has the grouped ones. -/
theorem sorted_tctrs_grouped
    (notTaken : "_grouped".toList <:+ header →
      ∀ tid ∈ tids, csvFile (countersFile true header tid) ∉ filenames) :
    sorted (filenames.filter (regexGroup · = some 2)) =
      (textOrder tids).map fun tid => csvFile (countersFile false header tid) := by
  refine sorted_filter_eq 2 holds.nodup distinct (csvFile_keepsTextOrder false header) fun fn =>
    ⟨fun ⟨isFile, isGroup⟩ => ?_, fun isName => ?_⟩
  · obtain ⟨tid, isThread, ⟨other, -⟩ | ⟨other, -⟩ | ⟨-, rfl | ⟨ends, rfl⟩⟩⟩ :=
      group_of_written unmarked plain (holds.written fn isFile) isGroup
    · cases other
    · cases other
    · exact List.mem_map.mpr ⟨tid, isThread, rfl⟩
    · exact absurd isFile (notTaken ends tid isThread)
  · obtain ⟨tid, isThread, rfl⟩ := List.mem_map.mp isName
    exact ⟨holds.grouped tid isThread, regexGroup_csv_grouped unmarked plain tid⟩

include unmarked plain distinct holds in
/-- Basic counters that are taken for grouped ones are listed first. -/
theorem sorted_tctrs_basic (ends : "_grouped".toList <:+ header)
    (present : ∀ tid ∈ tids, csvFile (countersFile true header tid) ∈ filenames) :
    sorted (filenames.filter (regexGroup · = some 2)) =
      ((textOrder tids).map fun tid => csvFile (countersFile true header tid)) ++
        (textOrder tids).map fun tid => csvFile (countersFile false header tid) := by
  have basicKeeps := csvFile_keepsTextOrder true header
  have groupedKeeps := csvFile_keepsTextOrder false header
  have below : ∀ first ∈ (textOrder tids).map fun tid => csvFile (countersFile true header tid),
      ∀ second ∈ (textOrder tids).map fun tid => csvFile (countersFile false header tid),
        first < second := by
    intro first isFirst second isSecond
    obtain ⟨tid, -, rfl⟩ := List.mem_map.mp isFirst
    obtain ⟨other, -, rfl⟩ := List.mem_map.mp isSecond
    exact basic_lt_grouped header tid other
  have distinctOrder : (textOrder tids).Nodup := (textOrder_perm tids).nodup_iff.mpr distinct
  refine List.Perm.eq_of_sortedLE List.sortedLE_mergeSort ?_
    ((List.mergeSort_perm _ _).trans
      ((List.perm_ext_iff_of_nodup (holds.nodup.filter _) ?_).mpr ?_))
  · refine (List.pairwise_append.mpr ⟨?_, ?_, fun first isFirst second isSecond =>
      (below first isFirst second isSecond).le⟩).sortedLE
    · rw [← basicKeeps.sorted_map]
      exact List.sortedLE_mergeSort.pairwise
    · rw [← groupedKeeps.sorted_map]
      exact List.sortedLE_mergeSort.pairwise
  · refine List.nodup_append.mpr ⟨distinctOrder.map basicKeeps.injective,
      distinctOrder.map groupedKeeps.injective, fun first isFirst second isSecond =>
        (below first isFirst second isSecond).ne⟩
  · intro fn
    rw [List.mem_filter, decide_eq_true_iff, List.mem_append, List.mem_map, List.mem_map]
    simp only [(textOrder_perm tids).mem_iff]
    constructor
    · rintro ⟨isFile, isGroup⟩
      obtain ⟨tid, isThread, ⟨other, -⟩ | ⟨other, -⟩ | ⟨-, rfl | ⟨-, rfl⟩⟩⟩ :=
        group_of_written unmarked plain (holds.written fn isFile) isGroup
      · cases other
      · cases other
      · exact .inr ⟨tid, isThread, rfl⟩
      · exact .inl ⟨tid, isThread, rfl⟩
    · rintro (⟨tid, isThread, rfl⟩ | ⟨tid, isThread, rfl⟩)
      · refine ⟨present tid isThread, ?_⟩
        rw [regexGroup_csv_basic unmarked plain tid, if_pos ends]
      · exact ⟨holds.grouped tid isThread, regexGroup_csv_grouped unmarked plain tid⟩

include unmarked plain distinct holds in
/-- The list of counters begins with one file for each thread, in the order of the others. -/
theorem exists_sorted_tctrs : ∃ (mode : Bool) (extra : List (List Char)),
    (mode = true → "_grouped".toList <:+ header) ∧
      sorted (filenames.filter (regexGroup · = some 2)) =
        ((textOrder tids).map fun tid => csvFile (countersFile mode header tid)) ++ extra := by
  by_cases ends : "_grouped".toList <:+ header
  · rcases holds.basic with present | missing
    · exact ⟨true, _, fun _ => ends, sorted_tctrs_basic unmarked plain distinct holds ends present⟩
    · refine ⟨false, [], nofun, ?_⟩
      rw [List.append_nil]
      exact sorted_tctrs_grouped unmarked plain distinct holds fun _ => missing
  · refine ⟨false, [], nofun, ?_⟩
    rw [List.append_nil]
    exact sorted_tctrs_grouped unmarked plain distinct holds fun wrong => absurd wrong ends

include unmarked plain distinct holds in
theorem tripleEach_of_plain {γ κ : Type} (readCsv : List Char → γ) (loadtxt : List Char → κ)
    (checkTidEq : Bool) : TripleEach header tids readCsv loadtxt
      (readMultipleTargets readCsv loadtxt checkTidEq filenames) := by
  obtain ⟨mode, extra, taken, tctrs⟩ := exists_sorted_tctrs unmarked plain distinct holds
  refine ⟨textOrder tids, mode, textOrder_perm tids, ?_⟩
  have paired : ∀ (first second third : ℕ → List Char), ((textOrder tids).map first ++ extra).zip
      (((textOrder tids).map second).zip ((textOrder tids).map third)) =
        (textOrder tids).map fun tid => (first tid, second tid, third tid) := by
    intro first second third
    have others := @List.zip_append _ _ ((textOrder tids).map first) extra
      ((textOrder tids).map fun tid => (second tid, third tid)) [] (by simp)
    rw [List.zip_map', ← List.append_nil ((textOrder tids).map fun tid => (second tid, third tid)),
      others, List.zip_map', List.zip_nil_right, List.append_nil]
  have read : ∀ target ∈ (textOrder tids).map fun tid => (csvFile (countersFile mode header tid),
      mrcFile header tid, ipcFile header tid), readTarget readCsv loadtxt checkTidEq target =
        .ok (readCsv target.1, loadtxt target.2.1, loadtxt target.2.2) := by
    intro target isTarget
    obtain ⟨tid, -, rfl⟩ := List.mem_map.mp isTarget
    rw [readTarget, getTidFromFn_csv unmarked plain tid taken, getTidFromFn_mrcFile,
      getTidFromFn_ipcFile unmarked plain]
    cases checkTidEq <;> exact if_neg (by simp)
  rw [readMultipleTargets, sorted_tmrcs unmarked plain distinct holds,
    sorted_tipcs unmarked plain distinct holds, tctrs, paired]
  rw [mapM_eq_ok_map read, ok_bind]
  simp only [List.map_map]
  rfl

include unmarked holds in
/-- Under any other header one of the lists is empty. -/
theorem exists_empty_group (notPlain : ¬ PlainHeader header) :
    ∃ group < 3, ∀ fn ∈ filenames, regexGroup fn ≠ some group := by
  have underHeader : ∀ fn ∈ filenames, regexGroup fn ≠ none →
      ∃ rest, fn = header ++ '_' :: rest := by
    intro fn isFile inGroup
    rcases holds.written fn isFile with rfl | rfl | ⟨tid, -, isThread⟩
    · exact absurd regexGroup_targetConfigs inGroup
    · exact ⟨_, rfl⟩
    · exact exists_rest_of_threadFile isThread
  by_cases oneLine : '\n' ∈ header
  · refine ⟨0, by decide, fun fn isFile isGroup => ?_⟩
    obtain ⟨rest, rfl⟩ := underHeader fn isFile (by rw [isGroup]; nofun)
    have matched := (findIdx?_three (matchesStart · (header ++ '_' :: rest)) _ _ _).1.mp isGroup
    obtain ⟨skipped, after, isWhole, notSkipped⟩ := matchesStart_marker_iff.mp matched
    exact unmarked.mrc (infix_of_begins_before oneLine notSkipped (by decide) isWhole)
  · have onOneLine : ∀ fn ∈ filenames, '\n' ∉ fn := fun fn isFile =>
      oneLine_of_written oneLine ((holds.written fn isFile).imp_right
        (Or.imp_right fun ⟨tid, _, isThread⟩ => ⟨tid, isThread⟩))
    by_cases endsMrc : "_mrc".toList <:+ header
    · refine ⟨1, by decide, fun fn isFile isGroup => ?_⟩
      obtain ⟨rest, rfl⟩ := underHeader fn isFile (by rw [isGroup]; nofun)
      have notMrc := ((regexGroup_eq_one_iff (onOneLine _ isFile)).mp isGroup).1
      exact notMrc ((mrc_marked_iff unmarked rest).mpr (.inr endsMrc))
    · have endsIpc : "_ipc".toList <:+ header := by
        by_contra notIpc
        exact notPlain ⟨endsMrc, notIpc, oneLine⟩
      refine ⟨2, by decide, fun fn isFile isGroup => ?_⟩
      obtain ⟨rest, rfl⟩ := underHeader fn isFile (by rw [isGroup]; nofun)
      have notIpc := ((regexGroup_eq_two_iff (onOneLine _ isFile)).mp isGroup).2.1
      exact notIpc ((ipc_marked_iff unmarked rest).mpr (.inr endsIpc))

/-- With one list empty nothing is read. -/
theorem readMultipleTargets_eq_nil {γ κ : Type} (readCsv : List Char → γ)
    (loadtxt : List Char → κ) (checkTidEq : Bool)
    (empty : ∃ group < 3, ∀ fn ∈ filenames, regexGroup fn ≠ some group) :
    readMultipleTargets readCsv loadtxt checkTidEq filenames = .ok ([], [], []) := by
  obtain ⟨group, small, none⟩ := empty
  have isEmpty : sorted (filenames.filter (regexGroup · = some group)) = [] := by
    rw [List.filter_eq_nil_iff.mpr fun fn isFile => by simpa using none fn isFile]
    exact List.mergeSort_nil
  rw [readMultipleTargets]
  interval_cases group
  · rw [isEmpty, List.zip_nil_left, List.zip_nil_right]
    rfl
  · rw [isEmpty, List.zip_nil_right, List.zip_nil_right]
    rfl
  · rw [isEmpty, List.zip_nil_left]
    rfl

include unmarked distinct holds in
/-- There is one triple for each thread precisely under a plain header. -/
theorem tripleEach_of_holds_iff {γ κ : Type} (readCsv : List Char → γ) (loadtxt : List Char → κ)
    (checkTidEq : Bool) :
    TripleEach header tids readCsv loadtxt
        (readMultipleTargets readCsv loadtxt checkTidEq filenames) ↔
      PlainHeader header ∨ tids = [] := by
  by_cases plain : PlainHeader header
  · exact iff_of_true (tripleEach_of_plain unmarked plain distinct holds readCsv loadtxt checkTidEq)
      (.inl plain)
  · rw [readMultipleTargets_eq_nil readCsv loadtxt checkTidEq
      (exists_empty_group unmarked holds plain), or_iff_right plain]
    constructor
    · rintro ⟨order, mode, isPerm, returned⟩
      obtain ⟨noCounters, -⟩ := Prod.mk.inj (Except.ok.inj returned)
      rw [List.map_eq_nil_iff.mp noCounters.symm] at isPerm
      exact isPerm.nil_eq.symm
    · rintro rfl
      exact ⟨[], false, .nil, rfl⟩

end Triples

/-- A directory of all files, and any that runs in both modes leave, has one triple for each thread
precisely under a plain header. -/
theorem tripleEach_iff {header : List Char} {tids : List ℕ} (unmarked : Unmarked header)
    (distinct : tids.Nodup) {γ κ : Type} (readCsv : List Char → γ) (loadtxt : List Char → κ)
    (checkTidEq : Bool) :
    (∀ filenames, HoldsProfile header tids filenames →
      (TripleEach header tids readCsv loadtxt
          (readMultipleTargets readCsv loadtxt checkTidEq filenames) ↔
        PlainHeader header ∨ tids = [])) ∧
    ∀ modes : List Bool, true ∈ modes → false ∈ modes →
      ∃ dir, modes.foldlM (harnessRun header tids) ∅ = .ok dir ∧
        ∀ filenames : List (List Char), filenames.Nodup → (∀ fn, fn ∈ filenames ↔ fn ∈ dir) →
          (TripleEach header tids readCsv loadtxt
              (readMultipleTargets readCsv loadtxt checkTidEq filenames) ↔
            PlainHeader header ∨ tids = []) := by
  refine ⟨fun filenames holds =>
    tripleEach_of_holds_iff unmarked distinct holds readCsv loadtxt checkTidEq, ?_⟩
  intro modes withCurves without
  obtain ⟨dir, ran, left⟩ := exists_runs header tids modes
  exact ⟨dir, ran, fun filenames nodup listed => tripleEach_of_holds_iff unmarked distinct
    (left.holdsProfile withCurves without nodup listed) readCsv loadtxt checkTidEq⟩

/-! ## Headers -/

/-- Threads of numbers with different lengths. -/
def plainFiles : List (List Char) := allFiles "memcached".toList [9, 10]

/-- The header ends in a marker without its last underscore. -/
def curveFiles : List (List Char) := allFiles "run_mrc".toList [9]

theorem plainFiles_holdProfile : HoldsProfile "memcached".toList [9, 10] plainFiles where
  nodup := by decide
  written := by decide
  grouped := by decide
  mrc := by decide
  ipc := by decide
  basic := .inl (by decide)

theorem curveFiles_holdProfile : HoldsProfile "run_mrc".toList [9] curveFiles where
  nodup := by decide
  written := by decide
  grouped := by decide
  mrc := by decide
  ipc := by decide
  basic := .inl (by decide)

theorem plainFiles_tripleEach_iff :
    (TripleEach "memcached".toList [9, 10] id id (readMultipleTargets id id true plainFiles) ↔
      PlainHeader "memcached".toList ∨ [9, 10] = []) ∧
    ∃ dir, [true, false].foldlM (harnessRun "memcached".toList [9, 10]) ∅ = .ok dir ∧
      ∀ filenames : List (List Char), filenames.Nodup → (∀ fn, fn ∈ filenames ↔ fn ∈ dir) →
        (TripleEach "memcached".toList [9, 10] id id (readMultipleTargets id id true filenames) ↔
          PlainHeader "memcached".toList ∨ [9, 10] = []) :=
  have unmarked : Unmarked "memcached".toList := ⟨by decide, by decide, by decide⟩
  ⟨(tripleEach_iff unmarked (by decide) id id true).1 plainFiles plainFiles_holdProfile,
    (tripleEach_iff unmarked (by decide) id id true).2 [true, false] (by decide) (by decide)⟩

/-- Every file is taken for one of misses, so no triple is returned. -/
theorem header_completes_marker :
    Unmarked "run_mrc".toList ∧ HoldsProfile "run_mrc".toList [9] curveFiles ∧
      readMultipleTargets id id false curveFiles = .ok ([], [], []) ∧
      ¬ TripleEach "run_mrc".toList [9] id id (readMultipleTargets id id false curveFiles) := by
  have unmarked : Unmarked "run_mrc".toList := ⟨by decide, by decide, by decide⟩
  have nothing : readMultipleTargets id id false curveFiles = .ok ([], [], []) :=
    readMultipleTargets_eq_nil id id false (exists_empty_group unmarked curveFiles_holdProfile
      fun plain => plain.mrc (by decide))
  refine ⟨unmarked, curveFiles_holdProfile, nothing, ?_⟩
  rw [nothing]
  rintro ⟨order, mode, isPerm, returned⟩
  obtain ⟨noCounters, -⟩ := Prod.mk.inj (Except.ok.inj returned)
  rw [List.map_eq_nil_iff.mp noCounters.symm] at isPerm
  cases isPerm.nil_eq

end Datamime.Search
