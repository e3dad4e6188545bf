/-
# The files that the profiler leaves

The harness runs the profiler in one of two modes, with or without curves, and converts the
counters of each thread afterwards. A search needs the results of both, so a directory sees at
least two runs. What is in it then depends on their order only in one respect. The harness takes
the counters of grouped events for a conversion if there are any, so basic counters are converted
only by runs before the first one without curves, either for all threads or for none.
-/

import Datamime.Fault
import Datamime.Math.Text
import Mathlib.Data.Finset.Union

namespace Datamime.Search

open Datamime.Math

/-! ## The files of a run -/

/-- The counters of a thread. -/
def countersFile (mrcEstMode : Bool) (header : List Char) (tid : ℕ) : List Char :=
  header ++ ((if mrcEstMode then "_counters_" else "_grouped_counters_").toList ++
    Nat.toDigits 10 tid)

def mrcFile (header : List Char) (tid : ℕ) : List Char :=
  header ++ ("_mrc_".toList ++ Nat.toDigits 10 tid)

def ipcFile (header : List Char) (tid : ℕ) : List Char :=
  header ++ ("_ipc_".toList ++ Nat.toDigits 10 tid)

def logFile (header : List Char) : List Char := header ++ "_datamime-profiler.log".toList

def targetConfigs : List Char := "target_configs.yml".toList

/-- The name that `to_csv` writes to. -/
def csvFile (filename : List Char) : List Char := filename ++ ".csv".toList

/-- The files that the profiler opens. -/
def openedFiles (mrcEstMode : Bool) (header : List Char) (tids : List ℕ) : List (List Char) :=
  logFile header :: tids.flatMap fun tid =>
    countersFile mrcEstMode header tid ::
      if mrcEstMode then [mrcFile header tid, ipcFile header tid] else []

/-- `profile_threads` converts the first of the two files of counters that there is. -/
def convertCounters (header : List Char) (dir : Finset (List Char)) (tid : ℕ) :
    Except Fault (Finset (List Char)) :=
  if countersFile false header tid ∈ dir then
    .ok (insert (csvFile (countersFile false header tid)) dir)
  else if countersFile true header tid ∈ dir then
    .ok (insert (csvFile (countersFile true header tid)) dir)
  else .error (.exit "[PROFILER-HARNESS] No counters dump found. Exiting")

/-- A run of the harness into a directory. -/
def harnessRun (header : List Char) (tids : List ℕ) (dir : Finset (List Char))
    (mrcEnabled : Bool) : Except Fault (Finset (List Char)) :=
  tids.foldlM (convertCounters header)
    (insert targetConfigs (dir ∪ (openedFiles mrcEnabled header tids).toFinset))

/-- The files that runs may leave for a thread. -/
def threadFiles (header : List Char) (tid : ℕ) : List (List Char) :=
  [countersFile true header tid, csvFile (countersFile true header tid),
    countersFile false header tid, csvFile (countersFile false header tid),
    mrcFile header tid, ipcFile header tid]

/-- The directory has all that was written in both modes for these threads, except that the basic
counters need not have been converted. -/
structure HoldsProfile (header : List Char) (tids : List ℕ) (filenames : List (List Char)) :
    Prop where
  nodup : filenames.Nodup
  written : ∀ fn ∈ filenames, fn = targetConfigs ∨ fn = logFile header ∨
    ∃ tid ∈ tids, fn ∈ threadFiles header tid
  grouped : ∀ tid ∈ tids, csvFile (countersFile false header tid) ∈ filenames
  mrc : ∀ tid ∈ tids, mrcFile header tid ∈ filenames
  ipc : ∀ tid ∈ tids, ipcFile header tid ∈ filenames
  basic : (∀ tid ∈ tids, csvFile (countersFile true header tid) ∈ filenames) ∨
    ∀ tid ∈ tids, csvFile (countersFile true header tid) ∉ filenames

/-! ## Different files -/

theorem not_mem_digits {c : Char} (notDigit : c.isDigit = false) (tid : ℕ) :
    c ∉ Nat.toDigits 10 tid := by
  intro isMember
  rw [Text.isDigit_of_mem_toDigits isMember] at notDigit
  cases notDigit

theorem exists_rest_of_threadFile {header fn : List Char} {tid : ℕ}
    (isFile : fn ∈ threadFiles header tid) : ∃ rest, fn = header ++ '_' :: rest := by
  simp only [threadFiles, List.mem_cons, List.not_mem_nil, or_false] at isFile
  rcases isFile with rfl | rfl | rfl | rfl | rfl | rfl
  · exact ⟨_, rfl⟩
  · exact ⟨_, List.append_assoc _ _ _⟩
  · exact ⟨_, rfl⟩
  · exact ⟨_, List.append_assoc _ _ _⟩
  · exact ⟨_, rfl⟩
  · exact ⟨_, rfl⟩

/-- The last character of a name that ends in a number. -/
theorem isDigit_of_getLast? {header kind : List Char} {tid : ℕ} {c : Char}
    (isLast : (header ++ (kind ++ Nat.toDigits 10 tid)).getLast? = some c) : c.isDigit = true := by
  rw [← List.append_assoc, List.getLast?_append_of_ne_nil _ Nat.toDigits_ne_nil] at isLast
  exact Text.isDigit_of_mem_toDigits (List.mem_of_getLast? isLast)

theorem getLast?_csvFile (fn : List Char) : (csvFile fn).getLast? = some 'v' := by
  rw [csvFile, List.getLast?_append_of_ne_nil fn (by decide)]
  rfl

theorem csvFile_ne_numbered (fn header kind : List Char) (tid : ℕ) :
    csvFile fn ≠ header ++ (kind ++ Nat.toDigits 10 tid) := by
  intro same
  have isLast := getLast?_csvFile fn
  rw [same] at isLast
  exact absurd (isDigit_of_getLast? isLast) (by decide)

theorem csvFile_ne_targetConfigs (fn : List Char) : csvFile fn ≠ targetConfigs := by
  intro same
  have isLast := getLast?_csvFile fn
  rw [same] at isLast
  exact absurd isLast (by decide)

theorem targetConfigs_ne_numbered (header kind : List Char) (tid : ℕ) :
    targetConfigs ≠ header ++ (kind ++ Nat.toDigits 10 tid) := by
  intro same
  have isLast : targetConfigs.getLast? = some 'l' := by decide
  rw [same] at isLast
  exact absurd (isDigit_of_getLast? isLast) (by decide)

/-- Names under a header differ where what follows the header does. -/
theorem header_append_ne {header : List Char} {a b : Char} (differ : a ≠ b)
    (first second : List Char) : header ++ '_' :: a :: first ≠ header ++ '_' :: b :: second :=
  fun same => differ (List.cons.inj (List.cons.inj (List.append_cancel_left same)).2).1

section Runs

variable {header : List Char} {tids : List ℕ} {tid : ℕ}

/-- Grouped counters are written without curves only. -/
theorem grouped_mem_openedFiles_iff {mode : Bool} (isThread : tid ∈ tids) :
    countersFile false header tid ∈ openedFiles mode header tids ↔ mode = false := by
  rw [openedFiles, List.mem_cons, List.mem_flatMap]
  constructor
  · rintro (isLog | ⟨other, -, isOther⟩)
    · exact absurd isLog (header_append_ne (by decide) _ _)
    · cases mode with
      | false => rfl
      | true =>
          rw [if_pos rfl, List.mem_cons, List.mem_cons, List.mem_singleton] at isOther
          rcases isOther with same | same | same
          · exact absurd same (header_append_ne (by decide) _ _)
          · exact absurd same (header_append_ne (by decide) _ _)
          · exact absurd same (header_append_ne (by decide) _ _)
  · rintro rfl
    exact .inr ⟨tid, isThread, List.mem_cons_self⟩

/-- The profiler itself writes no converted counters. -/
theorem csv_not_mem_openedFiles (mode kind : Bool) :
    csvFile (countersFile kind header tid) ∉ openedFiles mode header tids := by
  rw [openedFiles, List.mem_cons, List.mem_flatMap]
  rintro (isLog | ⟨other, -, isOther⟩)
  · rw [csvFile, countersFile, List.append_assoc] at isLog
    cases kind with
    | false => exact header_append_ne (by decide) _ _ isLog
    | true => exact header_append_ne (by decide) _ _ isLog
  · rw [List.mem_cons] at isOther
    rcases isOther with same | isCurve
    · exact csvFile_ne_numbered _ _ _ _ same
    · split at isCurve
      · rw [List.mem_cons, List.mem_singleton] at isCurve
        rcases isCurve with same | same
        · exact csvFile_ne_numbered _ _ _ _ same
        · exact csvFile_ne_numbered _ _ _ _ same
      · cases isCurve

theorem written_of_mem_openedFiles {mode : Bool} {fn : List Char}
    (isOpened : fn ∈ openedFiles mode header tids) :
    fn = logFile header ∨ ∃ tid ∈ tids, fn ∈ threadFiles header tid := by
  rw [openedFiles, List.mem_cons, List.mem_flatMap] at isOpened
  refine isOpened.imp_right fun ⟨tid, isThread, isFile⟩ => ⟨tid, isThread, ?_⟩
  cases mode with
  | false =>
      rw [List.mem_singleton.mp isFile]
      simp [threadFiles]
  | true =>
      rw [if_pos rfl, List.mem_cons, List.mem_cons, List.mem_singleton] at isFile
      rcases isFile with rfl | rfl | rfl <;> simp [threadFiles]

theorem csv_basic_ne_grouped (header : List Char) (tid other : ℕ) :
    csvFile (countersFile true header tid) ≠ csvFile (countersFile false header other) := by
  simp only [csvFile, countersFile, List.append_assoc]
  exact header_append_ne (by decide : 'c' ≠ 'g') _ _

/-- The conversion of grouped counters. -/
theorem convertAll_grouped {threads : List ℕ} {dir : Finset (List Char)}
    (present : ∀ tid ∈ threads, countersFile false header tid ∈ dir) :
    ∃ next, threads.foldlM (convertCounters header) dir = .ok next ∧
      ∀ fn, fn ∈ next ↔
        fn ∈ dir ∨ ∃ tid ∈ threads, fn = csvFile (countersFile false header tid) := by
  induction threads generalizing dir with
  | nil => exact ⟨dir, rfl, fun fn => by simp⟩
  | cons first rest ih =>
      rw [List.foldlM_cons, convertCounters, if_pos (present first List.mem_cons_self), ok_bind]
      obtain ⟨next, converted, members⟩ := ih fun tid isLater =>
        Finset.mem_insert_of_mem (present tid (List.mem_cons_of_mem first isLater))
      refine ⟨next, converted, fun fn => ?_⟩
      simp only [members, Finset.mem_insert, List.mem_cons, exists_eq_or_imp]
      rw [or_assoc, or_left_comm]

/-- The conversion of basic counters, where there are no others. -/
theorem convertAll_basic {threads : List ℕ} {dir : Finset (List Char)}
    (missing : ∀ tid ∈ threads, countersFile false header tid ∉ dir)
    (present : ∀ tid ∈ threads, countersFile true header tid ∈ dir) :
    ∃ next, threads.foldlM (convertCounters header) dir = .ok next ∧
      ∀ fn, fn ∈ next ↔
        fn ∈ dir ∨ ∃ tid ∈ threads, fn = csvFile (countersFile true header tid) := by
  induction threads generalizing dir with
  | nil => exact ⟨dir, rfl, fun fn => by simp⟩
  | cons first rest ih =>
      rw [List.foldlM_cons, convertCounters, if_neg (missing first List.mem_cons_self),
        if_pos (present first List.mem_cons_self), ok_bind]
      have stillMissing : ∀ tid ∈ rest, countersFile false header tid ∉
          insert (csvFile (countersFile true header first)) dir := by
        intro tid isLater isMember
        rcases Finset.mem_insert.mp isMember with same | isOld
        · exact csvFile_ne_numbered _ _ _ _ same.symm
        · exact missing tid (List.mem_cons_of_mem first isLater) isOld
      obtain ⟨next, converted, members⟩ := ih stillMissing fun tid isLater =>
        Finset.mem_insert_of_mem (present tid (List.mem_cons_of_mem first isLater))
      refine ⟨next, converted, fun fn => ?_⟩
      simp only [members, Finset.mem_insert, List.mem_cons, exists_eq_or_imp]
      rw [or_assoc, or_left_comm]

/-! ## What a sequence of runs leaves -/

/-- The directory after runs in these modes. -/
structure RunsLeave (header : List Char) (tids : List ℕ) (modes : List Bool)
    (dir : Finset (List Char)) : Prop where
  written : ∀ fn ∈ dir, fn = targetConfigs ∨ fn = logFile header ∨
    ∃ tid ∈ tids, fn ∈ threadFiles header tid
  grouped : ∀ tid ∈ tids, countersFile false header tid ∈ dir ↔ false ∈ modes
  converted : false ∈ modes → ∀ tid ∈ tids, csvFile (countersFile false header tid) ∈ dir
  curves : true ∈ modes → ∀ tid ∈ tids, mrcFile header tid ∈ dir ∧ ipcFile header tid ∈ dir
  basic : ∀ tid ∈ tids,
    csvFile (countersFile true header tid) ∈ dir ↔ modes.head? = some true

/-- The directory of a further run when the profiler is done and the conversion starts. -/
structure OpenedIn (header : List Char) (tids : List ℕ) (modes : List Bool) (mode : Bool)
    (dir : Finset (List Char)) : Prop where
  written : ∀ fn ∈ dir, fn = targetConfigs ∨ fn = logFile header ∨
    ∃ tid ∈ tids, fn ∈ threadFiles header tid
  grouped : ∀ tid ∈ tids, countersFile false header tid ∈ dir ↔ false ∈ modes ++ [mode]
  counters : ∀ tid ∈ tids, countersFile mode header tid ∈ dir
  curves : true ∈ modes ++ [mode] → ∀ tid ∈ tids,
    mrcFile header tid ∈ dir ∧ ipcFile header tid ∈ dir
  basic : ∀ tid ∈ tids,
    csvFile (countersFile true header tid) ∈ dir ↔ modes.head? = some true

theorem RunsLeave.opened {modes : List Bool} {dir : Finset (List Char)}
    (left : RunsLeave header tids modes dir) (mode : Bool) :
    OpenedIn header tids modes mode
      (insert targetConfigs (dir ∪ (openedFiles mode header tids).toFinset)) := by
  have mem_start : ∀ fn, fn ∈ insert targetConfigs (dir ∪ (openedFiles mode header tids).toFinset) ↔
      fn = targetConfigs ∨ fn ∈ dir ∨ fn ∈ openedFiles mode header tids := fun fn => by
    rw [Finset.mem_insert, Finset.mem_union, List.mem_toFinset]
  constructor
  case written =>
    intro fn isMember
    rcases (mem_start fn).mp isMember with rfl | isOld | isOpened
    · exact .inl rfl
    · exact left.written fn isOld
    · exact .inr (written_of_mem_openedFiles isOpened)
  case grouped =>
    intro tid isThread
    rw [mem_start, or_iff_right fun same => targetConfigs_ne_numbered _ _ _ same.symm,
      left.grouped tid isThread, grouped_mem_openedFiles_iff isThread, List.mem_append,
      List.mem_singleton, eq_comm (a := false)]
  case counters =>
    exact fun tid isThread => (mem_start _).mpr (.inr (.inr (List.mem_cons_of_mem _
      (List.mem_flatMap.mpr ⟨tid, isThread, List.mem_cons_self⟩))))
  case curves =>
    intro withCurves tid isThread
    rw [mem_start, mem_start]
    rcases List.mem_append.mp withCurves with isEarlier | isNow
    · obtain ⟨mrc, ipc⟩ := left.curves isEarlier tid isThread
      exact ⟨.inr (.inl mrc), .inr (.inl ipc)⟩
    · rw [← List.mem_singleton.mp isNow]
      constructor <;> exact .inr (.inr (List.mem_cons_of_mem _
        (List.mem_flatMap.mpr ⟨tid, isThread, by simp⟩)))
  case basic =>
    intro tid isThread
    rw [mem_start, or_iff_right (csvFile_ne_targetConfigs _),
      or_iff_left (csv_not_mem_openedFiles mode true), left.basic tid isThread]

/-- With a run without curves among them, the last run does not decide whether the first one
had curves. -/
theorem head?_iff_of_grouped {modes : List Bool} {mode : Bool}
    (isGrouped : false ∈ modes ++ [mode]) :
    modes.head? = some true ↔ (modes ++ [mode]).head? = some true := by
  cases modes with
  | nil =>
      rw [← List.mem_singleton.mp isGrouped]
      decide
  | cons first rest => exact Iff.rfl

theorem head?_of_not_grouped {modes : List Bool} {mode : Bool}
    (notGrouped : false ∉ modes ++ [mode]) : (modes ++ [mode]).head? = some true := by
  obtain ⟨first, rest, isCons⟩ := List.exists_cons_of_ne_nil (List.concat_ne_nil mode modes)
  rw [isCons] at notGrouped ⊢
  cases first with
  | false => exact absurd List.mem_cons_self notGrouped
  | true => rfl

/-- Whichever counters are converted, the loop adds one file for each thread. -/
theorem OpenedIn.converted {modes : List Bool} {mode kind : Bool} {dir next : Finset (List Char)}
    (opened : OpenedIn header tids modes mode dir)
    (members : ∀ fn, fn ∈ next ↔
      fn ∈ dir ∨ ∃ tid ∈ tids, fn = csvFile (countersFile kind header tid))
    (isKind : false ∈ modes ++ [mode] ↔ kind = false) :
    RunsLeave header tids (modes ++ [mode]) next := by
  constructor
  case written =>
    intro fn isMember
    rcases (members fn).mp isMember with isOld | ⟨tid, isThread, rfl⟩
    · exact opened.written fn isOld
    · exact .inr (.inr ⟨tid, isThread, by cases kind <;> simp [threadFiles]⟩)
  case grouped =>
    intro tid isThread
    rw [members, or_iff_left, opened.grouped tid isThread]
    rintro ⟨other, -, same⟩
    exact csvFile_ne_numbered _ _ _ _ same.symm
  case converted =>
    intro isGrouped tid isThread
    rw [members, isKind.mp isGrouped]
    exact .inr ⟨tid, isThread, rfl⟩
  case curves =>
    intro withCurves tid isThread
    rw [members, members]
    exact (opened.curves withCurves tid isThread).imp .inl .inl
  case basic =>
    intro tid isThread
    rw [members, opened.basic tid isThread]
    cases kind with
    | false =>
        rw [or_iff_left fun ⟨other, _, same⟩ => csv_basic_ne_grouped _ _ _ same]
        exact head?_iff_of_grouped (isKind.mpr rfl)
    | true =>
        have notGrouped : false ∉ modes ++ [mode] := fun isMember => nomatch isKind.mp isMember
        exact iff_of_true (.inr ⟨tid, isThread, rfl⟩) (head?_of_not_grouped notGrouped)

/-- One more run. -/
theorem RunsLeave.step {modes : List Bool} {dir : Finset (List Char)}
    (left : RunsLeave header tids modes dir) (mode : Bool) :
    ∃ next, harnessRun header tids dir mode = .ok next ∧
      RunsLeave header tids (modes ++ [mode]) next := by
  have opened := left.opened mode
  by_cases isGrouped : false ∈ modes ++ [mode]
  · obtain ⟨next, converted, members⟩ := convertAll_grouped fun tid isThread =>
      (opened.grouped tid isThread).mpr isGrouped
    exact ⟨next, converted, opened.converted members (iff_of_true isGrouped rfl)⟩
  · obtain rfl : mode = true := Bool.eq_true_of_not_eq_false fun isFalse =>
      isGrouped (List.mem_append_right modes (List.mem_singleton.mpr isFalse.symm))
    obtain ⟨next, converted, members⟩ := convertAll_basic
      (fun tid isThread isMember => isGrouped ((opened.grouped tid isThread).mp isMember))
      opened.counters
    exact ⟨next, converted, opened.converted members (iff_of_false isGrouped nofun)⟩

/-- The harness gets through any sequence of runs. -/
theorem exists_runs (header : List Char) (tids : List ℕ) (modes : List Bool) :
    ∃ dir, modes.foldlM (harnessRun header tids) ∅ = .ok dir ∧
      RunsLeave header tids modes dir := by
  induction modes using List.reverseRecOn with
  | nil =>
      exact ⟨∅, rfl, by simp, by simp, by simp, by simp, by simp⟩
  | append_singleton modes mode ih =>
      obtain ⟨dir, atModes, left⟩ := ih
      obtain ⟨next, atMode, leaves⟩ := left.step mode
      refine ⟨next, ?_, leaves⟩
      rw [List.foldlM_append, atModes, ok_bind, List.foldlM_cons, atMode]
      rfl

/-- Runs in both modes leave a directory from which the profile can be read. -/
theorem RunsLeave.holdsProfile {modes : List Bool} {dir : Finset (List Char)}
    (left : RunsLeave header tids modes dir) (withCurves : true ∈ modes)
    (without : false ∈ modes) {filenames : List (List Char)} (nodup : filenames.Nodup)
    (listed : ∀ fn, fn ∈ filenames ↔ fn ∈ dir) : HoldsProfile header tids filenames where
  nodup := nodup
  written fn isFile := left.written fn ((listed fn).mp isFile)
  grouped tid isThread := (listed _).mpr (left.converted without tid isThread)
  mrc tid isThread := (listed _).mpr (left.curves withCurves tid isThread).1
  ipc tid isThread := (listed _).mpr (left.curves withCurves tid isThread).2
  basic := by
    by_cases curvesFirst : modes.head? = some true
    · exact .inl fun tid isThread => (listed _).mpr ((left.basic tid isThread).mpr curvesFirst)
    · exact .inr fun tid isThread isFile =>
        curvesFirst ((left.basic tid isThread).mp ((listed _).mp isFile))

end Runs

/-- All files of runs in both modes. -/
def allFiles (header : List Char) (tids : List ℕ) : List (List Char) :=
  targetConfigs :: logFile header :: tids.flatMap (threadFiles header)

end Datamime.Search
