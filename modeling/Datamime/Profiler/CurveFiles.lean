/-
# The files of the curves

At the end of a turn the thread smooths all columns of its two matrices again, rewinds its two
files and writes both tables anew, without truncating the files first. The old text is gone
nevertheless: a smoothed column is not changed by being smoothed again, so the new table repeats
the entries of the old one and adds one to every line.
-/

import Datamime.Profiler.IndexRanges

namespace Datamime.Profiler

open Datamime.Math Datamime.Hardware

/-! ## Smoothing -/

/-- Picking again changes nothing. -/
def PickSettles (pick : ERat → ERat → ERat) : Prop := ∀ a b, pick a (pick a b) = pick a b

theorem pickSettles_stdMin : PickSettles ERat.stdMin := by
  intro a b
  by_cases less : ERat.lt b a = true
  · have picksSecond : ERat.stdMin a b = b := if_pos less
    rw [picksSecond, picksSecond]
  · have picksFirst : ERat.stdMin a b = a := if_neg less
    rw [picksFirst]
    exact ite_self a

theorem pickSettles_stdMax : PickSettles ERat.stdMax := by
  intro a b
  by_cases less : ERat.lt a b = true
  · have picksSecond : ERat.stdMax a b = b := if_pos less
    rw [picksSecond, picksSecond]
  · have picksFirst : ERat.stdMax a b = a := if_neg less
    rw [picksFirst]
    exact ite_self a

section

variable {pick : ERat → ERat → ERat}

theorem smoothFrom_smoothFrom (settles : PickSettles pick) (value : ERat) (column : List ERat) :
    smoothFrom pick value (smoothFrom pick value column) = smoothFrom pick value column := by
  induction column generalizing value with
  | nil => rfl
  | cons head rest ih => rw [smoothFrom, smoothFrom, settles, ih]

/-- A smoothed column stays as it is. -/
theorem smooth_smooth (settles : PickSettles pick) (column : List ERat) :
    smooth pick (smooth pick column) = smooth pick column := by
  cases column with
  | nil => rfl
  | cons head rest => rw [smooth, smooth, smoothFrom_smoothFrom settles]

end

/-! ## Tables -/

/-- The text of one line of a table. -/
def dumpLine (columns : List (List ERat)) (i : ℕ) : List Char :=
  columns.flatMap (fun column => fixedPoint (column.getD i 0) ++ [' ']) ++ ['\n']

theorem length_dumpLine_append_singleton (columns : List (List ERat)) (column : List ERat)
    (i : ℕ) : (dumpLine columns i).length < (dumpLine (columns ++ [column]) i).length := by
  simp only [dumpLine, List.flatMap_append, List.flatMap_singleton, List.length_append]
  have space : [' '].length = 1 := rfl
  omega

/-- Every further column makes the table longer. -/
theorem length_dumpText_append_singleton {cacheNumWays : ℕ} (someWay : 0 < cacheNumWays)
    (columns : List (List ERat)) (column : List ERat) :
    (dumpText cacheNumWays columns).length <
      (dumpText cacheNumWays (columns ++ [column])).length := by
  have text (columns : List (List ERat)) :
      dumpText cacheNumWays columns = (List.range cacheNumWays).flatMap (dumpLine columns) := rfl
  rw [text, text, List.length_flatMap, List.length_flatMap]
  refine List.sum_lt_sum _ _ (fun i _ => (length_dumpLine_append_singleton columns column i).le)
    ⟨0, List.mem_range.mpr someWay, length_dumpLine_append_singleton columns column 0⟩

/-- A text that is at least as long as the file replaces all of it. -/
theorem overwriteFile_of_length_le {file text : List Char} (long : file.length ≤ text.length) :
    overwriteFile file text = text := by
  rw [overwriteFile, List.drop_of_length_le long, List.append_nil]

/-! ## One dump -/

/-- A file, if it is open, shows the columns so far and nothing else, and these are smoothed.
Before the first column it is empty. -/
structure FileShows (pick : ERat → ERat → ERat) (cacheNumWays mrcEstIndex : ℕ)
    (columns : List (List ERat)) (file : Option (List Char)) : Prop where
  smoothed : ∀ column ∈ columns.take mrcEstIndex, smooth pick column = column
  content : ∀ text, file = some text → text = if mrcEstIndex = 0 then []
    else dumpText cacheNumWays (columns.take mrcEstIndex)

/-- What a dump adds: one column behind those from before, and a longer text in the open file. -/
structure Grows (mrcEstIndex : ℕ) (columns next : List (List ERat))
    (file nextFile : Option (List Char)) : Prop where
  columns : next.take mrcEstIndex = columns.take mrcEstIndex
  longer : ∃ text nextText, file = some text ∧ nextFile = some nextText ∧
    text.length < nextText.length

section

variable {pick : ERat → ERat → ERat} {cacheNumWays mrcEstIndex : ℕ}
  {columns next : List (List ERat)} {file nextFile : Option (List Char)}

theorem take_succ_set {α : Type} {xs : List α} {k : ℕ} (inside : k < xs.length) (x : α) :
    (xs.set k x).take (k + 1) = xs.take k ++ [x] := by
  rw [List.take_add_one, List.take_set_of_le le_rfl, List.getElem?_set_self inside,
    Option.toList_some]

/-- The columns after a dump: the ones from before, and the new one smoothed. -/
theorem take_smoothColumns
    (smoothed : ∀ column ∈ columns.take mrcEstIndex, smooth pick column = column)
    (inside : mrcEstIndex < columns.length) (column : List ERat) :
    (smoothColumns pick mrcEstIndex (columns.set mrcEstIndex column)).take (mrcEstIndex + 1) =
      columns.take mrcEstIndex ++ [smooth pick column] := by
  have kept : (columns.take mrcEstIndex).map (smooth pick) = columns.take mrcEstIndex :=
    (List.map_congr_left smoothed).trans (List.map_id' _)
  have length : ((columns.take mrcEstIndex) ++ [smooth pick column]).length = mrcEstIndex + 1 := by
    rw [List.length_append, List.length_take_of_le inside.le, List.length_singleton]
  rw [smoothColumns, take_succ_set inside, List.map_append, kept, List.map_singleton,
    List.take_left' length]

theorem fileShows_of_dumpEstimates (settles : PickSettles pick) (someWay : 0 < cacheNumWays)
    (shows_ : FileShows pick cacheNumWays mrcEstIndex columns file)
    (inside : mrcEstIndex < columns.length) {column : List ERat}
    (dumped : dumpEstimates pick cacheNumWays mrcEstIndex (columns.set mrcEstIndex column) file =
      .ok (next, nextFile)) :
    FileShows pick cacheNumWays (mrcEstIndex + 1) next nextFile ∧
      Grows mrcEstIndex columns next file nextFile := by
  have latest := take_smoothColumns shows_.smoothed inside column
  cases isFile : file with
  | none =>
      rw [isFile] at dumped
      cases dumped
  | some text =>
      have content := shows_.content text isFile
      rw [isFile] at dumped
      obtain ⟨rfl, rfl⟩ := Prod.mk.inj (Except.ok.inj dumped)
      rw [latest]
      have longer := length_dumpText_append_singleton someWay (columns.take mrcEstIndex)
        (smooth pick column)
      have shorter : text.length <
          (dumpText cacheNumWays (columns.take mrcEstIndex ++ [smooth pick column])).length := by
        rw [content]
        split
        · exact Nat.zero_lt_of_lt longer
        · exact longer
      rw [overwriteFile_of_length_le shorter.le]
      refine ⟨⟨?_, ?_⟩, ?_, text, _, rfl, rfl, shorter⟩
      · rw [latest]
        exact List.forall_mem_append.mpr
          ⟨shows_.smoothed, List.forall_mem_singleton.mpr (smooth_smooth settles column)⟩
      · rintro _ ⟨⟩
        rw [if_neg (Nat.succ_ne_zero _), latest]
      · have first := congrArg (List.take mrcEstIndex) latest
        rw [List.take_take, min_eq_left (Nat.le_succ _)] at first
        rw [first, List.take_left' (List.length_take_of_le inside.le)]

end

/-! ## One turn -/

/-- Both files of a thread show its curves. -/
structure ShowsCurves (config : Config) (tinfo : ThreadInfo) : Prop where
  mrc : FileShows ERat.stdMin config.machine.cacheNumWays tinfo.mrcEstIndex tinfo.mrcEstimates
    tinfo.mrcOutfile
  ipc : FileShows ERat.stdMax config.machine.cacheNumWays tinfo.mrcEstIndex
    tinfo.ipcCurveEstimates tinfo.ipcOutfile

/-- What concerns the curves of a thread and their files is the same. -/
structure SameCurves (before after : ThreadInfo) : Prop where
  mrcEstIndex : after.mrcEstIndex = before.mrcEstIndex
  mrcEstimates : after.mrcEstimates = before.mrcEstimates
  ipcCurveEstimates : after.ipcCurveEstimates = before.ipcCurveEstimates
  mrcOutfile : after.mrcOutfile = before.mrcOutfile
  ipcOutfile : after.ipcOutfile = before.ipcOutfile

/-- Another column was dumped to both files. -/
structure DumpedColumn (before after : ThreadInfo) : Prop where
  mrcEstIndex : after.mrcEstIndex = before.mrcEstIndex + 1
  mrc : Grows before.mrcEstIndex before.mrcEstimates after.mrcEstimates before.mrcOutfile
    after.mrcOutfile
  ipc : Grows before.mrcEstIndex before.ipcCurveEstimates after.ipcCurveEstimates
    before.ipcOutfile after.ipcOutfile

theorem SameCurves.trans {first second third : ThreadInfo} (early : SameCurves first second)
    (late : SameCurves second third) : SameCurves first third :=
  ⟨late.mrcEstIndex.trans early.mrcEstIndex, late.mrcEstimates.trans early.mrcEstimates,
    late.ipcCurveEstimates.trans early.ipcCurveEstimates,
    late.mrcOutfile.trans early.mrcOutfile, late.ipcOutfile.trans early.ipcOutfile⟩

section

variable {config : Config} {tinfo next : ThreadInfo}

theorem SameCurves.showsCurves (same : SameCurves tinfo next)
    (shows_ : ShowsCurves config tinfo) : ShowsCurves config next := by
  obtain ⟨mrc, ipc⟩ := shows_
  constructor
  · rw [same.mrcEstIndex, same.mrcEstimates, same.mrcOutfile]
    exact mrc
  · rw [same.mrcEstIndex, same.ipcCurveEstimates, same.ipcOutfile]
    exact ipc

theorem DumpedColumn.sameCurves {last : ThreadInfo} (dumped : DumpedColumn tinfo next)
    (same : SameCurves next last) : DumpedColumn tinfo last := by
  obtain ⟨index, mrc, ipc⟩ := dumped
  rw [← same.mrcEstimates, ← same.mrcOutfile] at mrc
  rw [← same.ipcCurveEstimates, ← same.ipcOutfile] at ipc
  exact ⟨same.mrcEstIndex.trans index, mrc, ipc⟩

theorem SameCurves.dumpedColumn {between : ThreadInfo} (same : SameCurves tinfo between)
    (dumped : DumpedColumn between next) : DumpedColumn tinfo next := by
  obtain ⟨index, mrc, ipc⟩ := dumped
  rw [same.mrcEstIndex, same.mrcEstimates, same.mrcOutfile] at mrc
  rw [same.mrcEstIndex, same.ipcCurveEstimates, same.ipcOutfile] at ipc
  exact ⟨by rw [index, same.mrcEstIndex], mrc, ipc⟩

/-- The points that a turn ends with, the columns that are interpolated from them, and the two
dumps. -/
structure TurnOutcome (config : Config) (tinfo next : ThreadInfo) (xPoints : List ℕ)
    (yPointsMpki yPointsIpc yyMrc yyIpc : List ERat) : Prop where
  copiedX : copySecond .xPoints tinfo.xPoints = .ok xPoints
  copiedMpki : copySecond .yPoints tinfo.yPointsMpki = .ok yPointsMpki
  copiedIpc : copySecond .yPoints tinfo.yPointsIpc = .ok yPointsIpc
  isMrc : config.interp1 (xPoints.map fun ways : ℕ => .num ways) yPointsMpki
    ((List.range config.machine.cacheNumWays).map fun i => ERat.num (i + 1 : ℕ)) = some yyMrc
  isIpc : config.interp1 (xPoints.map fun ways : ℕ => .num ways) yPointsIpc
    ((List.range config.machine.cacheNumWays).map fun i => ERat.num (i + 1 : ℕ)) = some yyIpc
  inside : tinfo.mrcEstIndex < tinfo.mrcEstimates.length
  insideIpc : tinfo.mrcEstIndex < tinfo.ipcCurveEstimates.length
  dumpedMrc : dumpEstimates ERat.stdMin config.machine.cacheNumWays tinfo.mrcEstIndex
    (tinfo.mrcEstimates.set tinfo.mrcEstIndex (yyMrc.set (config.machine.cacheNumWays - 1)
      (yyMrc.getD (config.machine.cacheNumWays - 2) 0))) tinfo.mrcOutfile =
        .ok (next.mrcEstimates, next.mrcOutfile)
  dumpedIpc : dumpEstimates ERat.stdMax config.machine.cacheNumWays tinfo.mrcEstIndex
    (tinfo.ipcCurveEstimates.set tinfo.mrcEstIndex (yyIpc.set (config.machine.cacheNumWays - 1)
      (yyIpc.getD (config.machine.cacheNumWays - 2) 0))) tinfo.ipcOutfile =
        .ok (next.ipcCurveEstimates, next.ipcOutfile)
  mrcEstIndex : next.mrcEstIndex = tinfo.mrcEstIndex + 1

theorem interpolate_eq_ok {xPoints : List ℕ} {yPoints xx yy : List ERat}
    (returned : interpolate config xPoints yPoints xx = .ok yy) :
    config.interp1 (xPoints.map fun ways : ℕ => .num ways) yPoints xx = some yy := by
  rw [interpolate] at returned
  split at returned
  · rename_i values isSome
    cases returned
    simpa [← List.map_eq_flatMap, Function.comp_def] using isSome
  · cases returned

theorem exists_turnOutcome (returned : estimateCurves config tinfo = .ok next) :
    ∃ xPoints yPointsMpki yPointsIpc yyMrc yyIpc,
      TurnOutcome config tinfo next xPoints yPointsMpki yPointsIpc yyMrc yyIpc := by
  obtain ⟨steps, rfl⟩ := exists_curveSteps returned
  obtain ⟨⟨-, inside⟩, isStored⟩ := setAt_eq_ok_iff.mp steps.storedMrc
  obtain ⟨⟨-, insideIpc⟩, isStoredIpc⟩ := setAt_eq_ok_iff.mp steps.storedIpc
  have dumpedMrc := steps.dumpedMrc
  have dumpedIpc := steps.dumpedIpc
  rw [← isStored] at dumpedMrc
  rw [← isStoredIpc] at dumpedIpc
  exact ⟨steps.xPoints, steps.yPointsMpki, steps.yPointsIpc, steps.yyMrc, steps.yyIpc,
    steps.copiedX, steps.copiedMpki, steps.copiedIpc, interpolate_eq_ok steps.isMrc,
    interpolate_eq_ok steps.isIpc, by exact_mod_cast inside, by exact_mod_cast insideIpc,
    dumpedMrc, dumpedIpc, rfl⟩

/-- The end of a turn appends a column to both files. -/
theorem showsCurves_of_estimateCurves (someWay : 0 < config.machine.cacheNumWays)
    (shows_ : ShowsCurves config tinfo) (returned : estimateCurves config tinfo = .ok next) :
    ShowsCurves config next ∧ DumpedColumn tinfo next := by
  obtain ⟨xPoints, yPointsMpki, yPointsIpc, yyMrc, yyIpc, outcome⟩ := exists_turnOutcome returned
  obtain ⟨mrc, mrcGrows⟩ := fileShows_of_dumpEstimates pickSettles_stdMin someWay shows_.mrc
    outcome.inside outcome.dumpedMrc
  obtain ⟨ipc, ipcGrows⟩ := fileShows_of_dumpEstimates pickSettles_stdMax someWay shows_.ipc
    outcome.insideIpc outcome.dumpedIpc
  rw [← outcome.mrcEstIndex] at mrc ipc
  exact ⟨⟨mrc, ipc⟩, outcome.mrcEstIndex, mrcGrows, ipcGrows⟩

end

/-! ## One event -/

section

variable {config : Config} {monitor nextMonitor : Monitor} {tinfo after : ThreadInfo}

theorem sameCurves_refl (tinfo : ThreadInfo) : SameCurves tinfo tinfo := ⟨rfl, rfl, rfl, rfl, rfl⟩

theorem sameCurves_remembered (tinfo : ThreadInfo) : SameCurves tinfo tinfo.remembered :=
  ⟨rfl, rfl, rfl, rfl, rfl⟩

/-- The monitor leaves the curves alone, except that the thread whose turn ends estimates them. -/
theorem MonitorStep.curves_cases (step : MonitorStep config monitor tinfo nextMonitor after) :
    SameCurves tinfo after ∨
      ∃ sampled, SameCurves tinfo sampled ∧ estimateCurves config sampled = .ok after := by
  cases step with
  | idles closed goesOn after saved =>
      rcases saved with ⟨rfl, -⟩ | ⟨rfl, -⟩
      · exact .inl (sameCurves_remembered tinfo)
      · exact .inl (sameCurves_refl _)
  | passes invokes opensNone read => exact .inl (sameCurves_remembered tinfo)
  | opens opensRound read slice next installed => exact .inl (sameCurves_remembered tinfo)
  | waits samples read position next sampled stored noTurn =>
      refine .inl ?_
      cases stored <;> exact ⟨rfl, rfl, rfl, rfl, rfl⟩
  | advances collects read position more slice next installed =>
      exact .inl ⟨rfl, rfl, rfl, rfl, rfl⟩
  | finishes collects read all logged next isLogged ended estimated estimates =>
      exact .inr ⟨(tinfo.withSample config monitor).remembered, ⟨rfl, rfl, rfl, rfl, rfl⟩,
        estimates.returned⟩

theorem ReadBy.sameCurves {signal : Signal} {next metered : ThreadInfo} {group : EventGroup}
    {reading : Reading} (readBy : ReadBy config signal tinfo next group metered reading) :
    SameCurves tinfo next := by
  obtain ⟨⟨total, last, occupancy, rfl⟩, -, -, ends⟩ := readBy
  split at ends
  · rcases switchGroup_cases ends with ⟨-, rfl⟩ | ⟨-, -, -, rfl⟩ <;>
      exact ⟨rfl, rfl, rfl, rfl, rfl⟩
  · rw [ends]
    exact ⟨rfl, rfl, rfl, rfl, rfl⟩

variable {st next : State} {event : Event}

/-- The thread of a signal keeps its files in order. -/
theorem Served.curves {words : List Word} {signal : Signal} {before : ThreadInfo}
    {group counted : EventGroup} {sampled : ThreadInfo}
    (someWay : 0 < config.machine.cacheNumWays) (shows_ : ShowsCurves config before)
    (served : Served config st words signal before group counted monitor sampled after next) :
    ShowsCurves config after ∧
      (FinishesAt config (st.threadOf signal.fd) st (.phase words signal) →
        DumpedColumn before after) ∧
      (¬ FinishesAt config (st.threadOf signal.fd) st (.phase words signal) →
        SameCurves before after) := by
  have entered : SameCurves before (before.overflowed signal.fd counted words).enterPhase :=
    ⟨rfl, rfl, rfl, rfl, rfl⟩
  have monitored := served.monitored
  obtain ⟨metered, reading, readBy⟩ := served.readBy
  have counts := readBy.sameCurves
  rw [finishesAt_iff served]
  rcases monitored.curves_cases with same | ⟨between, same, returned⟩
  · have unchanged := (entered.trans same).trans counts
    refine ⟨unchanged.showsCurves shows_, fun finishes => ?_, fun _ => unchanged⟩
    -- The number of columns tells the two cases apart.
    have grown := monitored.mrcEstIndex_of_finishes finishes
    exact absurd (same.mrcEstIndex.symm.trans grown) (Nat.succ_ne_self _).symm
  · have untilThen := entered.trans same
    obtain ⟨dumpedShows, dumped⟩ :=
      showsCurves_of_estimateCurves someWay (untilThen.showsCurves shows_) returned
    refine ⟨counts.showsCurves dumpedShows,
      fun _ => (untilThen.dumpedColumn dumped).sameCurves counts, fun goesOn => ?_⟩
    have kept := monitored.mrcEstIndex_of_not goesOn
    exact absurd ((dumped.mrcEstIndex.symm.trans kept).trans same.mrcEstIndex.symm)
      (Nat.succ_ne_self _)

/-- What an event does to the files of a profiled thread: a column is dumped to both when its
turn ends, and else they are left alone. -/
def CurvesStep (config : Config) (st : State) (event : Event) (next : State) : Prop :=
  ∀ tid before after, st.Profiles tid before → next.Profiles tid after →
    (FinishesAt config tid st event → DumpedColumn before after) ∧
      (¬ FinishesAt config tid st event → SameCurves before after)

/-- The files of all profiled threads are in order. -/
def State.ShowsAllCurves (config : Config) (st : State) : Prop :=
  ∀ tid tinfo, st.Profiles tid tinfo → ShowsCurves config tinfo

/-- Every event keeps the files in order. -/
theorem curvesStep_systemStep (someWay : 0 < config.machine.cacheNumWays)
    (unlogged : st.monitor.Unlogged) (showsAll : st.ShowsAllCurves config)
    (stepped : systemStep config st event = .ok next) :
    next.ShowsAllCurves config ∧ CurvesStep config st event next := by
  cases event with
  | wait wait =>
      have waited := waitedBy_of_systemStep stepped
      refine ⟨fun tid tinfo profiled => showsAll tid tinfo (waited.profiles profiled),
        fun tid before after profiled stillProfiled => ⟨False.elim, fun _ => ?_⟩⟩
      cases profiled.1.symm.trans (waited.profiles stillProfiled).1
      exact sameCurves_refl before
  | phase words signal =>
      obtain ⟨before, group, counted, monitor, sampled, after, served⟩ :=
        served_of_systemStep unlogged stepped
      obtain ⟨ownShows, ownStep⟩ :=
        served.curves someWay (showsAll _ before ⟨served.isThread, served.isReal⟩)
      refine ⟨fun tid tinfo profiled => ?_, fun tid old tinfo wasProfiled profiled => ?_⟩
      · obtain ⟨isThread, isReal⟩ := profiled
        rw [served.tidMap] at isThread
        split at isThread
        · cases isThread
          exact ownShows
        · exact showsAll tid tinfo ⟨isThread, isReal⟩
      · obtain ⟨isThread, isReal⟩ := profiled
        rw [served.tidMap] at isThread
        split at isThread
        · rename_i here
          cases isThread
          subst here
          cases served.isThread.symm.trans wasProfiled.1
          exact ownStep
        · rename_i elsewhere
          cases wasProfiled.1.symm.trans isThread
          exact ⟨fun finishes => absurd finishes.1.symm elsewhere, fun _ => sameCurves_refl old⟩

end

/-! ## Every run -/

section

variable {library : Interpolation} {machine : Machine} {args : Args} {launch : Launch}
  {config : Config} {start : State}

/-- The files that `main` opens are empty. -/
theorem showsAllCurves_of_main
    (started : main library machine args launch = .ok (config, start)) :
    start.ShowsAllCurves config := by
  intro tid tinfo profiled
  obtain ⟨-, core, last, outfile, groups, isNew⟩ :=
    (launched_of_main started).isFresh profiled.1 profiled.2
  have empty (text : List Char)
      (isText : (if args.mrcEstMode then some [] else none) = some text) : text = [] := by
    split at isText
    · cases isText
      rfl
    · cases isText
  rw [isNew]
  exact ⟨⟨nofun, empty⟩, ⟨nofun, empty⟩⟩

/-- In every run both files of each profiled thread show the columns so far and nothing else, and
at the end of a turn of the thread, and only then, a column is added to them. -/
theorem showsAllCurves_along
    (started : main library machine args launch = .ok (config, start)) (events : List Event) :
    AlongRun (systemStep config) start events (fun _ st => st.ShowsAllCurves config) ∧
      AtEachStep (systemStep config) start events fun _ st event =>
        ∀ next, systemStep config st event = .ok next → CurvesStep config st event next := by
  have someWay : 0 < config.machine.cacheNumWays := by
    obtain ⟨⟨plan, generated, rfl⟩, -⟩ := launched_of_main started
    have atLeast : 3 ≤ machine.cacheNumWays := (narrow_of_generateProfilingPlan generated).1
    exact Nat.zero_lt_of_lt atLeast
  have unlogged : start.monitor.Unlogged := (accounted_of_main started).unlogged
  have kept : AlongRun (systemStep config) start events fun _ st =>
      st.monitor.Unlogged ∧ st.ShowsAllCurves config :=
    alongRun_of_preserved events ⟨unlogged, showsAllCurves_of_main started⟩
      fun _ _ _ _ both stepped => ⟨unlogged_systemStep both.1 stepped,
        (curvesStep_systemStep someWay both.1 both.2 stepped).1⟩
  constructor
  · exact fun early isPrefix st reached => (kept early isPrefix st reached).2
  · intro early event isPrefix st reached next stepped
    have shorter : early <+: events := (List.prefix_append early [event]).trans isPrefix
    obtain ⟨isUnlogged, showsAll⟩ := kept early shorter st reached
    exact (curvesStep_systemStep someWay isUnlogged showsAll stepped).2

end

/-! ## The files of two rounds -/

/-- The files of a run with two rounds, each of which dumps a column. -/
theorem twoRounds_showsAllCurves :
    ∃ config start last tinfo,
      main linearInterpolation interleavedMachine twoRounds quietLaunch = .ok (config, start) ∧
      run (systemStep config) start (slowingPhases 18) = .ok last ∧
      last.Profiles 100 tinfo ∧ tinfo.mrcEstIndex = 2 ∧
      AlongRun (systemStep config) start (slowingPhases 18)
        (fun _ st => st.ShowsAllCurves config) ∧
      AtEachStep (systemStep config) start (slowingPhases 18) fun _ st event =>
        ∀ next, systemStep config st event = .ok next → CurvesStep config st event next := by
  have filled := filledColumns_twoRounds
  simp only [filledColumns, bind, pure, Option.bind_eq_some_iff, toOption_eq_some_iff] at filled
  obtain ⟨⟨config, start⟩, started, last, reached, tinfo, isThread, columns⟩ := filled
  simp only [Option.some.injEq, Prod.mk.injEq] at columns
  exact ⟨config, start, last, tinfo, started, reached, ⟨isThread, columns.1⟩, columns.2,
    showsAllCurves_along started (slowingPhases 18)⟩

end Datamime.Profiler
