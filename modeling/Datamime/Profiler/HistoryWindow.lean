/-
# The averages over the history

At the end of a round the averages of the curves are taken anew. The loop starts as many columns
before the current one as the history has samples, and takes the current one as well. As long as
there are not more columns than that, the averages are those of the latest samples; later on they
include one column too many.
-/

import Datamime.Math.Mean
import Datamime.Profiler.CurveColumns

namespace Datamime.Profiler

open Datamime.Math

/-! ## One round -/

/-- The averages, with another length in the place of `HIST_WINDOW_LENGTH`. -/
def averagesOver (histWindowLength cacheNumWays mrcEstIndex : ℕ) (columns : List (List ERat)) :
    List ERat :=
  let startCol := mrcEstIndex - histWindowLength
  let latest := (columns.drop startCol).take (mrcEstIndex + 1 - startCol)
  (List.range cacheNumWays).map fun w =>
    (latest.map fun column => column.getD w 0).foldl (· + ·) 0 / .num latest.length

theorem averages_eq : averages = averagesOver HIST_WINDOW_LENGTH := rfl

/-- The points that a thread has collected at the end of a round. -/
structure RoundSamples where
  xPoints : List ℕ
  yPointsMpki : List ERat
  yPointsIpc : List ERat

def ThreadInfo.withSamples (tinfo : ThreadInfo) (samples : RoundSamples) : ThreadInfo :=
  { tinfo with
    xPoints := samples.xPoints
    yPointsMpki := samples.yPointsMpki
    yPointsIpc := samples.yPointsIpc }

/-- The end of a round, for any length of the history. Nothing in it reads the averages, which are
written last. -/
def endRound (histWindowLength : ℕ) (config : Config) (tinfo : ThreadInfo)
    (samples : RoundSamples) : Except Fault ThreadInfo := do
  let next ← estimateCurves config (tinfo.withSamples samples)
  return { next with
    mrcEstAvg := averagesOver histWindowLength config.machine.cacheNumWays tinfo.mrcEstIndex
      next.mrcEstimates
    ipcCurveAvg := averagesOver histWindowLength config.machine.cacheNumWays tinfo.mrcEstIndex
      next.ipcCurveEstimates }

section

variable {config : Config} {tinfo next : ThreadInfo}

theorem averages_of_estimateCurves (returned : estimateCurves config tinfo = .ok next) :
    next.mrcEstAvg =
        averages config.machine.cacheNumWays tinfo.mrcEstIndex next.mrcEstimates ∧
      next.ipcCurveAvg =
        averages config.machine.cacheNumWays tinfo.mrcEstIndex next.ipcCurveEstimates := by
  rcases exists_curveSteps returned with ⟨steps, rfl⟩
  exact ⟨rfl, rfl⟩

/-- With the length of the history that the code has, this is the end of a round. -/
theorem endRound_histWindowLength (config : Config) (tinfo : ThreadInfo) (samples : RoundSamples) :
    endRound HIST_WINDOW_LENGTH config tinfo samples =
      estimateCurves config (tinfo.withSamples samples) := by
  rw [endRound]
  cases returned : estimateCurves config (tinfo.withSamples samples) with
  | error fault => rfl
  | ok next =>
      rcases averages_of_estimateCurves returned with ⟨mrc, ipc⟩
      have sameIndex : (tinfo.withSamples samples).mrcEstIndex = tinfo.mrcEstIndex := rfl
      rw [sameIndex] at mrc ipc
      rw [ok_bind, ← averages_eq, ← mrc, ← ipc]
      rfl

end

/-! ## The latest columns -/

/-- The most recent columns of the first `n`, at most `count` of them. -/
def latestColumns (count n : ℕ) (columns : List (List ERat)) : List (List ERat) :=
  (columns.take n).drop (n - min n count)

def valuesAt (columns : List (List ERat)) (w : ℕ) : List ERat :=
  columns.map fun column => column.getD w 0

/-- The means of the most recent columns, way by way. -/
def latestMeans (histWindowLength cacheNumWays n : ℕ) (columns : List (List ERat)) : List ERat :=
  (List.range cacheNumWays).map fun w =>
    ERat.mean (valuesAt (latestColumns histWindowLength n columns) w)

/-- At each number of ways the column before the most recent ones does not change their mean. -/
def OlderKeepsMeans (histWindowLength cacheNumWays n : ℕ) (columns : List (List ERat)) : Prop :=
  ∀ w < cacheNumWays, ERat.KeepsMean ((columns.getD (n - (histWindowLength + 1)) []).getD w 0)
    (valuesAt (latestColumns histWindowLength n columns) w)

section

variable {histWindowLength cacheNumWays n mrcEstIndex : ℕ} {columns : List (List ERat)}

/-- The loop takes one column more than the history has samples. -/
theorem averagesOver_eq (histWindowLength cacheNumWays mrcEstIndex : ℕ)
    (columns : List (List ERat)) :
    averagesOver histWindowLength cacheNumWays mrcEstIndex columns =
      latestMeans (histWindowLength + 1) cacheNumWays (mrcEstIndex + 1) columns := by
  have start : mrcEstIndex + 1 - min (mrcEstIndex + 1) (histWindowLength + 1) =
      mrcEstIndex - histWindowLength := by omega
  have window : latestColumns (histWindowLength + 1) (mrcEstIndex + 1) columns =
      (columns.drop (mrcEstIndex - histWindowLength)).take
        (mrcEstIndex + 1 - (mrcEstIndex - histWindowLength)) := by
    rw [latestColumns, start, List.drop_take]
  rw [averagesOver, latestMeans, window]
  simp only [ERat.mean, ERat.sum, valuesAt, List.length_map]

theorem latestColumns_succ_of_le (few : n ≤ histWindowLength) (columns : List (List ERat)) :
    latestColumns (histWindowLength + 1) n columns = latestColumns histWindowLength n columns := by
  rw [latestColumns, latestColumns, min_eq_left few, min_eq_left (few.trans (Nat.le_succ _))]

theorem latestColumns_succ_of_lt (many : histWindowLength < n) (within : n ≤ columns.length) :
    latestColumns (histWindowLength + 1) n columns =
      columns.getD (n - (histWindowLength + 1)) [] :: latestColumns histWindowLength n columns := by
  have inside : n - (histWindowLength + 1) < (columns.take n).length := by
    rw [List.length_take_of_le within]
    omega
  have isOlder : columns.getD (n - (histWindowLength + 1)) [] =
      (columns.take n)[n - (histWindowLength + 1)] := by
    rw [List.getElem_take, List.getD_eq_getElem?_getD,
      List.getElem?_eq_getElem (show n - (histWindowLength + 1) < columns.length by omega),
      Option.getD_some]
  have next : n - (histWindowLength + 1) + 1 = n - histWindowLength := by omega
  rw [latestColumns, latestColumns, min_eq_right (Nat.succ_le_of_lt many), min_eq_right many.le,
    List.drop_eq_getElem_cons inside, isOlder, next]

/-- The averages are the means of the latest samples precisely if there are not more columns than
that, or if one more column does not matter. -/
theorem averagesOver_eq_latestMeans_iff (within : mrcEstIndex < columns.length) :
    averagesOver histWindowLength cacheNumWays mrcEstIndex columns =
        latestMeans histWindowLength cacheNumWays (mrcEstIndex + 1) columns ↔
      mrcEstIndex + 1 ≤ histWindowLength ∨
        OlderKeepsMeans histWindowLength cacheNumWays (mrcEstIndex + 1) columns := by
  rw [averagesOver_eq]
  by_cases few : mrcEstIndex + 1 ≤ histWindowLength
  · rw [latestMeans, latestColumns_succ_of_le few, latestMeans]
    simp [few]
  · rw [or_iff_right few, latestMeans, latestMeans, List.map_inj_left, OlderKeepsMeans,
      latestColumns_succ_of_lt (not_le.mp few) within]
    simp only [List.mem_range, valuesAt, List.map_cons, ERat.mean_cons_eq_iff]

theorem getD_latestMeans {w : ℕ} (isWay : w < cacheNumWays) (columns : List (List ERat)) :
    (latestMeans histWindowLength cacheNumWays n columns).getD w 0 =
      ERat.mean (valuesAt (latestColumns histWindowLength n columns) w) := by
  rw [latestMeans, List.getD_eq_getElem?_getD, List.getElem?_map, List.getElem?_range isWay]
  rfl

/-! ## The order of the averages -/

/-- The values at more ways lie below those at fewer ways. -/
def FallsInWays (below : ERat → ERat → Prop) (cacheNumWays : ℕ) (values : List ERat) : Prop :=
  ∀ few many, few ≤ many → many < cacheNumWays → below (values.getD many 0) (values.getD few 0)

theorem fallsInWays_latestMeans {below : ERat → ERat → Prop}
    (keeps : ∀ lower upper, List.Forall₂ below lower upper → ERat.mean lower ≠ .nan →
      ERat.mean upper ≠ .nan → below (ERat.mean lower) (ERat.mean upper))
    (fall : ∀ column ∈ columns.take n, FallsInWays below cacheNumWays column)
    (defined : ERat.nan ∉ latestMeans histWindowLength cacheNumWays n columns) :
    FallsInWays below cacheNumWays (latestMeans histWindowLength cacheNumWays n columns) := by
  intro few many fewer isWay
  have isDefined (w : ℕ) (below : w < cacheNumWays) :
      ERat.mean (valuesAt (latestColumns histWindowLength n columns) w) ≠ .nan := by
    intro undefined
    exact defined (List.mem_map.mpr ⟨w, List.mem_range.mpr below, undefined⟩)
  rw [getD_latestMeans isWay, getD_latestMeans (fewer.trans_lt isWay)]
  apply keeps _ _ _ (isDefined many isWay) (isDefined few (fewer.trans_lt isWay))
  rw [valuesAt, valuesAt, List.forall₂_map_left_iff, List.forall₂_map_right_iff,
    List.forall₂_same]
  exact fun column isLatest => fall column (List.mem_of_mem_drop isLatest) few many fewer isWay

end

/-! ## Every sequence of rounds -/

/-- What a round leaves of the curves of a thread. -/
structure RoundEnded (histWindowLength : ℕ) (config : Config) (before after : ThreadInfo) :
    Prop where
  mrcEstIndex : after.mrcEstIndex = before.mrcEstIndex + 1
  insideMrc : before.mrcEstIndex < after.mrcEstimates.length
  insideIpc : before.mrcEstIndex < after.ipcCurveEstimates.length
  mrcEstAvg : after.mrcEstAvg = averagesOver histWindowLength config.machine.cacheNumWays
    before.mrcEstIndex after.mrcEstimates
  ipcCurveAvg : after.ipcCurveAvg = averagesOver histWindowLength config.machine.cacheNumWays
    before.mrcEstIndex after.ipcCurveEstimates

/-- Both averages are the means of the latest samples, where `n` rounds are completed. -/
structure AveragesLatest (histWindowLength : ℕ) (config : Config) (n : ℕ) (tinfo : ThreadInfo) :
    Prop where
  mrc : tinfo.mrcEstAvg =
    latestMeans histWindowLength config.machine.cacheNumWays n tinfo.mrcEstimates
  ipc : tinfo.ipcCurveAvg =
    latestMeans histWindowLength config.machine.cacheNumWays n tinfo.ipcCurveEstimates

/-- The averages are ordered in the number of ways if all columns so far are. -/
def InheritsOrder (below : ERat → ERat → Prop) (config : Config) (n : ℕ)
    (columns : List (List ERat)) (averages : List ERat) : Prop :=
  (∀ column ∈ columns.take n, FallsInWays below config.machine.cacheNumWays column) →
    ERat.nan ∉ averages → FallsInWays below config.machine.cacheNumWays averages

/-- There are not more columns than the history has samples, or the one before the latest does
not matter. -/
def WithinHistory (histWindowLength : ℕ) (config : Config) (n : ℕ) (tinfo : ThreadInfo) : Prop :=
  n ≤ histWindowLength ∨
    OlderKeepsMeans histWindowLength config.machine.cacheNumWays n tinfo.mrcEstimates ∧
      OlderKeepsMeans histWindowLength config.machine.cacheNumWays n tinfo.ipcCurveEstimates

section

variable {histWindowLength : ℕ} {config : Config} {tinfo next : ThreadInfo}
  {samples : RoundSamples}

theorem roundEnded_of_endRound
    (returned : endRound histWindowLength config tinfo samples = .ok next) :
    RoundEnded histWindowLength config tinfo next := by
  rcases bind_eq_ok_iff.mp returned with ⟨estimated, isEstimated, isNext⟩
  cases isNext
  rcases exists_turnOutcome isEstimated with ⟨_, _, _, _, _, outcome⟩
  have lengthMrc := (dumpEstimates_cases outcome.dumpedMrc).1
  have lengthIpc := (dumpEstimates_cases outcome.dumpedIpc).1
  rw [List.length_set] at lengthMrc lengthIpc
  exact ⟨outcome.mrcEstIndex, lengthMrc ▸ outcome.inside, lengthIpc ▸ outcome.insideIpc, rfl, rfl⟩

theorem RoundEnded.averagesLatest_iff (ended : RoundEnded histWindowLength config tinfo next) :
    AveragesLatest histWindowLength config next.mrcEstIndex next ↔
      WithinHistory histWindowLength config next.mrcEstIndex next := by
  have mrc := @averagesOver_eq_latestMeans_iff histWindowLength config.machine.cacheNumWays _ _
    ended.insideMrc
  have ipc := @averagesOver_eq_latestMeans_iff histWindowLength config.machine.cacheNumWays _ _
    ended.insideIpc
  rw [← ended.mrcEstAvg, ← ended.mrcEstIndex] at mrc
  rw [← ended.ipcCurveAvg, ← ended.mrcEstIndex] at ipc
  rw [WithinHistory, or_and_left, ← mrc, ← ipc]
  exact ⟨fun latest => ⟨latest.mrc, latest.ipc⟩, fun both => ⟨both.1, both.2⟩⟩

theorem RoundEnded.inheritsOrder (ended : RoundEnded histWindowLength config tinfo next) :
    InheritsOrder ERat.AtMost config next.mrcEstIndex next.mrcEstimates next.mrcEstAvg ∧
      InheritsOrder ERat.AtLeast config next.mrcEstIndex next.ipcCurveEstimates
        next.ipcCurveAvg := by
  rw [ended.mrcEstAvg, ended.ipcCurveAvg, averagesOver_eq, averagesOver_eq, ← ended.mrcEstIndex]
  constructor
  · exact fallsInWays_latestMeans fun _ _ => ERat.mean_atMost
  · apply fallsInWays_latestMeans
    intro lower upper related defined alsoDefined
    exact ERat.mean_atMost related.flip alsoDefined defined

end

/-- In every run of rounds the averages are the means of the latest samples precisely as long as
there are not more rounds than that, or the column before the latest does not change their
means. The averages are always ordered as the columns are. -/
theorem averagesLatest_along_iff (histWindowLength : ℕ) (config : Config) (start : ThreadInfo)
    (fresh : start.mrcEstIndex = 0) (rounds : List RoundSamples) :
    (AlongRun (endRound histWindowLength config) start rounds fun early tinfo => early ≠ [] →
      AveragesLatest histWindowLength config early.length tinfo ∧
      InheritsOrder ERat.AtMost config early.length tinfo.mrcEstimates tinfo.mrcEstAvg ∧
      InheritsOrder ERat.AtLeast config early.length tinfo.ipcCurveEstimates
        tinfo.ipcCurveAvg) ↔
    AlongRun (endRound histWindowLength config) start rounds fun early tinfo => early ≠ [] →
      WithinHistory histWindowLength config early.length tinfo := by
  have counted : AlongRun (endRound histWindowLength config) start rounds fun early tinfo =>
      tinfo.mrcEstIndex = early.length ∧
        (early ≠ [] → ∃ before, RoundEnded histWindowLength config before tinfo) := by
    refine alongRun_of_preserved rounds ⟨fresh, fun isEmpty => absurd rfl isEmpty⟩ ?_
    intro early tinfo samples next ⟨isIndex, _⟩ returned
    have ended := roundEnded_of_endRound returned
    refine ⟨?_, fun _ => ⟨tinfo, ended⟩⟩
    rw [ended.mrcEstIndex, isIndex, List.length_append, List.length_singleton]
  refine forall_congr' fun early => forall_congr' fun isPrefix => forall_congr' fun tinfo =>
    forall_congr' fun reached => forall_congr' fun some_round => ?_
  rcases counted early isPrefix tinfo reached with ⟨isIndex, isEnded⟩
  rcases isEnded some_round with ⟨before, ended⟩
  rw [← isIndex, ended.averagesLatest_iff]
  exact and_iff_left ended.inheritsOrder

/-- A thread that samples a cache of twelve ways. -/
def samplingConfig : Config where
  toInterpolation := linearInterpolation
  machine := interleavedMachine
  plan := twelveWayPlan
  numPhases := 5500
  mrcEstMode := true
  mrcProfileInterval := 500
  numProfiledThreads := 2

/-- The samples of a round that reads the same number of misses under any number of ways. -/
def flatRound (mpki : ℚ) : RoundSamples where
  xPoints := [11, 11, 8, 6, 4, 2, 1]
  yPointsMpki := List.replicate 7 (.num mpki)
  yPointsIpc := List.replicate 7 (.num 1)

/-- Two rounds are within the history. -/
theorem twoRounds_averagesLatest :
    AlongRun (endRound HIST_WINDOW_LENGTH samplingConfig) secondThread [flatRound 8, flatRound 4]
      fun early tinfo => early ≠ [] →
        AveragesLatest HIST_WINDOW_LENGTH samplingConfig early.length tinfo ∧
        InheritsOrder ERat.AtMost samplingConfig early.length tinfo.mrcEstimates
          tinfo.mrcEstAvg ∧
        InheritsOrder ERat.AtLeast samplingConfig early.length tinfo.ipcCurveEstimates
          tinfo.ipcCurveAvg := by
  apply (averagesLatest_along_iff HIST_WINDOW_LENGTH samplingConfig secondThread rfl _).mpr
  intro early isPrefix tinfo reached some_round
  have few : early.length ≤ 2 := isPrefix.length_le
  exact .inl (few.trans (by decide))

/-- Eight misses in the first round and four in the three rounds after it. -/
def fourRounds : List RoundSamples := [flatRound 8, flatRound 4, flatRound 4, flatRound 4]

/-- After the fourth round the average is five, and the mean of the latest three samples four. -/
theorem fourRounds_not_averagesLatest :
    secondThread.mrcEstIndex = 0 ∧
    (run (endRound HIST_WINDOW_LENGTH samplingConfig) secondThread fourRounds).toOption.map
        (fun tinfo => (tinfo.mrcEstAvg, latestMeans HIST_WINDOW_LENGTH 12 4 tinfo.mrcEstimates)) =
      some (List.replicate 12 (.num 5), List.replicate 12 (.num 4)) ∧
    ¬ AlongRun (endRound HIST_WINDOW_LENGTH samplingConfig) secondThread fourRounds
      fun early tinfo => early ≠ [] →
        AveragesLatest HIST_WINDOW_LENGTH samplingConfig early.length tinfo := by
  have values : (run (endRound HIST_WINDOW_LENGTH samplingConfig) secondThread
      fourRounds).toOption.map
        (fun tinfo => (tinfo.mrcEstAvg, latestMeans HIST_WINDOW_LENGTH 12 4 tinfo.mrcEstimates)) =
      some (List.replicate 12 (.num 5), List.replicate 12 (.num 4)) := by
    decide +kernel
  refine ⟨rfl, values, fun latest => ?_⟩
  cases reached : run (endRound HIST_WINDOW_LENGTH samplingConfig) secondThread fourRounds with
  | error fault =>
      rw [reached] at values
      cases values
  | ok tinfo =>
      rw [reached] at values
      rcases Prod.mk.inj (Option.some.inj values) with ⟨isAverage, isMean⟩
      have claimed := (latest fourRounds (List.prefix_refl _) tinfo reached
        (List.cons_ne_nil _ _)).mrc
      have same : List.replicate 12 (ERat.num 5) = List.replicate 12 (ERat.num 4) :=
        isAverage.symm.trans (claimed.trans isMean)
      exact absurd same (by decide)

end Datamime.Profiler
