/-
# Estimating the curves

At the end of a sampling round the sampled points of a thread are interpolated to one
value for every number of ways. The estimates of all rounds are kept as the columns of
two matrices. They are smoothed and written to two files, and the averages over the
latest columns are refreshed.
-/

import Datamime.Fault
import Datamime.Math.Text
import Datamime.Profiler.State

namespace Datamime.Profiler

open Datamime.Math

/-! ## Numbers in fixed-point notation -/

/-- The nearest natural number, to even in the middle. -/
def roundHalfEven (x : ℚ) : ℕ :=
  let below := x.floor.toNat
  let rest := x - below
  if rest < 1 / 2 ∨ rest = 1 / 2 ∧ below % 2 = 0 then below else below + 1

/-- The decimal digits of a number, filled up with zeros to six. -/
def sixDigits (n : ℕ) : List Char :=
  let digits := Nat.toDigits 10 n
  List.replicate (6 - digits.length) '0' ++ digits

/-- The conversion `%f`. -/
def fixedPoint : ERat → List Char
  | .nan => "nan".toList
  | .inf negative => if negative then "-inf".toList else "inf".toList
  | .num q =>
      let millionths := roundHalfEven (|q| * 1000000)
      (if q < 0 then ['-'] else []) ++ Nat.toDigits 10 (millionths / 1000000) ++ '.' ::
        sixDigits (millionths % 1000000)

/-! ## The files of estimates -/

/-- Each value becomes the pick between the one before it, smoothed, and itself. -/
def smoothFrom (pick : ERat → ERat → ERat) : ERat → List ERat → List ERat
  | _, [] => []
  | prevValue, value :: rest =>
      pick prevValue value :: smoothFrom pick (pick prevValue value) rest

/-- A smoothed column. -/
def smooth (pick : ERat → ERat → ERat) : List ERat → List ERat
  | [] => []
  | value :: rest => value :: smoothFrom pick value rest

/-- Write a text over the beginning of a file. -/
def overwriteFile (file text : List Char) : List Char := text ++ file.drop text.length

/-- The lines of a dump: one for each number of ways, with the values of the columns. -/
def dumpText (cacheNumWays : ℕ) (columns : List (List ERat)) : List Char :=
  (List.range cacheNumWays).flatMap fun i =>
    columns.flatMap (fun column => fixedPoint (column.getD i 0) ++ [' ']) ++ ['\n']

/-- The columns after those up to the current one were smoothed. -/
def smoothColumns (pick : ERat → ERat → ERat) (mrcEstIndex : ℕ) (columns : List (List ERat)) :
    List (List ERat) :=
  (columns.take (mrcEstIndex + 1)).map (smooth pick) ++ columns.drop (mrcEstIndex + 1)

/-- The part that `dump_mrc_estimates` and `dump_ipc_estimates` share. -/
def dumpEstimates (pick : ERat → ERat → ERat) (cacheNumWays mrcEstIndex : ℕ)
    (columns : List (List ERat)) (file : Option (List Char)) :
    Except Fault (List (List ERat) × Option (List Char)) :=
  match file with
  | none => .error .nullEntry
  | some file =>
      let smoothed := smoothColumns pick mrcEstIndex columns
      .ok (smoothed,
        some (overwriteFile file (dumpText cacheNumWays (smoothed.take (mrcEstIndex + 1)))))

/-- `dump_mrc_estimates`: misses do not increase with the ways. -/
def dumpMrcEstimates (cacheNumWays : ℕ) (tinfo : ThreadInfo) : Except Fault ThreadInfo := do
  let (estimates, file) ←
    dumpEstimates ERat.stdMin cacheNumWays tinfo.mrcEstIndex tinfo.mrcEstimates tinfo.mrcOutfile
  return { tinfo with mrcEstimates := estimates, mrcOutfile := file }

/-- `dump_ipc_estimates`: instructions per cycle do not decrease with the ways. -/
def dumpIpcEstimates (cacheNumWays : ℕ) (tinfo : ThreadInfo) : Except Fault ThreadInfo := do
  let (estimates, file) ←
    dumpEstimates ERat.stdMax cacheNumWays tinfo.mrcEstIndex tinfo.ipcCurveEstimates
      tinfo.ipcOutfile
  return { tinfo with ipcCurveEstimates := estimates, ipcOutfile := file }

/-! ## The end of a round -/

/-- `interp1`, with the text of its exception. -/
def interpolate (config : Config) (xPoints : List ℕ) (yPoints xx : List ERat) :
    Except Fault (List ERat) :=
  match config.interp1 (xPoints.map fun ways => .num ways) yPoints xx with
  | some yy => .ok yy
  | none => .error (.thrown "interp1()")

/-- Copy an estimate to its column. The last value, which no sample supports, is replaced by
the one before it. -/
def storeColumn (cacheNumWays mrcEstIndex : ℕ) (columns : List (List ERat)) (yy : List ERat) :
    Except Fault (List (List ERat)) :=
  setAt .estimates columns mrcEstIndex (yy.set (cacheNumWays - 1) (yy.getD (cacheNumWays - 2) 0))

/-- The averages of the rows over the latest columns. -/
def averages (cacheNumWays mrcEstIndex : ℕ) (columns : List (List ERat)) : List ERat :=
  let startCol := mrcEstIndex - HIST_WINDOW_LENGTH
  let latest := (columns.drop startCol).take (mrcEstIndex + 1 - startCol)
  (List.range cacheNumWays).map fun w =>
    (latest.map fun column => column.getD w 0).foldl (· + ·) 0 / .num latest.length

/-- The warm-up reading is replaced by the one after it. -/
def copySecond {α : Type} (array : IndexedArray) (points : List α) : Except Fault (List α) := do
  let second ← index array points 1
  setAt array points 0 second

/-- What a thread does with its samples at the end of a round. -/
def estimateCurves (config : Config) (tinfo : ThreadInfo) : Except Fault ThreadInfo := do
  let cacheNumWays := config.machine.cacheNumWays
  let xx := (List.range cacheNumWays).map fun i => ERat.num (i + 1 : ℕ)
  let _yyMrc ← index .estimates tinfo.mrcEstimates tinfo.mrcEstIndex
  let _yyIpc ← index .estimates tinfo.ipcCurveEstimates tinfo.mrcEstIndex
  -- The first reading is only a warm-up.
  let xPoints ← copySecond .xPoints tinfo.xPoints
  let yPointsMpki ← copySecond .yPoints tinfo.yPointsMpki
  let yPointsIpc ← copySecond .yPoints tinfo.yPointsIpc
  let yyMrc ← interpolate config xPoints yPointsMpki xx
  let yyIpc ← interpolate config xPoints yPointsIpc xx
  let mrcEstimates ← storeColumn cacheNumWays tinfo.mrcEstIndex tinfo.mrcEstimates yyMrc
  let ipcCurveEstimates ← storeColumn cacheNumWays tinfo.mrcEstIndex tinfo.ipcCurveEstimates yyIpc
  let dumped ← dumpMrcEstimates cacheNumWays { tinfo with
    xPoints, yPointsMpki, yPointsIpc, mrcEstimates, ipcCurveEstimates }
  let dumped ← dumpIpcEstimates cacheNumWays dumped
  return { dumped with
    mrcEstAvg := averages cacheNumWays tinfo.mrcEstIndex dumped.mrcEstimates
    ipcCurveAvg := averages cacheNumWays tinfo.mrcEstIndex dumped.ipcCurveEstimates
    mrcEstIndex := tinfo.mrcEstIndex + 1 }

end Datamime.Profiler
