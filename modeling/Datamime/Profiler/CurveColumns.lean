/-
# The columns of the curves

A turn of a thread ends with one sample for each slice of the plan. The first one is a warm-up,
and the second one, taken under the same number of ways, replaces it. The plan reaches from one
way to all ways but one, so the interpolation leaves only the value at all ways undefined, and
that one is copied from its neighbour. The smoothing comes after that, and keeps the two equal:
what the turn leaves is a whole curve, which is ordered and bounded by the samples.
-/

import Datamime.Profiler.CurveFiles
import Datamime.Profiler.Pairing

namespace Datamime.Profiler

open Datamime.Math Datamime.Hardware

/-! ## The ways of a plan -/

/-- The numbers of ways that the slices of a plan sample. -/
def Plan.ways (plan : Plan) : List ℕ :=
  plan.slices.map fun slice => numWaysBeingSampled slice.sampled

/-- The way counts of a plan: the first one comes twice, the others once, and they reach from
one way to all ways but one. -/
structure Spans (cacheNumWays : ℕ) (ways : List ℕ) : Prop where
  warmsUp : ∃ rest, ways = (cacheNumWays - 1) :: (cacheNumWays - 1) :: rest ∧
    ((cacheNumWays - 1) :: rest).Nodup
  least : 1 ∈ ways

theorem spans_wayCounts {cacheCapacity : ℕ} {ways : List ℕ}
    (accepted : wayCounts cacheCapacity = some ways) : Spans cacheCapacity ways := by
  unfold wayCounts at accepted
  split at accepted <;> cases accepted <;> exact ⟨⟨_, rfl, by decide⟩, by decide⟩

theorem numWaysBeingSampled_sliceOf (cacheCapacity ways : ℕ) :
    numWaysBeingSampled (sliceOf cacheCapacity ways).sampled = ways := by
  rw [numWaysBeingSampled, cbmEntries_sliceOf, List.length_range]

/-- The plan samples the way counts that it is made from. -/
theorem spans_of_generateProfilingPlan {cacheCapacity : ℕ} {plan : Plan}
    (generated : generateProfilingPlan cacheCapacity = .ok plan) :
    Spans cacheCapacity plan.ways := by
  unfold generateProfilingPlan at generated
  split at generated
  · rename_i ways accepted
    obtain rfl := Except.ok.inj generated
    have spans := spans_wayCounts accepted
    have regular : (ways.map (sliceOf cacheCapacity)).map
        (fun slice => numWaysBeingSampled slice.sampled) = ways := by
      rw [List.map_map]
      exact (List.map_congr_left fun count _ => numWaysBeingSampled_sliceOf _ count).trans
        (List.map_id' ways)
    have sampled : Plan.ways ⟨assignments cacheCapacity ways, by
        rw [length_assignments]
        exact (wayCounts_bounds accepted).1⟩ = ways := by
      simp only [Plan.ways, assignments]
      split
      · rename_i twelve
        subst twelve
        cases accepted
        rfl
      · exact regular
    rw [sampled]
    exact spans
  · cases generated

/-! ## One column -/

/-- The library interpolates linearly between finite points, and knows no value outside of
their range. -/
def Interpolation.IsPiecewiseLinear (library : Interpolation) : Prop :=
  ∀ points : List (ℚ × ℚ), IsGraph points → ∀ (xi : List ℚ) (yi : List ERat),
    library.interp1 (points.map fun p => .num p.1) (points.map fun p => .num p.2)
        (xi.map ERat.num) = some yi →
      yi = xi.map fun x => (piecewiseLinear points x).elim .nan .num

/-- The values of a column are a curve over the numbers of ways: they are ordered, they stay
within the samples, and the last two are equal. -/
structure IsCurve (order : ℚ → ℚ → Prop) (cacheNumWays : ℕ) (samples values : List ℚ) :
    Prop where
  length : values.length = cacheNumWays
  ordered : values.Pairwise order
  bounded : ∀ value ∈ values, Bounded samples value
  lastTwo : values[cacheNumWays - 2]? = values[cacheNumWays - 1]?

/-- On numbers, a pick of floating-point values is one of exact values. -/
structure PicksBy (pick : ERat → ERat → ERat) (choose : ℚ → ℚ → ℚ) : Prop where
  num : ∀ a b, pick (.num a) (.num b) = .num (choose a b)
  choice : ∀ a b, choose a b = a ∨ choose a b = b
  settles : ∀ a b, choose (choose a b) b = choose a b

theorem picksBy_min : PicksBy ERat.stdMin min := by
  refine ⟨fun a b => ?_, min_choice, fun a b => ?_⟩
  · by_cases less : b < a
    · have picksSecond : ERat.stdMin (.num a) (.num b) = .num b := if_pos (decide_eq_true less)
      rw [picksSecond, min_eq_right less.le]
    · have picksFirst : ERat.stdMin (.num a) (.num b) = .num a :=
        if_neg (ne_true_of_eq_false (decide_eq_false less))
      rw [picksFirst, min_eq_left (not_lt.mp less)]
  · rw [min_assoc, min_self]

theorem picksBy_max : PicksBy ERat.stdMax max := by
  refine ⟨fun a b => ?_, max_choice, fun a b => ?_⟩
  · by_cases less : a < b
    · have picksSecond : ERat.stdMax (.num a) (.num b) = .num b := if_pos (decide_eq_true less)
      rw [picksSecond, max_eq_right less.le]
    · have picksFirst : ERat.stdMax (.num a) (.num b) = .num a :=
        if_neg (ne_true_of_eq_false (decide_eq_false less))
      rw [picksFirst, max_eq_left (not_lt.mp less)]
  · rw [max_assoc, max_self]

section

variable {pick : ERat → ERat → ERat} {choose : ℚ → ℚ → ℚ}

theorem smooth_map_num (picks : PicksBy pick choose) (first : ℚ) (values : List ℚ) :
    smooth pick ((first :: values).map .num) = (values.scanl choose first).map .num := by
  rw [List.map_cons, smooth]
  induction values generalizing first with
  | nil => rfl
  | cons value values ih =>
      rw [List.map_cons, smoothFrom, picks.num, ih, List.scanl_cons, List.map_cons]

/-- Smoothing a column of numbers whose last one was copied makes a curve of it. -/
theorem isCurve_scanl {order : ℚ → ℚ → Prop} [IsTrans ℚ order] (picks : PicksBy pick choose)
    (moves : ∀ a b, order a (choose a b)) {samples : List ℚ} {first last : ℚ} {values : List ℚ}
    (first_bounded : Bounded samples first) (last_bounded : Bounded samples last)
    (all : ∀ value ∈ values, Bounded samples value) :
    IsCurve order (values.length + 3) samples ((values ++ [last, last]).scanl choose first) := by
  refine ⟨by simp, pairwise_scanl moves _ _, forall_mem_scanl ?_ first_bounded ?_, ?_⟩
  · intro a b isGood alsoGood
    rcases picks.choice a b with isFirst | isSecond
    · rw [isFirst]
      exact isGood
    · rw [isSecond]
      exact alsoGood
  · exact List.forall_mem_append.mpr ⟨all, by simp [last_bounded]⟩
  · rw [scanl_append_pair picks.settles]
    simp

/-- The interpolation has a value at every number of ways but the last. -/
theorem exists_value {cacheNumWays : ℕ} {points : List (ℚ × ℚ)} {samples : List ℚ}
    (leastListed : (1 : ℚ) ∈ points.map Prod.fst)
    (mostListed : ((cacheNumWays - 1 : ℕ) : ℚ) ∈ points.map Prod.fst)
    (sampled : points.map Prod.snd ⊆ samples) {i : ℕ} (below : i + 1 < cacheNumWays) :
    ∃ y, piecewiseLinear points ((i + 1 : ℕ) : ℚ) = some y ∧ Bounded samples y := by
  obtain ⟨least, isPoint, isLeast⟩ := List.mem_map.mp leastListed
  obtain ⟨most, alsoPoint, isMost⟩ := List.mem_map.mp mostListed
  have atLeast : least.1 ≤ ((i + 1 : ℕ) : ℚ) := by
    rw [isLeast]
    exact_mod_cast Nat.succ_pos i
  have atMost : ((i + 1 : ℕ) : ℚ) ≤ most.1 := by
    rw [isMost]
    exact_mod_cast Nat.le_sub_one_of_lt below
  obtain ⟨y, isValue, ⟨low, isLow, lower⟩, high, isHigh, upper⟩ :=
    exists_piecewiseLinear isPoint atLeast alsoPoint atMost
  exact ⟨y, isValue, ⟨low, sampled isLow, lower⟩, high, sampled isHigh, upper⟩

/-- The last value of a column of at least two is copied from its neighbour. -/
theorem set_getD_append_pair (values : List ERat) (neighbour last : ERat) {length : ℕ}
    (isLength : values.length + 2 = length) :
    (values ++ [neighbour, last]).set (length - 1)
        ((values ++ [neighbour, last]).getD (length - 2) 0) =
      values ++ [neighbour, neighbour] := by
  subst isLength
  simp

/-- With its last value copied, an interpolated column is smoothed to a curve. -/
theorem exists_isCurve_smooth {order : ℚ → ℚ → Prop} [IsTrans ℚ order]
    (picks : PicksBy pick choose) (moves : ∀ a b, order a (choose a b)) {cacheNumWays : ℕ}
    (threeWays : 3 ≤ cacheNumWays) {value : ℕ → Option ℚ} {samples : List ℚ}
    (defined : ∀ i, i + 1 < cacheNumWays → ∃ y, value i = some y ∧ Bounded samples y)
    {yy : List ERat} (isYy : yy = (List.range cacheNumWays).map fun i => (value i).elim .nan .num) :
    ∃ values, smooth pick (yy.set (cacheNumWays - 1) (yy.getD (cacheNumWays - 2) 0)) =
        values.map .num ∧ IsCurve order cacheNumWays samples values := by
  obtain ⟨n, rfl⟩ := Nat.exists_eq_add_of_le' threeWays
  choose! y isValue isBounded using defined
  have isNum (i : ℕ) (below : i < n + 2) : (value i).elim ERat.nan .num = .num (y i) := by
    rw [isValue i (by omega)]
    rfl
  have split : yy = ((List.range (n + 1)).map y).map .num ++
      [.num (y (n + 1)), (value (n + 2)).elim .nan .num] := by
    rw [isYy, List.range_succ, List.range_succ, List.append_assoc, List.map_append, List.map_map]
    congr 1
    · refine List.map_congr_left fun i inside => isNum i ?_
      exact (List.mem_range.mp inside).trans (Nat.lt_succ_self _)
    · rw [← isNum (n + 1) (Nat.lt_succ_self _)]
      rfl
  have patched : yy.set (n + 3 - 1) (yy.getD (n + 3 - 2) 0) =
      (y 0 :: ((List.range n).map (fun i => y (i + 1)) ++ [y (n + 1), y (n + 1)])).map .num := by
    rw [split, set_getD_append_pair _ _ _ (by simp), List.range_succ_eq_map]
    simp
  rw [patched, smooth_map_num picks]
  refine ⟨_, rfl, ?_⟩
  have all : ∀ value ∈ (List.range n).map (fun i => y (i + 1)), Bounded samples value := by
    intro value listed
    obtain ⟨i, inside, rfl⟩ := List.mem_map.mp listed
    have below := List.mem_range.mp inside
    exact isBounded (i + 1) (by omega)
  have curve := isCurve_scanl picks moves (isBounded 0 (by omega)) (isBounded (n + 1) (by omega))
    all
  rwa [List.length_map, List.length_range] at curve

/-- The reading after the warm-up takes its place. -/
theorem copySecond_cons_cons {α : Type} (array : IndexedArray) (first second : α)
    (rest : List α) :
    copySecond array (first :: second :: rest) = .ok (second :: second :: rest) :=
  bind_eq_ok_iff.mpr ⟨second, index_eq_ok_iff.mpr ⟨by decide, rfl⟩,
    setAt_eq_ok_iff.mpr ⟨⟨le_rfl, Int.natCast_pos.mpr (Nat.succ_pos _)⟩, rfl⟩⟩

/-- The points of a turn, and what the library makes of them. -/
theorem exists_points {library : Interpolation} (linear : library.IsPiecewiseLinear)
    {cacheNumWays : ℕ} {ways xPoints : List ℕ} (spans : Spans cacheNumWays ways)
    {yPoints copied : List ERat} {samples : List ℚ} (finite : yPoints.tail = samples.map .num)
    (sameLength : yPoints.length = ways.length)
    (copiedX : copySecond .xPoints ways = .ok xPoints)
    (copiedY : copySecond .yPoints yPoints = .ok copied) {yy : List ERat}
    (isYy : library.interp1 (xPoints.map fun ways : ℕ => .num ways) copied
      ((List.range cacheNumWays).map fun i => .num (i + 1 : ℕ)) = some yy) :
    ∃ points : List (ℚ × ℚ), points.map Prod.fst = ways.map (fun count : ℕ => (count : ℚ)) ∧
      points.map Prod.snd ⊆ samples ∧
      yy = (List.range cacheNumWays).map fun i =>
        (piecewiseLinear points ((i + 1 : ℕ) : ℚ)).elim .nan .num := by
  obtain ⟨⟨rest, rfl, distinct⟩, -⟩ := spans
  obtain ⟨warmup, second, later, rfl⟩ :
      ∃ warmup second later, yPoints = warmup :: second :: later := by
    match yPoints with
    | [] => cases sameLength
    | [_] => cases sameLength
    | warmup :: second :: later => exact ⟨warmup, second, later, rfl⟩
  cases samples with
  | nil => cases finite
  | cons sample samples =>
      obtain ⟨rfl, rfl⟩ := List.cons.inj finite
      obtain rfl := Except.ok.inj ((copySecond_cons_cons _ _ _ _).symm.trans copiedX)
      obtain rfl := Except.ok.inj ((copySecond_cons_cons _ _ _ _).symm.trans copiedY)
      have counts : rest.length = samples.length := by simpa using sameLength.symm
      -- The point after the warm-up, and the ones after that.
      let kept := (((cacheNumWays - 1 : ℕ) : ℚ), sample) ::
        (rest.map fun count : ℕ => (count : ℚ)).zip samples
      have keptWays : kept.map Prod.fst =
          ((cacheNumWays - 1) :: rest).map fun count : ℕ => (count : ℚ) := by
        rw [List.map_cons, List.map_fst_zip (by rw [List.length_map, counts]), List.map_cons]
      have keptSamples : kept.map Prod.snd = sample :: samples := by
        rw [List.map_cons, List.map_snd_zip (by rw [List.length_map, counts])]
      have graph : IsGraph kept := by
        apply isGraph_of_nodup
        rw [keptWays]
        exact distinct.map Nat.cast_injective
      let points := (((cacheNumWays - 1 : ℕ) : ℚ), sample) :: kept
      have pointWays : points.map Prod.fst =
          ((cacheNumWays - 1) :: (cacheNumWays - 1) :: rest).map fun count : ℕ => (count : ℚ) := by
        rw [List.map_cons, keptWays]
        rfl
      have pointSamples : points.map Prod.snd = sample :: sample :: samples := by
        rw [List.map_cons, keptSamples]
      refine ⟨points, pointWays, ?_, ?_⟩
      · rw [pointSamples]
        exact List.cons_subset.mpr ⟨List.mem_cons_self, List.Subset.refl _⟩
      · have result := linear points (graph.cons_self List.mem_cons_self)
          ((List.range cacheNumWays).map fun i => ((i + 1 : ℕ) : ℚ)) yy
        have atWays : points.map (fun p => ERat.num p.1) = (points.map Prod.fst).map .num :=
          (List.map_map).symm
        have atSamples : points.map (fun p => ERat.num p.2) = (points.map Prod.snd).map .num :=
          (List.map_map).symm
        rw [atWays, atSamples, pointWays, pointSamples, List.map_map, List.map_map,
          List.map_map] at result
        exact result isYy

/-- The column that was set is smoothed. -/
theorem getElem?_smoothColumns {mrcEstIndex : ℕ} {columns : List (List ERat)}
    (inside : mrcEstIndex < columns.length) (column : List ERat) :
    (smoothColumns pick mrcEstIndex (columns.set mrcEstIndex column))[mrcEstIndex]? =
      some (smooth pick column) := by
  have early : mrcEstIndex <
      (((columns.set mrcEstIndex column).take (mrcEstIndex + 1)).map (smooth pick)).length := by
    rw [List.length_map, List.length_take, List.length_set]
    omega
  rw [smoothColumns, List.getElem?_append_left early, List.getElem?_map,
    List.getElem?_take_of_lt (Nat.lt_succ_self _), List.getElem?_set_self inside, Option.map_some]

/-- The column that a dump stores is a curve through the samples of its turn. -/
theorem exists_isCurve_of_dump {order : ℚ → ℚ → Prop} [IsTrans ℚ order]
    (picks : PicksBy pick choose) (moves : ∀ a b, order a (choose a b)) {library : Interpolation}
    (linear : library.IsPiecewiseLinear) {cacheNumWays : ℕ} (threeWays : 3 ≤ cacheNumWays)
    {ways xPoints : List ℕ} (spans : Spans cacheNumWays ways) {yPoints copied : List ERat}
    {samples : List ℚ} (finite : yPoints.tail = samples.map .num)
    (sameLength : yPoints.length = ways.length)
    (copiedX : copySecond .xPoints ways = .ok xPoints)
    (copiedY : copySecond .yPoints yPoints = .ok copied) {yy : List ERat}
    (isYy : library.interp1 (xPoints.map fun ways : ℕ => .num ways) copied
      ((List.range cacheNumWays).map fun i => .num (i + 1 : ℕ)) = some yy)
    {mrcEstIndex : ℕ} {columns next : List (List ERat)} {file nextFile : Option (List Char)}
    (inside : mrcEstIndex < columns.length)
    (dumped : dumpEstimates pick cacheNumWays mrcEstIndex (columns.set mrcEstIndex
      (yy.set (cacheNumWays - 1) (yy.getD (cacheNumWays - 2) 0))) file = .ok (next, nextFile)) :
    ∃ values, next[mrcEstIndex]? = some (values.map .num) ∧
      IsCurve order cacheNumWays samples values := by
  obtain ⟨points, isWays, sampled, isInterpolated⟩ :=
    exists_points linear spans finite sameLength copiedX copiedY isYy
  have least : (1 : ℚ) ∈ points.map Prod.fst := by
    rw [isWays]
    exact List.mem_map.mpr ⟨1, spans.least, Nat.cast_one⟩
  have most : ((cacheNumWays - 1 : ℕ) : ℚ) ∈ points.map Prod.fst := by
    obtain ⟨⟨rest, isList, -⟩, -⟩ := spans
    rw [isWays, isList]
    exact List.mem_map.mpr ⟨cacheNumWays - 1, List.mem_cons_self, rfl⟩
  obtain ⟨values, isColumn, curve⟩ := exists_isCurve_smooth picks moves threeWays
    (fun _ below => exists_value least most sampled below) isInterpolated
  refine ⟨values, ?_, curve⟩
  cases file with
  | none => cases dumped
  | some text =>
      obtain ⟨rfl, -⟩ := Prod.mk.inj (Except.ok.inj dumped)
      rw [← isColumn]
      exact getElem?_smoothColumns inside _

end

/-! ## The samples of a turn -/

/-- A sample of both curves. -/
structure Sample where
  mpki : ERat
  ipc : ERat

/-- The sample that a phase collects. -/
def ThreadInfo.sample (tinfo : ThreadInfo) (config : Config) : Sample where
  mpki := tinfo.sampledMpki config
  ipc := tinfo.sampledIpc

/-- The samples after a phase: the opening of a round forgets them, and the thread whose turn it
is adds those that did not fail. -/
def recordPhase (config : Config) (monitor : Monitor) (tinfo : ThreadInfo)
    (samples : List Sample) : List Sample :=
  if OpensRound config monitor tinfo then []
  else if Collects config monitor tinfo then samples ++ [tinfo.sample config]
  else samples

/-- The samples after an event. -/
def recordSample (config : Config) (st : State) (event : Event) (samples : List Sample) :
    List Sample :=
  match st.phaseOf event with
  | none => samples
  | some tinfo => recordPhase config st.monitor tinfo samples

/-- The samples that a run has collected for the current turn. -/
def turnSamples (config : Config) (start : State) (events : List Event) : List Sample :=
  logAlong (systemStep config) (recordSample config) start events []

/-- The turn is at one of the slices. -/
def Monitor.InTurn (monitor : Monitor) : Prop :=
  monitor.monitorStartFlag = true ∧ 1 ≤ monitor.sampleSlicesIdx

/-- The position of a turn is that of its next sample, and the ways in force are those that the
plan has there. -/
structure AtSlice (config : Config) (samples : List Sample) (monitor : Monitor) : Prop where
  position : monitor.sampleSlicesIdx = samples.length + 1
  ways : config.plan.ways[samples.length]? =
    some (monitor.currentlySampling monitor.thrIdxProfiledGlobal).ways

/-- The first slots of a thread hold the samples of the turn and the ways that the plan has
there. -/
structure HoldsSamples (config : Config) (samples : List Sample) (tinfo : ThreadInfo) :
    Prop where
  xPoints : tinfo.xPoints.take samples.length = config.plan.ways.take samples.length
  yPointsMpki : tinfo.yPointsMpki.take samples.length = samples.map Sample.mpki
  yPointsIpc : tinfo.yPointsIpc.take samples.length = samples.map Sample.ipc

/-- So it is for the thread whose turn it is. -/
def TurnOf (config : Config) (samples : List Sample) (monitor : Monitor) (tinfo : ThreadInfo) :
    Prop :=
  monitor.InTurn → tinfo.tidx = monitor.thrIdxProfiledGlobal → HoldsSamples config samples tinfo

theorem holdsSamples_nil (config : Config) (tinfo : ThreadInfo) :
    HoldsSamples config [] tinfo := ⟨rfl, rfl, rfl⟩

section

variable {config : Config} {monitor next : Monitor} {tinfo after : ThreadInfo}
  {samples : List Sample}

theorem HoldsSamples.congr (holds : HoldsSamples config samples tinfo)
    (sameX : after.xPoints = tinfo.xPoints) (sameMpki : after.yPointsMpki = tinfo.yPointsMpki)
    (sameIpc : after.yPointsIpc = tinfo.yPointsIpc) : HoldsSamples config samples after := by
  obtain ⟨xPoints, yPointsMpki, yPointsIpc⟩ := holds
  exact ⟨sameX ▸ xPoints, sameMpki ▸ yPointsMpki, sameIpc ▸ yPointsIpc⟩

theorem AtSlice.slot (atSlice : AtSlice config samples monitor) :
    monitor.slot = samples.length := by
  rw [Monitor.slot, atSlice.position]
  omega

theorem AtSlice.inside (atSlice : AtSlice config samples monitor) :
    samples.length < config.plan.numWaysToSample := by
  have inside := (List.getElem?_eq_some_iff.mp atSlice.ways).1
  rwa [Plan.ways, List.length_map] at inside

/-- The next sample goes to the next slot. -/
theorem HoldsSamples.withSample (sized : Sized config tinfo)
    (atSlice : AtSlice config samples monitor)
    (isTurn : tinfo.tidx = monitor.thrIdxProfiledGlobal)
    (holds : HoldsSamples config samples tinfo) :
    HoldsSamples config (samples ++ [tinfo.sample config]) (tinfo.withSample config monitor) := by
  have inside := atSlice.inside
  have ways := atSlice.ways
  rw [← isTurn] at ways
  have length : (samples ++ [tinfo.sample config]).length = samples.length + 1 := by simp
  refine ⟨?_, ?_, ?_⟩
  · show (tinfo.xPoints.set monitor.slot _).take _ = _
    rw [length, atSlice.slot, take_succ_set (sized.xPoints ▸ inside), holds.xPoints,
      List.take_add_one, ways, Option.toList_some]
  · show (tinfo.yPointsMpki.set monitor.slot _).take _ = _
    rw [length, atSlice.slot, take_succ_set (sized.yPointsMpki ▸ inside), holds.yPointsMpki,
      List.map_append]
    rfl
  · show (tinfo.yPointsIpc.set monitor.slot _).take _ = _
    rw [length, atSlice.slot, take_succ_set (sized.yPointsIpc ▸ inside), holds.yPointsIpc,
      List.map_append]
    rfl

/-- A slice that is put in force is the one of the next sample. -/
theorem Installed.atSlice {slice : Slice} (feasible : Feasible config)
    (installed : Installed config monitor next slice)
    (position : monitor.sampleSlicesIdx = samples.length) : AtSlice config samples next := by
  obtain ⟨sameTurn, -, ways⟩ := installed.waysOf_eq feasible
  refine ⟨by rw [installed.sampleSlicesIdx.2.2, position], ?_⟩
  have isSlice := installed.isSlice
  rw [position, Int.toNat_natCast] at isSlice
  rw [Plan.ways, List.getElem?_map, isSlice, sameTurn, ways, Option.map_some]

theorem recordPhase_of_opens (opens : OpensRound config monitor tinfo) :
    recordPhase config monitor tinfo samples = [] := if_pos opens

theorem recordPhase_of_collects (collects : Collects config monitor tinfo) :
    recordPhase config monitor tinfo samples = samples ++ [tinfo.sample config] := by
  rw [recordPhase, if_neg fun opens => collects.1.2 opens.1, if_pos collects]

theorem recordPhase_of_neither (opensNone : ¬ OpensRound config monitor tinfo)
    (collectsNone : ¬ Collects config monitor tinfo) :
    recordPhase config monitor tinfo samples = samples := by
  rw [recordPhase, if_neg opensNone, if_neg collectsNone]

/-- Between two turns no slice is sampled. -/
theorem TurnEnded.not_inTurn (ended : TurnEnded config monitor next) : ¬ next.InTurn := by
  cases ended with
  | handedOver more => exact fun inTurn => absurd (show (1 : ℤ) ≤ 0 from inTurn.2) (by decide)
  | closed last msrs shared => exact fun inTurn => nomatch inTurn.1

/-- The turn stays at one of the slices. -/
theorem MonitorStep.atSlice (feasible : Feasible config)
    (step : MonitorStep config monitor tinfo next after)
    (kept : monitor.InTurn → AtSlice config samples monitor) (inTurn : next.InTurn) :
    AtSlice config (recordPhase config monitor tinfo samples) next := by
  cases step with
  | idles closed goesOn after saved =>
      have isOpen := inTurn.1
      rw [closed] at isOpen
      cases isOpen
  | passes invokes opensNone read =>
      rw [recordPhase_of_neither opensNone fun collects => collects.1.2 invokes]
      exact kept inTurn
  | opens opensRound read slice next installed =>
      rw [recordPhase_of_opens opensRound]
      exact installed.atSlice feasible rfl
  | waits isSample read position next sampled stored noTurn =>
      rw [recordPhase_of_neither (fun opens => isSample.2 opens.1) noTurn]
      obtain ⟨isPosition, ways⟩ := kept ⟨isSample.1, position⟩
      cases stored <;> exact ⟨isPosition, ways.trans (congrArg some (ways_mark _ _ _ _).symm)⟩
  | advances collects read position more slice next installed =>
      rw [recordPhase_of_collects collects]
      refine installed.atSlice feasible ?_
      rw [List.length_append]
      exact (kept ⟨collects.1.1, position⟩).position
  | finishes collects read all logged next isLogged ended estimated estimates =>
      exact absurd inTurn ended.not_inTurn

/-- A sample of the thread whose turn it is goes to its next slot. -/
theorem MonitorStep.turnOf_own (step : MonitorStep config monitor tinfo next after)
    (sized : Sized config tinfo) (kept : monitor.InTurn → AtSlice config samples monitor)
    (own : TurnOf config samples monitor tinfo) :
    TurnOf config (recordPhase config monitor tinfo samples) next after := by
  intro inTurn isTurn
  cases step with
  | idles closed goesOn after saved =>
      have isOpen := inTurn.1
      rw [closed] at isOpen
      cases isOpen
  | passes invokes opensNone read =>
      rw [recordPhase_of_neither opensNone fun collects => collects.1.2 invokes]
      exact (own inTurn isTurn).congr rfl rfl rfl
  | opens opensRound read slice next installed =>
      rw [recordPhase_of_opens opensRound]
      exact holdsSamples_nil config _
  | waits isSample read position next sampled stored noTurn =>
      rw [recordPhase_of_neither (fun opens => isSample.2 opens.1) noTurn]
      have slot := (kept ⟨isSample.1, position⟩).slot
      cases stored with
      | failed none =>
          obtain ⟨xPoints, yPointsMpki, yPointsIpc⟩ := own ⟨isSample.1, position⟩ isTurn
          refine ⟨?_, yPointsMpki, yPointsIpc⟩
          show (tinfo.xPoints.set monitor.slot _).take _ = _
          rw [List.take_set_of_le slot.ge]
          exact xPoints
      | collected some => exact absurd ⟨isSample, isTurn, some⟩ noTurn
  | advances collects read position more slice next installed =>
      rw [recordPhase_of_collects collects]
      have inTurn : monitor.InTurn := ⟨collects.1.1, position⟩
      exact ((own inTurn collects.2.1).withSample sized (kept inTurn) collects.2.1).congr
        rfl rfl rfl
  | finishes collects read all logged next isLogged ended estimated estimates =>
      exact absurd inTurn ended.not_inTurn

/-- The phase of one thread leaves the samples of all others alone. -/
theorem MonitorStep.turnOf_other (step : MonitorStep config monitor tinfo next after)
    {other : ThreadInfo} (different : other.tidx ≠ tinfo.tidx)
    (kept : TurnOf config samples monitor other) :
    TurnOf config (recordPhase config monitor tinfo samples) next other := by
  intro inTurn isTurn
  cases step with
  | idles closed goesOn after saved =>
      have isOpen := inTurn.1
      rw [closed] at isOpen
      cases isOpen
  | passes invokes opensNone read =>
      rw [recordPhase_of_neither opensNone fun collects => collects.1.2 invokes]
      exact kept inTurn isTurn
  | opens opensRound read slice next installed =>
      rw [recordPhase_of_opens opensRound]
      exact holdsSamples_nil config other
  | waits isSample read position next sampled stored noTurn =>
      rw [recordPhase_of_neither (fun opens => isSample.2 opens.1) noTurn]
      cases stored <;> exact kept ⟨isSample.1, position⟩ isTurn
  | advances collects read position more slice next installed =>
      obtain ⟨-, -, msrs, currentlySampling, -, rfl⟩ := installed
      exact absurd (isTurn.trans collects.2.1.symm) different
  | finishes collects read all logged next isLogged ended estimated estimates =>
      exact absurd inTurn ended.not_inTurn

/-- The end of a turn estimates the curves from all of its samples. -/
theorem MonitorStep.estimates_of_finishes (step : MonitorStep config monitor tinfo next after)
    (finishes : FinishesTurn config monitor tinfo) :
    estimateCurves config (tinfo.withSample config monitor).remembered = .ok after := by
  obtain ⟨collects, all⟩ := finishes
  rcases step.of_collects collects with ⟨notAll, -⟩ | ⟨-, -, estimates⟩
  · exact absurd all notAll
  · exact estimates.returned

end

/-! ## Every run -/

/-- What a run keeps about the samples of the current turn. -/
structure TurnKept (config : Config) (samples : List Sample) (st : State) : Prop where
  atSlice : st.monitor.InTurn → AtSlice config samples st.monitor
  turnOf : ∀ tid tinfo, st.Profiles tid tinfo → TurnOf config samples st.monitor tinfo

/-- What the end of a turn leaves: of the samples that it collected, one for each slice, the
first one is dropped, and the others, if they are finite, become the curves of a new column. -/
structure LeavesCurves (config : Config) (samples : List Sample) (after : ThreadInfo) : Prop where
  all : samples.length = config.plan.numWaysToSample
  mrc : ∀ kept : List ℚ, samples.tail.map Sample.mpki = kept.map .num →
    ∃ values, after.mrcEstimates[after.mrcEstIndex - 1]? = some (values.map .num) ∧
      IsCurve (· ≥ ·) config.machine.cacheNumWays kept values
  ipc : ∀ kept : List ℚ, samples.tail.map Sample.ipc = kept.map .num →
    ∃ values, after.ipcCurveEstimates[after.mrcEstIndex - 1]? = some (values.map .num) ∧
      IsCurve (· ≤ ·) config.machine.cacheNumWays kept values

section

variable {config : Config} {st next : State} {words : List Word} {signal : Signal}
  {before : ThreadInfo} {group counted : EventGroup} {monitor : Monitor}
  {sampled after : ThreadInfo} {samples : List Sample}

theorem Served.recordSample_eq
    (served : Served config st words signal before group counted monitor sampled after next) :
    recordSample config st (.phase words signal) samples = recordPhase config st.monitor
      (before.overflowed signal.fd counted words).enterPhase samples := by
  rw [recordSample, served.phaseOf]
  rfl

/-- Two profiled threads have two indices. -/
theorem Led.tidx_ne {args : Args} (led : Led args st) {tid other : ℤ}
    {tinfo otherInfo : ThreadInfo} (profiled : st.Profiles tid tinfo)
    (otherProfiled : st.Profiles other otherInfo) (different : other ≠ tid) :
    otherInfo.tidx ≠ tinfo.tidx := by
  intro same
  have position := (led.keyed tid tinfo profiled).2
  have otherPosition := (led.keyed other otherInfo otherProfiled).2
  rw [same, position] at otherPosition
  exact different (Option.some.inj otherPosition).symm

theorem TurnKept.systemStep {args : Args} (feasible : Feasible config)
    (unlogged : st.monitor.Unlogged) (led : Led args st)
    (sized : ∀ tid tinfo, st.Profiles tid tinfo → Sized config tinfo)
    (kept : TurnKept config samples st) {event : Event}
    (stepped : systemStep config st event = .ok next) :
    TurnKept config (recordSample config st event samples) next := by
  obtain ⟨atSlice, turnOf⟩ := kept
  cases event with
  | wait wait =>
      have waited := waitedBy_of_systemStep stepped
      refine ⟨?_, fun tid tinfo profiled => ?_⟩
      · rw [waited.monitor]
        exact atSlice
      · rw [waited.monitor]
        exact turnOf tid tinfo (waited.profiles profiled)
  | phase words signal =>
      obtain ⟨before, group, counted, monitor, sampled, after, served⟩ :=
        served_of_systemStep unlogged stepped
      have monitored := served.monitored
      have profiled : st.Profiles (st.threadOf signal.fd) before :=
        ⟨served.isThread, served.isReal⟩
      obtain ⟨metered, reading, readBy⟩ := served.readBy
      have read := readBy.sameSampling
      obtain ⟨msrs, isMonitor, -⟩ := served.monitor
      rw [served.recordSample_eq]
      refine ⟨fun inTurn => ?_, fun tid tinfo stillProfiled => ?_⟩
      · rw [isMonitor] at inTurn ⊢
        obtain ⟨position, ways⟩ := monitored.atSlice feasible atSlice inTurn
        exact ⟨position, ways⟩
      · rw [isMonitor]
        intro inTurn isTurn
        obtain ⟨isThread, isReal⟩ := stillProfiled
        rw [served.tidMap] at isThread
        split at isThread
        · cases isThread
          have entered : TurnOf config samples st.monitor
              (before.overflowed signal.fd counted words).enterPhase := fun wasInTurn wasTurn =>
            (turnOf _ before profiled wasInTurn wasTurn).congr rfl rfl rfl
          have own := monitored.turnOf_own (sized _ before profiled).entered atSlice entered
          exact (own inTurn (read.tidx.symm.trans isTurn)).congr read.xPoints read.yPointsMpki
            read.yPointsIpc
        · rename_i elsewhere
          have otherProfiled : st.Profiles tid tinfo := ⟨isThread, isReal⟩
          have different : tinfo.tidx ≠ before.tidx :=
            led.tidx_ne profiled otherProfiled elsewhere
          exact monitored.turnOf_other different (turnOf tid tinfo otherProfiled) inTurn isTurn

/-- A thread whose slots are full of samples estimates its curves from them. -/
theorem leavesCurves_of_estimateCurves (linear : config.IsPiecewiseLinear)
    (spans : Spans config.machine.cacheNumWays config.plan.ways)
    (threeWays : 3 ≤ config.machine.cacheNumWays) {tinfo nextInfo : ThreadInfo}
    (sized : Sized config tinfo) (holds : HoldsSamples config samples tinfo)
    (all : samples.length = config.plan.numWaysToSample)
    (returned : estimateCurves config tinfo = .ok nextInfo) :
    LeavesCurves config samples nextInfo := by
  obtain ⟨xPoints, yPointsMpki, yPointsIpc, yyMrc, yyIpc, outcome⟩ := exists_turnOutcome returned
  have length : config.plan.ways.length = config.plan.numWaysToSample := List.length_map _
  have isWays : tinfo.xPoints = config.plan.ways := by
    have firstSlots := holds.xPoints
    rwa [all, ← length, List.take_length, length, ← sized.xPoints, List.take_length] at firstSlots
  have isMpki : tinfo.yPointsMpki = samples.map Sample.mpki := by
    have firstSlots := holds.yPointsMpki
    rwa [all, ← sized.yPointsMpki, List.take_length] at firstSlots
  have isIpc : tinfo.yPointsIpc = samples.map Sample.ipc := by
    have firstSlots := holds.yPointsIpc
    rwa [all, ← sized.yPointsIpc, List.take_length] at firstSlots
  have copiedX := outcome.copiedX
  rw [isWays] at copiedX
  have column : nextInfo.mrcEstIndex - 1 = tinfo.mrcEstIndex := by
    rw [outcome.mrcEstIndex, Nat.add_sub_cancel]
  refine ⟨all, fun kept finite => ?_, fun kept finite => ?_⟩
  · rw [column]
    rw [List.map_tail, ← isMpki] at finite
    exact exists_isCurve_of_dump picksBy_min min_le_left linear threeWays spans finite
      (sized.yPointsMpki.trans length.symm) copiedX outcome.copiedMpki outcome.isMrc
      outcome.inside outcome.dumpedMrc
  · rw [column]
    rw [List.map_tail, ← isIpc] at finite
    exact exists_isCurve_of_dump picksBy_max le_max_left linear threeWays spans finite
      (sized.yPointsIpc.trans length.symm) copiedX outcome.copiedIpc outcome.isIpc
      outcome.insideIpc outcome.dumpedIpc

/-- The samples of a turn that ends make up its curves. -/
theorem Served.leavesCurves (linear : config.IsPiecewiseLinear)
    (spans : Spans config.machine.cacheNumWays config.plan.ways)
    (threeWays : 3 ≤ config.machine.cacheNumWays)
    (served : Served config st words signal before group counted monitor sampled after next)
    (sized : Sized config before) (kept : TurnKept config samples st)
    (finishes : FinishesAt config (st.threadOf signal.fd) st (.phase words signal)) :
    LeavesCurves config (recordSample config st (.phase words signal) samples) after := by
  rw [finishesAt_iff served] at finishes
  have two : 2 ≤ config.plan.numWaysToSample := config.plan.twoSlices
  have isLast := finishes.2
  obtain ⟨isSample, isTurn, some⟩ := finishes.1
  have inTurn : st.monitor.InTurn := ⟨isSample.1, by omega⟩
  have atSlice := kept.atSlice inTurn
  have position := atSlice.position
  have entered : HoldsSamples config samples
      (before.overflowed signal.fd counted words).enterPhase :=
    (kept.turnOf _ before ⟨served.isThread, served.isReal⟩ inTurn isTurn).congr rfl rfl rfl
  have stored : Sized config
      ((before.overflowed signal.fd counted words).enterPhase.withSample config st.monitor) :=
    ((Collected.collected some).sized sized.entered).1
  have estimates := served.monitored.estimates_of_finishes finishes
  rw [served.recordSample_eq, recordPhase_of_collects finishes.1]
  have leaves := leavesCurves_of_estimateCurves linear spans threeWays stored.remembered
    ((entered.withSample sized.entered atSlice isTurn).congr rfl rfl rfl) (by
      rw [List.length_append, List.length_singleton]
      omega) estimates
  obtain ⟨metered, reading, readBy⟩ := served.readBy
  have read := readBy.sameSampling
  refine ⟨leaves.all, ?_, ?_⟩
  · rw [read.mrcEstimates, read.mrcEstIndex]
    exact leaves.mrc
  · rw [read.ipcCurveEstimates, read.mrcEstIndex]
    exact leaves.ipc

end

/-- In every run in which the library interpolates linearly, each turn that ends with finite
samples leaves two curves: defined for every number of ways, bounded by the samples, ordered, and
with the last two values equal. -/
theorem leavesCurves_at_each_turn {library : Interpolation} {machine : Machine} {args : Args}
    {launch : Launch} {config : Config} {start : State} (linear : library.IsPiecewiseLinear)
    (started : main library machine args launch = .ok (config, start)) (events : List Event) :
    AtEachStep (systemStep config) start events fun early st event =>
      ∀ next, systemStep config st event = .ok next → ∀ tid after, next.Profiles tid after →
        FinishesAt config tid st event →
          LeavesCurves config (turnSamples config start (early ++ [event])) after := by
  have feasible := feasible_of_main started
  obtain ⟨⟨plan, generated, isConfig⟩, ⟨msrs, globals⟩, -⟩ := launched_of_main started
  have start_kept : TurnKept config [] start := by
    refine ⟨?_, fun _ tinfo _ _ _ => holdsSamples_nil config tinfo⟩
    rw [globals]
    exact fun inTurn => nomatch inTurn.1
  have kept : AlongRun (systemStep config) start events fun early st =>
      run (systemStep config) start early = .ok st ∧
        TurnKept config (turnSamples config start early) st := by
    refine alongRun_of_preserved events ⟨rfl, start_kept⟩ ?_
    rintro early st event next ⟨reached, kept⟩ stepped
    have accounted := accounted_of_run started reached
    refine ⟨run_concat_eq_ok_iff.mpr ⟨st, reached, stepped⟩, ?_⟩
    rw [turnSamples, logAlong_concat reached stepped]
    exact kept.systemStep feasible accounted.unlogged (led_of_run started reached)
      (fun tid tinfo profiled => (accounted.tracked tid tinfo profiled).sized) stepped
  have linearConfig : config.IsPiecewiseLinear := by
    rw [isConfig]
    exact linear
  have spans : Spans config.machine.cacheNumWays config.plan.ways := by
    rw [isConfig]
    exact spans_of_generateProfilingPlan generated
  have threeWays : 3 ≤ config.machine.cacheNumWays := by
    rw [isConfig]
    exact (narrow_of_generateProfilingPlan generated).1
  intro early event isPrefix st reached next stepped tid after profiled finishes
  obtain ⟨-, turnKept⟩ := kept early ((List.prefix_append early [event]).trans isPrefix) st reached
  have accounted := accounted_of_run started reached
  rw [turnSamples, logAlong_concat reached stepped]
  cases event with
  | wait wait => exact finishes.elim
  | phase words signal =>
      obtain ⟨before, group, counted, monitor, sampled, own, served⟩ :=
        served_of_systemStep accounted.unlogged stepped
      have isTid : st.threadOf signal.fd = tid := finishes.1
      subst isTid
      cases served.profiles_after.1.symm.trans profiled.1
      exact served.leavesCurves linearConfig spans threeWays
        (accounted.tracked _ before ⟨served.isThread, served.isReal⟩).sized turnKept finishes

/-! ## A whole round -/

theorem isPiecewiseLinear_linearInterpolation : linearInterpolation.IsPiecewiseLinear := by
  rintro points - xi yi ⟨⟩
  have abscissas : (points.map fun p => ERat.num p.1).map finiteValue = points.map Prod.fst :=
    List.map_map
  have ordinates : (points.map fun p => ERat.num p.2).map finiteValue = points.map Prod.snd :=
    List.map_map
  rw [abscissas, ordinates, List.map_map, ← List.unzip_fst, ← List.unzip_snd, List.zip_unzip]
  rfl

/-- The phases of a round, up to the one that ends it. -/
def untilLastSlice : List Event := slowingPhases 8

instance (config : Config) (monitor : Monitor) (tinfo : ThreadInfo) :
    Decidable (FinishesTurn config monitor tinfo) := inferInstanceAs (Decidable (_ ∧ _))

/-- Whether the next signal ends a turn of the thread, with these samples in its slots. -/
def endsTurn (events : List Event) (event : Event) (mpki ipc : List ℚ) : Option Bool := do
  let (config, start) ← (main linearInterpolation interleavedMachine tenPhases quietLaunch).toOption
  let st ← (run (systemStep config) start events).toOption
  let next ← (systemStep config st event).toOption
  let after ← next.tidMap.get? 100
  let tinfo ← st.phaseOf event
  return !after.isDummyThread && st.threadOf 1000 = 100 && FinishesTurn config st.monitor tinfo &&
    ((turnSamples config start (events ++ [event])).tail.map Sample.mpki = mpki.map .num &&
      (turnSamples config start (events ++ [event])).tail.map Sample.ipc = ipc.map .num)

theorem endsTurn_untilLastSlice :
    endsTurn untilLastSlice (slowingPhase 9) [5, 7, 9, 11, 13, 15]
      [1 / 5, 1 / 7, 1 / 9, 1 / 11, 1 / 13, 1 / 15] = some true := by
  decide +kernel

/-- Six samples, of more and more misses and fewer and fewer instructions per cycle, leave two
curves. -/
theorem untilLastSlice_leavesCurves :
    ∃ config start st next after mrc ipc,
      main linearInterpolation interleavedMachine tenPhases quietLaunch = .ok (config, start) ∧
      run (systemStep config) start untilLastSlice = .ok st ∧
      systemStep config st (slowingPhase 9) = .ok next ∧ next.Profiles 100 after ∧
      after.mrcEstimates[after.mrcEstIndex - 1]? = some (mrc.map .num) ∧
      IsCurve (· ≥ ·) config.machine.cacheNumWays [5, 7, 9, 11, 13, 15] mrc ∧
      after.ipcCurveEstimates[after.mrcEstIndex - 1]? = some (ipc.map .num) ∧
      IsCurve (· ≤ ·) config.machine.cacheNumWays
        [1 / 5, 1 / 7, 1 / 9, 1 / 11, 1 / 13, 1 / 15] ipc := by
  have ends := endsTurn_untilLastSlice
  simp only [endsTurn, bind, Option.bind_eq_some_iff, toOption_eq_some_iff] at ends
  obtain ⟨⟨config, start⟩, started, st, reached, next, stepped, after, isThread, tinfo, isPhase,
    facts⟩ := ends
  simp only [pure, Option.some.injEq, Bool.and_eq_true, decide_eq_true_eq, Bool.not_eq_true']
    at facts
  obtain ⟨⟨⟨isReal, isTid⟩, finishes⟩, finiteMpki, finiteIpc⟩ := facts
  have profiled : next.Profiles 100 after := ⟨isThread, isReal⟩
  have leaves := leavesCurves_at_each_turn isPiecewiseLinear_linearInterpolation started
    (untilLastSlice ++ [slowingPhase 9]) untilLastSlice (slowingPhase 9) (List.prefix_refl _) st
    reached next stepped 100 after profiled ⟨isTid, tinfo, isPhase, finishes⟩
  obtain ⟨mrc, isMrc, mrcCurve⟩ := leaves.mrc _ finiteMpki
  obtain ⟨ipc, isIpc, ipcCurve⟩ := leaves.ipc _ finiteIpc
  exact ⟨config, start, st, next, after, mrc, ipc, started, reached, stepped, profiled, isMrc,
    mrcCurve, isIpc, ipcCurve⟩

end Datamime.Profiler
