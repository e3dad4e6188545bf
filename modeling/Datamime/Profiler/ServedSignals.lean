/-
# Signals that are served

A signal within a round can end the program for reasons that have nothing to do with its indices:
the controller may refuse a slice, the library may find nothing to interpolate, and a file may be
missing. None of these depends on what the registers hold. A controller that has set up one slice
sets up all others, and shares the ways again at the end, so all that is left to ask for is that
the last sample of a round finds a free column and points that can be interpolated.
-/

import Datamime.Profiler.Descriptors
import Datamime.Profiler.IndexRanges
import Datamime.Profiler.WaitLoop

namespace Datamime.Profiler

open Datamime.Math Datamime.Hardware

/-! ## The controller -/

/-- The controller takes the mask of all ways, has the two classes of a slice, and reaches every
core. -/
structure ServesSlices (machine : Machine) : Prop where
  accepts : AcceptsAllWays machine
  classes : 2 < machine.numCos
  cores : machine.numLogicalCores ≤ machine.numCores

section

variable {machine : Machine} {plan : Plan} {slice : Slice} {procIdxProfiled : ℕ} {msrs : Msrs}
  {currentlySampling : ℕ → CoreSampling}

/-- What a slice that was set up tells about the controller. -/
theorem servesSlices_of_set (generated : generateProfilingPlan machine.cacheNumWays = .ok plan)
    (listed : slice ∈ plan.slices) (profiled : procIdxProfiled < machine.numCores)
    {next : Msrs × (ℕ → CoreSampling)}
    (set : setCachewaysToCores machine slice procIdxProfiled msrs currentlySampling = .ok next) :
    ServesSlices machine := by
  obtain ⟨_, controls, -⟩ := bind_eq_ok_iff.mp set
  obtain ⟨first, second, mapped, atFirst, atSecond, atMapped, looped⟩ :=
    setCachewaysToCores_cases set
  obtain ⟨-, sampledFits, -⟩ := setCbm_eq_ok_iff.mp atFirst
  obtain ⟨supported, sharedFits, -⟩ := setCbm_eq_ok_iff.mp atSecond
  have classes : 2 < machine.numCos := by exact_mod_cast supported
  refine ⟨⟨controls, by omega, fits_of_masks generated listed sampledFits sharedFits⟩, classes, ?_⟩
  have reached := @foldlM_range_invariant _ _ _
    (fun passed (_ : Msrs × (ℕ → CoreSampling)) => ∀ core < passed, core < machine.numCores)
    _ _ _ (fun passed before after others round core below => ?_) nofun looped
  · by_contra! outside
    exact lt_irrefl _ (reached machine.numCores outside)
  · rcases Nat.lt_succ_iff_lt_or_eq.mp below with earlier | rfl
    · exact others core earlier
    · rw [shareRemaining] at round
      split at round
      · rename_i isProfiled
        exact isProfiled ▸ profiled
      · obtain ⟨msrs, atCore, -⟩ := bind_eq_ok_iff.mp round
        exact (setCos_eq_ok_iff.mp atCore).2.1

/-- The masks of a slice pass the length check where the mask of all ways does. -/
theorem fits_masks (generated : generateProfilingPlan machine.cacheNumWays = .ok plan)
    (listed : slice ∈ plan.slices)
    (fits : shiftRight (fullMask machine.cacheNumWays) machine.cbmLen = 0) :
    shiftRight (getCbm (cbmEntries slice.sampled)) machine.cbmLen = 0 ∧
      shiftRight (getCbm (cbmEntries slice.shared)) machine.cbmLen = 0 := by
  have inWord : machine.cacheNumWays ≤ 32 :=
    (narrow_of_generateProfilingPlan generated).2.1.trans (by decide)
  rw [← (divided_of_generateProfilingPlan generated listed).or_eq_fullMask inWord,
    shiftRight_or] at fits
  exact BitVec.or_eq_zero_iff.mp fits

/-- Such a controller sets up every slice of the plan, whatever the registers hold. -/
theorem exists_setCachewaysToCores (serves : ServesSlices machine)
    (generated : generateProfilingPlan machine.cacheNumWays = .ok plan)
    (listed : slice ∈ plan.slices) (profiled : procIdxProfiled < machine.numCores) (msrs : Msrs)
    (currentlySampling : ℕ → CoreSampling) :
    ∃ next, setCachewaysToCores machine slice procIdxProfiled msrs currentlySampling =
      .ok next := by
  obtain ⟨⟨controls, -, fits⟩, classes, cores⟩ := serves
  obtain ⟨sampledFits, sharedFits⟩ := fits_masks generated listed fits
  have online : 0 < machine.numCores := by omega
  obtain ⟨first, atFirst⟩ : ∃ first,
      setCbm machine msrs 1 (getCbm (cbmEntries slice.sampled)) = .ok first :=
    ⟨_, setCbm_eq_ok_iff.mpr ⟨by omega, sampledFits, online, rfl⟩⟩
  obtain ⟨second, atSecond⟩ : ∃ second,
      setCbm machine first 2 (getCbm (cbmEntries slice.shared)) = .ok second :=
    ⟨_, setCbm_eq_ok_iff.mpr ⟨by omega, sharedFits, online, rfl⟩⟩
  obtain ⟨mapped, atMapped⟩ : ∃ mapped, setCos machine second procIdxProfiled 1 = .ok mapped :=
    ⟨_, setCos_eq_ok_iff.mpr ⟨by omega, profiled, rfl⟩⟩
  have masked : slice.rows.zipIdx.foldlM
      (fun msrs row => setCbm machine msrs (row.2 + 1) (getCbm (cbmEntries row.1))) msrs =
        .ok second := by
    show (setCbm machine msrs 1 _ >>= fun msrs => setCbm machine msrs 2 _ >>= pure) = _
    rw [atFirst, ok_bind, atSecond]
    rfl
  rw [setCachewaysToCores, controls, ok_bind, masked, ok_bind, atMapped, ok_bind]
  refine exists_foldlM_range (fun core below st => ?_) _
  rw [shareRemaining]
  split
  · exact ⟨st, rfl⟩
  · obtain ⟨moved, atMoved⟩ : ∃ moved, setCos machine st.1 core 2 = .ok moved :=
      ⟨_, setCos_eq_ok_iff.mpr ⟨classes, below.trans_le cores, rfl⟩⟩
    rw [atMoved]
    exact ⟨_, rfl⟩

/-- And it shares all ways again. -/
theorem exists_shareAllCacheWays (serves : ServesSlices machine) (msrs : Msrs) :
    ∃ next, shareAllCacheWays machine machine.numLogicalCores machine.cacheNumWays msrs =
      .ok next := by
  obtain ⟨⟨controls, classes, fits⟩, -, cores⟩ := serves
  rw [shareAllCacheWays, controls, ok_bind]
  exact exists_foldlM_range
    (fun core below _ => exists_shareCore classes fits (below.trans_le cores)) msrs

end

/-! ## The estimation -/

/-- The numbers of ways that a curve is interpolated at. -/
def wayPoints (cacheNumWays : ℕ) : List ERat :=
  (List.range cacheNumWays).map fun i => .num (i + 1 : ℕ)

/-- There is a column left, and the library interpolates both curves. -/
structure CanEstimate (config : Config) (tinfo : ThreadInfo) : Prop where
  column : tinfo.mrcEstIndex < estimateColumns
  interpolates : ∀ xPoints yPointsMpki yPointsIpc,
    copySecond .xPoints tinfo.xPoints = .ok xPoints →
    copySecond .yPoints tinfo.yPointsMpki = .ok yPointsMpki →
    copySecond .yPoints tinfo.yPointsIpc = .ok yPointsIpc →
    (∃ yyMrc, config.interp1 (xPoints.map fun ways => .num ways) yPointsMpki
        (wayPoints config.machine.cacheNumWays) = some yyMrc) ∧
      ∃ yyIpc, config.interp1 (xPoints.map fun ways => .num ways) yPointsIpc
        (wayPoints config.machine.cacheNumWays) = some yyIpc

section

variable {config : Config} {monitor : Monitor} {tinfo : ThreadInfo}

theorem interpolate_eq_ok_iff {xPoints : List ℕ} {yPoints xx yy : List ERat} :
    interpolate config xPoints yPoints xx = .ok yy ↔
      config.interp1 (xPoints.map fun ways => .num ways) yPoints xx = some yy := by
  rw [interpolate]
  split <;> simp_all

theorem exists_copySecond {α : Type} {array : IndexedArray} {points : List α}
    (two : 2 ≤ points.length) : ∃ next, copySecond array points = .ok next := by
  obtain ⟨second, isSecond⟩ : ∃ second, index array points 1 = .ok second :=
    exists_index_eq_ok_iff.mpr ⟨by decide, by omega⟩
  rw [copySecond, isSecond, ok_bind]
  exact ⟨_, setAt_eq_ok_iff.mpr ⟨⟨le_rfl, by omega⟩, rfl⟩⟩

theorem exists_storeColumn {cacheNumWays mrcEstIndex : ℕ} {columns : List (List ERat)}
    (inside : mrcEstIndex < columns.length) (yy : List ERat) :
    ∃ next, storeColumn cacheNumWays mrcEstIndex columns yy = .ok next :=
  ⟨_, setAt_eq_ok_iff.mpr ⟨⟨by omega, by omega⟩, rfl⟩⟩

theorem exists_dumpEstimates (pick : ERat → ERat → ERat) (cacheNumWays mrcEstIndex : ℕ)
    (columns : List (List ERat)) {file : Option (List Char)} (isOpen : file.isSome) :
    ∃ next, dumpEstimates pick cacheNumWays mrcEstIndex columns file = .ok next := by
  obtain ⟨text, rfl⟩ := Option.isSome_iff_exists.mp isOpen
  exact ⟨_, rfl⟩

/-- A thread with its files estimates its curves precisely if it can. -/
theorem exists_estimateCurves_iff (sized : Sized config tinfo) (files : tinfo.HasCurveFiles) :
    (∃ next, estimateCurves config tinfo = .ok next) ↔ CanEstimate config tinfo := by
  have two : 2 ≤ config.plan.numWaysToSample := config.plan.twoSlices
  obtain ⟨sameX, sameIpc, sameMpki, columnsMrc, columnsIpc⟩ := sized
  constructor
  · rintro ⟨next, returned⟩
    have inside := (estimateCurves_cases returned).inside
    obtain ⟨steps, -⟩ := exists_curveSteps returned
    refine ⟨columnsMrc ▸ inside,
      fun xPoints yPointsMpki yPointsIpc copiedX copiedMpki copiedIpc => ?_⟩
    cases steps.copiedX.symm.trans copiedX
    cases steps.copiedMpki.symm.trans copiedMpki
    cases steps.copiedIpc.symm.trans copiedIpc
    exact ⟨⟨_, interpolate_eq_ok_iff.mp steps.isMrc⟩, _, interpolate_eq_ok_iff.mp steps.isIpc⟩
  · rintro ⟨column, interpolates⟩
    obtain ⟨xPoints, copiedX⟩ := @exists_copySecond _ .xPoints _ (sameX ▸ two)
    obtain ⟨yPointsMpki, copiedMpki⟩ := @exists_copySecond _ .yPoints _ (sameMpki ▸ two)
    obtain ⟨yPointsIpc, copiedIpc⟩ := @exists_copySecond _ .yPoints _ (sameIpc ▸ two)
    obtain ⟨⟨yyMrc, isMrc⟩, yyIpc, isIpc⟩ :=
      interpolates xPoints yPointsMpki yPointsIpc copiedX copiedMpki copiedIpc
    have insideMrc : tinfo.mrcEstIndex < tinfo.mrcEstimates.length := columnsMrc ▸ column
    have insideIpc : tinfo.mrcEstIndex < tinfo.ipcCurveEstimates.length := columnsIpc ▸ column
    obtain ⟨columnMrc, isColumnMrc⟩ : ∃ column,
        index .estimates tinfo.mrcEstimates tinfo.mrcEstIndex = .ok column :=
      exists_index_eq_ok_iff.mpr ⟨by omega, by omega⟩
    obtain ⟨columnIpc, isColumnIpc⟩ : ∃ column,
        index .estimates tinfo.ipcCurveEstimates tinfo.mrcEstIndex = .ok column :=
      exists_index_eq_ok_iff.mpr ⟨by omega, by omega⟩
    obtain ⟨mrcEstimates, storedMrc⟩ :=
      @exists_storeColumn config.machine.cacheNumWays _ _ insideMrc yyMrc
    obtain ⟨ipcEstimates, storedIpc⟩ :=
      @exists_storeColumn config.machine.cacheNumWays _ _ insideIpc yyIpc
    obtain ⟨mrcDumped, dumpedMrc⟩ := exists_dumpEstimates ERat.stdMin config.machine.cacheNumWays
      tinfo.mrcEstIndex mrcEstimates files.1
    obtain ⟨ipcDumped, dumpedIpc⟩ := exists_dumpEstimates ERat.stdMax config.machine.cacheNumWays
      tinfo.mrcEstIndex ipcEstimates files.2
    have interpolatedMrc := interpolate_eq_ok_iff.mpr isMrc
    have interpolatedIpc := interpolate_eq_ok_iff.mpr isIpc
    rw [wayPoints] at interpolatedMrc interpolatedIpc
    rw [estimateCurves, isColumnMrc, ok_bind, isColumnIpc, ok_bind, copiedX, ok_bind, copiedMpki,
      ok_bind, copiedIpc, ok_bind, interpolatedMrc, ok_bind, interpolatedIpc, ok_bind, storedMrc,
      ok_bind, storedIpc, ok_bind, dumpMrcEstimates]
    dsimp only
    rw [dumpedMrc]
    simp only [ok_bind, pure, Except.pure, dumpIpcEstimates, dumpedIpc]
    exact ⟨_, rfl⟩

/-! ## A sample -/

/-- A sample that does not fail is stored in its slot. -/
theorem collectSample_eq_ok (sized : Sized config tinfo) (read : 3 ≤ tinfo.values.length)
    (lower : 1 ≤ monitor.sampleSlicesIdx)
    (upper : monitor.sampleSlicesIdx ≤ config.plan.numWaysToSample) (some : tinfo.instrDelta ≠ 0) :
    collectSample config monitor tinfo =
      .ok (monitor.collected tinfo, tinfo.withSample config monitor) := by
  have slot (points : ℕ) (same : points = config.plan.numWaysToSample) :
      0 ≤ monitor.sampleSlicesIdx - 1 ∧ monitor.sampleSlicesIdx - 1 < points := by omega
  have instrInside : 1 < tinfo.values.length := lt_of_lt_of_le (by decide) read
  have instr : index .values tinfo.values 1 = .ok (tinfo.values.getD 1 0) :=
    index_values_eq_ok_iff.mpr ⟨instrInside, rfl⟩
  have cycles : index .values tinfo.values 2 = .ok (tinfo.values.getD 2 0) :=
    index_values_eq_ok_iff.mpr ⟨read, rfl⟩
  have isSome : tinfo.values.getD 1 0 - tinfo.lastInstrCtr ≠ 0 := some
  rw [collectSample, setAt_eq_ok_iff.mpr ⟨slot _ sized.xPoints, rfl⟩, ok_bind, instr, ok_bind,
    cycles, ok_bind]
  dsimp only
  rw [if_neg isSome, setAt_eq_ok_iff.mpr ⟨slot _ sized.yPointsIpc, rfl⟩, ok_bind,
    setAt_eq_ok_iff.mpr ⟨slot _ sized.yPointsMpki, rfl⟩]
  rfl

theorem logSample_eq_ok (sized : Sized config tinfo) (lower : 1 ≤ monitor.sampleSlicesIdx)
    (upper : monitor.sampleSlicesIdx ≤ config.plan.numWaysToSample) :
    logSample monitor tinfo = .ok () := by
  have slot (points : ℕ) (same : points = config.plan.numWaysToSample) :
      0 ≤ monitor.sampleSlicesIdx - 1 ∧ monitor.sampleSlicesIdx - 1 < points := by omega
  obtain ⟨ways, isWays⟩ := exists_index_eq_ok_iff.mpr (slot _ sized.xPoints)
  obtain ⟨ipc, isIpc⟩ := exists_index_eq_ok_iff.mpr (slot _ sized.yPointsIpc)
  obtain ⟨mpki, isMpki⟩ := exists_index_eq_ok_iff.mpr (slot _ sized.yPointsMpki)
  rw [logSample, isWays, ok_bind, isIpc, ok_bind, isMpki]
  rfl

/-! ## A signal within a round -/

theorem exists_installSlice (serves : ServesSlices config.machine)
    (generated : generateProfilingPlan config.machine.cacheNumWays = .ok config.plan)
    (profiled : monitor.thrIdxProfiledGlobal < config.machine.numCores)
    (lower : 0 ≤ monitor.sampleSlicesIdx)
    (upper : monitor.sampleSlicesIdx < config.plan.numWaysToSample) :
    ∃ next, installSlice config monitor = .ok next := by
  obtain ⟨slice, isSlice⟩ : ∃ slice,
      index .cacheAssignments config.plan.slices monitor.sampleSlicesIdx = .ok slice :=
    exists_index_eq_ok_iff.mpr ⟨lower, upper⟩
  have listed : slice ∈ config.plan.slices := List.mem_of_getElem? (index_eq_ok_iff.mp isSlice).2
  obtain ⟨next, set⟩ := exists_setCachewaysToCores serves generated listed profiled monitor.msrs
    monitor.currentlySampling
  rw [installSlice, isSlice, ok_bind, set]
  exact ⟨_, rfl⟩

theorem exists_nextThread (serves : ServesSlices config.machine) :
    ∃ next, nextThread config monitor = .ok next := by
  rw [nextThread]
  dsimp only
  split
  · obtain ⟨msrs, shared⟩ := exists_shareAllCacheWays serves monitor.msrs
    rw [shared]
    exact ⟨_, rfl⟩
  · exact ⟨_, rfl⟩

/-- The thread whose turn it is ends its turn if it can estimate its curves. -/
theorem exists_finishRound (serves : ServesSlices config.machine) (unlogged : monitor.Unlogged)
    (turn : tinfo.tidx = monitor.thrIdxProfiledGlobal) {estimated : ThreadInfo}
    (estimates : estimateCurves config tinfo = .ok estimated) :
    ∃ next, finishRound config monitor tinfo = .ok next := by
  have isTurn : tinfo.tidx = monitor.thrIdxProfiledGlobal ∧
      monitor.loggingMRCFlags tinfo.tidx < 1 := ⟨turn, by rw [unlogged]; decide⟩
  have flagged : (Function.update monitor.loggingMRCFlags tinfo.tidx 1)
      monitor.thrIdxProfiledGlobal = 1 := by rw [turn, Function.update_self]
  rw [finishRound, estimateOnce, if_pos isTurn, estimates]
  simp only [ok_bind, pure, Except.pure]
  rw [if_pos flagged]
  obtain ⟨next, passed⟩ := @exists_nextThread config { monitor with
    loggingMRCFlags := Function.update monitor.loggingMRCFlags tinfo.tidx 1 } serves
  rw [passed]
  exact ⟨_, rfl⟩

/-- Within a round a signal that gives the thread its sample is served, up to the last slice, and
there precisely if the thread can estimate its curves. -/
theorem exists_monitorPhase_iff (serves : ServesSlices config.machine)
    (generated : generateProfilingPlan config.machine.cacheNumWays = .ok config.plan)
    (profiled : monitor.thrIdxProfiledGlobal < config.machine.numCores)
    (unlogged : monitor.Unlogged) (sized : Sized config tinfo)
    (read : 3 ≤ tinfo.values.length) (files : tinfo.HasCurveFiles)
    (collects : Collects config monitor tinfo) (interval : monitor.mrcInvokeMonitorLen ≠ 0)
    (lower : 1 ≤ monitor.sampleSlicesIdx)
    (upper : monitor.sampleSlicesIdx ≤ config.plan.numWaysToSample) :
    (∃ next, monitorPhase config monitor tinfo = .ok next) ↔
      (monitor.sampleSlicesIdx = config.plan.numWaysToSample →
        CanEstimate config (tinfo.withSample config monitor).remembered) := by
  obtain ⟨⟨isOpen, goesOn⟩, turn, some⟩ := collects
  have stillSized : Sized config (tinfo.withSample config monitor).remembered :=
    ((Collected.collected some : Collected config monitor tinfo _ _).sized sized).1.remembered
  have sampled : monitorPhase config monitor tinfo = sampleSlice config monitor tinfo := by
    have notIdle : saveIdle monitor tinfo = .ok tinfo := by
      rw [saveIdle, if_neg]
      rintro ⟨closed, -⟩
      rw [isOpen] at closed
      cases closed
    have notInvoked : ¬ (tinfo.phases % monitor.mrcInvokeMonitorLen = 0 ∧
      config.mrcEstMode = true) := goesOn
    rw [monitorPhase, notIdle, ok_bind, if_neg interval, if_neg notInvoked,
      if_pos ⟨isOpen, Nat.mod_one _⟩]
  have saved : (tinfo.withSample config monitor).saveCounters =
      .ok (tinfo.withSample config monitor).remembered :=
    saveCounters_eq_ok_iff.mpr ⟨read, rfl⟩
  have logged : logSample (monitor.collected tinfo) (tinfo.withSample config monitor).remembered =
      .ok () := logSample_eq_ok stillSized lower upper
  have status : ((monitor.collected tinfo).currentlySampling
      (tinfo.withSample config monitor).remembered.tidx).status = 0 :=
    Monitor.status_mark monitor tinfo.tidx 0
  rw [sampled, sampleSlice, collectSample_eq_ok sized read lower upper some, ok_bind]
  dsimp only
  rw [saved, ok_bind, logged, ok_bind]
  by_cases all : monitor.sampleSlicesIdx = config.plan.numWaysToSample
  · have isLast : (monitor.collected tinfo).sampleSlicesIdx = config.plan.numWaysToSample ∧
        ((monitor.collected tinfo).currentlySampling
          (tinfo.withSample config monitor).remembered.tidx).status ≠ 5 :=
      ⟨all, by rw [status]; decide⟩
    rw [if_pos isLast, ← exists_estimateCurves_iff stillSized files]
    constructor
    · rintro ⟨next, returned⟩ -
      have stillUnlogged : (monitor.collected tinfo).Unlogged := unlogged
      rcases finishRound_cases stillUnlogged returned with ⟨-, -, -, -, estimates⟩ | ⟨noTurn, -⟩
      · exact ⟨_, estimates.returned⟩
      · exact absurd turn noTurn
    · intro estimable
      obtain ⟨estimated, estimates⟩ := estimable all
      exact exists_finishRound serves unlogged turn estimates
  · have notLast : ¬ ((monitor.collected tinfo).sampleSlicesIdx = config.plan.numWaysToSample ∧
        ((monitor.collected tinfo).currentlySampling
          (tinfo.withSample config monitor).remembered.tidx).status ≠ 5) :=
      fun isLast => all isLast.1
    refine iff_of_true ?_ fun isLast => absurd isLast all
    obtain ⟨next, installed⟩ := @exists_installSlice config (monitor.collected tinfo) serves
      generated profiled ((show (0 : ℤ) ≤ 1 by decide).trans lower) (lt_of_le_of_ne upper all)
    have isTurn : (tinfo.withSample config monitor).remembered.tidx =
        (monitor.collected tinfo).thrIdxProfiledGlobal ∧
        ((monitor.collected tinfo).currentlySampling
          (monitor.collected tinfo).thrIdxProfiledGlobal).status = 0 := by
      have sameTurn : (tinfo.withSample config monitor).remembered.tidx =
        (monitor.collected tinfo).thrIdxProfiledGlobal := turn
      exact ⟨sameTurn, sameTurn ▸ status⟩
    rw [if_neg notLast, nextSlice, if_pos isTurn, installed]
    exact ⟨_, rfl⟩

end

/-! ## The thread of a signal -/

/-- The event is a signal, and this is the thread that the handler finds for it, once the kernel
has counted the overflow and the handler the phase. -/
def State.Handles (st : State) (event : Event) (tinfo : ThreadInfo) : Prop :=
  ∃ words signal overflowed before, event = .phase words signal ∧
    st.overflow signal.fd words = .ok overflowed ∧
    overflowed.tidMap.get? (st.threadOf signal.fd) = some before ∧
    before.isDummyThread = false ∧ tinfo = before.enterPhase

section

variable {config : Config} {st next : State} {words : List Word} {signal : Signal}
  {before : ThreadInfo} {group counted : EventGroup} {monitor : Monitor}
  {sampled after tinfo : ThreadInfo} {event : Event}

/-- An overflow changes the groups of its thread only. -/
theorem State.Handles.profiles (handles : st.Handles event tinfo) :
    ∃ words signal before groups, event = .phase words signal ∧
      st.Profiles (st.threadOf signal.fd) before ∧
      tinfo = { before with eventGroups := groups }.enterPhase := by
  obtain ⟨words, signal, overflowed, counted, rfl, isOverflowed, isThread, isReal, rfl⟩ := handles
  rw [State.overflow] at isOverflowed
  cases found : st.tidMap.get? (st.threadOf signal.fd) with
  | none =>
      rw [found] at isOverflowed
      cases isOverflowed
      cases found.symm.trans isThread
  | some before =>
      rw [found] at isOverflowed
      dsimp only at isOverflowed
      split at isOverflowed
      · cases isOverflowed
        cases found.symm.trans isThread
        exact ⟨words, signal, _, _, rfl, ⟨found, isReal⟩, rfl⟩
      · split at isOverflowed
        · cases isOverflowed
        · cases isOverflowed
          dsimp only at isThread
          rw [Dict.get?_insert_self] at isThread
          cases isThread
          exact ⟨words, signal, before, _, rfl, ⟨found, isReal⟩, rfl⟩

/-- A signal that was served had a thread. -/
theorem Served.handles
    (served : Served config st words signal before group counted monitor sampled after next) :
    st.Handles (.phase words signal) (before.overflowed signal.fd counted words).enterPhase := by
  refine ⟨words, signal, { st with
      tidMap := st.tidMap.insert (st.threadOf signal.fd)
        (before.overflowed signal.fd counted words) },
    before.overflowed signal.fd counted words, rfl,
    ?_, ?_, served.isReal, rfl⟩
  · rw [State.overflow, served.isThread]
    dsimp only
    rw [served.isGroup]
    dsimp only
    rw [served.isCounted]
  · exact Dict.get?_insert_self _ _ _

end

end Datamime.Profiler
