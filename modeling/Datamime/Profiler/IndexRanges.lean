/-
# Indices of the handler

The handler indexes the counters of the last read, the sampled points, the slices of the plan
and the columns of the estimates, and most of these indices are globals that the handlers of
all threads share. This module says when they are in range: a thread that needs counters has
had a read that saved them, no phase is sampled between the moment the turn is passed on and
the next round, and no thread completes more turns than there are columns.
-/

import Datamime.Hardware.Faults
import Datamime.Math.SampledCurve
import Datamime.Profiler.SharedCache
import Datamime.Profiler.WindDown

namespace Datamime.Profiler

open Datamime.Math Datamime.Hardware

/-! ## Index faults -/

/-- The handler indexes the array. -/
def ofHandler : IndexedArray → Prop
  | .values | .xPoints | .yPoints | .cacheAssignments | .estimates => True
  | .msrDescriptors | .assignableCores => False

/-- An index of the handler is out of range. -/
def IsIndexFault : Fault → Prop
  | .outOfRange array => ofHandler array
  | _ => False

/-- All indices that a call uses are in range. -/
abbrev InRange {α : Type*} (result : Except Fault α) : Prop := Avoids IsIndexFault result

section

variable {α : Type*} {array : IndexedArray} {xs : List α} {i : ℤ}

theorem inRange_index (lower : 0 ≤ i) (upper : i < xs.length) : InRange (index array xs i) := by
  obtain ⟨value, found⟩ := (@exists_index_eq_ok_iff _ array xs i).mpr ⟨lower, upper⟩
  exact avoids_of_eq_ok found

theorem inRange_setAt (lower : 0 ≤ i) (upper : i < xs.length) (x : α) :
    InRange (setAt array xs i x) :=
  avoids_of_eq_ok (setAt_eq_ok_iff.mpr ⟨⟨lower, upper⟩, rfl⟩)

end

/-! ## Registers -/

section

variable {machine : Machine}

theorem inRange_read (msrs : Msrs) (core : ℕ) (register : Register) :
    InRange (msrs.read machine core register) :=
  avoids_read fun _ => id

theorem inRange_write (msrs : Msrs) (core : ℕ) (register : Register) (value : BitVec 64) :
    InRange (msrs.write machine core register value) :=
  avoids_write fun _ => id

theorem inRange_shareAllCacheWays (numLogicalCores cacheNumWays : ℕ) (msrs : Msrs) :
    InRange (shareAllCacheWays machine numLogicalCores cacheNumWays msrs) := by
  apply (avoids_catController id (fun _ => id) id id).bind
  intro _ _
  apply avoids_foldlM
  intro st core _
  exact avoids_shareCore (fun _ => id) (fun _ => id) fun _ => id

theorem inRange_setCachewaysToCores (slice : Slice) (procIdxProfiled : ℕ) (msrs : Msrs)
    (currentlySampling : ℕ → CoreSampling) :
    InRange (setCachewaysToCores machine slice procIdxProfiled msrs currentlySampling) := by
  apply (avoids_catController id (fun _ => id) id id).bind
  intro _ _
  apply (avoids_foldlM (fun _ _ _ => avoids_setCbm (fun _ => id) (fun _ => id) fun _ => id) _).bind
  intro _ _
  apply (avoids_setCos (fun _ => id) fun _ => id).bind
  intro _ _
  apply avoids_foldlM
  intro st procID _
  apply avoids_ite
  · exact fun _ => avoids_ok _
  · exact fun _ => (avoids_setCos (fun _ => id) fun _ => id).bind fun _ _ => avoids_ok _

theorem inRange_readQmCtr (counters : QmCounters) (msrs : Msrs) (rmid evt : ℕ) :
    InRange (readQmCtr machine counters msrs rmid evt) := by
  apply ((inRange_read _ _ _).bind fun _ _ => inRange_write _ _ _ _).bind
  intro _ _
  apply ((inRange_read _ _ _).bind fun _ _ => inRange_write _ _ _ _).bind
  intro _ _
  apply (inRange_read _ _ _).bind
  intro _ _
  apply avoids_ite
  · exact fun _ => avoids_error id
  · exact fun _ => avoids_ite (fun _ => avoids_error id) fun _ => avoids_ok _

end

/-! ## Reading the counters -/

theorem inRange_readRecord (group : EventGroup) (tinfo : ThreadInfo) (outcomes : List Bool) :
    InRange (readRecord group tinfo outcomes) := by
  rw [readRecord]
  split
  · exact avoids_error id
  apply avoids_ite
  · intro _
    rw [readSample]
    split
    · exact avoids_ok _
    apply avoids_ite
    · intro _
      apply avoids_ite
      · exact fun _ => avoids_error id
      · intro _
        split <;> exact avoids_ok _
    · exact fun _ => avoids_error id
  · exact fun _ => avoids_ok _

theorem inRange_switchGroup (mrcEstMode refreshFails : Bool) (fd : ℤ) (tinfo : ThreadInfo) :
    InRange (switchGroup mrcEstMode refreshFails fd tinfo) := by
  apply avoids_ite
  · intro _
    dsimp only
    split
    · exact avoids_error id
    · exact avoids_ite (fun _ => avoids_error id) fun _ => avoids_ok _
  · exact fun _ => avoids_ok _

theorem inRange_readCounters (config : Config) (signal : Signal) (msrs : Msrs)
    (tinfo : ThreadInfo) : InRange (readCounters config signal msrs tinfo) := by
  apply Avoids.bind
  · apply Avoids.bind
    · apply (inRange_readQmCtr _ _ _ _).bind
      intro _ _
      exact avoids_ite (fun _ => avoids_ok _) fun _ => avoids_ok _
    · exact fun _ _ => (inRange_readQmCtr _ _ _ _).bind fun _ _ => avoids_ok _
  intro _ _
  apply ((inRange_readQmCtr _ _ _ _).bind fun _ _ => avoids_ok _).bind
  rintro ⟨_, metered⟩ _
  dsimp only
  cases metered.eventGroups.get? signal.fd with
  | none => exact avoids_error id
  | some group =>
      dsimp only
      rw [perfFd2event_fds]
      apply (inRange_readRecord _ _ _).bind
      intro _ _
      apply avoids_ite
      · exact fun _ => (inRange_switchGroup _ _ _ _).bind fun _ _ => avoids_ok _
      · exact fun _ => avoids_ok _

/-! ## Estimating -/

/-- The arrays of a thread have the sizes that they were created with. -/
structure Sized (config : Config) (tinfo : ThreadInfo) : Prop where
  xPoints : tinfo.xPoints.length = config.plan.numWaysToSample
  yPointsIpc : tinfo.yPointsIpc.length = config.plan.numWaysToSample
  yPointsMpki : tinfo.yPointsMpki.length = config.plan.numWaysToSample
  mrcEstimates : tinfo.mrcEstimates.length = estimateColumns
  ipcCurveEstimates : tinfo.ipcCurveEstimates.length = estimateColumns

section

variable {config : Config} {tinfo : ThreadInfo}

theorem inRange_copySecond {α : Type} {array : IndexedArray} {points : List α}
    (two : 2 ≤ points.length) : InRange (copySecond array points) := by
  apply (inRange_index (by decide) (by omega)).bind
  intro _ _
  exact inRange_setAt le_rfl (by omega) _

theorem inRange_interpolate (xPoints : List ℕ) (yPoints xx : List ERat) :
    InRange (interpolate config xPoints yPoints xx) := by
  rw [interpolate]
  split
  · exact avoids_ok _
  · exact avoids_error id

theorem inRange_storeColumn {columns : List (List ERat)} (sized : columns.length = estimateColumns)
    (left : tinfo.mrcEstIndex < estimateColumns) (cacheNumWays : ℕ) (yy : List ERat) :
    InRange (storeColumn cacheNumWays tinfo.mrcEstIndex columns yy) :=
  inRange_setAt (by omega) (by omega) _

theorem inRange_dumpEstimates (pick : ERat → ERat → ERat) (cacheNumWays mrcEstIndex : ℕ)
    (columns : List (List ERat)) (file : Option (List Char)) :
    InRange (dumpEstimates pick cacheNumWays mrcEstIndex columns file) := by
  cases file with
  | none => exact avoids_error id
  | some file => exact avoids_ok _

/-- A thread that has a column left estimates its curves with all indices in range. -/
theorem inRange_estimateCurves (sized : Sized config tinfo)
    (left : tinfo.mrcEstIndex < estimateColumns) : InRange (estimateCurves config tinfo) := by
  have two : 2 ≤ config.plan.numWaysToSample := config.plan.twoSlices
  have mrcLeft : (tinfo.mrcEstIndex : ℤ) < tinfo.mrcEstimates.length := by
    rw [sized.mrcEstimates]
    omega
  have ipcLeft : (tinfo.mrcEstIndex : ℤ) < tinfo.ipcCurveEstimates.length := by
    rw [sized.ipcCurveEstimates]
    omega
  apply (inRange_index (Int.natCast_nonneg _) mrcLeft).bind
  intro _ _
  apply (inRange_index (Int.natCast_nonneg _) ipcLeft).bind
  intro _ _
  apply (inRange_copySecond (sized.xPoints ▸ two)).bind
  intro _ _
  apply (inRange_copySecond (sized.yPointsMpki ▸ two)).bind
  intro _ _
  apply (inRange_copySecond (sized.yPointsIpc ▸ two)).bind
  intro _ _
  apply (inRange_interpolate _ _ _).bind
  intro _ _
  apply (inRange_interpolate _ _ _).bind
  intro _ _
  apply (inRange_storeColumn sized.mrcEstimates left _ _).bind
  intro _ _
  apply (inRange_storeColumn sized.ipcCurveEstimates left _ _).bind
  intro _ _
  apply ((inRange_dumpEstimates _ _ _ _ _).bind fun _ _ => avoids_ok _).bind
  intro _ _
  apply ((inRange_dumpEstimates _ _ _ _ _).bind fun _ _ => avoids_ok _).bind
  exact fun _ _ => avoids_ok _

end

/-! ## One phase -/

/-- The phase ends a turn: the thread collects the sample of the last slice. -/
def FinishesTurn (config : Config) (monitor : Monitor) (tinfo : ThreadInfo) : Prop :=
  Collects config monitor tinfo ∧ monitor.sampleSlicesIdx = config.plan.numWaysToSample

/-- The phase compares or remembers counters. -/
def NeedsValues (config : Config) (monitor : Monitor) (tinfo : ThreadInfo) : Prop :=
  monitor.monitorStartFlag = true ∨ 1 < tinfo.phases ∨ InvokesMonitor config monitor tinfo

/-- What a phase needs for its indices. -/
structure Ready (config : Config) (monitor : Monitor) (tinfo : ThreadInfo) : Prop where
  read : NeedsValues config monitor tinfo → 3 ≤ tinfo.values.length
  turn : Samples config monitor tinfo → 1 ≤ monitor.sampleSlicesIdx
  bound : monitor.monitorStartFlag = true →
    monitor.sampleSlicesIdx ≤ config.plan.numWaysToSample
  columns : FinishesTurn config monitor tinfo → tinfo.mrcEstIndex < estimateColumns

section

variable {config : Config} {monitor : Monitor} {tinfo : ThreadInfo}

theorem inRange_saveCounters (read : 3 ≤ tinfo.values.length) : InRange tinfo.saveCounters :=
  avoids_of_eq_ok (saveCounters_eq_ok_iff.mpr ⟨read, rfl⟩)

theorem inRange_installSlice (lower : 0 ≤ monitor.sampleSlicesIdx)
    (upper : monitor.sampleSlicesIdx < config.plan.numWaysToSample) :
    InRange (installSlice config monitor) := by
  apply (inRange_index lower upper).bind
  intro _ _
  exact (inRange_setCachewaysToCores _ _ _ _).bind fun _ _ => avoids_ok _

theorem inRange_invokeMonitor (read : 3 ≤ tinfo.values.length) :
    InRange (invokeMonitor config monitor tinfo) := by
  apply (inRange_saveCounters read).bind
  intro _ _
  apply avoids_ite
  · intro _
    have two : 2 ≤ config.plan.numWaysToSample := config.plan.twoSlices
    have first : (0 : ℤ) < config.plan.numWaysToSample := by omega
    exact (@inRange_installSlice config (monitor.opened _) le_rfl first).bind fun _ _ =>
      avoids_ok _
  · exact fun _ => avoids_ok _

theorem inRange_collectSample (sized : Sized config tinfo) (read : 3 ≤ tinfo.values.length)
    (lower : 1 ≤ monitor.sampleSlicesIdx)
    (upper : monitor.sampleSlicesIdx ≤ config.plan.numWaysToSample) :
    InRange (collectSample config monitor tinfo) := by
  have slot_nonneg : 0 ≤ monitor.sampleSlicesIdx - 1 := by omega
  have slot_lt : monitor.sampleSlicesIdx - 1 < config.plan.numWaysToSample := by omega
  apply (inRange_setAt slot_nonneg (sized.xPoints ▸ slot_lt) _).bind
  intro _ _
  apply (inRange_index (by decide) (by omega)).bind
  intro _ _
  apply (inRange_index (by decide) (by omega)).bind
  intro _ _
  apply avoids_ite
  · exact fun _ => avoids_ok _
  · intro _
    apply (inRange_setAt slot_nonneg (sized.yPointsIpc ▸ slot_lt) _).bind
    intro _ _
    apply (inRange_setAt slot_nonneg (sized.yPointsMpki ▸ slot_lt) _).bind
    exact fun _ _ => avoids_ok _

theorem inRange_logSample (sized : Sized config tinfo) (lower : 1 ≤ monitor.sampleSlicesIdx)
    (upper : monitor.sampleSlicesIdx ≤ config.plan.numWaysToSample) :
    InRange (logSample monitor tinfo) := by
  have slot_nonneg : 0 ≤ monitor.sampleSlicesIdx - 1 := by omega
  have slot_lt : monitor.sampleSlicesIdx - 1 < config.plan.numWaysToSample := by omega
  apply (inRange_index slot_nonneg (sized.xPoints ▸ slot_lt)).bind
  intro _ _
  apply (inRange_index slot_nonneg (sized.yPointsIpc ▸ slot_lt)).bind
  intro _ _
  apply (inRange_index slot_nonneg (sized.yPointsMpki ▸ slot_lt)).bind
  exact fun _ _ => avoids_ok _

theorem inRange_nextThread : InRange (nextThread config monitor) := by
  apply avoids_ite
  · exact fun _ => (inRange_shareAllCacheWays _ _ _).bind fun _ _ => avoids_ok _
  · exact fun _ => avoids_ok _

theorem inRange_finishRound (sized : Sized config tinfo)
    (left : tinfo.tidx = monitor.thrIdxProfiledGlobal → tinfo.mrcEstIndex < estimateColumns) :
    InRange (finishRound config monitor tinfo) := by
  apply Avoids.bind
  · apply avoids_ite
    · exact fun isTurn => (inRange_estimateCurves sized (left isTurn.1)).bind fun _ _ =>
        avoids_ok _
    · exact fun _ => avoids_ok _
  · rintro ⟨logged, estimated⟩ _
    apply avoids_ite
    · exact fun _ => inRange_nextThread.bind fun _ _ => avoids_ok _
    · exact fun _ => avoids_ok _

/-- A sample leaves the sizes and the counters alone. -/
theorem Collected.sized {next : Monitor} {sampled : ThreadInfo} (sized : Sized config tinfo)
    (stored : Collected config monitor tinfo next sampled) :
    Sized config sampled ∧ sampled.values = tinfo.values ∧
      sampled.mrcEstIndex = tinfo.mrcEstIndex ∧ sampled.tidx = tinfo.tidx := by
  obtain ⟨xPoints, yPointsIpc, yPointsMpki, mrcEstimates, ipcCurveEstimates⟩ := sized
  cases stored with
  | failed none =>
      exact ⟨⟨List.length_set.trans xPoints, yPointsIpc, yPointsMpki, mrcEstimates,
        ipcCurveEstimates⟩, rfl, rfl, rfl⟩
  | collected some =>
      exact ⟨⟨List.length_set.trans xPoints, List.length_set.trans yPointsIpc,
        List.length_set.trans yPointsMpki, mrcEstimates, ipcCurveEstimates⟩, rfl, rfl, rfl⟩

/-- An overflow and the phase it ends resize nothing. -/
theorem Sized.entered {fd : ℤ} {group : EventGroup} {words : List Word}
    (sized : Sized config tinfo) :
    Sized config (tinfo.overflowed fd group words).enterPhase :=
  ⟨sized.xPoints, sized.yPointsIpc, sized.yPointsMpki, sized.mrcEstimates,
    sized.ipcCurveEstimates⟩

theorem Sized.remembered (sized : Sized config tinfo) : Sized config tinfo.remembered :=
  ⟨sized.xPoints, sized.yPointsIpc, sized.yPointsMpki, sized.mrcEstimates,
    sized.ipcCurveEstimates⟩

theorem inRange_sampleSlice (sized : Sized config tinfo) (ready : Ready config monitor tinfo)
    (samples : Samples config monitor tinfo) : InRange (sampleSlice config monitor tinfo) := by
  have lower := ready.turn samples
  have upper := ready.bound samples.1
  apply (inRange_collectSample sized (ready.read (.inl samples.1)) lower upper).bind
  rintro ⟨marked, sampled⟩ isSampled
  obtain ⟨read, -, stored⟩ := collectSample_cases isSampled
  obtain ⟨sized, values, sameIndex, sameTidx⟩ := stored.sized sized
  dsimp only at stored ⊢
  apply (inRange_saveCounters (values ▸ read)).bind
  intro saved isSaved
  obtain ⟨-, rfl⟩ := saveCounters_eq_ok_iff.mp isSaved
  -- A sample marks its core and changes nothing else in the monitor.
  obtain ⟨value, isMarked, isValue⟩ : ∃ value, marked = monitor.mark tinfo.tidx value ∧
      (value = 0 → tinfo.instrDelta ≠ 0) ∧ (value = 0 ∨ value = 5) := by
    cases stored with
    | failed none => exact ⟨5, rfl, nofun, .inr rfl⟩
    | collected some => exact ⟨0, rfl, fun _ => some, .inl rfl⟩
  have status : (marked.currentlySampling sampled.remembered.tidx).status = value := by
    rw [isMarked]
    show ((monitor.mark tinfo.tidx value).currentlySampling sampled.tidx).status = value
    rw [sameTidx, Monitor.status_mark]
  rw [isMarked] at status ⊢
  apply (inRange_logSample sized.remembered lower upper).bind
  intro _ _
  apply avoids_ite
  · rintro ⟨all, notFailed⟩
    apply inRange_finishRound sized.remembered
    intro isTurn
    have isZero : value = 0 := isValue.2.resolve_right fun failed => notFailed (status.trans failed)
    have same : sampled.remembered.mrcEstIndex = tinfo.mrcEstIndex := sameIndex
    rw [same]
    exact ready.columns ⟨⟨samples, sameTidx ▸ isTurn, isValue.1 isZero⟩, all⟩
  · intro incomplete
    apply Avoids.bind
    · apply avoids_ite
      · rintro ⟨isTurn, isZero⟩
        rw [← isTurn, status] at isZero
        have more : monitor.sampleSlicesIdx ≠ config.plan.numWaysToSample := by
          intro all
          refine incomplete ⟨all, ?_⟩
          rw [status, isZero]
          decide
        exact inRange_installSlice (show 0 ≤ monitor.sampleSlicesIdx by omega)
          (lt_of_le_of_ne upper more)
      · exact fun _ => avoids_ok _
    · exact fun _ _ => avoids_ok _

/-- A phase that has what it needs uses no index out of range. -/
theorem inRange_monitorPhase (sized : Sized config tinfo) (ready : Ready config monitor tinfo) :
    InRange (monitorPhase config monitor tinfo) := by
  apply Avoids.bind
  · apply avoids_ite
    · exact fun idle => inRange_saveCounters (ready.read (.inr (.inl idle.2)))
    · exact fun _ => avoids_ok _
  intro idle isIdle
  have idleCases := saveIdle_cases isIdle
  have samePhases : idle.phases = tinfo.phases := by
    rcases idleCases with ⟨-, -, rfl⟩ | ⟨-, rfl⟩ <;> rfl
  have sameValues : idle.values = tinfo.values := by
    rcases idleCases with ⟨-, -, rfl⟩ | ⟨-, rfl⟩ <;> rfl
  apply avoids_ite
  · exact fun _ => avoids_error id
  intro _
  apply avoids_ite
  · intro invokes
    rw [samePhases] at invokes
    exact inRange_invokeMonitor (sameValues ▸ ready.read (.inr (.inr invokes)))
  · intro goesOn
    rw [samePhases] at goesOn
    apply avoids_ite
    · rintro ⟨isOpen, -⟩
      rcases idleCases with ⟨closed, -, -⟩ | ⟨-, rfl⟩
      · rw [isOpen] at closed
        cases closed
      · exact inRange_sampleSlice sized ready ⟨isOpen, goesOn⟩
    · exact fun _ => avoids_ok _

end

/-! ## One event -/

/-- The first two reads of the record at the front of a buffer succeed, and it is a sample. -/
def SavesCounters (buf : List Word) (outcomes : List Bool) : Prop :=
  ∃ header rest, buf = header :: rest ∧ headerType header = PERF_RECORD_SAMPLE ∧
    infoWords ≤ rest.length ∧ outcomes.headD true = true ∧ outcomes.tail.headD true = true

/-- The event is a phase of the thread whose read saves counters. -/
def SavesAt (tid : ℤ) (st : State) : Event → Prop
  | .wait _ => False
  | .phase words signal => st.threadOf signal.fd = tid ∧
      ∃ group, st.groupOf signal.fd = some group ∧
        SavesCounters (group.buf ++ words) signal.readOutcomes

/-- The event ends a turn of the thread. -/
def FinishesAt (config : Config) (tid : ℤ) (st : State) : Event → Prop
  | .wait _ => False
  | .phase words signal => st.threadOf signal.fd = tid ∧
      ∃ tinfo, st.phaseOf (.phase words signal) = some tinfo ∧
        FinishesTurn config st.monitor tinfo

/-- The event ends a turn, and another thread is next. -/
def HandsOverAt (config : Config) (st : State) (event : Event) : Prop :=
  ∃ tinfo, st.phaseOf event = some tinfo ∧ FinishesTurn config st.monitor tinfo ∧
    st.monitor.thrIdxProfiledGlobal + 1 < config.numProfiledThreads

/-- What the past of a run owes to a phase: a read of the thread that saved counters, where it
needs some; since the turn was last passed on a new round, where it is sampled; and a column
that no earlier turn of the thread has filled, where it ends one. -/
structure PhaseReady (config : Config) (start : State) (early : List Event) (st : State)
    (tid : ℤ) (tinfo : ThreadInfo) : Prop where
  read : NeedsValues config st.monitor tinfo →
    0 < countSteps (systemStep config) (SavesAt tid) start early
  turn : Samples config st.monitor tinfo →
    EachFollowed (systemStep config) start early (HandsOverAt config) (OpensAt config)
  columns : FinishesTurn config st.monitor tinfo →
    countSteps (systemStep config) (FinishesAt config tid) start early < estimateColumns

/-- The same for an event. -/
def EventReady (config : Config) (start : State) (early : List Event) (st : State) :
    Event → Prop
  | .wait _ => True
  | .phase words signal => ∀ tinfo, st.phaseOf (.phase words signal) = some tinfo →
      PhaseReady config start early st (st.threadOf signal.fd) tinfo

/-- No index that the event leads to is out of range. -/
def IndexSafe (config : Config) (st : State) (event : Event) : Prop :=
  ∀ fault, systemStep config st event = .error (.fault fault) → ¬ IsIndexFault fault

theorem inRange_profileStep (st : State) (wait : Wait) : InRange (profileStep st wait) := by
  have remove (st : State) (pid : ℤ) : InRange (st.remove pid) := by
    rw [State.remove]
    split
    · exact avoids_error id
    · rename_i tinfo isThread
      have flush : InRange tinfo.flush :=
        avoids_ite (fun _ => avoids_ok _) fun _ => avoids_error id
      exact flush.bind fun _ _ => avoids_ok _
  apply avoids_ite
  · exact fun _ => avoids_error id
  intro _
  apply avoids_ite
  · exact fun _ => remove st wait.pid
  intro _
  apply avoids_ite
  · exact fun _ => avoids_error id
  intro _
  apply avoids_ite
  · exact fun _ => avoids_ite (fun _ => avoids_error id) fun _ => avoids_ok _
  intro _
  apply avoids_ite
  · intro _
    apply avoids_ite
    · exact fun _ => avoids_error id
    · exact fun _ => (remove st wait.pid).bind fun _ _ => avoids_ok _
  intro _
  apply avoids_ite
  · exact fun _ => remove st wait.pid
  · exact fun _ => avoids_error id

theorem inRange_sigthymeHandler {config : Config} {st : State} {signal : Signal}
    (each : ∀ tinfo, st.tidMap.get? (st.threadOf signal.fd) = some tinfo →
      tinfo.isDummyThread = false →
        Sized config tinfo.enterPhase ∧ Ready config st.monitor tinfo.enterPhase) :
    InRange (sigthymeHandler config st signal) := by
  rw [sigthymeHandler]
  dsimp only
  cases isThread : st.tidMap.get? (st.threadOf signal.fd) with
  | none => exact avoids_error id
  | some tinfo =>
      apply avoids_ite
      · exact fun _ => avoids_error id
      · intro isReal
        obtain ⟨sized, ready⟩ := each tinfo isThread (Bool.eq_false_of_not_eq_true isReal)
        apply (inRange_monitorPhase sized ready).bind
        intro _ _
        exact (inRange_readCounters _ _ _ _).bind fun _ _ => avoids_ok _

theorem orStop_eq_error_iff {α : Type} {result : Except Fault α} {fault : Fault} :
    orStop result = .error (.fault fault) ↔ result = .error fault := by
  cases result <;> simp [orStop]

/-- The overflow itself ends a run only where the group is not armed. -/
theorem overflow_eq_error {st : State} {fd : ℤ} {words : List Word} {stop : Stop}
    (stopped : st.overflow fd words = .error stop) : stop = .notArmed := by
  rw [State.overflow] at stopped
  split at stopped
  · cases stopped
  · split at stopped
    · cases stopped
    · split at stopped
      · exact (Except.error.inj stopped).symm
      · cases stopped

/-- A phase event is safe if its thread has what the phase needs. The overflow before it
changes nothing of that. -/
theorem indexSafe_of_ready {config : Config} {st : State} {event : Event}
    (each : ∀ words signal tinfo, event = .phase words signal →
      st.Profiles (st.threadOf signal.fd) tinfo →
        Sized config tinfo ∧ Ready config st.monitor tinfo.enterPhase) :
    IndexSafe config st event := by
  intro fault failed
  unfold systemStep at failed
  split at failed
  · cases failed
  cases event with
  | wait wait => exact inRange_profileStep st wait fault (orStop_eq_error_iff.mp failed)
  | phase words signal =>
      dsimp only at failed
      cases isOverflowed : st.overflow signal.fd words with
      | error stop =>
          rw [isOverflowed, overflow_eq_error isOverflowed] at failed
          cases failed
      | ok overflowed =>
          rw [isOverflowed, ok_bind] at failed
          refine inRange_sigthymeHandler ?_ fault (orStop_eq_error_iff.mp failed)
          intro tinfo isThread isReal
          obtain ⟨sameMonitor, -, -, before, isBefore, -, isOverflow⟩ :=
            overflow_cases isOverflowed isThread
          rw [sameMonitor]
          rcases isOverflow with ⟨rfl, -⟩ | ⟨group, counted, -, -, rfl⟩
          · obtain ⟨sized, ready⟩ := each words signal _ rfl ⟨isBefore, isReal⟩
            exact ⟨⟨sized.xPoints, sized.yPointsIpc, sized.yPointsMpki, sized.mrcEstimates,
              sized.ipcCurveEstimates⟩, ready⟩
          · obtain ⟨sized, ready⟩ := each words signal before rfl ⟨isBefore, isReal⟩
            exact ⟨⟨sized.xPoints, sized.yPointsIpc, sized.yPointsMpki, sized.mrcEstimates,
              sized.ipcCurveEstimates⟩, ⟨ready.read, ready.turn, ready.bound, ready.columns⟩⟩

/-! ## The past of a run -/

/-- Within a round the position lies between the first slice and the end of the plan. -/
def Monitor.Within (config : Config) (monitor : Monitor) : Prop :=
  monitor.monitorStartFlag = true →
    0 ≤ monitor.sampleSlicesIdx ∧ monitor.sampleSlicesIdx ≤ config.plan.numWaysToSample

/-- The turn was passed on, and no round was opened since. -/
def Monitor.turnPassed (monitor : Monitor) : Bool :=
  monitor.monitorStartFlag && decide (monitor.sampleSlicesIdx = 0)

section

variable {config : Config} {monitor next : Monitor} {tinfo after : ThreadInfo}

/-- A slice in force leaves its position behind. -/
theorem Installed.sampleSlicesIdx {slice : Slice}
    (installed : Installed config monitor next slice) :
    0 ≤ monitor.sampleSlicesIdx ∧ monitor.sampleSlicesIdx < config.plan.numWaysToSample ∧
      next.sampleSlicesIdx = monitor.sampleSlicesIdx + 1 := by
  obtain ⟨nonneg, isSlice, msrs, currentlySampling, -, rfl⟩ := installed
  have inside := (List.getElem?_eq_some_iff.mp isSlice).1
  refine ⟨nonneg, ?_, rfl⟩
  rw [Plan.numWaysToSample]
  omega

theorem MonitorStep.within (step : MonitorStep config monitor tinfo next after)
    (within : monitor.Within config) : next.Within config := by
  cases step with
  | idles closed goesOn after saved => exact within
  | passes invokes opensNone read => exact within
  | opens opensRound read slice next installed =>
      intro _
      obtain ⟨nonneg, inside, isNext⟩ := installed.sampleSlicesIdx
      omega
  | waits samples read position next sampled stored noTurn => cases stored <;> exact within
  | advances collects read position more slice next installed =>
      intro _
      obtain ⟨nonneg, inside, isNext⟩ := installed.sampleSlicesIdx
      omega
  | finishes collects read all logged next isLogged ended estimated estimates =>
      intro _
      cases ended with
      | handedOver more => exact ⟨le_rfl, Int.natCast_nonneg _⟩
      | closed last msrs shared => exact ⟨le_rfl, Int.natCast_nonneg _⟩

/-- The turn is passed on by a phase that ends one, if there is another thread. -/
theorem MonitorStep.turnPassed_of_finishes (step : MonitorStep config monitor tinfo next after)
    (finishes : FinishesTurn config monitor tinfo)
    (more : monitor.thrIdxProfiledGlobal + 1 < config.numProfiledThreads) :
    next.turnPassed = true := by
  obtain ⟨collects, all⟩ := finishes
  rcases step.of_collects collects with ⟨notAll, -⟩ | ⟨-, ended, -⟩
  · exact absurd all notAll
  · cases ended with
    | handedOver more =>
        show (monitor.monitorStartFlag && true) = true
        rw [collects.1.1]
        rfl
    | closed last msrs shared => exact absurd more (Nat.not_lt.mpr last)

theorem MonitorStep.turnPassed_of_opens (step : MonitorStep config monitor tinfo next after)
    (opens : OpensRound config monitor tinfo) : next.turnPassed = false := by
  obtain ⟨slice, installed, -⟩ := step.of_opens opens
  have isNext : next.sampleSlicesIdx = 1 := installed.sampleSlicesIdx.2.2
  rw [Monitor.turnPassed, isNext]
  exact Bool.and_false _

/-- A round that has come to its first slice has not just been passed on. -/
theorem turnPassed_of_position (position : 1 ≤ monitor.sampleSlicesIdx) :
    monitor.turnPassed = false := by
  have notZero : monitor.sampleSlicesIdx ≠ 0 := by omega
  rw [Monitor.turnPassed, decide_eq_false notZero]
  exact Bool.and_false _

theorem MonitorStep.turnPassed_of_neither (step : MonitorStep config monitor tinfo next after)
    (staysOrCloses : ¬ (FinishesTurn config monitor tinfo ∧
      monitor.thrIdxProfiledGlobal + 1 < config.numProfiledThreads))
    (opensNone : ¬ OpensRound config monitor tinfo) : next.turnPassed = monitor.turnPassed := by
  cases step with
  | idles closed goesOn after saved => rfl
  | passes invokes _ read => rfl
  | opens opensRound read slice next installed => exact absurd opensRound opensNone
  | waits samples read position next sampled stored noTurn => cases stored <;> rfl
  | advances collects read position more slice next installed =>
      have isNext : next.sampleSlicesIdx = monitor.sampleSlicesIdx + 1 :=
        installed.sampleSlicesIdx.2.2
      have later : 1 ≤ next.sampleSlicesIdx := by omega
      rw [turnPassed_of_position position, turnPassed_of_position later]
  | finishes collects read all logged next isLogged ended estimated estimates =>
      have two : 2 ≤ config.plan.numWaysToSample := config.plan.twoSlices
      have position : 1 ≤ monitor.sampleSlicesIdx := by omega
      rw [turnPassed_of_position position]
      rw [isLogged] at ended
      cases ended with
      | handedOver more => exact absurd ⟨⟨collects, all⟩, more⟩ staysOrCloses
      | closed last msrs shared => rfl

theorem MonitorStep.sized (step : MonitorStep config monitor tinfo next after)
    (sized : Sized config tinfo) : Sized config after := by
  cases step with
  | idles closed goesOn after saved =>
      rcases saved with ⟨rfl, -⟩ | ⟨rfl, -⟩
      · exact sized.remembered
      · exact sized
  | passes invokes opensNone read => exact sized.remembered
  | opens opensRound read slice next installed => exact sized.remembered
  | waits samples read position next sampled stored noTurn =>
      exact (stored.sized sized).1.remembered
  | advances collects read position more slice next installed =>
      have stored : Collected config monitor tinfo _ _ := .collected collects.2.2
      exact (stored.sized sized).1.remembered
  | finishes collects read all logged next isLogged ended estimated estimates =>
      have stored : Collected config monitor tinfo _ _ := .collected collects.2.2
      have sampled := (stored.sized sized).1.remembered
      have mrcEstimates := estimates.mrcEstimates.trans sampled.mrcEstimates
      have ipcCurveEstimates := estimates.ipcCurveEstimates.trans sampled.ipcCurveEstimates
      obtain ⟨_, _, _, _, _, _, _, _, _, xPoints, yPointsIpc, yPointsMpki, rfl⟩ :=
        estimates.points
      exact ⟨xPoints.trans sampled.xPoints, yPointsIpc.trans sampled.yPointsIpc,
        yPointsMpki.trans sampled.yPointsMpki, mrcEstimates, ipcCurveEstimates⟩

/-- The end of a turn fills a column. -/
theorem MonitorStep.mrcEstIndex_of_finishes (step : MonitorStep config monitor tinfo next after)
    (finishes : FinishesTurn config monitor tinfo) :
    after.mrcEstIndex = tinfo.mrcEstIndex + 1 := by
  obtain ⟨collects, all⟩ := finishes
  rcases step.of_collects collects with ⟨notAll, -⟩ | ⟨-, -, estimates⟩
  · exact absurd all notAll
  · obtain ⟨_, _, _, _, _, _, _, _, _, -, -, -, rfl⟩ := estimates.points
    rfl

theorem MonitorStep.mrcEstIndex_of_not (step : MonitorStep config monitor tinfo next after)
    (goesOn : ¬ FinishesTurn config monitor tinfo) : after.mrcEstIndex = tinfo.mrcEstIndex := by
  cases step with
  | idles closed goesOn after saved => rcases saved with ⟨rfl, -⟩ | ⟨rfl, -⟩ <;> rfl
  | passes invokes opensNone read => rfl
  | opens opensRound read slice next installed => rfl
  | waits samples read position next sampled stored noTurn => cases stored <;> rfl
  | advances collects read position more slice next installed => rfl
  | finishes collects read all logged next isLogged ended estimated estimates =>
      exact absurd ⟨collects, all⟩ goesOn

end

/-! ## The counters that were saved -/

section

variable {config : Config} {signal : Signal} {tinfo next metered : ThreadInfo}
  {group : EventGroup} {reading : Reading}

theorem length_readValues (remaining i : ℕ) (cursor : Cursor) (values : List Word)
    (text : List Char) :
    (readValues remaining i cursor values text).2.2.1.length = values.length := by
  induction remaining generalizing i cursor values text with
  | zero => rfl
  | succ remaining ih =>
      rw [readValues]
      split
      · rfl
      · rw [ih]
        split
        · exact List.length_set
        · rfl

theorem length_resizeValues (values : List Word) :
    values.length ≤ (resizeValues values).length ∧ 3 ≤ (resizeValues values).length := by
  rw [resizeValues, List.length_append, List.length_replicate, numFixedEvents]
  omega

/-- No read forgets counters, and one that comes to the counters of a sample saves three. -/
theorem length_values_of_readRecord {outcomes : List Bool}
    (wasRead : readRecord group tinfo outcomes = .ok reading) :
    tinfo.values.length ≤ reading.values.length ∧
      (SavesCounters group.buf outcomes → 3 ≤ reading.values.length) := by
  obtain ⟨longer, three⟩ := length_resizeValues tinfo.values
  rw [readRecord] at wasRead
  split at wasRead
  · cases wasRead
  · rename_i ehdr cursor isHeader
    split at wasRead
    · rw [readSample] at wasRead
      split at wasRead
      · rename_i noInfo
        cases wasRead
        refine ⟨le_rfl, ?_⟩
        rintro ⟨header, rest, isBuf, -, enough, first, second⟩
        rw [isBuf, perfReadBuffer64, if_pos first] at isHeader
        cases isHeader
        rw [perfReadBuffer, if_pos ⟨second, enough⟩] at noInfo
        cases noInfo
      · dsimp only at wasRead
        split at wasRead
        · split at wasRead
          · cases wasRead
          · split at wasRead <;>
            · rename_i result
              have same := congrArg (fun loop => loop.2.2.1.length) result
              rw [length_readValues] at same
              cases wasRead
              exact ⟨same ▸ longer, fun _ => same ▸ three⟩
        · cases wasRead
    · rename_i notSample
      cases wasRead
      refine ⟨le_rfl, ?_⟩
      rintro ⟨header, rest, isBuf, isSample, -, first, -⟩
      rw [isBuf, perfReadBuffer64, if_pos first] at isHeader
      cases isHeader
      exact absurd isSample notSample

theorem ReadBy.length_values (readBy : ReadBy config signal tinfo next group metered reading) :
    tinfo.values.length ≤ next.values.length ∧
      (SavesCounters group.buf signal.readOutcomes → 3 ≤ next.values.length) := by
  obtain ⟨⟨total, last, occupancy, rfl⟩, -, wasRead, ends⟩ := readBy
  have lengths := length_values_of_readRecord wasRead
  split at ends
  · rcases switchGroup_cases ends with ⟨-, rfl⟩ | ⟨-, -, -, rfl⟩ <;> exact lengths
  · rw [ends]
    exact lengths

theorem SameSampling.sized (same : SameSampling tinfo next) (sized : Sized config tinfo) :
    Sized config next :=
  ⟨same.xPoints ▸ sized.xPoints, same.yPointsIpc ▸ sized.yPointsIpc,
    same.yPointsMpki ▸ sized.yPointsMpki, same.mrcEstimates ▸ sized.mrcEstimates,
    same.ipcCurveEstimates ▸ sized.ipcCurveEstimates⟩

end

/-! ## The invariant of a run -/

/-- What a profiled thread has from the past of its run: its counters, once a read of it saved
some, and one column for each turn that it ended. -/
structure Tracked (config : Config) (start : State) (early : List Event) (tid : ℤ)
    (tinfo : ThreadInfo) : Prop where
  sized : Sized config tinfo
  read : 0 < countSteps (systemStep config) (SavesAt tid) start early → 3 ≤ tinfo.values.length
  columns : tinfo.mrcEstIndex =
    countSteps (systemStep config) (FinishesAt config tid) start early

/-- What every run keeps about the indices. -/
structure Accounted (config : Config) (start : State) (early : List Event) (st : State) :
    Prop where
  reached : run (systemStep config) start early = .ok st
  unlogged : st.monitor.Unlogged
  within : st.monitor.Within config
  tracked : ∀ tid tinfo, st.Profiles tid tinfo → Tracked config start early tid tinfo

section

variable {config : Config} {start st next : State} {early : List Event} {words : List Word}
  {signal : Signal} {before : ThreadInfo} {group counted : EventGroup} {monitor : Monitor}
  {sampled after : ThreadInfo} {tid : ℤ} {tinfo : ThreadInfo}

theorem Served.groupOf
    (served : Served config st words signal before group counted monitor sampled after next) :
    st.groupOf signal.fd = some group := by
  rw [State.groupOf, served.isThread, Option.bind_some, served.isGroup]

theorem Served.turnPassed
    (served : Served config st words signal before group counted monitor sampled after next) :
    next.monitor.turnPassed = monitor.turnPassed := by
  obtain ⟨msrs, isMonitor, -⟩ := served.monitor
  rw [isMonitor]
  rfl

/-- The overflow changes nothing that a sample looks at. -/
theorem finishesAt_iff
    (served : Served config st words signal before group counted monitor sampled after next) :
    FinishesAt config (st.threadOf signal.fd) st (.phase words signal) ↔
      FinishesTurn config st.monitor (before.overflowed signal.fd counted words).enterPhase := by
  constructor
  · rintro ⟨-, tinfo, isPhase, finishes⟩
    cases served.phaseOf.symm.trans isPhase
    exact finishes
  · exact fun finishes => ⟨rfl, _, served.phaseOf, finishes⟩

/-- The thread of a signal stays tracked. -/
theorem Tracked.served (reached : run (systemStep config) start early = .ok st)
    (served : Served config st words signal before group counted monitor sampled after next)
    (tracked : Tracked config start early (st.threadOf signal.fd) before) :
    Tracked config start (early ++ [.phase words signal]) (st.threadOf signal.fd) after := by
  obtain ⟨metered, reading, readBy⟩ := served.readBy
  have monitored := served.monitored
  obtain ⟨longer, three⟩ := readBy.length_values
  have sameValues : sampled.values = before.values := monitored.sameReading.values
  rw [sameValues] at longer
  refine ⟨readBy.sameSampling.sized (monitored.sized tracked.sized.entered), fun someRead => ?_, ?_⟩
  · by_cases saves : SavesAt (st.threadOf signal.fd) st (.phase words signal)
    · obtain ⟨-, group', isGroup, saved⟩ := saves
      cases served.groupOf.symm.trans isGroup
      exact three saved
    · rw [countSteps_concat_of_not reached saves] at someRead
      exact (tracked.read someRead).trans longer
  · rw [readBy.sameSampling.mrcEstIndex]
    by_cases finishes : FinishesTurn config st.monitor
        (before.overflowed signal.fd counted words).enterPhase
    · rw [countSteps_concat_of reached ((finishesAt_iff served).mpr finishes),
        monitored.mrcEstIndex_of_finishes finishes, ← tracked.columns]
      rfl
    · rw [countSteps_concat_of_not reached fun ends => finishes ((finishesAt_iff served).mp ends),
        monitored.mrcEstIndex_of_not finishes, ← tracked.columns]
      rfl

/-- An event of another thread changes nothing about a thread. -/
theorem Tracked.other (reached : run (systemStep config) start early = .ok st) {event : Event}
    (savesNone : ¬ SavesAt tid st event) (finishesNone : ¬ FinishesAt config tid st event)
    (tracked : Tracked config start early tid tinfo) :
    Tracked config start (early ++ [event]) tid tinfo := by
  refine ⟨tracked.sized, ?_, ?_⟩
  · rw [countSteps_concat_of_not reached savesNone]
    exact tracked.read
  · rw [countSteps_concat_of_not reached finishesNone]
    exact tracked.columns

/-- Every event keeps the account. -/
theorem Accounted.systemStep {event : Event} (accounted : Accounted config start early st)
    (stepped : systemStep config st event = .ok next) :
    Accounted config start (early ++ [event]) next := by
  obtain ⟨reached, unlogged, within, tracked⟩ := accounted
  have longer := run_concat_eq_ok_iff.mpr ⟨st, reached, stepped⟩
  have stillUnlogged := unlogged_systemStep unlogged stepped
  cases event with
  | wait wait =>
      have waited := waitedBy_of_systemStep stepped
      refine ⟨longer, stillUnlogged, ?_, fun tid tinfo profiled => ?_⟩
      · rw [waited.monitor]
        exact within
      · exact Tracked.other reached id id (tracked tid tinfo (waited.profiles profiled))
  | phase words signal =>
      obtain ⟨before, group, counted, monitor, sampled, after, served⟩ :=
        served_of_systemStep unlogged stepped
      refine ⟨longer, stillUnlogged, ?_, fun tid tinfo profiled => ?_⟩
      · obtain ⟨msrs, isMonitor, -⟩ := served.monitor
        rw [isMonitor]
        exact served.monitored.within within
      · obtain ⟨isThread, isReal⟩ := profiled
        rw [served.tidMap] at isThread
        split at isThread
        · rename_i here
          cases isThread
          rw [here]
          exact Tracked.served reached served (tracked _ _ ⟨served.isThread, served.isReal⟩)
        · rename_i elsewhere
          exact Tracked.other reached (fun saves => elsewhere saves.1.symm)
            (fun finishes => elsewhere finishes.1.symm) (tracked tid tinfo ⟨isThread, isReal⟩)

/-- The mark of a turn that was passed on is a latch. -/
theorem latches_turnPassed (config : Config) :
    Latches (systemStep config) (fun st => st.monitor.Unlogged)
      (fun st => st.monitor.turnPassed) (HandsOverAt config) (OpensAt config) := by
  constructor
  · rintro st event next unlogged stepped ⟨tinfo, isPhase, finishes, more⟩
    obtain ⟨words, signal, before, group, counted, monitor, sampled, after, rfl, rfl, served⟩ :=
      served_of_phaseOf unlogged stepped isPhase
    exact served.turnPassed.trans (served.monitored.turnPassed_of_finishes finishes more)
  · rintro st event next unlogged stepped ⟨tinfo, isPhase, opens⟩
    obtain ⟨words, signal, before, group, counted, monitor, sampled, after, rfl, rfl, served⟩ :=
      served_of_phaseOf unlogged stepped isPhase
    exact served.turnPassed.trans (served.monitored.turnPassed_of_opens opens)
  · intro st event next unlogged stepped staysOrCloses opensNone
    cases event with
    | wait wait =>
        rw [monitor_of_wait stepped]
    | phase words signal =>
        obtain ⟨before, group, counted, monitor, sampled, after, served⟩ :=
          served_of_systemStep unlogged stepped
        apply served.turnPassed.trans
        apply served.monitored.turnPassed_of_neither
        · exact fun handsOver => staysOrCloses ⟨_, served.phaseOf, handsOver⟩
        · exact fun opens => opensNone ⟨_, served.phaseOf, opens⟩

end

/-! ## Every run -/

section

variable {library : Interpolation} {machine : Machine} {args : Args} {launch : Launch}
  {config : Config} {start : State}

theorem sized_of_isFresh {plan : Plan} {tid : ℤ} {tinfo : ThreadInfo}
    (fresh : IsFresh machine plan args tid tinfo) :
    Sized (configOf library machine plan args) tinfo := by
  obtain ⟨-, core, last, outfile, groups, isNew⟩ := fresh
  rw [isNew]
  exact ⟨List.length_replicate, List.length_replicate, List.length_replicate,
    List.length_replicate, List.length_replicate⟩

/-- The account is open at the start. -/
theorem accounted_of_main (started : main library machine args launch = .ok (config, start)) :
    Accounted config start [] start := by
  have launched := launched_of_main started
  obtain ⟨plan, -, rfl⟩ := launched.plan
  obtain ⟨msrs, globals⟩ := launched.globals
  refine ⟨rfl, ?_, ?_, fun tid tinfo profiled => ?_⟩
  · rw [globals]
    exact fun _ => rfl
  · rw [globals]
    exact nofun
  · have fresh := launched.isFresh profiled.1 profiled.2
    refine ⟨sized_of_isFresh fresh, fun someRead => absurd someRead (lt_irrefl 0), ?_⟩
    obtain ⟨-, core, last, outfile, groups, isNew⟩ := fresh
    rw [isNew]
    rfl

theorem accounted_of_run (started : main library machine args launch = .ok (config, start))
    {early : List Event} {st : State} (reached : run (systemStep config) start early = .ok st) :
    Accounted config start early st :=
  alongRun_of_preserved early (accounted_of_main started)
    (fun _ _ _ _ accounted stepped => accounted.systemStep stepped) early (List.prefix_refl _) st
    reached

/-- A phase that the past of the run has provided for has what its indices need. -/
theorem ready_of_phaseReady (started : main library machine args launch = .ok (config, start))
    {early : List Event} {st : State} (reached : run (systemStep config) start early = .ok st)
    {tid : ℤ} {tinfo : ThreadInfo} (profiled : st.Profiles tid tinfo)
    (ready : PhaseReady config start early st tid tinfo.enterPhase) :
    Ready config st.monitor tinfo.enterPhase := by
  obtain ⟨-, -, within, tracked⟩ := accounted_of_run started reached
  have onThread := tracked tid tinfo profiled
  refine ⟨fun needs => onThread.read (ready.read needs), fun samples => ?_,
    fun isOpen => (within isOpen).2, fun finishes => ?_⟩
  · have start_accounted := accounted_of_main started
    have start_reset : start.monitor.turnPassed = false := by
      obtain ⟨-, ⟨msrs, globals⟩, -⟩ := launched_of_main started
      rw [globals]
      rfl
    have notPassed := (latch_eq_false_iff (latches_turnPassed config) start_accounted.unlogged
      (fun _ _ _ => unlogged_systemStep) start_reset reached).mpr (ready.turn samples)
    rw [Monitor.turnPassed, samples.1, Bool.true_and, decide_eq_false_iff_not] at notPassed
    obtain ⟨lower, -⟩ := within samples.1
    omega
  · have columns : tinfo.enterPhase.mrcEstIndex = _ := onThread.columns
    rw [columns]
    exact ready.columns finishes

/-- In a run whose every phase is provided for by its past, no index of the handler is ever
out of range. -/
theorem indexSafe_along_of_eventReady
    (started : main library machine args launch = .ok (config, start)) (events : List Event)
    (ready : AtEachStep (systemStep config) start events
      fun early st event => EventReady config start early st event) :
    AtEachStep (systemStep config) start events fun _ st event => IndexSafe config st event := by
  intro early event isPrefix st reached
  apply indexSafe_of_ready
  rintro words signal tinfo rfl profiled
  have isPhase : st.phaseOf (.phase words signal) = some tinfo.enterPhase := by
    rw [State.phaseOf, profiled.1, Option.map_some]
  exact ⟨((accounted_of_run started reached).tracked _ _ profiled).sized,
    ready_of_phaseReady started reached profiled (ready early _ isPrefix st reached _ isPhase)⟩

end

/-! ## The first phase -/

/-- One thread whose first interval is a single phase. -/
def shortWarmup : Args := { threePhases with mrcWarmupPeriod := 20 }

/-- A phase of that thread. -/
def samplePhase : Event := .phase sampleWords (quietSignal 1000)

theorem exists_fault_shortWarmup :
    ∃ config start,
      main noInterpolation interleavedMachine shortWarmup quietLaunch = .ok (config, start) ∧
      systemStep config start samplePhase = .error (.fault (.outOfRange .values)) :=
  ⟨_, _, rfl, rfl⟩

/-- The first phase ends the first interval before any counter was read. -/
theorem short_warmup_leaves_range :
    ∃ config start,
      main noInterpolation interleavedMachine shortWarmup quietLaunch = .ok (config, start) ∧
      ¬ AtEachStep (systemStep config) start [samplePhase]
        fun _ st event => IndexSafe config st event := by
  obtain ⟨config, start, started, failed⟩ := exists_fault_shortWarmup
  refine ⟨config, start, started, fun safe => ?_⟩
  exact safe [] samplePhase (List.prefix_refl _) start rfl _ failed trivial

/-! ## One thread -/

section

variable {library : Interpolation} {machine : Machine} {args : Args} {launch : Launch}
  {config : Config} {start : State}

/-- One profiled thread is provided for in a run of few phases that begins with a read of its
counters: no turn is passed on, and each column is filled once. -/
theorem eventReady_of_lone (started : main library machine args launch = .ok (config, start))
    (lone : config.numProfiledThreads ≤ 1) {first : Event} {later : List Event} {fd : ℤ}
    (few : later.length < estimateColumns)
    (sameFd : ∀ words signal, .phase words signal ∈ first :: later → signal.fd = fd)
    (saves : SavesAt (start.threadOf fd) start first)
    (needsNot : ∀ tinfo, start.phaseOf first = some tinfo →
      ¬ NeedsValues config start.monitor tinfo) :
    AtEachStep (systemStep config) start (first :: later)
      fun early st event => EventReady config start early st event := by
  have kept : AlongRun (systemStep config) start (first :: later) fun _ st =>
      st.monitor.Unlogged ∧ st.fdMap = start.fdMap :=
    alongRun_of_preserved _ ⟨(accounted_of_main started).unlogged, rfl⟩
      fun _ _ _ _ both stepped => ⟨unlogged_systemStep both.1 stepped,
        (fdMap_systemStep both.1 stepped).trans both.2⟩
  intro early event isPrefix st reached
  have shorter : early <+: first :: later := (List.prefix_append early [event]).trans isPrefix
  have short : early.length < estimateColumns := by
    have length := isPrefix.length_le
    rw [List.length_append, List.length_singleton, List.length_cons] at length
    omega
  cases event with
  | wait wait => trivial
  | phase words signal =>
      intro tinfo isPhase
      have isFd : signal.fd = fd :=
        sameFd words signal (isPrefix.subset (List.mem_append_right early List.mem_cons_self))
      have sameThread : st.threadOf signal.fd = start.threadOf fd := by
        rw [isFd, State.threadOf, State.threadOf, (kept early shorter st reached).2]
      refine ⟨fun needs => ?_, fun _ => ?_, fun _ => ?_⟩
      · rw [sameThread]
        cases early with
        | nil =>
            cases reached
            obtain ⟨rest, isCons⟩ := isPrefix
            cases isCons
            exact absurd needs (needsNot tinfo isPhase)
        | cons input rest =>
            obtain ⟨isFirst, -⟩ := List.cons_prefix_cons.mp shorter
            subst isFirst
            exact countSteps_pos_of_head saves
      · rintro _ _ _ - _ _ - - ⟨_, -, -, another⟩
        omega
      · exact (countSteps_le_length _ _).trans_lt short

end

/-! ## Two rounds -/

/-- The value of a number. -/
def finiteValue : ERat → ℚ
  | .num q => q
  | _ => 0

/-- A library that interpolates linearly. -/
def linearInterpolation : Interpolation where
  interp1 := fun xs ys xi => some (xi.map fun x =>
    (piecewiseLinear ((xs.map finiteValue).zip (ys.map finiteValue)) (finiteValue x)).elim
      .nan .num)
  interp1_length := by
    rintro xs ys xi yi ⟨⟩
    exact List.length_map _

theorem toOption_eq_some_iff {ε α : Type} {result : Except ε α} {value : α} :
    result.toOption = some value ↔ result = .ok value := by
  cases result <;> simp [Except.toOption]

/-- The end of a phase of a thousand instructions that takes more cycles than the phase before and
misses more often. -/
def slowingPhase (k : ℕ) : Event :=
  .phase [BitVec.ofNat 64 (9 + 72 * 2 ^ 48), 0, 0, 3, 0, 0, 0, BitVec.ofNat 64 (1000 * k),
    BitVec.ofNat 64 (1000 * k ^ 2)]
    { quietSignal 1000 with
      trafficFirst := fun _ _ => BitVec.ofNat 64 (64 * k ^ 2)
      trafficSecond := fun _ _ => BitVec.ofNat 64 (64 * k ^ 2) }

/-- So many such phases. -/
def slowingPhases (count : ℕ) : List Event := (List.range count).map fun i => slowingPhase (i + 1)

/-- One thread for twenty phases, with a sampling round after the second one and after the tenth
one. -/
def twoRounds : Args := { threePhases with numPhases := 20, mrcProfilePeriod := 200 }

/-- The number of columns of the thread after a run. -/
def filledColumns (args : Args) (events : List Event) : Option (Bool × ℕ) := do
  let (config, start) ← (main linearInterpolation interleavedMachine args quietLaunch).toOption
  let last ← (run (systemStep config) start events).toOption
  let tinfo ← last.tidMap.get? 100
  return (tinfo.isDummyThread, tinfo.mrcEstIndex)

theorem filledColumns_twoRounds : filledColumns twoRounds (slowingPhases 18) = some (false, 2) := by
  decide +kernel

theorem exists_run_twoRounds :
    ∃ config start first group,
      main linearInterpolation interleavedMachine twoRounds quietLaunch = .ok (config, start) ∧
      config.numProfiledThreads = 1 ∧ start.groupOf 1000 = some group ∧ group.buf = [] ∧
      start.phaseOf (slowingPhase 1) = some first ∧ start.monitor.monitorStartFlag = false ∧
      first.phases = 1 ∧ start.monitor.mrcInvokeMonitorLen = 2 :=
  ⟨_, _, _, _, rfl, rfl, rfl, rfl, rfl, rfl, rfl, rfl⟩

/-- Two rounds, with a turn of the thread in each. -/
theorem twoRounds_indexSafe :
    filledColumns twoRounds (slowingPhases 18) = some (false, 2) ∧ ∃ config start,
      main linearInterpolation interleavedMachine twoRounds quietLaunch = .ok (config, start) ∧
      AtEachStep (systemStep config) start (slowingPhases 18)
        fun _ st event => IndexSafe config st event := by
  obtain ⟨config, start, first, group, started, lone, isGroup, isEmpty, isFirst, closed, onePhase,
    twoPhases⟩ := exists_run_twoRounds
  have saves : SavesAt (start.threadOf 1000) start (slowingPhase 1) := by
    refine ⟨rfl, group, isGroup, ?_⟩
    rw [isEmpty]
    exact ⟨_, _, rfl, rfl, by decide, rfl, rfl⟩
  refine ⟨filledColumns_twoRounds, config, start, started, indexSafe_along_of_eventReady started _
    (eventReady_of_lone started lone.le (by decide) ?_ saves ?_)⟩
  · intro words signal isMember
    have listed : .phase words signal ∈ slowingPhases 18 := isMember
    rw [slowingPhases] at listed
    obtain ⟨i, -, same⟩ := List.mem_map.mp listed
    cases same
    rfl
  · rintro tinfo isPhase (isOpen | late | invokes)
    · rw [closed] at isOpen
      cases isOpen
    · cases isFirst.symm.trans isPhase
      rw [onePhase] at late
      exact absurd late (lt_irrefl 1)
    · cases isFirst.symm.trans isPhase
      rw [InvokesMonitor, onePhase, twoPhases] at invokes
      exact absurd invokes.1 (by decide)

end Datamime.Profiler
