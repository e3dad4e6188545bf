/-
# Refreshing the event groups

Outside of the miss-curve mode a group is armed for one turn of ten phases, and the read
of the tenth arms the next group. The budget is kept by the kernel, the phases of the turn
are counted by the handler, and together they always make up one turn, as long as every
turn ends with a complete read. A read that ends early on the tenth phase leaves no group
armed: the thread is never signalled again.
-/

import Datamime.Profiler.HandlerCases
import Datamime.Profiler.Main

namespace Datamime.Profiler

open Datamime.Math Datamime.Hardware

/-! ## Complete reads -/

/-- The counters that the reader expects in a sample of a group. -/
def EventGroup.counters (group : EventGroup) : ℕ := (BitVec.ofNat 64 group.numEvents).toNat

/-- The record at the front of a buffer is a sample, and all reads of it succeed. -/
def CompleteRead (group : EventGroup) (outcomes : List Bool) : Prop :=
  ∃ header body, group.buf = header :: body ∧ headerType header = PERF_RECORD_SAMPLE ∧
    infoWords + group.counters ≤ body.length ∧ AllSucceed outcomes (2 + group.counters)

/-- The loop over the counters comes to its end if the words are there and all reads succeed. -/
theorem readValues_complete_iff (remaining i : ℕ) (cursor : Cursor) (values : List Word)
    (text : List Char) :
    (readValues remaining i cursor values text).1 = true ↔
      remaining ≤ cursor.buf.length ∧ AllSucceed cursor.outcomes remaining := by
  induction remaining generalizing i cursor values text with
  | zero => simp [readValues, AllSucceed]
  | succ remaining ih =>
      obtain ⟨buf, outcomes⟩ := cursor
      rw [readValues, allSucceed_succ]
      cases buf with
      | nil => simp [perfReadBuffer64]
      | cons word rest =>
          rw [perfReadBuffer64]
          by_cases succeeds : outcomes.headD true = true
          · rw [if_pos succeeds]
            refine (ih _ _ _ _).trans ?_
            rw [List.length_cons, Nat.add_le_add_iff_right]
            exact and_congr_right fun _ => (and_iff_right succeeds).symm
          · rw [if_neg succeeds]
            exact iff_of_false (by simp) fun all => succeeds all.2.1

theorem readSample_complete_iff {group : EventGroup} {tinfo : ThreadInfo} {header : Word}
    {cursor : Cursor} {reading : Reading}
    (wasRead : readSample group tinfo header cursor = .ok reading) :
    reading.exit = .complete ↔
      infoWords + group.counters ≤ cursor.buf.length ∧
        AllSucceed cursor.outcomes (1 + group.counters) := by
  obtain ⟨buf, outcomes⟩ := cursor
  rw [readSample, perfReadBuffer] at wasRead
  rw [Nat.add_comm 1, allSucceed_succ]
  dsimp only at wasRead ⊢
  by_cases info : outcomes.headD true = true ∧ infoWords ≤ buf.length
  · rw [if_pos info] at wasRead
    dsimp only at wasRead
    split at wasRead
    · rename_i nr
      split at wasRead
      · cases wasRead
      have loop := readValues_complete_iff group.counters 0 ⟨buf.drop infoWords, outcomes.tail⟩
        (resizeValues tinfo.values) (Text.spaced ((lineHead group tinfo
          (SampleInfo.ofWords (buf.take infoWords))).map Text.ofInt))
      have enough : infoWords + group.counters ≤ buf.length ↔
          group.counters ≤ (buf.drop infoWords).length := by
        rw [List.length_drop]
        omega
      rw [enough, and_left_comm, and_iff_right info.1, ← loop]
      rw [nr] at wasRead
      split at wasRead
      · rename_i isPartial
        cases wasRead
        rw [EventGroup.counters, isPartial]
        simp
      · rename_i isComplete
        cases wasRead
        rw [EventGroup.counters, isComplete]
        simp
    · cases wasRead
  · rw [if_neg info] at wasRead
    cases wasRead
    refine iff_of_false (by simp) fun all => info ⟨all.2.1, ?_⟩
    exact le_trans (Nat.le_add_right _ _) all.1

/-- A read that returns is complete precisely if nothing made it end early. -/
theorem readRecord_complete_iff {group : EventGroup} {tinfo : ThreadInfo} {outcomes : List Bool}
    {reading : Reading} (wasRead : readRecord group tinfo outcomes = .ok reading) :
    reading.exit = .complete ↔ CompleteRead group outcomes := by
  rw [readRecord] at wasRead
  cases isBuf : group.buf with
  | nil =>
      rw [isBuf] at wasRead
      cases wasRead
  | cons header body =>
      rw [isBuf, perfReadBuffer64] at wasRead
      by_cases headerReads : outcomes.headD true = true
      · rw [if_pos headerReads] at wasRead
        dsimp only at wasRead
        have shape : CompleteRead group outcomes ↔ headerType header = PERF_RECORD_SAMPLE ∧
            infoWords + group.counters ≤ body.length ∧
              AllSucceed outcomes.tail (1 + group.counters) := by
          have count : 2 + group.counters = (1 + group.counters) + 1 := by omega
          rw [CompleteRead, count]
          constructor
          · rintro ⟨_, _, equal, isSample, long, succeed⟩
            rw [isBuf] at equal
            cases equal
            exact ⟨isSample, long, (allSucceed_succ.mp succeed).2⟩
          · rintro ⟨isSample, long, succeed⟩
            exact ⟨header, body, isBuf, isSample, long, allSucceed_succ.mpr ⟨headerReads, succeed⟩⟩
        rw [shape]
        by_cases isSample : headerType header = PERF_RECORD_SAMPLE
        · rw [if_pos isSample] at wasRead
          rw [readSample_complete_iff wasRead, and_iff_right isSample]
        · rw [if_neg isSample] at wasRead
          cases wasRead
          exact iff_of_false (by simp) fun all => isSample all.1
      · rw [if_neg headerReads] at wasRead
        cases wasRead

/-! ## Budgets -/

/-- Exactly one group of the thread has a budget left, and with the phases of the current turn
it makes up one turn. -/
def ThreadInfo.Armed (tinfo : ThreadInfo) : Prop :=
  ∃ fd group budget, tinfo.eventGroups.get? fd = some group ∧
    group.refreshBudget = some budget ∧ 0 < budget ∧
    budget + tinfo.phasesWithCurrentGroup = PHASES_BETWEEN_SWITCHES ∧
    ∀ other otherGroup, other ≠ fd → tinfo.eventGroups.get? other = some otherGroup →
      otherGroup.refreshBudget = some 0

/-- No group of the thread has a budget left. -/
def ThreadInfo.Spent (tinfo : ThreadInfo) : Prop :=
  ∀ fd group, tinfo.eventGroups.get? fd = some group → group.refreshBudget = some 0

theorem ThreadInfo.Spent.not_armed {tinfo : ThreadInfo} (spent : tinfo.Spent) : ¬ tinfo.Armed := by
  rintro ⟨fd, group, budget, isGroup, isBudget, positive, -, -⟩
  rw [spent fd group isGroup] at isBudget
  cases isBudget
  exact absurd positive (Nat.lt_irrefl 0)

/-- An armed thread can be signalled again. -/
theorem ThreadInfo.Armed.overflows {tinfo : ThreadInfo} (armed : tinfo.Armed) :
    ∃ fd group, tinfo.eventGroups.get? fd = some group ∧ group.overflow ≠ none := by
  obtain ⟨fd, group, budget, isGroup, isBudget, positive, -, -⟩ := armed
  refine ⟨fd, group, isGroup, ?_⟩
  obtain ⟨rest, rfl⟩ := Nat.exists_eq_succ_of_ne_zero positive.ne'
  rw [EventGroup.overflow, isBudget]
  exact Option.some_ne_none _

/-- Arming one group of a thread without a budget starts a turn. -/
theorem armed_of_refresh {tinfo : ThreadInfo} (spent : tinfo.Spent) {fd : ℤ} {group : EventGroup}
    (isGroup : tinfo.eventGroups.get? fd = some group) :
    ThreadInfo.Armed { tinfo with
      phasesWithCurrentGroup := 0
      eventGroups := tinfo.eventGroups.insert fd (group.refresh PHASES_BETWEEN_SWITCHES) } := by
  refine ⟨fd, group.refresh PHASES_BETWEEN_SWITCHES, PHASES_BETWEEN_SWITCHES,
    Dict.get?_insert_self _ _ _, ?_, by decide, rfl, ?_⟩
  · rw [EventGroup.refresh, spent fd group isGroup]
    rfl
  · intro other otherGroup different isOther
    rw [Dict.get?_insert_of_ne _ different] at isOther
    exact spent other otherGroup isOther

/-! ## One signal -/

section

variable {config : Config} {st next : State}

/-- In this state the signal ends the run. -/
def EndsRun (config : Config) (tinfo : ThreadInfo) : Prop :=
  tinfo.tidx = 0 ∧ config.numPhases ≤ tinfo.phases + 1

/-- A turn is refreshed in time: on its last phase all of the sample is read. At the end of the
run nothing has to be refreshed any more. -/
def RefreshesInTime (config : Config) (st : State) : Event → Prop
  | .wait _ => True
  | .phase words signal =>
      ∀ tinfo group, st.tidMap.get? (st.threadOf signal.fd) = some tinfo →
        tinfo.eventGroups.get? signal.fd = some group →
        tinfo.phasesWithCurrentGroup + 1 = PHASES_BETWEEN_SWITCHES →
        CompleteRead { group with buf := group.buf ++ words } signal.readOutcomes ∨
          EndsRun config tinfo ∨ st.done = true

/-- As long as the run is not done, every profiled thread is armed, and so can be signalled. -/
def State.TurnsGoOn (st : State) : Prop :=
  st.done = true ∨ ∀ tid tinfo, st.tidMap.get? tid = some tinfo → tinfo.isDummyThread = false →
    tinfo.Armed ∧ ∃ fd group, tinfo.eventGroups.get? fd = some group ∧ group.overflow ≠ none

/-- A thread between the read of its group and the switch of groups. -/
structure ReadOut (before read : ThreadInfo) (fd : ℤ) (budget : ℕ) : Prop where
  tidx : read.tidx = before.tidx
  isDummyThread : read.isDummyThread = before.isDummyThread
  phases : read.phases = before.phases + 1
  turn : read.phasesWithCurrentGroup = before.phasesWithCurrentGroup + 1
  own : ∃ group, read.eventGroups.get? fd = some group ∧ group.refreshBudget = some budget
  others : ∀ other, other ≠ fd → read.eventGroups.get? other = before.eventGroups.get? other

/-- Before the last phase of a turn the group stays armed. -/
theorem ReadOut.armed {before read : ThreadInfo} {fd : ℤ} {budget : ℕ}
    (readOut : ReadOut before read fd budget)
    (spent : ∀ other otherGroup, other ≠ fd → before.eventGroups.get? other = some otherGroup →
      otherGroup.refreshBudget = some 0)
    (positive : 0 < budget)
    (turn : budget + 1 + before.phasesWithCurrentGroup = PHASES_BETWEEN_SWITCHES) :
    read.Armed := by
  obtain ⟨group, isGroup, isBudget⟩ := readOut.own
  refine ⟨fd, group, budget, isGroup, isBudget, positive, ?_, fun other otherGroup different => ?_⟩
  · rw [readOut.turn]
    omega
  · rw [readOut.others other different]
    exact spent other otherGroup different

/-- On the last phase of a turn no budget is left. -/
theorem ReadOut.spent {before read : ThreadInfo} {fd : ℤ} (readOut : ReadOut before read fd 0)
    (spent : ∀ other otherGroup, other ≠ fd → before.eventGroups.get? other = some otherGroup →
      otherGroup.refreshBudget = some 0) : read.Spent := by
  intro other otherGroup isOther
  by_cases here : other = fd
  · subst here
    obtain ⟨group, isGroup, isBudget⟩ := readOut.own
    rw [isGroup] at isOther
    cases isOther
    exact isBudget
  · rw [readOut.others other here] at isOther
    exact spent other otherGroup here isOther

/-- A signal of an armed thread counts its budget down. Then a complete read on the last phase
of the turn arms the next group, and any other read leaves the groups alone. -/
theorem Served.readOut {words : List Word} {signal : Signal} {before : ThreadInfo}
    {group counted : EventGroup} {monitor : Monitor} {sampled after : ThreadInfo}
    (nonMrc : config.mrcEstMode = false)
    (served : Served config st words signal before group counted monitor sampled after next)
    {budget : ℕ} (isBudget : group.refreshBudget = some (budget + 1)) :
    ∃ read, ReadOut before read signal.fd budget ∧
      ((CompleteRead { group with buf := group.buf ++ words } signal.readOutcomes ∧
          PHASES_BETWEEN_SWITCHES ≤ read.phasesWithCurrentGroup ∧
          ∃ fd nextGroup, read.eventGroups.get? fd = some nextGroup ∧
            after = { read with
              phasesWithCurrentGroup := 0
              eventGroups := read.eventGroups.insert fd
                (nextGroup.refresh PHASES_BETWEEN_SWITCHES) }) ∨
        (¬ (CompleteRead { group with buf := group.buf ++ words } signal.readOutcomes ∧
          PHASES_BETWEEN_SWITCHES ≤ read.phasesWithCurrentGroup) ∧ after = read)) := by
  have isCounted := served.isCounted
  rw [EventGroup.overflow, isBudget] at isCounted
  cases isCounted
  obtain ⟨metered, reading, readBy⟩ := served.readBy
  have same := served.monitored.sameReading
  have complete := readRecord_complete_iff readBy.wasRead
  have ends := readBy.ends
  obtain ⟨total, last, occupancy, rfl⟩ := readBy.isMetered
  refine ⟨(sampled.metered total last occupancy).afterReading signal.fd
      { group with refreshBudget := some budget, buf := group.buf ++ words } reading,
    ⟨same.tidx, same.isDummyThread, same.phases, same.phasesWithCurrentGroup,
      ⟨_, Dict.get?_insert_self _ _ _, rfl⟩, fun other different => ?_⟩, ?_⟩
  · refine (Dict.get?_insert_of_ne _ different _).trans ?_
    show sampled.eventGroups.get? other = _
    rw [same.eventGroups]
    exact Dict.get?_insert_of_ne _ different _
  · split at ends
    · rename_i isComplete
      rw [nonMrc] at ends
      rcases switchGroup_cases ends with
        ⟨noSwitch, isAfter⟩ | ⟨turnEnds, nextGroup, isNext, isAfter⟩
      · exact .inr ⟨fun both => noSwitch ⟨both.2, rfl⟩, isAfter⟩
      · exact .inl ⟨complete.mp isComplete, turnEnds.1, _, nextGroup, isNext, isAfter⟩
    · rename_i isPartial
      exact .inr ⟨fun both => isPartial (complete.mpr both.1), ends⟩

/-- Whether the turns go on after a signal is decided by its thread. -/
theorem Served.turnsGoOn_iff {words : List Word} {signal : Signal} {before : ThreadInfo}
    {group counted : EventGroup} {monitor : Monitor} {sampled after : ThreadInfo}
    (served : Served config st words signal before group counted monitor sampled after next)
    (isReal : after.isDummyThread = false)
    (armed : ∀ tid tinfo, st.tidMap.get? tid = some tinfo → tinfo.isDummyThread = false →
      tinfo.Armed ∧ ∃ fd group, tinfo.eventGroups.get? fd = some group ∧ group.overflow ≠ none) :
    next.TurnsGoOn ↔ next.done = true ∨ after.Armed := by
  refine or_congr_right ⟨fun all => (all (st.threadOf signal.fd) after ?_ isReal).1,
    fun afterArmed => ?_⟩
  · rw [served.tidMap, if_pos rfl]
  · intro tid tinfo isThread isRealThread
    rw [served.tidMap] at isThread
    split at isThread
    · cases isThread
      exact ⟨afterArmed, afterArmed.overflows⟩
    · exact armed tid tinfo isThread isRealThread

/-- An armed thread is signalled by the one group that has a budget left. -/
theorem ThreadInfo.Armed.signalled {tinfo : ThreadInfo} (armed : tinfo.Armed) {fd : ℤ}
    {group counted : EventGroup} (isGroup : tinfo.eventGroups.get? fd = some group)
    (isCounted : group.overflow = some counted) :
    ∃ budget, group.refreshBudget = some (budget + 1) ∧
      budget + 1 + tinfo.phasesWithCurrentGroup = PHASES_BETWEEN_SWITCHES ∧
      ∀ other otherGroup, other ≠ fd → tinfo.eventGroups.get? other = some otherGroup →
        otherGroup.refreshBudget = some 0 := by
  obtain ⟨own, ownGroup, budget, isOwn, isBudget, positive, turn, spent⟩ := armed
  have here : fd = own := by
    by_contra different
    rw [EventGroup.overflow, spent fd group different isGroup] at isCounted
    cases isCounted
  subst here
  obtain rfl := Option.some.inj (isOwn.symm.trans isGroup)
  obtain ⟨rest, rfl⟩ := Nat.exists_eq_succ_of_ne_zero positive.ne'
  exact ⟨rest, isBudget, turn, spent⟩

/-- Every event keeps the turns going, except a signal that ends a turn without a refresh. -/
theorem turnsGoOn_step (nonMrc : config.mrcEstMode = false) (unlogged : st.monitor.Unlogged)
    (goesOn : st.TurnsGoOn) {event : Event} (stepped : systemStep config st event = .ok next) :
    next.TurnsGoOn ↔ RefreshesInTime config st event := by
  cases event with
  | wait wait =>
      have waited := waitedBy_of_systemStep stepped
      refine iff_of_true ?_ trivial
      rcases goesOn with done | armed
      · exact .inl (waited.done.trans done)
      · exact .inr fun tid tinfo isThread isReal =>
          armed tid tinfo (waited.isThread isThread) isReal
  | phase words signal =>
      obtain ⟨before, group, counted, monitor, sampled, after, served⟩ :=
        served_of_systemStep unlogged stepped
      rcases goesOn with done | armed
      · exact iff_of_true (.inl (served.done.mpr (.inl done))) fun _ _ _ _ _ => .inr (.inr done)
      have ownArmed := (armed _ before served.isThread served.isReal).1
      obtain ⟨budget, isBudget, turn, spent⟩ :=
        ownArmed.signalled served.isGroup served.isCounted
      obtain ⟨read, readOut, result⟩ := served.readOut nonMrc isBudget
      have isReal : read.isDummyThread = false := readOut.isDummyThread.trans served.isReal
      have readTurn := readOut.turn
      have inTime : RefreshesInTime config st (.phase words signal) ↔
          (before.phasesWithCurrentGroup + 1 = PHASES_BETWEEN_SWITCHES →
            CompleteRead { group with buf := group.buf ++ words } signal.readOutcomes ∨
              EndsRun config before ∨ st.done = true) := by
        constructor
        · exact fun all => all before group served.isThread served.isGroup
        · intro own tinfo other isThread isOther
          obtain rfl := Option.some.inj (served.isThread.symm.trans isThread)
          obtain rfl := Option.some.inj (served.isGroup.symm.trans isOther)
          exact own
      rw [inTime]
      rcases result with ⟨complete, turnEnds, fd, nextGroup, isNext, rfl⟩ | ⟨noSwitch, rfl⟩
      · have isLast : budget = 0 := by omega
        subst isLast
        rw [served.turnsGoOn_iff isReal armed]
        exact iff_of_true (.inr (armed_of_refresh (readOut.spent spent) isNext))
          fun _ => .inl complete
      · rw [served.turnsGoOn_iff isReal armed]
        rcases Nat.eq_zero_or_pos budget with rfl | positive
        · have turnEnds : before.phasesWithCurrentGroup + 1 = PHASES_BETWEEN_SWITCHES := by omega
          have notComplete : ¬ CompleteRead { group with buf := group.buf ++ words }
              signal.readOutcomes := fun complete => noSwitch ⟨complete, by omega⟩
          rw [or_iff_left (readOut.spent spent).not_armed, served.done, readOut.tidx,
            readOut.phases, or_comm]
          exact ⟨fun ends _ => .inr ends, fun ends => (ends turnEnds).resolve_left notComplete⟩
        · exact iff_of_true (.inr (readOut.armed spent positive turn)) fun turnEnds => by omega

end

/-! ## The first turn -/

/-- New groups have no budget. -/
theorem EventGroup.refreshBudget_new {kernel : Kernel} {tid : ℤ} {opened rest : List (Option ℤ)}
    {group : EventGroup} (isNew : EventGroup.new kernel tid opened = .ok (group, rest)) :
    group.refreshBudget = some 0 := by
  unfold EventGroup.new at isNew
  split at isNew
  · obtain ⟨⟨events, left⟩, -, isNew⟩ := bind_eq_ok_iff.mp isNew
    dsimp only at isNew
    split at isNew
    · cases isNew
    · cases isNew
      rfl
  · cases isNew

theorem EventGroup.refreshBudget_addEvent {group grown : EventGroup} {name : List Char}
    {opened rest : List (Option ℤ)} (added : group.addEvent name opened = (some grown, rest)) :
    grown.refreshBudget = group.refreshBudget := by
  obtain ⟨fd, -, -, rfl⟩ := addEvent_eq_some added
  rfl

/-- No group of a map has a budget. -/
def AllSpent (groups : Dict ℤ EventGroup) : Prop :=
  ∀ fd group, groups.get? fd = some group → group.refreshBudget = some 0

theorem AllSpent.insert {groups : Dict ℤ EventGroup} (spent : AllSpent groups) {fd : ℤ}
    {group : EventGroup} (isSpent : group.refreshBudget = some 0) :
    AllSpent (groups.insert fd group) := by
  intro other otherGroup isOther
  rw [Dict.get?_insert] at isOther
  split at isOther
  · cases isOther
    exact isSpent
  · exact spent other otherGroup isOther

theorem allSpent_addRotating {kernel : Kernel} {tid : ℤ} {names : List (List Char)}
    {current : EventGroup} {groups created : Dict ℤ EventGroup} {opened : List (Option ℤ)}
    (currentSpent : current.refreshBudget = some 0) (spent : AllSpent groups)
    (added : addRotating kernel tid names current groups opened = .ok created) :
    AllSpent created := by
  induction names generalizing current groups opened with
  | nil =>
      cases added
      exact spent
  | cons name names ih =>
      rw [addRotating] at added
      split at added
      · rename_i grown rest isGrown
        have grownSpent := (EventGroup.refreshBudget_addEvent isGrown).trans currentSpent
        exact ih grownSpent (spent.insert grownSpent) added
      · obtain ⟨⟨fresh, left⟩, isFresh, added⟩ := bind_eq_ok_iff.mp added
        dsimp only at added
        split at added
        · cases added
        split at added
        · rename_i grown rest isGrown
          have grownSpent := (EventGroup.refreshBudget_addEvent isGrown).trans
            (EventGroup.refreshBudget_new isFresh)
          exact ih grownSpent (spent.insert grownSpent) added
        · cases added

/-- The creation of its groups arms a thread for its first turn. -/
theorem CreatedBy.armed_result {kernel : Kernel} {args : Args} {tinfo next : ThreadInfo}
    {groups : Dict ℤ EventGroup} {firstFd : ℤ} {group : EventGroup}
    (created : CreatedBy kernel args tinfo next groups firstFd group)
    (nonMrc : args.mrcEstMode = false) (noGroups : tinfo.eventGroups = Dict.empty)
    (noPhases : tinfo.phasesWithCurrentGroup = 0) : next.Armed := by
  obtain ⟨⟨first, opened, isNew, added⟩, ⟨rest, entries⟩, result⟩ := created
  have firstSpent := EventGroup.refreshBudget_new isNew
  rw [noGroups] at added
  have emptySpent : AllSpent Dict.empty := fun _ _ absent => by cases absent
  have spent : AllSpent (kernel.arrange groups) := by
    intro fd other isOther
    rw [kernel.arrange_get?] at isOther
    exact allSpent_addRotating firstSpent (emptySpent.insert firstSpent) added fd other isOther
  have isFirst : (kernel.arrange groups).get? firstFd = some group := by
    rw [← Dict.mem_entries_iff, entries]
    exact List.mem_cons_self
  have activated : group.activate args.mrcEstMode = group.refresh PHASES_BETWEEN_SWITCHES := by
    rw [nonMrc]
    rfl
  let arranged : ThreadInfo := { tinfo with eventGroups := kernel.arrange groups }
  have arrangedSpent : arranged.Spent := spent
  obtain ⟨fd, armed, budget, isArmed, isBudget, positive, turn, others⟩ :=
    armed_of_refresh arrangedSpent isFirst
  rw [result, activated]
  refine ⟨fd, armed, budget, isArmed, isBudget, positive, ?_, others⟩
  show budget + tinfo.phasesWithCurrentGroup = _
  rw [noPhases]
  exact turn

/-- A thread that has no groups yet and is in no turn. -/
def ThreadInfo.Groupless (tinfo : ThreadInfo) : Prop :=
  tinfo.eventGroups = Dict.empty ∧ tinfo.phasesWithCurrentGroup = 0

/-- Creating the groups of different threads arms each of them once. -/
theorem armed_of_createAllGroups {kernel : ℤ → Kernel} {args : Args}
    (nonMrc : args.mrcEstMode = false) {tids : List ℤ} (distinct : tids.Nodup)
    {st ready : Dict ℤ ThreadInfo × Dict ℤ ℤ}
    (groupless : ∀ tid ∈ tids, ∀ tinfo, st.1.get? tid = some tinfo →
      tinfo.isDummyThread = false → tinfo.Groupless)
    (armed : ∀ tid ∉ tids, ∀ tinfo, st.1.get? tid = some tinfo → tinfo.isDummyThread = false →
      tinfo.Armed)
    (created : createAllGroups kernel args tids st = .ok ready) {tid : ℤ} {tinfo : ThreadInfo}
    (isThread : ready.1.get? tid = some tinfo) (isReal : tinfo.isDummyThread = false) :
    tinfo.Armed := by
  induction tids generalizing st with
  | nil =>
      cases created
      exact armed tid List.not_mem_nil tinfo isThread isReal
  | cons first tids ih =>
      obtain ⟨tidMap, fdMap⟩ := st
      rw [List.nodup_cons] at distinct
      rw [createAllGroups] at created
      cases isFirst : tidMap.get? first with
      | none =>
          rw [isFirst] at created
          cases created
      | some record =>
          rw [isFirst] at created
          obtain ⟨⟨next, nextFdMap⟩, atNext, created⟩ := bind_eq_ok_iff.mp created
          obtain ⟨groups, firstFd, group, createdBy⟩ := createdBy_of_createEventGroups atNext
          refine ih distinct.2 (fun other isLater tinfo listed => ?_)
            (fun other notLater tinfo listed isReal => ?_) created
          · have different : other ≠ first := fun here => distinct.1 (here ▸ isLater)
            rw [Dict.get?_insert_of_ne _ different] at listed
            exact groupless other (List.mem_cons_of_mem _ isLater) tinfo listed
          · rw [Dict.get?_insert] at listed
            split at listed
            · cases listed
              have isNext : next = _ := createdBy.result
              have sameKind : next.isDummyThread = record.isDummyThread := by rw [isNext]
              obtain ⟨noGroups, noPhases⟩ :=
                groupless first List.mem_cons_self record isFirst (sameKind.symm.trans isReal)
              exact createdBy.armed_result nonMrc noGroups noPhases
            · rename_i different
              refine armed other (fun isMember => ?_) tinfo listed isReal
              rcases List.mem_cons.mp isMember with here | later
              · exact different here
              · exact notLater later

/-! ## Every run -/

theorem mem_profiledTids_of_isInitial {machine : Machine} {plan : Plan} {args : Args} {tid : ℤ}
    {tinfo : ThreadInfo} (isInitial : IsInitial machine plan args tid tinfo) :
    tid ∈ args.profiledTids := List.mem_of_getElem? isInitial.1

section

variable {library : Interpolation} {machine : Machine} {args : Args} {launch : Launch}
  {config : Config} {start : State}

/-- At the start every profiled thread is in its first turn. -/
theorem turnsGoOn_of_main (started : main library machine args launch = .ok (config, start))
    (nonMrc : args.mrcEstMode = false) (distinct : args.profiledTids.Nodup) :
    start.TurnsGoOn := by
  obtain ⟨plan, msrs, initial, -, -, threads, -, -, tidMap, fdMap, grouped, rfl⟩ :=
    mainSteps_of_main started
  refine .inr fun tid tinfo isThread isReal => ?_
  have armed : tinfo.Armed := by
    refine armed_of_createAllGroups nonMrc distinct (fun tid isMember tinfo isListed isReal => ?_)
      (fun tid notMember tinfo isListed isReal => ?_) grouped isThread isReal
    · rcases threads tid tinfo isListed with isDummy | ⟨-, core, last, isNew⟩
      · rw [isReal] at isDummy
        cases isDummy
      · rw [isNew]
        exact ⟨rfl, rfl⟩
    · rcases threads tid tinfo isListed with isDummy | isInitial
      · rw [isReal] at isDummy
        cases isDummy
      · exact absurd (mem_profiledTids_of_isInitial isInitial) notMember
  exact ⟨armed, armed.overflows⟩

/-- While a run is not done, each of its profiled threads is armed for the rest of its turn,
precisely if the run refreshes every turn in time. The threads are distinct, as no thread can
be attached to twice. -/
theorem turnsGoOn_iff_refreshesInTime
    (started : main library machine args launch = .ok (config, start))
    (nonMrc : args.mrcEstMode = false) (distinct : args.profiledTids.Nodup)
    (events : List Event) :
    AlongRun (systemStep config) start events (fun _ st => st.TurnsGoOn) ↔
      AtEachStep (systemStep config) start events fun _ st event =>
        ∀ next, systemStep config st event = .ok next → RefreshesInTime config st event := by
  obtain ⟨⟨plan, -, rfl⟩, ⟨msrs, globals⟩, -⟩ := launched_of_main started
  have unlogged : start.monitor.Unlogged := by
    rw [globals]
    exact fun _ => rfl
  exact @alongRun_iff_atEachStep _ _ _ _ _ _ (fun _ st => st.monitor.Unlogged) _ _ unlogged
    (turnsGoOn_of_main started nonMrc distinct)
    (fun _ _ _ _ unlogged _ stepped => unlogged_systemStep unlogged stepped)
    (fun _ _ _ _ unlogged goesOn stepped => turnsGoOn_step nonMrc unlogged goesOn stepped)

end

/-! ## A record that was lost -/

/-- A thread none of whose listed groups has a budget. -/
theorem spent_of_entries {tinfo : ThreadInfo}
    (listed : tinfo.eventGroups.entries.all (fun entry => entry.2.refreshBudget = some 0) = true) :
    tinfo.Spent := by
  intro fd group isGroup
  exact of_decide_eq_true (List.all_eq_true.mp listed _ (Dict.mem_entries_iff _ |>.mpr isGroup))

/-- `PERF_RECORD_LOST`. -/
def lostWords : List Word := [BitVec.ofNat 64 (2 + 24 * 2 ^ 48), 0, 0]

/-- Nine phases with a sample each, and a tenth whose sample was lost. -/
def lossyTurn : List Event :=
  List.replicate 9 (.phase sampleWords (quietSignal 1000)) ++ [.phase lostWords (quietSignal 1000)]

theorem exists_run_lossyTurn :
    ∃ config start last tinfo,
      main noInterpolation interleavedMachine phasesOnly quietLaunch = .ok (config, start) ∧
      run (systemStep config) start lossyTurn = .ok last ∧ last.done = false ∧
      last.tidMap.get? 100 = some tinfo ∧ tinfo.isDummyThread = false ∧
      tinfo.eventGroups.entries.all (fun entry => entry.2.refreshBudget = some 0) = true :=
  ⟨_, _, _, _, rfl, rfl, rfl, rfl, rfl, rfl⟩

/-- The run is not done, and its first thread is never signalled again. -/
theorem lost_record_ends_turns :
    ∃ config start,
      main noInterpolation interleavedMachine phasesOnly quietLaunch = .ok (config, start) ∧
      ¬ AlongRun (systemStep config) start lossyTurn (fun _ st => st.TurnsGoOn) := by
  obtain ⟨config, start, last, tinfo, started, reached, running, isThread, isReal, listed⟩ :=
    exists_run_lossyTurn
  refine ⟨config, start, started, fun along => ?_⟩
  rcases along lossyTurn (List.prefix_refl _) last reached with done | armed
  · rw [running] at done
    cases done
  · exact (spent_of_entries listed).not_armed (armed 100 tinfo isThread isReal).1

/-- The exact condition, applied to that run. -/
theorem lossyTurn_turnsGoOn_iff :
    ∃ config start,
      main noInterpolation interleavedMachine phasesOnly quietLaunch = .ok (config, start) ∧
      (AlongRun (systemStep config) start lossyTurn (fun _ st => st.TurnsGoOn) ↔
        AtEachStep (systemStep config) start lossyTurn fun _ st event =>
          ∀ next, systemStep config st event = .ok next → RefreshesInTime config st event) := by
  obtain ⟨config, start, last, tinfo, started, -⟩ := exists_run_lossyTurn
  exact ⟨config, start, started,
    turnsGoOn_iff_refreshesInTime started rfl (by decide) lossyTurn⟩

end Datamime.Profiler
