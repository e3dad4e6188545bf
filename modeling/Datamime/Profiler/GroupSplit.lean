/-
# How the events are split into groups

The kernel can refuse an event for want of room or for reasons of its own, and it keeps the
groups itself: what a sample carries, and in which order, is decided by the calls of
`perf_event_open` that succeeded. This module follows the creation of the groups with these calls
as effects on the groups of the kernel, and shows that the profiler's own account of its groups,
which it prints as header lines, agrees with them for every pattern of answers.
-/

import Datamime.Profiler.EventGroups

namespace Datamime.Profiler

open Datamime.Math Datamime.Hardware

/-! ## The groups of the kernel -/

/-- The answers of the kernel to come, and for each leader the members of its group in the order
in which they joined. A read of the group returns their values in this order. -/
structure PerfState where
  answers : List (Option ℤ)
  groups : Dict ℤ (List PerfEvent)

/-- A part of the creation with its calls of `perf_event_open`. -/
abbrev Opening (α : Type) := StateT PerfState (Except Fault) α

/-- `perf_event_open(event, tid, -1, leader, 0)`; without a leader the event founds a group. -/
def perfEventOpen (name : List Char) (leader : Option ℤ) : Opening (Option ℤ) := fun perf =>
  match perf.answers, leader with
  | some fd :: answers, none => .ok (some fd, ⟨answers, perf.groups.insert fd [⟨name, fd⟩]⟩)
  | some fd :: answers, some leader => .ok (some fd, ⟨answers,
      perf.groups.insert leader ((perf.groups.get? leader).getD [] ++ [⟨name, fd⟩])⟩)
  | answers, _ => .ok (none, ⟨answers.tail, perf.groups⟩)

/-- Open the members of a new group. -/
def openJoining (leader : ℤ) : List (List Char) → Opening (List PerfEvent)
  | [] => return []
  | name :: names => do
      match ← perfEventOpen name (some leader) with
      | some fd => return ⟨name, fd⟩ :: (← openJoining leader names)
      | none => throw (.exit ("Could not open required event: " ++ String.ofList name))

/-- The constructor of `EventGroup`. -/
def EventGroup.found (kernel : Kernel) (tid : ℤ) : Opening EventGroup := do
  match ← perfEventOpen CLOCK_EVENT none with
  | some fd => do
      let events ← openJoining fd PERMANENT_EVENTS
      match kernel.setupError fd with
      | some message => throw (.exit message)
      | none => return {
          tid := tid
          fd := fd
          fds := ⟨CLOCK_EVENT, fd⟩ :: events
          leads := leads_cons CLOCK_EVENT fd events
          buf := []
          timeMult := kernel.timeMult fd
          timeShift := kernel.timeShift fd
          refreshBudget := some 0 }
  | none => throw (.exit ("Could not open required event: " ++ String.ofList CLOCK_EVENT))

/-- `EventGroup::add_event`. -/
def EventGroup.join (group : EventGroup) (name : List Char) : Opening (Option EventGroup) := do
  if MAX_GROUP_EVENTS ≤ group.numEvents then return none
  else
    match ← perfEventOpen name (some group.fd) with
    | some fd => return some (group.grow ⟨name, fd⟩)
    | none => return none

/-- The loop over the rotating events. -/
def splitRotating (kernel : Kernel) (tid : ℤ) : List (List Char) → EventGroup →
    Dict ℤ EventGroup → Opening (Dict ℤ EventGroup)
  | [], _, groups => return groups
  | name :: names, current, groups => do
      match ← current.join name with
      | some grown => splitRotating kernel tid names grown (groups.insert grown.fd grown)
      | none => do
          let fresh ← EventGroup.found kernel tid
          if (groups.get? fresh.fd).isSome then throw .assertion
          else
            match ← fresh.join name with
            | some grown => splitRotating kernel tid names grown (groups.insert grown.fd grown)
            | none => throw .assertion

/-- `rotating_events`: there are none in the miss-curve mode. -/
def rotatingEvents (kernel : Kernel) (args : Args) : List (List Char) :=
  if args.mrcEstMode then [] else filterEvents kernel.supported args.events

/-- The groups that `create_event_groups` creates for a thread without any. -/
def splitEvents (kernel : Kernel) (args : Args) (tid : ℤ) : Opening (Dict ℤ EventGroup) := do
  let first ← EventGroup.found kernel tid
  splitRotating kernel tid (rotatingEvents kernel args) first
    (Dict.empty.insert first.fd first)

/-! ## The calls behind the profiler's account -/

/-- The groups as the kernel keeps them. -/
abbrev membersOf (groups : Dict ℤ EventGroup) : Dict ℤ (List PerfEvent) :=
  groups.mapValues EventGroup.fds

section

variable {kernel : Kernel} {tid : ℤ} {answers left : List (Option ℤ)}
  {groups : Dict ℤ (List PerfEvent)}

theorem bind_of_ok {α β : Type} {opening : Opening α} {rest : α → Opening β} {perf next : PerfState}
    {value : α} (opened : opening perf = .ok (value, next)) :
    (opening >>= rest) perf = rest value next := by
  show (opening perf >>= fun result => rest result.1 result.2) = _
  rw [opened]
  rfl

theorem perfEventOpen_founds (name : List Char) (fd : ℤ) :
    perfEventOpen name none ⟨some fd :: answers, groups⟩ =
      .ok (some fd, ⟨answers, groups.insert fd [⟨name, fd⟩]⟩) := rfl

theorem perfEventOpen_joins {leader : ℤ} {members : List PerfEvent}
    (isGroup : groups.get? leader = some members) (name : List Char) (fd : ℤ) :
    perfEventOpen name (some leader) ⟨some fd :: answers, groups⟩ =
      .ok (some fd, ⟨answers, groups.insert leader (members ++ [⟨name, fd⟩])⟩) := by
  show Except.ok (some fd, PerfState.mk answers
    (groups.insert leader ((groups.get? leader).getD [] ++ [⟨name, fd⟩]))) = _
  rw [isGroup]
  rfl

/-- Members join the kernel's group in the order of the list. -/
theorem openJoining_of_openMembers {leader : ℤ} {members : List PerfEvent}
    (isGroup : groups.get? leader = some members) {names : List (List Char)}
    {events : List PerfEvent} (opened : openMembers names answers = .ok (events, left)) :
    openJoining leader names ⟨answers, groups⟩ =
      .ok (events, ⟨left, groups.insert leader (members ++ events)⟩) := by
  induction names generalizing answers members groups events with
  | nil =>
      cases opened
      rw [List.append_nil, Dict.insert_of_get? isGroup]
      rfl
  | cons name names ih =>
      match answers, opened with
      | some fd :: answers, opened =>
          obtain ⟨⟨later, rest⟩, isLater, returned⟩ := bind_eq_ok_iff.mp opened
          cases returned
          have joined := ih
            (Dict.get?_insert_self groups leader (members ++ [⟨name, fd⟩])) isLater
          rw [Dict.insert_insert, List.append_assoc, List.singleton_append] at joined
          rw [openJoining, bind_of_ok (perfEventOpen_joins isGroup name fd)]
          exact bind_of_ok joined

/-- A new group of the profiler is a new group of the kernel. -/
theorem found_of_new {group : EventGroup}
    (isNew : EventGroup.new kernel tid answers = .ok (group, left)) :
    EventGroup.found kernel tid ⟨answers, groups⟩ =
      .ok (group, ⟨left, groups.insert group.fd group.fds⟩) := by
  match answers, isNew with
  | some fd :: answers, isNew =>
      obtain ⟨⟨events, rest⟩, opened, isNew⟩ := bind_eq_ok_iff.mp isNew
      dsimp only at isNew
      have joined := @openJoining_of_openMembers answers rest
        (groups.insert fd [⟨CLOCK_EVENT, fd⟩]) fd [⟨CLOCK_EVENT, fd⟩]
        (Dict.get?_insert_self _ _ _) PERMANENT_EVENTS events opened
      rw [Dict.insert_insert, List.singleton_append] at joined
      rw [EventGroup.found, bind_of_ok (perfEventOpen_founds CLOCK_EVENT fd)]
      refine (bind_of_ok joined).trans ?_
      split at isNew
      · cases isNew
      · rename_i noError
        cases isNew
        rw [noError]
        rfl

/-- An event joins the kernel's group exactly if it joins the profiler's. -/
theorem join_eq_addEvent {group : EventGroup} (isGroup : groups.get? group.fd = some group.fds)
    (name : List Char) : group.join name ⟨answers, groups⟩ =
      .ok ((group.addEvent name answers).1, ⟨(group.addEvent name answers).2,
        match (group.addEvent name answers).1 with
        | some grown => groups.insert grown.fd grown.fds
        | none => groups⟩) := by
  unfold EventGroup.join EventGroup.addEvent
  by_cases full : MAX_GROUP_EVENTS ≤ group.numEvents
  · rw [if_pos full, if_pos full]
    rfl
  · rw [if_neg full, if_neg full]
    match answers with
    | some fd :: answers => exact bind_of_ok (perfEventOpen_joins isGroup name fd)
    | none :: answers => rfl
    | [] => rfl

/-- The profiler's loop and the kernel stay in step. -/
theorem splitRotating_of_addRotating {names : List (List Char)} {current : EventGroup}
    {groups created : Dict ℤ EventGroup} (isCurrent : groups.get? current.fd = some current)
    (added : addRotating kernel tid names current groups answers = .ok created) :
    ∃ left, splitRotating kernel tid names current groups ⟨answers, membersOf groups⟩ =
      .ok (created, ⟨left, membersOf created⟩) := by
  induction names generalizing current groups answers with
  | nil =>
      cases added
      exact ⟨answers, rfl⟩
  | cons name names ih =>
      have isMember : (membersOf groups).get? current.fd = some current.fds := by
        rw [Dict.get?_mapValues, isCurrent, Option.map_some]
      have joined := @join_eq_addEvent answers (membersOf groups) current isMember name
      rw [addRotating] at added
      rw [splitRotating]
      split at added
      · rename_i grown left isAdded
        rw [isAdded] at joined
        rw [bind_of_ok joined]
        show ∃ left, splitRotating kernel tid names grown (groups.insert grown.fd grown)
          ⟨_, (membersOf groups).insert grown.fd grown.fds⟩ = _
        rw [← Dict.mapValues_insert]
        exact ih (Dict.get?_insert_self _ _ _) added
      · rename_i left isAdded
        rw [isAdded] at joined
        rw [bind_of_ok joined]
        obtain ⟨⟨fresh, rest⟩, isNew, added⟩ := bind_eq_ok_iff.mp added
        dsimp only at added ⊢
        rw [bind_of_ok (found_of_new isNew)]
        split at added
        · cases added
        · rename_i isUnknown
          rw [if_neg isUnknown]
          have joinedFresh := @join_eq_addEvent rest ((membersOf groups).insert fresh.fd fresh.fds)
            fresh (Dict.get?_insert_self _ _ _) name
          split at added
          · rename_i grown later isAddedFresh
            rw [isAddedFresh] at joinedFresh
            rw [bind_of_ok joinedFresh]
            have sameFd := fd_of_addEvent isAddedFresh
            show ∃ left, splitRotating kernel tid names grown (groups.insert grown.fd grown)
              ⟨_, ((membersOf groups).insert fresh.fd fresh.fds).insert grown.fd grown.fds⟩ = _
            rw [sameFd, Dict.insert_insert, ← sameFd, ← Dict.mapValues_insert]
            exact ih (Dict.get?_insert_self _ _ _) added
          · cases added

end

/-! ## The split -/

/-- The groups, in the order of their creation, divide a list of rotating events into consecutive
parts. Each group has the fixed events before its part, and is not too large. -/
structure Splits (rotating : List (List Char)) (groups : Dict ℤ EventGroup) : Prop where
  parts : ∃ parts : List (List (List Char)), parts.flatten = rotating ∧
    groups.entries.map (fun entry => entry.2.names) = parts.map fun part => commonEvents ++ part
  small : ∀ entry ∈ groups.entries, entry.2.numEvents ≤ MAX_GROUP_EVENTS
  keyed : ∀ entry ∈ groups.entries, entry.1 = entry.2.fd

/-- The same within the loop: the current group is the last one, and its part may still grow. -/
structure SplitsSoFar (done : List (List Char)) (earlier : List (ℤ × EventGroup))
    (current : EventGroup) : Prop where
  parts : ∃ (parts : List (List (List Char))) (part : List (List Char)),
    parts.flatten ++ part = done ∧
    earlier.map (fun entry => entry.2.names) = parts.map (fun part => commonEvents ++ part) ∧
    current.names = commonEvents ++ part
  small : ∀ entry ∈ earlier, entry.2.numEvents ≤ MAX_GROUP_EVENTS
  currentSmall : current.numEvents ≤ MAX_GROUP_EVENTS
  keyed : ∀ entry ∈ earlier, entry.1 = entry.2.fd

section

variable {kernel : Kernel} {tid : ℤ} {answers left : List (Option ℤ)}
  {done : List (List Char)} {earlier : List (ℤ × EventGroup)} {current fresh grown : EventGroup}

theorem numEvents_eq_length_names (group : EventGroup) :
    group.numEvents = group.names.length := (List.length_map ..).symm

/-- The part of the current group grows by the next event. -/
theorem SplitsSoFar.grow {name : List Char} (splits : SplitsSoFar done earlier current)
    (added : current.addEvent name answers = (some grown, left)) :
    SplitsSoFar (done ++ [name]) earlier grown := by
  obtain ⟨parts, part, isDone, areParts, isPart⟩ := splits.parts
  obtain ⟨fd, -, room, rfl⟩ := addEvent_eq_some added
  have names : (current.grow ⟨name, fd⟩).names = current.names ++ [name] := List.map_append
  refine ⟨⟨parts, part ++ [name], ?_, areParts, ?_⟩, splits.small, ?_, splits.keyed⟩
  · rw [← isDone, List.append_assoc]
  · rw [names, isPart, List.append_assoc]
  · rw [numEvents_eq_length_names, names, List.length_append, ← numEvents_eq_length_names]
    exact room

/-- A new group starts with an empty part. -/
theorem SplitsSoFar.next (splits : SplitsSoFar done earlier current)
    (isNew : EventGroup.new kernel tid answers = .ok (fresh, left)) :
    SplitsSoFar done (earlier ++ [(current.fd, current)]) fresh := by
  obtain ⟨parts, part, isDone, areParts, isPart⟩ := splits.parts
  have names := names_of_new isNew
  refine ⟨⟨parts ++ [part], [], ?_, ?_, ?_⟩, ?_, ?_, ?_⟩
  · rw [List.append_nil, List.flatten_append, List.flatten_singleton, isDone]
  · rw [List.map_append, List.map_append, areParts, List.map_singleton, List.map_singleton, isPart]
  · rw [names, List.append_nil]
  · exact List.forall_mem_append.mpr
      ⟨splits.small, List.forall_mem_singleton.mpr splits.currentSmall⟩
  · rw [numEvents_eq_length_names, names]
    decide
  · exact List.forall_mem_append.mpr ⟨splits.keyed, List.forall_mem_singleton.mpr rfl⟩

theorem splitsSoFar_of_new (isNew : EventGroup.new kernel tid answers = .ok (fresh, left)) :
    SplitsSoFar [] [] fresh := by
  have names := names_of_new isNew
  refine ⟨⟨[], [], rfl, rfl, names⟩, nofun, ?_, nofun⟩
  rw [numEvents_eq_length_names, names]
  decide

/-- When the loop is over, the last part is complete. -/
theorem SplitsSoFar.splits {groups : Dict ℤ EventGroup}
    (splits : SplitsSoFar done earlier current)
    (listed : groups.entries = earlier ++ [(current.fd, current)]) : Splits done groups := by
  obtain ⟨parts, part, isDone, areParts, isPart⟩ := splits.parts
  refine ⟨⟨parts ++ [part], ?_, ?_⟩, ?_, ?_⟩
  · rw [List.flatten_append, List.flatten_singleton, isDone]
  · rw [listed, List.map_append, List.map_append, areParts, List.map_singleton,
      List.map_singleton, isPart]
  · rw [listed]
    exact List.forall_mem_append.mpr
      ⟨splits.small, List.forall_mem_singleton.mpr splits.currentSmall⟩
  · rw [listed]
    exact List.forall_mem_append.mpr ⟨splits.keyed, List.forall_mem_singleton.mpr rfl⟩

/-- Whatever the kernel answers, a loop that returns has split the events. -/
theorem splits_of_addRotating {names : List (List Char)} {groups created : Dict ℤ EventGroup}
    (splits : SplitsSoFar done earlier current)
    (listed : groups.entries = earlier ++ [(current.fd, current)])
    (added : addRotating kernel tid names current groups answers = .ok created) :
    Splits (done ++ names) created := by
  induction names generalizing done earlier current groups answers with
  | nil =>
      cases added
      rw [List.append_nil]
      exact splits.splits listed
  | cons name names ih =>
      rw [addRotating] at added
      have longer : done ++ name :: names = done ++ [name] ++ names := by simp
      rw [longer]
      split at added
      · rename_i grown left isAdded
        refine ih (splits.grow isAdded) ?_ added
        rw [fd_of_addEvent isAdded]
        exact Dict.entries_insert_of_last listed grown
      · obtain ⟨⟨fresh, rest⟩, isNew, added⟩ := bind_eq_ok_iff.mp added
        dsimp only at added
        split at added
        · cases added
        · rename_i isUnknown
          split at added
          · rename_i grown left isAdded
            refine ih ((splits.next isNew).grow isAdded) ?_ added
            have absent : groups.get? grown.fd = none := by
              rw [fd_of_addEvent isAdded]
              exact Option.not_isSome_iff_eq_none.mp isUnknown
            rw [Dict.entries_insert_of_get?_eq_none absent, listed]
          · cases added

end

/-! ## Every thread's groups -/

/-- The groups of a thread split the rotating events, the thread keeps exactly these groups, and
its counters file has a header line for each of them. The line names the members of the kernel's
group, in the order in which a sample carries their values. -/
structure SplitsEvents (kernel : Kernel) (args : Args) (tinfo next : ThreadInfo)
    (created : Dict ℤ EventGroup) : Prop where
  splits : Splits (rotatingEvents kernel args) created
  keeps : ∀ fd, (next.eventGroups.get? fd).map EventGroup.fds =
    (created.get? fd).map EventGroup.fds
  headers : next.outfile = tinfo.outfile ++
    (kernel.arrange created).entries.flatMap fun entry => entry.2.finalizeEvents
  names : ∃ perf, splitEvents kernel args tinfo.tid ⟨kernel.opened, Dict.empty⟩ =
      .ok (created, perf) ∧
    ∀ fd group, created.get? fd = some group → ∃ members, perf.groups.get? fd = some members ∧
      group.finalizeEvents = "group ".toList ++ Text.ofInt fd ++
        members.flatMap (fun event => ' ' :: event.name) ++ ['\n']

theorem fds_activate (group : EventGroup) (mrcEstMode : Bool) :
    (group.activate mrcEstMode).fds = group.fds := by
  rw [EventGroup.activate]
  split <;> rfl

theorem finalizeEvents_of_fd {group : EventGroup} {fd : ℤ} (isFd : group.fd = fd) :
    group.finalizeEvents = "group ".toList ++ Text.ofInt fd ++
      group.fds.flatMap (fun event => ' ' :: event.name) ++ ['\n'] := by
  subst isFd
  rfl

/-- For every list of rotating events and all answers of the kernel, the groups that
`create_event_groups` returns with split the events. -/
theorem exists_splitsEvents_of_createEventGroups {kernel : Kernel} {args : Args}
    {tinfo : ThreadInfo} {fdMap : Dict ℤ ℤ} {result : ThreadInfo × Dict ℤ ℤ}
    (noGroups : tinfo.eventGroups = Dict.empty)
    (returned : createEventGroups kernel args tinfo fdMap = .ok result) :
    ∃ created, SplitsEvents kernel args tinfo result.1 created := by
  obtain ⟨created, firstFd, armed, ⟨first, answers, isNew, added⟩, ⟨rest, entries⟩, isResult⟩ :=
    createdBy_of_createEventGroups returned
  rw [noGroups] at added
  have single : (Dict.empty.insert first.fd first).entries = [] ++ [(first.fd, first)] := rfl
  have splits : Splits (rotatingEvents kernel args) created :=
    splits_of_addRotating (splitsSoFar_of_new isNew) single added
  refine ⟨created, splits, fun fd => ?_, ?_, ?_⟩
  · rw [isResult, Dict.get?_insert]
    by_cases isFirst : fd = firstFd
    · have found : created.get? firstFd = some armed := by
        rw [← kernel.arrange_get?, ← Dict.mem_entries_iff, entries]
        exact List.mem_cons_self
      rw [if_pos isFirst, isFirst, found, Option.map_some, Option.map_some, fds_activate]
    · rw [if_neg isFirst, kernel.arrange_get?]
  · rw [isResult]
  · obtain ⟨left, inStep⟩ := splitRotating_of_addRotating (Dict.get?_insert_self _ _ _) added
    refine ⟨⟨left, membersOf created⟩, ?_, fun fd group isGroup => ⟨group.fds, ?_, ?_⟩⟩
    · rw [splitEvents, bind_of_ok (found_of_new isNew)]
      exact inStep
    · rw [Dict.get?_mapValues, isGroup, Option.map_some]
    · have isListed : (fd, group) ∈ created.entries := (Dict.mem_entries_iff created).mpr isGroup
      have isFd : group.fd = fd := (splits.keyed _ isListed).symm
      exact finalizeEvents_of_fd isFd

/-- Five events of which the kernel does not take the third into the first group. -/
def fiveEvents : Args :=
  { twoThreads with events := "A,B,C,D,E".toList, mrcEstMode := false }

def refusingKernel : Kernel where
  opened := [some 1, some 2, some 3, some 4, some 5, none, some 11, some 12, some 13, some 14,
    some 15, some 16]
  setupError := fun _ => none
  timeMult := fun _ => 1
  timeShift := fun _ => 0
  supported := fun _ => true
  refreshFails := false
  arrange := id
  arrange_get? := Dict.get?_id

theorem exists_splitsEvents_fiveEvents :
    ∃ result created, createEventGroups refusingKernel fiveEvents secondThread Dict.empty =
      .ok result ∧ SplitsEvents refusingKernel fiveEvents secondThread result.1 created := by
  obtain ⟨result, returned⟩ : ∃ result,
      createEventGroups refusingKernel fiveEvents secondThread Dict.empty = .ok result := ⟨_, rfl⟩
  obtain ⟨created, splitsEvents⟩ := exists_splitsEvents_of_createEventGroups rfl returned
  exact ⟨result, created, returned, splitsEvents⟩

end Datamime.Profiler
