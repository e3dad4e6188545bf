/-
# Creating the event groups

Every group of a thread counts the clock event, which leads it, and the permanent
events. The rotating events are packed into groups in the order of the command line:
an event that does not fit into the current group, or that the kernel does not open
there, starts the next one. Each group gets a header line in the counters file, and
the first one is armed.

The answers of the kernel are an input, and so is the order in which the map of the
groups lists them.
-/

import Datamime.Math.Text
import Datamime.Profiler.Setup

namespace Datamime.Profiler

open Datamime.Math Datamime.Hardware

def CLOCK_EVENT : List Char := "UNHALTED_REFERENCE_CYCLES".toList

def PERMANENT_EVENTS : List (List Char) := ["INST_RETIRED".toList, "CPU_CLK_UNHALTED".toList]

/-- What the kernel answers while the groups of a thread are created. -/
structure Kernel where
  /-- The descriptors that the calls of `perf_event_open` return, in order; `none` is a
  failure. -/
  opened : List (Option ℤ)
  /-- The message of the first step that fails after a leader was opened. -/
  setupError : ℤ → Option String
  timeMult : ℤ → ℕ
  timeShift : ℤ → ℕ
  /-- The events that this machine supports. -/
  supported : List Char → Bool
  refreshFails : Bool
  /-- The order of the map of groups. -/
  arrange : Dict ℤ EventGroup → Dict ℤ EventGroup
  arrange_get? : ∀ groups fd, (arrange groups).get? fd = groups.get? fd

/-- `filter_events`. -/
def filterEvents (supported : List Char → Bool) (events : List Char) : List (List Char) :=
  (events.splitOn ',').filter fun event => supported event

/-- Open the members of a new group behind its leader. -/
def openMembers : List (List Char) → List (Option ℤ) →
    Except Fault (List PerfEvent × List (Option ℤ))
  | [], opened => .ok ([], opened)
  | name :: names, some fd :: opened => do
      let (events, opened) ← openMembers names opened
      return (⟨name, fd⟩ :: events, opened)
  | name :: _, _ => .error (.exit ("Could not open required event: " ++ String.ofList name))

/-- The constructor of `EventGroup`. -/
def EventGroup.new (kernel : Kernel) (tid : ℤ) :
    List (Option ℤ) → Except Fault (EventGroup × List (Option ℤ))
  | some fd :: opened => do
      let (events, opened) ← openMembers PERMANENT_EVENTS opened
      match kernel.setupError fd with
      | some message => .error (.exit message)
      | none => return ({
          tid := tid
          fd := fd
          fds := ⟨CLOCK_EVENT, fd⟩ :: events
          leads := leads_cons CLOCK_EVENT fd events
          buf := []
          timeMult := kernel.timeMult fd
          timeShift := kernel.timeShift fd
          refreshBudget := some 0 }, opened)
  | _ => .error (.exit ("Could not open required event: " ++ String.ofList CLOCK_EVENT))

/-- The group with one more event. -/
def EventGroup.grow (group : EventGroup) (event : PerfEvent) : EventGroup :=
  { group with
    fds := group.fds ++ [event]
    leads := by
      have leads := group.leads
      cases shape : group.fds with
      | nil =>
          rw [shape] at leads
          cases leads
      | cons leader rest =>
          rw [shape] at leads
          exact leads }

/-- `EventGroup::add_event`. -/
def EventGroup.addEvent (group : EventGroup) (name : List Char) (opened : List (Option ℤ)) :
    Option EventGroup × List (Option ℤ) :=
  if MAX_GROUP_EVENTS ≤ group.numEvents then (none, opened)
  else
    match opened with
    | some fd :: opened => (some (group.grow ⟨name, fd⟩), opened)
    | _ => (none, opened.tail)

/-- The loop over the rotating events. The map lists the current group as well. -/
def addRotating (kernel : Kernel) (tid : ℤ) : List (List Char) → EventGroup →
    Dict ℤ EventGroup → List (Option ℤ) → Except Fault (Dict ℤ EventGroup)
  | [], _, groups, _ => .ok groups
  | name :: names, current, groups, opened =>
      match current.addEvent name opened with
      | (some grown, opened) =>
          addRotating kernel tid names grown (groups.insert grown.fd grown) opened
      | (none, opened) => do
          let (fresh, opened) ← EventGroup.new kernel tid opened
          if (groups.get? fresh.fd).isSome then .error .assertion
          else
            match fresh.addEvent name opened with
            | (some grown, opened) =>
                addRotating kernel tid names grown (groups.insert grown.fd grown) opened
            | (none, _) => .error .assertion

/-- `EventGroup::finalize_events`. -/
def EventGroup.finalizeEvents (group : EventGroup) : List Char :=
  "group ".toList ++ Text.ofInt group.fd ++
    group.fds.flatMap (fun event => ' ' :: event.name) ++ ['\n']

/-- `PERF_EVENT_IOC_REFRESH`: arm a group for a number of further overflows. -/
def EventGroup.refresh (group : EventGroup) (count : ℕ) : EventGroup :=
  { group with refreshBudget := group.refreshBudget.map (· + count) }

/-- Arm the first group: for good in the miss-curve mode, else for one turn. -/
def EventGroup.activate (group : EventGroup) (mrcEstMode : Bool) : EventGroup :=
  if mrcEstMode then { group with refreshBudget := none } else group.refresh PHASES_BETWEEN_SWITCHES

/-- `ThreadInfo::create_event_groups`: the thread, and the thread of each descriptor. -/
def createEventGroups (kernel : Kernel) (args : Args) (tinfo : ThreadInfo) (fdMap : Dict ℤ ℤ) :
    Except Fault (ThreadInfo × Dict ℤ ℤ) := do
  let rotatingEvents :=
    if args.mrcEstMode then [] else filterEvents kernel.supported args.events
  let (first, opened) ← EventGroup.new kernel tinfo.tid kernel.opened
  if (tinfo.eventGroups.get? first.fd).isSome then .error .assertion
  let created ← addRotating kernel tinfo.tid rotatingEvents first
    (tinfo.eventGroups.insert first.fd first) opened
  let groups := kernel.arrange created
  let outfile := tinfo.outfile ++ groups.entries.flatMap fun entry => entry.2.finalizeEvents
  let fdMap := created.entries.foldl (fun fdMap entry => fdMap.emplace entry.1 tinfo.tid) fdMap
  match groups.entries with
  | [] => .error .assertion
  | (firstFd, group) :: _ =>
      if kernel.refreshFails then .error (.exit "cannot refresh")
      else return ({ tinfo with
        outfile := outfile
        eventGroups := groups.insert firstFd (group.activate args.mrcEstMode) }, fdMap)

/-- The events that every group starts with. -/
def commonEvents : List (List Char) := CLOCK_EVENT :: PERMANENT_EVENTS

/-- The names of the events of a group. -/
def EventGroup.names (group : EventGroup) : List (List Char) := group.fds.map PerfEvent.name

theorem names_of_openMembers {answers left : List (Option ℤ)} {names : List (List Char)}
    {events : List PerfEvent}
    (opened : openMembers names answers = .ok (events, left)) :
    events.map PerfEvent.name = names := by
  induction names generalizing answers events with
  | nil =>
      cases opened
      rfl
  | cons name names ih =>
      match answers, opened with
      | some fd :: answers, opened =>
          obtain ⟨⟨later, rest⟩, isLater, returned⟩ := bind_eq_ok_iff.mp opened
          cases returned
          rw [List.map_cons, ih isLater]

/-- A new group has the common events. -/
theorem names_of_new {kernel : Kernel} {tid : ℤ} {answers left : List (Option ℤ)}
    {fresh : EventGroup} (isNew : EventGroup.new kernel tid answers = .ok (fresh, left)) :
    fresh.names = commonEvents := by
  match answers, isNew with
  | some fd :: answers, isNew =>
      obtain ⟨⟨events, rest⟩, opened, isNew⟩ := bind_eq_ok_iff.mp isNew
      dsimp only at isNew
      split at isNew
      · cases isNew
      · cases isNew
        rw [EventGroup.names, List.map_cons, names_of_openMembers opened, commonEvents]

/-- An event that joins a group is its new last member, and there was room for it. -/
theorem addEvent_eq_some {group grown : EventGroup} {name : List Char}
    {answers left : List (Option ℤ)} (added : group.addEvent name answers = (some grown, left)) :
    ∃ fd, answers = some fd :: left ∧ group.numEvents < MAX_GROUP_EVENTS ∧
      grown = group.grow ⟨name, fd⟩ := by
  unfold EventGroup.addEvent at added
  by_cases full : MAX_GROUP_EVENTS ≤ group.numEvents
  · rw [if_pos full] at added
    cases added
  · rw [if_neg full] at added
    match answers, added with
    | some fd :: answers, added =>
        cases added
        exact ⟨fd, rfl, Nat.not_le.mp full, rfl⟩
    | none :: answers, added => cases added
    | [], added => cases added

/-- A group that grows keeps its descriptor. -/
theorem fd_of_addEvent {group grown : EventGroup} {name : List Char}
    {answers left : List (Option ℤ)} (added : group.addEvent name answers = (some grown, left)) :
    grown.fd = group.fd := by
  obtain ⟨fd, -, -, rfl⟩ := addEvent_eq_some added
  rfl

/-! ## What the creation leaves behind -/

section

variable {kernel : Kernel} {args : Args} {tinfo : ThreadInfo} {fdMap : Dict ℤ ℤ}

/-- The groups that were created for a thread, and the one of them that was armed. -/
structure CreatedBy (kernel : Kernel) (args : Args) (tinfo next : ThreadInfo)
    (groups : Dict ℤ EventGroup) (firstFd : ℤ) (group : EventGroup) : Prop where
  built : ∃ first opened, EventGroup.new kernel tinfo.tid kernel.opened = .ok (first, opened) ∧
    addRotating kernel tinfo.tid
      (if args.mrcEstMode then [] else filterEvents kernel.supported args.events) first
      (tinfo.eventGroups.insert first.fd first) opened = .ok groups
  armed : ∃ rest, (kernel.arrange groups).entries = (firstFd, group) :: rest
  result : next = { tinfo with
    outfile := tinfo.outfile ++
      (kernel.arrange groups).entries.flatMap fun entry => entry.2.finalizeEvents
    eventGroups := (kernel.arrange groups).insert firstFd (group.activate args.mrcEstMode) }

theorem createdBy_of_createEventGroups {result : ThreadInfo × Dict ℤ ℤ}
    (created : createEventGroups kernel args tinfo fdMap = .ok result) :
    ∃ groups firstFd group, CreatedBy kernel args tinfo result.1 groups firstFd group := by
  obtain ⟨⟨first, opened⟩, isNew, created⟩ := bind_eq_ok_iff.mp created
  dsimp only at created
  split at created
  · cases created
  obtain ⟨groups, added, created⟩ := bind_eq_ok_iff.mp created
  split at created
  · cases created
  · rename_i firstFd group rest entries
    split at created
    · cases created
    · cases created
      exact ⟨groups, firstFd, group, ⟨first, opened, isNew, added⟩, ⟨rest, entries⟩, rfl⟩

end

end Datamime.Profiler
