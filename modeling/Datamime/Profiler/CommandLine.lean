/-
# The command line

Before the profiler reads its arguments it compares their number with the number of cores
that it can assign. What it needs cores for are threads: those to profile, which are listed
in a single word, the array-scanning thread and its own. The two numbers are not related, so
that a request is turned down for its options and another one is accepted for whose threads
there are no cores.
-/

import Datamime.Math.CommandLine
import Datamime.Profiler.Main

namespace Datamime.Profiler

open Datamime.Math Datamime.Math.CommandLine Datamime.Hardware

/-! ## The arguments -/

/-- The lines that `usage` prints. -/
def usage (program : List Char) : List String :=
  ["USAGE:",
    String.ofList program ++ " -e <comma-sep-events> -l <phase_len> " ++
      "-n <num_phases> -f <outfile_prefix> -g <thread_group_id> " ++
      "[-m] [-h] -t <comma-sep-tids> ...",
    "\t-e <comma-sep-events> : list of events to profile",
    "\t-l <phase_len> : profile phase length in cycles",
    "\t-n <num_phases> : number of phases",
    "\t-w <mrc_warmup_period> : MRC warmup period (in Mcycles)",
    "\t-p <mrc_profile_period> : MRC profile period (in Mcycles)",
    "\t-f <outfile_prefix> : all generated output files will begin with this prefix",
    "\t-g <thread_group_id> : currently only supports profiling" ++
      " threads from a single thread group",
    "\t-t <comma-sep-tids> : must belong to same thread group",
    "\t-r <results_dir> : absolute path to results directory",
    "\t-d : Enable debug output to datamime-profiler.log",
    "\t-m : enable MRC estimation mode. In this mode, user-given events will not be tracked.",
    "\t-h : Print this help message"]

/-- The exit that follows `usage`, with either status. -/
def exitWithUsage (program : List Char) : Fault :=
  .exit (String.intercalate "\n" (usage program))

def OPTSTRING : List Char := "e:l:n:w:p:f:g:t:r:dmh".toList

/-- `std::stoul`, which takes a negative number modulo the word size. -/
def stoul (text : List Char) : Except Fault ℕ :=
  match leadingInt? text with
  | none => .error (.thrown "stoul")
  | some z => if z.natAbs < 2 ^ 64 then .ok (z % 2 ^ 64).toNat else .error (.thrown "stoul")

/-- `std::stoi`. -/
def stoi (text : List Char) : Except Fault ℤ :=
  match leadingInt? text with
  | none => .error (.thrown "stoi")
  | some z => if -2 ^ 31 ≤ z ∧ z < 2 ^ 31 then .ok z else .error (.thrown "stoi")

/-- What the process finds when it starts, besides its arguments. -/
structure Surroundings where
  /-- Whether the first word that is no option ends the options. -/
  posixlyCorrect : Bool
  /-- What the fields hold that no option sets. -/
  unset : Args

/-- The cases of the loop in `parse_args`. The paths of the output files and the debug switch
are not kept. -/
def readOption (program : List Char) (args : Args) :
    Char → List Char → Except Fault Args
  | 'e', optarg => .ok { args with events := optarg }
  | 'l', optarg => do return { args with phaseLen := ← stoul optarg }
  | 'n', optarg => do return { args with numPhases := ← stoul optarg }
  | 'w', optarg => do return { args with mrcWarmupPeriod := ← stoul optarg }
  | 'p', optarg => do return { args with mrcProfilePeriod := ← stoul optarg }
  | 'f', _ => .ok args
  | 'g', optarg => do return { args with tgid := ← stoi optarg }
  | 't', _ => .ok args
  | 'r', _ => .ok args
  | 'd', _ => .ok args
  | 'm', _ => .ok { args with mrcEstMode := true }
  | 'h', _ => .error (exitWithUsage program)
  | '?', _ => .error (exitWithUsage program)
  | _, _ => .ok args

/-- The body of the loop: the arguments so far and the word that `tids` points to. -/
def takeOption (program : List Char) (st : Args × Option (List Char))
    (option : Char × List Char) : Except Fault (Args × Option (List Char)) := do
  let args ← readOption program st.1 option.1 option.2
  return (args, if option.1 = 't' then some option.2 else st.2)

/-- `parse_args`. -/
def parseArgs (surroundings : Surroundings) (argv : List (List Char)) : Except Fault Args := do
  let start : Args := { surroundings.unset with mrcEstMode := false, profiledTids := [] }
  let (args, tids) ← (getopt OPTSTRING surroundings.posixlyCorrect argv.tail).foldlM
    (takeOption (argv.headD [])) (start, none)
  match tids with
  | none => .error .uninitialised
  | some tids => do
      let profiledTids ← (tids.splitOn ',').mapM stoi
      return { args with profiledTids }

/-! ## The cores -/

/-- The check of `main` before it reads the arguments. -/
def admits (machine : Machine) (argv : List (List Char)) : Bool :=
  argv.length ≤ 7 + (assignableCores machine).length - 1

/-- `main`, from the command line up to the call of `profile`. -/
def startProfiler (library : Interpolation) (machine : Machine) (surroundings : Surroundings)
    (launch : Launch) (argv : List (List Char)) : Except Fault (Config × State) :=
  if admits machine argv then do
    let args ← parseArgs surroundings argv
    main library machine args launch
  else .error (.exit ("Cannot support profiling more than " ++
    toString ((machine.numLogicalCores : ℤ) - 1) ++ " simultaneous threads\n"))

/-- The three places of `main` that take a core from the list: the profiled threads, the
array-scanning thread, and the main thread itself. -/
def takeCores (machine : Machine) (plan : Plan) (args : Args) (launch : Launch) :
    Except Fault (Dict ℤ ThreadInfo × ℕ) := do
  let threads ← threadsOf machine plan args
  let tidx := args.profiledTids.length
  match (assignableCores machine).drop tidx with
  | scanCore :: mainthrCore :: _ =>
      return (threads.insert launch.scanThreadTid
        (scanThread launch.mainTid tidx launch.scanThreadTid scanCore), mainthrCore)
  | _ => .error (.outOfRange .assignableCores)

/-- These are all the places. -/
theorem main_eq (library : Interpolation) (machine : Machine) (args : Args) (launch : Launch) :
    main library machine args launch = (do
      let msrs ← initialRegisters machine args launch.registers
      let plan ← generateProfilingPlan machine.cacheNumWays
      let (tidMap, _) ← takeCores machine plan args launch
      let (msrs, tidMap) ← initThreads machine launch.counters
        (tidMap.entries.map Prod.fst) (msrs, tidMap)
      let (tidMap, fdMap) ←
        createAllGroups launch.kernel args args.profiledTids (tidMap, Dict.empty)
      return (configOf library machine plan args, {
        monitor := initialMonitor args msrs
        tidMap := tidMap
        fdMap := fdMap
        firstFinishedThread := -1
        done := false
        stopped := [] })) := by
  rw [main]
  refine bind_congr fun msrs => bind_congr fun plan => ?_
  rw [takeCores]
  cases threadsOf machine plan args with
  | error fault => rfl
  | ok threads =>
      rw [ok_bind, ok_bind]
      dsimp only
      cases (assignableCores machine).drop args.profiledTids.length with
      | nil => rfl
      | cons scanCore rest =>
          cases rest with
          | nil => rfl
          | cons mainthrCore rest => rfl

/-! ## A core for every thread -/

section

variable {machine : Machine} {plan : Plan} {args : Args} {launch : Launch}

/-- Every thread has a core of the first memory node to itself, and so has the main thread. -/
structure OwnCores (machine : Machine) (tidMap : Dict ℤ ThreadInfo) (mainthrCore : ℕ) : Prop where
  onNode : ∀ tid tinfo, tidMap.get? tid = some tinfo →
    ∃ core ∈ assignableCores machine, tinfo.cores = [core]
  mainOnNode : mainthrCore ∈ assignableCores machine
  distinct : ∀ tid other tinfo record, tidMap.get? tid = some tinfo →
    tidMap.get? other = some record → tid ≠ other → tinfo.cores.Disjoint record.cores
  mainAlone : ∀ tid tinfo, tidMap.get? tid = some tinfo → mainthrCore ∉ tinfo.cores

/-- The loop over the profiled threads needs a core for each of them. -/
theorem exists_createThreads_iff {tids : List ℤ} {tidx : ℕ} {cores : List ℕ}
    {tidMap : Dict ℤ ThreadInfo} :
    (∃ threads, createThreads machine plan args tidx cores tids tidMap = .ok threads) ↔
      tids.length ≤ cores.length := by
  induction tids generalizing tidx cores tidMap with
  | nil => exact iff_of_true ⟨tidMap, by rw [createThreads]⟩ (Nat.zero_le _)
  | cons tid tids ih =>
      cases cores with
      | nil =>
          refine iff_of_false ?_ (by simp)
          rintro ⟨threads, created⟩
          cases created
      | cons core cores =>
          rw [createThreads, List.length_cons, List.length_cons, Nat.add_le_add_iff_right]
          exact ih

/-- Every thread that is asked for gets a record. -/
theorem isSome_of_createThreads {tids : List ℤ} {tidx : ℕ} {cores : List ℕ}
    {tidMap threads : Dict ℤ ThreadInfo}
    (created : createThreads machine plan args tidx cores tids tidMap = .ok threads) {tid : ℤ}
    (asked : tid ∈ tids ∨ (tidMap.get? tid).isSome) : (threads.get? tid).isSome := by
  induction tids generalizing tidx cores tidMap with
  | nil =>
      rw [createThreads] at created
      cases created
      exact asked.resolve_left (by simp)
  | cons first tids ih =>
      cases cores with
      | nil => cases created
      | cons core cores =>
          rw [createThreads] at created
          refine ih created ?_
          rw [Dict.get?_insert]
          by_cases here : tid = first
          · exact .inr (by rw [if_pos here]; rfl)
          · rw [if_neg here]
            exact asked.imp_left fun isMember => (List.mem_cons.mp isMember).resolve_left here

/-- A thread sits on the core whose position is that of the thread in the order in which the
cores are taken. -/
def Seated (cores : List ℕ) (order : List ℤ) (tid : ℤ) (tinfo : ThreadInfo) : Prop :=
  order[tinfo.tidx]? = some tid ∧ PinnedByIndex cores tinfo

/-- No core is listed twice. -/
theorem position_unique {i j core : ℕ} (first : (assignableCores machine)[i]? = some core)
    (second : (assignableCores machine)[j]? = some core) : i = j := by
  have distinct : (assignableCores machine).Nodup := List.nodup_range.filter _
  exact (List.getElem?_inj (List.getElem?_eq_some_iff.mp first).1 distinct).mp
    (first.trans second.symm)

/-- Threads at different positions do not share a core. -/
theorem ownCores_of_seated {order : List ℤ} {tidMap : Dict ℤ ThreadInfo} {mainthrCore : ℕ}
    (seated : ∀ tid tinfo, tidMap.get? tid = some tinfo →
      Seated (assignableCores machine) order tid tinfo)
    (isNext : (assignableCores machine)[order.length]? = some mainthrCore) :
    OwnCores machine tidMap mainthrCore where
  onNode := fun tid tinfo found => by
    obtain ⟨-, core, position, only⟩ := seated tid tinfo found
    exact ⟨core, List.mem_of_getElem? position, only⟩
  mainOnNode := List.mem_of_getElem? isNext
  distinct := fun tid other tinfo record found listed different => by
    obtain ⟨atTid, core, position, only⟩ := seated tid tinfo found
    obtain ⟨atOther, otherCore, otherPosition, onlyOther⟩ := seated other record listed
    rw [only, onlyOther, List.singleton_disjoint, List.mem_singleton]
    rintro rfl
    rw [position_unique position otherPosition, atOther, Option.some.injEq] at atTid
    exact different atTid.symm
  mainAlone := fun tid tinfo found isMember => by
    obtain ⟨atTid, core, position, only⟩ := seated tid tinfo found
    rw [only, List.mem_singleton] at isMember
    subst isMember
    have inside := (List.getElem?_eq_some_iff.mp atTid).1
    have samePosition := position_unique position isNext
    omega

/-- The threads that `main` creates sit on the cores in the order of the command line. -/
theorem seated_of_threadsOf {threads : Dict ℤ ThreadInfo}
    (created : threadsOf machine plan args = .ok threads) {tid : ℤ} {tinfo : ThreadInfo}
    (found : threads.get? tid = some tinfo) :
    Seated (assignableCores machine) args.profiledTids tid tinfo := by
  have untaken : args.profiledTids = [] ++ args.profiledTids := rfl
  exact ⟨(newThread_of_createThreads untaken (fun _ _ absent => by cases absent) created found).1,
    pinnedByIndex_threadsOf created found⟩

/-- What the three places return. -/
theorem takeCores_eq_ok_iff {tidMap : Dict ℤ ThreadInfo} {mainthrCore : ℕ} :
    takeCores machine plan args launch = .ok (tidMap, mainthrCore) ↔
      ∃ threads scanCore, threadsOf machine plan args = .ok threads ∧
        (assignableCores machine)[args.profiledTids.length]? = some scanCore ∧
        (assignableCores machine)[args.profiledTids.length + 1]? = some mainthrCore ∧
        tidMap = threads.insert launch.scanThreadTid (scanThread launch.mainTid
          args.profiledTids.length launch.scanThreadTid scanCore) := by
  have scanPosition : (assignableCores machine)[args.profiledTids.length]? =
      ((assignableCores machine).drop args.profiledTids.length)[0]? := by
    rw [List.getElem?_drop, Nat.add_zero]
  have mainPosition : (assignableCores machine)[args.profiledTids.length + 1]? =
      ((assignableCores machine).drop args.profiledTids.length)[1]? := by
    rw [List.getElem?_drop]
  rw [takeCores, bind_eq_ok_iff, scanPosition, mainPosition]
  refine exists_congr fun threads => ?_
  dsimp only
  cases (assignableCores machine).drop args.profiledTids.length with
  | nil => simp
  | cons scanCore rest =>
      cases rest with
      | nil => simp
      | cons second rest =>
          constructor
          · rintro ⟨created, taken⟩
            cases taken
            exact ⟨scanCore, created, rfl, rfl, rfl⟩
          · rintro ⟨core, created, isCore, isNext, rfl⟩
            cases isCore
            cases isNext
            exact ⟨created, rfl⟩

/-- The threads sit on the cores in the order in which `main` takes them, and the main thread
has the next one. -/
theorem seated_of_takeCores {tidMap : Dict ℤ ThreadInfo} {mainthrCore : ℕ}
    (taken : takeCores machine plan args launch = .ok (tidMap, mainthrCore)) :
    (∀ tid tinfo, tidMap.get? tid = some tinfo →
      Seated (assignableCores machine) (args.profiledTids ++ [launch.scanThreadTid]) tid tinfo) ∧
      (assignableCores machine)[(args.profiledTids ++ [launch.scanThreadTid]).length]? =
        some mainthrCore := by
  obtain ⟨threads, scanCore, created, scanPosition, mainPosition, rfl⟩ :=
    takeCores_eq_ok_iff.mp taken
  refine ⟨fun tid tinfo found => ?_, by rw [List.length_append]; exact mainPosition⟩
  rw [Dict.get?_insert] at found
  split at found
  · rename_i here
    cases found
    rw [here]
    exact ⟨by simp [scanThread], scanCore, scanPosition, rfl⟩
  · obtain ⟨position, pinned⟩ := seated_of_threadsOf created found
    refine ⟨?_, pinned⟩
    rw [List.getElem?_append_left (List.getElem?_eq_some_iff.mp position).1]
    exact position

/-- Where the three places return, they have given out different cores. -/
theorem ownCores_of_takeCores {tidMap : Dict ℤ ThreadInfo} {mainthrCore : ℕ}
    (taken : takeCores machine plan args launch = .ok (tidMap, mainthrCore)) :
    OwnCores machine tidMap mainthrCore := by
  obtain ⟨seated, isNext⟩ := seated_of_takeCores taken
  exact ownCores_of_seated seated isNext

/-- Two more cores are needed than threads are profiled. -/
theorem exists_takeCores_iff :
    (∃ tidMap mainthrCore, takeCores machine plan args launch = .ok (tidMap, mainthrCore)) ↔
      args.profiledTids.length + 2 ≤ (assignableCores machine).length := by
  constructor
  · rintro ⟨tidMap, mainthrCore, taken⟩
    obtain ⟨threads, scanCore, -, -, mainPosition, -⟩ := takeCores_eq_ok_iff.mp taken
    have inside := (List.getElem?_eq_some_iff.mp mainPosition).1
    omega
  · intro enough
    obtain ⟨threads, created⟩ : ∃ threads, threadsOf machine plan args = .ok threads :=
      exists_createThreads_iff.mpr (by omega)
    exact ⟨_, _, takeCores_eq_ok_iff.mpr ⟨threads, _, created,
      List.getElem?_eq_getElem (by omega), List.getElem?_eq_getElem (by omega), rfl⟩⟩

/-- What follows in `main` moves no thread. -/
theorem ownCores_of_main {library : Interpolation} {config : Config} {st : State}
    (started : main library machine args launch = .ok (config, st)) :
    args.profiledTids.length + 2 ≤ (assignableCores machine).length ∧
      ∃ mainthrCore, OwnCores machine st.tidMap mainthrCore := by
  rw [main_eq] at started
  obtain ⟨shared, -, started⟩ := bind_eq_ok_iff.mp started
  obtain ⟨plan, -, started⟩ := bind_eq_ok_iff.mp started
  obtain ⟨⟨threads, mainthrCore⟩, taken, started⟩ := bind_eq_ok_iff.mp started
  obtain ⟨⟨msrs, initial⟩, initialised, started⟩ := bind_eq_ok_iff.mp started
  obtain ⟨⟨tidMap, fdMap⟩, grouped, started⟩ := bind_eq_ok_iff.mp started
  cases started
  obtain ⟨seated, isNext⟩ := seated_of_takeCores taken
  obtain ⟨afterInit, -⟩ := forall_initThreads
    (fun _ _ _ sits => sits) seated initialised
  exact ⟨exists_takeCores_iff.mp ⟨threads, mainthrCore, taken⟩, mainthrCore, ownCores_of_seated
    (fun _ _ found => forall_createAllGroups (fun _ _ _ _ sits => sits) afterInit grouped found)
    isNext⟩

/-- Every profiled thread has its record then, and the array-scanning thread too. -/
theorem isSome_of_takeCores {tidMap : Dict ℤ ThreadInfo} {mainthrCore : ℕ}
    (taken : takeCores machine plan args launch = .ok (tidMap, mainthrCore)) {tid : ℤ}
    (asked : tid ∈ args.profiledTids ∨ tid = launch.scanThreadTid) :
    (tidMap.get? tid).isSome := by
  obtain ⟨threads, scanCore, created, -, -, rfl⟩ := takeCores_eq_ok_iff.mp taken
  rw [Dict.get?_insert]
  split
  · rfl
  · rename_i other
    exact isSome_of_createThreads created (.inl (asked.resolve_right other))

/-! ## Requests -/

/-- The word that lists the threads to profile. -/
def tidsWord (surroundings : Surroundings) (argv : List (List Char)) : List Char :=
  (lastArgument? 't' (getopt OPTSTRING surroundings.posixlyCorrect argv.tail)).getD []

/-- `tids` is set by its own option only. -/
theorem tids_of_takeOption {program : List Char} {st next : Args × Option (List Char)}
    {option : Char × List Char} (taken : takeOption program st option = .ok next) :
    next.2 = if option.1 = 't' then some option.2 else st.2 := by
  obtain ⟨args, read, taken⟩ := bind_eq_ok_iff.mp taken
  cases taken
  rfl

theorem tids_of_foldlM {program : List Char} {options : List (Char × List Char)}
    {st next : Args × Option (List Char)}
    (looped : options.foldlM (takeOption program) st = .ok next) :
    next.2 = (lastArgument? 't' options).or st.2 := by
  induction options generalizing st with
  | nil =>
      cases looped
      rfl
  | cons option rest ih =>
      rw [List.foldlM_cons] at looped
      obtain ⟨middle, taken, looped⟩ := bind_eq_ok_iff.mp looped
      rw [ih looped, tids_of_takeOption taken, lastArgument?, Option.or_assoc]
      split <;> rfl

/-- There is one thread more than commas in the word that lists them. -/
theorem length_profiledTids {surroundings : Surroundings} {argv : List (List Char)}
    (parsed : parseArgs surroundings argv = .ok args) :
    args.profiledTids.length = (tidsWord surroundings argv).count ',' + 1 := by
  obtain ⟨⟨read, listed⟩, looped, parsed⟩ := bind_eq_ok_iff.mp parsed
  have isLast := tids_of_foldlM looped
  rw [Option.or_none] at isLast
  dsimp only at isLast parsed
  cases listed with
  | none => cases parsed
  | some tids =>
      obtain ⟨profiledTids, mapped, parsed⟩ := bind_eq_ok_iff.mp parsed
      cases parsed
      rw [tidsWord, ← isLast, Option.getD_some, ← Text.length_splitOn]
      exact length_of_mapM_eq_ok mapped

/-- What is expected of the admission: the request is accepted exactly if all threads can have
a core of their own, and then they do. -/
structure ServesRequest (machine : Machine) (argv : List (List Char)) (args : Args) : Prop where
  admits_iff : admits machine argv = true ↔
    (args.profiledTids.length : ℤ) ≤ (assignableCores machine).length - 2
  cores : admits machine argv = true → ∀ plan launch, ∃ tidMap mainthrCore,
    takeCores machine plan args launch = .ok (tidMap, mainthrCore) ∧
      (∀ tid, tid ∈ args.profiledTids ∨ tid = launch.scanThreadTid →
        (tidMap.get? tid).isSome) ∧
      OwnCores machine tidMap mainthrCore

/-- The admission does what it is for if it agrees with the need for cores: what it lets through
is then served. -/
theorem servesRequest_iff_agrees {argv : List (List Char)} :
    ServesRequest machine argv args ↔
      (admits machine argv = true ↔
        args.profiledTids.length + 2 ≤ (assignableCores machine).length) := by
  have need : (args.profiledTids.length : ℤ) ≤ (assignableCores machine).length - 2 ↔
      args.profiledTids.length + 2 ≤ (assignableCores machine).length := by omega
  constructor
  · exact fun served => served.admits_iff.trans need
  · intro agrees
    refine ⟨agrees.trans need.symm, fun accepted plan launch => ?_⟩
    obtain ⟨tidMap, mainthrCore, taken⟩ :=
      (@exists_takeCores_iff machine plan args launch).mpr (agrees.mp accepted)
    exact ⟨tidMap, mainthrCore, taken, fun tid => isSome_of_takeCores taken,
      ownCores_of_takeCores taken⟩

theorem admits_iff {argv : List (List Char)} :
    admits machine argv = true ↔ argv.length ≤ (assignableCores machine).length + 6 := by
  rw [admits, decide_eq_true_eq]
  omega

/-- The admission does what it is for unless the number of cores lies between what the words
seem to need and what the threads do need: it must suffice for both, or for neither. -/
theorem servesRequest_iff {surroundings : Surroundings} {argv : List (List Char)}
    (parsed : parseArgs surroundings argv = .ok args) :
    ServesRequest machine argv args ↔
      (argv.length ≤ (assignableCores machine).length + 6 ∧
          (tidsWord surroundings argv).count ',' + 3 ≤ (assignableCores machine).length) ∨
        ((assignableCores machine).length + 6 < argv.length ∧
          (assignableCores machine).length < (tidsWord surroundings argv).count ',' + 3) := by
  have threads := length_profiledTids parsed
  rw [servesRequest_iff_agrees, admits_iff, threads]
  omega

/-- A start that succeeds had cores enough, and every thread has its own. -/
theorem ownCores_of_startProfiler {library : Interpolation} {surroundings : Surroundings}
    {argv : List (List Char)} {config : Config} {st : State}
    (started : startProfiler library machine surroundings launch argv = .ok (config, st)) :
    admits machine argv = true ∧ ∃ args, parseArgs surroundings argv = .ok args ∧
      args.profiledTids.length + 2 ≤ (assignableCores machine).length ∧
      ∃ mainthrCore, OwnCores machine st.tidMap mainthrCore := by
  rw [startProfiler] at started
  split at started
  · rename_i accepted
    obtain ⟨args, parsed, started⟩ := bind_eq_ok_iff.mp started
    obtain ⟨enough, own⟩ := ownCores_of_main started
    exact ⟨accepted, args, parsed, enough, own⟩
  · cases started

end

/-! ## The command line of the harness -/

/-- `cmd` in `profile_threads` of the harness. -/
def profileThreadsCommand (program outfileHeader resultsDir : List Char) (debug : Bool)
    (args : Args) : List (List Char) :=
  [program, '-' :: 'e' :: args.events, '-' :: 'l' :: Text.ofInt args.phaseLen,
    '-' :: 'n' :: Text.ofInt args.numPhases, '-' :: 'w' :: Text.ofInt args.mrcWarmupPeriod,
    '-' :: 'p' :: Text.ofInt args.mrcProfilePeriod, '-' :: 'f' :: outfileHeader,
    '-' :: 'g' :: Text.ofInt args.tgid, '-' :: 'r' :: resultsDir] ++
    ((if debug then [['-', 'd']] else []) ++ ((if args.mrcEstMode then [['-', 'm']] else []) ++
      [('-' :: 't' :: args.profiledTids.flatMap (Text.ofInt · ++ [','])).dropLast]))

/-- The arguments that fit into the words of such a command line. -/
structure Passable (args : Args) : Prop where
  events : args.events ≠ []
  phaseLen : args.phaseLen < 2 ^ 64
  numPhases : args.numPhases < 2 ^ 64
  mrcWarmupPeriod : args.mrcWarmupPeriod < 2 ^ 64
  mrcProfilePeriod : args.mrcProfilePeriod < 2 ^ 64
  tgid : -2 ^ 31 ≤ args.tgid ∧ args.tgid < 2 ^ 31
  profiled : args.profiledTids ≠ []
  profiledTids : ∀ tid ∈ args.profiledTids, -2 ^ 31 ≤ tid ∧ tid < 2 ^ 31

theorem stoul_ofInt {n : ℕ} (fits : n < 2 ^ 64) : stoul (Text.ofInt n) = .ok n := by
  rw [stoul, leadingInt?_ofInt]
  dsimp only
  rw [if_pos (by omega)]
  congr 1
  omega

theorem stoi_ofInt {z : ℤ} (fits : -2 ^ 31 ≤ z ∧ z < 2 ^ 31) : stoi (Text.ofInt z) = .ok z := by
  rw [stoi, leadingInt?_ofInt]
  exact if_pos fits

theorem mapM_stoi {tids : List ℤ} (fit : ∀ tid ∈ tids, -2 ^ 31 ≤ tid ∧ tid < 2 ^ 31) :
    (tids.map Text.ofInt).mapM stoi = .ok tids := by
  induction tids with
  | nil => rfl
  | cons tid tids ih =>
      rw [List.map_cons, List.mapM_cons, stoi_ofInt (fit tid List.mem_cons_self), ok_bind,
        ih fun other isMember => fit other (List.mem_cons_of_mem _ isMember)]
      rfl

variable {args : Args} {program outfileHeader resultsDir : List Char} {debug : Bool}

theorem tids_of_profileThreadsCommand (profiled : args.profiledTids ≠ []) :
    ('-' :: 't' :: args.profiledTids.flatMap (Text.ofInt · ++ [','])).dropLast =
      '-' :: 't' :: Text.commaJoined (args.profiledTids.map Text.ofInt) := by
  obtain ⟨first, rest, isList⟩ := List.exists_cons_of_ne_nil profiled
  have joined := Text.dropLast_flatMap_comma (args.profiledTids.map Text.ofInt)
  rw [List.flatMap_map] at joined
  rw [← joined, isList]
  simp [List.dropLast]

theorem splitOn_tids (profiled : args.profiledTids ≠ []) :
    (Text.commaJoined (args.profiledTids.map Text.ofInt)).splitOn ',' =
      args.profiledTids.map Text.ofInt := by
  refine Text.splitOn_commaJoined (by simpa using profiled) fun field isField => ?_
  obtain ⟨tid, -, rfl⟩ := List.mem_map.mp isField
  exact Text.comma_not_mem_ofInt tid

/-- Each word of the harness is taken for the option that it is meant for. -/
theorem getopt_profileThreadsCommand (passable : Passable args)
    (header : outfileHeader ≠ []) (results : resultsDir ≠ []) (posixlyCorrect : Bool) :
    getopt OPTSTRING posixlyCorrect
        (profileThreadsCommand program outfileHeader resultsDir debug args).tail =
      [('e', args.events), ('l', Text.ofInt args.phaseLen), ('n', Text.ofInt args.numPhases),
        ('w', Text.ofInt args.mrcWarmupPeriod), ('p', Text.ofInt args.mrcProfilePeriod),
        ('f', outfileHeader), ('g', Text.ofInt args.tgid), ('r', resultsDir)] ++
        ((if debug then [('d', [])] else []) ++ ((if args.mrcEstMode then [('m', [])] else []) ++
          [('t', Text.commaJoined (args.profiledTids.map Text.ofInt))])) := by
  have noneEmpty : ∀ z, Text.ofInt z ≠ [] := fun z => (Text.isWord_ofInt z).1
  have someTids : Text.commaJoined (args.profiledTids.map Text.ofInt) ≠ [] := by
    intro isEmpty
    have pieces := splitOn_tids passable.profiled
    rw [isEmpty] at pieces
    have noTid : [] ∈ args.profiledTids.map Text.ofInt := by simp [← pieces]
    obtain ⟨tid, -, isNil⟩ := List.mem_map.mp noTid
    exact noneEmpty tid isNil
  rw [profileThreadsCommand, tids_of_profileThreadsCommand passable.profiled]
  simp only [List.cons_append, List.tail_cons, List.nil_append]
  rw [getopt_attached rfl passable.events, getopt_attached rfl (noneEmpty _),
    getopt_attached rfl (noneEmpty _), getopt_attached rfl (noneEmpty _),
    getopt_attached rfl (noneEmpty _), getopt_attached rfl header,
    getopt_attached rfl (noneEmpty _), getopt_attached rfl results,
    getopt_optional (by decide) rfl, getopt_optional (by decide) rfl,
    getopt_attached rfl someTids, getopt_nil]

/-- The loop reads the arguments that the harness has written. -/
theorem foldlM_takeOption (passable : Passable args) {start : Args}
    (noMode : start.mrcEstMode = false) (tids : List Char) :
    ([('e', args.events), ('l', Text.ofInt args.phaseLen), ('n', Text.ofInt args.numPhases),
        ('w', Text.ofInt args.mrcWarmupPeriod), ('p', Text.ofInt args.mrcProfilePeriod),
        ('f', outfileHeader), ('g', Text.ofInt args.tgid), ('r', resultsDir)] ++
        ((if debug then [('d', [])] else []) ++ ((if args.mrcEstMode then [('m', [])] else []) ++
          [('t', tids)]))).foldlM (takeOption program) (start, none) =
      .ok ({ args with profiledTids := start.profiledTids }, some tids) := by
  have settings : ∀ rest : List (Char × List Char),
      ([('e', args.events), ('l', Text.ofInt args.phaseLen), ('n', Text.ofInt args.numPhases),
        ('w', Text.ofInt args.mrcWarmupPeriod), ('p', Text.ofInt args.mrcProfilePeriod),
        ('f', outfileHeader), ('g', Text.ofInt args.tgid), ('r', resultsDir)] ++ rest).foldlM
          (takeOption program) (start, none) =
        rest.foldlM (takeOption program)
          ({ args with mrcEstMode := false, profiledTids := start.profiledTids }, none) := by
    intro rest
    simp [takeOption, readOption, stoul_ofInt passable.phaseLen, stoul_ofInt passable.numPhases,
      stoul_ofInt passable.mrcWarmupPeriod, stoul_ofInt passable.mrcProfilePeriod,
      stoi_ofInt passable.tgid, noMode]
  rw [settings]
  cases debug with
  | false =>
      cases isMode : args.mrcEstMode with
      | false => rfl
      | true => rfl
  | true =>
      cases isMode : args.mrcEstMode with
      | false => rfl
      | true => rfl

/-- The profiler reads the arguments that the harness has written. -/
theorem parseArgs_profileThreadsCommand (passable : Passable args)
    (header : outfileHeader ≠ []) (results : resultsDir ≠ []) (surroundings : Surroundings) :
    parseArgs surroundings (profileThreadsCommand program outfileHeader resultsDir debug args) =
      .ok args := by
  rw [parseArgs, getopt_profileThreadsCommand passable header results]
  dsimp only
  rw [foldlM_takeOption passable rfl, ok_bind]
  dsimp only
  rw [splitOn_tids passable.profiled, mapM_stoi passable.profiledTids]
  rfl

/-- A command line of the harness is admitted for its switches, whatever its threads are. -/
theorem admits_profileThreadsCommand (machine : Machine) :
    admits machine (profileThreadsCommand program outfileHeader resultsDir debug args) = true ↔
      4 + debug.toNat + args.mrcEstMode.toNat ≤ (assignableCores machine).length := by
  have words : (profileThreadsCommand program outfileHeader resultsDir debug args).length =
      10 + debug.toNat + args.mrcEstMode.toNat := by
    rw [profileThreadsCommand]
    cases debug with
    | false => cases args.mrcEstMode <;> rfl
    | true => cases args.mrcEstMode <;> rfl
  rw [admits_iff, words]
  omega

/-- So its requests are served exactly if as many cores are enough for the threads as for the
switches. -/
theorem servesRequest_profileThreadsCommand_iff (machine : Machine) :
    ServesRequest machine (profileThreadsCommand program outfileHeader resultsDir debug args)
        args ↔
      (4 + debug.toNat + args.mrcEstMode.toNat ≤ (assignableCores machine).length ↔
        args.profiledTids.length + 2 ≤ (assignableCores machine).length) := by
  rw [servesRequest_iff_agrees, admits_profileThreadsCommand]

/-! ## Too many words, and too many threads -/

/-- One thread, profiled for its miss curves. -/
def oneThread : Args := { twoThreads with events := "ref_cycles".toList, profiledTids := [100] }

/-- Five threads, profiled without them. -/
def fiveThreads : Args :=
  { oneThread with mrcEstMode := false, profiledTids := [100, 101, 102, 103, 104] }

/-- Two threads, profiled without them. -/
def fittingThreads : Args := { fiveThreads with profiledTids := [100, 101] }

/-- The command line that the harness makes of a request. -/
def harnessCommand (args : Args) : List (List Char) :=
  profileThreadsCommand "datamime-profiler".toList "out".toList "/tmp/results".toList false args

/-- A process that nothing sets up, in an environment without settings. -/
def plainSurroundings : Surroundings := ⟨false, twoThreads⟩

theorem parseArgs_harnessCommand {args : Args} (passable : Passable args) :
    parseArgs plainSurroundings (harnessCommand args) = .ok args :=
  parseArgs_profileThreadsCommand passable (by decide) (by decide) plainSurroundings

/-- On a node of four cores, the request for one thread is turned down, and the one for five
threads is accepted and runs out of cores. -/
theorem admission_counts_words :
    parseArgs plainSurroundings (harnessCommand oneThread) = .ok oneThread ∧
      admits interleavedMachine (harnessCommand oneThread) = false ∧
      ¬ ServesRequest interleavedMachine (harnessCommand oneThread) oneThread ∧
      parseArgs plainSurroundings (harnessCommand fiveThreads) = .ok fiveThreads ∧
      admits interleavedMachine (harnessCommand fiveThreads) = true ∧
      takeCores interleavedMachine twelveWayPlan fiveThreads quietLaunch =
        .error (.outOfRange .assignableCores) ∧
      ¬ ServesRequest interleavedMachine (harnessCommand fiveThreads) fiveThreads := by
  have fourCores : (assignableCores interleavedMachine).length = 4 := by decide
  have turnedDown : admits interleavedMachine (harnessCommand oneThread) = false := by decide
  have accepted : admits interleavedMachine (harnessCommand fiveThreads) = true := by decide
  refine ⟨parseArgs_harnessCommand ?_, turnedDown, fun served => ?_,
    parseArgs_harnessCommand ?_, accepted, rfl, fun served => ?_⟩
  · exact ⟨by decide, by decide, by decide, by decide, by decide, by decide, by decide, by decide⟩
  · have fits : admits interleavedMachine (harnessCommand oneThread) = true := by
      rw [served.admits_iff, fourCores]
      decide
    rw [turnedDown] at fits
    cases fits
  · exact ⟨by decide, by decide, by decide, by decide, by decide, by decide, by decide, by decide⟩
  · have fits := served.admits_iff.mp accepted
    rw [fourCores] at fits
    exact absurd fits (by decide)

/-- The exact condition, applied to a request for two threads on that node. -/
theorem fittingThreads_servesRequest_iff :
    ServesRequest interleavedMachine (harnessCommand fittingThreads) fittingThreads ↔
      ((harnessCommand fittingThreads).length ≤ (assignableCores interleavedMachine).length + 6 ∧
          (tidsWord plainSurroundings (harnessCommand fittingThreads)).count ',' + 3 ≤
            (assignableCores interleavedMachine).length) ∨
        ((assignableCores interleavedMachine).length + 6 < (harnessCommand fittingThreads).length ∧
          (assignableCores interleavedMachine).length <
            (tidsWord plainSurroundings (harnessCommand fittingThreads)).count ',' + 3) :=
  servesRequest_iff (parseArgs_harnessCommand
    ⟨by decide, by decide, by decide, by decide, by decide, by decide, by decide, by decide⟩)

end Datamime.Profiler
