/-
# A whole session with agents

If all agents synchronize as often as the master, a session comes to its end however the messages
are delayed: no instance dies or waits for ever. All instances then know the same count of
connections, and the statistics of the master are the sums over all instances.
-/

import Datamime.Math.Rendezvous
import Datamime.Mutilate.Barrier

namespace Datamime.Mutilate.Agents

open Datamime.Math Conversation

variable {P T : Type} {n : ℕ}

/-! ## What an instance measures -/

/-- What a thread adds up. -/
def threadReport (args : Args) (options : RunOptions T) (servers : List String) (load : Load T)
    (thread : ℕ) (report : Report T) : Report T :=
  if options.loadonly then report
  else load.measure thread (connectionCount args options servers) report

/-- What the threads of an instance add up. -/
def localReport [Zero T] (args : Args) (options : RunOptions T) (servers : List String)
    (load : Load T) (report : Report T) : Report T :=
  if 1 < options.threads then
    (List.range options.threads.toNat).foldl (fun report thread =>
      report.accumulate (threadReport args options (threadServers options servers thread) load
        thread .initial)) report
  else if options.threads = 1 then threadReport args options servers load 0 report
  else report

/-- How often an instance synchronizes in a round. -/
def syncs (hasAgents : Bool) (options : RunOptions T) : ℕ :=
  if options.threads < 1 then (if hasAgents then 1 else 0)
  else if options.loadonly then 0
  else if 0 < options.warmup then 2 else 1

/-- One synchronization after the other. -/
def repeatSync (sync : Program P (Message T) Event Unit) : ℕ → Program P (Message T) Event Unit
  | 0 => pure ()
  | count + 1 => do
      sync
      repeatSync sync count

section

variable {sync : Program P (Message T) Event Unit} {args : Args} {options : RunOptions T}
  {servers : List String} {load : Load T} {report : Report T} {thread : ℕ}

/-- A thread that is not the first one does not talk. -/
theorem doMutilate_other :
    doMutilate sync args options servers load thread report false =
      pure (threadReport args options servers load thread report) := by
  rw [doMutilate, threadReport]
  split
  · rfl
  · simp

/-- The first thread synchronizes before each phase. -/
theorem doMutilate_first (runs : ¬ options.threads < 1) :
    doMutilate sync args options servers load thread report true =
      repeatSync sync (syncs true options) >>= fun _ =>
        pure (threadReport args options servers load thread report) := by
  rw [doMutilate, threadReport, syncs, if_neg runs]
  by_cases isLoadonly : options.loadonly = true
  · rw [if_pos isLoadonly, if_pos isLoadonly, if_pos isLoadonly]
    rfl
  · rw [if_neg isLoadonly, if_neg isLoadonly, if_neg isLoadonly]
    dsimp only
    by_cases warm : 0 < options.warmup
    · rw [if_pos ⟨warm, rfl⟩, if_pos rfl, if_pos warm]
      simp only [repeatSync, bind_assoc, pure_bind]
    · rw [if_neg fun both => warm both.1, if_pos rfl, if_neg warm]
      simp only [repeatSync, bind_assoc, pure_bind]

/-- All threads but the first. -/
theorem foldlM_others [Zero T] {threads : List ℕ} (others : ∀ thread ∈ threads, thread ≠ 0) :
    threads.foldlM (fun report thread => do
        let stats ← doMutilate sync args options (threadServers options servers thread) load thread
          .initial (thread = 0)
        return report.accumulate stats) report =
      pure (threads.foldl (fun report thread => report.accumulate
        (threadReport args options (threadServers options servers thread) load thread .initial))
        report) := by
  induction threads generalizing report with
  | nil => rfl
  | cons thread threads ih =>
      have isOther : decide (thread = 0) = false :=
        decide_eq_false (others thread List.mem_cons_self)
      rw [List.foldlM_cons, List.foldl_cons, isOther, doMutilate_other, pure_bind, pure_bind]
      exact ih fun later listed => others later (List.mem_cons_of_mem thread listed)

theorem syncs_of_runs (hasAgents : Bool) (runs : ¬ options.threads < 1) :
    syncs hasAgents options = syncs true options := by
  rw [syncs, syncs, if_neg runs, if_neg runs]

/-- An instance synchronizes, and adds up what its threads have measured. -/
theorem runThreads_eq [Zero T] (hasAgents : Bool) :
    runThreads hasAgents sync args options servers load report =
      repeatSync sync (syncs hasAgents options) >>= fun _ =>
        pure (localReport args options servers load report) := by
  rw [runThreads, localReport]
  by_cases isMany : 1 < options.threads
  · have runs : ¬ options.threads < 1 := by omega
    obtain ⟨count, isCount⟩ : ∃ count, options.threads.toNat = count + 1 :=
      ⟨options.threads.toNat - 1, by omega⟩
    have isFirst : decide (0 = 0) = true := rfl
    have others : ∀ thread ∈ (List.range count).map Nat.succ, thread ≠ 0 := by
      intro thread listed
      obtain ⟨before, -, rfl⟩ := List.mem_map.mp listed
      exact Nat.succ_ne_zero before
    rw [if_pos isMany, if_pos isMany, isCount, List.range_succ_eq_map, List.foldlM_cons,
      List.foldl_cons, isFirst, doMutilate_first runs, syncs_of_runs hasAgents runs]
    simp only [bind_assoc, pure_bind]
    rw [foldlM_others others]
  · rw [if_neg isMany, if_neg isMany]
    by_cases isOne : options.threads = 1
    · have runs : ¬ options.threads < 1 := by omega
      rw [if_pos isOne, if_pos isOne, doMutilate_first runs, syncs_of_runs hasAgents runs]
    · have rests : options.threads < 1 := by omega
      rw [if_neg isOne, if_neg isOne, syncs, if_pos rests]
      cases hasAgents with
      | false => rfl
      | true => simp [repeatSync]

end

/-! ## The parts of a round of an agent -/

section

variable {A : Type} {i : Fin n} {text expected reason : String}

theorem expect_text :
    (expect expected reason (.text expected) : Program P (Message T) Event Unit) = pure () := by
  rw [expect, Message.isText, beq_self_eq_true, if_pos rfl]

/-- What an agent does when it has reported to the master. -/
def reports (options : RunOptions T) (servers : List String) (report : Report T) :
    Program Unit (Message T) Event (Round T) := do
  let _ ← Program.hear ()
  Program.tell () (.stats report)
  return { options, servers, report }

/-- What it does when it knows the count of connections. -/
def measures [Zero T] (args : Args) (options : RunOptions T) (servers : List String)
    (load : Load T) : Program Unit (Message T) Event (Round T) := do
  let report ← runThreads false syncAgent args options servers load .initial
  reports options servers report

/-- What it does when it knows the servers. -/
def awaitsCount [Mul T] [Div T] [IntCast T] [Zero T] (args : Args) (options : RunOptions T)
    (servers : List String) (load : Load T) : Program Unit (Message T) Event (Round T) := do
  let request ← Program.hear ()
  let lambdaDenom ← readNumber request
  Program.tell () (.text "THANKS")
  measures args (shareRate args options lambdaDenom) servers load

theorem servers_talk {servers got : List String}
    {next : List String → Program Unit (Message T) Event A} :
    TalksTo i (forM servers fun server => do
        Program.tell i (.text server)
        let _ ← Program.hear i)
      (receiveServers servers.length got >>= next) () (next (got ++ servers)) := by
  induction servers generalizing got with
  | nil =>
      rw [List.append_nil]
      exact .pure
  | cons server servers ih =>
      rw [List.forM_cons, List.length_cons, receiveServers]
      simp only [bind_assoc]
      have onward : TalksTo i _ (receiveServers servers.length (got ++ [server]) >>= next) ()
          (next (got ++ [server] ++ servers)) := ih
      rw [List.append_assoc, List.singleton_append] at onward
      exact (TalksTo.tell _ _).bind ((TalksTo.hear _ _).bind onward)

variable (rest : Round T → Program Unit (Message T) Event A)

theorem greet_talks [Mul T] [Div T] [IntCast T] [Zero T] (args : Args) (load : Load T)
    {options : RunOptions T} {servers : List String}
    (isLength : options.serverGiven = servers.length) :
    TalksTo i (greet options servers i) (agentRound args load >>= rest)
      (args.threads * args.lambdaMul) (awaitsCount args options servers load >>= rest) := by
  simp only [greet, agentRound, awaitsCount, measures, reports, bind_assoc]
  refine (TalksTo.tell _ _).bind ((TalksTo.hear _ _).bind ?_)
  simp only [readOptions_options, readNumber_number, pure_bind, isLength]
  exact servers_talk.bind .pure

theorem count_talks [Mul T] [Div T] [IntCast T] [Zero T] (args : Args) (load : Load T)
    (options : RunOptions T) (servers : List String) (lambdaDenom : ℤ) :
    TalksTo i (do
        Program.tell i (.number lambdaDenom)
        let _ ← Program.hear i)
      (awaitsCount args options servers load >>= rest) ()
      (measures args (shareRate args options lambdaDenom) servers load >>= rest) := by
  rw [awaitsCount]
  simp only [bind_assoc]
  exact (TalksTo.tell _ _).bind ((TalksTo.hear _ _).bind .pure)

theorem finish_talks (options : RunOptions T) (servers : List String) (own report : Report T) :
    TalksTo i (do
        Program.tell i (.text "stats")
        let answer ← Program.hear i
        let stats ← readStats answer
        return own.accumulate stats)
      (reports options servers report >>= rest) (own.accumulate report)
      (rest { options, servers, report }) := by
  rw [reports]
  simp only [bind_assoc]
  exact (TalksTo.tell _ _).bind ((TalksTo.hear _ _).bind .pure)

/-! ## The loops of the master -/

variable {R : Type} {before after : Fin n → Program Unit (Message T) Event A}

theorem each_socket {body : Fin n → Program (Fin n) (Message T) Event Unit}
    (turn : ∀ i, TalksTo i (body i) (before i) () (after i)) :
    Talks (forM (agentSockets n) body) before () after := by
  have isAfter : (fun i => if i ∈ agentSockets n then after i else before i) = after :=
    funext fun i => if_pos (List.mem_finRange i)
  rw [← isAfter]
  exact Talks.each (List.nodup_finRange n) (fun i _ => turn i) fun _ _ => rfl

theorem fold_sockets {body : R → Fin n → Program (Fin n) (Message T) Event R}
    {combine : R → Fin n → R} (start : R)
    (turn : ∀ i result, TalksTo i (body result i) (before i) (combine result i) (after i)) :
    Talks ((agentSockets n).foldlM body start) before ((agentSockets n).foldl combine start)
      after := by
  have isAfter : (fun i => if i ∈ agentSockets n then after i else before i) = after :=
    funext fun i => if_pos (List.mem_finRange i)
  rw [← isAfter]
  exact Talks.foldlM (List.nodup_finRange n) (fun i _ result => turn i result) fun _ _ => rfl

/-- The agent expects what the master sends. -/
theorem tellCheck_talks (next : Unit → Program Unit (Message T) Event A) :
    TalksTo i (Program.tell i (.text expected))
      (Program.hear () >>= fun message => expect expected reason message >>= next) ()
      (next ()) := by
  have talks := TalksTo.tell (i := i) (.text expected : Message T)
    fun message => expect expected reason message >>= next
  rwa [expect_text, pure_bind] at talks

/-- The master expects what the agent sends. -/
theorem hearCheck_talks (next : Unit → Program Unit (Message T) Event A) :
    TalksTo i (Program.hear i >>= fun answer => expect expected reason answer)
      (Program.tell () (.text expected) >>= next) () (next ()) := by
  refine (TalksTo.hear _ _).bind ?_
  rw [expect_text]
  exact .pure

/-- All come through one synchronization. -/
theorem sync_talks (next : Fin n → Unit → Program Unit (Message T) Event A) :
    Talks syncMaster (fun i => syncAgent >>= next i) () fun i => next i () := by
  rw [syncMaster]
  simp only [syncAgent, bind_assoc]
  refine (Talks.note _).bind ?_
  refine (each_socket fun i => (tellCheck_talks _).noteFirst).bind ?_
  refine (each_socket fun i => hearCheck_talks _).bind ?_
  refine (each_socket fun i => tellCheck_talks _).bind ?_
  refine (each_socket fun i => ?_).bind (Talks.note _)
  refine (TalksTo.hear _ _).bind ?_
  rw [expect_text]
  exact TalksTo.pure.noteFirst

theorem repeatSync_talks (count : ℕ) (next : Fin n → Unit → Program Unit (Message T) Event A) :
    Talks (repeatSync syncMaster count) (fun i => repeatSync syncAgent count >>= next i) ()
      fun i => next i () := by
  induction count with
  | zero => exact .pure
  | succ count ih =>
      simp only [repeatSync, bind_assoc]
      exact (sync_talks _).bind ih

end

/-! ## A team -/

/-- The master and its agents, with all that they measure. -/
structure Team (n : ℕ) (T : Type) where
  args : Args
  /-- The rate that is chosen for a round after the ones before. -/
  choose : ℕ → List (Round T) → Option ℤ
  loads : ℕ → Load T
  agentArgs : Fin n → Args
  agentLoads : Fin n → ℕ → Load T

/-- How often a thread that measures synchronizes in a round. -/
def Args.phases (args : Args) : ℕ :=
  if args.loadonly then 0 else if 0 < args.warmup.getD 0 then 2 else 1

/-- How often a master with these arguments synchronizes in a round. -/
def Args.masterSyncs (args : Args) : ℕ := if args.threads < 1 then 1 else args.phases

/-- How often an agent does, with the arguments of the master and its own. -/
def Args.agentSyncs (args own : Args) : ℕ := if own.threads < 1 then 0 else args.phases

namespace Team

/-- Every agent synchronizes as often as the master. -/
def InStep (team : Team n T) : Prop :=
  ∀ i, team.args.agentSyncs (team.agentArgs i) = team.args.masterSyncs

variable [Mul T] [Div T] [IntCast T] (team : Team n T) (options : RunOptions T)

/-- The count of the connections of all instances. -/
def lambdaDenom : ℤ :=
  (agentSockets n).foldl (fun sum i =>
    addAgent (sharedOptions team.args options) team.args.servers.length sum
      ((team.agentArgs i).threads * (team.agentArgs i).lambdaMul)) (startSum team.args options)

def masterOptions : RunOptions T :=
  settle team.args (sharedOptions team.args options) (team.lambdaDenom options)
    (masterSum team.args options)

def agentOptions (i : Fin n) : RunOptions T :=
  shareRate (team.agentArgs i) (sharedOptions team.args options) (team.lambdaDenom options)

variable [Zero T] (round : ℕ)

def agentReport (i : Fin n) : Report T :=
  localReport (team.agentArgs i) (team.agentOptions options i) team.args.servers
    (team.agentLoads i round) .initial

/-- The statistics of the master with those of all agents. -/
def report : Report T :=
  (agentSockets n).foldl (fun report i => report.accumulate (team.agentReport options round i))
    (localReport team.args (team.masterOptions options) team.args.servers (team.loads round)
      .initial)

def masterRound : Round T where
  options := team.masterOptions options
  servers := team.args.servers
  report := team.report options round

def agentRound (i : Fin n) : Round T where
  options := team.agentOptions options i
  servers := team.args.servers
  report := team.agentReport options round i

/-- The options with which the master starts a round. -/
def roundOptions (before : List (Round T)) : RunOptions T :=
  withQps team.args (team.choose round before)

/-- The rounds of the master. -/
def rounds : ℕ → List (Round T)
  | 0 => []
  | count + 1 =>
      rounds count ++ [team.masterRound (team.roundOptions count (rounds count)) count]

/-- The rounds of an agent. -/
def agentRounds (i : Fin n) : ℕ → List (Round T)
  | 0 => []
  | count + 1 => agentRounds i count ++
      [team.agentRound (team.roundOptions count (team.rounds count)) count i]

/-- A list that grows by one entry with each number. -/
theorem eq_map_range {R : Type} {grown : ℕ → List R} {entry : ℕ → R} (atStart : grown 0 = [])
    (grows : ∀ k, grown (k + 1) = grown k ++ [entry k]) (count : ℕ) :
    grown count = (List.range count).map entry := by
  induction count with
  | zero => rw [atStart, List.range_zero, List.map_nil]
  | succ count ih => rw [grows, ih, List.range_succ, List.map_append, List.map_singleton]

theorem rounds_getElem? (team : Team n T) {k count : ℕ} (isIn : k < count) :
    (team.rounds count)[k]? =
      some (team.masterRound (team.roundOptions k (team.rounds k)) k) := by
  have isMap : team.rounds count = _ := eq_map_range rfl (fun _ => rfl) count
  rw [isMap, List.getElem?_map, List.getElem?_range isIn, Option.map_some]

theorem agentRounds_getElem? (team : Team n T) (i : Fin n) {k count : ℕ} (isIn : k < count) :
    (team.agentRounds i count)[k]? =
      some (team.agentRound (team.roundOptions k (team.rounds k)) k i) := by
  have isMap : team.agentRounds i count = _ := eq_map_range rfl (fun _ => rfl) count
  rw [isMap, List.getElem?_map, List.getElem?_range isIn, Option.map_some]

/-! ### The options of a round -/

omit [Mul T] [Div T] [IntCast T] [Zero T] in
theorem sharedOptions_eq (args : Args) (options : RunOptions T) :
    ∃ qps, sharedOptions args options = { options with qps } := by
  rw [sharedOptions]
  cases args.measureQps with
  | none => exact ⟨options.qps, rfl⟩
  | some qps =>
      rw [Option.elim_some]
      split
      · exact ⟨options.qps, rfl⟩
      · exact ⟨options.qps - qps, rfl⟩

omit [Zero T] in
theorem withQps_eq (args : Args) (chosen : Option ℤ) : ∃ (qps : ℤ) (lambda : T),
    withQps args chosen = { (argsToOptions args : RunOptions T) with qps, lambda } := by
  cases chosen with
  | none => exact ⟨_, _, rfl⟩
  | some qps => exact ⟨qps, _, rfl⟩

omit [Zero T] in
theorem settle_eq (args : Args) (options : RunOptions T) (sum masterSum : ℤ) :
    ∃ lambda depth, settle args options sum masterSum =
      { options with lambdaDenom := sum, lambda, depth } := by
  rw [settle]
  cases args.measureQps <;> cases args.measureDepth <;> exact ⟨_, _, rfl⟩

omit [Zero T] in
/-- In step, the options of all instances lead to equally many synchronizations. -/
theorem InStep.syncs_eq {team : Team n T} (inStep : team.InStep) (before : List (Round T))
    (round : ℕ) (i : Fin n) :
    syncs false (team.agentOptions (team.roundOptions round before) i) =
      syncs true (team.masterOptions (team.roundOptions round before)) := by
  rw [roundOptions]
  obtain ⟨qps, lambda, isRound⟩ :=
    withQps_eq (T := T) team.args (team.choose round before)
  rw [agentOptions, masterOptions, isRound]
  obtain ⟨shared, isShared⟩ :=
    sharedOptions_eq team.args { (argsToOptions team.args : RunOptions T) with qps, lambda }
  rw [isShared]
  obtain ⟨lambda, depth, isSettled⟩ := settle_eq (T := T) team.args _ _ _
  rw [isSettled]
  exact inStep i

/-! ### A round -/

section

variable {team options} {A : Type}

omit [Mul T] [Div T] [IntCast T] [Zero T] in
theorem serverGiven_shared (isGiven : options.serverGiven = team.args.servers.length) :
    (sharedOptions team.args options).serverGiven = team.args.servers.length := by
  obtain ⟨qps, isShared⟩ := sharedOptions_eq team.args options
  rw [isShared]
  exact isGiven

theorem prepAgent_talks (isGiven : options.serverGiven = team.args.servers.length)
    (next : Fin n → Round T → Program Unit (Message T) Event A) :
    Talks (prepAgent team.args options)
      (fun i => Agents.agentRound (team.agentArgs i) (team.agentLoads i round) >>= next i)
      (team.masterOptions options)
      fun i => measures (team.agentArgs i) (team.agentOptions options i) team.args.servers
        (team.agentLoads i round) >>= next i := by
  rw [prepAgent]
  have greets : Talks ((agentSockets n).foldlM (fun sum i => do
        let number ← greet (sharedOptions team.args options) team.args.servers i
        return addAgent (sharedOptions team.args options) team.args.servers.length sum number)
        (startSum team.args options))
      (fun i => Agents.agentRound (team.agentArgs i) (team.agentLoads i round) >>= next i)
      (team.lambdaDenom options)
      fun i => awaitsCount (team.agentArgs i) (sharedOptions team.args options) team.args.servers
        (team.agentLoads i round) >>= next i :=
    fold_sockets _ fun i sum =>
      (greet_talks _ _ _ (serverGiven_shared isGiven)).bind .pure
  refine greets.bind ((each_socket fun i => count_talks _ _ _ _ _ _).bind ?_)
  exact Talks.pure

/-- In step, the master and the agents come through a round. -/
theorem go_talks (inStep : ∀ i, syncs false (team.agentOptions options i) =
      syncs true (team.masterOptions options))
    (isGiven : options.serverGiven = team.args.servers.length)
    (next : Fin n → Round T → Program Unit (Message T) Event A) :
    Talks (go team.args options (team.loads round))
      (fun i => Agents.agentRound (team.agentArgs i) (team.agentLoads i round) >>= next i)
      (team.masterRound options round) fun i => next i (team.agentRound options round i) := by
  rw [go]
  refine (prepAgent_talks round isGiven next).bind ?_
  simp only [measures, runThreads_eq, inStep, bind_assoc, pure_bind]
  refine (repeatSync_talks _ _).bind ?_
  have finishes := fold_sockets
    (localReport team.args (team.masterOptions options) team.args.servers (team.loads round)
      .initial) fun (i : Fin n) (own : Report T) =>
    finish_talks (next i) (team.agentOptions options i) team.args.servers own
      (team.agentReport options round i)
  exact finishes.bind .pure

theorem master_succ (args : Args) (choose : ℕ → List (Round T) → Option ℤ) (loads : ℕ → Load T)
    (count : ℕ) :
    (master args choose loads (count + 1) : Program (Fin n) (Message T) Event _) =
      master args choose loads count >>= fun before =>
        go args (withQps args (choose count before)) (loads count) >>= fun last =>
          pure (before ++ [last]) := by
  rw [master, List.range_succ, List.foldlM_append]
  simp only [List.foldlM_cons, List.foldlM_nil, bind_assoc, pure_bind]
  rfl

theorem agent_succ (args : Args) (loads : ℕ → Load T) (count : ℕ) :
    agent args loads (count + 1) =
      agent args loads count >>= fun before => Agents.agentRound args (loads count) >>= fun last =>
        pure (before ++ [last]) := by
  rw [agent, List.range_succ, List.foldlM_append]
  simp only [List.foldlM_cons, List.foldlM_nil, bind_assoc, pure_bind]
  rfl

/-- In step, all come through any number of rounds. -/
theorem master_talks (inStep : team.InStep) (count : ℕ)
    (next : Fin n → List (Round T) → Program Unit (Message T) Event A) :
    Talks (master team.args team.choose team.loads count)
      (fun i => agent (team.agentArgs i) (team.agentLoads i) count >>= next i)
      (team.rounds count) fun i => next i (team.agentRounds i count) := by
  induction count generalizing next with
  | zero => exact .pure
  | succ count ih =>
      have isGiven : (team.roundOptions count (team.rounds count)).serverGiven =
          team.args.servers.length := by
        obtain ⟨qps, lambda, isRound⟩ :=
          withQps_eq (T := T) team.args (team.choose count (team.rounds count))
        rw [roundOptions, isRound]
        rfl
      simp only [master_succ, agent_succ, bind_assoc, pure_bind]
      refine (ih _).bind ((go_talks count (inStep.syncs_eq _ count) isGiven _).bind ?_)
      exact .pure

end

/-- The instances before the first round. -/
def start (count : ℕ) : Cluster n T :=
  .start (master team.args team.choose team.loads count)
    fun i => agent (team.agentArgs i) (team.agentLoads i) count

/-- All instances have come to the end of their rounds. -/
def Finished (cluster : Cluster n T) (count : ℕ) : Prop :=
  cluster.Ends (team.rounds count) fun i => team.agentRounds i count

/-- In step, all instances come to the end of their rounds. -/
theorem start_leads {team : Team n T} (inStep : team.InStep) (count : ℕ) :
    Leads (master team.args team.choose team.loads count)
      (fun i => agent (team.agentArgs i) (team.agentLoads i) count)
      (.done (team.rounds count)) fun i => .done (team.agentRounds i count) := by
  have talks := (master_talks inStep count fun _ rounds => pure rounds).leads pure
  simp only [bind_pure] at talks
  exact talks

/-- If every agent synchronizes as often as the master, a session ends in every run. However the
messages are delayed, no run is longer than one fixed number, every run can go on to the end of the
session, and where no instance can do anything more, all have come to that end. -/
theorem session_finishes {team : Team n T} (inStep : team.InStep) (count : ℕ) :
    ∃ bound, ∀ schedule cluster, run step (team.start count) schedule = .ok cluster →
      schedule.length ≤ bound ∧
      (∃ rest last, run step cluster rest = .ok last ∧ team.Finished last count) ∧
      (Final step cluster → team.Finished cluster count) :=
  (start_leads inStep count).completes

/-- Two agents with four threads each help a master that measures the latency of a few requests. -/
def helpers : Team 2 ℚ where
  args := {
    threads := 1
    lambdaMul := 1
    connections := 4
    qps := 10000
    qpsGiven := true
    roundrobin := false
    loadonly := false
    warmup := some 5
    depth := 1
    measureConnections := some 1
    measureQps := some 100
    measureDepth := none
    servers := ["10.0.0.1:11211", "10.0.0.2:11211"] }
  choose _ _ := none
  loads round := {
    connection := fun _ _ => { ConnectionStats.initial with gets := 100 }
    start := fun _ => round
    stop := fun _ => round + 1 }
  agentArgs _ := {
    threads := 4
    lambdaMul := 1
    connections := 1
    qps := 0
    qpsGiven := false
    roundrobin := false
    loadonly := false
    warmup := none
    depth := 1
    measureConnections := none
    measureQps := none
    measureDepth := none
    servers := [] }
  agentLoads _ round := {
    connection := fun _ _ => { ConnectionStats.initial with gets := 600, sets := 20 }
    start := fun _ => round
    stop := fun _ => round + 1 }

theorem helpers_finish : helpers.InStep ∧
    ∃ bound, ∀ schedule cluster, run step (helpers.start 3) schedule = .ok cluster →
      schedule.length ≤ bound ∧
      (∃ rest last, run step cluster rest = .ok last ∧ helpers.Finished last 3) ∧
      (Final step cluster → helpers.Finished cluster 3) := by
  have inStep : helpers.InStep := by
    intro i
    rfl
  exact ⟨inStep, session_finishes inStep 3⟩

end Team

end Datamime.Mutilate.Agents
