/-
# Load generators that work together

A master has other instances of the load generator, its agents, send requests to the same servers.
It hands them its options, counts the connections of all and lets everyone know the count, from
which each instance takes its share of the request rate. Before each phase of the measurement the
master waits until every agent has arrived, and in the end it collects the statistics. An agent
serves one such round after the other.
-/

import Datamime.Math.Dialogue
import Datamime.Mutilate.Connection

namespace Datamime.Mutilate.Agents

open Datamime.Math

/-- The arguments of the command line that the instances do not share. -/
structure Args where
  threads : ℤ
  lambdaMul : ℤ
  connections : ℤ
  qps : ℤ
  qpsGiven : Bool
  roundrobin : Bool
  loadonly : Bool
  warmup : Option ℤ
  depth : ℤ
  measureConnections : Option ℤ
  measureQps : Option ℤ
  measureDepth : Option ℤ
  servers : List String

/-- The fields of `options_t` that the agents and the master read. -/
structure RunOptions (T : Type) where
  connections : ℤ
  lambda : T
  qps : ℤ
  loadonly : Bool
  depth : ℤ
  threads : ℤ
  warmup : ℤ
  roundrobin : Bool
  serverGiven : ℕ
  lambdaDenom : ℤ

/-- What `ConnectionStats` and `AgentStats` have in common. -/
structure Report (T : Type) where
  counts : ConnectionStats
  start : T
  stop : T

/-- What is sent over a socket. -/
inductive Message (T : Type)
  | options (options : RunOptions T)
  | number (number : ℤ)
  | text (text : String)
  | stats (report : Report T)

inductive Event
  | synchronizing
  | synchronized
  | died (text : String)
  /-- The bytes of a message are taken for something else. -/
  | misread
  deriving DecidableEq

/-! ## The statistics -/

/-- The sums of `ConnectionStats::accumulate`. -/
def accumulateCounts (counts other : ConnectionStats) : ConnectionStats where
  rxBytes := counts.rxBytes + other.rxBytes
  txBytes := counts.txBytes + other.txBytes
  gets := counts.gets + other.gets
  sets := counts.sets + other.sets
  getMisses := counts.getMisses + other.getMisses
  skips := counts.skips + other.skips

/-- `ConnectionStats::accumulate`. -/
def Report.accumulate {T : Type} (report other : Report T) : Report T where
  counts := accumulateCounts report.counts other.counts
  start := other.start
  stop := other.stop

/-- A new `ConnectionStats`, whose times nobody has set. -/
def Report.initial {T : Type} [Zero T] : Report T := ⟨.initial, 0, 0⟩

/-! ## The options -/

/-- The threads that open connections, times the servers of each. -/
def pairs (roundrobin : Bool) (servers threads : ℤ) : ℤ :=
  if roundrobin then max servers threads else servers * threads

section

variable {T : Type} [Mul T] [Div T] [IntCast T]

/-- What one connection sends in a second. -/
def rate (qps lambdaDenom lambdaMul : ℤ) : T := (qps : T) / (lambdaDenom : T) * (lambdaMul : T)

/-- `args_to_options`. -/
def argsToOptions (args : Args) : RunOptions T :=
  let connections := args.connections * pairs args.roundrobin args.servers.length args.threads
  let once := if connections > 1 then connections else 1
  let weighted := if args.lambdaMul > 1 then once * args.lambdaMul else once
  let lambdaDenom := if args.threads < 1 then 0 else weighted
  { connections := args.connections
    lambda := if args.qpsGiven then rate args.qps lambdaDenom args.lambdaMul else ((1 : ℤ) : T)
    qps := args.qps
    loadonly := args.loadonly
    depth := args.depth
    threads := args.threads
    warmup := args.warmup.getD 0
    roundrobin := args.roundrobin
    serverGiven := args.servers.length
    lambdaDenom }

/-- The options with another rate, as a scan and a search set them. -/
def withQps (args : Args) (qps : Option ℤ) : RunOptions T :=
  let options : RunOptions T := argsToOptions args
  qps.elim options fun qps =>
    { options with qps, lambda := rate qps options.lambdaDenom args.lambdaMul }

/-! ## The preparation -/

/-- The sum that the count starts with, and the one for the master alone. -/
def masterSum (args : Args) (options : RunOptions T) : ℤ :=
  args.measureConnections.elim options.lambdaDenom fun connections =>
    connections * options.serverGiven * options.threads

def startSum (args : Args) (options : RunOptions T) : ℤ :=
  args.measureQps.elim (masterSum args options) fun _ => 0

/-- The options that the agents get. -/
def sharedOptions (args : Args) (options : RunOptions T) : RunOptions T :=
  args.measureQps.elim options fun qps =>
    if options.qps = 0 then options else { options with qps := options.qps - qps }

/-- The connections of an agent, as the master counts them from the number it is told. -/
def weight (options : RunOptions T) (servers : ℕ) (number : ℤ) : ℤ :=
  options.connections * pairs options.roundrobin servers (number % 2 ^ 32)

def addAgent (options : RunOptions T) (servers : ℕ) (sum number : ℤ) : ℤ :=
  Int.bmod (sum + weight options servers number) (2 ^ 32)

/-- The options of the master for the measurement. -/
def settle (args : Args) (options : RunOptions T) (sum masterSum : ℤ) : RunOptions T :=
  let settled := { options with
    lambdaDenom := sum
    lambda := rate options.qps sum args.lambdaMul }
  let measured := args.measureQps.elim settled fun qps =>
    { settled with lambda := (qps : T) / (masterSum : T) }
  args.measureDepth.elim measured fun depth => { measured with depth }

end

/-- `agent_sockets`. -/
def agentSockets (n : ℕ) : List (Fin n) := List.finRange n

section

variable {P T : Type} {n : ℕ}

/-- The message is read as an `int`. -/
def readNumber : Message T → Program P (Message T) Event ℤ
  | .number number => pure number
  | .options _ => .die .misread
  | .text _ => .die .misread
  | .stats _ => .die .misread

def readOptions : Message T → Program P (Message T) Event (RunOptions T)
  | .options options => pure options
  | .number _ => .die .misread
  | .text _ => .die .misread
  | .stats _ => .die .misread

def readText : Message T → Program P (Message T) Event String
  | .text text => pure text
  | .options _ => .die .misread
  | .number _ => .die .misread
  | .stats _ => .die .misread

def readStats : Message T → Program P (Message T) Event (Report T)
  | .stats report => pure report
  | .options _ => .die .misread
  | .number _ => .die .misread
  | .text _ => .die .misread

@[simp]
theorem readNumber_number (number : ℤ) :
    (readNumber (.number number) : Program P (Message T) Event ℤ) = pure number := rfl

@[simp]
theorem readOptions_options (options : RunOptions T) :
    (readOptions (.options options) : Program P (Message T) Event _) = pure options := rfl

theorem readNumber_atOnce (message : Message T) :
    (readNumber message : Program P (Message T) Event ℤ).AtOnce := by
  cases message with
  | number number => exact .inl ⟨number, rfl⟩
  | options options => exact .inr ⟨.misread, rfl⟩
  | text text => exact .inr ⟨.misread, rfl⟩
  | stats report => exact .inr ⟨.misread, rfl⟩

theorem readOptions_atOnce (message : Message T) :
    (readOptions message : Program P (Message T) Event _).AtOnce := by
  cases message with
  | options options => exact .inl ⟨options, rfl⟩
  | number number => exact .inr ⟨.misread, rfl⟩
  | text text => exact .inr ⟨.misread, rfl⟩
  | stats report => exact .inr ⟨.misread, rfl⟩

theorem readText_atOnce (message : Message T) :
    (readText message : Program P (Message T) Event String).AtOnce := by
  cases message with
  | text text => exact .inl ⟨text, rfl⟩
  | options options => exact .inr ⟨.misread, rfl⟩
  | number number => exact .inr ⟨.misread, rfl⟩
  | stats report => exact .inr ⟨.misread, rfl⟩

theorem readStats_atOnce (message : Message T) :
    (readStats message : Program P (Message T) Event _).AtOnce := by
  cases message with
  | stats report => exact .inl ⟨report, rfl⟩
  | options options => exact .inr ⟨.misread, rfl⟩
  | number number => exact .inr ⟨.misread, rfl⟩
  | text text => exact .inr ⟨.misread, rfl⟩

/-- Whether the message is equal to a text. -/
def Message.isText (message : Message T) (expected : String) : Bool :=
  match message with
  | .text said => said == expected
  | .options _ => false
  | .number _ => false
  | .stats _ => false

/-- `DIE`, unless the message is the expected one. -/
def expect (expected reason : String) (message : Message T) :
    Program P (Message T) Event Unit :=
  if message.isText expected then pure () else .die (.died reason)

/-- The first loop over the agents in `prep_agent`, for one of them. -/
def greet (options : RunOptions T) (servers : List String) (socket : Fin n) :
    Program (Fin n) (Message T) Event ℤ := do
  Program.tell socket (.options options)
  let answer ← Program.hear socket
  let number ← readNumber answer
  forM servers fun server => do
    Program.tell socket (.text server)
    let _ ← Program.hear socket
  return number

/-- `prep_agent`. -/
def prepAgent [Mul T] [Div T] [IntCast T] (args : Args) (options : RunOptions T) :
    Program (Fin n) (Message T) Event (RunOptions T) := do
  let shared := sharedOptions args options
  let sum ← (agentSockets n).foldlM (fun sum socket => do
    let number ← greet shared args.servers socket
    return addAgent shared args.servers.length sum number) (startSum args options)
  forM (agentSockets n) fun socket => do
    Program.tell socket (.number sum)
    let _ ← Program.hear socket
  return settle args shared sum (masterSum args options)

/-- `finish_agent`. -/
def finishAgent (report : Report T) : Program (Fin n) (Message T) Event (Report T) :=
  (agentSockets n).foldlM (fun report socket => do
    Program.tell socket (.text "stats")
    let answer ← Program.hear socket
    let stats ← readStats answer
    return report.accumulate stats) report

/-! ## The synchronization -/

/-- `sync_agent` of the master. -/
def syncMaster : Program (Fin n) (Message T) Event Unit := do
  Program.note .synchronizing
  forM (agentSockets n) fun socket => Program.tell socket (.text "sync_req")
  forM (agentSockets n) fun socket => do
    let answer ← Program.hear socket
    expect "sync" "sync_agent[M]: out of sync [1]" answer
  forM (agentSockets n) fun socket => Program.tell socket (.text "proceed")
  forM (agentSockets n) fun socket => do
    let answer ← Program.hear socket
    expect "ack" "sync_agent[M]: out of sync [2]" answer
  Program.note .synchronized

/-- `sync_agent` of an agent. -/
def syncAgent : Program Unit (Message T) Event Unit := do
  Program.note .synchronizing
  let request ← Program.hear ()
  expect "sync_req" "sync_agent[A]: out of sync [1]" request
  Program.tell () (.text "sync")
  let request ← Program.hear ()
  expect "proceed" "sync_agent[A]: out of sync [2]" request
  Program.tell () (.text "ack")
  Program.note .synchronized

/-! ## The measurement -/

/-- What the connections of an instance count, for a thread and a connection of it. -/
structure Load (T : Type) where
  connection : ℕ → ℕ → ConnectionStats
  start : ℕ → T
  stop : ℕ → T

/-- The servers of a thread. -/
def threadServers (options : RunOptions T) (servers : List String) (thread : ℕ) : List String :=
  if options.roundrobin then
    let first := thread % servers.length
    let steps := (servers.length - first + options.threads.toNat - 1) / options.threads.toNat
    (List.range' first steps options.threads.toNat).filterMap (servers[·]?)
  else servers

/-- The connections that `do_mutilate` opens. -/
def connectionCount (args : Args) (options : RunOptions T) (servers : List String) : ℕ :=
  servers.length * (args.measureConnections.getD options.connections).toNat

/-- The statistics of the connections are added, and the times are set. -/
def Load.measure (load : Load T) (thread count : ℕ) (report : Report T) : Report T where
  counts := (List.range count).foldl
    (fun counts k => accumulateCounts counts (load.connection thread k)) report.counts
  start := load.start thread
  stop := load.stop thread

/-- `do_mutilate`, of which only the first thread talks. -/
def doMutilate (sync : Program P (Message T) Event Unit) (args : Args) (options : RunOptions T)
    (servers : List String) (load : Load T) (thread : ℕ) (report : Report T) (master : Bool) :
    Program P (Message T) Event (Report T) := do
  if options.loadonly then
    return report
  if 0 < options.warmup ∧ master then
    sync
  if master then
    sync
  return load.measure thread (connectionCount args options servers) report

/-- The part of `go` between the preparation and the end. The threads of an instance wait for the
first one, which alone talks, so that they can stand one after the other. -/
def runThreads [Zero T] (hasAgents : Bool) (sync : Program P (Message T) Event Unit) (args : Args)
    (options : RunOptions T) (servers : List String) (load : Load T) (report : Report T) :
    Program P (Message T) Event (Report T) :=
  if 1 < options.threads then
    (List.range options.threads.toNat).foldlM (fun report thread => do
      let stats ← doMutilate sync args options (threadServers options servers thread) load thread
        .initial (thread = 0)
      return report.accumulate stats) report
  else if options.threads = 1 then
    doMutilate sync args options servers load 0 report true
  else do
    if hasAgents then
      sync
    return report

end

/-! ## The rounds -/

section

variable {T : Type} [Mul T] [Div T] [IntCast T] [Zero T] {n : ℕ}

/-- What an instance has after a round. -/
structure Round (T : Type) where
  options : RunOptions T
  servers : List String
  report : Report T

/-- `go`, of the master. -/
def go (args : Args) (options : RunOptions T) (load : Load T) :
    Program (Fin n) (Message T) Event (Round T) := do
  let options ← prepAgent args options
  let own ← runThreads true syncMaster args options args.servers load .initial
  let report ← finishAgent own
  return { options, servers := args.servers, report }

/-- All rounds of the master. A rate may depend on what the rounds before it have measured. -/
def master (args : Args) (choose : ℕ → List (Round T) → Option ℤ) (loads : ℕ → Load T)
    (rounds : ℕ) : Program (Fin n) (Message T) Event (List (Round T)) :=
  (List.range rounds).foldlM (fun before round => do
    let last ← go args (withQps args (choose round before)) (loads round)
    return before ++ [last]) []

/-- The loop of an agent that receives the names of the servers. -/
def receiveServers : ℕ → List String → Program Unit (Message T) Event (List String)
  | 0, servers => pure servers
  | count + 1, servers => do
      let message ← Program.hear ()
      let server ← readText message
      Program.tell () (.text "ACK")
      receiveServers count (servers ++ [server])

/-- What an agent does with the count of all connections. -/
def shareRate (args : Args) (options : RunOptions T) (lambdaDenom : ℤ) : RunOptions T :=
  { options with
    threads := args.threads
    lambdaDenom
    lambda := rate options.qps lambdaDenom args.lambdaMul }

/-- One turn of the loop of `agent`. -/
def agentRound (args : Args) (load : Load T) : Program Unit (Message T) Event (Round T) := do
  let request ← Program.hear ()
  Program.tell () (.number (args.threads * args.lambdaMul))
  let options ← readOptions request
  let servers ← receiveServers options.serverGiven []
  let request ← Program.hear ()
  let lambdaDenom ← readNumber request
  Program.tell () (.text "THANKS")
  let options := shareRate args options lambdaDenom
  let report ← runThreads false syncAgent args options servers load .initial
  let _ ← Program.hear ()
  Program.tell () (.stats report)
  return { options, servers, report }

/-- `agent`, for a number of turns. -/
def agent (args : Args) (loads : ℕ → Load T) (rounds : ℕ) :
    Program Unit (Message T) Event (List (Round T)) :=
  (List.range rounds).foldlM (fun before round => do
    let last ← agentRound args (loads round)
    return before ++ [last]) []

end

end Datamime.Mutilate.Agents
