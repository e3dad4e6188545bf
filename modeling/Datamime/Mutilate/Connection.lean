/-
# A connection of the load generator

A connection runs two machines. One issues requests when their time has come, unless too many are
under way, and the other takes the responses of the server in the order of the requests. A loader
fills the server first and keeps a fixed number of requests under way. Each call from the event loop
drives one of the machines until it has to wait. Readings of the clock and draws of the generators
come from outside, and times are of any ordered type with an addition and a subtraction.
-/

import Datamime.Math.Outcome
import Datamime.Mutilate.Protocol
import Mathlib.Order.Defs.LinearOrder

namespace Datamime.Mutilate

open Datamime.Math

/-- `Operation::type_enum`, without the authentication, which is never queued. -/
inductive OpType
  | GET
  | SET
  deriving DecidableEq

structure Operation where
  type : OpType
  /-- It is set for a get only. -/
  key : List Char
  deriving DecidableEq

inductive ReadState
  | INIT_READ
  | CONN_SETUP
  | LOADING
  | IDLE
  | WAITING_FOR_GET
  | WAITING_FOR_SET
  deriving DecidableEq

inductive WriteState
  | INIT_WRITE
  | ISSUING
  | WAITING_FOR_TIME
  | WAITING_FOR_OPQ
  deriving DecidableEq

/-- The counts of `ConnectionStats`. -/
structure ConnectionStats where
  rxBytes : ℤ
  txBytes : ℕ
  gets : ℕ
  sets : ℕ
  getMisses : ℕ
  skips : ℕ
  deriving DecidableEq

def ConnectionStats.initial : ConnectionStats := ⟨0, 0, 0, 0, 0, 0⟩

/-- `log_get` and `log_set`. -/
def ConnectionStats.log (stats : ConnectionStats) : OpType → ConnectionStats
  | .GET => { stats with gets := stats.gets + 1 }
  | .SET => { stats with sets := stats.sets + 1 }

/-- The options of a connection that stay the same. -/
structure Options where
  records : ℕ
  depth : ℕ
  loadonly : Bool
  binary : Bool
  moderate : Bool
  skip : Bool
  /-- Whether `lambda` is positive. -/
  hasLambda : Bool

/-- What is issued. A value is a text, so its length is not negative. The lengths that the source
draws are signed. -/
inductive Request
  | get (key : List Char)
  | set (key value : List Char)
  deriving DecidableEq

/-- The operation that is queued for a request. -/
def Request.op : Request → Operation
  | .get key => ⟨.GET, key⟩
  | .set _ _ => ⟨.SET, []⟩

/-- What the clock and the generators return, one after the other. -/
structure World (T : Type) where
  clock : ℕ → T
  delay : ℕ → T
  request : ℕ → Request
  /-- The records of the loader. -/
  record : ℕ → List Char × List Char
  /-- How often the loop that skips transmissions is followed. -/
  patience : ℕ

/-- Why a call does not return, or is not made. -/
inductive Stop
  | fault (fault : Fault)
  | endless
  /-- The event loop makes no such call now. -/
  | notReady
  deriving DecidableEq

structure Connection (π T : Type) where
  protocol : π
  startTime : T
  /-- The option for the length of a measurement, or of the warm-up. -/
  time : T
  stats : ConnectionStats
  readState : ReadState
  writeState : WriteState
  /-- Whether the timer is set. -/
  timer : Bool
  nextTime : T
  lastRx : T
  loaderIssued : ℕ
  loaderCompleted : ℕ
  opQueue : List Operation
  input : List Char
  output : List Char
  /-- How much of the world has been used. -/
  readings : ℕ
  delays : ℕ
  requests : ℕ
  /-- All requests in the order in which they were issued. The source does not keep them. -/
  issued : List Request
  /-- The operations that were recorded since the last reset. The source keeps their number. -/
  logged : List Operation

namespace Connection

/-- `LOADER_CHUNK`. -/
def LOADER_CHUNK : ℕ := 1024

variable {π T : Type} [LinearOrder T] [Add T] [Sub T] [OfScientific T]

def initial (protocol : π) : Connection π T where
  protocol
  startTime := 0.0
  time := 0.0
  stats := .initial
  readState := .INIT_READ
  writeState := .INIT_WRITE
  timer := false
  nextTime := 0.0
  lastRx := 0.0
  loaderIssued := 0
  loaderCompleted := 0
  opQueue := []
  input := []
  output := []
  readings := 0
  delays := 0
  requests := 0
  issued := []
  logged := []

/-- The end of `issue_get` and `issue_set`. -/
def send (conn : Connection π T) (request : π × List Char × ℕ) : Connection π T :=
  { conn with
    protocol := request.1
    output := conn.output ++ request.2.1
    stats := if conn.readState ≠ .LOADING then
        { conn.stats with txBytes := conn.stats.txBytes + request.2.2 }
      else conn.stats }

/-- Queue an operation, and wait for its response if there is nothing else to wait for. -/
def push (conn : Connection π T) (request : Request) (state : ReadState) : Connection π T :=
  { conn with
    opQueue := conn.opQueue ++ [request.op]
    issued := conn.issued ++ [request]
    readState := if conn.readState = .IDLE then state else conn.readState }

def issueGet (prot : Protocol π) (conn : Connection π T) (key : List Char) : Connection π T :=
  (conn.push (.get key) .WAITING_FOR_GET).send (prot.getRequest conn.protocol key)

def issueSet (prot : Protocol π) (conn : Connection π T) (key value : List Char) :
    Connection π T :=
  (conn.push (.set key value) .WAITING_FOR_SET).send (prot.setRequest conn.protocol key value)

/-- `issue_something`. -/
def issueSomething (prot : Protocol π) (world : World T) (conn : Connection π T) :
    Connection π T :=
  let drawn := { conn with requests := conn.requests + 1 }
  match world.request conn.requests with
  | .get key => drawn.issueGet prot key
  | .set key value => drawn.issueSet prot key value

/-- What an operation at the front of the queue lets the connection wait for. -/
def waitingFor : OpType → ReadState
  | .GET => .WAITING_FOR_GET
  | .SET => .WAITING_FOR_SET

/-- `pop_op`. -/
def popOp (conn : Connection π T) : Except Stop (Connection π T) :=
  match conn.opQueue with
  | [] => .error (.fault .assertion)
  | _ :: later =>
      if conn.readState = .LOADING then .ok { conn with opQueue := later }
      else
        .ok { conn with
          opQueue := later
          readState := match later with
            | [] => .IDLE
            | op :: _ => waitingFor op.type }

/-- `check_exit_condition`. -/
def checkExitCondition (options : Options) (conn : Connection π T) (now : T) : Bool :=
  conn.readState ≠ .INIT_READ &&
    (conn.startTime + conn.time < now || options.loadonly && conn.readState = .IDLE)

/-- `iagen->generate()`, added to the time of the next transmission. -/
def advance (world : World T) (conn : Connection π T) : Connection π T :=
  { conn with
    nextTime := conn.nextTime + world.delay conn.delays
    delays := conn.delays + 1 }

/-- The loop that skips transmissions. -/
def skipLoop (world : World T) (now : T) : ℕ → Connection π T → Except Stop (Connection π T)
  | 0, _ => .error .endless
  | turns + 1, conn =>
      if conn.nextTime < now - 0.004000 then
        skipLoop world now turns
          ({ conn with stats := { conn.stats with skips := conn.stats.skips + 1 } }.advance world)
      else .ok conn

/-- The rest of the case `ISSUING`, once a request may be issued. -/
def issueNext (prot : Protocol π) (options : Options) (world : World T) (now : T)
    (conn : Connection π T) : Except Stop (Connection π T) :=
  let conn := (conn.issueSomething prot world).advance world
  if options.skip && options.hasLambda && decide (0.005000 < now - conn.nextTime) &&
      decide (options.depth ≤ conn.opQueue.length) then
    conn.skipLoop world now world.patience
  else .ok conn

/-- One turn of the loop in `drive_write_machine`, and whether it returns. -/
def writeTurn (prot : Protocol π) (options : Options) (world : World T) (now : T)
    (conn : Connection π T) : Except Stop (Connection π T × Bool) :=
  match conn.writeState with
  | .INIT_WRITE =>
      .ok ({ conn with
        nextTime := now + world.delay conn.delays
        delays := conn.delays + 1
        timer := true
        writeState := .WAITING_FOR_TIME }, false)
  | .ISSUING =>
      if options.depth ≤ conn.opQueue.length then
        .ok ({ conn with writeState := .WAITING_FOR_OPQ }, true)
      else if now < conn.nextTime then
        .ok ({ conn with writeState := .WAITING_FOR_TIME }, false)
      else if options.moderate && decide (now < conn.lastRx + 0.00025) then
        .ok ({ conn with writeState := .WAITING_FOR_TIME, timer := true }, true)
      else do
        let conn ← conn.issueNext prot options world now
        return (conn, false)
  | .WAITING_FOR_TIME =>
      if now < conn.nextTime then .ok ({ conn with timer := true }, true)
      else .ok ({ conn with writeState := .ISSUING }, false)
  | .WAITING_FOR_OPQ =>
      if options.depth ≤ conn.opQueue.length then .ok (conn, true)
      else .ok ({ conn with writeState := .ISSUING }, false)

/-- `drive_write_machine`. There is a turn for each request that still fits the queue, and five for
the changes of the state. -/
def driveWriteMachine (prot : Protocol π) (options : Options) (world : World T)
    (conn : Connection π T) : Except Stop (Connection π T) :=
  let now := world.clock conn.readings
  let conn := { conn with readings := conn.readings + 1 }
  if conn.checkExitCondition options now then .ok conn
  else loop .endless (writeTurn prot options world now)
    (options.depth - conn.opQueue.length + 5) conn

/-- The first half of `finish_op`. -/
def logOp (world : World T) (conn : Connection π T) (op : Operation) : Connection π T :=
  { conn with
    stats := conn.stats.log op.type
    logged := conn.logged ++ [op]
    lastRx := world.clock conn.readings
    readings := conn.readings + 1 }

/-- `finish_op`, for the operation at the front of the queue. -/
def finishOp (prot : Protocol π) (options : Options) (world : World T)
    (conn : Connection π T) : Except Stop (Connection π T) :=
  match conn.opQueue with
  | [] => .error (.fault .nullEntry)
  | op :: _ => do
      let popped ← popOp (conn.logOp world op)
      popped.driveWriteMachine prot options world

/-- The loop that issues the records of the loader, for a number of turns. -/
def issueRecords (prot : Protocol π) (options : Options) (world : World T) :
    ℕ → Connection π T → Connection π T
  | 0, conn => conn
  | turns + 1, conn =>
      if options.records ≤ conn.loaderIssued then conn
      else
        let record := world.record conn.loaderIssued
        let sent := conn.issueSet prot record.1 record.2
        issueRecords prot options world turns { sent with loaderIssued := sent.loaderIssued + 1 }

/-- `start_loading`. -/
def startLoading (prot : Protocol π) (options : Options) (world : World T)
    (conn : Connection π T) : Connection π T :=
  issueRecords prot options world LOADER_CHUNK
    { conn with readState := .LOADING, loaderIssued := 0, loaderCompleted := 0 }

/-- The end of the case `LOADING`. -/
def loadNext (prot : Protocol π) (options : Options) (world : World T)
    (conn : Connection π T) : Connection π T :=
  if conn.loaderCompleted = options.records then { conn with readState := .IDLE }
  else conn.issueRecords prot options world
    (conn.loaderCompleted + LOADER_CHUNK - conn.loaderIssued)

/-- A response that was taken from the buffer. -/
def take (conn : Connection π T) (response : Response π) : Connection π T :=
  { conn with
    protocol := response.state
    input := response.rest
    stats := { conn.stats with
      rxBytes := conn.stats.rxBytes + response.rxBytes
      getMisses := conn.stats.getMisses + response.getMisses } }

/-- `handle_response` of the protocol. -/
def handleResponse (prot : Protocol π) (conn : Connection π T) :
    Except Stop (Option (Response π)) :=
  if conn.opQueue = [] then .error (.fault .assertion)
  else match prot.handleResponse conn.protocol conn.input with
    | .ok response? => .ok response?
    | .error fault => .error (.fault fault)

/-- One turn of the loop in `read_callback`, and whether it returns. -/
def readTurn (prot : Protocol π) (options : Options) (world : World T) (conn : Connection π T) :
    Except Stop (Connection π T × Bool) :=
  match conn.readState with
  | .INIT_READ => .error (.fault (.exit "event from uninitialized connection"))
  | .IDLE => .ok (conn, true)
  | .WAITING_FOR_GET => do
      match ← conn.handleResponse prot with
      | none => return (conn, true)
      | some response =>
          if response.done then do
            let conn ← (conn.take response).finishOp prot options world
            return (conn, false)
          else return (conn.take response, false)
  | .WAITING_FOR_SET => do
      match ← conn.handleResponse prot with
      | none => return (conn, true)
      | some response => do
          let conn ← (conn.take response).finishOp prot options world
          return (conn, false)
  | .LOADING => do
      match ← conn.handleResponse prot with
      | none => return (conn, true)
      | some response => do
          let taken := conn.take response
          let conn ← popOp { taken with loaderCompleted := taken.loaderCompleted + 1 }
          return (conn.loadNext prot options world, false)
  | .CONN_SETUP =>
      if options.binary then
        match prot.setupConnectionR conn.protocol conn.input with
        | .error fault => .error (.fault fault)
        | .ok none => .ok (conn, true)
        | .ok (some response) => .ok ({ conn.take response with readState := .IDLE }, false)
      else .error (.fault .assertion)

/-- `read_callback`. Every turn but the last takes a byte or more from the buffer. -/
def readCallback (prot : Protocol π) (options : Options) (world : World T)
    (conn : Connection π T) : Except Stop (Connection π T) :=
  loop .endless (readTurn prot options world) (conn.input.length + 2) conn

/-- `event_callback`, when the connection stands. -/
def connected (prot : Protocol π) (conn : Connection π T) : Connection π T :=
  let (greeting, isReady) := prot.setupConnectionW
  { conn with
    output := conn.output ++ greeting
    readState := if isReady then .IDLE else .CONN_SETUP }

/-- `reset`. -/
def reset (conn : Connection π T) : Except Stop (Connection π T) :=
  if conn.opQueue = [] then
    .ok { conn with
      timer := false
      readState := .IDLE
      writeState := .INIT_WRITE
      stats := .initial
      logged := [] }
  else .error (.fault .assertion)

/-- The start of the warm-up or of the measurement. -/
def start (prot : Protocol π) (options : Options) (world : World T) (time : T)
    (conn : Connection π T) : Except Stop (Connection π T) :=
  driveWriteMachine prot options world { conn with
    startTime := world.clock conn.readings
    time
    readings := conn.readings + 1 }

/-- `timer_callback`. The timer is not set any more. -/
def timerCallback (prot : Protocol π) (options : Options) (world : World T)
    (conn : Connection π T) : Except Stop (Connection π T) :=
  driveWriteMachine prot options world { conn with timer := false }

end Connection

end Datamime.Mutilate
