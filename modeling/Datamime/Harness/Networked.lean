/-
# The networked harness

Clients and the server are processes of their own, joined by one connection each. The sender
threads of a client draw requests and send them, its receiver threads take what the server sends
and act on it. The worker threads of the server take requests from any connection and answer each
on the connection that it came from. Between the processes stand only the two queues of every
connection. A step of the model is one locked section, one call on a socket or one reading of the
clock of one thread, so a run is an interleaving of all threads of all processes.
-/

import Datamime.Harness.Integrated

namespace Datamime.Harness

open Datamime.Math

/-! ## A client -/

/-- What the server sends: a response, or one of the two messages to all clients. -/
inductive Reply
  | response (id svcNs : ℕ)
  | roiBegin
  | finish
  deriving DecidableEq

/-- The request that a reply answers. -/
def Reply.id? : Reply → Option ℕ
  | .response id _ => some id
  | _ => none

/-- Where a thread stands that runs `send`. -/
inductive SenderPhase
  /-- Before the test of the loop. -/
  | looping
  /-- The test was passed, and `startReq` is called. -/
  | starting
  /-- At the first barrier of `startReq`. -/
  | waiting
  /-- At the second barrier of `startReq`. -/
  | opened
  /-- `startReq` has left the lock with a request. -/
  | drawn (id genNs : ℕ)
  | sleeping (id targetNs : ℕ)
  /-- `startReq` has returned. -/
  | sending (id : ℕ)
  deriving DecidableEq

/-- The request that is drawn and not sent. -/
def SenderPhase.id? : SenderPhase → Option ℕ
  | .drawn id _ => some id
  | .sleeping id _ => some id
  | .sending id => some id
  | _ => none

/-- Between the test of the loop and the section that draws a request. -/
def SenderPhase.passed? : SenderPhase → Option Unit
  | .starting => some ()
  | .waiting => some ()
  | .opened => some ()
  | _ => none

/-- Where a thread stands that runs `recv`. -/
inductive ReceiverPhase
  | reading
  /-- `NetworkedClient::recv` has returned with a message. -/
  | handling (reply : Reply)
  deriving DecidableEq

def ReceiverPhase.reply? : ReceiverPhase → Option Reply
  | .reading => none
  | .handling reply => some reply

/-- A client with `k` sender and `k` receiver threads. -/
structure ClientState (k : ℕ) where
  senders : Fin k → SenderPhase
  receivers : Fin k → ReceiverPhase
  status : ClientStatus
  /-- Whether `dist` is set. -/
  hasDist : Bool
  startedReqs : ℕ
  /-- The generation time of each request in flight. -/
  inFlightReqs : Dict ℕ ℕ
  numReqsInFlight : ℤ
  latencies : List Latency
  /-- What `dumpStats` wrote before the process ended. -/
  dumped : Option (List Latency)
  /-- The messages that were acted on, in order. The source does not keep them. -/
  handled : List Reply

/-- The settings of a client. -/
structure ClientConfig where
  minSleepNs : ℕ

/-- `send` draws no further request while more than these are in flight. -/
def MAX_IN_FLIGHT : ℤ := 100000

namespace ClientState

variable {k : ℕ}

def initial (k : ℕ) : ClientState k where
  senders := fun _ => .looping
  receivers := fun _ => .reading
  status := .INIT
  hasDist := false
  startedReqs := 0
  inFlightReqs := Dict.empty
  numReqsInFlight := 0
  latencies := []
  dumped := none
  handled := []

def moveSender (st : ClientState k) (thread : Fin k) (phase : SenderPhase) : ClientState k :=
  { st with senders := Function.update st.senders thread phase }

def moveReceiver (st : ClientState k) (thread : Fin k) (phase : ReceiverPhase) : ClientState k :=
  { st with receivers := Function.update st.receivers thread phase }

/-- The test of the loop in `send`. It takes no lock. -/
def check (st : ClientState k) (thread : Fin k) : ClientState k :=
  if st.numReqsInFlight ≤ MAX_IN_FLIGHT then st.moveSender thread .starting else st

/-- The section of `startReq` that draws the next request. -/
def drawRequest (st : ClientState k) (thread : Fin k) (genNs : ℕ) : ClientState k :=
  { st.moveSender thread (.drawn st.startedReqs genNs) with
    startedReqs := st.startedReqs + 1
    inFlightReqs := st.inFlightReqs.insert st.startedReqs genNs
    numReqsInFlight := st.numReqsInFlight + 1 }

/-- The section between the two barriers. -/
def openBarrier (st : ClientState k) (thread : Fin k) : ClientState k :=
  { st.moveSender thread .opened with
    hasDist := true
    status := if st.hasDist then st.status else .WARMUP }

/-- `Client::startReq` up to the end of its last locked section, one section at a time. -/
def startReq (st : ClientState k) (thread : Fin k) (genNs : ℕ) : Except Halt (ClientState k) :=
  match st.senders thread with
  | .starting =>
      if st.status = .INIT then .ok (st.moveSender thread .waiting)
      else .ok (st.drawRequest thread genNs)
  | .waiting =>
      if ∀ other, st.senders other = .waiting ∨ st.senders other = .opened then
        .ok (st.openBarrier thread)
      else .error .notReady
  | .opened =>
      if ∀ other, st.senders other ≠ .waiting then .ok (st.drawRequest thread genNs)
      else .error .notReady
  | _ => .error .notReady

/-- The end of `startReq`: sleep if the request has not arrived. The sum of the times wraps. -/
def arrive (config : ClientConfig) (st : ClientState k) (thread : Fin k) (id genNs curNs : ℕ) :
    ClientState k :=
  if curNs < genNs then
    st.moveSender thread (.sleeping id (max genNs ((curNs + config.minSleepNs) % 2 ^ 64)))
  else st.moveSender thread (.sending id)

/-- One turn of the loop in `sleepUntil`. -/
def wake (st : ClientState k) (thread : Fin k) (id targetNs curNs : ℕ) : ClientState k :=
  if curNs < targetNs then st else st.moveSender thread (.sending id)

/-- The vectors of times after `finiReq`. -/
def recordLatency (st : ClientState k) (id genNs svcNs curNs : ℕ) :
    Except Halt (List Latency) :=
  if st.status = .ROI then do
    let latency ← latencyOf id genNs svcNs curNs
    return st.latencies ++ [latency]
  else .ok st.latencies

/-- `Client::finiReq`. -/
def finiReq (st : ClientState k) (id svcNs curNs : ℕ) : Except Halt (ClientState k) :=
  match st.inFlightReqs.get? id with
  | none => .error (.fault .assertion)
  | some genNs => do
      let latencies ← st.recordLatency id genNs svcNs curNs
      return { st with
        latencies
        inFlightReqs := st.inFlightReqs.erase id
        numReqsInFlight := st.numReqsInFlight - 1 }

/-- `Client::startRoi`. -/
def startRoi (st : ClientState k) : Except Halt (ClientState k) :=
  if st.status = .WARMUP then .ok { st with status := .ROI, latencies := [] }
  else .error (.fault .assertion)

/-- `recv` acts on a message. -/
def act (st : ClientState k) (reply : Reply) (curNs : ℕ) : Except Halt (ClientState k) :=
  match reply with
  | .response id svcNs => st.finiReq id svcNs curNs
  | .roiBegin => st.startRoi
  | .finish => .ok { st with dumped := some st.latencies }

/-- A receiver acts on its message and reads again. -/
def handle (st : ClientState k) (thread : Fin k) (reply : Reply) (curNs : ℕ) :
    Except Halt (ClientState k) := do
  let next ← st.act reply curNs
  return { next.moveReceiver thread .reading with handled := st.handled ++ [reply] }

end ClientState

/-! ## The network -/

/-- Where a worker thread of the server stands. -/
inductive WorkerPhase (m : ℕ)
  | idle
  /-- `activeFds[id]` and `reqInfo[id]`. -/
  | serving (client : Fin m) (info : ReqInfo)
  deriving DecidableEq

/-- The request of a client that a worker serves. -/
def WorkerPhase.idOf {m : ℕ} (client : Fin m) : WorkerPhase m → Option ℕ
  | .idle => none
  | .serving active info => if active = client then some info.id else none

/-- What the server has sent. -/
inductive Sent (m : ℕ)
  | answer (client : Fin m) (id : ℕ)
  | roiBegin
  | finish
  deriving DecidableEq

/-- The server with `n` workers, its `m` clients and the queues between them. The threads of each
client are counted by `k`. -/
structure Network (m n : ℕ) (k : Fin m → ℕ) where
  clients : ∀ client, ClientState (k client)
  toServer : Fin m → List ℕ
  toClient : Fin m → List Reply
  clientFds : List (Fin m)
  workers : Fin n → WorkerPhase m
  finishedReqs : ℕ
  /-- What the server has sent, in order. The source does not keep it. -/
  log : List (Sent m)

structure NetworkConfig (m : ℕ) where
  server : ServerConfig
  client : Fin m → ClientConfig

/-- A step of one thread. -/
inductive NetEvent (m n : ℕ) (k : Fin m → ℕ)
  | check (client : Fin m) (thread : Fin (k client))
  /-- The next section of `startReq`, with the arrival time that it draws. -/
  | startReq (client : Fin m) (thread : Fin (k client)) (genNs : ℕ)
  /-- The reading of `startReq` behind its lock. -/
  | arrive (client : Fin m) (thread : Fin (k client)) (curNs : ℕ)
  /-- A reading of `sleepUntil`. -/
  | wake (client : Fin m) (thread : Fin (k client)) (curNs : ℕ)
  | send (client : Fin m) (thread : Fin (k client))
  | recv (client : Fin m) (thread : Fin (k client))
  | handle (client : Fin m) (thread : Fin (k client)) (curNs : ℕ)
  /-- A worker is given the next request of a client. -/
  | recvReq (worker : Fin n) (client : Fin m) (curNs : ℕ)
  /-- `sendResp`; whether the sockets take its response and its message to all clients whole. -/
  | sendResp (worker : Fin n) (curNs : ℕ) (answered : Bool) (told : Fin m → Bool)
  /-- `recvReq` meets the end of the stream of a client whose process has ended. -/
  | removeClient (worker : Fin n) (client : Fin m)
  /-- `NetworkedServer::finish`, which the application calls. -/
  | finish (told : Fin m → Bool)

namespace Network

variable {m n : ℕ} {k : Fin m → ℕ}

/-- All clients are connected, and no thread has taken a step. -/
def initial (m n : ℕ) (k : Fin m → ℕ) : Network m n k where
  clients := fun client => .initial (k client)
  toServer := fun _ => []
  toClient := fun _ => []
  clientFds := List.finRange m
  workers := fun _ => .idle
  finishedReqs := 0
  log := []

def setClient (net : Network m n k) (client : Fin m) (st : ClientState (k client)) :
    Network m n k :=
  { net with clients := Function.update net.clients client st }

def setWorker (net : Network m n k) (worker : Fin n) (phase : WorkerPhase m) : Network m n k :=
  { net with workers := Function.update net.workers worker phase }

/-- Queue a request behind those that the client has sent. -/
def pushRequest (net : Network m n k) (client : Fin m) (id : ℕ) : Network m n k :=
  { net with toServer := Function.update net.toServer client (net.toServer client ++ [id]) }

/-- Queue a message behind those that the server has sent to the client. -/
def pushReply (net : Network m n k) (client : Fin m) (reply : Reply) : Network m n k :=
  { net with toClient := Function.update net.toClient client (net.toClient client ++ [reply]) }

/-- The loops of `sendResp` and of `finish` over the clients. -/
def broadcast (net : Network m n k) (reply : Reply) (entry : Sent m) : Network m n k :=
  { net.clientFds.foldl (fun net client => net.pushReply client reply) net with
    log := net.log ++ [entry] }

/-- The response of `NetworkedServer::sendResp`. -/
def answer (net : Network m n k) (worker : Fin n) (client : Fin m) (id svcNs : ℕ) :
    Network m n k :=
  { (net.setWorker worker .idle).pushReply client (.response id svcNs) with
    finishedReqs := net.finishedReqs + 1
    log := net.log ++ [.answer client id] }

/-- Whether a message to all clients follows so many responses. -/
def announces (config : ServerConfig) (finishedReqs : ℕ) : Bool :=
  finishedReqs = config.warmupReqs || finishedReqs = config.warmupReqs + config.maxReqs

/-- What `NetworkedServer::sendResp` sends once the request is counted. -/
def announce (config : ServerConfig) (net : Network m n k) : Network m n k :=
  if net.finishedReqs = config.warmupReqs then net.broadcast .roiBegin .roiBegin
  else if net.finishedReqs = config.warmupReqs + config.maxReqs then
    net.broadcast .finish .finish
  else net

/-- `NetworkedServer::sendResp`, which asserts that each of its messages is taken whole. -/
def sendResp (config : ServerConfig) (net : Network m n k) (worker : Fin n) (client : Fin m)
    (info : ReqInfo) (curNs : ℕ) (answered : Bool) (told : Fin m → Bool) :
    Except Halt (Network m n k) := do
  require (info.startNs < curNs)
  require answered
  let net := net.answer worker client info.id (curNs - info.startNs)
  require (!announces config net.finishedReqs || net.clientFds.all told)
  return net.announce config

/-- `NetworkedServer::finish`. -/
def finish (net : Network m n k) (told : Fin m → Bool) : Except Halt (Network m n k) := do
  require (net.clientFds.all told)
  return net.broadcast .finish .finish

/-- A step of a thread of a client, unless its process has ended. -/
def clientStep (net : Network m n k) (client : Fin m)
    (step : ClientState (k client) → Except Halt (ClientState (k client))) :
    Except Halt (Network m n k) :=
  if (net.clients client).dumped.isSome then .error .exited
  else do
    let st ← step (net.clients client)
    return net.setClient client st

/-- A step of a thread of the server. The server ends when it has no clients left. -/
def serverStep (net : Network m n k) (next : Except Halt (Network m n k)) :
    Except Halt (Network m n k) :=
  if net.clientFds = [] then .error .exited else next

/-- One step of the network, as long as the reads return whole messages and the clients' sends
succeed. Which client a worker takes a request from is left open. -/
def step (config : NetworkConfig m) (net : Network m n k) :
    NetEvent m n k → Except Halt (Network m n k)
  | .check client thread => net.clientStep client fun st =>
      match st.senders thread with
      | .looping => .ok (st.check thread)
      | _ => .error .notReady
  | .startReq client thread genNs => net.clientStep client fun st => st.startReq thread genNs
  | .arrive client thread curNs => net.clientStep client fun st =>
      match st.senders thread with
      | .drawn id genNs => .ok (st.arrive (config.client client) thread id genNs curNs)
      | _ => .error .notReady
  | .wake client thread curNs => net.clientStep client fun st =>
      match st.senders thread with
      | .sleeping id targetNs => .ok (st.wake thread id targetNs curNs)
      | _ => .error .notReady
  | .send client thread =>
      match (net.clients client).senders thread with
      | .sending id => do
          let net ← net.clientStep client fun st => .ok (st.moveSender thread .looping)
          return net.pushRequest client id
      | _ => .error .notReady
  | .recv client thread =>
      match (net.clients client).receivers thread, net.toClient client with
      | .reading, reply :: later => do
          let net ← net.clientStep client fun st => .ok (st.moveReceiver thread (.handling reply))
          return { net with toClient := Function.update net.toClient client later }
      | _, _ => .error .notReady
  | .handle client thread curNs => net.clientStep client fun st =>
      match st.receivers thread with
      | .handling reply => st.handle thread reply curNs
      | .reading => .error .notReady
  | .recvReq worker client curNs => net.serverStep <|
      match net.workers worker, net.toServer client with
      | .idle, id :: later =>
          if client ∈ net.clientFds then
            .ok { net.setWorker worker (.serving client ⟨id, curNs⟩) with
              toServer := Function.update net.toServer client later }
          else .error .notReady
      | _, _ => .error .notReady
  | .sendResp worker curNs answered told => net.serverStep <|
      match net.workers worker with
      | .serving client info =>
          net.sendResp config.server worker client info curNs answered told
      | .idle => .error .notReady
  | .removeClient worker client => net.serverStep <|
      if net.workers worker = .idle ∧ client ∈ net.clientFds ∧
          (net.clients client).dumped.isSome ∧ net.toServer client = [] then
        .ok { net with clientFds := net.clientFds.erase client }
      else .error .notReady
  | .finish told => net.serverStep (net.finish told)

end Network

/-! ## What a step does -/

section

variable {m n : ℕ} {k : Fin m → ℕ}

/-- The transitions of the network, by the event that takes them. -/
inductive Taken (config : NetworkConfig m) (net : Network m n k) :
    NetEvent m n k → Network m n k → Prop
  | check {client thread} (running : (net.clients client).dumped = none)
      (isLooping : (net.clients client).senders thread = .looping)
      (hasRoom : (net.clients client).numReqsInFlight ≤ MAX_IN_FLIGHT) :
      Taken config net (.check client thread)
        (net.setClient client ((net.clients client).moveSender thread .starting))
  | checkFull {client thread} : Taken config net (.check client thread) net
  | wait {client thread genNs} (running : (net.clients client).dumped = none)
      (isStarting : (net.clients client).senders thread = .starting)
      (isInit : (net.clients client).status = .INIT) :
      Taken config net (.startReq client thread genNs)
        (net.setClient client ((net.clients client).moveSender thread .waiting))
  | openBarrier {client thread genNs} (running : (net.clients client).dumped = none)
      (isWaiting : (net.clients client).senders thread = .waiting)
      (allThere : ∀ other, (net.clients client).senders other = .waiting ∨
        (net.clients client).senders other = .opened) :
      Taken config net (.startReq client thread genNs)
        (net.setClient client ((net.clients client).openBarrier thread))
  | drawRequest {client thread genNs} (running : (net.clients client).dumped = none)
      (isBefore : (net.clients client).senders thread = .starting ∧
          (net.clients client).status ≠ .INIT ∨
        (net.clients client).senders thread = .opened) :
      Taken config net (.startReq client thread genNs)
        (net.setClient client ((net.clients client).drawRequest thread genNs))
  | sleep {client thread id genNs curNs} (running : (net.clients client).dumped = none)
      (isDrawn : (net.clients client).senders thread = .drawn id genNs) (isEarly : curNs < genNs) :
      Taken config net (.arrive client thread curNs)
        (net.setClient client ((net.clients client).moveSender thread
          (.sleeping id (max genNs ((curNs + (config.client client).minSleepNs) % 2 ^ 64)))))
  | arrive {client thread id genNs curNs} (running : (net.clients client).dumped = none)
      (isDrawn : (net.clients client).senders thread = .drawn id genNs)
      (hasArrived : genNs ≤ curNs) :
      Taken config net (.arrive client thread curNs)
        (net.setClient client ((net.clients client).moveSender thread (.sending id)))
  | sleepOn {client thread curNs} : Taken config net (.wake client thread curNs) net
  | wake {client thread id targetNs curNs} (running : (net.clients client).dumped = none)
      (isSleeping : (net.clients client).senders thread = .sleeping id targetNs)
      (isOver : targetNs ≤ curNs) :
      Taken config net (.wake client thread curNs)
        (net.setClient client ((net.clients client).moveSender thread (.sending id)))
  | send {client thread id} (running : (net.clients client).dumped = none)
      (isSending : (net.clients client).senders thread = .sending id) :
      Taken config net (.send client thread)
        ((net.setClient client ((net.clients client).moveSender thread .looping)).pushRequest
          client id)
  | recv {client thread reply later} (running : (net.clients client).dumped = none)
      (isReading : (net.clients client).receivers thread = .reading)
      (isNext : net.toClient client = reply :: later) :
      Taken config net (.recv client thread)
        { net.setClient client ((net.clients client).moveReceiver thread (.handling reply)) with
          toClient := Function.update net.toClient client later }
  | finiReq {client thread id svcNs curNs genNs latencies}
      (running : (net.clients client).dumped = none)
      (isHandling : (net.clients client).receivers thread = .handling (.response id svcNs))
      (isInFlight : (net.clients client).inFlightReqs.get? id = some genNs)
      (recorded : (net.clients client).recordLatency id genNs svcNs curNs = .ok latencies) :
      Taken config net (.handle client thread curNs)
        (net.setClient client { (net.clients client).moveReceiver thread .reading with
          latencies
          inFlightReqs := (net.clients client).inFlightReqs.erase id
          numReqsInFlight := (net.clients client).numReqsInFlight - 1
          handled := (net.clients client).handled ++ [.response id svcNs] })
  | startRoi {client thread curNs} (running : (net.clients client).dumped = none)
      (isHandling : (net.clients client).receivers thread = .handling .roiBegin)
      (isWarmup : (net.clients client).status = .WARMUP) :
      Taken config net (.handle client thread curNs)
        (net.setClient client { (net.clients client).moveReceiver thread .reading with
          status := .ROI
          latencies := []
          handled := (net.clients client).handled ++ [.roiBegin] })
  | dumpStats {client thread curNs} (running : (net.clients client).dumped = none)
      (isHandling : (net.clients client).receivers thread = .handling .finish) :
      Taken config net (.handle client thread curNs)
        (net.setClient client { (net.clients client).moveReceiver thread .reading with
          dumped := some (net.clients client).latencies
          handled := (net.clients client).handled ++ [.finish] })
  | recvReq {worker client curNs id later} (isIdle : net.workers worker = .idle)
      (isNext : net.toServer client = id :: later) (isConnected : client ∈ net.clientFds) :
      Taken config net (.recvReq worker client curNs)
        { net.setWorker worker (.serving client ⟨id, curNs⟩) with
          toServer := Function.update net.toServer client later }
  | sendResp {worker client info curNs answered told}
      (isServing : net.workers worker = .serving client info) (isLater : info.startNs < curNs) :
      Taken config net (.sendResp worker curNs answered told)
        ((net.answer worker client info.id (curNs - info.startNs)).announce config.server)
  | removeClient {worker client} (hasEnded : (net.clients client).dumped.isSome) :
      Taken config net (.removeClient worker client)
        { net with clientFds := net.clientFds.erase client }
  | finish {told} : Taken config net (.finish told) (net.broadcast .finish .finish)

namespace Network

variable {config : NetworkConfig m} {net next : Network m n k} {client : Fin m}

@[simp]
theorem setClient_self (net : Network m n k) (client : Fin m) :
    net.setClient client (net.clients client) = net := by
  rw [setClient, Function.update_eq_self]

theorem clientStep_eq_ok_iff
    {step : ClientState (k client) → Except Halt (ClientState (k client))} :
    net.clientStep client step = .ok next ↔ (net.clients client).dumped = none ∧
      ∃ st, step (net.clients client) = .ok st ∧ net.setClient client st = next := by
  rw [clientStep]
  cases isDumped : (net.clients client).dumped with
  | none => cases step (net.clients client) <;> simp [bind, Except.bind, pure, Except.pure]
  | some latencies => simp

theorem require_eq_ok_iff {condition : Bool} : require condition = .ok () ↔ condition = true := by
  cases condition <;> simp [require]

theorem serverStep_eq_ok_iff {taken : Except Halt (Network m n k)} :
    net.serverStep taken = .ok next ↔ net.clientFds ≠ [] ∧ taken = .ok next := by
  rw [serverStep]
  split <;> simp_all

theorem taken_startReq {thread : Fin (k client)} {genNs : ℕ} {st : ClientState (k client)}
    (running : (net.clients client).dumped = none)
    (stepped : (net.clients client).startReq thread genNs = .ok st) :
    Taken config net (.startReq client thread genNs) (net.setClient client st) := by
  rw [ClientState.startReq] at stepped
  split at stepped
  · rename_i isStarting
    split at stepped
    · rename_i isInit
      cases stepped
      exact .wait running isStarting isInit
    · rename_i notInit
      cases stepped
      exact .drawRequest running (.inl ⟨isStarting, notInit⟩)
  · rename_i isWaiting
    split at stepped
    · rename_i allThere
      cases stepped
      exact .openBarrier running isWaiting allThere
    · cases stepped
  · rename_i isOpened
    split at stepped
    · cases stepped
      exact .drawRequest running (.inr isOpened)
    · cases stepped
  · cases stepped

theorem taken_handle {thread : Fin (k client)} {reply : Reply} {curNs : ℕ}
    {st : ClientState (k client)} (running : (net.clients client).dumped = none)
    (isHandling : (net.clients client).receivers thread = .handling reply)
    (stepped : (net.clients client).handle thread reply curNs = .ok st) :
    Taken config net (.handle client thread curNs) (net.setClient client st) := by
  obtain ⟨acted, isActed, stepped⟩ := bind_eq_ok_iff.mp stepped
  cases stepped
  cases reply with
  | response id svcNs =>
      rw [ClientState.act, ClientState.finiReq] at isActed
      split at isActed
      · cases isActed
      · rename_i genNs isInFlight
        obtain ⟨latencies, recorded, isActed⟩ := bind_eq_ok_iff.mp isActed
        cases isActed
        exact .finiReq running isHandling isInFlight recorded
  | roiBegin =>
      rw [ClientState.act, ClientState.startRoi] at isActed
      split at isActed
      · rename_i isWarmup
        cases isActed
        exact .startRoi running isHandling isWarmup
      · cases isActed
  | finish =>
      cases isActed
      exact .dumpStats running isHandling

/-- A step takes one of the transitions. -/
theorem step_taken {event : NetEvent m n k} (stepped : net.step config event = .ok next) :
    Taken config net event next := by
  cases event with
  | check client thread =>
      rw [step] at stepped
      obtain ⟨running, st, isStep, rfl⟩ := clientStep_eq_ok_iff.mp stepped
      split at isStep
      · rename_i isLooping
        cases isStep
        rw [ClientState.check]
        split
        · rename_i hasRoom
          exact .check running isLooping hasRoom
        · rw [setClient_self]
          exact .checkFull
      · cases isStep
  | startReq client thread genNs =>
      rw [step] at stepped
      obtain ⟨running, st, isStep, rfl⟩ := clientStep_eq_ok_iff.mp stepped
      exact taken_startReq running isStep
  | arrive client thread curNs =>
      rw [step] at stepped
      obtain ⟨running, st, isStep, rfl⟩ := clientStep_eq_ok_iff.mp stepped
      split at isStep
      · rename_i id genNs isDrawn
        cases isStep
        rw [ClientState.arrive]
        split
        · rename_i isEarly
          exact .sleep running isDrawn isEarly
        · rename_i hasArrived
          exact .arrive running isDrawn (not_lt.mp hasArrived)
      · cases isStep
  | wake client thread curNs =>
      rw [step] at stepped
      obtain ⟨running, st, isStep, rfl⟩ := clientStep_eq_ok_iff.mp stepped
      split at isStep
      · rename_i id targetNs isSleeping
        cases isStep
        rw [ClientState.wake]
        split
        · rw [setClient_self]
          exact .sleepOn
        · rename_i isOver
          exact .wake running isSleeping (not_lt.mp isOver)
      · cases isStep
  | send client thread =>
      rw [step] at stepped
      split at stepped
      · rename_i id isSending
        obtain ⟨moved, isMove, stepped⟩ := bind_eq_ok_iff.mp stepped
        cases stepped
        obtain ⟨running, st, isStep, rfl⟩ := clientStep_eq_ok_iff.mp isMove
        cases isStep
        exact .send running isSending
      · cases stepped
  | recv client thread =>
      rw [step] at stepped
      split at stepped
      · rename_i reply later isReading isNext
        obtain ⟨moved, isMove, stepped⟩ := bind_eq_ok_iff.mp stepped
        cases stepped
        obtain ⟨running, st, isStep, rfl⟩ := clientStep_eq_ok_iff.mp isMove
        cases isStep
        exact .recv running isReading isNext
      · cases stepped
  | handle client thread curNs =>
      rw [step] at stepped
      obtain ⟨running, st, isStep, rfl⟩ := clientStep_eq_ok_iff.mp stepped
      split at isStep
      · rename_i reply isHandling
        exact taken_handle running isHandling isStep
      · cases isStep
  | recvReq worker client curNs =>
      rw [step] at stepped
      obtain ⟨-, isStep⟩ := serverStep_eq_ok_iff.mp stepped
      split at isStep
      · rename_i id later isIdle isNext
        split at isStep
        · rename_i isConnected
          cases isStep
          exact .recvReq isIdle isNext isConnected
        · cases isStep
      · cases isStep
  | sendResp worker curNs answered told =>
      rw [step] at stepped
      obtain ⟨-, isStep⟩ := serverStep_eq_ok_iff.mp stepped
      split at isStep
      · rename_i client info isServing
        obtain ⟨_, isLater, isStep⟩ := bind_eq_ok_iff.mp isStep
        obtain ⟨_, -, isStep⟩ := bind_eq_ok_iff.mp isStep
        obtain ⟨_, -, isStep⟩ := bind_eq_ok_iff.mp isStep
        cases isStep
        exact .sendResp isServing (decide_eq_true_iff.mp (require_eq_ok_iff.mp isLater))
      · cases isStep
  | removeClient worker client =>
      rw [step] at stepped
      obtain ⟨-, isStep⟩ := serverStep_eq_ok_iff.mp stepped
      split at isStep
      · rename_i isOver
        cases isStep
        exact .removeClient isOver.2.2.1
      · cases isStep
  | finish told =>
      rw [step] at stepped
      obtain ⟨-, isStep⟩ := serverStep_eq_ok_iff.mp stepped
      obtain ⟨_, -, isStep⟩ := bind_eq_ok_iff.mp isStep
      cases isStep
      exact .finish

end Network

end

end Datamime.Harness
