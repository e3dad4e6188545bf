/-
# The integrated server

The worker threads of the integrated server generate their own requests. A thread
enters three locked sections for a request: one that starts it, one that records
its latency once the region of interest has begun, and one that counts it and
decides whether the region begins or the records are dumped. A step of the model
is one locked section of one thread, so a run is an interleaving of sections.
-/

import Datamime.Fault
import Datamime.Math.Dict
import Datamime.Math.Run

namespace Datamime.Harness

open Datamime.Math

inductive ClientStatus
  | INIT
  | WARMUP
  | ROI
  | FINISHED
  deriving DecidableEq

/-- The settings that the server reads from the environment. -/
structure ServerConfig where
  maxReqs : ℕ
  warmupReqs : ℕ

/-- `Server::ReqInfo`. -/
structure ReqInfo where
  id : ℕ
  startNs : ℕ
  deriving DecidableEq

/-- The entries that one call of `finiReq` appends to the three vectors of times. The
source does not store whose times they are; here `id` says so. -/
structure Latency where
  id : ℕ
  queueNs : ℕ
  svcNs : ℕ
  sjrnNs : ℕ
  deriving DecidableEq

/-- Where a worker thread stands between its locked sections. -/
inductive Phase
  | idle
  /-- At the first barrier of `startReq`. -/
  | waiting
  /-- At the second barrier of `startReq`. -/
  | opened
  | serving (info : ReqInfo)
  /-- In `sendResp`, after `finiReq` and before the request is counted. -/
  | responded (id : ℕ)
  deriving DecidableEq

/-- The id of the request that has left `finiReq` and is not counted. -/
def Phase.pendingId : Phase → Option ℕ
  | .responded id => some id
  | _ => none

/-- Server and client state of `n` worker threads. -/
structure ServerState (n : ℕ) where
  threads : Fin n → Phase
  status : ClientStatus
  /-- Whether `dist` is set. -/
  hasDist : Bool
  startedReqs : ℕ
  /-- The generation time of each request in flight. -/
  inFlightReqs : Dict ℕ ℕ
  numReqsInFlight : ℤ
  latencies : List Latency
  finishedReqs : ℕ
  /-- What `dumpStats` wrote before the process ended. -/
  dumped : Option (List Latency)
  /-- The counted requests in order. The source keeps their number only. -/
  finished : List ℕ
  /-- The requests that had left `finiReq` uncounted when the region of interest began. -/
  pendingAtRoi : List ℕ

namespace ServerState

variable {n : ℕ}

def initial (n : ℕ) : ServerState n where
  threads := fun _ => .idle
  status := .INIT
  hasDist := false
  startedReqs := 0
  inFlightReqs := Dict.empty
  numReqsInFlight := 0
  latencies := []
  finishedReqs := 0
  dumped := none
  finished := []
  pendingAtRoi := []

/-- The requests that have left `finiReq` and are not counted. -/
def pending (st : ServerState n) : List ℕ :=
  (List.finRange n).filterMap fun thread => (st.threads thread).pendingId

def moveTo (st : ServerState n) (thread : Fin n) (phase : Phase) : ServerState n :=
  { st with threads := Function.update st.threads thread phase }

end ServerState

/-- Why no further step is taken. -/
inductive Halt
  | fault (fault : Fault)
  /-- The thread does not stand before this section, or waits at a barrier. -/
  | notReady
  | exited
  deriving DecidableEq

/-- One locked section of one thread, with the times it reads. -/
inductive Section (n : ℕ)
  /-- The next section of `recvReq`. `genNs` is the arrival time that is drawn. -/
  | recvReq (thread : Fin n) (genNs startNs : ℕ)
  /-- `sendResp` up to the end of `finiReq`. -/
  | finiReq (thread : Fin n) (respNs curNs : ℕ)
  /-- The rest of `sendResp`. -/
  | count (thread : Fin n)

section

variable {n : ℕ}

/-- `assert`. -/
def require (condition : Bool) : Except Halt Unit :=
  if condition then .ok () else .error (.fault .assertion)

/-- The section of `startReq` that draws the next request. -/
def drawRequest (st : ServerState n) (thread : Fin n) (genNs startNs : ℕ) : ServerState n :=
  { st.moveTo thread (.serving ⟨st.startedReqs, startNs⟩) with
    startedReqs := st.startedReqs + 1
    inFlightReqs := st.inFlightReqs.insert st.startedReqs genNs
    numReqsInFlight := st.numReqsInFlight + 1 }

/-- The section between the two barriers. -/
def openClient (st : ServerState n) (thread : Fin n) : ServerState n :=
  let st := st.moveTo thread .opened
  if st.hasDist then st else { st with hasDist := true, status := .WARMUP }

/-- `Client::startReq` and the rest of `recvReq`, one section at a time. -/
def recvReqSection (st : ServerState n) (thread : Fin n) (genNs startNs : ℕ) :
    Except Halt (ServerState n) :=
  match st.threads thread with
  | .idle =>
      if st.status = .INIT then .ok (st.moveTo thread .waiting)
      else .ok (drawRequest st thread genNs startNs)
  | .waiting =>
      if ∀ other, st.threads other = .waiting ∨ st.threads other = .opened then
        .ok (openClient st thread)
      else .error .notReady
  | .opened =>
      if ∀ other, st.threads other ≠ .waiting then .ok (drawRequest st thread genNs startNs)
      else .error .notReady
  | _ => .error .notReady

/-- The times that `finiReq` records. -/
def latencyOf (id genNs svcNs curNs : ℕ) : Except Halt Latency := do
  require (genNs < curNs)
  let sjrnNs := curNs - genNs
  require (svcNs ≤ sjrnNs)
  return ⟨id, sjrnNs - svcNs, svcNs, sjrnNs⟩

/-- The vectors of times after `finiReq`. -/
def recordLatency (st : ServerState n) (id genNs svcNs curNs : ℕ) :
    Except Halt (List Latency) :=
  if st.status = .ROI then do
    let latency ← latencyOf id genNs svcNs curNs
    return st.latencies ++ [latency]
  else .ok st.latencies

/-- `sendResp` up to and with `Client::finiReq`. -/
def finiReqSection (st : ServerState n) (thread : Fin n) (respNs curNs : ℕ) :
    Except Halt (ServerState n) :=
  match st.threads thread with
  | .serving info => do
      require (info.startNs < respNs)
      let svcNs := respNs - info.startNs
      match st.inFlightReqs.get? info.id with
      | none => .error (.fault .assertion)
      | some genNs =>
          let latencies ← recordLatency st info.id genNs svcNs curNs
          return { st.moveTo thread (.responded info.id) with
            latencies
            inFlightReqs := st.inFlightReqs.erase info.id
            numReqsInFlight := st.numReqsInFlight - 1 }
  | _ => .error .notReady

/-- `Client::_startRoi`. -/
def startRoi (st : ServerState n) : Except Halt (ServerState n) :=
  if st.status = .WARMUP then
    .ok { st with status := .ROI, latencies := [], pendingAtRoi := st.pending }
  else .error (.fault .assertion)

/-- The section of `sendResp` that counts the request. -/
def countSection (config : ServerConfig) (st : ServerState n) (thread : Fin n) :
    Except Halt (ServerState n) :=
  match st.threads thread with
  | .responded id =>
      let st := { st.moveTo thread .idle with
        finishedReqs := st.finishedReqs + 1
        finished := st.finished ++ [id] }
      if st.finishedReqs = config.warmupReqs then startRoi st
      else if st.finishedReqs = config.warmupReqs + config.maxReqs then
        .ok { st with dumped := some st.latencies }
      else .ok st
  | _ => .error .notReady

/-- One step of the integrated server. -/
def serverStep (config : ServerConfig) (st : ServerState n) (entered : Section n) :
    Except Halt (ServerState n) :=
  if st.dumped.isSome then .error .exited
  else
    match entered with
    | .recvReq thread genNs startNs => recvReqSection st thread genNs startNs
    | .finiReq thread respNs curNs => finiReqSection st thread respNs curNs
    | .count thread => countSection config st thread

end

end Datamime.Harness
