/-
# Bytes that carry the messages

As long as no send of a client fails and every read returns a whole message that is not empty, the
streams of the connections are always a sequence of messages. Every run of the processes is then a
run of the network of messages, and a step fails an assertion precisely if it fails it there.
-/

import Datamime.Harness.Assertions
import Datamime.Harness.Wires

namespace Datamime.Harness

open Datamime.Math

namespace Wired

variable {m n : ℕ} {k : Fin m → ℕ}

/-! ## The messages underway -/

/-- The network of messages, given the messages that the streams are made of. -/
def messages (st : Wired m n k) (requests : Fin m → List Request)
    (responses : Fin m → List Response) : Network m n k where
  clients := st.clients
  toServer := fun client => (requests client).map fun req => req.id.toNat
  toClient := fun client => (responses client).map Response.reply
  clientFds := st.clientFds
  workers := st.workers
  finishedReqs := st.finishedReqs
  log := st.log

/-- The streams are made of these messages. -/
structure Underway (st : Wired m n k) (requests : Fin m → List Request)
    (responses : Fin m → List Response) : Prop where
  toServer : ∀ client, st.toServer client = (requests client).flatMap Request.wire
  toClient : ∀ client, st.toClient client = (responses client).flatMap Response.wire
  served : ∀ worker client info, st.workers worker = .serving client info → info.id < 2 ^ 64

/-- The network of messages stands where the processes do. -/
def Carries (st : Wired m n k) (net : Network m n k) : Prop :=
  ∃ requests responses, st.Underway requests responses ∧ net = st.messages requests responses

variable {config : NetworkConfig m} {st next : Wired m n k} {requests : Fin m → List Request}
  {responses : Fin m → List Response} {client : Fin m}

theorem carries_initial : (initial m n k).Carries (Network.initial m n k) :=
  ⟨fun _ => [], fun _ => [], ⟨fun _ => rfl, fun _ => rfl, nofun⟩, rfl⟩

/-- A step of a client that leaves the connections alone is the same step there. -/
theorem clientStep_messages {taken : ClientState (k client) → Except Halt (ClientState (k client))}
    (stepped : st.clientStep client taken = .ok next) (underway : st.Underway requests responses) :
    next.Underway requests responses ∧
      (st.messages requests responses).clientStep client taken =
        .ok (next.messages requests responses) := by
  rw [clientStep] at stepped
  split at stepped
  · cases stepped
  · rename_i running
    obtain ⟨own, isOwn, stepped⟩ := bind_eq_ok_iff.mp stepped
    cases stepped
    refine ⟨⟨underway.toServer, underway.toClient, underway.served⟩, ?_⟩
    have runs : ((st.messages requests responses).clients client).dumped = none :=
      Option.not_isSome_iff_eq_none.mp running
    exact Network.clientStep_eq_ok_iff.mpr ⟨runs, own, isOwn, rfl⟩

/-- When one list changes, so does what is made of it. -/
theorem map_update {α β : Type} (f : List α → β) (lists : Fin m → List α) (list : List α) :
    (fun other => f (Function.update lists client list other)) =
      Function.update (fun other => f (lists other)) client (f list) := by
  funext other
  exact Function.apply_update (fun _ => f) lists client list other

theorem flatMap_update {α : Type} {wire : α → List UInt8} {streams : Fin m → List UInt8}
    {lists : Fin m → List α} (made : ∀ other, streams other = (lists other).flatMap wire)
    {stream : List UInt8} {list : List α} (isMade : stream = list.flatMap wire) (other : Fin m) :
    Function.update streams client stream other =
      (Function.update lists client list other).flatMap wire := by
  by_cases same : other = client
  · subst same
    rw [Function.update_self, Function.update_self, isMade]
  · rw [Function.update_of_ne same, Function.update_of_ne same, made other]

/-! ## What the server sends -/

/-- A message behind those that the server has sent to the client. -/
def pushed (st : Wired m n k) (client : Fin m) (resp : Response) : Wired m n k :=
  { st with toClient := Function.update st.toClient client (st.toClient client ++ resp.wire) }

/-- How much of a message is sent does not depend on what was sent before. -/
theorem sendLoop_fst (first second : List UInt8) (accepts : Calls) (cur : List UInt8) :
    (sendLoop ⟨first, accepts⟩ cur).1 = (sendLoop ⟨second, accepts⟩ cur).1 := by
  induction h : cur.length using Nat.strong_induction_on generalizing first second accepts cur with
  | _ length ih =>
      rw [sendLoop, sendLoop]
      split
      · rename_i nonempty
        cases isAccepted : accepts 0 with
        | none => simp only [isAccepted]
        | some size =>
            have shorter : (cur.drop size).length < length := by
              have positive := size.pos
              rw [List.length_drop]
              omega
            simp only [isAccepted]
            exact ih _ shorter _ _ _ _ rfl
      · rfl

/-- Whether a socket whose calls accept so much takes the message whole. -/
def takes (resp : Response) (accepts : Calls) : Bool :=
  (sendfull ⟨[], accepts⟩ resp.wire).1 = resp.wire.length

theorem sendTo_eq (st : Wired m n k) (client : Fin m) (resp : Response) (accepts : Calls) :
    st.sendTo client resp accepts =
      require (takes resp accepts) >>= fun _ => .ok (st.pushed client resp) := by
  have same : (sendfull ⟨st.toClient client, accepts⟩ resp.wire).1 =
      (sendfull ⟨[], accepts⟩ resp.wire).1 :=
    congrArg (fun left : List UInt8 => (resp.wire.length : ℤ) - left.length)
      (sendLoop_fst (st.toClient client) [] accepts resp.wire)
  have isSent := @sent_of_sendfull ⟨st.toClient client, accepts⟩ resp.wire
  rw [sendTo, takes, ← same]
  generalize sendfull ⟨st.toClient client, accepts⟩ resp.wire = result at isSent
  obtain ⟨count, out⟩ := result
  dsimp only at isSent ⊢
  by_cases isWhole : count = resp.wire.length
  · rw [isSent isWhole]
    rfl
  · rw [decide_eq_false isWhole]
    rfl

theorem Underway.pushed (underway : st.Underway requests responses) (client : Fin m)
    (resp : Response) :
    (st.pushed client resp).Underway requests
      (Function.update responses client (responses client ++ [resp])) := by
  refine ⟨underway.toServer, flatMap_update underway.toClient ?_, underway.served⟩
  rw [List.flatMap_append, List.flatMap_singleton, underway.toClient]

theorem messages_pushed (st : Wired m n k) (requests : Fin m → List Request)
    (responses : Fin m → List Response) (client : Fin m) (resp : Response) :
    (st.pushed client resp).messages requests
        (Function.update responses client (responses client ++ [resp])) =
      (st.messages requests responses).pushReply client resp.reply := by
  rw [messages, map_update, List.map_append]
  rfl

/-- A loop over the clients. -/
theorem foldlM_sendTo_eq (fds : List (Fin m)) (st : Wired m n k) (resp : Response)
    (told : Fin m → Calls) :
    fds.foldlM (fun st client => st.sendTo client resp (told client)) st =
      require (fds.all fun other => takes resp (told other)) >>= fun _ =>
        .ok (fds.foldl (fun st client => st.pushed client resp) st) := by
  induction fds generalizing st with
  | nil => rfl
  | cons fd rest ih =>
      rw [List.foldlM_cons, sendTo_eq, List.all_cons, List.foldl_cons]
      cases takes resp (told fd) with
      | false => rfl
      | true => exact ih (st.pushed fd resp)

theorem foldl_pushed_messages (fds : List (Fin m)) (resp : Response)
    (underway : st.Underway requests responses) :
    ∃ others, (fds.foldl (fun st client => st.pushed client resp) st).Underway requests others ∧
      (fds.foldl (fun st client => st.pushed client resp) st).messages requests others =
        fds.foldl (fun net client => net.pushReply client resp.reply)
          (st.messages requests responses) := by
  induction fds generalizing st responses with
  | nil => exact ⟨responses, underway, rfl⟩
  | cons fd rest ih =>
      obtain ⟨others, isUnderway, isMessages⟩ := ih (underway.pushed fd resp)
      rw [messages_pushed] at isMessages
      exact ⟨others, isUnderway, isMessages⟩

/-- A message to all clients, sent whole. -/
def told (st : Wired m n k) (resp : Response) (entry : Sent m) : Wired m n k :=
  { st.clientFds.foldl (fun st client => st.pushed client resp) st with
    log := st.log ++ [entry] }

theorem log_foldl_pushed (fds : List (Fin m)) (resp : Response) (st : Wired m n k) :
    (fds.foldl (fun st client => st.pushed client resp) st).log = st.log := by
  induction fds generalizing st with
  | nil => rfl
  | cons fd rest ih => exact ih (st.pushed fd resp)

theorem broadcast_eq (st : Wired m n k) (resp : Response) (calls : Fin m → Calls)
    (entry : Sent m) :
    st.broadcast resp calls entry =
      require (st.clientFds.all fun other => takes resp (calls other)) >>= fun _ =>
        .ok (st.told resp entry) := by
  have sameLog := log_foldl_pushed st.clientFds resp st
  rw [broadcast, foldlM_sendTo_eq, told, ← sameLog]
  cases st.clientFds.all fun other => takes resp (calls other) <;> rfl

theorem told_messages (resp : Response) (entry : Sent m)
    (underway : st.Underway requests responses) :
    ∃ others, (st.told resp entry).Underway requests others ∧
      (st.told resp entry).messages requests others =
        (st.messages requests responses).broadcast resp.reply entry := by
  obtain ⟨others, isUnderway, isMessages⟩ := foldl_pushed_messages st.clientFds resp underway
  refine ⟨others, ⟨isUnderway.toServer, isUnderway.toClient, isUnderway.served⟩, ?_⟩
  show { (st.clientFds.foldl (fun st client => st.pushed client resp) st).messages requests
    others with log := st.log ++ [entry] } = _
  rw [isMessages]
  rfl

/-- The message to all clients behind so many responses. -/
def followUp (config : ServerConfig) (finishedReqs : ℕ) (resp : Response) : Response :=
  if finishedReqs = config.warmupReqs then { resp with type := .ROI_BEGIN }
  else { resp with type := .FINISH }

/-- What a worker announces it announces as the one in the network of messages does. -/
theorem announce_messages (config : NetworkConfig m) (resp : Response) (calls : Fin m → Calls)
    (underway : st.Underway requests responses) :
    ∃ others last, last.Underway requests others ∧
      last.messages requests others =
        (st.messages requests responses).announce config.server ∧
      st.announce config.server resp calls =
        require (!Network.announces config.server st.finishedReqs || st.clientFds.all fun other =>
            takes (followUp config.server st.finishedReqs resp) (calls other)) >>= fun _ =>
          .ok last := by
  have sameCount : (st.messages requests responses).finishedReqs = st.finishedReqs := rfl
  rw [Network.announce, sameCount, announce, Network.announces, followUp]
  by_cases begins : st.finishedReqs = config.server.warmupReqs
  · obtain ⟨others, isUnderway, isMessages⟩ :=
      told_messages { resp with type := .ROI_BEGIN } .roiBegin underway
    refine ⟨others, _, isUnderway, by rw [if_pos begins, isMessages]; rfl, ?_⟩
    rw [if_pos begins, if_pos begins, broadcast_eq, decide_eq_true begins]
    rfl
  · by_cases ends : st.finishedReqs = config.server.warmupReqs + config.server.maxReqs
    · obtain ⟨others, isUnderway, isMessages⟩ :=
        told_messages { resp with type := .FINISH } .finish underway
      refine ⟨others, _, isUnderway, by rw [if_neg begins, if_pos ends, isMessages]; rfl, ?_⟩
      rw [if_neg begins, if_pos ends, if_neg begins, broadcast_eq, decide_eq_false begins,
        decide_eq_true ends]
      rfl
    · refine ⟨responses, st, underway, by rw [if_neg begins, if_neg ends], ?_⟩
      rw [if_neg begins, if_neg ends, decide_eq_false begins, decide_eq_false ends]
      rfl

theorem reply_response {info : ReqInfo} (small : info.id < 2 ^ 64) (curNs : UInt64)
    (data : Payload) :
    (response info curNs data).reply = .response info.id (curNs.toNat - info.startNs) := by
  have nsFits : curNs.toNat - info.startNs < 2 ^ 64 := (Nat.sub_le _ _).trans_lt curNs.toNat_lt
  simp only [response, Response.reply, UInt64.toNat_ofNat', Reply.response.injEq]
  exact ⟨Nat.mod_eq_of_lt small, Nat.mod_eq_of_lt nsFits⟩

/-- The request is counted behind its response, in both networks. -/
theorem counted_messages {worker : Fin n} {info : ReqInfo} (curNs : UInt64) (data : Payload)
    (isServing : st.workers worker = .serving client info)
    (underway : st.Underway requests responses) :
    ∃ others, ((st.pushed client (response info curNs data)).counted worker client
        info.id).Underway requests others ∧
      ((st.pushed client (response info curNs data)).counted worker client info.id).messages
          requests others =
        (st.messages requests responses).answer worker client info.id
          (curNs.toNat - info.startNs) := by
  have pushed := underway.pushed client (response info curNs data)
  have queued := messages_pushed st requests responses client (response info curNs data)
  rw [reply_response (underway.served worker client info isServing)] at queued
  refine ⟨_, ⟨pushed.toServer, pushed.toClient, fun server active taken isTaken => ?_⟩, ?_⟩
  · by_cases same : server = worker
    · subst same
      simp only [counted, setWorker, Function.update_self, reduceCtorEq] at isTaken
    · simp only [counted, setWorker, Function.update_of_ne same] at isTaken
      exact underway.served server active taken isTaken
  · show { (st.pushed client (response info curNs data)).messages requests
        (Function.update responses client
          (responses client ++ [response info curNs data])) with
      workers := Function.update st.workers worker .idle
      finishedReqs := st.finishedReqs + 1
      log := st.log ++ [Sent.answer client info.id] } = _
    rw [queued]
    rfl

/-- A worker responds as the one in the network of messages does. -/
theorem sendResp_messages (config : NetworkConfig m) {worker : Fin n} {info : ReqInfo}
    (curNs : UInt64) (data : Payload) (answered : Calls) (calls : Fin m → Calls)
    (isServing : st.workers worker = .serving client info)
    (underway : st.Underway requests responses) :
    ∃ others, (∀ next,
        st.sendResp config.server worker client info curNs data answered calls = .ok next →
          next.Underway requests others) ∧
      (st.messages requests responses).sendResp config.server worker client info curNs.toNat
          (takes (response info curNs data) answered) (fun other =>
            takes (followUp config.server (st.finishedReqs + 1) (response info curNs data))
              (calls other)) =
        (st.sendResp config.server worker client info curNs data answered calls).map
          fun next => next.messages requests others := by
  obtain ⟨more, countedUnderway, isAnswer⟩ := counted_messages curNs data isServing underway
  obtain ⟨others, last, lastUnderway, isLast, announced⟩ :=
    announce_messages config (response info curNs data) calls countedUnderway
  have sameCount : ((st.pushed client (response info curNs data)).counted worker client
      info.id).finishedReqs = st.finishedReqs + 1 := rfl
  have sameFds : ((st.pushed client (response info curNs data)).counted worker client
      info.id).clientFds = st.clientFds := rfl
  rw [sameCount, sameFds] at announced
  have responds : st.sendResp config.server worker client info curNs data answered calls =
      require (info.startNs < curNs.toNat) >>= fun _ =>
        require (takes (response info curNs data) answered) >>= fun _ =>
          require (!Network.announces config.server (st.finishedReqs + 1) ||
            st.clientFds.all fun other =>
              takes (followUp config.server (st.finishedReqs + 1) (response info curNs data))
                (calls other)) >>= fun _ => .ok last := by
    rw [sendResp, sendTo_eq, ← announced]
    cases takes (response info curNs data) answered <;> rfl
  have answers : (st.messages requests responses).sendResp config.server worker client info
      curNs.toNat (takes (response info curNs data) answered) (fun other =>
        takes (followUp config.server (st.finishedReqs + 1) (response info curNs data))
          (calls other)) =
      require (info.startNs < curNs.toNat) >>= fun _ =>
        require (takes (response info curNs data) answered) >>= fun _ =>
          require (!Network.announces config.server (st.finishedReqs + 1) ||
            st.clientFds.all fun other =>
              takes (followUp config.server (st.finishedReqs + 1) (response info curNs data))
                (calls other)) >>= fun _ => .ok (last.messages requests others) := by
    rw [isLast, isAnswer]
    rfl
  rw [responds, answers]
  generalize decide (info.startNs < curNs.toNat) = isLater
  generalize takes (response info curNs data) answered = isAnswered
  generalize (!Network.announces config.server (st.finishedReqs + 1) || _) = isTold
  refine ⟨others, fun next isNext => ?_, ?_⟩
  · obtain ⟨_, -, isNext⟩ := bind_eq_ok_iff.mp isNext
    obtain ⟨_, -, isNext⟩ := bind_eq_ok_iff.mp isNext
    obtain ⟨_, -, isNext⟩ := bind_eq_ok_iff.mp isNext
    cases isNext
    exact lastUnderway
  · cases isLater <;> cases isAnswered <;> cases isTold <;> rfl

/-- The application ends the run as in the network of messages. -/
theorem finish_messages (calls : Fin m → Calls) (underway : st.Underway requests responses) :
    ∃ others, (∀ next, st.broadcast finishResp calls .finish = .ok next →
        next.Underway requests others) ∧
      (st.messages requests responses).finish (fun other => takes finishResp (calls other)) =
        (st.broadcast finishResp calls .finish).map fun next => next.messages requests others := by
  obtain ⟨others, isUnderway, isTold⟩ := told_messages finishResp .finish underway
  rw [broadcast_eq]
  refine ⟨others, fun next isNext => ?_, ?_⟩
  · obtain ⟨_, -, isNext⟩ := bind_eq_ok_iff.mp isNext
    cases isNext
    exact isUnderway
  · have sameFds : (st.messages requests responses).clientFds = st.clientFds := rfl
    rw [Network.finish, sameFds]
    cases st.clientFds.all fun other => takes finishResp (calls other) with
    | false => rfl
    | true =>
        show Except.ok ((st.messages requests responses).broadcast finishResp.reply .finish) = _
        rw [← isTold]
        rfl

/-! ## One step -/

/-- A request that is sent whole joins those on their way. -/
theorem send_messages {thread : Fin (k client)} {id : ℕ} {data : Payload} {accepts : Calls}
    (small : id < 2 ^ 64)
    (whole : (sendfull ⟨st.toServer client, accepts⟩ (st.request client id data).wire).1 =
      (st.request client id data).wire.length)
    (underway : st.Underway requests responses) :
    ∃ others, (st.send client thread id data accepts).Underway others responses ∧
      (st.send client thread id data accepts).messages others responses =
        ((st.messages requests responses).setClient client
          ((st.clients client).moveSender thread .looping)).pushRequest client id := by
  have isSent := sent_of_sendfull whole
  generalize isRequest : st.request client id data = req at whole isSent
  have isId : req.id.toNat = id := by
    rw [← isRequest]
    simp only [request, UInt64.toNat_ofNat']
    exact Nat.mod_eq_of_lt small
  rw [send, isRequest]
  generalize sendfull ⟨st.toServer client, accepts⟩ req.wire = result at whole isSent
  obtain ⟨count, out⟩ := result
  dsimp only at whole isSent ⊢
  rw [if_pos whole, isSent]
  refine ⟨Function.update requests client (requests client ++ [req]),
    ⟨flatMap_update underway.toServer ?_, underway.toClient, underway.served⟩, ?_⟩
  · rw [List.flatMap_append, List.flatMap_singleton, underway.toServer]
  · rw [messages, map_update, List.map_append, List.map_singleton, isId]
    rfl

/-- A client that reads a whole message reads the next one. -/
theorem recv_messages {thread : Fin (k client)} {queued : Calls}
    (whole : (clientRecv ⟨st.toClient client, queued⟩).1.isSome)
    (underway : st.Underway requests responses) :
    ∃ resp later, responses client = resp :: later ∧
      (st.recv client thread queued).Underway requests (Function.update responses client later) ∧
      (st.recv client thread queued).messages requests (Function.update responses client later) =
        { (st.messages requests responses).setClient client
            ((st.clients client).moveReceiver thread (.handling resp.reply)) with
          toClient := Function.update (st.messages requests responses).toClient client
            (later.map Response.reply) } := by
  have stream := underway.toClient client
  cases isNext : responses client with
  | nil =>
      rw [isNext, List.flatMap_nil] at stream
      rw [stream, clientRecv_nil] at whole
      cases whole
  | cons resp later =>
      rw [isNext, List.flatMap_cons] at stream
      obtain ⟨⟨header, data⟩, found⟩ := Option.isSome_iff_exists.mp whole
      rw [stream] at found
      obtain ⟨rfl, left⟩ := clientRecv_whole found
      have received : st.recv client thread queued =
          { st.setClient client
              ((st.clients client).moveReceiver thread (.handling resp.reply)) with
            toClient := Function.update st.toClient client (later.flatMap Response.wire) } := by
        rw [recv, stream]
        generalize clientRecv ⟨resp.wire ++ later.flatMap Response.wire, queued⟩ = result
          at found left
        obtain ⟨_, socket⟩ := result
        dsimp only at found left
        rw [found]
        dsimp only
        rw [replyOf_header, left]
        rfl
      rw [received]
      refine ⟨resp, later, rfl, ⟨underway.toServer, flatMap_update underway.toClient rfl,
        underway.served⟩, ?_⟩
      rw [messages, map_update]
      rfl

/-- A worker that reads a whole request reads the next one. -/
theorem recvReq_messages {worker : Fin n} {curNs : UInt64} {queued : Calls}
    {header data : List UInt8}
    (whole : (Harness.recvReq ⟨st.toServer client, queued⟩).1 = .request header data)
    (received : st.recvReq worker client curNs queued = .ok next)
    (underway : st.Underway requests responses) :
    ∃ req later, requests client = req :: later ∧
      next.Underway (Function.update requests client later) responses ∧
      next.messages (Function.update requests client later) responses =
        { (st.messages requests responses).setWorker worker
            (.serving client ⟨req.id.toNat, curNs.toNat⟩) with
          toServer := Function.update (st.messages requests responses).toServer client
            (later.map fun req => req.id.toNat) } := by
  have stream := underway.toServer client
  cases isNext : requests client with
  | nil =>
      rw [isNext, List.flatMap_nil] at stream
      rw [stream, recvReq_nil] at whole
      cases whole
  | cons req later =>
      rw [isNext, List.flatMap_cons] at stream
      rw [stream] at whole
      obtain ⟨rfl, left⟩ := recvReq_whole whole
      have isNextState : next =
          { st.setWorker worker (.serving client ⟨req.id.toNat, curNs.toNat⟩) with
            toServer := Function.update st.toServer client (later.flatMap Request.wire) } := by
        rw [recvReq, stream] at received
        generalize Harness.recvReq ⟨req.wire ++ later.flatMap Request.wire, queued⟩ = result
          at whole left received
        obtain ⟨_, socket⟩ := result
        dsimp only at whole left received
        rw [whole] at received
        dsimp only at received
        rw [left] at received
        cases received
        rw [req.id_header]
        rfl
      rw [isNextState]
      refine ⟨req, later, rfl, ⟨flatMap_update underway.toServer rfl, underway.toClient,
        fun server active taken isTaken => ?_⟩, ?_⟩
      · by_cases same : server = worker
        · subst same
          simp only [setWorker, Function.update_self] at isTaken
          cases isTaken
          exact req.id.toNat_lt
        · simp only [setWorker, Function.update_of_ne same] at isTaken
          exact underway.served server active taken isTaken
      · rw [messages, map_update]
        rfl

/-- No message is empty on the wire. -/
theorem Underway.requests_eq_nil (underway : st.Underway requests responses)
    (isEmpty : st.toServer client = []) : requests client = [] := by
  have stream := underway.toServer client
  cases isNext : requests client with
  | nil => rfl
  | cons req later =>
      rw [isNext, isEmpty, List.flatMap_cons, Request.wire] at stream
      have length := congrArg List.length stream
      rw [List.length_append, List.length_append, req.length_header, requestHeaderSize] at length
      simp only [List.length_nil] at length
      omega

/-- A read at the end of a stream is that of a client that has left. -/
theorem removed_of_recvReq {worker : Fin n} {curNs : UInt64} {queued : Calls}
    (isEmpty : st.toServer client = [])
    (received : st.recvReq worker client curNs queued = .ok next) :
    next = { st with clientFds := st.clientFds.erase client } := by
  rw [recvReq, isEmpty, recvReq_nil] at received
  cases received
  rw [← isEmpty, Function.update_eq_self]

/-! ## The step of the network of messages -/

/-- The step of the network of messages that a step of the processes is. -/
def image (config : ServerConfig) (st : Wired m n k) : WireEvent m n k → NetEvent m n k
  | .check client thread => .check client thread
  | .startReq client thread genNs => .startReq client thread genNs
  | .arrive client thread curNs => .arrive client thread curNs.toNat
  | .wake client thread curNs => .wake client thread curNs.toNat
  | .send client thread _ _ => .send client thread
  | .recv client thread _ => .recv client thread
  | .handle client thread curNs => .handle client thread curNs.toNat
  | .recvReq worker client curNs _ =>
      if st.toServer client = [] then .removeClient worker client
      else .recvReq worker client curNs.toNat
  | .sendResp worker curNs data answered told =>
      match st.workers worker with
      | .serving _ info => .sendResp worker curNs.toNat (takes (response info curNs data) answered)
          fun other =>
            takes (followUp config (st.finishedReqs + 1) (response info curNs data)) (told other)
      | .idle => .sendResp worker curNs.toNat false fun _ => false
  | .finish told => .finish fun other => takes finishResp (told other)

/-- One step of the processes gives one of the network of messages. -/
def Imaged (config : NetworkConfig m) (st : Wired m n k) (requests : Fin m → List Request)
    (responses : Fin m → List Response) (event : WireEvent m n k) (next : Wired m n k) : Prop :=
  ∃ moreRequests moreResponses, next.Underway moreRequests moreResponses ∧
    Network.step config (st.messages requests responses) (st.image config.server event) =
      .ok (next.messages moreRequests moreResponses)

theorem imaged_of_clientStep {event : WireEvent m n k}
    {taken : ClientState (k client) → Except Halt (ClientState (k client))}
    (isImage : Network.step config (st.messages requests responses)
      (st.image config.server event) = (st.messages requests responses).clientStep client taken)
    (underway : st.Underway requests responses) (stepped : st.clientStep client taken = .ok next) :
    Imaged config st requests responses event next := by
  obtain ⟨isUnderway, isMessages⟩ := clientStep_messages stepped underway
  exact ⟨_, _, isUnderway, isImage.trans isMessages⟩

theorem imaged_send {thread : Fin (k client)} {data : Payload} {accepts : Calls}
    (underway : st.Underway requests responses)
    (whole : st.Whole (.send client thread data accepts))
    (stepped : st.step config (.send client thread data accepts) = .ok next) :
    Imaged config st requests responses (.send client thread data accepts) next := by
  rw [step] at stepped
  split at stepped
  · cases stepped
  rename_i running
  have runs : ((st.messages requests responses).clients client).dumped = none :=
    Option.not_isSome_iff_eq_none.mp running
  split at stepped
  · rename_i id isSending isThere
    cases stepped
    obtain ⟨small, isWhole⟩ := whole id isSending
    obtain ⟨others, isUnderway, isMessages⟩ := send_messages small isWhole underway
    have isPhase : ((st.messages requests responses).clients client).senders thread =
      .sending id := isSending
    have moved : (st.messages requests responses).clientStep client
        (fun own => .ok (own.moveSender thread .looping)) =
          .ok ((st.messages requests responses).setClient client
            ((st.clients client).moveSender thread .looping)) :=
      Network.clientStep_eq_ok_iff.mpr ⟨runs, _, rfl, rfl⟩
    refine ⟨others, responses, isUnderway, ?_⟩
    rw [isMessages, image, Network.step, isPhase]
    dsimp only
    rw [moved]
    rfl
  · cases stepped

theorem imaged_recv {thread : Fin (k client)} {queued : Calls}
    (underway : st.Underway requests responses) (whole : st.Whole (.recv client thread queued))
    (stepped : st.step config (.recv client thread queued) = .ok next) :
    Imaged config st requests responses (.recv client thread queued) next := by
  rw [step] at stepped
  split at stepped
  · cases stepped
  rename_i running
  have runs : ((st.messages requests responses).clients client).dumped = none :=
    Option.not_isSome_iff_eq_none.mp running
  split at stepped
  · rename_i isReading isThere isFree
    split at stepped
    · cases stepped
    cases stepped
    obtain ⟨resp, later, isNext, isUnderway, isMessages⟩ :=
      @recv_messages _ _ _ _ _ _ _ thread _ whole underway
    have isPhase : ((st.messages requests responses).clients client).receivers thread =
      .reading := isReading
    have isQueued : (st.messages requests responses).toClient client =
        resp.reply :: later.map Response.reply := by
      show (responses client).map Response.reply = _
      rw [isNext, List.map_cons]
    have moved : (st.messages requests responses).clientStep client
        (fun own => .ok (own.moveReceiver thread (.handling resp.reply))) =
          .ok ((st.messages requests responses).setClient client
            ((st.clients client).moveReceiver thread (.handling resp.reply))) :=
      Network.clientStep_eq_ok_iff.mpr ⟨runs, _, rfl, rfl⟩
    refine ⟨requests, _, isUnderway, ?_⟩
    rw [isMessages, image, Network.step, isPhase, isQueued]
    dsimp only
    rw [moved]
    rfl
  · cases stepped

theorem imaged_recvReq {worker : Fin n} {curNs : UInt64} {queued : Calls}
    (underway : st.Underway requests responses)
    (whole : st.Whole (.recvReq worker client curNs queued))
    (stepped : st.step config (.recvReq worker client curNs queued) = .ok next) :
    Imaged config st requests responses (.recvReq worker client curNs queued) next := by
  rw [step] at stepped
  split at stepped
  · cases stepped
  rename_i some_clients
  split at stepped
  · rename_i ready
    obtain ⟨isConnected, isIdle, -⟩ := ready
    have isPhase : (st.messages requests responses).workers worker = .idle := isIdle
    by_cases isEmpty : st.toServer client = []
    · have none_underway := underway.requests_eq_nil isEmpty
      have hasEnded : (st.clients client).dumped.isSome := by
        rcases whole with ⟨header, data, isWhole⟩ | ⟨hasEnded, -⟩
        · rw [isEmpty, recvReq_nil] at isWhole
          cases isWhole
        · exact hasEnded
      rw [removed_of_recvReq isEmpty stepped]
      refine ⟨requests, responses, ⟨underway.toServer, underway.toClient, underway.served⟩, ?_⟩
      rw [image, if_pos isEmpty, Network.step, Network.serverStep_eq_ok_iff]
      refine ⟨some_clients,
        if_pos ⟨isIdle, List.contains_iff_mem.mp isConnected, hasEnded, ?_⟩⟩
      show ((requests client).map fun req => req.id.toNat) = []
      rw [none_underway, List.map_nil]
    · obtain ⟨header, data, isWhole⟩ := whole.resolve_right fun ended => isEmpty ended.2
      obtain ⟨req, later, isNext, isUnderway, isMessages⟩ :=
        recvReq_messages isWhole stepped underway
      have isQueued : (st.messages requests responses).toServer client =
          req.id.toNat :: later.map fun req => req.id.toNat := by
        show ((requests client).map fun req => req.id.toNat) = _
        rw [isNext, List.map_cons]
      refine ⟨_, responses, isUnderway, ?_⟩
      rw [isMessages, image, if_neg isEmpty, Network.step, Network.serverStep_eq_ok_iff,
        isPhase, isQueued]
      exact ⟨some_clients, if_pos (List.contains_iff_mem.mp isConnected)⟩
  · cases stepped

theorem imaged_sendResp {worker : Fin n} {curNs : UInt64} {data : Payload} {answered : Calls}
    {told : Fin m → Calls} (underway : st.Underway requests responses)
    (stepped : st.step config (.sendResp worker curNs data answered told) = .ok next) :
    Imaged config st requests responses (.sendResp worker curNs data answered told) next := by
  rw [step] at stepped
  split at stepped
  · cases stepped
  rename_i some_clients
  split at stepped
  · rename_i client info isServing
    have isPhase : (st.messages requests responses).workers worker = .serving client info :=
      isServing
    obtain ⟨others, isUnderway, isSent⟩ :=
      sendResp_messages config curNs data answered told isServing underway
    rw [stepped] at isSent
    refine ⟨requests, others, isUnderway next stepped, ?_⟩
    rw [image, isServing]
    dsimp only
    rw [Network.step, Network.serverStep_eq_ok_iff, isPhase]
    exact ⟨some_clients, isSent⟩
  · cases stepped

theorem imaged_finish {told : Fin m → Calls} (underway : st.Underway requests responses)
    (stepped : st.step config (.finish told) = .ok next) :
    Imaged config st requests responses (.finish told) next := by
  rw [step] at stepped
  split at stepped
  · cases stepped
  rename_i some_clients
  obtain ⟨others, isUnderway, isSent⟩ := finish_messages told underway
  rw [stepped] at isSent
  refine ⟨requests, others, isUnderway next stepped, ?_⟩
  rw [image, Network.step, Network.serverStep_eq_ok_iff]
  exact ⟨some_clients, isSent⟩

/-- A step whose read or send is whole is a step of the network of messages. -/
theorem imaged_of_whole {event : WireEvent m n k} (underway : st.Underway requests responses)
    (whole : st.Whole event) (stepped : st.step config event = .ok next) :
    Imaged config st requests responses event next := by
  cases event with
  | check client thread =>
      rw [step] at stepped
      exact imaged_of_clientStep (by rfl) underway stepped
  | startReq client thread genNs =>
      rw [step] at stepped
      exact imaged_of_clientStep (by rfl) underway stepped
  | arrive client thread curNs =>
      rw [step] at stepped
      exact imaged_of_clientStep (by rfl) underway stepped
  | wake client thread curNs =>
      rw [step] at stepped
      exact imaged_of_clientStep (by rfl) underway stepped
  | handle client thread curNs =>
      rw [step] at stepped
      exact imaged_of_clientStep (by rfl) underway stepped
  | send client thread data accepts => exact imaged_send underway whole stepped
  | recv client thread queued => exact imaged_recv underway whole stepped
  | recvReq worker client curNs queued => exact imaged_recvReq underway whole stepped
  | sendResp worker curNs data answered told => exact imaged_sendResp underway stepped
  | finish told => exact imaged_finish underway stepped

/-! ## Failing steps -/

section

variable {fault : Fault}

theorem clientStep_fails_iff
    {taken : ClientState (k client) → Except Halt (ClientState (k client))} :
    st.clientStep client taken = .error (.fault fault) ↔
      (st.messages requests responses).clientStep client taken = .error (.fault fault) := by
  rw [Network.clientStep_eq_error_iff, clientStep]
  show _ ↔ (st.clients client).dumped = none ∧ taken (st.clients client) = _
  cases isDumped : (st.clients client).dumped with
  | none => cases taken (st.clients client) <;> simp [bind, Except.bind, pure, Except.pure]
  | some latencies => simp

theorem map_eq_error_iff {α β : Type} {f : α → β} {result : Except Halt α} {halt : Halt} :
    result.map f = .error halt ↔ result = .error halt := by
  cases result <;> simp [Except.map]

theorem unless_eq_error_iff {result : Except Halt (Wired m n k)} :
    (if st.clientFds = [] then .error .exited else result) = .error (.fault fault) ↔
      st.clientFds ≠ [] ∧ result = .error (.fault fault) := by
  split <;> simp_all

theorem step_recvReq_ne_fault {worker : Fin n} {curNs : UInt64} {queued : Calls} :
    st.step config (.recvReq worker client curNs queued) ≠ .error (.fault fault) := by
  intro failed
  rw [step] at failed
  split at failed
  · cases failed
  split at failed
  · rw [recvReq] at failed
    generalize Harness.recvReq ⟨st.toServer client, queued⟩ = result at failed
    obtain ⟨found, socket⟩ := result
    cases found <;> cases failed
  · cases failed

theorem sendResp_fails_iff {worker : Fin n} {curNs : UInt64} {data : Payload} {answered : Calls}
    {told : Fin m → Calls} (underway : st.Underway requests responses) :
    st.step config (.sendResp worker curNs data answered told) = .error (.fault fault) ↔
      Network.step config (st.messages requests responses)
          (st.image config.server (.sendResp worker curNs data answered told)) =
        .error (.fault fault) := by
  rw [image, step]
  cases isPhase : st.workers worker with
  | idle =>
      have isIdle : (st.messages requests responses).workers worker = .idle := isPhase
      dsimp only
      rw [Network.step, isIdle, Network.serverStep_eq_error_iff]
      refine iff_of_false (fun failed => ?_) (fun failed => ?_)
      · split at failed <;> cases failed
      · cases failed.2
  | serving client info =>
      have isServing : (st.messages requests responses).workers worker =
        .serving client info := isPhase
      obtain ⟨others, -, isSent⟩ :=
        sendResp_messages config curNs data answered told isPhase underway
      dsimp only
      rw [Network.step, isServing, Network.serverStep_eq_error_iff]
      dsimp only
      rw [isSent, map_eq_error_iff]
      exact unless_eq_error_iff

/-- A step fails an assertion precisely if it fails it in the network of messages. -/
theorem step_fails_iff (event : WireEvent m n k) (underway : st.Underway requests responses) :
    st.step config event = .error (.fault fault) ↔
      Network.step config (st.messages requests responses) (st.image config.server event) =
        .error (.fault fault) := by
  cases event with
  | check client thread =>
      rw [image, step, Network.step]
      exact clientStep_fails_iff
  | startReq client thread genNs =>
      rw [image, step, Network.step]
      exact clientStep_fails_iff
  | arrive client thread curNs =>
      rw [image, step, Network.step]
      exact clientStep_fails_iff
  | wake client thread curNs =>
      rw [image, step, Network.step]
      exact clientStep_fails_iff
  | handle client thread curNs =>
      rw [image, step, Network.step]
      exact clientStep_fails_iff
  | send client thread data accepts =>
      refine iff_of_false (fun failed => ?_) (Network.step_ne_fault id)
      rw [step] at failed
      split at failed
      · cases failed
      · split at failed <;> cases failed
  | recv client thread queued =>
      refine iff_of_false (fun failed => ?_) (Network.step_ne_fault id)
      rw [step] at failed
      split at failed
      · cases failed
      · split at failed
        · split at failed <;> cases failed
        · cases failed
  | recvReq worker client curNs queued =>
      refine iff_of_false step_recvReq_ne_fault ?_
      rw [image]
      split
      · exact Network.step_ne_fault id
      · exact Network.step_ne_fault id
  | sendResp worker curNs data answered told => exact sendResp_fails_iff underway
  | finish told =>
      obtain ⟨others, -, isSent⟩ := finish_messages told underway
      rw [image, step, Network.step, Network.serverStep_eq_error_iff, isSent, map_eq_error_iff]
      exact unless_eq_error_iff

end

/-! ## Every run -/

/-- Every run of the processes in which no send of a client fails and every read returns a whole
message that is not empty is one of the network of messages, step by step. -/
theorem exists_run_of_whole {events : List (WireEvent m n k)}
    (whole : AtEachStep (step config) (initial m n k) events fun _ st event => st.Whole event)
    (reached : run (step config) (initial m n k) events = .ok st) :
    ∃ others net,
      List.Forall₂ (fun event other => ∃ st, other = image config.server st event) events others ∧
      run (Network.step config) (Network.initial m n k) others = .ok net ∧ st.Carries net := by
  have simulates (st : Wired m n k) (net : Network m n k) (event : WireEvent m n k)
      (next : Wired m n k) (related : st.Carries net) (isWhole : st.Whole event)
      (stepped : st.step config event = .ok next) :
      ∃ other after, (∃ st, other = image config.server st event) ∧
        net.step config other = .ok after ∧ next.Carries after := by
    obtain ⟨requests, responses, underway, rfl⟩ := related
    obtain ⟨moreRequests, moreResponses, isUnderway, isStep⟩ :=
      imaged_of_whole underway isWhole stepped
    exact ⟨_, _, ⟨st, rfl⟩, isStep, moreRequests, moreResponses, isUnderway, rfl⟩
  exact exists_run_of_simulates simulates carries_initial whole reached

/-- What the next step of such a run asserts is what that step asserts of the messages. -/
theorem fails_iff_of_whole {events : List (WireEvent m n k)}
    (whole : AtEachStep (step config) (initial m n k) events fun _ st event => st.Whole event)
    (reached : run (step config) (initial m n k) events = .ok st) :
    ∃ net, st.Carries net ∧ ∀ event fault,
      st.step config event = .error (.fault fault) ↔ fault = .assertion ∧
        (Network.BeginsTooEarly net (st.image config.server event) ∨
          Network.OutOfTime net (st.image config.server event) ∨
          Network.FallsShort config.server net (st.image config.server event)) := by
  obtain ⟨others, net, -, isRun, requests, responses, underway, rfl⟩ :=
    exists_run_of_whole whole reached
  refine ⟨_, ⟨requests, responses, underway, rfl⟩, fun event fault => ?_⟩
  rw [step_fails_iff event underway, Network.fails_iff_of_run isRun]

end Wired

end Datamime.Harness
