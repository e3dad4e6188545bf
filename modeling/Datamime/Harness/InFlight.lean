/-
# Requests in flight

At any time, every request that a client has drawn and not seen the response of is in one place:
with a sender, in the connection, with a worker, or, as a response, in the connection again or with
a receiver. No step loses a request, copies it or gives it to another client. The map of the client
holds exactly these requests, so a receiver finds the request of every response.
-/

import Datamime.Harness.Networked
import Datamime.Math.Threads

namespace Datamime.Harness

open Datamime.Math Datamime.Math.Threads

variable {m n : ℕ} {k : Fin m → ℕ}

/-- The request whose response is held. -/
def ReceiverPhase.id? (phase : ReceiverPhase) : Option ℕ := phase.reply?.bind Reply.id?

namespace Network

/-- The requests of a client on their way to the server and back. -/
def underway (net : Network m n k) (client : Fin m) : List ℕ :=
  collect SenderPhase.id? (net.clients client).senders ++ net.toServer client ++
    collect (WorkerPhase.idOf client) net.workers ++
    (net.toClient client).filterMap Reply.id? ++
    collect ReceiverPhase.id? (net.clients client).receivers

/-- No request of the client is lost or doubled. -/
structure Conserved (net : Network m n k) (client : Fin m) : Prop where
  /-- The map holds the requests that are on their way. -/
  inFlight : (net.underway client).Perm (net.clients client).inFlightReqs.keys
  /-- Every request that was drawn is in flight, or its response has been acted on once. -/
  started : ((net.clients client).inFlightReqs.keys ++
    (net.clients client).handled.filterMap Reply.id?).Perm
      (List.range (net.clients client).startedReqs)
  counted : (net.clients client).numReqsInFlight = (net.clients client).inFlightReqs.size

variable {config : NetworkConfig m} {net next : Network m n k} {client other : Fin m}

/-! ## Where requests are after a step -/

@[simp]
theorem clients_setClient (net : Network m n k) (client : Fin m) (st : ClientState (k client)) :
    (net.setClient client st).clients client = st := Function.update_self ..

theorem clients_setClient_of_ne (different : other ≠ client) (st : ClientState (k client)) :
    (net.setClient client st).clients other = net.clients other :=
  Function.update_of_ne different ..

/-- A step of a client leaves the requests of the others where they are. -/
theorem underway_setClient_of_ne (different : other ≠ client) (st : ClientState (k client)) :
    (net.setClient client st).underway other = net.underway other := by
  rw [underway, clients_setClient_of_ne different]
  rfl

/-- A sender that changes its phase. -/
theorem count_underway_sender (net : Network m n k) (st : ClientState (k client))
    {thread : Fin (k client)} {phase : SenderPhase}
    (moved : st.senders = Function.update (net.clients client).senders thread phase)
    (same : st.receivers = (net.clients client).receivers) (id : ℕ) :
    ((net.setClient client st).underway client).count id +
        ((net.clients client).senders thread).id?.toList.count id =
      (net.underway client).count id + phase.id?.toList.count id := by
  have moves := count_collect_update SenderPhase.id? (net.clients client).senders thread phase id
  simp only [underway, clients_setClient, moved, same, List.count_append]
  simp only [setClient]
  omega

/-- A receiver that changes its phase. -/
theorem count_underway_receiver (net : Network m n k) (st : ClientState (k client))
    {thread : Fin (k client)} {phase : ReceiverPhase}
    (same : st.senders = (net.clients client).senders)
    (moved : st.receivers = Function.update (net.clients client).receivers thread phase) (id : ℕ) :
    ((net.setClient client st).underway client).count id +
        ((net.clients client).receivers thread).id?.toList.count id =
      (net.underway client).count id + phase.id?.toList.count id := by
  have moves :=
    count_collect_update ReceiverPhase.id? (net.clients client).receivers thread phase id
  simp only [underway, clients_setClient, moved, same, List.count_append]
  simp only [setClient]
  omega

/-- A worker that changes its phase. -/
theorem count_underway_worker (net : Network m n k) (worker : Fin n) (phase : WorkerPhase m)
    (client : Fin m) (id : ℕ) :
    ((net.setWorker worker phase).underway client).count id +
        ((net.workers worker).idOf client).toList.count id =
      (net.underway client).count id + (phase.idOf client).toList.count id := by
  have moves := count_collect_update (WorkerPhase.idOf client) net.workers worker phase id
  simp only [underway, setWorker, List.count_append]
  omega

/-- What is queued for a client after the loop over the connected clients. -/
theorem toClient_broadcast_foldl (fds : List (Fin m)) (net : Network m n k) (reply : Reply) :
    fds.foldl (fun net client => net.pushReply client reply) net =
      { net with
        toClient := fun client =>
          net.toClient client ++ List.replicate (fds.count client) reply } := by
  induction fds generalizing net with
  | nil => simp
  | cons fd rest ih =>
      rw [List.foldl_cons, ih]
      simp only [pushReply, Network.mk.injEq, true_and, and_true]
      funext client
      by_cases same : client = fd
      · subst same
        simp [List.replicate_succ]
      · simp [same, Ne.symm same]

theorem broadcast_eq (net : Network m n k) (reply : Reply) (entry : Sent m) :
    net.broadcast reply entry = { net with
      toClient := fun client =>
        net.toClient client ++ List.replicate (net.clientFds.count client) reply
      log := net.log ++ [entry] } := by
  rw [broadcast, toClient_broadcast_foldl]

/-- A message to all clients answers no request. -/
theorem underway_broadcast {reply : Reply} (answersNone : reply.id? = none) (entry : Sent m) :
    (net.broadcast reply entry).underway client = net.underway client := by
  have none_added :
      (List.replicate (net.clientFds.count client) reply).filterMap Reply.id? = [] := by
    rw [List.filterMap_eq_nil_iff]
    intro added isAdded
    rw [List.eq_of_mem_replicate isAdded, answersNone]
  simp [underway, broadcast_eq, none_added]

/-- What is said after a response changes no client and no request. -/
theorem announce_cases (config : ServerConfig) (net : Network m n k) :
    (net.finishedReqs = config.warmupReqs ∧
        net.announce config = net.broadcast .roiBegin .roiBegin) ∨
      (net.finishedReqs ≠ config.warmupReqs ∧
        net.finishedReqs = config.warmupReqs + config.maxReqs ∧
        net.announce config = net.broadcast .finish .finish) ∨
      (net.finishedReqs ≠ config.warmupReqs ∧
        net.finishedReqs ≠ config.warmupReqs + config.maxReqs ∧ net.announce config = net) := by
  rw [announce]
  split
  · rename_i begins
    exact .inl ⟨begins, rfl⟩
  · rename_i beginsNot
    split
    · rename_i ends
      exact .inr (.inl ⟨beginsNot, ends, rfl⟩)
    · rename_i endsNot
      exact .inr (.inr ⟨beginsNot, endsNot, rfl⟩)

@[simp]
theorem clients_broadcast (net : Network m n k) (reply : Reply) (entry : Sent m) :
    (net.broadcast reply entry).clients = net.clients := by
  rw [broadcast_eq]

@[simp]
theorem clients_announce (config : ServerConfig) (net : Network m n k) :
    (net.announce config).clients = net.clients := by
  rcases announce_cases config net with ⟨-, isNext⟩ | ⟨-, -, isNext⟩ | ⟨-, -, isNext⟩
  · rw [isNext, clients_broadcast]
  · rw [isNext, clients_broadcast]
  · rw [isNext]

theorem underway_announce (config : ServerConfig) (net : Network m n k) :
    (net.announce config).underway client = net.underway client := by
  rcases announce_cases config net with ⟨-, isNext⟩ | ⟨-, -, isNext⟩ | ⟨-, -, isNext⟩
  · rw [isNext, underway_broadcast rfl]
  · rw [isNext, underway_broadcast rfl]
  · rw [isNext]

/-! ## Conservation -/

theorem conserved_initial (client : Fin m) : (initial m n k).Conserved client where
  inFlight := by
    have none_held {α : Type} (hold : α → Option ℕ) {threads : ℕ} {phase : α}
        (isNone : hold phase = none) : collect hold (fun _ : Fin threads => phase) = [] := by
      simp [collect, isNone]
    simp only [underway, initial, ClientState.initial]
    rw [none_held SenderPhase.id? rfl, none_held (WorkerPhase.idOf client) rfl,
      none_held ReceiverPhase.id? rfl]
    rfl
  started := List.Perm.refl _
  counted := rfl

/-- A step that changes neither the map nor what has been acted on. -/
theorem Conserved.move (conserved : net.Conserved client)
    (sameCount : ∀ id, (next.underway client).count id = (net.underway client).count id)
    (sameReqs : (next.clients client).inFlightReqs = (net.clients client).inFlightReqs)
    (sameHandled : (next.clients client).handled.filterMap Reply.id? =
      (net.clients client).handled.filterMap Reply.id?)
    (sameStarted : (next.clients client).startedReqs = (net.clients client).startedReqs)
    (sameNum : (next.clients client).numReqsInFlight = (net.clients client).numReqsInFlight) :
    next.Conserved client where
  inFlight := by
    rw [sameReqs]
    exact (List.perm_iff_count.mpr sameCount).trans conserved.inFlight
  started := by
    rw [sameReqs, sameHandled, sameStarted]
    exact conserved.started
  counted := by
    rw [sameReqs, sameNum]
    exact conserved.counted

/-- A request that has not been drawn is not in the map. -/
theorem Conserved.isNew (conserved : net.Conserved client) :
    (net.clients client).startedReqs ∉ (net.clients client).inFlightReqs.keys := by
  intro isKey
  have isStarted := conserved.started.mem_iff.mp (List.mem_append_left _ isKey)
  exact absurd (List.mem_range.mp isStarted) (lt_irrefl _)

/-- The sender that draws a request holds it. -/
theorem Conserved.drawRequest (conserved : net.Conserved client) {thread : Fin (k client)}
    (heldNone : ((net.clients client).senders thread).id? = none) (genNs : ℕ) :
    (net.setClient client ((net.clients client).drawRequest thread genNs)).Conserved client := by
  have keys := Dict.keys_insert_of_new conserved.isNew genNs
  constructor
  · rw [List.perm_iff_count]
    intro id
    have moves := count_underway_sender net ((net.clients client).drawRequest thread genNs) rfl
      rfl id
    rw [heldNone] at moves
    have before := conserved.inFlight.count_eq id
    rw [clients_setClient]
    simp only [ClientState.drawRequest, SenderPhase.id?, Option.toList, keys,
      List.count_append, List.count_nil] at moves ⊢
    omega
  · rw [clients_setClient]
    simp only [ClientState.drawRequest, keys, ClientState.moveSender, List.range_succ]
    have joins := conserved.started.append_right [(net.clients client).startedReqs]
    rw [List.append_assoc] at joins ⊢
    exact (List.perm_append_comm.append_left _).trans joins
  · rw [clients_setClient]
    simp only [ClientState.drawRequest, ← Dict.length_keys, keys, List.length_append,
      List.length_singleton, Nat.cast_add, Nat.cast_one, ClientState.moveSender]
    rw [conserved.counted, ← Dict.length_keys]

/-- A response that is acted on takes its request out of the map. -/
theorem Conserved.finiReq (conserved : net.Conserved client) {thread : Fin (k client)}
    {id svcNs : ℕ} {st : ClientState (k client)}
    (isHandling : (net.clients client).receivers thread = .handling (.response id svcNs))
    (isKey : id ∈ (net.clients client).inFlightReqs.keys)
    (sameSenders : st.senders = (net.clients client).senders)
    (moved : st.receivers = Function.update (net.clients client).receivers thread .reading)
    (sameStarted : st.startedReqs = (net.clients client).startedReqs)
    (erased : st.inFlightReqs = (net.clients client).inFlightReqs.erase id)
    (counted : st.numReqsInFlight = (net.clients client).numReqsInFlight - 1)
    (acted : st.handled = (net.clients client).handled ++ [.response id svcNs]) :
    (net.setClient client st).Conserved client := by
  have keys := Dict.perm_keys_erase isKey
  constructor
  · rw [List.perm_iff_count]
    intro held
    have moves := count_underway_receiver net st sameSenders moved held
    rw [isHandling] at moves
    have before := conserved.inFlight.count_eq held
    have split := keys.count_eq held
    rw [clients_setClient, erased]
    simp only [ReceiverPhase.id?, ReceiverPhase.reply?, Reply.id?, Option.bind_some,
      Option.bind_none, Option.toList, List.count_nil, List.count_cons] at moves split
    omega
  · rw [clients_setClient, erased, acted, sameStarted, List.filterMap_append]
    refine List.Perm.trans ?_ conserved.started
    have moves := keys.append_right ((net.clients client).handled.filterMap Reply.id?)
    rw [← List.append_assoc]
    exact List.perm_append_comm.trans moves.symm
  · rw [clients_setClient, erased, counted, conserved.counted, ← Dict.length_keys,
      ← Dict.length_keys, keys.length_eq]
    simp

/-- A step of a client changes nothing that belongs to another. -/
theorem conserved_setClient (conserved : ∀ client, net.Conserved client)
    {st : ClientState (k client)} (own : (net.setClient client st).Conserved client)
    (other : Fin m) : (net.setClient client st).Conserved other := by
  by_cases same : other = client
  · subst same
    exact own
  · apply (conserved other).move
    · intro id
      rw [underway_setClient_of_ne same]
    all_goals rw [clients_setClient_of_ne same]

/-- A sender that neither draws nor sends holds the same request as before. -/
theorem Conserved.moveSender (conserved : net.Conserved client) {st : ClientState (k client)}
    {thread : Fin (k client)} {phase : SenderPhase}
    (moved : st.senders = Function.update (net.clients client).senders thread phase)
    (sameHeld : phase.id? = ((net.clients client).senders thread).id?)
    (sameReceivers : st.receivers = (net.clients client).receivers)
    (sameReqs : st.inFlightReqs = (net.clients client).inFlightReqs)
    (sameHandled : st.handled = (net.clients client).handled)
    (sameStarted : st.startedReqs = (net.clients client).startedReqs)
    (sameNum : st.numReqsInFlight = (net.clients client).numReqsInFlight) :
    (net.setClient client st).Conserved client := by
  apply conserved.move
  · intro id
    have moves := count_underway_sender net st moved sameReceivers id
    rw [sameHeld] at moves
    omega
  all_goals rw [clients_setClient]
  · exact sameReqs
  · rw [sameHandled]
  · exact sameStarted
  · exact sameNum

/-- A receiver that acts on a message to all clients. -/
theorem Conserved.handleBroadcast (conserved : net.Conserved client) {thread : Fin (k client)}
    {reply : Reply} {st : ClientState (k client)}
    (isHandling : (net.clients client).receivers thread = .handling reply)
    (answersNone : reply.id? = none) (sameSenders : st.senders = (net.clients client).senders)
    (moved : st.receivers = Function.update (net.clients client).receivers thread .reading)
    (sameReqs : st.inFlightReqs = (net.clients client).inFlightReqs)
    (acted : st.handled = (net.clients client).handled ++ [reply])
    (sameStarted : st.startedReqs = (net.clients client).startedReqs)
    (sameNum : st.numReqsInFlight = (net.clients client).numReqsInFlight) :
    (net.setClient client st).Conserved client := by
  apply conserved.move
  · intro id
    have moves := count_underway_receiver net st sameSenders moved id
    rw [isHandling] at moves
    simp only [ReceiverPhase.id?, ReceiverPhase.reply?, Option.bind_some, answersNone,
      Option.bind_none] at moves
    omega
  all_goals rw [clients_setClient]
  · exact sameReqs
  · rw [acted, List.filterMap_append]
    simp [answersNone]
  · exact sameStarted
  · exact sameNum

/-- A step of the server moves requests, and each stays one of the same client. -/
theorem Conserved.server (conserved : net.Conserved client)
    (sameClients : next.clients = net.clients)
    (sameCount : ∀ id, (next.underway client).count id = (net.underway client).count id) :
    next.Conserved client := by
  apply conserved.move sameCount
  all_goals rw [sameClients]

/-- A sent request goes from its sender to the end of the queue. -/
theorem count_underway_send {thread : Fin (k client)} {id : ℕ}
    (isSending : (net.clients client).senders thread = .sending id) (other : Fin m) (held : ℕ) :
    (((net.setClient client ((net.clients client).moveSender thread .looping)).pushRequest
      client id).underway other).count held = (net.underway other).count held := by
  by_cases same : other = client
  · subst same
    have moves := count_underway_sender net ((net.clients other).moveSender thread .looping)
      rfl rfl held
    rw [isSending] at moves
    simp only [underway, pushRequest, setClient, Function.update_self, List.count_append,
      SenderPhase.id?, Option.toList, List.count_nil] at moves ⊢
    omega
  · simp [underway, pushRequest, setClient, same]

/-- A received message goes from the front of the queue to its receiver. -/
theorem count_underway_recv {thread : Fin (k client)} {reply : Reply} {later : List Reply}
    (isReading : (net.clients client).receivers thread = .reading)
    (isNext : net.toClient client = reply :: later) (other : Fin m) (held : ℕ) :
    (underway { net.setClient client ((net.clients client).moveReceiver thread (.handling reply))
      with toClient := Function.update net.toClient client later } other).count held =
        (net.underway other).count held := by
  by_cases same : other = client
  · subst same
    have moves := count_underway_receiver net
      ((net.clients other).moveReceiver thread (.handling reply)) rfl rfl held
    have split : ((net.toClient other).filterMap Reply.id?).count held =
        reply.id?.toList.count held + (later.filterMap Reply.id?).count held := by
      rw [isNext, List.filterMap_cons]
      cases reply.id? with
      | none => simp
      | some id => simp [List.count_cons, add_comm]
    rw [isReading] at moves
    simp only [underway, setClient, Function.update_self, List.count_append,
      ReceiverPhase.id?, ReceiverPhase.reply?, Option.bind_some, Option.bind_none, Option.toList,
      List.count_nil] at moves split ⊢
    omega
  · simp [underway, setClient, same]

/-- The next request of a client goes from the front of its queue to the worker. -/
theorem count_underway_recvReq {worker : Fin n} {id curNs : ℕ} {later : List ℕ}
    (isIdle : net.workers worker = .idle) (isNext : net.toServer client = id :: later)
    (other : Fin m) (held : ℕ) :
    (underway { net.setWorker worker (.serving client ⟨id, curNs⟩) with
      toServer := Function.update net.toServer client later } other).count held =
        (net.underway other).count held := by
  have moves := count_underway_worker net worker (.serving client ⟨id, curNs⟩) other held
  rw [isIdle] at moves
  by_cases same : other = client
  · subst same
    simp only [underway, setWorker, Function.update_self, List.count_append, isNext,
      WorkerPhase.idOf, if_true, Option.toList, List.count_cons, List.count_nil] at moves ⊢
    omega
  · simp only [underway, setWorker, Function.update_of_ne same, List.count_append,
      WorkerPhase.idOf, Ne.symm same, if_false, Option.toList, List.count_nil] at moves ⊢
    omega

/-- An answered request goes from its worker to the end of the queue of its own client. -/
theorem count_underway_answer {worker : Fin n} {info : ReqInfo}
    (isServing : net.workers worker = .serving client info) (svcNs : ℕ) (other : Fin m)
    (held : ℕ) :
    ((net.answer worker client info.id svcNs).underway other).count held =
      (net.underway other).count held := by
  have moves := count_underway_worker net worker .idle other held
  rw [isServing] at moves
  by_cases same : other = client
  · subst same
    simp only [underway, answer, pushReply, setWorker, Function.update_self, List.count_append,
      WorkerPhase.idOf, if_true, Option.toList, List.count_nil, List.filterMap_append,
      List.filterMap_cons, List.filterMap_nil, Reply.id?] at moves ⊢
    omega
  · simp only [underway, answer, pushReply, setWorker, Function.update_of_ne same,
      List.count_append, WorkerPhase.idOf, Ne.symm same, if_false, Option.toList,
      List.count_nil] at moves ⊢
    omega

/-- Every transition conserves the requests of every client. -/
theorem conserved_taken {event : NetEvent m n k} (conserved : ∀ client, net.Conserved client)
    (taken : Taken config net event next) (other : Fin m) : next.Conserved other := by
  have conservedOther := conserved other
  cases taken with
  | checkFull => exact conservedOther
  | sleepOn => exact conservedOther
  | @check client thread running isLooping hasRoom =>
      refine conserved_setClient conserved ?_ other
      exact (conserved client).moveSender rfl (by rw [isLooping]; rfl) rfl rfl rfl rfl rfl
  | @wait client thread genNs running isStarting isInit =>
      refine conserved_setClient conserved ?_ other
      exact (conserved client).moveSender rfl (by rw [isStarting]; rfl) rfl rfl rfl rfl rfl
  | @openBarrier client thread genNs running isWaiting allThere =>
      refine conserved_setClient conserved ?_ other
      exact (conserved client).moveSender rfl (by rw [isWaiting]; rfl) rfl rfl rfl rfl rfl
  | @drawRequest client thread genNs running isBefore =>
      apply conserved_setClient conserved
      apply (conserved client).drawRequest
      rcases isBefore with ⟨isStarting, -⟩ | isOpened
      · rw [isStarting]
        rfl
      · rw [isOpened]
        rfl
  | @sleep client thread id genNs curNs running isDrawn isEarly =>
      refine conserved_setClient conserved ?_ other
      exact (conserved client).moveSender rfl (by rw [isDrawn]; rfl) rfl rfl rfl rfl rfl
  | @arrive client thread id genNs curNs running isDrawn hasArrived =>
      refine conserved_setClient conserved ?_ other
      exact (conserved client).moveSender rfl (by rw [isDrawn]; rfl) rfl rfl rfl rfl rfl
  | @wake client thread id targetNs curNs running isSleeping isOver =>
      refine conserved_setClient conserved ?_ other
      exact (conserved client).moveSender rfl (by rw [isSleeping]; rfl) rfl rfl rfl rfl rfl
  | @send client thread id running isSending =>
      apply conservedOther.move (count_underway_send isSending other)
      all_goals
        by_cases same : other = client
        · subst same
          simp [pushRequest, setClient, ClientState.moveSender]
        · simp [pushRequest, setClient, same]
  | @recv client thread reply later running isReading isNext =>
      apply conservedOther.move (count_underway_recv isReading isNext other)
      all_goals
        by_cases same : other = client
        · subst same
          simp [setClient, ClientState.moveReceiver]
        · simp [setClient, same]
  | @finiReq client thread id svcNs curNs genNs latencies running isHandling isInFlight recorded =>
      have isKey := (Dict.mem_keys_iff _).mpr ⟨genNs, isInFlight⟩
      refine conserved_setClient conserved ?_ other
      exact (conserved client).finiReq isHandling isKey rfl rfl rfl rfl rfl rfl
  | @startRoi client thread curNs running isHandling isWarmup =>
      refine conserved_setClient conserved ?_ other
      exact (conserved client).handleBroadcast isHandling rfl rfl rfl rfl rfl rfl rfl
  | @dumpStats client thread curNs running isHandling =>
      refine conserved_setClient conserved ?_ other
      exact (conserved client).handleBroadcast isHandling rfl rfl rfl rfl rfl rfl rfl
  | recvReq isIdle isNext isConnected =>
      exact conservedOther.server rfl (count_underway_recvReq isIdle isNext other)
  | @sendResp worker client info curNs answered told isServing isLater =>
      have answered : (net.answer worker client info.id (curNs - info.startNs)).Conserved other :=
        conservedOther.server rfl (count_underway_answer isServing _ other)
      apply answered.server (clients_announce _ _)
      intro id
      rw [underway_announce]
  | removeClient hasEnded => exact conservedOther.server rfl fun _ => rfl
  | finish =>
      apply conservedOther.server (clients_broadcast _ _ _)
      intro id
      rw [underway_broadcast rfl]

/-- Every run keeps all requests. -/
theorem conserved_of_run {events : List (NetEvent m n k)}
    (reached : run (step config) (initial m n k) events = .ok net) (client : Fin m) :
    net.Conserved client :=
  @run_invariant _ _ _ (step config) (fun net => ∀ client, net.Conserved client)
    (fun _ _ _ conserved stepped => conserved_taken conserved (step_taken stepped)) _ _ _
    conserved_initial reached client

/-- In every interleaving, the requests in flight are those on their way to the server and back.
Each drawn request is in flight or its response has been acted on, and none of them twice. -/
theorem conserved_along (config : NetworkConfig m) (events : List (NetEvent m n k)) :
    AlongRun (step config) (initial m n k) events fun _ net => ∀ client, net.Conserved client :=
  fun _ _ _ reached => conserved_of_run reached

/-! ## Back pressure -/

/-- What holds of every client still does when one of them has taken a step that keeps it. -/
theorem forall_setClient {good : ∀ client, ClientState (k client) → Prop}
    (allGood : ∀ client, good client (net.clients client)) {st : ClientState (k client)}
    (own : good client st) (other : Fin m) :
    good other ((net.setClient client st).clients other) := by
  by_cases same : other = client
  · subst same
    rwa [clients_setClient]
  · rw [clients_setClient_of_ne same]
    exact allGood other

end Network

namespace ClientState

variable {threads : ℕ} {st next : ClientState threads} {thread : Fin threads}

/-- The requests in flight and those that a sender is about to draw. -/
def Bounded (st : ClientState threads) : Prop :=
  st.numReqsInFlight + (collect SenderPhase.passed? st.senders).length ≤ MAX_IN_FLIGHT + threads

theorem bounded_initial (threads : ℕ) : (initial threads).Bounded := by
  have noneHeld : collect SenderPhase.passed? (initial threads).senders = [] := by
    simp [collect, initial, SenderPhase.passed?]
  rw [Bounded, noneHeld]
  simp only [initial, MAX_IN_FLIGHT, List.length_nil]
  omega

/-- A sender that passes the test finds room for itself and for all others. -/
theorem bounded_check (hasRoom : st.numReqsInFlight ≤ MAX_IN_FLIGHT) :
    (st.moveSender thread .starting).Bounded := by
  have few := length_collect_le SenderPhase.passed? (st.moveSender thread .starting).senders
  have sameNum : (st.moveSender thread .starting).numReqsInFlight = st.numReqsInFlight := rfl
  rw [Bounded, sameNum]
  omega

/-- A sender that goes on uses the room that it has. -/
theorem Bounded.moveSender (bounded : st.Bounded) {phase : SenderPhase}
    (moved : next.senders = Function.update st.senders thread phase)
    (noMore : next.numReqsInFlight + phase.passed?.toList.length ≤
      st.numReqsInFlight + (st.senders thread).passed?.toList.length) : next.Bounded := by
  have moves := length_collect_update SenderPhase.passed? st.senders thread phase
  rw [Bounded] at bounded ⊢
  rw [moved]
  omega

/-- A receiver makes room. -/
theorem Bounded.handle (bounded : st.Bounded) (same : next.senders = st.senders)
    (noMore : next.numReqsInFlight ≤ st.numReqsInFlight) : next.Bounded := by
  rw [Bounded] at bounded ⊢
  rw [same]
  omega

end ClientState

namespace Network

variable {config : NetworkConfig m} {net next : Network m n k}

theorem bounded_taken {event : NetEvent m n k}
    (bounded : ∀ client, (net.clients client).Bounded) (taken : Taken config net event next) :
    ∀ client, (next.clients client).Bounded := by
  cases taken with
  | checkFull => exact bounded
  | sleepOn => exact bounded
  | check running isLooping hasRoom =>
      exact forall_setClient bounded (ClientState.bounded_check hasRoom)
  | @wait client thread genNs running isStarting isInit =>
      refine forall_setClient bounded ?_
      exact (bounded client).moveSender rfl (by rw [isStarting]; rfl)
  | @openBarrier client thread genNs running isWaiting allThere =>
      refine forall_setClient bounded ?_
      exact (bounded client).moveSender rfl (by rw [isWaiting]; rfl)
  | @drawRequest client thread genNs running isBefore =>
      refine forall_setClient bounded ((bounded client).moveSender rfl ?_)
      have hasPassed : ((net.clients client).senders thread).passed? = some () := by
        rcases isBefore with ⟨isStarting, -⟩ | isOpened
        · rw [isStarting]
          rfl
        · rw [isOpened]
          rfl
      have passedNone : (SenderPhase.drawn (net.clients client).startedReqs genNs).passed? = none :=
        rfl
      rw [hasPassed, passedNone]
      simp [ClientState.drawRequest]
  | @sleep client thread id genNs curNs running isDrawn isEarly =>
      refine forall_setClient bounded ?_
      exact (bounded client).moveSender rfl (by rw [isDrawn]; rfl)
  | @arrive client thread id genNs curNs running isDrawn hasArrived =>
      refine forall_setClient bounded ?_
      exact (bounded client).moveSender rfl (by rw [isDrawn]; rfl)
  | @wake client thread id targetNs curNs running isSleeping isOver =>
      refine forall_setClient bounded ?_
      exact (bounded client).moveSender rfl (by rw [isSleeping]; rfl)
  | @send client thread id running isSending =>
      refine forall_setClient bounded ?_
      exact (bounded client).moveSender rfl (by rw [isSending]; rfl)
  | @recv client thread reply later running isReading isNext =>
      exact forall_setClient bounded ((bounded client).handle rfl le_rfl)
  | @finiReq client thread id svcNs curNs genNs latencies running isHandling isInFlight recorded =>
      exact forall_setClient bounded ((bounded client).handle rfl (Int.sub_le_self _ zero_le_one))
  | @startRoi client thread curNs running isHandling isWarmup =>
      exact forall_setClient bounded ((bounded client).handle rfl le_rfl)
  | @dumpStats client thread curNs running isHandling =>
      exact forall_setClient bounded ((bounded client).handle rfl le_rfl)
  | recvReq isIdle isNext isConnected => exact bounded
  | sendResp isServing isLater =>
      rw [clients_announce]
      exact bounded
  | removeClient hasEnded => exact bounded
  | finish =>
      rw [clients_broadcast]
      exact bounded

/-- Although no lock is held between the test of `send` and the drawing of a request, the requests
in flight exceed the limit by no more than the number of senders. -/
theorem inFlight_le_along (config : NetworkConfig m) (events : List (NetEvent m n k)) :
    AlongRun (step config) (initial m n k) events fun _ net => ∀ client,
      ((net.clients client).inFlightReqs.size : ℤ) ≤ MAX_IN_FLIGHT + k client ∧
        (net.underway client).length = (net.clients client).inFlightReqs.size := by
  have bounded : AlongRun (step config) (initial m n k) events fun _ net =>
      ∀ client, (net.clients client).Bounded := by
    refine alongRun_of_preserved events (fun client => ClientState.bounded_initial _) ?_
    intro early net event next bounded stepped
    exact bounded_taken bounded (step_taken stepped)
  intro early isPrefix net reached client
  have conserved := conserved_of_run reached client
  have isBounded := bounded early isPrefix net reached client
  rw [ClientState.Bounded, conserved.counted] at isBounded
  refine ⟨by omega, ?_⟩
  rw [conserved.inFlight.length_eq, Dict.length_keys]

end Network

end Datamime.Harness
