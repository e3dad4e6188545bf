/-
# What the clients are sent

The server writes to every connection under one lock, and both messages to all clients stand in each
connection between the responses, where they were sent. While a client runs, it has acted on what it
was sent, or one of its receivers holds it, or it is on its way. With one receiver thread it acts on
everything in the order in which it was sent.
-/

import Datamime.Harness.InFlight

namespace Datamime.Harness

open Datamime.Math Datamime.Math.Threads

variable {m n : ℕ} {k : Fin m → ℕ}

/-! ## What is sent and what is received -/

/-- A message of a client, as the server sent it. -/
def Reply.sent (client : Fin m) : Reply → Sent m
  | .response id _ => .answer client id
  | .roiBegin => .roiBegin
  | .finish => .finish

/-- The client is sent this. -/
def Sent.concerns (client : Fin m) : Sent m → Bool
  | .answer receiver _ => receiver = client
  | _ => true

/-- The request of the client that is answered. -/
def Sent.idTo (client : Fin m) : Sent m → Option ℕ
  | .answer receiver id => if receiver = client then some id else none
  | _ => none

/-- The same up to the order, or also in the same order if only one thread receives. -/
def SameOrder {α : Type*} (threads : ℕ) (first second : List α) : Prop :=
  first.Perm second ∧ (threads = 1 → first = second)

theorem SameOrder.of_eq {α : Type*} {threads : ℕ} {first second : List α} (same : first = second) :
    SameOrder threads first second :=
  ⟨same ▸ List.Perm.refl _, fun _ => same⟩

theorem SameOrder.trans {α : Type*} {threads : ℕ} {first second third : List α}
    (left : SameOrder threads first second) (right : SameOrder threads second third) :
    SameOrder threads first third :=
  ⟨left.1.trans right.1, fun single => (left.2 single).trans (right.2 single)⟩

theorem SameOrder.append {α : Type*} {threads : ℕ} {first second : List α}
    (same : SameOrder threads first second) (later : List α) :
    SameOrder threads (first ++ later) (second ++ later) :=
  ⟨same.1.append_right later, fun single => by rw [same.2 single]⟩

theorem SameOrder.map {α β : Type*} {threads : ℕ} {first second : List α}
    (same : SameOrder threads first second) (image : α → β) :
    SameOrder threads (first.map image) (second.map image) :=
  ⟨same.1.map image, fun single => by rw [same.2 single]⟩

namespace Network

variable {config : NetworkConfig m} {net next : Network m n k} {client other : Fin m}

/-- The messages of a client: those acted on, those that its receivers hold, and those on their
way. -/
def messages (net : Network m n k) (client : Fin m) : List Reply :=
  (net.clients client).handled ++
    collect ReceiverPhase.reply? (net.clients client).receivers ++ net.toClient client

/-- What the server has sent to the client. -/
def sentTo (net : Network m n k) (client : Fin m) : List (Sent m) :=
  net.log.filter (Sent.concerns client)

/-- A client follows what it is sent. -/
structure Followed (net : Network m n k) (client : Fin m) : Prop where
  connected : (net.clients client).dumped = none → net.clientFds.count client = 1
  /-- While the client runs, nothing that it was sent is lost. -/
  delivered : (net.clients client).dumped = none →
    SameOrder (k client) ((net.messages client).map (Reply.sent client)) (net.sentTo client)
  /-- A single receiver acts on its messages in the order in which they were sent. -/
  inOrder : k client = 1 →
    (net.clients client).handled.map (Reply.sent client) <+: net.sentTo client

theorem followed_initial (client : Fin m) : (initial m n k).Followed client := by
  have noneHeld : collect ReceiverPhase.reply? ((initial m n k).clients client).receivers = [] := by
    simp [collect, initial, ClientState.initial, ReceiverPhase.reply?]
  constructor
  · intro _
    exact List.count_eq_one_of_mem (List.nodup_finRange m) (List.mem_finRange client)
  · intro _
    apply SameOrder.of_eq
    rw [messages, noneHeld]
    rfl
  · intro _
    exact List.nil_prefix

/-- While the client runs, the order in which it has acted is that of its messages. -/
theorem Followed.of_running (connected : net.clientFds.count client = 1)
    (delivered : SameOrder (k client) ((net.messages client).map (Reply.sent client))
      (net.sentTo client)) : net.Followed client where
  connected := fun _ => connected
  delivered := fun _ => delivered
  inOrder := fun single => by
    rw [← delivered.2 single, messages, List.append_assoc, List.map_append]
    exact List.prefix_append _ _

/-- What is known of a client that has ended stays so. -/
theorem Followed.frozen (followed : net.Followed client)
    (ended : (next.clients client).dumped ≠ none)
    (sameHandled : (next.clients client).handled = (net.clients client).handled)
    (grows : net.sentTo client <+: next.sentTo client) : next.Followed client where
  connected := fun running => absurd running ended
  delivered := fun running => absurd running ended
  inOrder := fun single => by
    rw [sameHandled]
    exact (followed.inOrder single).trans grows

/-- A step after which the client has the same messages. -/
theorem Followed.of_same (followed : net.Followed client)
    (sameDumped : (next.clients client).dumped = (net.clients client).dumped)
    (sameHandled : (next.clients client).handled = (net.clients client).handled)
    (sameMessages : next.messages client = net.messages client)
    (sameFds : next.clientFds = net.clientFds) (sameLog : next.log = net.log) :
    next.Followed client where
  connected := by
    rw [sameDumped, sameFds]
    exact followed.connected
  delivered := by
    rw [sameDumped, sameMessages, sentTo, sameLog]
    exact followed.delivered
  inOrder := by
    rw [sameHandled, sentTo, sameLog]
    exact followed.inOrder

/-- A step of a client concerns no other. -/
theorem followed_setClient (followed : ∀ client, net.Followed client)
    {st : ClientState (k client)} (own : (net.setClient client st).Followed client)
    (other : Fin m) : (net.setClient client st).Followed other := by
  by_cases same : other = client
  · subst same
    exact own
  · have unchanged : (net.setClient client st).clients other = net.clients other :=
      clients_setClient_of_ne same st
    refine (followed other).of_same ?_ ?_ ?_ rfl rfl
    · rw [unchanged]
    · rw [unchanged]
    · rw [messages, unchanged]
      rfl

/-- A step of a sender. -/
theorem Followed.sender (followed : net.Followed client) {st : ClientState (k client)}
    (sameDumped : st.dumped = (net.clients client).dumped)
    (sameHandled : st.handled = (net.clients client).handled)
    (sameReceivers : st.receivers = (net.clients client).receivers) :
    (net.setClient client st).Followed client := by
  refine followed.of_same ?_ ?_ ?_ rfl rfl
  · rw [clients_setClient, sameDumped]
  · rw [clients_setClient, sameHandled]
  · rw [messages, clients_setClient, sameHandled, sameReceivers]
    rfl

/-- A receiver takes the next message. -/
theorem sameOrder_recv {thread : Fin (k client)} {reply : Reply} {later : List Reply}
    (isReading : (net.clients client).receivers thread = .reading)
    (isNext : net.toClient client = reply :: later) :
    SameOrder (k client)
      ((net.clients client).handled ++ collect ReceiverPhase.reply?
        (Function.update (net.clients client).receivers thread (.handling reply)) ++ later)
      (net.messages client) := by
  have old := perm_collect ReceiverPhase.reply? (net.clients client).receivers thread
  have new := perm_collect_update ReceiverPhase.reply? (net.clients client).receivers thread
    (.handling reply)
  rw [isReading] at old
  rw [messages, isNext]
  constructor
  · rw [List.append_assoc, List.append_assoc]
    apply List.Perm.append_left
    exact (new.append_right later).trans
      (List.perm_middle.symm.trans (old.symm.append_right (reply :: later)))
  · intro single
    rw [collect_of_single single thread, collect_of_single single thread, isReading,
      Function.update_self]
    simp [ReceiverPhase.reply?]

/-- A receiver acts on its message. -/
theorem sameOrder_handle {thread : Fin (k client)} {reply : Reply}
    (isHandling : (net.clients client).receivers thread = .handling reply) :
    SameOrder (k client)
      ((net.clients client).handled ++ [reply] ++ collect ReceiverPhase.reply?
        (Function.update (net.clients client).receivers thread .reading) ++ net.toClient client)
      (net.messages client) := by
  have old := perm_collect ReceiverPhase.reply? (net.clients client).receivers thread
  have new := perm_collect_update ReceiverPhase.reply? (net.clients client).receivers thread
    .reading
  rw [isHandling] at old
  rw [messages]
  constructor
  · apply List.Perm.append_right
    rw [List.append_assoc]
    exact ((new.append_left [reply]).trans old.symm).append_left _
  · intro single
    rw [collect_of_single single thread, collect_of_single single thread, isHandling,
      Function.update_self]
    simp [ReceiverPhase.reply?]

/-- A client acts on a message. -/
theorem Followed.handle (followed : net.Followed client)
    (running : (net.clients client).dumped = none) {thread : Fin (k client)} {reply : Reply}
    {st : ClientState (k client)}
    (isHandling : (net.clients client).receivers thread = .handling reply)
    (moved : st.receivers = Function.update (net.clients client).receivers thread .reading)
    (acted : st.handled = (net.clients client).handled ++ [reply]) :
    (net.setClient client st).Followed client := by
  refine Followed.of_running (followed.connected running) ?_
  refine SameOrder.trans (SameOrder.map ?_ _) (followed.delivered running)
  rw [messages, clients_setClient, acted, moved]
  exact sameOrder_handle isHandling

/-- The server sends, and the client is sent what concerns it. -/
theorem Followed.send (followed : net.Followed client) (extra : List Reply)
    (entries : List (Sent m)) (sameClients : next.clients = net.clients)
    (sameFds : next.clientFds = net.clientFds)
    (pushed : (net.clients client).dumped = none →
      next.toClient client = net.toClient client ++ extra)
    (logged : next.log = net.log ++ entries)
    (concerned : (net.clients client).dumped = none →
      extra.map (Reply.sent client) = entries.filter (Sent.concerns client)) :
    next.Followed client := by
  have sent : next.sentTo client = net.sentTo client ++ entries.filter (Sent.concerns client) := by
    rw [sentTo, logged, List.filter_append]
    rfl
  cases isDumped : (net.clients client).dumped with
  | none =>
      apply Followed.of_running
      · rw [sameFds]
        exact followed.connected isDumped
      · have longer : next.messages client = net.messages client ++ extra := by
          simp only [messages, sameClients, pushed isDumped, List.append_assoc]
        rw [sent, longer, List.map_append, concerned isDumped]
        exact (followed.delivered isDumped).append _
  | some latencies =>
      apply followed.frozen
      · rw [sameClients, isDumped]
        exact Option.some_ne_none _
      · rw [sameClients]
      · rw [sent]
        exact List.prefix_append _ _

/-- A message to all connected clients concerns each of them. -/
theorem Followed.broadcast (followed : net.Followed client) {reply : Reply} {entry : Sent m}
    (concerns : entry.concerns client = true) (isSent : reply.sent client = entry) :
    (net.broadcast reply entry).Followed client := by
  apply followed.send [reply] [entry]
  · exact clients_broadcast _ _ _
  · rw [broadcast_eq]
  · intro running
    simp [broadcast_eq, followed.connected running]
  · rw [broadcast_eq]
  · intro _
    simp [concerns, isSent]

theorem Followed.announce (followed : net.Followed client) (config : ServerConfig) :
    (net.announce config).Followed client := by
  rcases announce_cases config net with ⟨-, isNext⟩ | ⟨-, -, isNext⟩ | ⟨-, -, isNext⟩
  · rw [isNext]
    exact followed.broadcast rfl rfl
  · rw [isNext]
    exact followed.broadcast rfl rfl
  · rw [isNext]
    exact followed

/-- A response concerns the client that sent the request. -/
theorem Followed.answer (followed : net.Followed other) {worker : Fin n} {id svcNs : ℕ} :
    (net.answer worker client id svcNs).Followed other := by
  by_cases same : other = client
  · subst same
    refine followed.send [.response id svcNs] [.answer other id] rfl rfl ?_ rfl ?_
    · intro _
      simp [Network.answer, pushReply, setWorker]
    · intro _
      simp [Reply.sent, Sent.concerns]
  · refine followed.send [] [.answer client id] rfl rfl ?_ rfl ?_
    · intro _
      simp [Network.answer, pushReply, setWorker, same]
    · intro _
      simp [Sent.concerns, Ne.symm same]

theorem followed_taken {event : NetEvent m n k} (followed : ∀ client, net.Followed client)
    (taken : Taken config net event next) (other : Fin m) : next.Followed other := by
  have followedOther := followed other
  cases taken with
  | checkFull => exact followedOther
  | sleepOn => exact followedOther
  | @check client thread running isLooping hasRoom =>
      refine followed_setClient followed ?_ other
      exact (followed client).sender rfl rfl rfl
  | @wait client thread genNs running isStarting isInit =>
      refine followed_setClient followed ?_ other
      exact (followed client).sender rfl rfl rfl
  | @openBarrier client thread genNs running isWaiting allThere =>
      refine followed_setClient followed ?_ other
      exact (followed client).sender rfl rfl rfl
  | @drawRequest client thread genNs running isBefore =>
      refine followed_setClient followed ?_ other
      exact (followed client).sender rfl rfl rfl
  | @sleep client thread id genNs curNs running isDrawn isEarly =>
      refine followed_setClient followed ?_ other
      exact (followed client).sender rfl rfl rfl
  | @arrive client thread id genNs curNs running isDrawn hasArrived =>
      refine followed_setClient followed ?_ other
      exact (followed client).sender rfl rfl rfl
  | @wake client thread id targetNs curNs running isSleeping isOver =>
      refine followed_setClient followed ?_ other
      exact (followed client).sender rfl rfl rfl
  | @send client thread id running isSending =>
      have moved : (net.setClient client
          ((net.clients client).moveSender thread .looping)).Followed other := by
        refine followed_setClient followed ?_ other
        exact (followed client).sender rfl rfl rfl
      exact moved.of_same rfl rfl rfl rfl rfl
  | @recv client thread reply later running isReading isNext =>
      by_cases same : other = client
      · subst same
        refine Followed.of_running (followedOther.connected running) ?_
        refine SameOrder.trans (SameOrder.map ?_ _) (followedOther.delivered running)
        have received := sameOrder_recv isReading isNext
        simpa [messages, setClient, ClientState.moveReceiver] using received
      · refine followedOther.of_same ?_ ?_ ?_ rfl rfl
        all_goals simp [messages, setClient, same]
  | @finiReq client thread id svcNs curNs genNs latencies running isHandling isInFlight recorded =>
      refine followed_setClient followed ?_ other
      exact (followed client).handle running isHandling rfl rfl
  | @startRoi client thread curNs running isHandling isWarmup =>
      refine followed_setClient followed ?_ other
      exact (followed client).handle running isHandling rfl rfl
  | @dumpStats client thread curNs running isHandling =>
      refine followed_setClient followed ?_ other
      exact (followed client).handle running isHandling rfl rfl
  | recvReq isIdle isNext isConnected => exact followedOther.of_same rfl rfl rfl rfl rfl
  | sendResp isServing isLater => exact followedOther.answer.announce config.server
  | @removeClient worker client hasEnded =>
      constructor
      · intro running
        have different : other ≠ client := by
          rintro rfl
          have isRunning : (net.clients other).dumped = none := running
          rw [isRunning] at hasEnded
          cases hasEnded
        show (net.clientFds.erase client).count other = 1
        rw [List.count_erase_of_ne different]
        exact followedOther.connected running
      · exact followedOther.delivered
      · exact followedOther.inOrder
  | finish => exact followedOther.broadcast rfl rfl

/-- Nothing that the server sends is lost, doubled or given to another client. -/
theorem followed_along (config : NetworkConfig m) (events : List (NetEvent m n k)) :
    AlongRun (step config) (initial m n k) events fun _ net => ∀ client, net.Followed client := by
  refine alongRun_of_preserved events followed_initial ?_
  intro early net event next followed stepped
  exact followed_taken followed (step_taken stepped)

end Network

end Datamime.Harness
