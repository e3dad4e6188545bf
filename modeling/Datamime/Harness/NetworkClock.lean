/-
# One clock for all processes

If every process reads the same clock, and it never goes back, then a request is sent after its
arrival and served after it was sent, so the time that a client measures is never shorter than the
time that the server has measured before it. Then the only assertion of the harness that can fail
is the one at the beginning of the region of interest.
-/

import Datamime.Harness.Assertions

namespace Datamime.Harness

open Datamime.Math Datamime.Math.Threads

variable {m n : ℕ} {k : Fin m → ℕ}

/-! ## The readings of the clock -/

/-- What an event reads from the clock. -/
def NetEvent.reading : NetEvent m n k → Option ℕ
  | .arrive _ _ curNs => some curNs
  | .wake _ _ curNs => some curNs
  | .handle _ _ curNs => some curNs
  | .recvReq _ _ curNs => some curNs
  | .sendResp _ curNs _ _ => some curNs
  | _ => none

/-- The second reading is later if a worker answers a request that it has taken. -/
def NetEvent.advances : NetEvent m n k → NetEvent m n k → Bool
  | .recvReq worker _ a, .sendResp other b _ _ => worker ≠ other || a < b
  | _, _ => true

/-- The clock does not go back between two events, and it advances while a worker serves. -/
def NetEvent.Before (first second : NetEvent m n k) : Prop :=
  (∀ a ∈ first.reading, ∀ b ∈ second.reading, a ≤ b) ∧ first.advances second = true

instance NetEvent.decidableBefore (first second : NetEvent m n k) :
    Decidable (first.Before second) :=
  inferInstanceAs (Decidable (_ ∧ _))

/-- The clock has been seen at this time or later. -/
def Seen (early : List (NetEvent m n k)) (timeNs : ℕ) : Prop :=
  ∃ event ∈ early, ∃ curNs ∈ event.reading, timeNs ≤ curNs

variable {config : NetworkConfig m} {early : List (NetEvent m n k)} {event : NetEvent m n k}
  {net next : Network m n k} {client : Fin m}

theorem Seen.later {timeNs : ℕ} (seen : Seen early timeNs) (event : NetEvent m n k) :
    Seen (early ++ [event]) timeNs := by
  rcases seen with ⟨earlier, isEarlier, reached⟩
  exact ⟨earlier, List.mem_append_left _ isEarlier, reached⟩

theorem Seen.now {timeNs curNs : ℕ} (isReading : event.reading = some curNs)
    (reached : timeNs ≤ curNs) : Seen (early ++ [event]) timeNs :=
  ⟨event, by simp, curNs, isReading, reached⟩

theorem Seen.le {timeNs curNs : ℕ} (seen : Seen early timeNs)
    (before : ∀ earlier ∈ early, earlier.Before event) (isReading : event.reading = some curNs) :
    timeNs ≤ curNs := by
  rcases seen with ⟨earlier, isEarlier, now, isNow, reached⟩
  exact reached.trans ((before earlier isEarlier).1 now isNow curNs isReading)

/-! ## What is known about the arrival of a request -/

/-- What a sender knows about the arrival of the request that it holds. -/
def SenderPhase.Knows (early : List (NetEvent m n k)) (genNs : ℕ) : SenderPhase → Prop
  | .drawn _ drawnNs => genNs = drawnNs
  | .sleeping _ targetNs => genNs ≤ targetNs
  | .sending _ => Seen early genNs
  | _ => False

theorem SenderPhase.Knows.later {genNs : ℕ} {phase : SenderPhase} (knows : phase.Knows early genNs)
    (event : NetEvent m n k) : phase.Knows (early ++ [event]) genNs := by
  cases phase with
  | sending id => exact Seen.later knows event
  | _ => exact knows

namespace Network

/-- The response is on its way to the client or held by one of its receivers. -/
def Answered (net : Network m n k) (client : Fin m) (id svcNs : ℕ) : Prop :=
  .response id svcNs ∈ net.toClient client ∨
    ∃ thread, (net.clients client).receivers thread = .handling (.response id svcNs)

/-- What the earlier readings tell about the arrivals of the requests of a client. -/
structure Timed (early : List (NetEvent m n k)) (net : Network m n k) (client : Fin m) : Prop where
  sender : ∀ thread id genNs, ((net.clients client).senders thread).id? = some id →
    (net.clients client).inFlightReqs.get? id = some genNs →
    ((net.clients client).senders thread).Knows early genNs
  sent : ∀ id ∈ net.toServer client, ∀ genNs,
    (net.clients client).inFlightReqs.get? id = some genNs → Seen early genNs
  serving : ∀ worker info, net.workers worker = .serving client info →
    .recvReq worker client info.startNs ∈ early ∧ ∀ genNs,
      (net.clients client).inFlightReqs.get? info.id = some genNs → genNs ≤ info.startNs
  answered : ∀ id svcNs, net.Answered client id svcNs → 0 < svcNs ∧ ∀ genNs,
    (net.clients client).inFlightReqs.get? id = some genNs → Seen early (genNs + svcNs)

theorem timed_initial (client : Fin m) : (initial m n k).Timed [] client where
  sender := by rintro _ _ _ ⟨⟩
  sent := by rintro _ ⟨⟩
  serving := by rintro _ _ ⟨⟩
  answered := by
    rintro _ _ (isQueued | ⟨_, ⟨⟩⟩)
    exact absurd isQueued List.not_mem_nil

/-- What is known stays known. -/
theorem Timed.later (timed : net.Timed early client) (event : NetEvent m n k) :
    net.Timed (early ++ [event]) client where
  sender := fun thread id genNs isHeld isInFlight =>
    (timed.sender thread id genNs isHeld isInFlight).later event
  sent := fun id isSent genNs isInFlight => (timed.sent id isSent genNs isInFlight).later event
  serving := fun worker info isServing =>
    (timed.serving worker info isServing).imp_left (List.mem_append_left _)
  answered := fun id svcNs isAnswered =>
    (timed.answered id svcNs isAnswered).imp_right fun seen genNs isInFlight =>
      (seen genNs isInFlight).later event

/-- Every request that something is known about is on its way. -/
theorem mem_underway_of_sender {thread : Fin (k client)} {id : ℕ}
    (isHeld : ((net.clients client).senders thread).id? = some id) :
    id ∈ net.underway client := by
  have isMember : id ∈ collect SenderPhase.id? (net.clients client).senders :=
    mem_collect.mpr ⟨thread, isHeld⟩
  simp [underway, isMember]

theorem mem_underway_of_sent {id : ℕ} (isSent : id ∈ net.toServer client) :
    id ∈ net.underway client := by
  simp [underway, isSent]

theorem mem_underway_of_serving {worker : Fin n} {info : ReqInfo}
    (isServing : net.workers worker = .serving client info) : info.id ∈ net.underway client := by
  have isMember : info.id ∈ collect (WorkerPhase.idOf client) net.workers :=
    mem_collect.mpr ⟨worker, by rw [isServing]; exact if_pos rfl⟩
  simp [underway, isMember]

theorem mem_underway_of_answered {id svcNs : ℕ} (isAnswered : net.Answered client id svcNs) :
    id ∈ net.underway client := by
  rcases isAnswered with isQueued | ⟨thread, isHandling⟩
  · have isMember : id ∈ (net.toClient client).filterMap Reply.id? :=
      List.mem_filterMap.mpr ⟨_, isQueued, rfl⟩
    simp [underway, isMember]
  · have isMember : id ∈ collect ReceiverPhase.id? (net.clients client).receivers :=
      mem_collect.mpr ⟨thread, by rw [isHandling]; rfl⟩
    simp [underway, isMember]

/-- A step of a client tells nothing about another. -/
theorem timed_setClient (timed : ∀ client, net.Timed early client)
    {st : ClientState (k client)}
    (own : (net.setClient client st).Timed (early ++ [event]) client) (other : Fin m) :
    (net.setClient client st).Timed (early ++ [event]) other := by
  by_cases same : other = client
  · subst same
    exact own
  · have unchanged : (net.setClient client st).clients other = net.clients other :=
      clients_setClient_of_ne same st
    have known := (timed other).later event
    constructor
    · rw [unchanged]
      exact known.sender
    · rw [unchanged]
      exact known.sent
    · rw [unchanged]
      exact known.serving
    · intro id svcNs isAnswered
      rw [Answered, unchanged] at isAnswered
      rw [unchanged]
      exact known.answered id svcNs isAnswered

/-- A step of a client in which the requests on their way keep their arrivals. -/
theorem Timed.own (timed : net.Timed early client) {st : ClientState (k client)}
    (sameReqs : ∀ id genNs, id ∈ net.underway client → st.inFlightReqs.get? id = some genNs →
      (net.clients client).inFlightReqs.get? id = some genNs)
    (sender : ∀ thread, st.senders thread = (net.clients client).senders thread ∨
      ∀ id genNs, (st.senders thread).id? = some id → st.inFlightReqs.get? id = some genNs →
        (st.senders thread).Knows (early ++ [event]) genNs)
    (receiver : ∀ thread reply, st.receivers thread = .handling reply →
      (net.clients client).receivers thread = .handling reply) :
    (net.setClient client st).Timed (early ++ [event]) client := by
  have known := timed.later event
  constructor
  · rw [clients_setClient]
    intro thread id genNs isHeld isInFlight
    rcases sender thread with same | knows
    · rw [same] at isHeld ⊢
      exact known.sender thread id genNs isHeld
        (sameReqs id genNs (mem_underway_of_sender isHeld) isInFlight)
    · exact knows id genNs isHeld isInFlight
  · rw [clients_setClient]
    intro id isSent genNs isInFlight
    exact known.sent id isSent genNs (sameReqs id genNs (mem_underway_of_sent isSent) isInFlight)
  · rw [clients_setClient]
    intro worker info isServing
    obtain ⟨isTaken, arrived⟩ := known.serving worker info isServing
    exact ⟨isTaken, fun genNs isInFlight =>
      arrived genNs (sameReqs info.id genNs (mem_underway_of_serving isServing) isInFlight)⟩
  · rw [clients_setClient]
    intro id svcNs isAnswered
    have wasAnswered : net.Answered client id svcNs := by
      rw [Answered, clients_setClient] at isAnswered
      exact isAnswered.imp_right fun ⟨thread, isHandling⟩ => ⟨thread, receiver _ _ isHandling⟩
    obtain ⟨isPositive, seen⟩ := known.answered id svcNs wasAnswered
    exact ⟨isPositive, fun genNs isInFlight =>
      seen genNs (sameReqs id genNs (mem_underway_of_answered wasAnswered) isInFlight)⟩

/-- A sender goes on with what it knows. -/
theorem Timed.moveSender (timed : net.Timed early client) {st : ClientState (k client)}
    {thread : Fin (k client)} {phase : SenderPhase}
    (moved : st.senders = Function.update (net.clients client).senders thread phase)
    (sameReqs : st.inFlightReqs = (net.clients client).inFlightReqs)
    (sameReceivers : st.receivers = (net.clients client).receivers)
    (knows : ∀ id genNs, phase.id? = some id →
      (net.clients client).inFlightReqs.get? id = some genNs →
      phase.Knows (early ++ [event]) genNs) :
    (net.setClient client st).Timed (early ++ [event]) client := by
  apply timed.own
  · intro id genNs _ isInFlight
    rwa [sameReqs] at isInFlight
  · intro other
    rw [moved, sameReqs]
    by_cases same : other = thread
    · subst same
      rw [Function.update_self]
      exact .inr knows
    · rw [Function.update_of_ne same]
      exact .inl rfl
  · intro other reply isHandling
    rwa [sameReceivers] at isHandling

/-- A new request is known only to the sender that has drawn it. -/
theorem Timed.drawRequest (timed : net.Timed early client) (conserved : net.Conserved client)
    (thread : Fin (k client)) (genNs : ℕ) :
    (net.setClient client ((net.clients client).drawRequest thread genNs)).Timed
      (early ++ [event]) client := by
  apply timed.own
  · intro id arrivedNs isUnderway isInFlight
    have different : id ≠ (net.clients client).startedReqs := by
      rintro rfl
      exact conserved.isNew (conserved.inFlight.mem_iff.mp isUnderway)
    exact (Dict.get?_insert_of_ne _ different _).symm.trans isInFlight
  · intro other
    by_cases same : other = thread
    · subst same
      refine .inr fun id arrivedNs isHeld isInFlight => ?_
      simp only [ClientState.drawRequest, ClientState.moveSender, Function.update_self]
        at isHeld isInFlight ⊢
      cases isHeld
      rw [Dict.get?_insert_self] at isInFlight
      cases isInFlight
      rfl
    · exact .inl (Function.update_of_ne same _ _)
  · exact fun _ _ isHandling => isHandling

/-- A receiver acts on its message, and the other requests keep their arrivals. -/
theorem Timed.handle (timed : net.Timed early client) {st : ClientState (k client)}
    {thread : Fin (k client)} (sameSenders : st.senders = (net.clients client).senders)
    (moved : st.receivers = Function.update (net.clients client).receivers thread .reading)
    (sameReqs : ∀ id genNs, st.inFlightReqs.get? id = some genNs →
      (net.clients client).inFlightReqs.get? id = some genNs) :
    (net.setClient client st).Timed (early ++ [event]) client := by
  apply timed.own
  · exact fun id genNs _ => sameReqs id genNs
  · exact fun other => .inl (by rw [sameSenders])
  · intro other reply isHandling
    rw [moved] at isHandling
    by_cases same : other = thread
    · subst same
      rw [Function.update_self] at isHandling
      cases isHandling
    · rwa [Function.update_of_ne same] at isHandling

/-- What the server does to a queue of replies without answering a request. -/
theorem Timed.of_same (timed : net.Timed early client) (sameClients : next.clients = net.clients)
    (sameQueue : next.toServer = net.toServer) (sameWorkers : next.workers = net.workers)
    (noMore : ∀ id svcNs, .response id svcNs ∈ next.toClient client →
      .response id svcNs ∈ net.toClient client) : next.Timed early client := by
  constructor
  · rw [sameClients]
    exact timed.sender
  · rw [sameClients, sameQueue]
    exact timed.sent
  · rw [sameClients, sameWorkers]
    exact timed.serving
  · intro id svcNs isAnswered
    rw [Answered, sameClients] at isAnswered
    rw [sameClients]
    exact timed.answered id svcNs (isAnswered.imp_left (noMore id svcNs))

theorem Timed.broadcast (timed : net.Timed early client) {reply : Reply}
    (answersNone : reply.id? = none) (entry : Sent m) :
    (net.broadcast reply entry).Timed early client := by
  rw [broadcast_eq]
  refine timed.of_same rfl rfl rfl ?_
  intro id svcNs isQueued
  rcases List.mem_append.mp isQueued with isOld | isNew
  · exact isOld
  · rw [← List.eq_of_mem_replicate isNew] at answersNone
    cases answersNone

theorem Timed.announce (timed : net.Timed early client) (config : ServerConfig) :
    (net.announce config).Timed early client := by
  rcases announce_cases config net with ⟨-, isNext⟩ | ⟨-, -, isNext⟩ | ⟨-, -, isNext⟩
  · rw [isNext]
    exact timed.broadcast rfl _
  · rw [isNext]
    exact timed.broadcast rfl _
  · rw [isNext]
    exact timed

/-- A request that its sender has sent had arrived. -/
theorem timed_send (timed : ∀ client, net.Timed early client) {thread : Fin (k client)} {id : ℕ}
    (isSending : (net.clients client).senders thread = .sending id) (other : Fin m) :
    ((net.setClient client ((net.clients client).moveSender thread .looping)).pushRequest
      client id).Timed (early ++ [event]) other := by
  have moved : (net.setClient client ((net.clients client).moveSender thread .looping)).Timed
      (early ++ [event]) other := by
    refine timed_setClient timed ?_ other
    exact (timed client).moveSender rfl rfl rfl (by rintro _ _ ⟨⟩)
  constructor
  · exact moved.sender
  · intro sent isSent genNs isInFlight
    by_cases same : other = client
    · subst same
      simp only [pushRequest, setClient, Function.update_self, List.mem_append,
        List.mem_singleton] at isSent isInFlight
      rcases isSent with wasSent | rfl
      · exact ((timed other).sent sent wasSent genNs isInFlight).later event
      · have knows := (timed other).sender thread sent genNs (by rw [isSending]; rfl) isInFlight
        rw [isSending] at knows
        exact Seen.later knows event
    · have wasSent : sent ∈ (net.setClient client
          ((net.clients client).moveSender thread .looping)).toServer other := by
        simpa [pushRequest, same] using isSent
      exact moved.sent sent wasSent genNs isInFlight
  · exact moved.serving
  · exact moved.answered

/-- A receiver holds what was in its queue. -/
theorem timed_recv (timed : ∀ client, net.Timed early client) {thread : Fin (k client)}
    {reply : Reply} {later : List Reply} (isNext : net.toClient client = reply :: later)
    (other : Fin m) :
    Timed (early ++ [event])
      { net.setClient client ((net.clients client).moveReceiver thread (.handling reply)) with
        toClient := Function.update net.toClient client later } other := by
  have known := (timed other).later event
  by_cases same : other = client
  · subst same
    constructor
    · simpa [setClient, ClientState.moveReceiver] using known.sender
    · simpa [setClient, ClientState.moveReceiver] using known.sent
    · simpa [setClient, ClientState.moveReceiver] using known.serving
    · intro id svcNs isAnswered
      have wasAnswered : net.Answered other id svcNs := by
        rcases isAnswered with isQueued | ⟨receiver, isHandling⟩
        · simp only [Function.update_self] at isQueued
          exact .inl (isNext ▸ List.mem_cons_of_mem reply isQueued)
        · simp only [setClient, Function.update_self, ClientState.moveReceiver] at isHandling
          by_cases isThread : receiver = thread
          · subst isThread
            rw [Function.update_self] at isHandling
            cases isHandling
            exact .inl (isNext ▸ List.mem_cons_self)
          · rw [Function.update_of_ne isThread] at isHandling
            exact .inr ⟨receiver, isHandling⟩
      simpa [setClient, ClientState.moveReceiver] using known.answered id svcNs wasAnswered
  · constructor
    · simpa [setClient, same] using known.sender
    · simpa [setClient, same] using known.sent
    · simpa [setClient, same] using known.serving
    · intro id svcNs isAnswered
      have wasAnswered : net.Answered other id svcNs := by
        simpa [Answered, setClient, same] using isAnswered
      simpa [setClient, same] using known.answered id svcNs wasAnswered

/-- A worker takes a request after its arrival. -/
theorem timed_recvReq (timed : ∀ client, net.Timed early client) {worker : Fin n} {id curNs : ℕ}
    {later : List ℕ} (isNext : net.toServer client = id :: later)
    (before : ∀ earlier ∈ early, earlier.Before (.recvReq worker client curNs)) (other : Fin m) :
    Timed (early ++ [.recvReq worker client curNs])
      { net.setWorker worker (.serving client ⟨id, curNs⟩) with
        toServer := Function.update net.toServer client later } other := by
  have known := (timed other).later (.recvReq worker client curNs)
  constructor
  · exact known.sender
  · intro sent isSent
    by_cases same : other = client
    · subst same
      simp only [Function.update_self] at isSent
      exact known.sent sent (isNext ▸ List.mem_cons_of_mem id isSent)
    · simp only [Function.update_of_ne same] at isSent
      exact known.sent sent isSent
  · intro server info isServing
    by_cases isWorker : server = worker
    · subst isWorker
      simp only [setWorker, Function.update_self] at isServing
      cases isServing
      refine ⟨by simp, fun genNs isInFlight => ?_⟩
      have seen := (timed client).sent id (isNext ▸ List.mem_cons_self) genNs isInFlight
      exact seen.le before rfl
    · simp only [setWorker, Function.update_of_ne isWorker] at isServing
      exact known.serving server info isServing
  · exact known.answered

/-- A response is sent after its request was taken, and the time between is that of the service. -/
theorem timed_sendResp (timed : ∀ client, net.Timed early client) {worker : Fin n} {info : ReqInfo}
    {curNs : ℕ} {answered : Bool} {told : Fin m → Bool}
    (isServing : net.workers worker = .serving client info) (isLater : info.startNs < curNs)
    (other : Fin m) :
    (net.answer worker client info.id (curNs - info.startNs)).Timed
      (early ++ [.sendResp worker curNs answered told]) other := by
  have known := (timed other).later (.sendResp worker curNs answered told)
  constructor
  · exact known.sender
  · exact known.sent
  · intro server taken isTaken
    by_cases isWorker : server = worker
    · subst isWorker
      simp only [answer, pushReply, setWorker, Function.update_self] at isTaken
      cases isTaken
    · simp only [answer, pushReply, setWorker, Function.update_of_ne isWorker] at isTaken
      exact known.serving server taken isTaken
  · intro id svcNs isAnswered
    by_cases wasAnswered : net.Answered other id svcNs
    · exact known.answered id svcNs wasAnswered
    · rw [Answered, not_or] at wasAnswered
      obtain ⟨notQueued, notHeld⟩ := wasAnswered
      have isNew : other = client ∧ id = info.id ∧ svcNs = curNs - info.startNs := by
        rcases isAnswered with isQueued | isHeld
        · by_cases same : other = client
          · subst same
            simpa [answer, pushReply, setWorker, notQueued] using isQueued
          · simp [answer, pushReply, setWorker, same, notQueued] at isQueued
        · exact absurd isHeld notHeld
      obtain ⟨rfl, rfl, rfl⟩ := isNew
      refine ⟨Nat.sub_pos_of_lt isLater, fun genNs isInFlight => ?_⟩
      have arrived := ((timed other).serving worker info isServing).2 genNs isInFlight
      have inTime : genNs + (curNs - info.startNs) ≤ curNs := by omega
      exact Seen.now rfl inTime

theorem timed_taken (conserved : ∀ client, net.Conserved client)
    (timed : ∀ client, net.Timed early client)
    (before : ∀ earlier ∈ early, earlier.Before event) (taken : Taken config net event next)
    (other : Fin m) : next.Timed (early ++ [event]) other := by
  have known := (timed other).later event
  cases taken with
  | checkFull => exact known
  | sleepOn => exact known
  | @check client thread running isLooping hasRoom =>
      refine timed_setClient timed ?_ other
      exact (timed client).moveSender rfl rfl rfl (by rintro _ _ ⟨⟩)
  | @wait client thread genNs running isStarting isInit =>
      refine timed_setClient timed ?_ other
      exact (timed client).moveSender rfl rfl rfl (by rintro _ _ ⟨⟩)
  | @openBarrier client thread genNs running isWaiting allThere =>
      refine timed_setClient timed ?_ other
      exact (timed client).moveSender rfl rfl rfl (by rintro _ _ ⟨⟩)
  | @drawRequest client thread genNs running isBefore =>
      refine timed_setClient timed ?_ other
      exact (timed client).drawRequest (conserved client) thread genNs
  | @sleep client thread id drawnNs curNs running isDrawn isEarly =>
      refine timed_setClient timed ?_ other
      refine (timed client).moveSender rfl rfl rfl ?_
      rintro _ genNs ⟨⟩ isInFlight
      have knows := (timed client).sender thread id genNs (by rw [isDrawn]; rfl) isInFlight
      rw [isDrawn] at knows
      have isGen : genNs = drawnNs := knows
      exact isGen.le.trans (le_max_left _ _)
  | @arrive client thread id drawnNs curNs running isDrawn hasArrived =>
      refine timed_setClient timed ?_ other
      refine (timed client).moveSender rfl rfl rfl ?_
      rintro _ genNs ⟨⟩ isInFlight
      have knows := (timed client).sender thread id genNs (by rw [isDrawn]; rfl) isInFlight
      rw [isDrawn] at knows
      have isGen : genNs = drawnNs := knows
      exact Seen.now rfl (isGen.le.trans hasArrived)
  | @wake client thread id targetNs curNs running isSleeping isOver =>
      refine timed_setClient timed ?_ other
      refine (timed client).moveSender rfl rfl rfl ?_
      rintro _ genNs ⟨⟩ isInFlight
      have knows := (timed client).sender thread id genNs (by rw [isSleeping]; rfl) isInFlight
      rw [isSleeping] at knows
      have isBefore : genNs ≤ targetNs := knows
      exact Seen.now rfl (isBefore.trans isOver)
  | send running isSending => exact timed_send timed isSending other
  | recv running isReading isNext => exact timed_recv timed isNext other
  | @finiReq client thread id svcNs curNs genNs latencies running isHandling isInFlight isRecord =>
      refine timed_setClient timed ?_ other
      refine (timed client).handle rfl rfl ?_
      intro held heldNs isHeld
      rw [Dict.get?_erase] at isHeld
      split at isHeld
      · cases isHeld
      · exact isHeld
  | @startRoi client thread curNs running isHandling isWarmup =>
      refine timed_setClient timed ?_ other
      exact (timed client).handle rfl rfl fun _ _ isHeld => isHeld
  | @dumpStats client thread curNs running isHandling =>
      refine timed_setClient timed ?_ other
      exact (timed client).handle rfl rfl fun _ _ isHeld => isHeld
  | recvReq isIdle isNext isConnected => exact timed_recvReq timed isNext before other
  | sendResp isServing isLater =>
      exact (timed_sendResp timed isServing isLater other).announce config.server
  | removeClient hasEnded => exact known.of_same rfl rfl rfl fun _ _ isQueued => isQueued
  | finish => exact known.broadcast rfl _

/-- With the readings in order, no time is out of order. -/
theorem not_outOfTime (timed : ∀ client, net.Timed early client)
    (before : ∀ earlier ∈ early, earlier.Before event) : ¬ OutOfTime net event := by
  rintro (⟨client, thread, curNs, id, svcNs, genNs, rfl, -, isHandling, -, isInFlight, outOfOrder⟩ |
    ⟨worker, curNs, answered, told, client, info, rfl, -, isServing, isLate⟩)
  · obtain ⟨isPositive, seen⟩ := (timed client).answered id svcNs (.inr ⟨thread, isHandling⟩)
    have inTime : genNs + svcNs ≤ curNs := (seen genNs isInFlight).le before rfl
    omega
  · obtain ⟨isTaken, -⟩ := (timed client).serving worker info isServing
    have advances := (before _ isTaken).2
    simp only [NetEvent.advances, ne_eq, Bool.or_eq_true, decide_eq_true_eq, not_true_eq_false,
      false_or] at advances
    omega

/-- In a run whose readings are in order, the only assertions that fail are those about messages
that are not taken whole and the one at the beginning of the region, and that one only in a client
none of whose senders has passed the first barrier. -/
theorem fails_iff_of_ordered {events : List (NetEvent m n k)}
    (ordered : events.Pairwise NetEvent.Before) :
    AtEachStep (step config) (initial m n k) events fun _ net event =>
      ∀ fault, step config net event = .error (.fault fault) ↔
        fault = .assertion ∧
          (BeginsTooEarly net event ∨ FallsShort config.server net event) := by
  have inOrder := @atEachStep_of_pairwise _ _ _ (step config) (initial m n k) events _ ordered
  have known : AlongRun (step config) (initial m n k) events fun early net =>
      (∀ client, net.Conserved client) ∧ ∀ client, net.Timed early client := by
    refine alongRun_of_atEachStep ⟨conserved_initial, timed_initial⟩ ?_ inOrder
    rintro early net event next ⟨conserved, timed⟩ before stepped
    have taken := step_taken stepped
    exact ⟨conserved_taken conserved taken, timed_taken conserved timed before taken⟩
  intro early event isPrefix net reached fault
  have shorter : early <+: events := (List.prefix_append early [event]).trans isPrefix
  obtain ⟨-, timed⟩ := known early shorter net reached
  have inTime := not_outOfTime timed (inOrder early event isPrefix net reached)
  rw [fails_iff_of_run reached event]
  exact and_congr_right fun _ => or_congr_right (or_iff_right inTime)

theorem twoClients_inTime :
    AtEachStep (step oneWarmup) (initial 2 1 fun _ => 1) twoClients fun _ net event =>
      ∀ fault, step oneWarmup net event = .error (.fault fault) ↔
        fault = .assertion ∧
          (BeginsTooEarly net event ∨ FallsShort oneWarmup.server net event) :=
  fails_iff_of_ordered (by decide)

end Network

end Datamime.Harness
