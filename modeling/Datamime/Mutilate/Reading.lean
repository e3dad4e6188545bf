/-
# Reading the responses

When bytes have arrived a connection takes all responses that are complete. Each is the response to
the operation at the front of the queue, which is finished, recorded and followed by new requests,
or replaced by the next record of the loader. No assertion fails on the way.
-/

import Datamime.Mutilate.Loader

namespace Datamime.Mutilate

open Datamime.Math

variable {π ρ T : Type} {prot : Protocol π} {options : Options} {world : World T}

/-! ## The end of an operation -/

namespace Connection

theorem popOp_waiting {conn : Connection π T} {op : Operation} {later : List Operation}
    (isQueued : conn.opQueue = op :: later) (isWaiting : conn.readState ≠ .LOADING) :
    popOp conn = .ok { conn with opQueue := later, readState := expected later } := by
  rw [popOp, isQueued]
  dsimp only
  rw [if_neg isWaiting]
  cases later <;> rfl

theorem popOp_loading {conn : Connection π T} {op : Operation} {later : List Operation}
    (isQueued : conn.opQueue = op :: later) (isLoading : conn.readState = .LOADING) :
    popOp conn = .ok { conn with opQueue := later } := by
  rw [popOp, isQueued]
  dsimp only
  rw [if_pos isLoading]

theorem expected_cons_ne_loading (op : Operation) (later : List Operation) :
    expected (op :: later) ≠ .LOADING := by
  rw [expected]
  cases op.type <;> exact ReadState.noConfusion

theorem Running.ne_loading {conn : Connection π T} (running : conn.Running options) :
    conn.readState ≠ .LOADING := by
  rw [running.readState]
  cases conn.opQueue with
  | nil => exact ReadState.noConfusion
  | cons op later => exact expected_cons_ne_loading op later

theorem Counted.logOp {conn : Connection π T} (counted : conn.Counted) (world : World T)
    (op : Operation) : (conn.logOp world op).Counted := by
  have gets := counted.gets
  have sets := counted.sets
  refine ⟨?_, ?_⟩
  · change (conn.stats.log op.type).gets = (conn.logged ++ [op]).countP (·.type = .GET)
    rw [List.countP_append, List.countP_singleton, ← gets]
    cases op.type <;> rfl
  · change (conn.stats.log op.type).sets = (conn.logged ++ [op]).countP (·.type = .SET)
    rw [List.countP_append, List.countP_singleton, ← sets]
    cases op.type <;> rfl

theorem finishOp_of_cons [LinearOrder T] [Add T] [Sub T] [OfScientific T] {conn : Connection π T}
    {op : Operation} {later : List Operation} (isQueued : conn.opQueue = op :: later) :
    conn.finishOp prot options world = popOp (conn.logOp world op) >>= fun popped =>
      popped.driveWriteMachine prot options world := by
  rw [finishOp, isQueued]

end Connection

namespace Session

/-- The requests and the responses of a session, but for those that are queued. -/
def FollowsSome (codec : Codec prot ρ) (session : Session π ρ T) (finished : List Request)
    (isRead unread : List ρ) : Prop :=
  ∃ queued, Follows codec session finished queued isRead unread

section

variable {codec : Codec prot ρ} {session : Session π ρ T} {finished : List Request}
  {isRead unread : List ρ}

theorem FollowsSome.driven {next : Connection π T}
    (driven : Connection.Driven prot options session.conn next)
    (follows : FollowsSome codec session finished isRead unread) :
    FollowsSome codec { session with conn := next } finished isRead unread := by
  refine driven.keeps
    (fun conn => FollowsSome codec { session with conn } finished isRead unread) ?_ ?_ follows
  · rintro conn next ⟨queued, follows⟩ same
    exact ⟨queued, follows.retimed same⟩
  · rintro conn request ⟨queued, follows⟩ -
    exact ⟨queued ++ [request], follows.issue request⟩

theorem FollowsSome.issueRecords {turns : ℕ}
    (follows : FollowsSome codec session finished isRead unread) :
    FollowsSome codec
      { session with conn := session.conn.issueRecords prot options world turns }
      finished isRead unread := by
  refine Connection.issueRecords_keeps
    (fun conn => FollowsSome codec { session with conn } finished isRead unread) ?_ follows
  rintro conn ⟨queued, follows⟩
  exact ⟨_, (follows.issue (Connection.loaderRequest world conn.loaderIssued)).congr rfl rfl rfl
    rfl rfl rfl rfl⟩

theorem FollowsSome.loadNext (follows : FollowsSome codec session finished isRead unread) :
    FollowsSome codec { session with conn := session.conn.loadNext prot options world }
      finished isRead unread := by
  rw [Connection.loadNext]
  split
  · obtain ⟨queued, follows⟩ := follows
    exact ⟨queued, follows.congr rfl rfl rfl rfl rfl rfl rfl⟩
  · exact follows.issueRecords

end

/-- Nothing in the buffer can be taken. -/
def Quiet (prot : Protocol π) (conn : Connection π T) : Prop :=
  conn.opQueue = [] ∨ prot.handleResponse conn.protocol conn.input = .ok none

theorem quiet_of_handled {conn : Connection π T}
    (handled : conn.handleResponse prot = .ok none) : Quiet prot conn := by
  rw [Connection.handleResponse] at handled
  split at handled
  · cases handled
  · right
    split at handled
    · rename_i taken
      cases handled
      exact taken
    · cases handled

/-- A connection that may be called because bytes have arrived. -/
structure Ready (conn : Connection π T) : Prop where
  isConnected : conn.readState ≠ .INIT_READ
  loads : conn.readState = .LOADING → conn.opQueue ≠ []

theorem Ready.of_running {conn : Connection π T} (running : conn.Running options) : Ready conn := by
  have isExpected := running.readState
  refine ⟨?_, ?_⟩
  · rw [isExpected]
    cases conn.opQueue with
    | nil => exact ReadState.noConfusion
    | cons op later =>
        rw [Connection.expected]
        cases op.type <;> exact ReadState.noConfusion
  · intro isLoading none_queued
    rw [isExpected, none_queued] at isLoading
    cases isLoading

variable [LinearOrder T] [Add T] [Sub T] [OfScientific T]

/-- What holds of a session between two calls, but for what is still in the buffer. -/
structure Sound (codec : Codec prot ρ) (options : Options) (world : World T)
    (session : Session π ρ T) (finished queued : List Request) (isRead unread : List ρ) : Prop where
  follows : Follows codec session finished queued isRead unread
  phase : Connection.Phase options world session.conn
  counted : session.conn.Counted
  recorded : session.conn.writeState ≠ .INIT_WRITE → session.started ≤ finished.length ∧
    session.conn.logged = (finished.drop session.started).map Request.op
  awake : session.conn.writeState ≠ .INIT_WRITE → session.conn.Awake options world

/-- A sound session, whatever its requests. -/
def IsSound (codec : Codec prot ρ) (options : Options) (world : World T)
    (session : Session π ρ T) : Prop :=
  ∃ finished queued isRead unread, Sound codec options world session finished queued isRead unread

variable {codec : Codec prot ρ} {session : Session π ρ T} {finished queued : List Request}
  {isRead unread : List ρ}

/-- A call of the write machine on a connection that runs. -/
theorem drive_outcome (options : Options) (world : World T)
    (follows : Follows codec session finished queued isRead unread)
    (running : session.conn.Running options) (counted : session.conn.Counted)
    (rests : session.conn.writeState = .INIT_WRITE → session.conn.AtRest ∧
      session.conn.opQueue = [])
    (started : session.started ≤ finished.length)
    (recorded : session.conn.logged = (finished.drop session.started).map Request.op) :
    Outcome (fun next =>
        (∃ later, Sound codec options world { session with conn := next } finished later
          isRead unread) ∧
        next.Running options ∧ next.input = session.conn.input)
      (Connection.Skips options) (session.conn.driveWriteMachine prot options world) := by
  refine (Connection.driveWriteMachine_outcome session.conn).imp ?_
  intro next _ drove
  have frame := drove.driven.frame
  have stillRunning := drove.driven.running running
  obtain ⟨later, followsNext⟩ := FollowsSome.driven drove.driven ⟨queued, follows⟩
  refine ⟨⟨later, followsNext, ?_, frame.counted counted, ?_, fun _ => drove.awake⟩,
    stillRunning, frame.input⟩
  · refine .running stillRunning ?_
    intro atRest
    obtain ⟨before, sameTimer, sameQueue⟩ := drove.rests atRest
    obtain ⟨wasAtRest, noneQueued⟩ := rests before
    exact ⟨⟨atRest, sameTimer.trans wasAtRest.timer, frame.logged.trans wasAtRest.logged⟩,
      sameQueue.trans noneQueued⟩
  · intro _
    exact ⟨started, frame.logged.trans recorded⟩

/-- `finish_op`, when the response to the first operation has been taken. -/
theorem finishOp_outcome (sound : Sound codec options world session finished queued isRead unread)
    (running : session.conn.Running options) (isStarted : session.conn.writeState ≠ .INIT_WRITE)
    {request : Request} {later : List Request} (isQueued : queued = request :: later)
    {response : Response π} {reply : ρ} {unreadLater : List ρ}
    (follows : Follows codec { session with conn :=
        { session.conn.take response with opQueue := later.map Request.op } }
      (finished ++ [request]) later (isRead ++ [reply]) unreadLater) :
    Outcome (fun next => IsSound codec options world { session with conn := next } ∧
        next.Running options ∧ next.input = response.rest)
      (Connection.Skips options)
      ((session.conn.take response).finishOp prot options world) := by
  have opQueue : session.conn.opQueue = request.op :: later.map Request.op := by
    have isOpQueue := sound.follows.opQueue
    rwa [isQueued] at isOpQueue
  obtain ⟨wasStarted, recorded⟩ := sound.recorded isStarted
  let popped : Connection π T := { (session.conn.take response).logOp world request.op with
    opQueue := later.map Request.op
    readState := Connection.expected (later.map Request.op) }
  have isPopped :
      Connection.popOp ((session.conn.take response).logOp world request.op) = .ok popped :=
    Connection.popOp_waiting opQueue running.ne_loading
  have followsPopped : Follows codec { session with conn := popped } (finished ++ [request]) later
      (isRead ++ [reply]) unreadLater := by
    refine follows.congr rfl rfl rfl rfl rfl ?_ ?_
    · change ((session.conn.take response).stats.log request.op.type).rxBytes = _
      cases request.op.type <;> rfl
    · change ((session.conn.take response).stats.log request.op.type).getMisses = _
      cases request.op.type <;> rfl
  have runningPopped : popped.Running options := by
    have inDepth := running.inDepth
    rw [opQueue, List.length_cons] at inDepth
    exact ⟨rfl, by change (later.map Request.op).length ≤ options.depth; omega⟩
  have countedTaken : (session.conn.take response).Counted :=
    ⟨sound.counted.gets, sound.counted.sets⟩
  have countedLogged := countedTaken.logOp world request.op
  have startedPopped : session.started ≤ (finished ++ [request]).length := by
    rw [List.length_append]
    exact Nat.le_add_right_of_le wasStarted
  have recordedPopped : session.conn.logged ++ [request.op] =
      ((finished ++ [request]).drop session.started).map Request.op := by
    rw [List.drop_append_of_le_length wasStarted, List.map_append, ← recorded]
    rfl
  have driven := drive_outcome options world followsPopped runningPopped
    ⟨countedLogged.gets, countedLogged.sets⟩ (fun atRest => absurd atRest isStarted) startedPopped
    recordedPopped
  have waiting : (session.conn.take response).opQueue = request.op :: later.map Request.op :=
    opQueue
  rw [Connection.finishOp_of_cons waiting, isPopped, ok_bind]
  refine driven.imp ?_
  rintro next - ⟨⟨queuedNext, soundNext⟩, runningNext, input⟩
  exact ⟨⟨_, _, _, _, soundNext⟩, runningNext, input⟩

/-! ## A turn of `read_callback` -/

/-- A turn in the case `LOADING`. -/
theorem loadingTurn_outcome
    (sound : Sound codec options world session finished queued isRead unread)
    {base : List Request}
    (isLoading : session.conn.Loading options world base
      (session.conn.loaderCompleted + Connection.LOADER_CHUNK))
    (atRest : session.conn.AtRest) (busy : session.conn.opQueue ≠ []) :
    Outcome (fun taken =>
        if taken.2 then taken.1 = session.conn ∧ Quiet prot taken.1
        else (IsSound codec options world { session with conn := taken.1 } ∧
            taken.1.AtRest ∧
            (taken.1.Loaded options world base ∨
              taken.1.Loading options world base
                (taken.1.loaderCompleted + Connection.LOADER_CHUNK) ∧
              taken.1.opQueue ≠ [])) ∧
          taken.1.input.length < session.conn.input.length)
      (Connection.Skips options) (session.conn.readTurn prot options world) := by
  have isOpQueue := sound.follows.opQueue
  obtain ⟨request, later, rfl⟩ : ∃ request later, queued = request :: later := by
    cases queued with
    | nil => exact absurd isOpQueue busy
    | cons request later => exact ⟨request, later, rfl⟩
  rw [Connection.readTurn, isLoading.readState]
  dsimp only
  rcases sound.follows.handles with handled | ⟨response, handled, shorter, outcome⟩
  · rw [handled, ok_bind]
    exact ⟨rfl, quiet_of_handled handled⟩
  · rw [handled, ok_bind]
    dsimp only
    rcases outcome with ⟨isGet, -, -⟩ | ⟨-, reply, unreadLater, follows⟩
    · have isSet := isLoading.allSet request.op (isOpQueue ▸ List.mem_cons_self)
      rw [isSet] at isGet
      cases isGet
    · let popped : Connection π T := { session.conn.take response with
        loaderCompleted := session.conn.loaderCompleted + 1
        opQueue := later.map Request.op }
      have isPopped : Connection.popOp { session.conn.take response with
          loaderCompleted := session.conn.loaderCompleted + 1 } = .ok popped :=
        Connection.popOp_loading isOpQueue isLoading.readState
      have restsPopped : popped.AtRest := ⟨atRest.writeState, atRest.timer, atRest.logged⟩
      have rests : (popped.loadNext prot options world).AtRest := restsPopped.loadNext
      have frame := Connection.frame_loadNext prot options world popped
      have nextCases : (popped.loadNext prot options world).Loaded options world base ∨
          (popped.loadNext prot options world).Loading options world base
            ((popped.loadNext prot options world).loaderCompleted + Connection.LOADER_CHUNK) ∧
          (popped.loadNext prot options world).opQueue ≠ [] :=
        Connection.loadNext_cases prot isLoading isOpQueue rfl rfl rfl rfl rfl
      have followsPopped : FollowsSome codec { session with conn := popped }
          (finished ++ [request]) (isRead ++ [reply]) unreadLater :=
        ⟨later, follows.congr rfl rfl rfl rfl rfl rfl rfl⟩
      obtain ⟨queuedNext, followsNext⟩ :
          FollowsSome codec { session with conn := popped.loadNext prot options world }
            (finished ++ [request]) (isRead ++ [reply]) unreadLater := followsPopped.loadNext
      have phase : Connection.Phase options world (popped.loadNext prot options world) := by
        rcases nextCases with isLoaded | ⟨goesOn, -⟩
        · exact isLoaded.phase rests
        · exact .loading base goesOn rests
      change Outcome _ _ (Connection.popOp { session.conn.take response with
        loaderCompleted := session.conn.loaderCompleted + 1 } >>= _)
      rw [isPopped, ok_bind]
      refine ⟨⟨⟨_, _, _, _, followsNext, phase, ?_, ?_, ?_⟩, rests, nextCases⟩, ?_⟩
      · exact frame.counted ⟨sound.counted.gets, sound.counted.sets⟩
      · exact fun isStarted => absurd rests.writeState isStarted
      · exact fun isStarted => absurd rests.writeState isStarted
      · exact (congrArg List.length frame.input).trans_lt shorter

/-- A turn of a connection that issues requests. -/
theorem runningTurn_outcome
    (sound : Sound codec options world session finished queued isRead unread)
    (running : session.conn.Running options)
    (rests : session.conn.writeState = .INIT_WRITE → session.conn.AtRest ∧
      session.conn.opQueue = []) :
    Outcome (fun taken =>
        if taken.2 then taken.1 = session.conn ∧ Quiet prot taken.1
        else (IsSound codec options world { session with conn := taken.1 } ∧
            taken.1.Running options) ∧
          taken.1.input.length < session.conn.input.length)
      (Connection.Skips options) (session.conn.readTurn prot options world) := by
  have isOpQueue := sound.follows.opQueue
  have isExpected := running.readState
  cases queued with
  | nil =>
      rw [isOpQueue] at isExpected
      rw [Connection.readTurn, isExpected]
      exact ⟨rfl, .inl isOpQueue⟩
  | cons request later =>
      rw [isOpQueue] at isExpected
      have isStarted : session.conn.writeState ≠ .INIT_WRITE := by
        intro notStarted
        rw [(rests notStarted).2] at isOpQueue
        cases isOpQueue
      rcases sound.follows.handles with handled | ⟨response, handled, shorter, outcome⟩
      · have waits : session.conn.readTurn prot options world = .ok (session.conn, true) := by
          rw [Connection.readTurn, isExpected]
          simp only [List.map_cons, Connection.expected]
          cases request.op.type <;>
          · dsimp only [Connection.waitingFor]
            rw [handled]
            rfl
        rw [waits]
        exact ⟨rfl, quiet_of_handled handled⟩
      · rcases outcome with ⟨isGet, isPart, follows⟩ | ⟨isDone, reply, unreadLater, follows⟩
        · have turned : session.conn.readTurn prot options world =
              .ok (session.conn.take response, false) := by
            rw [Connection.readTurn, isExpected]
            simp only [List.map_cons, Connection.expected, isGet, Connection.waitingFor]
            rw [handled, ok_bind]
            dsimp only
            rw [isPart]
            rfl
          rw [turned]
          have stillRunning : (session.conn.take response).Running options :=
            ⟨running.readState, running.inDepth⟩
          exact ⟨⟨⟨_, _, _, _, follows,
            .running stillRunning fun notStarted => absurd notStarted isStarted,
            ⟨sound.counted.gets, sound.counted.sets⟩, sound.recorded, sound.awake⟩,
            stillRunning⟩, shorter⟩
        · have turned : session.conn.readTurn prot options world =
              (session.conn.take response).finishOp prot options world >>=
                fun conn => .ok (conn, false) := by
            rw [Connection.readTurn, isExpected]
            simp only [List.map_cons, Connection.expected]
            cases isType : request.op.type with
            | GET =>
                dsimp only [Connection.waitingFor]
                rw [handled, ok_bind]
                dsimp only
                rw [if_pos (isDone isType)]
                rfl
            | SET =>
                dsimp only [Connection.waitingFor]
                rw [handled, ok_bind]
                rfl
          rw [turned]
          refine (finishOp_outcome sound running isStarted rfl follows).bind ?_
          rintro next ⟨isSound, runningNext, input⟩
          exact ⟨⟨isSound, runningNext⟩, (congrArg List.length input).trans_lt shorter⟩

/-! ## A call of `read_callback` -/

theorem readTurn_outcome (isSound : IsSound codec options world session)
    (ready : Ready session.conn) :
    Outcome (fun taken =>
        if taken.2 then taken.1 = session.conn ∧ Quiet prot taken.1
        else (IsSound codec options world { session with conn := taken.1 } ∧ Ready taken.1) ∧
          taken.1.input.length < session.conn.input.length)
      (Connection.Skips options) (session.conn.readTurn prot options world) := by
  obtain ⟨finished, queued, isRead, unread, sound⟩ := isSound
  cases sound.phase with
  | unconnected readState _ _ => exact absurd readState ready.isConnected
  | loading base isLoading atRest =>
      refine (loadingTurn_outcome sound isLoading atRest (ready.loads isLoading.readState)).imp ?_
      rintro ⟨next, isOver⟩ - outcome
      cases isOver with
      | true => exact outcome
      | false =>
          obtain ⟨⟨soundNext, restsNext, isLoaded | ⟨goesOn, busy⟩⟩, shorter⟩ := outcome
          · refine ⟨⟨soundNext, ?_, ?_⟩, shorter⟩
            · exact fun isInit => ReadState.noConfusion (isLoaded.readState.symm.trans isInit)
            · exact fun loads => ReadState.noConfusion (isLoaded.readState.symm.trans loads)
          · refine ⟨⟨soundNext, ?_, fun _ => busy⟩, shorter⟩
            exact fun isInit => ReadState.noConfusion (goesOn.readState.symm.trans isInit)
  | running running rests =>
      refine (runningTurn_outcome sound running rests).imp ?_
      rintro ⟨next, isOver⟩ - outcome
      cases isOver with
      | true => exact outcome
      | false =>
          obtain ⟨⟨soundNext, runningNext⟩, shorter⟩ := outcome
          exact ⟨⟨soundNext, .of_running runningNext⟩, shorter⟩

/-- `read_callback` takes what it can and returns. -/
theorem readCallback_outcome (isSound : IsSound codec options world session)
    (ready : Ready session.conn) :
    Outcome (fun next => IsSound codec options world { session with conn := next } ∧
        Quiet prot next)
      (Connection.Skips options) (session.conn.readCallback prot options world) := by
  refine loop_outcome
    (fun conn => IsSound codec options world { session with conn } ∧ Ready conn)
    (fun conn => conn.input.length) ?_ ⟨isSound, ready⟩ (by omega)
  rintro conn ⟨soundConn, readyConn⟩
  refine (readTurn_outcome soundConn readyConn).imp ?_
  rintro ⟨next, isOver⟩ - outcome
  cases isOver with
  | true =>
      obtain ⟨rfl, quiet⟩ := outcome
      exact ⟨soundConn, quiet⟩
  | false => exact outcome

end Session

end Datamime.Mutilate
