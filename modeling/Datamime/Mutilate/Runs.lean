/-
# Runs of a session

Whatever the order in which a session is started, loaded, answered, called back and reset, and
whatever the pieces in which the responses arrive, no assertion of the connection fails. Once all
that the server has sent has arrived, the connection has finished precisely the requests that were
answered.
-/

import Datamime.Mutilate.Reading

namespace Datamime.Mutilate

open Datamime.Math

variable {π ρ T : Type} {prot : Protocol π} {options : Options} {world : World T}

namespace Session

variable {codec : Codec prot ρ} {session : Session π ρ T} {finished queued : List Request}
  {isRead unread : List ρ}

/-! ## Nothing is left in the buffer -/

theorem FollowsSome.quiet (follows : FollowsSome codec session finished isRead []) :
    Quiet prot session.conn := by
  obtain ⟨queued, follows⟩ := follows
  by_cases none_queued : session.conn.opQueue = []
  · exact .inl none_queued
  · exact .inr (follows.waits_of_none_unread (follows.issued_ne_nil none_queued))

/-- Where a response is waited for, issuing leaves the protocol alone. -/
theorem Follows.protocol_driven (follows : Follows codec session finished queued isRead unread)
    (some_issued : session.conn.issued ≠ []) {next : Connection π T}
    (driven : Connection.Driven prot options session.conn next) :
    next.protocol = session.conn.protocol := by
  have kept : FollowsSome codec { session with conn := next } finished isRead unread ∧
      next.issued ≠ [] ∧ next.protocol = session.conn.protocol := by
    refine driven.keeps (fun conn =>
      FollowsSome codec { session with conn } finished isRead unread ∧ conn.issued ≠ [] ∧
        conn.protocol = session.conn.protocol) ?_ ?_ ⟨⟨queued, follows⟩, some_issued, rfl⟩
    · rintro conn next ⟨⟨queued, follows⟩, issued, protocol⟩ same
      refine ⟨⟨queued, follows.retimed same⟩, ?_, same.protocol.trans protocol⟩
      rw [same.issued]
      exact issued
    · rintro conn request ⟨⟨queued, follows⟩, issued, protocol⟩ -
      obtain ⟨_, _, isStream, -, -⟩ := follows.stream
      have keeps := codec.stream_keeps isStream (follows.prepared issued) request
      refine ⟨⟨_, follows.issue request⟩, List.append_ne_nil_of_left_ne_nil issued _, ?_⟩
      exact keeps.trans protocol
  exact kept.2.2

theorem quiet_driven (follows : Follows codec session finished queued isRead unread)
    (quiet : Quiet prot session.conn) {next : Connection π T}
    (driven : Connection.Driven prot options session.conn next) : Quiet prot next := by
  by_cases none_queued : session.conn.opQueue = []
  · have none_unread := follows.unread_eq_nil none_queued
    rw [none_unread] at follows
    exact (FollowsSome.driven driven ⟨queued, follows⟩).quiet
  · rcases quiet with isEmpty | waits
    · exact absurd isEmpty none_queued
    · right
      rw [follows.protocol_driven (follows.issued_ne_nil none_queued) driven, driven.frame.input]
      exact waits

/-! ## Every event -/

/-- How many operations have been finished. -/
def finishedCount (session : Session π ρ T) : ℕ :=
  session.conn.issued.length - session.conn.opQueue.length

theorem Follows.finished_eq (follows : Follows codec session finished queued isRead unread) :
    session.finishedCount = finished.length := by
  rw [Session.finishedCount, follows.issued, follows.opQueue, List.length_append, List.length_map]
  omega

/-- An event cannot happen now, or the loop that skips transmissions goes on for ever. -/
def MayStop (options : Options) (stop : Stop) : Prop :=
  stop = .notReady ∨ Connection.Skips options stop

theorem outcome_call {returned : Except Stop (Connection π T)} {good : Session π ρ T → Prop}
    (outcome : Outcome (fun conn => good { session with conn }) (Connection.Skips options)
      returned) : Outcome good (MayStop options) (session.call returned) := by
  cases returned with
  | ok conn => exact outcome
  | error stop => exact .inr outcome

variable [LinearOrder T] [Add T]

/-- What holds of a session between two calls. -/
structure Good (codec : Codec prot ρ) (options : Options) (world : World T)
    (session : Session π ρ T) : Prop where
  isSound : IsSound codec options world session
  quiet : Quiet prot session.conn

theorem Good.initial [OfScientific T] : Good codec options world (Session.initial codec) := by
  refine ⟨⟨[], [], [], [], .initial, .unconnected rfl ⟨rfl, rfl, rfl⟩ rfl, ⟨rfl, rfl⟩, ?_, ?_⟩,
    .inl rfl⟩
  · exact fun isStarted => absurd rfl isStarted
  · exact fun isStarted => absurd rfl isStarted

/-- Once everything has arrived, nothing is unread. -/
theorem Good.unread_eq_nil (isGood : Good codec options world session)
    (arrived : session.wire = []) (follows : Follows codec session finished queued isRead unread) :
    unread = [] := by
  rcases isGood.quiet with none_queued | waits
  · exact follows.unread_eq_nil none_queued
  · by_contra some_unread
    obtain ⟨reply, unreadLater, rfl⟩ := List.exists_cons_of_ne_nil some_unread
    obtain ⟨request, later, rfl⟩ : ∃ request later, queued = request :: later := by
      have unread_length := follows.unread_length
      exact List.exists_cons_of_length_pos (Nat.lt_of_lt_of_le (Nat.succ_pos _) unread_length)
    obtain ⟨_, _, isStream, -, -⟩ := follows.stream
    obtain ⟨bytes, next, _, _, done, stream, _, _, takes, isNext, -⟩ := isStream.front
    rw [arrived, List.append_nil] at isNext
    rw [isNext, takes.arrived] at waits
    cases waits

namespace Sound

/-- An idle connection has nothing under way. -/
theorem idle (sound : Sound codec options world session finished queued isRead unread)
    (isIdle : session.conn.readState = .IDLE) :
    session.conn.Running options ∧ session.conn.opQueue = [] := by
  cases sound.phase with
  | unconnected readState _ _ =>
      rw [isIdle] at readState
      cases readState
  | loading _ isLoading _ =>
      have readState := isLoading.readState
      rw [isIdle] at readState
      cases readState
  | running running _ =>
      refine ⟨running, ?_⟩
      have isExpected := running.readState
      rw [isIdle] at isExpected
      cases isQueue : session.conn.opQueue with
      | nil => rfl
      | cons op later =>
          rw [isQueue, Connection.expected] at isExpected
          cases isType : op.type <;>
          · rw [isType] at isExpected
            cases isExpected

theorem atRest (sound : Sound codec options world session finished queued isRead unread)
    (notStarted : session.conn.writeState = .INIT_WRITE) : session.conn.AtRest := by
  cases sound.phase with
  | unconnected _ atRest _ => exact atRest
  | loading _ _ atRest => exact atRest
  | running _ rests => exact (rests notStarted).1

/-- `event_callback`. -/
theorem connected (sound : Sound codec options world session finished queued isRead unread)
    (isNew : session.conn.readState = .INIT_READ) :
    Good codec options world { session with conn := session.conn.connected prot } := by
  have isConnected : session.conn.connected prot = { session.conn with readState := .IDLE } := by
    rw [Connection.connected, codec.isUsable]
    dsimp only
    rw [List.append_nil]
    rfl
  rw [isConnected]
  cases sound.phase with
  | unconnected _ atRest none_issued =>
      have noneQueued : session.conn.opQueue = [] := by
        rw [sound.follows.opQueue,
          (List.append_eq_nil_iff.mp (sound.follows.issued.symm.trans none_issued)).2]
        rfl
      have running : Connection.Running options { session.conn with readState := .IDLE } := by
        refine ⟨?_, ?_⟩
        · change ReadState.IDLE = Connection.expected session.conn.opQueue
          rw [noneQueued]
          rfl
        · change session.conn.opQueue.length ≤ options.depth
          rw [noneQueued]
          exact Nat.zero_le _
      refine ⟨⟨_, _, _, _, sound.follows.congr rfl rfl rfl rfl rfl rfl rfl,
        .running running fun _ => ⟨⟨atRest.writeState, atRest.timer, atRest.logged⟩, noneQueued⟩,
        ⟨sound.counted.gets, sound.counted.sets⟩, ?_, ?_⟩, .inl noneQueued⟩
      · exact fun isStarted => absurd atRest.writeState isStarted
      · exact fun isStarted => absurd atRest.writeState isStarted
  | loading _ isLoading _ =>
      have readState := isLoading.readState
      rw [isNew] at readState
      cases readState
  | running running _ =>
      exact absurd isNew (Ready.of_running running).isConnected

/-- `start_loading`. -/
theorem startLoading (sound : Sound codec options world session finished queued isRead unread)
    (isIdle : session.conn.readState = .IDLE)
    (notStarted : session.conn.writeState = .INIT_WRITE) :
    Good codec options world
      { session with conn := session.conn.startLoading prot options world } := by
  obtain ⟨-, noneQueued⟩ := sound.idle isIdle
  have follows := sound.follows
  rw [follows.unread_eq_nil noneQueued] at follows
  let loading : Connection π T :=
    { session.conn with readState := .LOADING, loaderIssued := 0, loaderCompleted := 0 }
  have followsLoading : FollowsSome codec { session with conn := loading } finished isRead [] :=
    ⟨queued, follows.congr rfl rfl rfl rfl rfl rfl rfl⟩
  have followsNext : FollowsSome codec
      { session with conn := session.conn.startLoading prot options world } finished isRead [] :=
    followsLoading.issueRecords
  have wasAtRest := sound.atRest notStarted
  have restsLoading : loading.AtRest := ⟨wasAtRest.writeState, wasAtRest.timer, wasAtRest.logged⟩
  have atRest : (session.conn.startLoading prot options world).AtRest :=
    restsLoading.issueRecords
  have frame : Connection.Frame loading (session.conn.startLoading prot options world) :=
    Connection.frame_issueRecords _ loading
  have isLoading := Connection.loading_startLoading prot options world noneQueued
  have quiet := followsNext.quiet
  obtain ⟨later, followsNext⟩ := followsNext
  refine ⟨⟨_, _, _, _, followsNext, .loading _ isLoading atRest,
    frame.counted ⟨sound.counted.gets, sound.counted.sets⟩, ?_, ?_⟩, quiet⟩
  · exact fun isStarted => absurd atRest.writeState isStarted
  · exact fun isStarted => absurd atRest.writeState isStarted

/-- `reset`. -/
theorem reset (sound : Sound codec options world session finished queued isRead unread)
    (isIdle : session.conn.readState = .IDLE) :
    ∃ conn, session.conn.reset = .ok conn ∧
      Good codec options world { session with conn, settled := session.replies.length } := by
  obtain ⟨running, noneQueued⟩ := sound.idle isIdle
  refine ⟨_, if_pos noneQueued,
    ⟨_, _, _, _, sound.follows.reset noneQueued, ?_, ⟨rfl, rfl⟩, ?_, ?_⟩, .inl noneQueued⟩
  · refine .running ⟨?_, running.inDepth⟩ fun _ => ⟨⟨rfl, rfl, rfl⟩, noneQueued⟩
    change ReadState.IDLE = Connection.expected session.conn.opQueue
    rw [noneQueued]
    rfl
  · exact fun isStarted => absurd rfl isStarted
  · exact fun isStarted => absurd rfl isStarted

/-- What arrives is a part of a response to a request in the queue. -/
theorem busy (sound : Sound codec options world session finished queued isRead unread) {count : ℕ}
    (somePiece : session.wire.take count ≠ []) : session.conn.opQueue ≠ [] := by
  intro noneQueued
  have follows := sound.follows
  rw [follows.unread_eq_nil noneQueued] at follows
  rw [follows.nothing_unread.2, List.take_nil] at somePiece
  exact somePiece rfl

/-- A piece that has arrived and has not been looked at. -/
theorem arriving (sound : Sound codec options world session finished queued isRead unread)
    (count : ℕ) :
    IsSound codec options world { session with
      conn := { session.conn with input := session.conn.input ++ session.wire.take count }
      wire := session.wire.drop count } := by
  refine ⟨_, _, _, _, sound.follows.arrive count, ?_, ⟨sound.counted.gets, sound.counted.sets⟩,
    sound.recorded, sound.awake⟩
  cases sound.phase with
  | unconnected readState atRest none_issued =>
      exact .unconnected readState ⟨atRest.writeState, atRest.timer, atRest.logged⟩ none_issued
  | loading base isLoading atRest =>
      exact .loading base ⟨isLoading.readState, isLoading.allSet, isLoading.ahead,
        isLoading.outstanding, isLoading.issued⟩
        ⟨atRest.writeState, atRest.timer, atRest.logged⟩
  | running running rests =>
      refine .running ⟨running.readState, running.inDepth⟩ fun notStarted => ?_
      obtain ⟨atRest, noneQueued⟩ := rests notStarted
      exact ⟨⟨atRest.writeState, atRest.timer, atRest.logged⟩, noneQueued⟩

end Sound

variable [Sub T] [OfScientific T]

namespace Sound

/-- `start`, for the warm-up or the measurement. -/
theorem start (sound : Sound codec options world session finished queued isRead unread)
    (isIdle : session.conn.readState = .IDLE)
    (notStarted : session.conn.writeState = .INIT_WRITE) (time : T) :
    Outcome (fun conn => Good codec options world
        { session with conn, started := session.replies.length })
      (Connection.Skips options) (session.conn.start prot options world time) := by
  obtain ⟨running, noneQueued⟩ := sound.idle isIdle
  have follows := sound.follows
  rw [follows.unread_eq_nil noneQueued] at follows
  have allRead : session.replies.length = finished.length := by
    rw [follows.replies, List.append_nil]
    exact follows.read_length
  have atRest := sound.atRest notStarted
  let begun : Connection π T := { session.conn with
    startTime := world.clock session.conn.readings
    time
    readings := session.conn.readings + 1 }
  have followsBegun : Follows codec
      { session with conn := begun, started := session.replies.length } finished queued isRead [] :=
    (follows.restart session.replies.length).congr rfl rfl rfl rfl rfl rfl rfl
  have recorded : begun.logged =
      (finished.drop session.replies.length).map Request.op := by
    rw [allRead, List.drop_length]
    exact atRest.logged
  refine (drive_outcome options world followsBegun ⟨running.readState, running.inDepth⟩
    ⟨sound.counted.gets, sound.counted.sets⟩
    (fun _ => ⟨⟨atRest.writeState, atRest.timer, atRest.logged⟩, noneQueued⟩) allRead.le
    recorded).imp ?_
  rintro next - ⟨⟨later, soundNext⟩, -, -⟩
  exact ⟨⟨_, _, _, _, soundNext⟩, FollowsSome.quiet ⟨later, soundNext.follows⟩⟩

/-- `timer_callback`. -/
theorem timer (sound : Sound codec options world session finished queued isRead unread)
    (quiet : Quiet prot session.conn) (isSet : session.conn.timer = true) :
    Outcome (fun conn => Good codec options world { session with conn })
      (Connection.Skips options) (session.conn.timerCallback prot options world) := by
  have isStarted : session.conn.writeState ≠ .INIT_WRITE := by
    intro notStarted
    have notSet := (sound.atRest notStarted).timer
    rw [isSet] at notSet
    cases notSet
  have running : session.conn.Running options := by
    cases sound.phase with
    | unconnected _ atRest _ => exact absurd atRest.writeState isStarted
    | loading _ _ atRest => exact absurd atRest.writeState isStarted
    | running running _ => exact running
  obtain ⟨started, recorded⟩ := sound.recorded isStarted
  let stopped : Connection π T := { session.conn with timer := false }
  have followsStopped : Follows codec { session with conn := stopped } finished queued isRead
      unread := sound.follows.congr rfl rfl rfl rfl rfl rfl rfl
  refine (drive_outcome options world followsStopped ⟨running.readState, running.inDepth⟩
    ⟨sound.counted.gets, sound.counted.sets⟩ (fun notStarted => absurd notStarted isStarted)
    started recorded).imp ?_
  rintro next returned ⟨⟨later, soundNext⟩, -, -⟩
  exact ⟨⟨_, _, _, _, soundNext⟩,
    quiet_driven followsStopped quiet (Connection.driven_driveWriteMachine returned)⟩

/-- `read_callback`, when a piece has arrived. -/
theorem arrive (sound : Sound codec options world session finished queued isRead unread)
    {count : ℕ} (somePiece : session.wire.take count ≠ []) :
    Outcome (fun conn => Good codec options world
        { session with conn, wire := session.wire.drop count })
      (Connection.Skips options)
      (Connection.readCallback prot options world
        { session.conn with input := session.conn.input ++ session.wire.take count }) := by
  have busy := sound.busy somePiece
  have ready : Ready
      { session.conn with input := session.conn.input ++ session.wire.take count } := by
    refine ⟨?_, fun _ => busy⟩
    change session.conn.readState ≠ .INIT_READ
    intro isInit
    cases sound.phase with
    | unconnected _ _ none_issued => exact sound.follows.issued_ne_nil busy none_issued
    | loading _ isLoading _ =>
        have readState := isLoading.readState
        rw [isInit] at readState
        cases readState
    | running running _ => exact (Ready.of_running running).isConnected isInit
  exact (readCallback_outcome (sound.arriving count) ready).imp
    fun next _ outcome => ⟨outcome.1, outcome.2⟩

end Sound

theorem step_outcome (isGood : Good codec options world session) (event : SessionEvent ρ T) :
    Outcome (Good codec options world) (MayStop options)
      (session.step codec options world event) := by
  obtain ⟨⟨finished, queued, isRead, unread, sound⟩, quiet⟩ := isGood
  cases event with
  | connected =>
      rw [step]
      split
      · rename_i isNew
        exact sound.connected isNew
      · exact .inl rfl
  | startLoading =>
      rw [step]
      split
      · rename_i isIdle
        exact sound.startLoading isIdle.1 isIdle.2
      · exact .inl rfl
  | start time =>
      rw [step]
      split
      · rename_i isIdle
        exact outcome_call (sound.start isIdle.1 isIdle.2 time)
      · exact .inl rfl
  | timer =>
      rw [step]
      split
      · rename_i isSet
        exact outcome_call (sound.timer quiet isSet)
      · exact .inl rfl
  | reset =>
      rw [step]
      split
      · rename_i isIdle
        obtain ⟨conn, isReset, isGood⟩ := sound.reset isIdle
        rw [isReset, ok_bind]
        exact isGood
      · exact .inl rfl
  | answer reply =>
      rw [step]
      split
      · rename_i request isNext
        split
        · rename_i fits
          exact ⟨⟨_, _, _, _, sound.follows.answer isNext fits, sound.phase, sound.counted,
            sound.recorded, sound.awake⟩, quiet⟩
        · exact .inl rfl
      · exact .inl rfl
  | arrive count =>
      rw [step]
      split
      · exact .inl rfl
      · rename_i somePiece
        exact outcome_call (sound.arrive somePiece)

/-- Every state of a run is good. -/
theorem good_along (codec : Codec prot ρ) (options : Options) (world : World T)
    (events : List (SessionEvent ρ T)) :
    AlongRun (step codec options world) (initial codec) events fun _ session =>
      Good codec options world session := by
  refine alongRun_of_preserved events .initial ?_
  intro early session event next isGood stepped
  exact (step_outcome isGood event).of_ok stepped

/-- No assertion of a connection fails and no call exits, whatever happens. A call returns, unless
the loop that skips transmissions goes on for ever. -/
theorem stops_along (codec : Codec prot ρ) (options : Options) (world : World T)
    (events : List (SessionEvent ρ T)) :
    AtEachStep (step codec options world) (initial codec) events fun _ session event =>
      Outcome (fun _ => True) (MayStop options) (session.step codec options world event) := by
  intro early event isPrefix session reached
  have shorter : early <+: events := (List.prefix_append early [event]).trans isPrefix
  have isGood := good_along codec options world events early shorter session reached
  exact (step_outcome isGood event).imp fun _ _ _ => trivial

/-! ## What a connection has finished -/

/-- The requests are written in order, and finished in that order, each after its response. -/
structure InOrder (codec : Codec prot ρ) (session : Session π ρ T) : Prop where
  written : session.conn.output = (session.conn.issued.map codec.request).flatten
  finished_le : session.finishedCount ≤ session.replies.length
  replies_le : session.replies.length ≤ session.conn.issued.length
  queued : session.conn.opQueue = (session.conn.issued.drop session.finishedCount).map Request.op
  logged : session.conn.writeState = .INIT_WRITE ∧ session.conn.logged = [] ∨
    session.conn.logged =
      ((session.conn.issued.take session.finishedCount).drop session.started).map Request.op
  counted : session.conn.Counted

theorem inOrder_along (codec : Codec prot ρ) (options : Options) (world : World T)
    (events : List (SessionEvent ρ T)) :
    AlongRun (step codec options world) (initial codec) events fun _ session =>
      session.InOrder codec := by
  intro early isPrefix session reached
  obtain ⟨⟨finished, queued, isRead, unread, sound⟩, -⟩ :=
    good_along codec options world events early isPrefix session reached
  have follows := sound.follows
  have isFinished := follows.finished_eq
  refine ⟨follows.output, ?_, follows.replies_length_le, ?_, ?_, sound.counted⟩
  · rw [isFinished, follows.replies, List.length_append, follows.read_length]
    exact Nat.le_add_right _ _
  · rw [isFinished, follows.issued, List.drop_left]
    exact follows.opQueue
  · by_cases notStarted : session.conn.writeState = .INIT_WRITE
    · exact .inl ⟨notStarted, (sound.atRest notStarted).logged⟩
    · right
      rw [isFinished, follows.issued, List.take_left]
      exact (sound.recorded notStarted).2

/-- While the write machine runs, the queue holds no more operations than the depth, and there is a
reason for the machine to be driven again. -/
theorem awake_along (codec : Codec prot ρ) (options : Options) (world : World T)
    (events : List (SessionEvent ρ T)) :
    AlongRun (step codec options world) (initial codec) events fun _ session =>
      session.conn.AtRest ∨ session.conn.opQueue.length ≤ options.depth ∧
        session.conn.Awake options world := by
  intro early isPrefix session reached
  obtain ⟨⟨finished, queued, isRead, unread, sound⟩, -⟩ :=
    good_along codec options world events early isPrefix session reached
  cases sound.phase with
  | unconnected _ atRest _ => exact .inl atRest
  | loading _ _ atRest => exact .inl atRest
  | running running rests =>
      by_cases notStarted : session.conn.writeState = .INIT_WRITE
      · exact .inl (rests notStarted).1
      · exact .inr ⟨running.inDepth, sound.awake notStarted⟩

/-- Once all that the server has sent has arrived, a connection has finished each answered request.
Its counts are those of the responses since the last reset. -/
theorem finished_of_arrived {events : List (SessionEvent ρ T)}
    (reached : run (step codec options world) (initial codec) events = .ok session)
    (arrived : session.wire = []) :
    session.finishedCount = session.replies.length ∧
      session.conn.stats.rxBytes =
        ((session.replies.drop session.settled).map codec.rxBytes).sum ∧
      session.conn.stats.getMisses + codec.missesOf (codec.origin session.conn.issued)
          (session.answers.take session.settled) =
        codec.missesOf (codec.origin session.conn.issued) session.answers := by
  have isGood := good_along codec options world events events (List.prefix_refl _) session reached
  obtain ⟨finished, queued, isRead, unread, sound⟩ := isGood.isSound
  have follows := sound.follows
  have none_unread := isGood.unread_eq_nil arrived follows
  rw [none_unread] at follows
  obtain ⟨rxBytes, getMisses, isStream, countsBytes, countsMisses⟩ := follows.stream
  obtain ⟨-, -, rfl, rfl⟩ := isStream.eq_of_nil
  refine ⟨?_, ?_, countsMisses⟩
  · rw [follows.finished_eq, follows.replies, List.append_nil]
    exact follows.read_length.symm
  · rw [← countsBytes, add_zero]

end Session

end Datamime.Mutilate
