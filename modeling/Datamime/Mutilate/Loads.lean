/-
# Loading the records

While the server answers and its responses arrive, a load goes on: it issues each record once, in
order, and is over precisely when all of them have been answered. Until then there is a request to
answer or a response on its way.
-/

import Datamime.Mutilate.AsciiReplies

namespace Datamime.Mutilate

open Datamime.Math

variable {π ρ T : Type} {prot : Protocol π} [LinearOrder T] [Add T] [Sub T] [OfScientific T]
  {options : Options} {world : World T}

/-- What happens while the main loop waits for a load. -/
def SessionEvent.ofServer : SessionEvent ρ T → Bool
  | .answer _ | .arrive _ => true
  | _ => false

namespace Session

variable {codec : Codec prot ρ} {session : Session π ρ T} {base : List Request}

/-- How far a load has come. -/
def LoadsOn (options : Options) (world : World T) (base : List Request) (conn : Connection π T) :
    Prop :=
  conn.Loaded options world base ∨
    conn.Loading options world base (conn.loaderCompleted + Connection.LOADER_CHUNK) ∧
      (conn.opQueue ≠ [] ∨ options.records = 0)

/-- `read_callback` takes a load further. -/
theorem loadCallback_outcome (isSound : IsSound codec options world session)
    (atRest : session.conn.AtRest) (loads : LoadsOn options world base session.conn)
    (busy : session.conn.opQueue ≠ []) :
    Outcome (fun next => next.AtRest ∧ LoadsOn options world base next)
      (Connection.Skips options) (session.conn.readCallback prot options world) := by
  have goesOn : session.conn.Loading options world base
      (session.conn.loaderCompleted + Connection.LOADER_CHUNK) := by
    rcases loads with isLoaded | ⟨goesOn, -⟩
    · exact absurd isLoaded.opQueue busy
    · exact goesOn
  refine loop_outcome
    (fun conn => IsSound codec options world { session with conn } ∧ conn.AtRest ∧
      (conn.Loaded options world base ∨
        conn.Loading options world base (conn.loaderCompleted + Connection.LOADER_CHUNK) ∧
          conn.opQueue ≠ []))
    (fun conn => conn.input.length) ?_ ⟨isSound, atRest, .inr ⟨goesOn, busy⟩⟩ (by omega)
  rintro conn ⟨⟨finished, queued, isRead, unread, sound⟩, atRest, isLoaded | ⟨goesOn, busy⟩⟩
  · rw [Connection.readTurn, isLoaded.readState]
    exact ⟨atRest, .inl isLoaded⟩
  · refine (loadingTurn_outcome sound goesOn atRest busy).imp ?_
    rintro ⟨next, isOver⟩ - outcome
    cases isOver with
    | true =>
        obtain ⟨rfl, -⟩ := outcome
        exact ⟨atRest, .inr ⟨goesOn, .inl busy⟩⟩
    | false => exact outcome

/-- A session whose connection loads. -/
structure IsLoading (codec : Codec prot ρ) (options : Options) (world : World T)
    (base : List Request) (session : Session π ρ T) : Prop where
  isGood : Good codec options world session
  atRest : session.conn.AtRest
  loads : LoadsOn options world base session.conn

/-- What the server does takes a load further. -/
theorem IsLoading.step_outcome (isLoading : IsLoading codec options world base session)
    {event : SessionEvent ρ T} (ofServer : event.ofServer = true) :
    Outcome (IsLoading codec options world base) (MayStop options)
      (session.step codec options world event) := by
  have kept := Session.step_outcome isLoading.isGood event
  cases event with
  | connected => cases ofServer
  | startLoading => cases ofServer
  | start time => cases ofServer
  | timer => cases ofServer
  | reset => cases ofServer
  | answer reply =>
      rw [step] at kept ⊢
      split
      · rename_i request isNext
        rw [isNext] at kept
        dsimp only at kept
        split
        · rename_i fits
          rw [if_pos fits] at kept
          exact ⟨kept, isLoading.atRest, isLoading.loads⟩
        · exact .inl rfl
      · exact .inl rfl
  | arrive count =>
      rw [step] at kept ⊢
      split
      · exact .inl rfl
      · rename_i somePiece
        rw [if_neg somePiece] at kept
        obtain ⟨finished, queued, isRead, unread, sound⟩ := isLoading.isGood.isSound
        have busy := sound.busy somePiece
        let arrived : Connection π T :=
          { session.conn with input := session.conn.input ++ session.wire.take count }
        have restsArrived : arrived.AtRest :=
          ⟨isLoading.atRest.writeState, isLoading.atRest.timer, isLoading.atRest.logged⟩
        have loadsArrived : LoadsOn options world base arrived := by
          rcases isLoading.loads with isLoaded | ⟨goesOn, -⟩
          · exact absurd isLoaded.opQueue busy
          · exact .inr ⟨⟨goesOn.readState, goesOn.allSet, goesOn.ahead, goesOn.outstanding,
              goesOn.issued⟩, .inl busy⟩
        have loaded := loadCallback_outcome (sound.arriving count) restsArrived loadsArrived busy
        have also : Outcome (fun next : Session π ρ T =>
            next.conn.AtRest ∧ LoadsOn options world base next.conn) (MayStop options)
            (call { session with wire := session.wire.drop count }
              (arrived.readCallback prot options world)) := outcome_call loaded
        exact (kept.and also).imp fun next _ outcome =>
          ⟨outcome.1, outcome.2.1, outcome.2.2⟩

/-- A load that the main loop has begun. -/
theorem IsLoading.begun {begun : Session π ρ T} (isGood : Good codec options world session)
    (begins : session.step codec options world .startLoading = .ok begun) :
    IsLoading codec options world session.conn.issued begun := by
  have goodBegun := (Session.step_outcome isGood .startLoading).of_ok begins
  obtain ⟨finished, queued, isRead, unread, sound⟩ := isGood.isSound
  rw [step] at begins
  split at begins
  · rename_i isIdle
    cases begins
    have isLoading := Connection.loading_startLoading prot options world (sound.idle isIdle.1).2
    refine ⟨goodBegun, ?_, .inr ⟨isLoading, ?_⟩⟩
    · obtain ⟨_, _, _, _, soundBegun⟩ := goodBegun.isSound
      cases soundBegun.phase with
      | unconnected _ atRest _ => exact atRest
      | loading _ _ atRest => exact atRest
      | running running _ => exact absurd isLoading.readState running.ne_loading
    · by_cases noRecords : options.records = 0
      · exact .inr noRecords
      · left
        intro noneQueued
        have outstanding := isLoading.outstanding
        have ahead := isLoading.ahead
        have chunk : Connection.LOADER_CHUNK = 1024 := rfl
        have noneLeft : (session.conn.startLoading prot options world).opQueue.length = 0 :=
          congrArg List.length noneQueued
        have noneCompleted : (session.conn.startLoading prot options world).loaderCompleted = 0 :=
          Connection.loaderCompleted_issueRecords prot options world Connection.LOADER_CHUNK _
        omega
  · cases begins

theorem IsLoading.run {begun last : Session π ρ T} {later : List (SessionEvent ρ T)}
    (isLoading : IsLoading codec options world base begun)
    (ofServer : ∀ event ∈ later, event.ofServer = true)
    (ran : Math.run (step codec options world) begun later = .ok last) :
    IsLoading codec options world base last := by
  induction later generalizing begun with
  | nil =>
      cases ran
      exact isLoading
  | cons event rest ih =>
      obtain ⟨next, stepped, ran⟩ := run_cons_eq_ok_iff.mp ran
      have isNext := (isLoading.step_outcome (ofServer event List.mem_cons_self)).of_ok stepped
      exact ih isNext (fun later isLater => ofServer later (List.mem_cons_of_mem _ isLater)) ran

/-- While only the server does something, a load has gone through the first records, keeps at most
`LOADER_CHUNK` of them under way and is not held up, or has gone through all of them. -/
theorem load_outcome {events later : List (SessionEvent ρ T)} {begun last : Session π ρ T}
    (reached : run (step codec options world) (initial codec) events = .ok session)
    (begins : session.step codec options world .startLoading = .ok begun)
    (ofServer : ∀ event ∈ later, event.ofServer = true)
    (ran : run (step codec options world) begun later = .ok last) :
    last.conn.Loaded options world session.conn.issued ∧
        last.replies.length = last.conn.issued.length ∨
      last.conn.Loading options world session.conn.issued
          (last.conn.loaderCompleted + Connection.LOADER_CHUNK) ∧
        last.conn.opQueue.length ≤ Connection.LOADER_CHUNK ∧
        (options.records = 0 ∨ last.wire ≠ [] ∨
          last.replies.length < last.conn.issued.length) := by
  have isGood := good_along codec options world events events (List.prefix_refl _) session reached
  have isLoading := (IsLoading.begun isGood begins).run ofServer ran
  obtain ⟨finished, queued, isRead, unread, sound⟩ := isLoading.isGood.isSound
  have follows := sound.follows
  rcases isLoading.loads with isLoaded | ⟨goesOn, some_left⟩
  · left
    refine ⟨isLoaded, ?_⟩
    rw [follows.replies, follows.issued, follows.unread_eq_nil isLoaded.opQueue,
      follows.queued_eq_nil isLoaded.opQueue, List.append_nil, List.append_nil]
    exact follows.read_length
  · right
    have outstanding := goesOn.outstanding
    have ahead := goesOn.ahead
    refine ⟨goesOn, by omega, ?_⟩
    rcases some_left with busy | noRecords
    · right
      by_contra heldUp
      obtain ⟨arrived, allAnswered⟩ := not_or.mp heldUp
      have none_unread := isLoading.isGood.unread_eq_nil (not_not.mp arrived) follows
      have isOpQueue := congrArg List.length follows.opQueue
      rw [List.length_map] at isOpQueue
      rw [follows.replies, follows.issued, none_unread, List.append_nil, List.length_append,
        follows.read_length] at allAnswered
      have some_queued := List.length_pos_iff.mpr busy
      omega
    · exact .inl noRecords

theorem oneRecord_loaded : ∃ session begun last,
    run (step asciiCodec oneAtATime oneRecord) (initial asciiCodec) [.connected] = .ok session ∧
      session.step asciiCodec oneAtATime oneRecord .startLoading = .ok begun ∧
      run (step asciiCodec oneAtATime oneRecord) begun
        [.answer (.status "STORED".toList), .arrive 3, .arrive 5] = .ok last ∧
      last.conn.Loaded oneAtATime oneRecord session.conn.issued := by
  have passes : (run (step asciiCodec oneAtATime oneRecord) (initial asciiCodec)
      [.connected]).toOption.any (fun session =>
        (session.step asciiCodec oneAtATime oneRecord .startLoading).toOption.any fun begun =>
          (run (step asciiCodec oneAtATime oneRecord) begun
            [.answer (.status "STORED".toList), .arrive 3, .arrive 5]).toOption.any fun last =>
              last.conn.readState = .IDLE) = true := by
    decide +kernel
  obtain ⟨session, reached, passes⟩ := exists_of_any passes
  obtain ⟨begun, begins, passes⟩ := exists_of_any passes
  obtain ⟨last, ran, isIdle⟩ := exists_of_any passes
  rcases load_outcome reached begins (by decide) ran with ⟨isLoaded, -⟩ | ⟨goesOn, -⟩
  · exact ⟨session, begun, last, reached, begins, ran, isLoaded⟩
  · have readState := of_decide_eq_true isIdle
    rw [goesOn.readState] at readState
    cases readState

end Session

end Datamime.Mutilate
