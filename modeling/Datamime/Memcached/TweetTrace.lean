/-
# Requests from a trace file

The load generator can replay a trace, of which each line is a request. A connection first loads
the server with the requests of some lines and then issues requests. Between the two it sets an
index of the trace generator back to zero. The generator counts this index up, but it takes each
request from the next line of an open file. So the requests of the run phase go on behind the lines
that were loaded.
-/

import Datamime.Fault
import Datamime.Math.CNumber
import Datamime.Math.Run
import Datamime.Math.TextStream

namespace Datamime.Memcached

open Datamime.Math

/-! ## The generator -/

inductive OpType
  | get
  | set
  deriving DecidableEq

/-- What a line of the trace asks for. -/
structure Tweet where
  key : List Char
  valsize : ℤ
  op : OpType
  deriving DecidableEq

/-- How a connection ends with an event. -/
inductive TweetError
  /-- `std::exit(1)`, after the message that there are no more tweets. -/
  | noMoreTweets
  /-- A field was read that the line does not have. -/
  | outOfRange
  /-- `std::stoi` threw. -/
  | badNumber
  /-- The key does not fit into its buffer. -/
  | keyTooLong
  /-- The assertion that a request is outstanding. -/
  | assertion
  /-- The program does not make this call in this state. -/
  | notCalled
  deriving DecidableEq

/-- The fields of a line, as `generate` collects them. Every round but the last takes a character
from the line. -/
def fieldsOf (line : List Char) : List (List Char) :=
  (InputStream.ofText line).fields ',' (line.length + 1)

/-- The fields are what stands between the commas. -/
theorem fieldsOf_eq (line : List Char) : fieldsOf line = line.splitOn ',' :=
  InputStream.fields_ofText ',' (Nat.lt_succ_self line.length)

/-- The request of a line. -/
def tweetOf (line : List Char) : Except TweetError Tweet := do
  let some op := (fieldsOf line)[5]? | .error .outOfRange
  let some key := (fieldsOf line)[1]? | .error .outOfRange
  let some size := (fieldsOf line)[3]? | .error .outOfRange
  match CNumber.stoi? size with
  | none => .error .badNumber
  | some valsize => .ok ⟨key, valsize, if op = "get".toList then .get else .set⟩

/-- `TweetGenerator`: the open file and the index. -/
structure TweetGenerator where
  twitTrace : InputStream
  idx : ℕ

/-- `generate`, with the operation that `getOp` returns afterwards. -/
def TweetGenerator.generate (self : TweetGenerator) : Except TweetError (Tweet × TweetGenerator) :=
  match self.twitTrace.nextLine? with
  | none => .error .noMoreTweets
  | some (line, twitTrace) => do return (← tweetOf line, { self with twitTrace })

def TweetGenerator.incTweetIdx (self : TweetGenerator) : TweetGenerator :=
  { self with idx := self.idx + 1 }

def TweetGenerator.resetTweetIdx (self : TweetGenerator) : TweetGenerator :=
  { self with idx := 0 }

/-- The index does not move the file. -/
@[simp]
theorem TweetGenerator.incTweetIdx_twitTrace (self : TweetGenerator) :
    self.incTweetIdx.twitTrace = self.twitTrace := rfl

/-- Neither does setting it back. -/
@[simp]
theorem TweetGenerator.resetTweetIdx_twitTrace (self : TweetGenerator) :
    self.resetTweetIdx.twitTrace = self.twitTrace := rfl

/-! ## The connection -/

def LOADER_CHUNK : ℕ := 1024

def KEY_SIZE : ℕ := 256

/-- A request to the server. -/
inductive Request
  | get (key : List Char)
  | set (key : List Char) (length : ℤ)
  deriving DecidableEq

def Request.op : Request → OpType
  | .get _ => .get
  | .set _ _ => .set

/-- The request that is issued for a line in the run phase. -/
def Tweet.request (tweet : Tweet) : Request :=
  match tweet.op with
  | .get => .get tweet.key
  | .set => .set tweet.key tweet.valsize

/-- The states of `read_state` of a connection that is set up. -/
inductive ReadState
  | idle
  | loading
  | waitingForGet
  | waitingForSet
  deriving DecidableEq

/-- A connection in the twitter mode. -/
structure Connection where
  tweetgen : TweetGenerator
  readState : ReadState
  opQueue : List OpType
  loaderIssued : ℕ
  loaderCompleted : ℕ
  /-- Whether it has finished loading and has called `resetTweetIdx`. -/
  loaded : Bool
  /-- The requests that were issued since then. -/
  requests : List Request

/-- A connection that is set up, with an open trace. -/
def Connection.fresh (trace : List Char) : Connection :=
  ⟨⟨.ofText trace, 0⟩, .idle, [], 0, 0, false, []⟩

namespace Connection

/-- The state in which the answer to an operation is waited for. -/
def waitingFor : OpType → ReadState
  | .get => .waitingForGet
  | .set => .waitingForSet

/-- `issue_get` and `issue_set`: the operation is queued. -/
def issue (conn : Connection) (op : OpType) : Connection :=
  { conn with
    opQueue := conn.opQueue ++ [op]
    readState := if conn.readState = .idle then waitingFor op else conn.readState }

/-- `strcpy` of a key into its buffer. -/
def checkKey (key : List Char) : Except TweetError Unit :=
  if key.length < KEY_SIZE then .ok () else .error .keyTooLong

/-- What all callers of the generator do: take a request from it and count the index up. -/
def takeTweet (conn : Connection) : Except TweetError (Tweet × Connection) := do
  let (tweet, tweetgen) ← conn.tweetgen.generate
  checkKey tweet.key
  return (tweet, { conn with tweetgen := tweetgen.incTweetIdx })

/-- One round of the loops that load: take a request and issue a set. -/
def issueLoad (conn : Connection) : Except TweetError Connection := do
  let (_, conn) ← conn.takeTweet
  return { conn.issue .set with loaderIssued := conn.loaderIssued + 1 }

/-- Rounds of the loops that load, up to the number of records. -/
def issueLoads (records : ℕ) (conn : Connection) : ℕ → Except TweetError Connection
  | 0 => .ok conn
  | rounds + 1 =>
      if records ≤ conn.loaderIssued then .ok conn
      else do issueLoads records (← conn.issueLoad) rounds

/-- `start_loading`. -/
def startLoading (records : ℕ) (conn : Connection) : Except TweetError Connection :=
  { conn with readState := .loading, loaderIssued := 0, loaderCompleted := 0 }.issueLoads records
    LOADER_CHUNK

/-- `issue_something`. -/
def issueSomething (conn : Connection) : Except TweetError Connection := do
  let (tweet, conn) ← conn.takeTweet
  return { conn.issue tweet.op with requests := conn.requests ++ [tweet.request] }

/-- `pop_op`. -/
def popOp (conn : Connection) : Connection :=
  let opQueue := conn.opQueue.tail
  if conn.readState = .loading then { conn with opQueue }
  else { conn with opQueue, readState := (opQueue.head?.map waitingFor).getD .idle }

/-- A request that loads has been answered. -/
def completeLoad (conn : Connection) : Connection :=
  { conn with loaderCompleted := conn.loaderCompleted + 1 }.popOp

/-- `read_callback` for one complete response. While it loads, the loop issues up to a chunk of
requests beyond the completed ones. -/
def readCallback (records : ℕ) (conn : Connection) : Except TweetError Connection :=
  if conn.readState = .idle then .ok conn
  else if conn.opQueue = [] then .error .assertion
  else if conn.readState = .loading then
    if conn.completeLoad.loaderCompleted = records then
      .ok { conn.completeLoad with
        readState := .idle
        tweetgen := conn.completeLoad.tweetgen.resetTweetIdx
        loaded := true }
    else
      conn.completeLoad.issueLoads records
        (conn.completeLoad.loaderCompleted + LOADER_CHUNK - conn.completeLoad.loaderIssued)
  else .ok conn.popOp

end Connection

/-- What happens to a connection: the program starts to load, the server responds, or the time of
the next request of the run phase has come. -/
inductive Event
  | startLoading
  | response
  | issue
  deriving DecidableEq

/-- The program starts to load once, and the run phase when the connection has loaded. -/
def step (records : ℕ) (conn : Connection) : Event → Except TweetError Connection
  | .startLoading => if conn.readState = .idle ∧ conn.loaded = false then conn.startLoading records
      else .error .notCalled
  | .response => conn.readCallback records
  | .issue => if conn.loaded then conn.issueSomething else .error .notCalled

/-! ## The order of the requests -/

/-- The request of a line, unless none can be made of it. -/
def requestOf (line : List Char) : Except TweetError Request := do
  let tweet ← tweetOf line
  Connection.checkKey tweet.key
  return tweet.request

/-- The request of a line of the trace, if there is such a line and a request can be made of it. -/
def requestAt (trace : List Char) (i : ℕ) : Option Request :=
  (Text.lines trace)[i]?.bind fun line => (requestOf line).toOption

/-- The request that a connection issues next. -/
def Connection.nextRequest (records : ℕ) (conn : Connection) : Option Request := do
  let next ← (step records conn .issue).toOption
  next.requests[conn.requests.length]?

/-- Whenever a request of the run phase is due, the one of the trace that has its number is issued,
or none if there is none. -/
def IssuesInOrder (trace : List Char) (records : ℕ) (events : List Event) : Prop :=
  AtEachStep (step records) (.fresh trace) events fun _ conn event =>
    event = .issue → conn.loaded = true →
      conn.nextRequest records = requestAt trace conn.requests.length

/-- The lines behind the loaded ones make the same requests as the first lines, up to the last
request that is due. -/
def RepeatsItself (trace : List Char) (records : ℕ) (events : List Event) : Prop :=
  AtEachStep (step records) (.fresh trace) events fun _ conn event =>
    event = .issue → conn.loaded = true →
      requestAt trace (records + conn.requests.length) = requestAt trace conn.requests.length

/-! ## What an event does -/

section

variable {trace : List Char} {records : ℕ} {conn next : Connection}

/-- A request is taken from the next line of the file, whatever the index is. -/
theorem takeTweet_cases {tweet : Tweet} (taken : conn.takeTweet = .ok (tweet, next)) :
    ∃ line, conn.tweetgen.twitTrace.lines = line :: next.tweetgen.twitTrace.lines ∧
      requestOf line = .ok tweet.request ∧ next = { conn with tweetgen := next.tweetgen } := by
  rcases bind_eq_ok_iff.mp taken with ⟨⟨made, gen⟩, generated, rest⟩
  rcases bind_eq_ok_iff.mp rest with ⟨⟨⟩, fits, same⟩
  cases same
  rw [TweetGenerator.generate] at generated
  rw [InputStream.lines_eq]
  cases isNext : conn.tweetgen.twitTrace.nextLine? with
  | none => simp [isNext] at generated
  | some read =>
      rcases read with ⟨line, twitTrace⟩
      simp only [isNext] at generated
      rcases bind_eq_ok_iff.mp generated with ⟨read, isRead, same⟩
      cases same
      refine ⟨line, rfl, ?_, rfl⟩
      simp [requestOf, isRead, fits, pure, Except.pure]

/-- If no request is taken, the next line does not have one. -/
theorem requestOf_of_not_taken {fault : TweetError} (failed : conn.takeTweet = .error fault) :
    (conn.tweetgen.twitTrace.lines.head?.bind fun line => (requestOf line).toOption) = none := by
  rw [InputStream.lines_eq]
  rw [Connection.takeTweet, TweetGenerator.generate] at failed
  cases isNext : conn.tweetgen.twitTrace.nextLine? with
  | none => rfl
  | some read =>
      simp only [isNext] at failed
      show (requestOf read.1).toOption = none
      rw [requestOf]
      cases isRead : tweetOf read.1 with
      | error other => rfl
      | ok tweet =>
          rw [ok_bind]
          cases fits : Connection.checkKey tweet.key with
          | error other => rfl
          | ok done => simp [isRead, fits] at failed

/-- What the lines are that were taken from the trace, and what is outstanding while it loads. -/
structure Connection.Follows (trace : List Char) (records : ℕ) (conn : Connection) : Prop where
  remaining : conn.tweetgen.twitTrace.lines =
    (Text.lines trace).drop (conn.loaderIssued + conn.requests.length)
  atMost : conn.loaderIssued ≤ records
  afterLoading : conn.loaded = true → conn.loaderIssued = records ∧ conn.readState ≠ .loading
  noneYet : conn.loaded = false → conn.requests = []
  whileLoading : conn.loaded = false → conn.readState = .loading →
    conn.loaderCompleted + conn.opQueue.length = conn.loaderIssued
  beforeLoading : conn.loaded = false → conn.readState ≠ .loading →
    conn.loaderIssued = 0 ∧ conn.opQueue = []

theorem follows_fresh (trace : List Char) (records : ℕ) :
    (Connection.fresh trace).Follows trace records where
  remaining := rfl
  atMost := Nat.zero_le records
  afterLoading := fun absurdity => nomatch absurdity
  noneYet := fun _ => rfl
  whileLoading := fun _ absurdity => nomatch absurdity
  beforeLoading := fun _ _ => ⟨rfl, rfl⟩

/-- The lines behind a line that was taken. -/
theorem lines_drop_succ {lines rest : List (List Char)} {line : List Char} {taken : ℕ}
    (isCons : lines.drop taken = line :: rest) : rest = lines.drop (taken + 1) := by
  rw [← List.tail_drop, isCons, List.tail_cons]

theorem follows_issueLoad (follows : conn.Follows trace records)
    (isLoading : conn.readState = .loading) (notLoaded : conn.loaded = false)
    (more : conn.loaderIssued < records) (issued : conn.issueLoad = .ok next) :
    next.Follows trace records ∧ next.readState = .loading ∧ next.loaded = false := by
  rcases bind_eq_ok_iff.mp issued with ⟨⟨tweet, taken⟩, isTaken, same⟩
  cases same
  rcases takeTweet_cases isTaken with ⟨line, isLine, -, frame⟩
  rw [frame]
  have isNone := follows.noneYet notLoaded
  have outstanding := follows.whileLoading notLoaded isLoading
  refine ⟨⟨?_, more, ?_, ?_, ?_, ?_⟩, ?_, notLoaded⟩
  · rw [follows.remaining, isNone] at isLine
    simpa [Connection.issue, isNone] using lines_drop_succ isLine
  · intro isLoaded
    cases notLoaded.symm.trans isLoaded
  · intro _
    exact isNone
  · intro _ _
    simp only [Connection.issue, List.length_append, List.length_singleton]
    omega
  · intro _ notLoading
    simp [Connection.issue, isLoading] at notLoading
  · simp [Connection.issue, isLoading]

theorem follows_issueLoads (follows : conn.Follows trace records)
    (isLoading : conn.readState = .loading) (notLoaded : conn.loaded = false) {rounds : ℕ}
    (issued : conn.issueLoads records rounds = .ok next) :
    next.Follows trace records := by
  induction rounds generalizing conn with
  | zero =>
      cases issued
      exact follows
  | succ rounds ih =>
      rw [Connection.issueLoads] at issued
      split at issued
      · cases issued
        exact follows
      · rename_i more
        rcases bind_eq_ok_iff.mp issued with ⟨middle, first, others⟩
        rcases follows_issueLoad follows isLoading notLoaded (not_le.mp more) first with
          ⟨followsMiddle, stillLoading, notLoadedYet⟩
        exact ih followsMiddle stillLoading notLoadedYet others

theorem follows_startLoading (follows : conn.Follows trace records)
    (notLoading : conn.readState ≠ .loading) (notLoaded : conn.loaded = false)
    (started : conn.startLoading records = .ok next) : next.Follows trace records := by
  rcases follows.beforeLoading notLoaded notLoading with ⟨noneIssued, noneQueued⟩
  have remaining := follows.remaining
  rw [noneIssued] at remaining
  have begins : Connection.Follows trace records
      { conn with readState := .loading, loaderIssued := 0, loaderCompleted := 0 } :=
    { remaining := remaining
      atMost := Nat.zero_le records
      afterLoading := fun isLoaded => by cases notLoaded.symm.trans isLoaded
      noneYet := follows.noneYet
      whileLoading := fun _ _ => by simp [noneQueued]
      beforeLoading := fun _ absurdity => absurd rfl absurdity }
  exact follows_issueLoads begins rfl notLoaded started

/-- A response that is waited for in the run phase. -/
theorem follows_popOp (follows : conn.Follows trace records)
    (notLoading : conn.readState ≠ .loading) (someQueued : conn.opQueue ≠ []) :
    conn.popOp.Follows trace records := by
  have isLoaded : conn.loaded = true := by
    by_contra notLoaded
    exact someQueued (follows.beforeLoading (Bool.eq_false_of_not_eq_true notLoaded) notLoading).2
  have popped : conn.popOp = { conn with
      opQueue := conn.opQueue.tail
      readState := (conn.opQueue.tail.head?.map Connection.waitingFor).getD .idle } := by
    simp [Connection.popOp, notLoading]
  have stillRunning : (conn.opQueue.tail.head?.map Connection.waitingFor).getD .idle ≠
      ReadState.loading := by
    cases conn.opQueue.tail.head? with
    | none => exact fun absurdity => nomatch absurdity
    | some op =>
        cases op with
        | get => exact fun absurdity => nomatch absurdity
        | set => exact fun absurdity => nomatch absurdity
  have notFresh {motive : Prop} (notLoaded : conn.loaded = false) : motive := by
    cases notLoaded.symm.trans isLoaded
  rw [popped]
  exact
    { remaining := follows.remaining
      atMost := follows.atMost
      afterLoading := fun _ => ⟨(follows.afterLoading isLoaded).1, stillRunning⟩
      noneYet := notFresh
      whileLoading := notFresh
      beforeLoading := notFresh }

/-- A response to a request that loads. After the last one, all records have been issued. -/
theorem follows_completeLoad (follows : conn.Follows trace records)
    (isLoading : conn.readState = .loading) (someQueued : conn.opQueue ≠ []) :
    conn.completeLoad.Follows trace records ∧ conn.completeLoad.readState = .loading ∧
      conn.completeLoad.loaded = false ∧
      (conn.completeLoad.loaderCompleted = records → conn.completeLoad.loaderIssued = records) := by
  have notLoaded : conn.loaded = false := by
    by_contra isLoaded
    exact (follows.afterLoading (Bool.eq_true_of_not_eq_false isLoaded)).2 isLoading
  have outstanding := follows.whileLoading notLoaded isLoading
  have atMost := follows.atMost
  have someLeft : 0 < conn.opQueue.length := List.length_pos_iff.mpr someQueued
  have completed : conn.completeLoad =
      { conn with loaderCompleted := conn.loaderCompleted + 1, opQueue := conn.opQueue.tail } := by
    simp [Connection.completeLoad, Connection.popOp, isLoading]
  simp only [completed]
  refine ⟨⟨follows.remaining, atMost, ?_, follows.noneYet, ?_, ?_⟩, isLoading, notLoaded, ?_⟩
  · exact fun isLoaded => by cases notLoaded.symm.trans isLoaded
  · intro _ _
    simp only [List.length_tail]
    omega
  · exact fun _ notLoading => absurd isLoading notLoading
  · intro isLast
    omega

theorem follows_readCallback (follows : conn.Follows trace records)
    (responded : conn.readCallback records = .ok next) : next.Follows trace records := by
  rw [Connection.readCallback] at responded
  split at responded
  · cases responded
    exact follows
  · split at responded
    · cases responded
    · rename_i someQueued
      split at responded
      · rename_i isLoading
        rcases follows_completeLoad follows isLoading someQueued with
          ⟨followsCompleted, stillLoading, notLoaded, allIssued⟩
        split at responded
        · rename_i isLast
          cases responded
          have noneYet := followsCompleted.noneYet notLoaded
          exact
            { remaining := followsCompleted.remaining
              atMost := followsCompleted.atMost
              afterLoading := fun _ => ⟨allIssued isLast, fun absurdity => nomatch absurdity⟩
              noneYet := fun _ => noneYet
              whileLoading := fun absurdity => nomatch absurdity
              beforeLoading := fun absurdity => nomatch absurdity }
        · exact follows_issueLoads followsCompleted stillLoading notLoaded responded
      · rename_i notLoading
        cases responded
        exact follows_popOp follows notLoading someQueued

theorem follows_issueSomething (follows : conn.Follows trace records)
    (isLoaded : conn.loaded = true) (issued : conn.issueSomething = .ok next) :
    next.Follows trace records := by
  rcases bind_eq_ok_iff.mp issued with ⟨⟨tweet, taken⟩, isTaken, same⟩
  cases same
  rcases takeTweet_cases isTaken with ⟨line, isLine, -, frame⟩
  rw [frame]
  rcases follows.afterLoading isLoaded with ⟨allIssued, notLoading⟩
  have notFresh {motive : Prop} (notLoaded : conn.loaded = false) : motive := by
    cases notLoaded.symm.trans isLoaded
  refine ⟨?_, follows.atMost, fun _ => ⟨allIssued, ?_⟩, notFresh, notFresh, notFresh⟩
  · rw [follows.remaining] at isLine
    simpa [Connection.issue, Nat.add_assoc] using lines_drop_succ isLine
  · rcases tweet with ⟨key, valsize, op⟩
    by_cases isIdle : conn.readState = .idle
    · cases op with
      | get => simp [Connection.issue, isIdle, Connection.waitingFor]
      | set => simp [Connection.issue, isIdle, Connection.waitingFor]
    · simp [Connection.issue, isIdle, notLoading]

/-- Every event takes as many lines from the trace as it issues requests. -/
theorem follows_step {event : Event} (follows : conn.Follows trace records)
    (stepped : step records conn event = .ok next) : next.Follows trace records := by
  cases event with
  | startLoading =>
      rw [step] at stepped
      split at stepped
      · rename_i isFresh
        exact follows_startLoading follows (by simp [isFresh.1]) isFresh.2 stepped
      · cases stepped
  | response => exact follows_readCallback follows stepped
  | issue =>
      rw [step] at stepped
      split at stepped
      · rename_i isLoaded
        exact follows_issueSomething follows isLoaded stepped
      · cases stepped

/-- The request that is issued next is that of the next line of the file. -/
theorem nextRequest_eq (isLoaded : conn.loaded = true) :
    conn.nextRequest records =
      conn.tweetgen.twitTrace.lines.head?.bind fun line => (requestOf line).toOption := by
  have isStep : step records conn .issue = conn.issueSomething := by rw [step, if_pos isLoaded]
  rw [Connection.nextRequest, isStep, Connection.issueSomething]
  cases isTaken : conn.takeTweet with
  | error fault =>
      rw [requestOf_of_not_taken isTaken]
      rfl
  | ok both =>
      rcases both with ⟨tweet, taken⟩
      rcases takeTweet_cases isTaken with ⟨line, isLine, isRequest, frame⟩
      rw [isLine, List.head?_cons, Option.bind_some, isRequest, frame]
      exact List.getElem?_concat_length

end

/-! ## All runs -/

/-- The requests of the run phase follow the trace precisely as long as the lines behind the loaded
ones repeat the first lines. -/
theorem issuesInOrder_iff (trace : List Char) (records : ℕ) (events : List Event) :
    IssuesInOrder trace records events ↔ RepeatsItself trace records events := by
  apply atEachStep_congr (follows_fresh trace records)
    (fun _ _ _ follows _ _ stepped => follows_step follows stepped)
    (fun conn event follows _ => ?_) (fun _ _ _ _ _ => trivial)
  apply forall₂_congr
  intro isIssue isLoaded
  rw [nextRequest_eq isLoaded, follows.remaining, (follows.afterLoading isLoaded).1,
    List.head?_drop, requestAt, requestAt]

/-- A trace of two lines. -/
def twoLines : List Char := "0,k,1,2,0,get\n0,m,1,2,0,get\n".toList

/-- The connection after it has loaded one record of the two lines. -/
def oneLoaded : Connection :=
  ⟨⟨.ofText "0,m,1,2,0,get\n".toList, 0⟩, .idle, [], 1, 1, true, []⟩

theorem run_oneLoaded :
    run (step 1) (.fresh twoLines) [.startLoading, .response] = .ok oneLoaded := by
  rfl

/-- The index is zero then, but the first request of the run phase is that of the second line. -/
theorem second_line_first : ¬ IssuesInOrder twoLines 1 [.startLoading, .response, .issue] := by
  intro inOrder
  have same := inOrder [.startLoading, .response] .issue (List.prefix_refl _) oneLoaded
    run_oneLoaded rfl rfl
  revert same
  decide

end Datamime.Memcached
