/-
# The phases of a connection

A connection is set up, loads records, or issues requests in time. While it issues, it waits for
the response to the operation at the front of its queue, and the queue never holds more operations
than its depth. A write machine that waits has a full queue or has set its timer, unless it has
come to the end of its time, so that no connection is left behind.
-/

import Datamime.Mutilate.Matching

namespace Datamime.Mutilate

open Datamime.Math

variable {π ρ T : Type} {prot : Protocol π}

namespace Connection

/-- What the operations in the queue let a connection wait for. -/
def expected : List Operation → ReadState
  | [] => .IDLE
  | op :: _ => waitingFor op.type

/-- A connection that issues requests, or may begin to. -/
structure Running (options : Options) (conn : Connection π T) : Prop where
  readState : conn.readState = expected conn.opQueue
  inDepth : conn.opQueue.length ≤ options.depth

/-- The write machine has not been started since the last reset. -/
structure AtRest (conn : Connection π T) : Prop where
  writeState : conn.writeState = .INIT_WRITE
  timer : conn.timer = false
  logged : conn.logged = []

/-- The counts of the requests are those of the recorded operations. -/
structure Counted (conn : Connection π T) : Prop where
  gets : conn.stats.gets = conn.logged.countP (·.type = .GET)
  sets : conn.stats.sets = conn.logged.countP (·.type = .SET)

variable {conn next : Connection π T} {options : Options} {world : World T}

namespace Running

theorem retimed (running : Running options conn) (same : Retimed conn next) :
    Running options next := by
  refine ⟨?_, ?_⟩
  · rw [same.readState, same.opQueue]
    exact running.readState
  · rw [same.opQueue]
    exact running.inDepth

theorem issue (running : Running options conn) (hasRoom : conn.opQueue.length < options.depth)
    (request : Request) : Running options (conn.issue prot request) := by
  have isExpected := running.readState
  refine ⟨?_, ?_⟩
  · change (if conn.readState = .IDLE then waitingFor request.op.type else conn.readState) =
      expected (conn.opQueue ++ [request.op])
    rw [isExpected]
    cases conn.opQueue with
    | nil => rfl
    | cons op later =>
        rw [if_neg]
        · rfl
        · rw [expected]
          cases op.type <;> decide
  · change (conn.opQueue ++ [request.op]).length ≤ options.depth
    rw [List.length_append]
    exact hasRoom

end Running

section

variable [LinearOrder T] [Add T] [Sub T] [OfScientific T]

/-- The end of the time, as the write machine saw it, or a reason to drive it again: a timer, or a
response that is due because the queue is full. -/
def Awake (options : Options) (world : World T) (conn : Connection π T) : Prop :=
  conn.timer = true ∨ options.depth ≤ conn.opQueue.length ∨
    ∃ reading < conn.readings, conn.checkExitCondition options (world.clock reading) = true

/-- More turns than the write machine takes. -/
def turnsLeft (options : Options) (now : T) (conn : Connection π T) : ℕ :=
  match conn.writeState with
  | .INIT_WRITE => options.depth - conn.opQueue.length + 4
  | .ISSUING => options.depth - conn.opQueue.length + 2
  | .WAITING_FOR_TIME =>
      if now < conn.nextTime then 1 else options.depth - conn.opQueue.length + 3
  | .WAITING_FOR_OPQ => options.depth - conn.opQueue.length + 3

/-- Only the loop that skips transmissions may go on for ever. -/
def Skips (options : Options) (stop : Stop) : Prop :=
  stop = .endless ∧ options.skip = true ∧ options.hasLambda = true

theorem skipLoop_outcome (world : World T) (now : T) (turns : ℕ) (conn : Connection π T) :
    Outcome (fun next => next.writeState = conn.writeState ∧ next.opQueue = conn.opQueue)
      (fun stop => stop = .endless) (conn.skipLoop world now turns) := by
  induction turns generalizing conn with
  | zero => exact rfl
  | succ turns ih =>
      rw [skipLoop]
      split
      · exact ih _
      · exact ⟨rfl, rfl⟩

theorem issueNext_outcome (conn : Connection π T) (now : T) :
    Outcome (fun next => next.writeState = conn.writeState ∧
        next.opQueue.length = conn.opQueue.length + 1)
      (Skips options) (conn.issueNext prot options world now) := by
  have state : ((conn.issueSomething prot world).advance world).writeState = conn.writeState := by
    rw [issueSomething_eq]
    rfl
  have longer : ((conn.issueSomething prot world).advance world).opQueue.length =
      conn.opQueue.length + 1 := by
    rw [issueSomething_eq]
    exact List.length_append
  unfold issueNext
  dsimp only
  split
  · rename_i skips
    simp only [Bool.and_eq_true] at skips
    have looped := skipLoop_outcome world now world.patience
      ((conn.issueSomething prot world).advance world)
    revert looped
    cases skipLoop world now world.patience ((conn.issueSomething prot world).advance world) with
    | ok next =>
        rintro ⟨sameState, sameQueue⟩
        exact ⟨sameState.trans state, (congrArg List.length sameQueue).trans longer⟩
    | error stop => exact fun isEndless => ⟨isEndless, skips.1.1.1, skips.1.1.2⟩
  · exact ⟨state, longer⟩

/-- A turn either ends with a reason to be driven again, or leaves fewer turns. -/
theorem writeTurn_outcome (conn : Connection π T) (now : T) :
    Outcome (fun taken => taken.1.writeState ≠ .INIT_WRITE ∧
        if taken.2 then Awake options world taken.1
        else turnsLeft options now taken.1 < turnsLeft options now conn)
      (Skips options) (conn.writeTurn prot options world now) := by
  cases isState : conn.writeState with
  | INIT_WRITE =>
      simp only [writeTurn, isState]
      refine ⟨WriteState.noConfusion, ?_⟩
      rw [if_neg Bool.false_ne_true]
      simp only [turnsLeft, isState]
      split <;> omega
  | ISSUING =>
      simp only [writeTurn, isState]
      split
      · rename_i isFull
        exact ⟨WriteState.noConfusion, .inr (.inl isFull)⟩
      · rename_i hasRoom
        split
        · rename_i early
          refine ⟨WriteState.noConfusion, ?_⟩
          rw [if_neg Bool.false_ne_true]
          simp only [turnsLeft, isState, if_pos early]
          omega
        · split
          · exact ⟨WriteState.noConfusion, .inl rfl⟩
          · refine (issueNext_outcome conn now).bind ?_
            rintro next ⟨sameState, longer⟩
            rw [isState] at sameState
            refine ⟨fun same => WriteState.noConfusion (sameState.symm.trans same), ?_⟩
            rw [if_neg Bool.false_ne_true]
            simp only [turnsLeft, sameState, isState, longer]
            omega
  | WAITING_FOR_TIME =>
      simp only [writeTurn, isState]
      split
      · exact ⟨WriteState.noConfusion, .inl rfl⟩
      · rename_i isTime
        refine ⟨WriteState.noConfusion, ?_⟩
        rw [if_neg Bool.false_ne_true]
        simp only [turnsLeft, isState, if_neg isTime]
        omega
  | WAITING_FOR_OPQ =>
      simp only [writeTurn, isState]
      split
      · rename_i isFull
        exact ⟨fun same => WriteState.noConfusion (isState.symm.trans same), .inr (.inl isFull)⟩
      · refine ⟨WriteState.noConfusion, ?_⟩
        rw [if_neg Bool.false_ne_true]
        simp only [turnsLeft, isState]
        omega

/-- What a call of the write machine leaves behind. -/
structure Drove (prot : Protocol π) (options : Options) (world : World T)
    (conn next : Connection π T) : Prop where
  driven : Driven prot options conn next
  awake : Awake options world next
  rests : next.writeState = .INIT_WRITE →
    conn.writeState = .INIT_WRITE ∧ next.timer = conn.timer ∧ next.opQueue = conn.opQueue

theorem writeLoop_outcome (conn : Connection π T) (now : T) :
    Outcome (fun next => next.writeState ≠ .INIT_WRITE ∧ Awake options world next)
      (Skips options) (loop .endless (writeTurn prot options world now)
        (options.depth - conn.opQueue.length + 5) conn) := by
  have enough : turnsLeft options now conn < options.depth - conn.opQueue.length + 5 := by
    rw [turnsLeft]
    cases conn.writeState <;> dsimp only
    case WAITING_FOR_TIME => split <;> omega
    all_goals omega
  refine loop_outcome (fun _ => True) (turnsLeft options now) ?_ trivial enough
  intro state _
  refine (writeTurn_outcome state now).imp ?_
  rintro ⟨next, isOver⟩ - ⟨started, outcome⟩
  cases isOver with
  | true => exact ⟨started, outcome⟩
  | false => exact ⟨trivial, outcome⟩

theorem driveWriteMachine_outcome (conn : Connection π T) :
    Outcome (Drove prot options world conn) (Skips options)
      (conn.driveWriteMachine prot options world) := by
  have outcome : Outcome (fun next => Awake options world next ∧
      (next.writeState = .INIT_WRITE →
        conn.writeState = .INIT_WRITE ∧ next.timer = conn.timer ∧ next.opQueue = conn.opQueue))
      (Skips options) (conn.driveWriteMachine prot options world) := by
    unfold driveWriteMachine
    dsimp only
    split
    · rename_i isOver
      exact ⟨.inr (.inr ⟨conn.readings, Nat.lt_succ_self _, isOver⟩),
        fun atRest => ⟨atRest, rfl, rfl⟩⟩
    · refine (writeLoop_outcome { conn with readings := conn.readings + 1 } _).imp ?_
      rintro next - ⟨started, awake⟩
      exact ⟨awake, fun atRest => absurd atRest started⟩
  refine outcome.imp ?_
  rintro next returned ⟨awake, rests⟩
  exact ⟨driven_driveWriteMachine returned, awake, rests⟩

end

/-- The request for a record of the loader. -/
def loaderRequest (world : World T) (index : ℕ) : Request :=
  .set (world.record index).1 (world.record index).2

/-- A connection that loads and has gone through all records below the limit. -/
structure Loading (options : Options) (world : World T) (base : List Request) (limit : ℕ)
    (conn : Connection π T) : Prop where
  readState : conn.readState = .LOADING
  allSet : ∀ op ∈ conn.opQueue, op.type = .SET
  ahead : conn.loaderIssued = min options.records limit
  outstanding : conn.loaderCompleted + conn.opQueue.length = conn.loaderIssued
  issued : conn.issued = base ++ (List.range conn.loaderIssued).map (loaderRequest world)

/-- What a connection can be at. -/
inductive Phase (options : Options) (world : World T) (conn : Connection π T) : Prop
  | unconnected (readState : conn.readState = .INIT_READ) (atRest : conn.AtRest)
      (none_issued : conn.issued = [])
  | loading (base : List Request)
      (isLoading : Loading options world base (conn.loaderCompleted + LOADER_CHUNK) conn)
      (atRest : conn.AtRest)
  | running (isRunning : Running options conn)
      (rests : conn.writeState = .INIT_WRITE → conn.AtRest ∧ conn.opQueue = [])

/-! ## What driving and loading keep -/

theorem Driven.running (driven : Driven prot options conn next) (running : Running options conn) :
    Running options next :=
  driven.keeps (Running options) (fun _ _ running same => running.retimed same)
    (fun _ request running hasRoom => running.issue hasRoom request) running

/-- What driving the write machine does not change. -/
structure Frame (conn next : Connection π T) : Prop where
  input : next.input = conn.input
  logged : next.logged = conn.logged
  gets : next.stats.gets = conn.stats.gets
  sets : next.stats.sets = conn.stats.sets

theorem Frame.issue (prot : Protocol π) (frame : Frame conn next) (request : Request) :
    Frame conn (next.issue prot request) := by
  have stats := issue_stats prot next request
  exact ⟨frame.input, frame.logged, (congrArg ConnectionStats.gets stats).trans frame.gets,
    (congrArg ConnectionStats.sets stats).trans frame.sets⟩

theorem Driven.frame (driven : Driven prot options conn next) : Frame conn next := by
  refine driven.keeps (Frame conn) ?_ ?_ ⟨rfl, rfl, rfl, rfl⟩
  · intro first second frame same
    exact ⟨same.input.trans frame.input, same.logged.trans frame.logged,
      (congrArg ConnectionStats.gets same.stats).trans frame.gets,
      (congrArg ConnectionStats.sets same.stats).trans frame.sets⟩
  · intro first request frame _
    exact frame.issue prot request

theorem Frame.counted (frame : Frame conn next) (counted : conn.Counted) : next.Counted := by
  refine ⟨?_, ?_⟩
  · rw [frame.gets, frame.logged]
    exact counted.gets
  · rw [frame.sets, frame.logged]
    exact counted.sets

end Connection

end Datamime.Mutilate
