/-
# The loader of a connection

The loader issues the records of a connection in order, and keeps a fixed number of them under way
as long as there are more. When the last record has been answered the connection is idle.
-/

import Datamime.Mutilate.Phases

namespace Datamime.Mutilate

open Datamime.Math

variable {π ρ T : Type} {prot : Protocol π} {options : Options} {world : World T}

namespace Connection

variable {conn : Connection π T} {base : List Request} {limit : ℕ}

/-- The next record. -/
def issueRecord (prot : Protocol π) (world : World T) (conn : Connection π T) : Connection π T :=
  { conn.issue prot (loaderRequest world conn.loaderIssued) with
    loaderIssued := conn.loaderIssued + 1 }

theorem issueRecords_succ (turns : ℕ) (conn : Connection π T) :
    conn.issueRecords prot options world (turns + 1) =
      if options.records ≤ conn.loaderIssued then conn
      else (conn.issueRecord prot world).issueRecords prot options world turns := rfl

/-- What issuing a record keeps, issuing several of them keeps. -/
theorem issueRecords_keeps (good : Connection π T → Prop)
    (keeps : ∀ conn, good conn → good (conn.issueRecord prot world)) {turns : ℕ}
    (isGood : good conn) : good (conn.issueRecords prot options world turns) := by
  induction turns generalizing conn with
  | zero => exact isGood
  | succ turns ih =>
      rw [issueRecords_succ]
      split
      · exact isGood
      · exact ih (keeps conn isGood)

theorem AtRest.issueRecords {turns : ℕ} (atRest : conn.AtRest) :
    (conn.issueRecords prot options world turns).AtRest :=
  issueRecords_keeps AtRest
    (fun _ atRest => ⟨atRest.writeState, atRest.timer, atRest.logged⟩) atRest

theorem frame_issueRecords (turns : ℕ) (conn : Connection π T) :
    Frame conn (conn.issueRecords prot options world turns) := by
  refine issueRecords_keeps (Frame conn) ?_ ⟨rfl, rfl, rfl, rfl⟩
  intro middle frame
  have issued := frame.issue prot (loaderRequest world middle.loaderIssued)
  exact ⟨issued.input, issued.logged, issued.gets, issued.sets⟩

theorem loaderCompleted_issueRecords (prot : Protocol π) (options : Options) (world : World T)
    (turns : ℕ) (conn : Connection π T) :
    (conn.issueRecords prot options world turns).loaderCompleted = conn.loaderCompleted :=
  issueRecords_keeps (fun next => next.loaderCompleted = conn.loaderCompleted)
    (fun _ same => same) rfl

namespace Loading

theorem issueRecord (prot : Protocol π) (isLoading : Loading options world base limit conn)
    (isRecord : conn.loaderIssued < options.records) :
    Loading options world base (limit + 1) (conn.issueRecord prot world) := by
  have ahead := isLoading.ahead
  have outstanding := isLoading.outstanding
  refine ⟨?_, ?_, ?_, ?_, ?_⟩
  · change (if conn.readState = .IDLE then _ else conn.readState) = .LOADING
    rw [isLoading.readState]
    rfl
  · intro op isQueued
    rcases List.mem_append.mp isQueued with isEarlier | isLast
    · exact isLoading.allSet op isEarlier
    · rw [List.mem_singleton.mp isLast]
      rfl
  · change conn.loaderIssued + 1 = min options.records (limit + 1)
    omega
  · change conn.loaderCompleted + (conn.opQueue ++ [_]).length = conn.loaderIssued + 1
    rw [List.length_append, ← outstanding]
    rfl
  · change conn.issued ++ [loaderRequest world conn.loaderIssued] =
      base ++ (List.range (conn.loaderIssued + 1)).map (loaderRequest world)
    rw [isLoading.issued, List.range_succ, List.map_append, List.append_assoc]
    rfl

theorem issueRecords (prot : Protocol π) (isLoading : Loading options world base limit conn)
    (turns : ℕ) :
    Loading options world base (limit + turns) (conn.issueRecords prot options world turns) := by
  induction turns generalizing conn limit with
  | zero => exact isLoading
  | succ turns ih =>
      rw [issueRecords_succ]
      split
      · rename_i isOver
        have ahead := isLoading.ahead
        have stays : conn.loaderIssued = min options.records (limit + (turns + 1)) := by omega
        exact ⟨isLoading.readState, isLoading.allSet, stays, isLoading.outstanding,
          isLoading.issued⟩
      · rename_i isRecord
        have more := ih (isLoading.issueRecord prot (not_le.mp isRecord))
        rwa [Nat.add_assoc, Nat.add_comm 1 turns] at more

end Loading

theorem Loading.of_min_eq {other : ℕ} (isLoading : Loading options world base limit conn)
    (same : min options.records limit = min options.records other) :
    Loading options world base other conn :=
  ⟨isLoading.readState, isLoading.allSet, isLoading.ahead.trans same, isLoading.outstanding,
    isLoading.issued⟩

/-- `start_loading` on an idle connection. -/
theorem loading_startLoading (prot : Protocol π) (options : Options) (world : World T)
    (idle : conn.opQueue = []) :
    Loading options world conn.issued
      ((conn.startLoading prot options world).loaderCompleted + LOADER_CHUNK)
      (conn.startLoading prot options world) := by
  have atStart : Loading options world conn.issued 0
      { conn with readState := .LOADING, loaderIssued := 0, loaderCompleted := 0 } := by
    refine ⟨rfl, ?_, (Nat.min_zero _).symm, ?_, (List.append_nil _).symm⟩
    · intro op isQueued
      rw [idle] at isQueued
      cases isQueued
    · rw [idle]
      rfl
  have noneCompleted : (conn.startLoading prot options world).loaderCompleted = 0 :=
    loaderCompleted_issueRecords prot options world LOADER_CHUNK _
  rw [noneCompleted]
  exact atStart.issueRecords prot LOADER_CHUNK

/-- All records have been issued and answered. -/
structure Loaded (options : Options) (world : World T) (base : List Request)
    (conn : Connection π T) : Prop where
  readState : conn.readState = .IDLE
  opQueue : conn.opQueue = []
  issued : conn.issued = base ++ (List.range options.records).map (loaderRequest world)

theorem Loaded.phase (isLoaded : Loaded options world base conn) (atRest : conn.AtRest) :
    Phase options world conn := by
  refine .running ⟨?_, ?_⟩ fun _ => ⟨atRest, isLoaded.opQueue⟩
  · rw [isLoaded.readState, isLoaded.opQueue]
    rfl
  · rw [isLoaded.opQueue]
    exact Nat.zero_le _

theorem AtRest.loadNext (atRest : conn.AtRest) : (conn.loadNext prot options world).AtRest := by
  rw [Connection.loadNext]
  split
  · exact ⟨atRest.writeState, atRest.timer, atRest.logged⟩
  · exact atRest.issueRecords

theorem frame_loadNext (prot : Protocol π) (options : Options) (world : World T)
    (conn : Connection π T) : Frame conn (conn.loadNext prot options world) := by
  rw [loadNext]
  split
  · exact ⟨rfl, rfl, rfl, rfl⟩
  · exact frame_issueRecords _ conn

/-- The end of the case `LOADING`, when a response has been taken. -/
theorem loadNext_cases (prot : Protocol π) {popped : Connection π T}
    (isLoading : Loading options world base (conn.loaderCompleted + LOADER_CHUNK) conn)
    {op : Operation} {later : List Operation} (isQueued : conn.opQueue = op :: later)
    (completed : popped.loaderCompleted = conn.loaderCompleted + 1)
    (readState : popped.readState = conn.readState)
    (loaderIssued : popped.loaderIssued = conn.loaderIssued) (opQueue : popped.opQueue = later)
    (issued : popped.issued = conn.issued) :
    Loaded options world base (popped.loadNext prot options world) ∨
      Loading options world base
        ((popped.loadNext prot options world).loaderCompleted + LOADER_CHUNK)
        (popped.loadNext prot options world) ∧
      (popped.loadNext prot options world).opQueue ≠ [] := by
  have ahead := isLoading.ahead
  have outstanding := isLoading.outstanding
  rw [isQueued, List.length_cons] at outstanding
  rw [loadNext]
  split
  · rename_i isOver
    left
    have all_issued : conn.loaderIssued = options.records := by omega
    have none_later : later = [] := List.length_eq_zero_iff.mp (by omega)
    refine ⟨rfl, opQueue.trans none_later, ?_⟩
    change popped.issued = _
    rw [issued, isLoading.issued, all_issued]
  · rename_i goesOn
    right
    have atPopped : Loading options world base (conn.loaderCompleted + LOADER_CHUNK) popped := by
      refine ⟨readState.trans isLoading.readState, ?_, loaderIssued.trans ahead, ?_, ?_⟩
      · intro op isOp
        rw [opQueue] at isOp
        exact isLoading.allSet op (isQueued ▸ List.mem_cons_of_mem _ isOp)
      · rw [completed, opQueue, loaderIssued, ← outstanding]
        omega
      · rw [issued, loaderIssued]
        exact isLoading.issued
    have more := atPopped.issueRecords prot
      (popped.loaderCompleted + LOADER_CHUNK - popped.loaderIssued)
    have sameCompleted := loaderCompleted_issueRecords prot options world
      (popped.loaderCompleted + LOADER_CHUNK - popped.loaderIssued) popped
    have sameLimit : min options.records (conn.loaderCompleted + LOADER_CHUNK +
          (popped.loaderCompleted + LOADER_CHUNK - popped.loaderIssued)) =
        min options.records (popped.loaderCompleted + LOADER_CHUNK) := by omega
    have fullAhead := more.of_min_eq sameLimit
    refine ⟨?_, ?_⟩
    · rw [sameCompleted]
      exact fullAhead
    intro none_queued
    have allDone := fullAhead.outstanding
    have nextAhead := fullAhead.ahead
    rw [none_queued, List.length_nil, sameCompleted] at allDone
    have chunk : LOADER_CHUNK = 1024 := rfl
    omega

end Connection

end Datamime.Mutilate
