/-
# Programs that exchange messages

A party of a dialogue sends messages to its peers, waits for theirs, marks what it does between,
and ends with a result or dies. Such a program is a tree that branches on what arrives, and
programs compose as in any monad. What a program does is its log. A property of logs is proved of a
program by rules in the manner of Hoare, whatever the peers answer.
-/

import Mathlib.Data.List.Basic
import Mathlib.Tactic

namespace Datamime.Math

variable {P M E R S : Type}

/-- A program that talks to peers of a type `P` in messages of a type `M`. -/
inductive Program (P M E R : Type)
  | done (result : R)
  /-- The party stops, and says why. -/
  | die (reason : E)
  | mark (event : E) (next : Program P M E R)
  | send (peer : P) (message : M) (next : Program P M E R)
  | receive (peer : P) (next : M → Program P M E R)

namespace Program

def bind (next : R → Program P M E S) : Program P M E R → Program P M E S
  | .done result => next result
  | .die reason => .die reason
  | .mark event rest => .mark event (bind next rest)
  | .send peer message rest => .send peer message (bind next rest)
  | .receive peer rest => .receive peer fun message => bind next (rest message)

instance : Monad (Program P M E) where
  pure := .done
  bind program next := bind next program

instance : LawfulMonad (Program P M E) := by
  refine LawfulMonad.mk' _ ?_ (fun _ _ => rfl) ?_
  · intro R program
    change bind .done program = program
    induction program with
    | done result => rfl
    | die reason => rfl
    | mark event rest ih => exact congrArg (Program.mark event) ih
    | send peer message rest ih => exact congrArg (Program.send peer message) ih
    | receive peer rest ih => exact congrArg (Program.receive peer) (funext ih)
  · intro R S T program next last
    change bind last (bind next program) = bind (fun result => bind last (next result)) program
    induction program with
    | done result => rfl
    | die reason => rfl
    | mark event rest ih => exact congrArg (Program.mark event) ih
    | send peer message rest ih => exact congrArg (Program.send peer message) ih
    | receive peer rest ih => exact congrArg (Program.receive peer) (funext ih)

/-- Send one message. -/
def tell (peer : P) (message : M) : Program P M E Unit := .send peer message (.done ())

/-- Wait for one message. -/
def hear (peer : P) : Program P M E M := .receive peer .done

/-- Mark one event. -/
def note (event : E) : Program P M E Unit := .mark event (.done ())

end Program

/-! ## Logs -/

/-- What a party has done. -/
inductive Act (P M E : Type)
  | sent (peer : P) (message : M)
  | received (peer : P) (message : M)
  | marked (event : E)

variable [DecidableEq P]

/-- The message, if the party sent one to this peer. -/
def Act.sentTo? (peer : P) : Act P M E → Option M
  | .sent other message => if other = peer then some message else none
  | .received _ _ => none
  | .marked _ => none

/-- The message, if the party received one from this peer. -/
def Act.receivedFrom? (peer : P) : Act P M E → Option M
  | .sent _ _ => none
  | .received other message => if other = peer then some message else none
  | .marked _ => none

/-- The event, if the party marked one. -/
def Act.event? : Act P M E → Option E
  | .sent _ _ => none
  | .received _ _ => none
  | .marked event => some event

/-- The messages that were sent to a peer. -/
def sentTo (peer : P) (log : List (Act P M E)) : List M := log.filterMap (Act.sentTo? peer)

/-- The messages that were received from a peer. -/
def receivedFrom (peer : P) (log : List (Act P M E)) : List M :=
  log.filterMap (Act.receivedFrom? peer)

/-- The events that were marked. -/
def marks (log : List (Act P M E)) : List E := log.filterMap Act.event?

variable {log : List (Act P M E)} {peer other : P} {message : M} {event : E}

@[simp]
theorem sentTo_sent_self :
    sentTo peer (log ++ [.sent peer message]) = sentTo peer log ++ [message] := by
  simp [sentTo, Act.sentTo?]

theorem sentTo_sent_of_ne (apart : other ≠ peer) :
    sentTo peer (log ++ [.sent other message]) = sentTo peer log := by
  simp [sentTo, Act.sentTo?, apart]

@[simp]
theorem sentTo_received :
    sentTo peer (log ++ [.received other message]) = sentTo peer log := by
  simp [sentTo, Act.sentTo?]

@[simp]
theorem sentTo_marked : sentTo peer (log ++ [.marked event]) = sentTo peer log := by
  simp [sentTo, Act.sentTo?]

@[simp]
theorem receivedFrom_sent :
    receivedFrom peer (log ++ [.sent other message]) = receivedFrom peer log := by
  simp [receivedFrom, Act.receivedFrom?]

@[simp]
theorem receivedFrom_received_self :
    receivedFrom peer (log ++ [.received peer message]) = receivedFrom peer log ++ [message] := by
  simp [receivedFrom, Act.receivedFrom?]

theorem receivedFrom_received_of_ne (apart : other ≠ peer) :
    receivedFrom peer (log ++ [.received other message]) = receivedFrom peer log := by
  simp [receivedFrom, Act.receivedFrom?, apart]

@[simp]
theorem receivedFrom_marked :
    receivedFrom peer (log ++ [.marked event]) = receivedFrom peer log := by
  simp [receivedFrom, Act.receivedFrom?]

omit [DecidableEq P] in
@[simp]
theorem marks_sent : marks (log ++ [.sent other message]) = marks log := by
  simp [marks, Act.event?]

omit [DecidableEq P] in
@[simp]
theorem marks_received : marks (log ++ [.received other message]) = marks log := by
  simp [marks, Act.event?]

omit [DecidableEq P] in
@[simp]
theorem marks_marked : marks (log ++ [.marked event]) = marks log ++ [event] := by
  simp [marks, Act.event?]

/-! ## Properties of the log -/

namespace Program

omit [DecidableEq P]

variable {good : List (Act P M E) → Prop} {post : List (Act P M E) → R → Prop}
  {atEnd : List (Act P M E) → S → Prop} {program : Program P M E R}

/-- Whatever arrives, the log stays good, and the program ends only as the last condition says. -/
def Keeps (good : List (Act P M E) → Prop) (post : List (Act P M E) → R → Prop) :
    Program P M E R → List (Act P M E) → Prop
  | .done result, log => good log ∧ post log result
  | .die _, log => good log
  | .mark event next, log => good log ∧ Keeps good post next (log ++ [.marked event])
  | .send peer message next, log =>
      good log ∧ Keeps good post next (log ++ [.sent peer message])
  | .receive peer next, log =>
      good log ∧ ∀ message, Keeps good post (next message) (log ++ [.received peer message])

theorem Keeps.isGood (keeps : Keeps good post program log) : good log := by
  cases program with
  | done result => exact keeps.1
  | die reason => exact keeps
  | mark event next => exact keeps.1
  | send peer message next => exact keeps.1
  | receive peer next => exact keeps.1

theorem Keeps.imp {weaker : List (Act P M E) → R → Prop} (keeps : Keeps good post program log)
    (implies : ∀ log result, post log result → weaker log result) :
    Keeps good weaker program log := by
  induction program generalizing log with
  | done result => exact ⟨keeps.1, implies log result keeps.2⟩
  | die reason => exact keeps
  | mark event rest ih => exact ⟨keeps.1, ih keeps.2⟩
  | send peer message rest ih => exact ⟨keeps.1, ih keeps.2⟩
  | receive peer rest ih => exact ⟨keeps.1, fun message => ih message (keeps.2 message)⟩

/-- The rule for one program after the other. -/
theorem Keeps.bind {next : R → Program P M E S} (keeps : Keeps good post program log)
    (later : ∀ log result, good log → post log result → Keeps good atEnd (next result) log) :
    Keeps good atEnd (program >>= next) log := by
  induction program generalizing log with
  | done result => exact later log result keeps.1 keeps.2
  | die reason => exact keeps
  | mark event rest ih => exact ⟨keeps.1, ih keeps.2⟩
  | send peer message rest ih => exact ⟨keeps.1, ih keeps.2⟩
  | receive peer rest ih => exact ⟨keeps.1, fun message => ih message (keeps.2 message)⟩

theorem keeps_tell {next : Unit → Program P M E R} :
    Keeps good post (tell peer message >>= next) log ↔
      good log ∧ Keeps good post (next ()) (log ++ [.sent peer message]) := Iff.rfl

theorem keeps_hear {next : M → Program P M E R} :
    Keeps good post (hear peer >>= next) log ↔
      good log ∧ ∀ message, Keeps good post (next message) (log ++ [.received peer message]) :=
  Iff.rfl

theorem keeps_note {next : Unit → Program P M E R} :
    Keeps good post (note event >>= next) log ↔
      good log ∧ Keeps good post (next ()) (log ++ [.marked event]) := Iff.rfl

/-- The rule for a loop over a list, with a condition on what is done and what is still to do. -/
theorem Keeps.foldlM {α : Type} {body : R → α → Program P M E R}
    (invariant : List α → List α → List (Act P M E) → R → Prop) {before todo : List α} {start : R}
    (turn : ∀ before item later log value, good log → invariant before (item :: later) log value →
      Keeps good (invariant (before ++ [item]) later) (body value item) log)
    (isGood : good log) (holds : invariant before todo log start) :
    Keeps good (invariant (before ++ todo) []) (todo.foldlM body start) log := by
  induction todo generalizing before start log with
  | nil =>
      rw [List.append_nil]
      exact ⟨isGood, holds⟩
  | cons item later ih =>
      rw [List.foldlM_cons]
      refine (turn before item later log start isGood holds).bind fun log value isGood holds => ?_
      have atEnd : Keeps good (invariant (before ++ [item] ++ later) []) _ log := ih isGood holds
      rwa [List.append_assoc, List.singleton_append] at atEnd

theorem forM_eq_foldlM {α : Type} (body : α → Program P M E Unit) (todo : List α) :
    forM todo body = todo.foldlM (fun _ => body) () := by
  induction todo with
  | nil => rfl
  | cons item later ih =>
      rw [List.forM_cons, List.foldlM_cons]
      exact congrArg (body item >>= ·) (funext fun _ => ih)

/-- The rule for a loop over a list without a result. -/
theorem Keeps.each {α : Type} {body : α → Program P M E Unit}
    (invariant : List α → List α → List (Act P M E) → Prop) {todo : List α}
    (turn : ∀ before item later log, good log → invariant before (item :: later) log →
      Keeps good (fun log _ => invariant (before ++ [item]) later log) (body item) log)
    (isGood : good log) (holds : invariant [] todo log) :
    Keeps good (fun log _ => invariant todo [] log) (forM todo body) log := by
  rw [forM_eq_foldlM]
  exact Keeps.foldlM (fun before later log _ => invariant before later log)
    (fun before item later log _ => turn before item later log) isGood holds

/-! ## What a part of a program maintains -/

/-- If a level holds of the log before, the log stays good, and the level holds at the end. -/
def Maintains (good level : List (Act P M E) → Prop) (program : Program P M E R) : Prop :=
  ∀ log, level log → Keeps good (fun log _ => level log) program log

variable {level : List (Act P M E) → Prop}

theorem Maintains.pure (isGood : ∀ log, level log → good log) (result : R) :
    Maintains good level (pure result : Program P M E R) :=
  fun log atLevel => ⟨isGood log atLevel, atLevel⟩

theorem Maintains.die (isGood : ∀ log, level log → good log) (reason : E) :
    Maintains good level (.die reason : Program P M E R) :=
  isGood

/-- The program ends or dies at once. -/
def AtOnce (program : Program P M E R) : Prop :=
  (∃ result, program = .done result) ∨ ∃ reason, program = .die reason

theorem Maintains.atOnce (isGood : ∀ log, level log → good log) (atOnce : program.AtOnce) :
    Maintains good level program := by
  rcases atOnce with ⟨result, rfl⟩ | ⟨reason, rfl⟩
  · exact .pure isGood result
  · exact .die isGood reason

theorem Maintains.tell (isGood : ∀ log, level log → good log)
    (stays : ∀ log, level log → level (log ++ [.sent peer message])) :
    Maintains good level (tell peer message : Program P M E Unit) :=
  fun log atLevel => ⟨isGood log atLevel, isGood _ (stays log atLevel), stays log atLevel⟩

theorem Maintains.hear (isGood : ∀ log, level log → good log)
    (stays : ∀ log message, level log → level (log ++ [.received peer message])) :
    Maintains good level (hear peer : Program P M E M) :=
  fun log atLevel => ⟨isGood log atLevel, fun message =>
    ⟨isGood _ (stays log message atLevel), stays log message atLevel⟩⟩

theorem Maintains.bind {next : R → Program P M E S} (first : Maintains good level program)
    (later : ∀ result, Maintains good level (next result)) :
    Maintains good level (program >>= next) :=
  fun log atLevel => (first log atLevel).bind fun log result _ atLevel => later result log atLevel

theorem Maintains.foldlM {α : Type} {body : R → α → Program P M E R} {todo : List α} {start : R}
    (isGood : ∀ log, level log → good log)
    (turn : ∀ value item, Maintains good level (body value item)) :
    Maintains good level (todo.foldlM body start) := by
  induction todo generalizing start with
  | nil => exact .pure isGood start
  | cons item later ih =>
      rw [List.foldlM_cons]
      exact (turn start item).bind fun _ => ih

theorem Maintains.each {α : Type} {body : α → Program P M E Unit} {todo : List α}
    (isGood : ∀ log, level log → good log) (turn : ∀ item, Maintains good level (body item)) :
    Maintains good level (forM todo body) := by
  rw [forM_eq_foldlM]
  exact .foldlM isGood fun _ item => turn item

end Program

end Datamime.Math
