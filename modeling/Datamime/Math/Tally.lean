/-
# Counting what a program marks

How often a program marks an event may depend on what it is told. Under an assumption on the
messages that have arrived, the rules for composed programs add up the counts of their parts.
-/

import Datamime.Math.Dialogue

namespace Datamime.Math

variable {P M E R S : Type}

/-- What a party keeps to, whatever it hears, and what it assumes of the messages it has heard. -/
structure Terms (P M E : Type) where
  good : List (Act P M E) → Prop
  assumed : List (Act P M E) → Prop
  hears (log : List (Act P M E)) (peer : P) (message : M) :
    good log → good (log ++ [.received peer message])
  marked (log : List (Act P M E)) (event : E) : good log → good (log ++ [.marked event])
  lost (log : List (Act P M E)) (act : Act P M E) : assumed (log ++ [act]) → assumed log

variable [DecidableEq E] {terms : Terms P M E} {event : E} {peer : P} {message : M}
  {program : Program P M E R} {log : List (Act P M E)} {k l : ℕ}

namespace Terms

/-- The event has been marked so often, if the assumption holds. -/
def Counted (terms : Terms P M E) (event : E) (log : List (Act P M E)) (count : ℕ) : Prop :=
  terms.assumed log → (marks log).count event = count

theorem Counted.sent (counted : terms.Counted event log k) :
    terms.Counted event (log ++ [.sent peer message]) k := by
  intro assumed
  rw [marks_sent]
  exact counted (terms.lost log _ assumed)

theorem Counted.received (counted : terms.Counted event log k) :
    terms.Counted event (log ++ [.received peer message]) k := by
  intro assumed
  rw [marks_received]
  exact counted (terms.lost log _ assumed)

theorem Counted.marked (counted : terms.Counted event log k) :
    terms.Counted event (log ++ [.marked event]) (k + 1) := by
  intro assumed
  rw [marks_marked, List.count_append, List.count_singleton_self,
    counted (terms.lost log _ assumed)]

theorem Counted.markedOther {other : E} (apart : other ≠ event)
    (counted : terms.Counted event log k) :
    terms.Counted event (log ++ [.marked other]) k := by
  intro assumed
  rw [marks_marked, List.count_append, List.count_singleton, if_neg (by simpa using apart),
    counted (terms.lost log _ assumed), Nat.add_zero]

end Terms

namespace Program

/-- The program keeps to the terms, and marks the event so often until it ends. -/
def Marks (terms : Terms P M E) (event : E) (program : Program P M E R) (k : ℕ) : Prop :=
  ∀ log count, terms.good log → terms.Counted event log count →
    program.Keeps terms.good (fun log _ => terms.Counted event log (count + k)) log

theorem Marks.pure (result : R) : Marks terms event (pure result : Program P M E R) 0 :=
  fun _ _ isGood counted => ⟨isGood, counted⟩

theorem Marks.die (reason : E) : Marks terms event (.die reason : Program P M E R) k :=
  fun _ _ isGood _ => isGood

theorem Marks.atOnce (atOnce : program.AtOnce) : Marks terms event program 0 := by
  rcases atOnce with ⟨result, rfl⟩ | ⟨reason, rfl⟩
  · exact .pure result
  · exact .die reason

theorem Marks.note : Marks terms event (note event : Program P M E Unit) 1 :=
  fun log _ isGood counted => ⟨isGood, terms.marked log event isGood, counted.marked⟩

theorem Marks.noteOther {other : E} (apart : other ≠ event) :
    Marks terms event (Program.note other : Program P M E Unit) 0 :=
  fun log _ isGood counted =>
    ⟨isGood, terms.marked log other isGood, counted.markedOther apart⟩

theorem Marks.tell (sends : ∀ log, terms.good log → terms.good (log ++ [.sent peer message])) :
    Marks terms event (tell peer message : Program P M E Unit) 0 :=
  fun log _ isGood counted => ⟨isGood, sends log isGood, counted.sent⟩

theorem Marks.hear : Marks terms event (hear peer : Program P M E M) 0 :=
  fun log _ isGood counted => ⟨isGood, fun message =>
    ⟨terms.hears log peer message isGood, counted.received⟩⟩

/-- The rule for one program after the other. -/
theorem Marks.bind {next : R → Program P M E S} (first : Marks terms event program k)
    (later : ∀ result, Marks terms event (next result) l) :
    Marks terms event (program >>= next) (k + l) := by
  intro log count isGood counted
  refine (first log count isGood counted).bind fun log result isGood counted => ?_
  rw [← Nat.add_assoc]
  exact later result log (count + k) isGood counted

theorem Marks.silent {next : R → Program P M E S} (first : Marks terms event program 0)
    (later : ∀ result, Marks terms event (next result) k) :
    Marks terms event (program >>= next) k := by
  rw [← Nat.zero_add k]
  exact first.bind later

theorem Marks.andSilent {next : R → Program P M E S} (first : Marks terms event program k)
    (later : ∀ result, Marks terms event (next result) 0) :
    Marks terms event (program >>= next) k :=
  first.bind later

/-- An assumption that has been lost says nothing about the count. -/
theorem keeps_of_lost (free : ∀ log, terms.good log) (isLost : ¬ terms.assumed log) :
    program.Keeps terms.good (fun log _ => terms.Counted event log k) log := by
  have stays (act : Act P M E) : ¬ terms.assumed (log ++ [act]) :=
    fun assumed => isLost (terms.lost log act assumed)
  induction program generalizing log with
  | done result => exact ⟨free log, fun assumed => absurd assumed isLost⟩
  | die reason => exact free log
  | mark event rest ih =>
      exact ⟨free log, ih (stays _) fun act assumed => stays _ (terms.lost _ act assumed)⟩
  | send peer message rest ih =>
      exact ⟨free log, ih (stays _) fun act assumed => stays _ (terms.lost _ act assumed)⟩
  | receive peer rest ih =>
      exact ⟨free log, fun message =>
        ih message (stays _) fun act assumed => stays _ (terms.lost _ act assumed)⟩

/-- The rule for a program that goes on with what it has heard, if the messages have a property. -/
theorem Marks.hearAssumed {next : M → Program P M E R} {expected : M → Prop}
    (free : ∀ log, terms.good log)
    (arrives : ∀ log message, terms.assumed (log ++ [.received peer message]) → expected message)
    (later : ∀ message, expected message → Marks terms event (next message) k) :
    Marks terms event (Program.hear peer >>= next) k := by
  intro log count isGood counted
  refine keeps_hear.mpr ⟨isGood, fun message => ?_⟩
  by_cases assumed : terms.assumed (log ++ [.received peer message])
  · exact later message (arrives log message assumed) _ count (free _) counted.received
  · exact keeps_of_lost free assumed

/-- The rule for a loop over a list. -/
theorem Marks.foldlM {α : Type} {body : R → α → Program P M E R} {todo : List α} {start : R}
    (turn : ∀ value item, Marks terms event (body value item) k) :
    Marks terms event (todo.foldlM body start) (todo.length * k) := by
  induction todo generalizing start with
  | nil =>
      rw [List.length_nil, Nat.zero_mul]
      exact .pure start
  | cons item later ih =>
      rw [List.foldlM_cons, List.length_cons, Nat.succ_mul, Nat.add_comm]
      exact (turn start item).bind fun _ => ih

theorem Marks.foldlMSilent {α : Type} {body : R → α → Program P M E R} {todo : List α} {start : R}
    (turn : ∀ value item, Marks terms event (body value item) 0) :
    Marks terms event (todo.foldlM body start) 0 :=
  .foldlM turn

theorem Marks.eachSilent {α : Type} {body : α → Program P M E Unit} {todo : List α}
    (turn : ∀ item, Marks terms event (body item) 0) : Marks terms event (forM todo body) 0 := by
  rw [forM_eq_foldlM]
  exact .foldlMSilent fun _ item => turn item

end Program

end Datamime.Math
