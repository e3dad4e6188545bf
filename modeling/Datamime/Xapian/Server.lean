/-
# The answer to a query

`Server::processRequest` collects the descriptions of the first documents of a result in an array
on its stack. It moves its position on before it copies a description, so every description stands
behind its place, and the answer begins with bytes that the array held before. Whatever these
are, the answer is right precisely if there is nothing to answer.
-/

import Datamime.Math.Memory
import Datamime.Fault

namespace Datamime.Xapian

open Datamime.Math

/-! ## The server -/

def MAX_RES_LEN : ℕ := 2 ^ 20

def MAX_DOC_COUNT : ℕ := 25

/-- The positions that a copy covers. -/
structure Extent where
  offset : ℕ
  len : ℕ

/-- The variables of the loop over the result, with the copies that it made. -/
structure Answer where
  res : Memory
  resLen : ℕ
  doccount : ℕ
  copies : List Extent

/-- The variables before the loop. The array on the stack is not cleared. -/
def Answer.first (stack : Memory) : Answer := ⟨stack, 0, 0, []⟩

/-- One round of the loop, up to the test of the number of documents. -/
def Answer.add (st : Answer) (desc : List UInt8) : Except Fault Answer :=
  let resLen := (st.resLen + desc.length) % 2 ^ 32
  if resLen ≤ MAX_RES_LEN then
    .ok {
      res := st.res.copy resLen desc
      resLen
      doccount := st.doccount + 1
      copies := st.copies ++ [⟨resLen, desc.length⟩] }
  else .error .assertion

/-- The loop over the result. -/
def Answer.addAll (st : Answer) : List (List UInt8) → Except Fault Answer
  | [] => .ok st
  | desc :: rest => do
      let st ← st.add desc
      if st.doccount = MAX_DOC_COUNT then return st else st.addAll rest

/-- `Server::processRequest`, from the result of the query on. The result is listed by the
descriptions of its documents. -/
def processRequest (mset : List (List UInt8)) (stack : Memory) : Except Fault Answer :=
  (Answer.first stack).addAll mset

/-- What is passed to `tBenchSendResp`. -/
def Answer.payload (st : Answer) : List UInt8 := st.res.read 0 st.resLen

/-- The descriptions that belong into the answer. -/
def answered (mset : List (List UInt8)) : List (List UInt8) := mset.take MAX_DOC_COUNT

/-- The answer consists of the first descriptions, and all copies stay inside of the array. -/
def SendsDescriptions (mset : List (List UInt8)) (stack : Memory) : Prop :=
  ∃ st, processRequest mset stack = .ok st ∧ st.payload = (answered mset).flatten ∧
    ∀ extent ∈ st.copies, extent.offset + extent.len ≤ MAX_RES_LEN

/-! ## The loop -/

section

variable {stack : Memory} {done : List (List UInt8)} {st : Answer}

/-- What holds after some descriptions: the length is theirs, and the first byte is the one that
the array held before. -/
structure Answer.Collected (stack : Memory) (done : List (List UInt8)) (st : Answer) : Prop where
  length : st.resLen = done.flatten.length
  count : st.doccount = done.length
  first : st.res 0 = stack 0
  copies : (∀ desc ∈ done, desc = []) → ∀ extent ∈ st.copies, extent.offset + extent.len = 0

theorem collected_first (stack : Memory) : Answer.Collected stack [] (.first stack) where
  length := rfl
  count := rfl
  first := rfl
  copies := fun _ _ absent => nomatch absent

/-- A description is copied behind the first byte. -/
theorem copy_zero_of_behind (mem : Memory) {offset : ℕ} {desc : List UInt8}
    (behind : desc.length ≤ offset) : mem.copy offset desc 0 = mem 0 := by
  cases desc with
  | nil => simp
  | cons byte rest =>
      apply Memory.copy_of_lt
      exact (Nat.succ_pos _).trans_le behind

theorem collected_add (collected : st.Collected stack done) {desc : List UInt8}
    (fits : (done ++ [desc]).flatten.length ≤ MAX_RES_LEN) :
    ∃ next, st.add desc = .ok next ∧ next.Collected stack (done ++ [desc]) := by
  have total : (done ++ [desc]).flatten.length = st.resLen + desc.length := by
    simp [collected.length]
  have small : (st.resLen + desc.length) % 2 ^ 32 = st.resLen + desc.length := by
    apply Nat.mod_eq_of_lt
    rw [← total]
    exact fits.trans_lt (by decide)
  rw [Answer.add, small, if_pos (total ▸ fits)]
  refine ⟨_, rfl, total.symm, by simp [collected.count], ?_, ?_⟩
  · exact (copy_zero_of_behind st.res (Nat.le_add_left _ _)).trans collected.first
  · intro allEmpty extent isCopy
    have before : ∀ other ∈ done, other = [] := fun other isDone =>
      allEmpty other (List.mem_append_left _ isDone)
    have isEmpty : desc = [] := allEmpty desc (by simp)
    rcases List.mem_append.mp isCopy with earlier | isLast
    · exact collected.copies before extent earlier
    · have noLength : st.resLen = 0 := by
        rw [collected.length, List.flatten_eq_nil_iff.mpr before, List.length_nil]
      simp only [List.mem_singleton] at isLast
      simp [isLast, isEmpty, noLength]

/-- The loop ends after the first documents, or at the end of the result. -/
theorem collected_addAll {rest : List (List UInt8)} (collected : st.Collected stack done)
    (few : done.length < MAX_DOC_COUNT)
    (fits : (answered (done ++ rest)).flatten.length ≤ MAX_RES_LEN) :
    ∃ last, st.addAll rest = .ok last ∧ last.Collected stack (answered (done ++ rest)) := by
  induction rest generalizing st done with
  | nil =>
      refine ⟨st, rfl, ?_⟩
      rwa [List.append_nil, answered, List.take_of_length_le few.le]
  | cons desc rest ih =>
      have split : done ++ desc :: rest = (done ++ [desc]) ++ rest := by simp
      have shorter : (done ++ [desc]).length ≤ MAX_DOC_COUNT := by simpa using few
      have begins : answered (done ++ desc :: rest) =
          (done ++ [desc]) ++ rest.take (MAX_DOC_COUNT - (done ++ [desc]).length) := by
        rw [split, answered, List.take_append, List.take_of_length_le shorter]
      have fitsFirst : (done ++ [desc]).flatten.length ≤ MAX_RES_LEN := by
        apply le_trans _ fits
        rw [begins]
        simp only [List.flatten_append, List.length_append]
        exact Nat.le_add_right _ _
      rcases collected_add collected fitsFirst with ⟨next, added, collectedNext⟩
      rw [Answer.addAll, added, ok_bind]
      by_cases isFull : next.doccount = MAX_DOC_COUNT
      · refine ⟨next, by rw [if_pos isFull]; rfl, ?_⟩
        rw [collectedNext.count] at isFull
        rw [begins, isFull, Nat.sub_self, List.take_zero, List.append_nil]
        exact collectedNext
      · rw [if_neg isFull, split]
        apply ih collectedNext
        · rw [← collectedNext.count] at shorter ⊢
          exact lt_of_le_of_ne shorter isFull
        · rwa [← split]

end

/-! ## The answer -/

section

variable {mset : List (List UInt8)}

/-- The answer has the right length, and its first byte is the one that the array held before. -/
theorem exists_answer (fits : (answered mset).flatten.length ≤ MAX_RES_LEN) (stack : Memory) :
    ∃ st, processRequest mset stack = .ok st ∧ st.Collected stack (answered mset) := by
  have collected := @collected_addAll stack [] _ mset (collected_first stack) (by decide)
  exact collected fits

/-- Whatever the array held before, the answer is right precisely if the first descriptions are
all empty. -/
theorem sendsDescriptions_iff (fits : (answered mset).flatten.length ≤ MAX_RES_LEN) :
    (∀ stack, SendsDescriptions mset stack) ↔ ∀ desc ∈ answered mset, desc = [] := by
  constructor
  · intro sends
    rw [← List.flatten_eq_nil_iff]
    by_contra notEmpty
    rcases List.exists_cons_of_ne_nil notEmpty with ⟨byte, others, isContent⟩
    -- The array holds another byte than the one that the answer begins with.
    rcases sends fun _ => byte + 1 with ⟨st, isAnswer, isPayload, -⟩
    rcases exists_answer fits fun _ => byte + 1 with ⟨same, isSame, collected⟩
    cases isAnswer.symm.trans isSame
    have firstByte := congrArg (fun bytes => bytes[0]?) isPayload
    have notNone : st.resLen ≠ 0 := by simp [collected.length, isContent]
    simp [Answer.payload, Memory.read, isContent, collected.first, Nat.pos_of_ne_zero notNone]
      at firstByte
  · intro allEmpty stack
    rcases exists_answer fits stack with ⟨st, isAnswer, collected⟩
    have nothing : (answered mset).flatten = [] := List.flatten_eq_nil_iff.mpr allEmpty
    refine ⟨st, isAnswer, ?_, ?_⟩
    · simp [Answer.payload, collected.length, nothing]
    · intro extent isCopy
      rw [collected.copies allEmpty extent isCopy]
      exact Nat.zero_le _

end

/-- A result of two documents whose descriptions are text. -/
theorem twoDescriptions_sendsDescriptions_iff :
    (∀ stack, SendsDescriptions [[68, 111], [99]] stack) ↔
      ∀ desc ∈ answered [[68, 111], [99]], desc = [] :=
  sendsDescriptions_iff (by decide)

/-- A description of one byte is answered with a byte of the array. -/
theorem oneByte_not_sent : ¬ SendsDescriptions [[68]] fun _ => 0 := by
  rintro ⟨st, isAnswer, isPayload, -⟩
  cases isAnswer
  revert isPayload
  decide

end Datamime.Xapian
