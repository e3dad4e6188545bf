/-
# The history of a run

What a state owes to its past can be read off the steps that led to it. This module has six
ways to do so. A latch is a part of the state that some steps set, some steps reset and all
others leave alone: after a run it is reset exactly if every step that set it was followed by
one that reset it. A counter is the number of past steps of one kind, a log is what the past
steps have written down, and the effects of a run are what its steps have emitted. Where some
steps read an ever growing quantity and some remember what was read last, the difference between
the two values belongs to a part of the past. Last, a part that every step either assigns or
leaves alone holds what was assigned last.
-/

import Datamime.Math.Run

namespace Datamime.Math

universe u v w x

variable {σ : Type u} {ι : Type v} {ε : Type w}

/-! ## Latches -/

/-- Every step of the run that sets is followed by a later step that resets. -/
def EachFollowed (step : σ → ι → Except ε σ) (start : σ) (inputs : List ι)
    (sets resets : σ → ι → Prop) : Prop :=
  ∀ early input late, inputs = early ++ input :: late →
    ∀ state next, run step start early = .ok state → step state input = .ok next →
      sets state input →
        ∃ middle closing, middle ++ [closing] <+: late ∧
          ∃ before, run step next middle = .ok before ∧ resets before closing

/-- What a step does to a latch. -/
structure Latches (step : σ → ι → Except ε σ) (good : σ → Prop) (latch : σ → Bool)
    (sets resets : σ → ι → Prop) : Prop where
  set : ∀ {state input next}, good state → step state input = .ok next → sets state input →
    latch next = true
  reset : ∀ {state input next}, good state → step state input = .ok next → resets state input →
    latch next = false
  keep : ∀ {state input next}, good state → step state input = .ok next → ¬ sets state input →
    ¬ resets state input → latch next = latch state

section

variable {step : σ → ι → Except ε σ} {start middle last : σ} {inputs : List ι} {input : ι}
  {sets resets : σ → ι → Prop}

/-- A step that resets follows everything before it. -/
theorem eachFollowed_concat_of_resets (reached : run step start inputs = .ok middle)
    (isReset : resets middle input)
    (exclusive : ¬ sets middle input) :
    EachFollowed step start (inputs ++ [input]) sets resets := by
  intro early opening late split state next atState opened isSet
  cases late using List.reverseRecOn with
  | nil =>
      obtain ⟨rfl, isSame⟩ := List.append_inj' split rfl
      cases isSame
      cases reached.symm.trans atState
      exact absurd isSet exclusive
  | append_singleton late lastInput _ =>
      rw [← List.cons_append, ← List.append_assoc] at split
      obtain ⟨rfl, isSame⟩ := List.append_inj' split rfl
      cases isSame
      obtain ⟨atOpening, here, later⟩ := run_append_eq_ok_iff.mp reached
      cases atState.symm.trans here
      rw [run_cons_of_ok opened] at later
      exact ⟨late, input, List.prefix_refl _, middle, later, isReset⟩

/-- A step that neither sets nor resets changes nothing. -/
theorem eachFollowed_concat_iff_of_neither (reached : run step start inputs = .ok middle)
    (setsNot : ¬ sets middle input) (resetsNot : ¬ resets middle input) :
    EachFollowed step start (inputs ++ [input]) sets resets ↔
      EachFollowed step start inputs sets resets := by
  constructor
  · intro followed early opening late split state next atState opened isSet
    have longer : inputs ++ [input] = early ++ opening :: (late ++ [input]) := by
      rw [split, List.append_assoc, List.cons_append]
    obtain ⟨between, closing, isPrefix, before, atBefore, isReset⟩ :=
      followed early opening _ longer state next atState opened isSet
    rcases List.prefix_concat_iff.mp isPrefix with isAll | shorter
    · -- The reset would be the last step, which does not reset.
      obtain ⟨rfl, isSame⟩ := List.append_inj' isAll rfl
      cases isSame
      rw [split] at reached
      obtain ⟨atOpening, here, later⟩ := run_append_eq_ok_iff.mp reached
      cases atState.symm.trans here
      rw [run_cons_of_ok opened] at later
      cases atBefore.symm.trans later
      exact absurd isReset resetsNot
    · exact ⟨between, closing, shorter, before, atBefore, isReset⟩
  · intro followed early opening late split state next atState opened isSet
    cases late using List.reverseRecOn with
    | nil =>
        obtain ⟨rfl, isSame⟩ := List.append_inj' split rfl
        cases isSame
        cases reached.symm.trans atState
        exact absurd isSet setsNot
    | append_singleton late lastInput _ =>
        rw [← List.cons_append, ← List.append_assoc] at split
        obtain ⟨shorter, -⟩ := List.append_inj' split rfl
        obtain ⟨between, closing, isPrefix, rest⟩ :=
          followed early opening late shorter state next atState opened isSet
        exact ⟨between, closing, isPrefix.trans (List.prefix_append _ _), rest⟩

/-- A step that sets has no follower yet. -/
theorem not_eachFollowed_concat_of_sets (reached : run step start inputs = .ok middle)
    (stepped : step middle input = .ok last) (isSet : sets middle input) :
    ¬ EachFollowed step start (inputs ++ [input]) sets resets := by
  intro followed
  obtain ⟨between, closing, isPrefix, -⟩ :=
    followed inputs input [] rfl middle last reached stepped isSet
  exact absurd (List.prefix_nil.mp isPrefix) (by simp)

/-- After a run a latch is reset exactly if every step that set it was followed by one that
reset it. -/
theorem latch_eq_false_iff {good : σ → Prop} {latch : σ → Bool}
    (latches : Latches step good latch sets resets) (start_good : good start)
    (preserved : ∀ state input next, good state → step state input = .ok next → good next)
    (start_reset : latch start = false) (reached : run step start inputs = .ok last) :
    latch last = false ↔ EachFollowed step start inputs sets resets := by
  have good_along : AlongRun step start inputs fun _ state => good state :=
    alongRun_of_preserved inputs start_good fun _ state input next isGood stepped =>
      preserved state input next isGood stepped
  induction inputs using List.reverseRecOn generalizing last with
  | nil =>
      cases reached
      refine iff_of_true start_reset fun early input late split => ?_
      simp at split
  | append_singleton inputs input ih =>
      obtain ⟨middle, atMiddle, stepped⟩ := run_concat_eq_ok_iff.mp reached
      have shorter : inputs <+: inputs ++ [input] := List.prefix_append _ _
      have isGood : good middle := good_along inputs shorter middle atMiddle
      by_cases isSet : sets middle input
      · have up := latches.set isGood stepped isSet
        exact iff_of_false (by rw [up]; exact Bool.noConfusion)
          (not_eachFollowed_concat_of_sets atMiddle stepped isSet)
      · by_cases isReset : resets middle input
        · exact iff_of_true (latches.reset isGood stepped isReset)
            (eachFollowed_concat_of_resets atMiddle isReset isSet)
        · rw [latches.keep isGood stepped isSet isReset,
            eachFollowed_concat_iff_of_neither atMiddle isSet isReset]
          exact ih atMiddle fun early isPrefix => good_along early (isPrefix.trans shorter)

end

/-! ## Counters -/

open Classical in
/-- The number of steps of a run that are of one kind. -/
noncomputable def countSteps (step : σ → ι → Except ε σ) (kind : σ → ι → Prop) : σ → List ι → ℕ
  | _, [] => 0
  | state, input :: rest =>
      (if kind state input then 1 else 0) +
        match step state input with
        | .ok next => countSteps step kind next rest
        | .error _ => 0

section

variable {step : σ → ι → Except ε σ} {kind : σ → ι → Prop} {start state : σ} {inputs : List ι}
  {input : ι}

theorem countSteps_append (reached : run step start inputs = .ok state) (late : List ι) :
    countSteps step kind start (inputs ++ late) =
      countSteps step kind start inputs + countSteps step kind state late := by
  induction inputs generalizing start with
  | nil =>
      cases reached
      exact (Nat.zero_add _).symm
  | cons first rest ih =>
      rw [List.cons_append, countSteps, countSteps]
      cases stepped : step start first with
      | error fault =>
          rw [run_cons_of_error stepped] at reached
          cases reached
      | ok next =>
          rw [run_cons_of_ok stepped] at reached
          dsimp only
          rw [ih reached, Nat.add_assoc]

theorem countSteps_singleton_of (isKind : kind state input) :
    countSteps step kind state [input] = 1 := by
  rw [countSteps, if_pos isKind]
  cases step state input <;> rfl

theorem countSteps_singleton_of_not (otherKind : ¬ kind state input) :
    countSteps step kind state [input] = 0 := by
  rw [countSteps, if_neg otherKind]
  cases step state input <;> rfl

theorem countSteps_le_length (start : σ) (inputs : List ι) :
    countSteps step kind start inputs ≤ inputs.length := by
  induction inputs generalizing start with
  | nil => exact le_refl 0
  | cons input rest ih =>
      rw [countSteps, List.length_cons]
      have counted : (match step start input with
          | .ok next => countSteps step kind next rest
          | .error _ => 0) ≤ rest.length := by
        cases step start input with
        | error fault => exact Nat.zero_le _
        | ok next => exact ih next
      split <;> omega

/-- A first step of the kind is counted. -/
theorem countSteps_pos_of_head {rest : List ι} (isKind : kind start input) :
    0 < countSteps step kind start (input :: rest) := by
  rw [countSteps, if_pos isKind]
  omega

/-- One more step of the kind. -/
theorem countSteps_concat_of (reached : run step start inputs = .ok state)
    (isKind : kind state input) :
    countSteps step kind start (inputs ++ [input]) = countSteps step kind start inputs + 1 := by
  rw [countSteps_append reached, countSteps_singleton_of isKind]

/-- A step of another kind. -/
theorem countSteps_concat_of_not (reached : run step start inputs = .ok state)
    (otherKind : ¬ kind state input) :
    countSteps step kind start (inputs ++ [input]) = countSteps step kind start inputs := by
  rw [countSteps_append reached, countSteps_singleton_of_not otherKind, Nat.add_zero]

end

/-! ## Logs -/

/-- A log that is kept along a run: each step makes the next log out of the one so far. -/
def logAlong {α : Type x} (step : σ → ι → Except ε σ) (record : σ → ι → α → α) :
    σ → List ι → α → α
  | _, [], log => log
  | state, input :: rest, log =>
      match step state input with
      | .ok next => logAlong step record next rest (record state input log)
      | .error _ => log

/-- The last step of a run is recorded last. -/
theorem logAlong_concat {α : Type x} {step : σ → ι → Except ε σ} {record : σ → ι → α → α}
    {start state next : σ} {inputs : List ι} {input : ι}
    (reached : run step start inputs = .ok state) (stepped : step state input = .ok next)
    (log : α) : logAlong step record start (inputs ++ [input]) log =
      record state input (logAlong step record start inputs log) := by
  induction inputs generalizing start log with
  | nil =>
      cases reached
      simp only [List.nil_append, logAlong, stepped]
  | cons first rest ih =>
      rw [List.cons_append, logAlong, logAlong]
      cases atFirst : step start first with
      | error fault =>
          rw [run_cons_of_error atFirst] at reached
          cases reached
      | ok second =>
          rw [run_cons_of_ok atFirst] at reached
          exact ih reached _

/-! ## Effects -/

/-- What the steps of a run emit, the one included that ends it. -/
def emittedAlong {α : Type x} (step : σ → ι → Except ε σ) (emits : σ → ι → List α) :
    σ → List ι → List α
  | _, [] => []
  | state, input :: rest =>
      emits state input ++
        match step state input with
        | .ok next => emittedAlong step emits next rest
        | .error _ => []

/-- What the last step of a run emits comes last. -/
theorem emittedAlong_concat {α : Type x} {step : σ → ι → Except ε σ} {emits : σ → ι → List α}
    {start state : σ} {inputs : List ι} {input : ι}
    (reached : run step start inputs = .ok state) :
    emittedAlong step emits start (inputs ++ [input]) =
      emittedAlong step emits start inputs ++ emits state input := by
  induction inputs generalizing start with
  | nil =>
      cases reached
      rw [List.nil_append, emittedAlong, emittedAlong, List.nil_append]
      cases step state input <;> exact List.append_nil _
  | cons first rest ih =>
      rw [List.cons_append, emittedAlong, emittedAlong, List.append_assoc]
      cases atFirst : step start first with
      | error fault =>
          rw [run_cons_of_error atFirst] at reached
          cases reached
      | ok second =>
          rw [run_cons_of_ok atFirst] at reached
          exact congrArg (emits start first ++ ·) (ih reached)

/-- All effects of a run have a property precisely if those of each attempted step have. -/
theorem forall_emitted_iff {α : Type x} {step : σ → ι → Except ε σ} {emits : σ → ι → List α}
    {start : σ} {inputs : List ι} {good : α → Prop} :
    (∀ effect ∈ emittedAlong step emits start inputs, good effect) ↔
      AtEachStep step start inputs fun _ state input =>
        ∀ effect ∈ emits state input, good effect := by
  induction inputs generalizing start with
  | nil => exact iff_of_true (fun _ absent => nomatch absent) atEachStep_nil
  | cons input rest ih =>
      rw [atEachStep_cons_iff, emittedAlong, List.forall_mem_append]
      refine and_congr_right fun _ => ?_
      cases step start input with
      | error fault =>
          exact iff_of_true (fun _ absent => nomatch absent) fun _ stepped => nomatch stepped
      | ok next =>
          rw [ih]
          exact ⟨fun met later stepped => by cases stepped; exact met, fun met => met next rfl⟩

/-! ## Differences -/

section

variable {step : σ → ι → Except ε σ} {start middle next last : σ} {inputs first rest after : List ι}
  {input reading : ι} {kind reads remembers : σ → ι → Prop}

end

/-! ## Assignments -/

/-- The last value that some step of a list assigns. -/
def lastAssigned {ν : Type*} (assigns : ι → Option ν) : List ι → Option ν
  | [] => none
  | input :: rest => (lastAssigned assigns rest).or (assigns input)

/-- A part of the state that every step either assigns or leaves alone holds the value that was
assigned last, and the value from the start if none was. -/
theorem observe_foldl {ν : Type*} {perform : σ → ι → σ} {observe : σ → ν} {assigns : ι → Option ν}
    {inputs : List ι} (observe_step : ∀ input ∈ inputs, ∀ state,
      observe (perform state input) = (assigns input).getD (observe state)) (start : σ) :
    observe (inputs.foldl perform start) =
      (lastAssigned assigns inputs).getD (observe start) := by
  induction inputs generalizing start with
  | nil => rfl
  | cons input rest ih =>
      rw [List.foldl_cons, ih fun other later => observe_step other (List.mem_cons_of_mem _ later),
        observe_step input List.mem_cons_self, lastAssigned]
      cases lastAssigned assigns rest <;> rfl

end Datamime.Math
