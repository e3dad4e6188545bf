/-
# Runs of a fallible step function

A program that reacts to one input at a time is a function from a state and an
input to either a next state or a fault. A run folds that function over a list
of inputs and stops at the first fault. This module supplies the rules every
later module uses about such runs: how a run splits at a prefix, what an
invariant of one step gives for a whole run, and when a property of the states
that a run passes through holds exactly as long as a condition on its steps.
-/

import Mathlib.Data.List.Infix
import Mathlib.Tactic

namespace Datamime.Math

universe u v w

variable {σ : Type u} {ι : Type v} {ε : Type w}

/-- Fold a fallible step over a list of inputs, stopping at the first fault. -/
def run (step : σ → ι → Except ε σ) : σ → List ι → Except ε σ
  | state, [] => .ok state
  | state, input :: rest =>
      match step state input with
      | .ok next => run step next rest
      | .error fault => .error fault

@[simp]
theorem run_nil (step : σ → ι → Except ε σ) (state : σ) :
    run step state [] = .ok state := rfl

theorem run_cons_of_ok {step : σ → ι → Except ε σ} {state next : σ} {input : ι}
    (stepped : step state input = .ok next) (rest : List ι) :
    run step state (input :: rest) = run step next rest := by
  rw [run, stepped]

theorem run_cons_of_error {step : σ → ι → Except ε σ} {state : σ} {input : ι} {fault : ε}
    (stopped : step state input = .error fault) (rest : List ι) :
    run step state (input :: rest) = .error fault := by
  rw [run, stopped]

/-- The first step of a run, isolated. -/
theorem run_cons_eq_ok_iff {step : σ → ι → Except ε σ} {start last : σ} {input : ι}
    {rest : List ι} :
    run step start (input :: rest) = .ok last ↔
      ∃ next, step start input = .ok next ∧ run step next rest = .ok last := by
  rw [run]
  cases step start input <;> simp

/-- A run over a concatenation is a run over the first part, then over the rest. -/
theorem run_append_eq_ok_iff {step : σ → ι → Except ε σ} {start last : σ}
    {first second : List ι} :
    run step start (first ++ second) = .ok last ↔
      ∃ middle, run step start first = .ok middle ∧ run step middle second = .ok last := by
  induction first generalizing start with
  | nil => simp
  | cons input rest ih =>
      rw [List.cons_append, run, run]
      cases step start input with
      | ok next => exact ih
      | error fault => simp

/-- The last step of a run, isolated. -/
theorem run_concat_eq_ok_iff {step : σ → ι → Except ε σ} {start last : σ}
    {inputs : List ι} {input : ι} :
    run step start (inputs ++ [input]) = .ok last ↔
      ∃ middle, run step start inputs = .ok middle ∧ step middle input = .ok last := by
  rw [run_append_eq_ok_iff]
  refine exists_congr fun middle => and_congr_right fun _ => ?_
  rw [run]
  cases step middle input <;> simp

/-- A run that succeeds has taken a step for each input. -/
theorem exists_step_of_run {step : σ → ι → Except ε σ} {start last : σ} {inputs : List ι}
    (reached : run step start inputs = .ok last) {input : ι} (listed : input ∈ inputs) :
    ∃ state next, step state input = .ok next := by
  obtain ⟨early, later, rfl⟩ := List.append_of_mem listed
  obtain ⟨middle, -, onward⟩ := run_append_eq_ok_iff.mp reached
  rw [run] at onward
  cases stepped : step middle input with
  | ok next => exact ⟨middle, next, stepped⟩
  | error fault =>
      rw [stepped] at onward
      cases onward

/-- What one step preserves, a whole run preserves. -/
theorem run_invariant {step : σ → ι → Except ε σ} {good : σ → Prop}
    (preserved : ∀ state input next, good state → step state input = .ok next → good next)
    {start last : σ} {inputs : List ι} (start_good : good start)
    (reached : run step start inputs = .ok last) : good last := by
  induction inputs using List.reverseRecOn generalizing last with
  | nil =>
      cases reached
      exact start_good
  | append_singleton inputs input ih =>
      obtain ⟨middle, atMiddle, stepped⟩ := run_concat_eq_ok_iff.mp reached
      exact preserved middle input last (ih atMiddle) stepped

/-- The same for a loop over the first numbers, with a property that may depend on how far the
loop has come. -/
theorem run_range_invariant {step : σ → ℕ → Except ε σ} {good : ℕ → σ → Prop} {start last : σ}
    {count : ℕ}
    (preserved : ∀ k state next, good k state → step state k = .ok next → good (k + 1) next)
    (start_good : good 0 start) (reached : run step start (List.range count) = .ok last) :
    good count last := by
  induction count generalizing last with
  | zero =>
      cases reached
      exact start_good
  | succ count ih =>
      rw [List.range_succ] at reached
      obtain ⟨middle, atMiddle, stepped⟩ := run_concat_eq_ok_iff.mp reached
      exact preserved count middle last (ih atMiddle) stepped

/-- A run whose every step can be taken from a good state, and keeps it good, ends in one. -/
theorem exists_run_of_total {step : σ → ι → Except ε σ} {good : σ → Prop} {start : σ}
    {inputs : List ι}
    (total : ∀ state, good state → ∀ input ∈ inputs,
      ∃ next, step state input = .ok next ∧ good next)
    (start_good : good start) : ∃ last, run step start inputs = .ok last ∧ good last := by
  induction inputs generalizing start with
  | nil => exact ⟨start, rfl, start_good⟩
  | cons input rest ih =>
      obtain ⟨next, stepped, next_good⟩ := total start start_good input List.mem_cons_self
      rw [run_cons_of_ok stepped]
      exact ih (fun state isGood later isLater =>
        total state isGood later (List.mem_cons_of_mem input isLater)) next_good

/-- The same for a loop over the first numbers. -/
theorem exists_run_range {step : σ → ℕ → Except ε σ} {good : ℕ → σ → Prop} {start : σ} {count : ℕ}
    (start_good : good 0 start)
    (total : ∀ k < count, ∀ state, good k state →
      ∃ next, step state k = .ok next ∧ good (k + 1) next) :
    ∃ last, run step start (List.range count) = .ok last ∧ good count last := by
  induction count with
  | zero => exact ⟨start, rfl, start_good⟩
  | succ count ih =>
      obtain ⟨middle, reached, isGood⟩ := ih fun k isBelow => total k (Nat.lt_succ_of_lt isBelow)
      obtain ⟨next, stepped, next_good⟩ := total count (Nat.lt_succ_self count) middle isGood
      refine ⟨next, ?_, next_good⟩
      rw [List.range_succ, run_concat_eq_ok_iff]
      exact ⟨middle, reached, stepped⟩

/-! ## Properties of the states and of the steps of a run -/

/-- Every state that the run passes through, the first and the last included,
has the property. The property may also read the inputs consumed so far. -/
def AlongRun (step : σ → ι → Except ε σ) (start : σ) (inputs : List ι)
    (good : List ι → σ → Prop) : Prop :=
  ∀ early, early <+: inputs → ∀ state, run step start early = .ok state → good early state

/-- Every step that the run attempts meets the condition: it reads the inputs
before the step, the state before the step and the input of the step. -/
def AtEachStep (step : σ → ι → Except ε σ) (start : σ) (inputs : List ι)
    (condition : List ι → σ → ι → Prop) : Prop :=
  ∀ early input, early ++ [input] <+: inputs →
    ∀ state, run step start early = .ok state → condition early state input

theorem atEachStep_nil {step : σ → ι → Except ε σ} {start : σ}
    {condition : List ι → σ → ι → Prop} : AtEachStep step start [] condition := by
  intro early input isPrefix
  exact absurd (List.prefix_nil.mp isPrefix) (by simp)

/-- The condition on the first step, apart from those on the others. -/
theorem atEachStep_cons_iff {step : σ → ι → Except ε σ} {start : σ} {input : ι} {rest : List ι}
    {condition : List ι → σ → ι → Prop} :
    AtEachStep step start (input :: rest) condition ↔
      condition [] start input ∧ ∀ next, step start input = .ok next →
        AtEachStep step next rest fun early => condition (input :: early) := by
  constructor
  · intro met
    refine ⟨met [] input ⟨rest, rfl⟩ start rfl, fun next stepped early last isPrefix => ?_⟩
    intro state reached
    apply met (input :: early) last (List.cons_prefix_cons.mpr ⟨rfl, isPrefix⟩) state
    rw [run_cons_of_ok stepped]
    exact reached
  · rintro ⟨first, later⟩ early last isPrefix state reached
    cases early with
    | nil =>
        cases reached
        obtain ⟨rfl, -⟩ := List.cons_prefix_cons.mp isPrefix
        exact first
    | cons head early =>
        obtain ⟨rfl, shorter⟩ := List.cons_prefix_cons.mp isPrefix
        cases stepped : step start head with
        | error fault =>
            rw [run_cons_of_error stepped] at reached
            cases reached
        | ok next =>
            rw [run_cons_of_ok stepped] at reached
            exact later next stepped early last shorter state reached

/-- The steps of the second part of a run. -/
theorem AtEachStep.drop {step : σ → ι → Except ε σ} {start middle : σ} {first rest : List ι}
    {condition : List ι → σ → ι → Prop}
    (met : AtEachStep step start (first ++ rest) condition)
    (reached : run step start first = .ok middle) :
    AtEachStep step middle rest fun early => condition (first ++ early) := by
  intro early input isPrefix state atState
  apply met (first ++ early) input
  · rw [List.append_assoc]
    exact (List.prefix_append_right_inj first).mpr isPrefix
  · exact run_append_eq_ok_iff.mpr ⟨middle, reached, atState⟩

/-- Inputs that are in order with the earlier ones are so at each step. -/
theorem atEachStep_of_pairwise {step : σ → ι → Except ε σ} {start : σ} {inputs : List ι}
    {rel : ι → ι → Prop} (ordered : inputs.Pairwise rel) :
    AtEachStep step start inputs fun early _ input => ∀ earlier ∈ early, rel earlier input := by
  intro early input isPrefix _ _ earlier isEarlier
  have orderedPrefix := ordered.sublist isPrefix.sublist
  exact (List.pairwise_append.mp orderedPrefix).2.2 earlier isEarlier input
    (List.mem_singleton_self input)

/-- An invariant of the steps that meet a condition holds along every run whose
steps all meet it. The condition and the invariant may read the past inputs. -/
theorem alongRun_of_atEachStep {step : σ → ι → Except ε σ} {start : σ} {inputs : List ι}
    {good : List ι → σ → Prop} {condition : List ι → σ → ι → Prop}
    (start_good : good [] start)
    (preserved : ∀ early state input next, good early state → condition early state input →
      step state input = .ok next → good (early ++ [input]) next)
    (met : AtEachStep step start inputs condition) :
    AlongRun step start inputs good := by
  intro early
  induction early using List.reverseRecOn with
  | nil =>
      intro _ state reached
      cases reached
      exact start_good
  | append_singleton early input ih =>
      intro isPrefix state reached
      obtain ⟨middle, atMiddle, stepped⟩ := run_concat_eq_ok_iff.mp reached
      have shorter : early <+: inputs := (List.prefix_append early [input]).trans isPrefix
      exact preserved early middle input state (ih shorter middle atMiddle)
        (met early input isPrefix middle atMiddle) stepped

/-- An unconditional invariant holds along every run. -/
theorem alongRun_of_preserved {step : σ → ι → Except ε σ} {start : σ} (inputs : List ι)
    {good : List ι → σ → Prop} (start_good : good [] start)
    (preserved : ∀ early state input next, good early state →
      step state input = .ok next → good (early ++ [input]) next) :
    AlongRun step start inputs good := by
  have met : AtEachStep step start inputs fun _ _ _ => True := fun _ _ _ _ _ => trivial
  exact alongRun_of_atEachStep start_good
    (fun early state input next isGood _ => preserved early state input next isGood) met

/-- The rule for an exact condition. Beside an invariant that every step keeps,
a property survives a step precisely when the step meets the condition. Then the
property holds along a run precisely when every step that the run takes meets it. -/
theorem alongRun_iff_atEachStep {step : σ → ι → Except ε σ} {start : σ} {inputs : List ι}
    {invariant : List ι → σ → Prop} {good : σ → Prop} {condition : σ → ι → Prop}
    (start_invariant : invariant [] start) (start_good : good start)
    (preserved : ∀ early state input next, invariant early state → good state →
      step state input = .ok next → invariant (early ++ [input]) next)
    (exact_step : ∀ early state input next, invariant early state → good state →
      step state input = .ok next → (good next ↔ condition state input)) :
    AlongRun step start inputs (fun _ state => good state) ↔
      AtEachStep step start inputs fun _ state input =>
        ∀ next, step state input = .ok next → condition state input := by
  constructor
  · intro along early input isPrefix state reached next stepped
    have shorter : early <+: inputs := (List.prefix_append early [input]).trans isPrefix
    have staysGood : AtEachStep step start inputs fun _ state input =>
        ∀ next, step state input = .ok next → good next :=
      fun early input isPrefix state reached next stepped =>
        along (early ++ [input]) isPrefix next
          (run_concat_eq_ok_iff.mpr ⟨state, reached, stepped⟩)
    -- The invariant rides along the same run, because the property does.
    have kept : AlongRun step start inputs
        (fun early state => invariant early state ∧ good state) :=
      alongRun_of_atEachStep ⟨start_invariant, start_good⟩
        (fun early state input next both met stepped =>
          ⟨preserved early state input next both.1 both.2 stepped, met next stepped⟩)
        staysGood
    obtain ⟨isInvariant, isGood⟩ := kept early shorter state reached
    exact (exact_step early state input next isInvariant isGood stepped).mp
      (along (early ++ [input]) isPrefix next
        (run_concat_eq_ok_iff.mpr ⟨state, reached, stepped⟩))
  · intro met
    have kept : AlongRun step start inputs
        (fun early state => invariant early state ∧ good state) :=
      alongRun_of_atEachStep ⟨start_invariant, start_good⟩
        (fun early state input next both condition stepped =>
          ⟨preserved early state input next both.1 both.2 stepped,
            (exact_step early state input next both.1 both.2 stepped).mpr
              (condition next stepped)⟩)
        met
    exact fun early isPrefix state reached => (kept early isPrefix state reached).2

/-- Two conditions on the steps that agree in the states of an invariant agree along a
run. Only the steps that meet them have to keep the invariant. -/
theorem atEachStep_congr {step : σ → ι → Except ε σ} {start : σ} {inputs : List ι}
    {invariant : σ → Prop} {given first second : σ → ι → Prop} (start_invariant : invariant start)
    (preserved : ∀ state input next, invariant state → given state input → second state input →
      step state input = .ok next → invariant next)
    (agree : ∀ state input, invariant state → given state input →
      (first state input ↔ second state input))
    (met : AtEachStep step start inputs fun _ state input => given state input) :
    AtEachStep step start inputs (fun _ state input => first state input) ↔
      AtEachStep step start inputs fun _ state input => second state input := by
  induction inputs generalizing start with
  | nil => exact ⟨fun _ => atEachStep_nil, fun _ => atEachStep_nil⟩
  | cons input rest ih =>
      obtain ⟨isGiven, givenLater⟩ := atEachStep_cons_iff.mp met
      rw [atEachStep_cons_iff, atEachStep_cons_iff, agree start input start_invariant isGiven]
      refine and_congr_right fun isSecond => forall₂_congr fun next stepped => ?_
      exact ih (preserved start input next start_invariant isGiven isSecond stepped)
        (givenLater next stepped)

/-! ## Simulation -/

/-- Two machines run side by side. If every step of the first one that meets the condition is a step
of the second one that corresponds to it, then every run is one, step by step. -/
theorem exists_run_of_simulates {τ : Type u} {κ : Type v} {δ : Type w}
    {step : σ → ι → Except ε σ} {image : τ → κ → Except δ τ} {related : σ → τ → Prop}
    {corresponds : ι → κ → Prop} {condition : σ → ι → Prop} {start last : σ} {first : τ}
    {inputs : List ι}
    (simulates : ∀ state other input next, related state other → condition state input →
      step state input = .ok next →
      ∃ event after, corresponds input event ∧ image other event = .ok after ∧ related next after)
    (start_related : related start first)
    (met : AtEachStep step start inputs fun _ state input => condition state input)
    (reached : run step start inputs = .ok last) :
    ∃ events final, List.Forall₂ corresponds inputs events ∧ run image first events = .ok final ∧
      related last final := by
  induction inputs using List.reverseRecOn generalizing last with
  | nil =>
      cases reached
      exact ⟨[], first, .nil, rfl, start_related⟩
  | append_singleton inputs input ih =>
      obtain ⟨state, toState, stepped⟩ := run_concat_eq_ok_iff.mp reached
      obtain ⟨events, other, correspond, toOther, areRelated⟩ := ih
        (fun early later isPrefix => met early later (isPrefix.trans (List.prefix_append _ _)))
        toState
      obtain ⟨event, after, isEvent, isStep, stillRelated⟩ := simulates state other input last
        areRelated (met inputs input (List.prefix_refl _) state toState) stepped
      exact ⟨events ++ [event], after, List.rel_append correspond (.cons isEvent .nil),
        run_concat_eq_ok_iff.mpr ⟨other, toOther, isStep⟩, stillRelated⟩

/-! ## Tests along a run -/

/-- Every step that the run takes passes a test. -/
def checkRun (step : σ → ι → Except ε σ) (test : σ → ι → σ → Bool) : σ → List ι → Bool
  | _, [] => true
  | state, input :: rest =>
      match step state input with
      | .ok next => test state input next && checkRun step test next rest
      | .error _ => true

theorem atEachStep_of_checkRun {step : σ → ι → Except ε σ} {test : σ → ι → σ → Bool} {start : σ}
    {inputs : List ι} (passes : checkRun step test start inputs = true) :
    AtEachStep step start inputs fun _ state input =>
      ∀ next, step state input = .ok next → test state input next = true := by
  induction inputs generalizing start with
  | nil => exact atEachStep_nil
  | cons input rest ih =>
      refine atEachStep_cons_iff.mpr ⟨fun next stepped => ?_, fun next stepped => ?_⟩ <;>
        rw [checkRun, stepped, Bool.and_eq_true] at passes
      · exact passes.1
      · exact ih passes.2

end Datamime.Math
