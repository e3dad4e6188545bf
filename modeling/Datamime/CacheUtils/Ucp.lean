/-
# Utility-based cache partitioning

`do_ucp_mrcs` and `do_ucp_ipcs` hand out the ways of the cache one block at a
time. In each round every application finds the block of ways with the best
utility per way, and the application with the best block gets it. The round
keeps the ways divided between the stacks of the applications and the stack of
ways still to be handed out.
-/

import Datamime.CacheUtils.CosIssue
import Datamime.CacheUtils.MarginalUtil

namespace Datamime.CacheUtils

open Datamime.Math

variable {α : Type}

/-- The state of the allocation loops. -/
structure Allocation where
  partitions : List Stack
  buckets : Stack

/-- Push the top of `buckets` onto the stack of an application. -/
def giveBucket (a : ℕ) (st : Allocation) : Except Misuse Allocation := do
  let stack ← stackAt st.partitions a
  let (way, buckets) ← pop st.buckets
  let partitions ← setStack st.partitions a (way :: stack)
  return { partitions, buckets }

/-- All ways in `buckets`, way 0 on top, and empty stacks for the cores. -/
def emptyAllocation (numLogicalCores cacheNumWays : ℕ) : Allocation where
  partitions := List.replicate numLogicalCores []
  buckets := (List.range cacheNumWays).map Nat.cast

/-- One way for each application. -/
def startAllocation (numApps numLogicalCores cacheNumWays : ℕ) : Except Misuse Allocation :=
  run (fun st a => giveBucket a st) (emptyAllocation numLogicalCores cacheNumWays)
    (List.range numApps)

/-- What differs between the two allocation functions. -/
structure Scheme (α : Type) where
  ops : Arithmetic α
  better : α → α → Bool
  maxMarginalUtil : List α → ℕ → ℕ → Except Misuse (α × ℕ)

/-- The best block of a round so far. `maxMuAppIdx` has no value before the first application. -/
structure Award (α : Type) where
  maxMu : α
  maxMuAppIdx : Option ℕ
  maxMuBuckets : ℕ

/-- One application's turn in a round. -/
def tryApp (scheme : Scheme α) (matrix : CurveMatrix α) (st : Allocation) (best : Award α) (a : ℕ) :
    Except Misuse (Award α) :=
  match matrix.columns[a]? with
  | none => .error .curveBounds
  | some curve => do
      let appPartitions ← stackAt st.partitions a
      let (mu, addBuckets) ← scheme.maxMarginalUtil curve appPartitions.length st.buckets.length
      return if scheme.ops.eq best.maxMu (scheme.ops.ofNat 1000) || scheme.better mu best.maxMu then
          ⟨mu, some a, addBuckets⟩
        else best

/-- The best block of a round. -/
def bestBlock (scheme : Scheme α) (matrix : CurveMatrix α) (st : Allocation) :
    Except Misuse (Award α) :=
  run (tryApp scheme matrix st) ⟨scheme.ops.ofNat 1000, none, 0⟩ (List.range matrix.numApps)

/-- Hand out the block of a round. -/
def giveBlock (st : Allocation) (award : Award α) : Except Misuse Allocation :=
  match award.maxMuAppIdx with
  | none => .ok st
  | some a => run (fun st _ => giveBucket a st) st (List.range award.maxMuBuckets)

/-- One round of the allocation loop. -/
def allocationRound (scheme : Scheme α) (matrix : CurveMatrix α) (st : Allocation) :
    Except Misuse Allocation := do
  let award ← bestBlock scheme matrix st
  giveBlock st award

/-- `while (!buckets.empty())`, for a number of rounds. -/
def allocationLoop (scheme : Scheme α) (matrix : CurveMatrix α) :
    ℕ → Allocation → Except Misuse Allocation
  | rounds, st =>
      if st.buckets = [] then .ok st
      else
        match rounds with
        | 0 => .error .notFinished
        | rounds + 1 => do
            let st ← allocationRound scheme matrix st
            allocationLoop scheme matrix rounds st

/-- The stacks when the allocation loop ends. -/
def allocate (scheme : Scheme α) (matrix : CurveMatrix α)
    (numLogicalCores cacheNumWays rounds : ℕ) : Except Misuse (List Stack) := do
  let st ← startAllocation matrix.numApps numLogicalCores cacheNumWays
  let st ← allocationLoop scheme matrix rounds st
  return st.partitions

/-- The scheme of `do_ucp_mrcs`. -/
def mrcScheme (ops : Arithmetic α) : Scheme α :=
  ⟨ops, betterMrc ops, getMaxMarginalUtilMrcs ops⟩

/-- The scheme of `do_ucp_ipcs`. -/
def ipcScheme (ops : Arithmetic α) : Scheme α :=
  ⟨ops, betterIpc ops, getMaxMarginalUtilIpcs ops⟩

/-- `do_ucp_mrcs` up to the end of its allocation loop. -/
def allocateMrcs (ops : Arithmetic α) (mpkiVsWays : CurveMatrix α)
    (numLogicalCores cacheNumWays rounds : ℕ) : Except Misuse (List Stack) :=
  allocate (mrcScheme ops) (smoothenMrcs ops mpkiVsWays) numLogicalCores cacheNumWays rounds

/-- `do_ucp_ipcs` up to the end of its allocation loop. -/
def allocateIpcs (ops : Arithmetic α) (ipcVsWays : CurveMatrix α)
    (numLogicalCores cacheNumWays rounds : ℕ) : Except Misuse (List Stack) :=
  allocate (ipcScheme ops) (smoothenIpcs ops ipcVsWays) numLogicalCores cacheNumWays rounds

/-! ## The invariant -/

/-- The ways are divided between the applications, each of which has one, and `buckets`. -/
structure Allocation.Divides (numApps numLogicalCores cacheNumWays : ℕ) (st : Allocation) :
    Prop where
  cores : st.partitions.length = numLogicalCores
  ways : (st.partitions.flatten ++ st.buckets).Perm ((List.range cacheNumWays).map Nat.cast)
  held : ∀ a < numApps, ∃ stack, st.partitions[a]? = some stack ∧ stack ≠ []
  unused : ∀ a stack, numApps ≤ a → st.partitions[a]? = some stack → stack = []

section

variable {numApps numLogicalCores cacheNumWays : ℕ} {st next : Allocation} {a : ℕ} {stack : Stack}

theorem giveBucket_eq {way : ℤ} {buckets : Stack} (isStack : st.partitions[a]? = some stack)
    (isTop : st.buckets = way :: buckets) :
    giveBucket a st = .ok ⟨st.partitions.set a (way :: stack), buckets⟩ := by
  obtain ⟨within, -⟩ := List.getElem?_eq_some_iff.mp isStack
  rw [giveBucket, stackAt_eq_ok isStack, ok_bind, isTop, pop, ok_bind]
  dsimp only
  rw [setStack_eq_ok within, ok_bind]
  rfl

/-- Giving a block, way by way. -/
theorem giveBuckets_eq {count : ℕ} (isStack : st.partitions[a]? = some stack)
    (enough : count ≤ st.buckets.length) (inputs : List ℕ) (size : inputs.length = count) :
    run (fun st _ => giveBucket a st) st inputs =
      .ok ⟨st.partitions.set a ((st.buckets.take count).reverse ++ stack),
        st.buckets.drop count⟩ := by
  induction inputs generalizing st stack count with
  | nil =>
      cases size
      obtain ⟨within, isEntry⟩ := List.getElem?_eq_some_iff.mp isStack
      rw [run_nil, List.length_nil, List.take_zero, List.drop_zero, List.reverse_nil,
        List.nil_append, ← isEntry, List.set_getElem_self]
  | cons input rest ih =>
      obtain ⟨within, -⟩ := List.getElem?_eq_some_iff.mp isStack
      rw [List.length_cons] at size
      subst size
      obtain ⟨way, buckets, isTop⟩ : ∃ way buckets, st.buckets = way :: buckets :=
        List.exists_cons_of_length_pos (by omega)
      rw [isTop, List.length_cons] at enough
      rw [run_cons_of_ok (giveBucket_eq isStack isTop),
        @ih ⟨st.partitions.set a (way :: stack), buckets⟩ (way :: stack) rest.length
          (List.getElem?_set_self within) (by simpa using enough) rfl, List.set_set, isTop,
        List.take_succ_cons, List.drop_succ_cons, List.reverse_cons, List.append_assoc]
      rfl

/-- The same ways after a block has been given. -/
theorem perm_give {count : ℕ} (isStack : st.partitions[a]? = some stack) :
    ((st.partitions.set a ((st.buckets.take count).reverse ++ stack)).flatten ++
      st.buckets.drop count).Perm (st.partitions.flatten ++ st.buckets) := by
  refine List.perm_iff_count.mpr fun way => ?_
  have replaced := count_flatten_set isStack ((st.buckets.take count).reverse ++ stack) way
  have split := congrArg (List.count way) (List.take_append_drop count st.buckets)
  rw [List.count_append] at split
  rw [List.count_append, List.count_reverse] at replaced
  rw [List.count_append, List.count_append]
  omega

/-- Giving a block to an application, perhaps as its first. -/
theorem Allocation.Divides.give (divides : st.Divides numApps numLogicalCores cacheNumWays)
    {count later : ℕ} (isStack : st.partitions[a]? = some stack)
    (isApp : ∀ other, other < later ↔ other < numApps ∨ other = a)
    (notEmpty : (st.buckets.take count).reverse ++ stack ≠ []) :
    Allocation.Divides later numLogicalCores cacheNumWays
      ⟨st.partitions.set a ((st.buckets.take count).reverse ++ stack), st.buckets.drop count⟩ where
  cores := by
    rw [List.length_set]
    exact divides.cores
  ways := (perm_give isStack).trans divides.ways
  held := by
    intro other isOther
    obtain ⟨within, -⟩ := List.getElem?_eq_some_iff.mp isStack
    by_cases same : a = other
    · subst same
      exact ⟨_, List.getElem?_set_self within, notEmpty⟩
    · obtain ⟨own, isOwn, hasOwn⟩ :=
        divides.held other (((isApp other).mp isOther).resolve_right (Ne.symm same))
      exact ⟨own, by rw [List.getElem?_set_ne same, isOwn], hasOwn⟩
  unused := by
    intro other own isUnused isOwn
    have notApp : ¬ (other < numApps ∨ other = a) := fun isIn =>
      absurd ((isApp other).mpr isIn) (not_lt.mpr isUnused)
    rw [List.getElem?_set_ne fun same => notApp (.inr same.symm)] at isOwn
    exact divides.unused other own (not_lt.mp fun isIn => notApp (.inl isIn)) isOwn

/-- An application's ways and those still to be handed out are no more than there are. -/
theorem Allocation.Divides.size_le (divides : st.Divides numApps numLogicalCores cacheNumWays)
    (isStack : st.partitions[a]? = some stack) :
    stack.length + st.buckets.length ≤ cacheNumWays := by
  have total := divides.ways.length_eq
  rw [List.length_append, List.length_map, List.length_range] at total
  have part : stack.length ≤ st.partitions.flatten.length :=
    (List.sublist_flatten_of_mem (List.mem_of_getElem? isStack)).length_le
  omega

/-- The ways that the first applications got. -/
structure Allocation.Started (numLogicalCores cacheNumWays given : ℕ) (st : Allocation) :
    Prop where
  divides : st.Divides given numLogicalCores cacheNumWays
  left : st.buckets.length + given = cacheNumWays
  single : ∀ (a : ℕ) (stack : Stack), st.partitions[a]? = some stack → stack.length ≤ 1

theorem started_empty (numLogicalCores cacheNumWays : ℕ) :
    (emptyAllocation numLogicalCores cacheNumWays).Started numLogicalCores cacheNumWays 0 := by
  have none_given : ∀ (a : ℕ) (stack : Stack),
      (emptyAllocation numLogicalCores cacheNumWays).partitions[a]? = some stack → stack = [] := by
    intro a stack isStack
    rw [emptyAllocation, List.getElem?_replicate] at isStack
    split at isStack
    · cases isStack
      rfl
    · cases isStack
  refine ⟨⟨List.length_replicate, ?_, fun a isApp => absurd isApp (Nat.not_lt_zero a),
    fun a stack _ => none_given a stack⟩, ?_, fun a stack isStack => ?_⟩
  · have noWays : (List.replicate numLogicalCores ([] : Stack)).flatten = [] := by
      simp
    rw [emptyAllocation, noWays, List.nil_append]
  · rw [emptyAllocation, List.length_map, List.length_range, Nat.add_zero]
  · rw [none_given a stack isStack]
    exact Nat.zero_le 1

theorem exists_started {numApps : ℕ} (fits : numApps ≤ cacheNumWays)
    (enough : numApps ≤ numLogicalCores) :
    ∃ st, startAllocation numApps numLogicalCores cacheNumWays = .ok st ∧
      st.Started numLogicalCores cacheNumWays numApps := by
  refine exists_run_range (started_empty numLogicalCores cacheNumWays)
    fun given isBelow st started => ?_
  have within : given < st.partitions.length := by
    rw [started.divides.cores]
    omega
  have isStack : st.partitions[given]? = some [] := by
    rw [List.getElem?_eq_getElem within]
    exact congrArg some
      (started.divides.unused given _ (le_refl given) (List.getElem?_eq_getElem within))
  have left := started.left
  obtain ⟨way, buckets, isTop⟩ : ∃ way buckets, st.buckets = way :: buckets :=
    List.exists_cons_of_length_pos (by omega)
  refine ⟨_, giveBucket_eq isStack isTop, ?_, ?_, ?_⟩
  · have given_one := @Allocation.Divides.give _ _ _ _ _ _ started.divides 1 (given + 1) isStack
      (fun other => Nat.lt_succ_iff_lt_or_eq) (by rw [isTop]; simp)
    rw [isTop] at given_one
    exact given_one
  · rw [isTop, List.length_cons] at left
    dsimp only
    omega
  · intro a stack isEntry
    by_cases same : given = a
    · subst same
      rw [List.getElem?_set_self within] at isEntry
      cases isEntry
      exact le_refl 1
    · rw [List.getElem?_set_ne same] at isEntry
      exact started.single a stack isEntry

end

/-! ## A round -/

/-- Inside the bounds of the curves every search for the best block ends with a block. -/
def Scheme.DefinedOn (scheme : Scheme α) (matrix : CurveMatrix α) (cacheNumWays : ℕ) : Prop :=
  ∀ curve ∈ matrix.columns, ∀ cur parts, 1 ≤ cur → 1 ≤ parts → cur + parts ≤ cacheNumWays →
    ∃ mu part, scheme.maxMarginalUtil curve cur parts = .ok (mu, part) ∧ 1 ≤ part ∧ part ≤ parts

section

variable {scheme : Scheme α} {matrix : CurveMatrix α} {numLogicalCores cacheNumWays : ℕ}
  {st : Allocation}

theorem tryApp_eq {a part : ℕ} {curve : List α} {stack : Stack} {mu : α} (best : Award α)
    (isCurve : matrix.columns[a]? = some curve) (isStack : st.partitions[a]? = some stack)
    (isBest : scheme.maxMarginalUtil curve stack.length st.buckets.length = .ok (mu, part)) :
    tryApp scheme matrix st best a =
      .ok (if scheme.ops.eq best.maxMu (scheme.ops.ofNat 1000) || scheme.better mu best.maxMu then
        ⟨mu, some a, part⟩ else best) := by
  rw [tryApp, isCurve]
  dsimp only
  rw [stackAt_eq_ok isStack, ok_bind, isBest, ok_bind]
  rfl

/-- An application's turn, in a state that divides the ways. -/
theorem exists_turn (defined : scheme.DefinedOn matrix cacheNumWays)
    (divides : st.Divides matrix.numApps numLogicalCores cacheNumWays) (left : st.buckets ≠ [])
    {a : ℕ} (isApp : a < matrix.numApps) :
    ∃ curve stack mu part, matrix.columns[a]? = some curve ∧ st.partitions[a]? = some stack ∧
      scheme.maxMarginalUtil curve stack.length st.buckets.length = .ok (mu, part) ∧ 1 ≤ part ∧
      part ≤ st.buckets.length := by
  obtain ⟨stack, isStack, notEmpty⟩ := divides.held a isApp
  have isCurve : matrix.columns[a]? = some matrix.columns[a] := List.getElem?_eq_getElem isApp
  obtain ⟨mu, part, isBest, some_part, within⟩ := defined matrix.columns[a]
    (List.getElem_mem isApp) stack.length st.buckets.length (List.length_pos_of_ne_nil notEmpty)
    (List.length_pos_of_ne_nil left) (divides.size_le isStack)
  exact ⟨_, stack, mu, part, isCurve, isStack, isBest, some_part, within⟩

/-- A round finds an application and a block that the remaining ways suffice for. -/
theorem exists_bestBlock (defined : scheme.DefinedOn matrix cacheNumWays)
    (divides : st.Divides matrix.numApps numLogicalCores cacheNumWays) (left : st.buckets ≠ [])
    (some_app : 1 ≤ matrix.numApps) :
    ∃ mu a part, bestBlock scheme matrix st = .ok ⟨mu, some a, part⟩ ∧ a < matrix.numApps ∧
      1 ≤ part ∧ part ≤ st.buckets.length := by
  have found : ∃ award, bestBlock scheme matrix st = .ok award ∧
      (matrix.numApps = 0 ∨ ∃ mu a part, award = ⟨mu, some a, part⟩ ∧ a < matrix.numApps ∧
        1 ≤ part ∧ part ≤ st.buckets.length) := by
    refine @exists_run_range _ _ (tryApp scheme matrix st)
      (fun k award => (k = 0 ∧ award = ⟨scheme.ops.ofNat 1000, none, 0⟩) ∨
        ∃ mu a part, award = ⟨mu, some a, part⟩ ∧ a < matrix.numApps ∧ 1 ≤ part ∧
          part ≤ st.buckets.length)
      _ matrix.numApps (.inl ⟨rfl, rfl⟩) (fun a isApp award soFar => ?_) |>.imp
        fun award isRun => ⟨isRun.1, isRun.2.imp_left And.left⟩
    obtain ⟨curve, stack, mu, part, isCurve, isStack, isBest, some_part, within⟩ :=
      exists_turn defined divides left isApp
    refine ⟨_, tryApp_eq award isCurve isStack isBest, .inr ?_⟩
    rcases soFar with ⟨-, rfl⟩ | earlier
    · rw [scheme.ops.sentinel, Bool.true_or, if_pos rfl]
      exact ⟨mu, a, part, rfl, isApp, some_part, within⟩
    · split
      · exact ⟨mu, a, part, rfl, isApp, some_part, within⟩
      · exact earlier
  obtain ⟨award, isRun, isZero | ⟨mu, a, part, rfl, isApp, some_part, within⟩⟩ := found
  · omega
  · exact ⟨mu, a, part, isRun, isApp, some_part, within⟩

theorem allocationRound_eq {mu : α} {a part : ℕ} {stack : Stack}
    (isBest : bestBlock scheme matrix st = .ok ⟨mu, some a, part⟩)
    (isStack : st.partitions[a]? = some stack) (within : part ≤ st.buckets.length) :
    allocationRound scheme matrix st =
      .ok ⟨st.partitions.set a ((st.buckets.take part).reverse ++ stack),
        st.buckets.drop part⟩ := by
  rw [allocationRound, isBest, ok_bind, giveBlock]
  exact giveBuckets_eq isStack within _ List.length_range

/-- A round divides the ways again and leaves fewer to be handed out. -/
theorem exists_round (defined : scheme.DefinedOn matrix cacheNumWays)
    (divides : st.Divides matrix.numApps numLogicalCores cacheNumWays) (left : st.buckets ≠ [])
    (some_app : 1 ≤ matrix.numApps) :
    ∃ next, allocationRound scheme matrix st = .ok next ∧
      next.Divides matrix.numApps numLogicalCores cacheNumWays ∧
      next.buckets.length < st.buckets.length := by
  obtain ⟨mu, a, part, isBest, isApp, some_part, within⟩ :=
    exists_bestBlock defined divides left some_app
  obtain ⟨stack, isStack, notEmpty⟩ := divides.held a isApp
  refine ⟨_, allocationRound_eq isBest isStack within, ?_, ?_⟩
  · refine divides.give isStack (fun other => ⟨.inl, fun isIn => ?_⟩) fun isEmpty => notEmpty ?_
    · rcases isIn with isOther | rfl
      · exact isOther
      · exact isApp
    · exact (List.append_eq_nil_iff.mp isEmpty).2
  · dsimp only
    rw [List.length_drop]
    omega

/-! ## Calls that return -/

section

variable {scheme : Scheme α} {matrix : CurveMatrix α} {st next : Allocation}
  {numApps numLogicalCores cacheNumWays : ℕ}

theorem divides_of_giveBucket {a later : ℕ}
    (divides : st.Divides numApps numLogicalCores cacheNumWays)
    (isApp : ∀ other, other < later ↔ other < numApps ∨ other = a)
    (given : giveBucket a st = .ok next) :
    next.Divides later numLogicalCores cacheNumWays := by
  obtain ⟨stack, found, given⟩ := bind_eq_ok_iff.mp given
  obtain ⟨⟨way, buckets⟩, popped, given⟩ := bind_eq_ok_iff.mp given
  obtain ⟨partitions, replaced, given⟩ := bind_eq_ok_iff.mp given
  cases isBuckets : st.buckets with
  | nil =>
      rw [isBuckets] at popped
      cases popped
  | cons top rest =>
      rw [isBuckets] at popped
      cases popped
      have isStack := getElem?_of_stackAt found
      have within := (List.getElem?_eq_some_iff.mp isStack).1
      rw [setStack_eq_ok within] at replaced
      cases replaced
      cases given
      have moved := @Allocation.Divides.give _ _ _ _ _ _ divides 1 later isStack isApp
        (by rw [isBuckets]; simp)
      rwa [isBuckets] at moved

theorem divides_of_startAllocation
    (started : startAllocation numApps numLogicalCores cacheNumWays = .ok st) :
    st.Divides numApps numLogicalCores cacheNumWays :=
  @run_range_invariant _ _ _ (fun given st => st.Divides given numLogicalCores cacheNumWays) _ _ _
    (fun _ _ _ divides given =>
      divides_of_giveBucket divides (fun _ => Nat.lt_succ_iff_lt_or_eq) given)
    (started_empty numLogicalCores cacheNumWays).divides started

/-- A round awards its block to an application. -/
theorem isApp_of_bestBlock {award : Award α} (found : bestBlock scheme matrix st = .ok award)
    {a : ℕ} (isAward : award.maxMuAppIdx = some a) : a < matrix.numApps := by
  refine @run_invariant _ _ _ (tryApp scheme matrix st)
    (fun best => ∀ a, best.maxMuAppIdx = some a → a < matrix.numApps) ?_ _ _ _
    (fun a isNone => by cases isNone) found a isAward
  intro best input later sofar turn other isOther
  rw [tryApp] at turn
  cases isCurve : matrix.columns[input]? with
  | none =>
      rw [isCurve] at turn
      cases turn
  | some curve =>
      rw [isCurve] at turn
      obtain ⟨stack, -, turn⟩ := bind_eq_ok_iff.mp turn
      obtain ⟨⟨mu, addBuckets⟩, -, turn⟩ := bind_eq_ok_iff.mp turn
      cases turn
      split at isOther
      · cases isOther
        exact (List.getElem?_eq_some_iff.mp isCurve).1
      · exact sofar other isOther

theorem divides_of_round
    (divides : st.Divides matrix.numApps numLogicalCores cacheNumWays)
    (awarded : allocationRound scheme matrix st = .ok next) :
    next.Divides matrix.numApps numLogicalCores cacheNumWays := by
  obtain ⟨award, found, given⟩ := bind_eq_ok_iff.mp awarded
  rw [giveBlock] at given
  split at given
  · cases given
    exact divides
  · rename_i a isAward
    have isApp := isApp_of_bestBlock found isAward
    refine run_invariant (fun before input after kept stepped => ?_) divides given
    refine divides_of_giveBucket kept (fun other => ⟨.inl, fun isIn => ?_⟩) stepped
    rcases isIn with isOther | rfl
    · exact isOther
    · exact isApp

end

/-! ## The loop -/

theorem allocationLoop_of_empty (isEmpty : st.buckets = []) (rounds : ℕ) :
    allocationLoop scheme matrix rounds st = .ok st := by
  unfold allocationLoop
  rw [if_pos isEmpty]

theorem allocationLoop_succ (left : st.buckets ≠ []) (rounds : ℕ) :
    allocationLoop scheme matrix (rounds + 1) st = (do
      let st ← allocationRound scheme matrix st
      allocationLoop scheme matrix rounds st) := by
  rw [allocationLoop, if_neg left]

/-- With a round for each way that is left the loop ends, and keeps what a round keeps. -/
theorem exists_allocationLoop {good : Allocation → Prop}
    (round : ∀ st, good st → st.buckets ≠ [] → ∃ next, allocationRound scheme matrix st = .ok next ∧
      good next ∧ next.buckets.length < st.buckets.length)
    (isGood : good st) :
    ∃ last : Allocation,
      (∀ rounds, st.buckets.length ≤ rounds →
        allocationLoop scheme matrix rounds st = .ok last) ∧
      good last ∧ last.buckets = [] := by
  induction size : st.buckets.length using Nat.strong_induction_on generalizing st with
  | _ count ih =>
      by_cases isEmpty : st.buckets = []
      · exact ⟨st, fun rounds _ => allocationLoop_of_empty isEmpty rounds, isGood, isEmpty⟩
      · obtain ⟨next, isNext, nextGood, fewer⟩ := round st isGood isEmpty
        obtain ⟨last, isLast, lastGood, none_left⟩ :=
          ih next.buckets.length (size ▸ fewer) nextGood rfl
        refine ⟨last, fun rounds enough => ?_, lastGood, none_left⟩
        obtain ⟨fewerRounds, rfl⟩ : ∃ fewerRounds, rounds = fewerRounds + 1 :=
          ⟨rounds - 1, by omega⟩
        rw [allocationLoop_succ isEmpty, isNext, ok_bind]
        exact isLast fewerRounds (by omega)

end

/-! ## The whole allocation -/

/-- The ways are partitioned among the first stacks, none of which is empty. -/
def Partitioned (numApps cacheNumWays : ℕ) (partitions : List Stack) : Prop :=
  (partitions.take numApps).flatten.Perm ((List.range cacheNumWays).map Nat.cast) ∧
    ∀ a < numApps, ∃ stack, partitions[a]? = some stack ∧ stack ≠ []

/-- The loops end, without reading outside a curve or taking from an empty stack, and leave the
ways partitioned among the applications. -/
def AllocatesAll (numApps cacheNumWays : ℕ) (allocation : ℕ → Except Misuse (List Stack)) : Prop :=
  ∃ partitions, (∀ rounds, cacheNumWays ≤ rounds → allocation rounds = .ok partitions) ∧
    Partitioned numApps cacheNumWays partitions

section

variable {scheme : Scheme α} {matrix : CurveMatrix α} {numLogicalCores cacheNumWays : ℕ}
  {st : Allocation}

theorem Allocation.Divides.partitioned {numApps : ℕ}
    (divides : st.Divides numApps numLogicalCores cacheNumWays) (none_left : st.buckets = []) :
    Partitioned numApps cacheNumWays st.partitions := by
  refine ⟨?_, divides.held⟩
  have unused : (st.partitions.drop numApps).flatten = [] := by
    refine List.flatten_eq_nil_iff.mpr fun stack isMember => ?_
    obtain ⟨i, isStack⟩ := List.mem_iff_getElem?.mp isMember
    rw [List.getElem?_drop] at isStack
    exact divides.unused (numApps + i) stack (Nat.le_add_right numApps i) isStack
  have all := divides.ways
  rw [none_left, List.append_nil, ← List.take_append_drop numApps st.partitions,
    List.flatten_append, unused, List.append_nil] at all
  exact all

theorem allocatesAll_of_definedOn (defined : scheme.DefinedOn matrix cacheNumWays)
    (some_app : 1 ≤ matrix.numApps) (fits : matrix.numApps ≤ cacheNumWays)
    (enough : matrix.numApps ≤ numLogicalCores) :
    AllocatesAll matrix.numApps cacheNumWays
      (allocate scheme matrix numLogicalCores cacheNumWays) := by
  obtain ⟨st, isStart, started⟩ := exists_started fits enough
  obtain ⟨last, isLast, divides, none_left⟩ := exists_allocationLoop
    (fun st divides left => exists_round defined divides left some_app) started.divides
  refine ⟨last.partitions, fun rounds many => ?_, divides.partitioned none_left⟩
  have left := started.left
  rw [allocate, isStart, ok_bind, isLast rounds (by omega), ok_bind]
  rfl

end

section

variable (ops : Arithmetic α) (matrix : CurveMatrix α)

theorem mrcScheme_definedOn : (mrcScheme ops).DefinedOn matrix matrix.nRows := by
  intro curve isCurve cur parts held some_part within
  refine exists_maxMarginalUtil ops _ some_part fun p _ isPart => ?_
  exact exists_mrcUtility ops held (by rw [matrix.sized curve isCurve]; omega)

theorem ipcScheme_definedOn (base : 3 ≤ matrix.nRows) :
    (ipcScheme ops).DefinedOn matrix matrix.nRows := by
  intro curve isCurve cur parts held some_part within
  refine exists_maxMarginalUtil ops _ some_part fun p _ isPart => ?_
  exact exists_ipcUtility ops held (by rw [matrix.sized curve isCurve]; omega)
    (by rwa [matrix.sized curve isCurve])

theorem numApps_smoothen (pick : α → α → α) : (smoothen pick matrix).numApps = matrix.numApps :=
  List.length_map _

theorem allocateMrcs_allocatesAll {numLogicalCores : ℕ} (some_app : 1 ≤ matrix.numApps)
    (fits : matrix.numApps ≤ matrix.nRows) (enough : matrix.numApps ≤ numLogicalCores) :
    AllocatesAll matrix.numApps matrix.nRows
      (allocateMrcs ops matrix numLogicalCores matrix.nRows) := by
  have sameApps : (smoothenMrcs ops matrix).numApps = matrix.numApps := numApps_smoothen matrix _
  rw [← sameApps] at some_app fits enough ⊢
  exact allocatesAll_of_definedOn (mrcScheme_definedOn ops _) some_app fits enough

theorem allocateIpcs_allocatesAll {numLogicalCores : ℕ} (some_app : 1 ≤ matrix.numApps)
    (fits : matrix.numApps ≤ matrix.nRows) (enough : matrix.numApps ≤ numLogicalCores)
    (base : 3 ≤ matrix.nRows) :
    AllocatesAll matrix.numApps matrix.nRows
      (allocateIpcs ops matrix numLogicalCores matrix.nRows) := by
  have sameApps : (smoothenIpcs ops matrix).numApps = matrix.numApps := numApps_smoothen matrix _
  rw [← sameApps] at some_app fits enough ⊢
  exact allocatesAll_of_definedOn (ipcScheme_definedOn ops _ base) some_app fits enough

/-- When every application gets the one way it starts with, no utility is looked up. -/
theorem allocate_of_full {scheme : Scheme α} {numLogicalCores : ℕ}
    (full : matrix.numApps = matrix.nRows) (enough : matrix.numApps ≤ numLogicalCores) :
    AllocatesAll matrix.numApps matrix.nRows
      (allocate scheme matrix numLogicalCores matrix.nRows) := by
  obtain ⟨st, isStart, started⟩ := exists_started (le_of_eq full) enough
  have none_left : st.buckets = [] := by
    apply List.eq_nil_of_length_eq_zero
    have left := started.left
    omega
  refine ⟨st.partitions, fun rounds _ => ?_, started.divides.partitioned none_left⟩
  rw [allocate, isStart, ok_bind, allocationLoop_of_empty none_left, ok_bind]
  rfl

/-- With fewer than three ways the first utility already reads outside its curve. -/
theorem allocate_eq_error {numLogicalCores : ℕ} (some_app : 1 ≤ matrix.numApps)
    (fits : matrix.numApps < matrix.nRows) (enough : matrix.numApps ≤ numLogicalCores)
    (noBase : matrix.nRows < 3) (rounds : ℕ) :
    allocate (ipcScheme ops) matrix numLogicalCores matrix.nRows (rounds + 1) =
      .error .curveBounds := by
  obtain ⟨st, isStart, started⟩ := exists_started (le_of_lt fits) enough
  have left := started.left
  have notEmpty : st.buckets ≠ [] := fun isEmpty => by
    rw [isEmpty, List.length_nil] at left
    omega
  obtain ⟨stack, isStack, held⟩ := started.divides.held 0 some_app
  have isCurve : matrix.columns[0]? = some matrix.columns[0] := List.getElem?_eq_getElem some_app
  have size := matrix.sized matrix.columns[0] (List.getElem_mem some_app)
  obtain ⟨parts, isParts⟩ : ∃ parts, st.buckets.length = parts + 1 :=
    ⟨st.buckets.length - 1, by omega⟩
  have within := started.divides.size_le isStack
  have outside : tryPart ops (betterIpc ops)
      (ipcUtility ops matrix.columns[0] stack.length) (ops.ofNat 1000, 0) 1 =
      .error .curveBounds := by
    rw [tryPart, ipcUtility_eq_error ops (List.length_pos_of_ne_nil held) (by omega) (by omega)]
    rfl
  have searched : (ipcScheme ops).maxMarginalUtil matrix.columns[0] stack.length
      st.buckets.length = .error .curveBounds := by
    have isSearch : (ipcScheme ops).maxMarginalUtil = getMaxMarginalUtilIpcs ops := rfl
    rw [isSearch, getMaxMarginalUtilIpcs, maxMarginalUtil, isParts, List.range'_succ]
    exact run_cons_of_error outside _
  have turned : tryApp (ipcScheme ops) matrix st ⟨(ipcScheme ops).ops.ofNat 1000, none, 0⟩ 0 =
      .error .curveBounds := by
    rw [tryApp, isCurve]
    dsimp only
    rw [stackAt_eq_ok isStack, ok_bind, searched, error_bind]
  obtain ⟨others, isCount⟩ : ∃ others, matrix.numApps = others + 1 :=
    ⟨matrix.numApps - 1, by omega⟩
  have noBlock : bestBlock (ipcScheme ops) matrix st = .error .curveBounds := by
    rw [bestBlock, isCount, List.range_succ_eq_map]
    exact run_cons_of_error turned _
  rw [allocate, isStart, ok_bind, allocationLoop_succ notEmpty, allocationRound, noBlock,
    error_bind, error_bind, error_bind]

/-- Both allocations end with the ways partitioned precisely if the cache has three ways or no
way is left after each application has got its first. -/
theorem ucp_partitions_iff {numLogicalCores : ℕ} (some_app : 1 ≤ matrix.numApps)
    (fits : matrix.numApps ≤ matrix.nRows) (enough : matrix.numApps ≤ numLogicalCores) :
    AllocatesAll matrix.numApps matrix.nRows
        (allocateMrcs ops matrix numLogicalCores matrix.nRows) ∧
      AllocatesAll matrix.numApps matrix.nRows
        (allocateIpcs ops matrix numLogicalCores matrix.nRows) ↔
      3 ≤ matrix.nRows ∨ matrix.numApps = matrix.nRows := by
  have sameApps : (smoothenIpcs ops matrix).numApps = matrix.numApps := numApps_smoothen matrix _
  constructor
  · rintro ⟨-, partitions, isResult, -⟩
    by_contra neither
    obtain ⟨noBase, notFull⟩ := not_or.mp neither
    have stops := @allocate_eq_error _ ops (smoothenIpcs ops matrix) numLogicalCores
      (by rwa [sameApps]) (by rw [sameApps]; exact lt_of_le_of_ne fits notFull)
      (by rwa [sameApps]) (not_le.mp noBase) matrix.nRows
    have ends := isResult (matrix.nRows + 1) (Nat.le_succ _)
    rw [allocateIpcs] at ends
    cases ends.symm.trans stops
  · rintro (base | full)
    · exact ⟨allocateMrcs_allocatesAll ops matrix some_app fits enough,
        allocateIpcs_allocatesAll ops matrix some_app fits enough base⟩
    · refine ⟨allocateMrcs_allocatesAll ops matrix some_app fits enough, ?_⟩
      rw [← sameApps] at full enough ⊢
      exact allocate_of_full (smoothenIpcs ops matrix) full enough

end

/-! ## The allocation functions -/

/-- The end of an allocation function: its block for ways 10 and 11, over the applications. -/
def settleUcp (garbageId garbageSize : ℤ) (numApps : ℕ) (partitions : List Stack) :
    Except Misuse (List Stack) := do
  let settled ← cosIssueBlock garbageId garbageSize (partitions.take numApps)
  return settled ++ partitions.drop numApps

/-- `do_ucp_mrcs`, up to the plan that it applies. -/
def doUcpMrcs (garbageId garbageSize : ℤ) (ops : Arithmetic α) (mpkiVsWays : CurveMatrix α)
    (numLogicalCores cacheNumWays rounds : ℕ) : Except Misuse (List Stack) := do
  let partitions ← allocateMrcs ops mpkiVsWays numLogicalCores cacheNumWays rounds
  settleUcp garbageId garbageSize mpkiVsWays.numApps partitions

/-- `do_ucp_ipcs`, up to the plan that it applies. -/
def doUcpIpcs (garbageId garbageSize : ℤ) (ops : Arithmetic α) (ipcVsWays : CurveMatrix α)
    (numLogicalCores cacheNumWays rounds : ℕ) : Except Misuse (List Stack) := do
  let partitions ← allocateIpcs ops ipcVsWays numLogicalCores cacheNumWays rounds
  settleUcp garbageId garbageSize ipcVsWays.numApps partitions

/-- On a cache with ways 10 and 11 the end of the function keeps the ways partitioned. -/
theorem exists_settleUcp {numApps cacheNumWays : ℕ} {partitions : List Stack}
    (partitioned : Partitioned numApps cacheNumWays partitions) (large : 12 ≤ cacheNumWays)
    (garbageId garbageSize : ℤ) :
    ∃ settled, settleUcp garbageId garbageSize numApps partitions = .ok settled ∧
      Partitioned numApps cacheNumWays settled ∧
      ((∃ stack ∈ partitions.take numApps, 2 ≤ stack.length) → Together settled) := by
  obtain ⟨ways, held⟩ := partitioned
  have distinct : (partitions.take numApps).flatten.Nodup :=
    ways.nodup_iff.mpr ((List.nodup_range).map fun _ _ same => by exact_mod_cast same)
  have isWay : ∀ way : ℕ, way < 12 → (way : ℤ) ∈ (partitions.take numApps).flatten :=
    fun way small => ways.mem_iff.mpr
      (List.mem_map.mpr ⟨way, List.mem_range.mpr (by omega), rfl⟩)
  obtain ⟨settled, isSettled, ⟨same, sizes⟩, together, -⟩ :=
    relocate_settles ⟨garbageId, -1, garbageSize, -1⟩ distinct (isWay 10 (by decide))
      (isWay 11 (by decide))
  have count : settled.length = (partitions.take numApps).length := by
    have lengths := congrArg List.length sizes
    rwa [List.length_map, List.length_map] at lengths
  have enough : numApps ≤ partitions.length := by
    cases numApps with
    | zero => exact Nat.zero_le _
    | succ last =>
        obtain ⟨stack, isStack, -⟩ := held last (Nat.lt_succ_self last)
        exact (List.getElem?_eq_some_iff.mp isStack).1
  rw [List.length_take, min_eq_left enough] at count
  refine ⟨settled ++ partitions.drop numApps, ?_, ⟨?_, fun a isApp => ?_⟩, fun isLarge => ?_⟩
  · rw [settleUcp, cosIssueBlock, isSettled, ok_bind]
    rfl
  · rw [← count, List.take_left]
    exact same.trans ways
  · obtain ⟨stack, isStack, notEmpty⟩ := held a isApp
    have inside : a < settled.length := by omega
    refine ⟨settled[a], ?_, ?_⟩
    · rw [List.getElem?_append_left inside, List.getElem?_eq_getElem inside]
    · have size := congrArg (fun list => list[a]?) sizes
      rw [List.getElem?_map, List.getElem?_map, List.getElem?_eq_getElem inside,
        List.getElem?_take_of_lt isApp, isStack] at size
      have sameSize : settled[a].length = stack.length := Option.some.inj size
      exact List.ne_nil_of_length_pos (sameSize ▸ List.length_pos_of_ne_nil notEmpty)
  · obtain ⟨stack, isMember, has10, has11⟩ := together isLarge
    exact ⟨stack, List.mem_append_left _ isMember, has10, has11⟩

theorem doUcpMrcs_allocatesAll (ops : Arithmetic α) (matrix : CurveMatrix α) {numLogicalCores : ℕ}
    (some_app : 1 ≤ matrix.numApps) (fits : matrix.numApps ≤ matrix.nRows)
    (enough : matrix.numApps ≤ numLogicalCores) (large : 12 ≤ matrix.nRows)
    (garbageId garbageSize : ℤ) :
    AllocatesAll matrix.numApps matrix.nRows
      (doUcpMrcs garbageId garbageSize ops matrix numLogicalCores matrix.nRows) := by
  obtain ⟨partitions, isResult, partitioned⟩ :=
    allocateMrcs_allocatesAll ops matrix some_app fits enough
  obtain ⟨settled, isSettled, stillPartitioned, -⟩ :=
    exists_settleUcp partitioned large garbageId garbageSize
  exact ⟨settled, fun rounds many => by rw [doUcpMrcs, isResult rounds many, ok_bind, isSettled],
    stillPartitioned⟩

theorem doUcpIpcs_allocatesAll (ops : Arithmetic α) (matrix : CurveMatrix α) {numLogicalCores : ℕ}
    (some_app : 1 ≤ matrix.numApps) (fits : matrix.numApps ≤ matrix.nRows)
    (enough : matrix.numApps ≤ numLogicalCores) (large : 12 ≤ matrix.nRows)
    (garbageId garbageSize : ℤ) :
    AllocatesAll matrix.numApps matrix.nRows
      (doUcpIpcs garbageId garbageSize ops matrix numLogicalCores matrix.nRows) := by
  obtain ⟨partitions, isResult, partitioned⟩ :=
    allocateIpcs_allocatesAll ops matrix some_app fits enough (by omega)
  obtain ⟨settled, isSettled, stillPartitioned, -⟩ :=
    exists_settleUcp partitioned large garbageId garbageSize
  exact ⟨settled, fun rounds many => by rw [doUcpIpcs, isResult rounds many, ok_bind, isSettled],
    stillPartitioned⟩

/-! ## A cache of two ways -/

/-- One application on a cache of two ways. -/
def twoWays : CurveMatrix ℚ where
  nRows := 2
  columns := [[1, 2]]
  sized := by decide

/-- The utility of the second way reads the value at three ways. -/
theorem two_ways_read_outside_curve :
    allocateIpcs exact twoWays 1 2 2 = .error .curveBounds ∧
      ¬ AllocatesAll 1 2 (allocateIpcs exact twoWays 1 2) := by
  have stops : allocateIpcs exact twoWays 1 2 2 = .error .curveBounds :=
    @allocate_eq_error _ exact (smoothenIpcs exact twoWays) 1 (by decide) (by decide) (by decide)
      (by decide) 1
  refine ⟨stops, ?_⟩
  rintro ⟨partitions, isResult, -⟩
  cases (isResult 2 (le_refl 2)).symm.trans stops

theorem twoWays_partitions_iff :
    AllocatesAll twoWays.numApps twoWays.nRows (allocateMrcs exact twoWays 1 twoWays.nRows) ∧
      AllocatesAll twoWays.numApps twoWays.nRows
        (allocateIpcs exact twoWays 1 twoWays.nRows) ↔
      3 ≤ twoWays.nRows ∨ twoWays.numApps = twoWays.nRows :=
  ucp_partitions_iff exact twoWays (by decide) (by decide) (by decide)

end Datamime.CacheUtils
