/-
# Threads that lock mutexes

Several threads call operations that lock and unlock mutexes along their way. The mutexes that
a call still holds where it returns stay locked, so other threads wait for them although nobody
is at work. Every mutex is held by a thread within an operation precisely as long as each call
that returns has unlocked what it locked.
-/

import Datamime.Math.Locking
import Datamime.Math.Run

namespace Datamime.Math.Locks

universe u v

section

variable {μ : Type u} [DecidableEq μ]

/-! ## Threads -/

variable {κ : Type v} {n : ℕ}

/-- A call that a thread is within, and the actions that are left of it. -/
structure Running (μ : Type u) (κ : Type v) where
  call : κ
  remaining : List (Action μ)

/-- Which thread holds each mutex, and what each thread is at. -/
structure LockState (n : ℕ) (μ : Type u) (κ : Type v) where
  owner : μ → Option (Fin n)
  running : Fin n → Option (Running μ κ)

inductive LockEvent (n : ℕ) (κ : Type v)
  | call (thread : Fin n) (call : κ)
  | act (thread : Fin n)
  | ret (thread : Fin n)

/-- Why a thread does not take a step. -/
inductive Stuck
  /-- The mutex is held. -/
  | blocked
  /-- The thread is at something else. -/
  | notReady
  deriving DecidableEq

/-- No thread is within an operation, and no mutex is held. -/
def LockState.initial (n : ℕ) (μ : Type u) (κ : Type v) : LockState n μ κ :=
  ⟨fun _ => none, fun _ => none⟩

def LockState.proceed (st : LockState n μ κ) (thread : Fin n) (call : κ)
    (rest : List (Action μ)) : LockState n μ κ :=
  { st with running := Function.update st.running thread (some ⟨call, rest⟩) }

def LockState.setOwner (st : LockState n μ κ) (mutex : μ) (thread : Option (Fin n)) :
    LockState n μ κ :=
  { st with owner := Function.update st.owner mutex thread }

/-- One step of one thread. -/
def lockStep (trace : κ → Trace μ) (st : LockState n μ κ) :
    LockEvent n κ → Except Stuck (LockState n μ κ)
  | .call thread call =>
      match st.running thread with
      | none => .ok (st.proceed thread call (trace call).actions)
      | some _ => .error .notReady
  | .act thread =>
      match st.running thread with
      | some ⟨call, .lock mutex :: rest⟩ =>
          if st.owner mutex = none then
            .ok ((st.setOwner mutex (some thread)).proceed thread call rest)
          else .error .blocked
      | some ⟨call, .unlock mutex :: rest⟩ =>
          .ok ((st.setOwner mutex none).proceed thread call rest)
      | some ⟨call, .wait :: rest⟩ => .ok (st.proceed thread call rest)
      | _ => .error .notReady
  | .ret thread =>
      match st.running thread with
      | some ⟨call, []⟩ =>
          if (trace call).returns then
            .ok { st with running := Function.update st.running thread none }
          else .error .notReady
      | _ => .error .notReady

/-- Every mutex is held by a thread within an operation. -/
def LockState.HeldWithin (st : LockState n μ κ) : Prop :=
  ∀ mutex thread, st.owner mutex = some thread → st.running thread ≠ none

/-- No mutex keeps a thread within an operation from going on, if it is the only one. -/
def LockState.AloneProceeds (trace : κ → Trace μ) (st : LockState n μ κ) : Prop :=
  ∀ thread call action rest, st.running thread = some ⟨call, action :: rest⟩ →
    (∀ other, other ≠ thread → st.running other = none) →
    ∃ next, lockStep trace st (.act thread) = .ok next

/-- Along a run, no mutex is locked that nobody is to unlock. -/
def NeverLeft (trace : κ → Trace μ) (events : List (LockEvent n κ)) : Prop :=
  AlongRun (lockStep trace) (LockState.initial n μ κ) events fun _ st =>
    st.HeldWithin ∧ st.AloneProceeds trace

/-- If a call returns, it is one of some calls. -/
def ReturnsFrom (calls : κ → Prop) (st : LockState n μ κ) (event : LockEvent n κ) : Prop :=
  ∀ thread call, event = .ret thread → st.running thread = some ⟨call, []⟩ → calls call

/-- Every call that returns in a run is one of some calls. -/
def EachReturnsFrom (trace : κ → Trace μ) (calls : κ → Prop) (events : List (LockEvent n κ)) :
    Prop :=
  AtEachStep (lockStep trace) (LockState.initial n μ κ) events fun _ st event =>
    ∀ next, lockStep trace st event = .ok next → ReturnsFrom calls st event

/-- What a step does. -/
inductive LockStep (trace : κ → Trace μ) (st : LockState n μ κ) :
    LockEvent n κ → LockState n μ κ → Prop
  | call {thread : Fin n} {call : κ} (idle : st.running thread = none) :
      LockStep trace st (.call thread call) (st.proceed thread call (trace call).actions)
  | lock {thread : Fin n} {call : κ} {mutex : μ} {rest : List (Action μ)}
      (within : st.running thread = some ⟨call, .lock mutex :: rest⟩)
      (free : st.owner mutex = none) :
      LockStep trace st (.act thread)
        ((st.setOwner mutex (some thread)).proceed thread call rest)
  | unlock {thread : Fin n} {call : κ} {mutex : μ} {rest : List (Action μ)}
      (within : st.running thread = some ⟨call, .unlock mutex :: rest⟩) :
      LockStep trace st (.act thread) ((st.setOwner mutex none).proceed thread call rest)
  | wait {thread : Fin n} {call : κ} {rest : List (Action μ)}
      (within : st.running thread = some ⟨call, .wait :: rest⟩) :
      LockStep trace st (.act thread) (st.proceed thread call rest)
  | ret {thread : Fin n} {call : κ} (within : st.running thread = some ⟨call, []⟩)
      (returns : (trace call).returns = true) :
      LockStep trace st (.ret thread)
        { st with running := Function.update st.running thread none }

variable {trace : κ → Trace μ} {st next : LockState n μ κ} {event : LockEvent n κ}
  {held : Fin n → μ → Bool} {thread : Fin n} {call : κ} {mutex : μ} {rest : List (Action μ)}

theorem lockStep_cases (stepped : lockStep trace st event = .ok next) :
    LockStep trace st event next := by
  cases event with
  | call thread call =>
      cases within : st.running thread with
      | none =>
          rw [lockStep, within] at stepped
          cases stepped
          exact .call within
      | some running =>
          rw [lockStep, within] at stepped
          cases stepped
  | act thread =>
      rw [lockStep] at stepped
      split at stepped
      · split at stepped
        · cases stepped
          exact .lock (by assumption) (by assumption)
        · cases stepped
      · cases stepped
        exact .unlock (by assumption)
      · cases stepped
        exact .wait (by assumption)
      · cases stepped
  | ret thread =>
      rw [lockStep] at stepped
      split at stepped
      · split at stepped
        · cases stepped
          exact .ret (by assumption) (by assumption)
        · cases stepped
      · cases stepped

/-! ## The invariant -/

/-- What each thread holds within its call accounts for what is left of the call, and the thread
owns all of it. -/
structure Tracks (trace : κ → Trace μ) (st : LockState n μ κ) (held : Fin n → μ → Bool) :
    Prop where
  idle : ∀ thread, st.running thread = none → held thread = noMutex
  within : ∀ thread call rest, st.running thread = some ⟨call, rest⟩ →
    heldAfter (held thread) rest = heldAfter noMutex (trace call).actions
  owned : ∀ thread mutex, held thread mutex = true → st.owner mutex = some thread

/-- A thread within a call owns nothing else. -/
def OwnsOnly (st : LockState n μ κ) (held : Fin n → μ → Bool) : Prop :=
  ∀ thread mutex, st.running thread ≠ none → st.owner mutex = some thread →
    held thread mutex = true

/-- No call locks a mutex that it holds, or unlocks one that it does not. -/
def WellLocked (trace : κ → Trace μ) : Prop :=
  ∀ call, (heldAfter noMutex (trace call).actions).isSome = true

omit [DecidableEq μ] in
@[simp]
theorem running_proceed_self : (st.proceed thread call rest).running thread = some ⟨call, rest⟩ :=
  Function.update_self _ _ _

omit [DecidableEq μ] in
theorem running_proceed_of_ne {other : Fin n} (different : other ≠ thread) :
    (st.proceed thread call rest).running other = st.running other :=
  Function.update_of_ne different _ _

theorem tracks_initial : Tracks trace (LockState.initial n μ κ) fun _ => noMutex where
  idle := fun _ _ => rfl
  within := nofun
  owned := nofun

theorem Tracks.heldAfter_isSome (tracks : Tracks trace st held) (wellLocked : WellLocked trace)
    (within : st.running thread = some ⟨call, rest⟩) :
    (heldAfter (held thread) rest).isSome = true := by
  rw [tracks.within thread call rest within]
  exact wellLocked call

/-- A thread that is to lock a mutex does not hold it. -/
theorem Tracks.not_held_of_lock (tracks : Tracks trace st held) (wellLocked : WellLocked trace)
    (within : st.running thread = some ⟨call, .lock mutex :: rest⟩) :
    held thread mutex = false := by
  have defined := tracks.heldAfter_isSome wellLocked within
  rw [heldAfter] at defined
  split at defined
  · cases defined
  · exact Bool.eq_false_of_not_eq_true (by assumption)

/-- A thread that is to unlock a mutex holds it. -/
theorem Tracks.held_of_unlock (tracks : Tracks trace st held) (wellLocked : WellLocked trace)
    (within : st.running thread = some ⟨call, .unlock mutex :: rest⟩) :
    held thread mutex = true := by
  have defined := tracks.heldAfter_isSome wellLocked within
  rw [heldAfter] at defined
  split at defined
  · assumption
  · cases defined

/-! ## One step -/

/-- What a thread holds when it has gone on in its call. -/
theorem Tracks.proceed (tracks : Tracks trace st held) {owner : μ → Option (Fin n)}
    {after : μ → Bool} (left : heldAfter after rest = heldAfter noMutex (trace call).actions)
    (owns : ∀ mutex, after mutex = true → owner mutex = some thread)
    (others : ∀ other, other ≠ thread → ∀ mutex,
      owner mutex = some other ↔ st.owner mutex = some other) :
    Tracks trace (LockState.proceed { st with owner } thread call rest)
      (Function.update held thread after) where
  idle := by
    intro other isIdle
    by_cases same : other = thread
    · subst same
      rw [running_proceed_self] at isIdle
      cases isIdle
    · rw [running_proceed_of_ne same] at isIdle
      rw [Function.update_of_ne same]
      exact tracks.idle other isIdle
  within := by
    intro other otherCall later isWithin
    by_cases same : other = thread
    · subst same
      rw [running_proceed_self] at isWithin
      cases isWithin
      rw [Function.update_self]
      exact left
    · rw [running_proceed_of_ne same] at isWithin
      rw [Function.update_of_ne same]
      exact tracks.within other otherCall later isWithin
  owned := by
    intro other mutex isHeld
    by_cases same : other = thread
    · subst same
      rw [Function.update_self] at isHeld
      exact owns mutex isHeld
    · rw [Function.update_of_ne same] at isHeld
      exact (others other same mutex).mpr (tracks.owned other mutex isHeld)

omit [DecidableEq μ] in
theorem OwnsOnly.proceed (ownsOnly : OwnsOnly st held) {owner : μ → Option (Fin n)}
    {after : μ → Bool} (only : ∀ mutex, owner mutex = some thread → after mutex = true)
    (others : ∀ other, other ≠ thread → ∀ mutex,
      owner mutex = some other ↔ st.owner mutex = some other) :
    OwnsOnly (LockState.proceed { st with owner } thread call rest)
      (Function.update held thread after) := by
  intro other mutex isWithin owns
  by_cases same : other = thread
  · subst same
    rw [Function.update_self]
    exact only mutex owns
  · rw [running_proceed_of_ne same] at isWithin
    rw [Function.update_of_ne same]
    exact ownsOnly other mutex isWithin ((others other same mutex).mp owns)

/-- What the threads hold after a step, given what they held before it. -/
structure Follows (trace : κ → Trace μ) (st next : LockState n μ κ)
    (held after : Fin n → μ → Bool) : Prop where
  tracks : Tracks trace next after
  ownsOnly : st.HeldWithin → OwnsOnly st held → OwnsOnly next after
  /-- Only a mutex that was free is gained. -/
  gains : ∀ thread mutex, after thread mutex = true →
    held thread mutex = true ∨ st.owner mutex = none

omit [DecidableEq μ] in
/-- A thread that gains nothing, while the others keep what they hold. -/
theorem gains_update {after : μ → Bool}
    (gained : ∀ mutex, after mutex = true → held thread mutex = true ∨ st.owner mutex = none)
    (other : Fin n) (mutex : μ) (isHeld : Function.update held thread after other mutex = true) :
    held other mutex = true ∨ st.owner mutex = none := by
  by_cases same : other = thread
  · subst same
    rw [Function.update_self] at isHeld
    exact gained mutex isHeld
  · rw [Function.update_of_ne same] at isHeld
    exact .inl isHeld

/-- A call begins. -/
theorem Tracks.follows_call (tracks : Tracks trace st held) (idle : st.running thread = none) :
    Follows trace st (st.proceed thread call (trace call).actions) held
      (Function.update held thread noMutex) where
  tracks := tracks.proceed rfl nofun fun _ _ _ => Iff.rfl
  ownsOnly := fun heldWithin ownsOnly =>
    ownsOnly.proceed (fun mutex owns => absurd idle (heldWithin mutex thread owns))
      fun _ _ _ => Iff.rfl
  gains := gains_update nofun

/-- A thread locks a mutex or unlocks it, and had it before or finds it free. -/
theorem Tracks.follows_set (tracks : Tracks trace st held) {action : Action μ} (now : Bool)
    (within : st.running thread = some ⟨call, action :: rest⟩)
    (before : held thread mutex = true ∨ st.owner mutex = none)
    (left : heldAfter (held thread) (action :: rest) =
      heldAfter (Function.update (held thread) mutex now) rest) :
    Follows trace st
      ((st.setOwner mutex (if now then some thread else none)).proceed thread call rest) held
      (Function.update held thread (Function.update (held thread) mutex now)) := by
  have others : ∀ other, other ≠ thread → ∀ another,
      Function.update st.owner mutex (if now then some thread else none) another = some other ↔
        st.owner another = some other := by
    intro other different another
    by_cases same : another = mutex
    · rw [same, Function.update_self]
      rcases before with isHeld | free
      · rw [tracks.owned thread mutex isHeld]
        cases now <;> simp [different.symm]
      · rw [free]
        cases now <;> simp [different.symm]
    · rw [Function.update_of_ne same]
  constructor
  · refine tracks.proceed ?_ ?_ others
    · rw [← left, tracks.within thread call _ within]
    · intro another isHeld
      by_cases same : another = mutex
      · rw [same, Function.update_self] at isHeld
        rw [same, Function.update_self, if_pos isHeld]
      · rw [Function.update_of_ne same] at isHeld ⊢
        exact tracks.owned thread another isHeld
  · intro _ ownsOnly
    refine ownsOnly.proceed ?_ others
    intro another owns
    by_cases same : another = mutex
    · rw [same, Function.update_self] at owns ⊢
      cases now with
      | false => cases owns
      | true => rfl
    · rw [Function.update_of_ne same] at owns ⊢
      exact ownsOnly thread another (by simp [within]) owns
  · refine gains_update ?_
    intro another isHeld
    by_cases same : another = mutex
    · rw [same]
      exact before
    · rw [Function.update_of_ne same] at isHeld
      exact .inl isHeld

/-- A thread does something else. -/
theorem Tracks.follows_wait (tracks : Tracks trace st held)
    (within : st.running thread = some ⟨call, .wait :: rest⟩) :
    Follows trace st (st.proceed thread call rest) held
      (Function.update held thread (held thread)) where
  tracks := by
    refine tracks.proceed ?_ (tracks.owned thread) fun _ _ _ => Iff.rfl
    rw [← tracks.within thread call _ within, heldAfter]
  ownsOnly := fun _ ownsOnly =>
    ownsOnly.proceed (fun mutex owns => ownsOnly thread mutex (by simp [within]) owns)
      fun _ _ _ => Iff.rfl
  gains := gains_update fun _ isHeld => .inl isHeld

/-- A call returns. -/
theorem Tracks.follows_ret (tracks : Tracks trace st held) :
    Follows trace st { st with running := Function.update st.running thread none } held
      (Function.update held thread noMutex) := by
  constructor
  · constructor
    · intro other isIdle
      by_cases same : other = thread
      · rw [same, Function.update_self]
      · dsimp only at isIdle
        rw [Function.update_of_ne same] at isIdle ⊢
        exact tracks.idle other isIdle
    · intro other otherCall later isWithin
      dsimp only at isWithin
      by_cases same : other = thread
      · rw [same, Function.update_self] at isWithin
        cases isWithin
      · rw [Function.update_of_ne same] at isWithin ⊢
        exact tracks.within other otherCall later isWithin
    · intro other mutex isHeld
      by_cases same : other = thread
      · rw [same, Function.update_self] at isHeld
        cases isHeld
      · rw [Function.update_of_ne same] at isHeld
        exact tracks.owned other mutex isHeld
  · intro _ ownsOnly other mutex isWithin owns
    dsimp only at isWithin owns
    by_cases same : other = thread
    · rw [same, Function.update_self] at isWithin
      exact absurd rfl isWithin
    · rw [Function.update_of_ne same] at isWithin ⊢
      exact ownsOnly other mutex isWithin owns
  · exact gains_update nofun

/-- What the threads hold can be followed over a step. -/
theorem Tracks.exists_follows (tracks : Tracks trace st held) (wellLocked : WellLocked trace)
    (stepped : lockStep trace st event = .ok next) : ∃ after, Follows trace st next held after := by
  cases lockStep_cases stepped with
  | call idle => exact ⟨_, tracks.follows_call idle⟩
  | lock within free =>
      refine ⟨_, tracks.follows_set true within (.inr free) ?_⟩
      rw [heldAfter, tracks.not_held_of_lock wellLocked within]
      rfl
  | unlock within =>
      have isHeld := tracks.held_of_unlock wellLocked within
      refine ⟨_, tracks.follows_set false within (.inl isHeld) ?_⟩
      rw [heldAfter, if_pos isHeld]
  | wait within => exact ⟨_, tracks.follows_wait within⟩
  | ret _ _ => exact ⟨_, tracks.follows_ret⟩

/-! ## Every mutex is held within an operation -/

omit [DecidableEq μ] in
theorem heldWithin_initial : (LockState.initial n μ κ).HeldWithin := nofun

omit [DecidableEq μ] in
/-- A thread that goes on in a call may own what it will. -/
theorem LockState.HeldWithin.proceed (heldWithin : st.HeldWithin) {owner : μ → Option (Fin n)}
    (others : ∀ other, other ≠ thread → ∀ mutex,
      owner mutex = some other → st.owner mutex = some other) :
    (LockState.proceed { st with owner } thread call rest).HeldWithin := by
  intro mutex other owns
  by_cases same : other = thread
  · simp [same]
  · rw [running_proceed_of_ne same]
    exact heldWithin mutex other (others other same mutex owns)

theorem LockState.HeldWithin.proceed_setOwner (heldWithin : st.HeldWithin)
    {holder : Option (Fin n)} (own : ∀ other, other ≠ thread → holder ≠ some other) :
    ((st.setOwner mutex holder).proceed thread call rest).HeldWithin := by
  apply heldWithin.proceed
  intro other different another owns
  by_cases same : another = mutex
  · rw [same, Function.update_self] at owns
    exact absurd owns (own other different)
  · rw [Function.update_of_ne same] at owns
    exact owns

omit [DecidableEq μ] in
/-- A thread that returns holds nothing precisely if it owns nothing. -/
theorem heldWithin_ret_iff (heldWithin : st.HeldWithin) :
    LockState.HeldWithin { st with running := Function.update st.running thread none } ↔
      ∀ mutex, st.owner mutex ≠ some thread := by
  constructor
  · intro staysWithin mutex owns
    apply staysWithin mutex thread owns
    exact Function.update_self _ _ _
  · intro ownsNothing mutex other owns
    have different : other ≠ thread := by
      intro same
      rw [same] at owns
      exact ownsNothing mutex owns
    dsimp only
    rw [Function.update_of_ne different]
    exact heldWithin mutex other owns

/-- A call at its end has released what it locked precisely if its thread owns nothing. -/
theorem Tracks.releases_iff (tracks : Tracks trace st held) (ownsOnly : OwnsOnly st held)
    (within : st.running thread = some ⟨call, []⟩) (returns : (trace call).returns = true) :
    (trace call).Releases ↔ ∀ mutex, st.owner mutex ≠ some thread := by
  have atEnd := tracks.within thread call [] within
  rw [heldAfter] at atEnd
  rw [Trace.Releases, ← atEnd]
  constructor
  · intro releases mutex owns
    have isHeld := ownsOnly thread mutex (by simp [within]) owns
    rw [Option.some_inj.mp (releases returns)] at isHeld
    cases isHeld
  · intro ownsNothing _
    congr 1
    funext mutex
    apply Bool.eq_false_of_not_eq_true
    intro isHeld
    exact ownsNothing mutex (tracks.owned thread mutex isHeld)

/-- A step that ends a call is the one that may leave a mutex locked. -/
theorem heldWithin_iff_returnsFrom (tracks : Tracks trace st held) (ownsOnly : OwnsOnly st held)
    (heldWithin : st.HeldWithin) (stepped : lockStep trace st event = .ok next) :
    next.HeldWithin ↔ ReturnsFrom (fun call => (trace call).Releases) st event := by
  cases lockStep_cases stepped with
  | call idle => exact iff_of_true (heldWithin.proceed fun _ _ _ owns => owns) nofun
  | lock within free =>
      refine iff_of_true (heldWithin.proceed_setOwner ?_) nofun
      intro other different same
      exact different (Option.some_inj.mp same).symm
  | unlock within => exact iff_of_true (heldWithin.proceed_setOwner nofun) nofun
  | wait within => exact iff_of_true (heldWithin.proceed fun _ _ _ owns => owns) nofun
  | @ret thread call within returns =>
      rw [heldWithin_ret_iff heldWithin, ← tracks.releases_iff ownsOnly within returns]
      constructor
      · intro releases other otherCall isRet otherWithin
        cases isRet
        rw [within] at otherWithin
        cases otherWithin
        exact releases
      · exact fun only => only thread call rfl within

/-- A thread that is alone finds every mutex free that it is to lock. -/
theorem Tracks.aloneProceeds (tracks : Tracks trace st held) (ownsOnly : OwnsOnly st held)
    (wellLocked : WellLocked trace) (heldWithin : st.HeldWithin) : st.AloneProceeds trace := by
  intro thread call action rest within alone
  cases action with
  | unlock mutex =>
      rw [lockStep, within]
      exact ⟨_, rfl⟩
  | wait =>
      rw [lockStep, within]
      exact ⟨_, rfl⟩
  | lock mutex =>
      have free : st.owner mutex = none := by
        by_contra isOwned
        rcases Option.ne_none_iff_exists'.mp isOwned with ⟨owner, owns⟩
        have same : owner = thread := by
          by_contra different
          exact heldWithin mutex owner owns (alone owner different)
        rw [same] at owns
        have isHeld := ownsOnly thread mutex (by simp [within]) owns
        rw [tracks.not_held_of_lock wellLocked within] at isHeld
        cases isHeld
      rw [lockStep, within]
      exact ⟨_, if_pos free⟩

theorem eachReturnsFrom_of_forall {calls : κ → Prop} (all : ∀ call, calls call)
    (events : List (LockEvent n κ)) : EachReturnsFrom trace calls events := by
  intro _ _ _ _ _ _ _ _ call _ _
  exact all call

/-- Along a run, every mutex is held by a thread within an operation, and a thread that is alone
is not kept waiting, precisely as long as every call that returns has unlocked what it locked. -/
theorem neverLeft_iff (wellLocked : WellLocked trace) {releasing : κ → Prop}
    (releases : ∀ call, (trace call).Releases ↔ releasing call) (events : List (LockEvent n κ)) :
    NeverLeft trace events ↔ EachReturnsFrom trace releasing events := by
  have same : (fun call => (trace call).Releases) = releasing := by
    funext call
    exact propext (releases call)
  rw [← same]
  refine @alongRun_iff_atEachStep _ _ _ _ _ _
    (fun _ st => ∃ held, Tracks trace st held ∧ OwnsOnly st held) _ _
    ⟨_, tracks_initial, nofun⟩
    ⟨heldWithin_initial, tracks_initial.aloneProceeds nofun wellLocked heldWithin_initial⟩ ?_ ?_
  · intro _ state event next ⟨held, tracks, ownsOnly⟩ ⟨heldWithin, _⟩ stepped
    rcases tracks.exists_follows wellLocked stepped with ⟨after, follows⟩
    exact ⟨after, follows.tracks, follows.ownsOnly heldWithin ownsOnly⟩
  · intro _ state event next ⟨held, tracks, ownsOnly⟩ ⟨heldWithin, _⟩ stepped
    rcases tracks.exists_follows wellLocked stepped with ⟨after, follows⟩
    rw [← heldWithin_iff_returnsFrom tracks ownsOnly heldWithin stepped]
    constructor
    · exact fun good => good.1
    · intro staysWithin
      refine ⟨staysWithin, ?_⟩
      exact follows.tracks.aloneProceeds (follows.ownsOnly heldWithin ownsOnly) wellLocked
        staysWithin

/-! ## A mutex that is left locked -/

/-- A mutex is owned by a thread that does not hold it within its call. -/
def Left (trace : κ → Trace μ) (mutex : μ) (thread : Fin n) (st : LockState n μ κ) : Prop :=
  ∃ held, Tracks trace st held ∧ st.owner mutex = some thread ∧ held thread mutex = false

/-- Nobody unlocks it any more. -/
theorem left_of_step (wellLocked : WellLocked trace) (left : Left trace mutex thread st)
    (stepped : lockStep trace st event = .ok next) : Left trace mutex thread next := by
  rcases left with ⟨held, tracks, owns, notHeld⟩
  rcases tracks.exists_follows wellLocked stepped with ⟨after, follows⟩
  refine ⟨after, follows.tracks, ?_, ?_⟩
  · cases lockStep_cases stepped with
    | call idle => exact owns
    | @lock other _ another _ within free =>
        have different : mutex ≠ another := by
          rintro rfl
          rw [free] at owns
          cases owns
        exact (Function.update_of_ne different _ _).trans owns
    | @unlock other _ another _ within =>
        have isHeld := tracks.held_of_unlock wellLocked within
        have different : mutex ≠ another := by
          rintro rfl
          have isOwner := tracks.owned other mutex isHeld
          rw [owns] at isOwner
          rw [← Option.some_inj.mp isOwner, notHeld] at isHeld
          cases isHeld
        exact (Function.update_of_ne different _ _).trans owns
    | wait within => exact owns
    | ret _ _ => exact owns
  · apply Bool.eq_false_of_not_eq_true
    intro isHeld
    rcases follows.gains thread mutex isHeld with wasHeld | free
    · rw [notHeld] at wasHeld
      cases wasHeld
    · rw [owns] at free
      cases free

theorem left_of_run (wellLocked : WellLocked trace) (left : Left trace mutex thread st)
    {events : List (LockEvent n κ)} (reached : run (lockStep trace) st events = .ok next) :
    Left trace mutex thread next :=
  run_invariant (fun _ _ _ left stepped => left_of_step wellLocked left stepped) left reached

/-- A thread outside of its calls left what it owns. -/
theorem left_of_idle (wellLocked : WellLocked trace) {events : List (LockEvent n κ)}
    (reached : run (lockStep trace) (LockState.initial n μ κ) events = .ok st)
    (owns : st.owner mutex = some thread) (idle : st.running thread = none) :
    Left trace mutex thread st := by
  have tracked : ∃ held, Tracks trace st held := by
    refine @run_invariant _ _ _ _ (fun state => ∃ held, Tracks trace state held) ?_ _ _ _
      ⟨_, tracks_initial⟩ reached
    intro state event next ⟨held, tracks⟩ stepped
    rcases tracks.exists_follows wellLocked stepped with ⟨after, follows⟩
    exact ⟨after, follows.tracks⟩
  rcases tracked with ⟨held, tracks⟩
  refine ⟨held, tracks, owns, ?_⟩
  rw [tracks.idle thread idle, noMutex]

/-- A thread that is to lock it is blocked. -/
theorem blocked_of_left (left : Left trace mutex thread st) {waiting : Fin n}
    (within : st.running waiting = some ⟨call, .lock mutex :: rest⟩) :
    lockStep trace st (.act waiting) = .error .blocked := by
  rcases left with ⟨_, _, owns, _⟩
  rw [lockStep, within]
  dsimp only
  rw [if_neg]
  simp [owns]

/-- A blocked thread does not move in a step of any thread. -/
theorem running_of_blocked {waiting : Fin n}
    (blocked : lockStep trace st (.act waiting) = .error .blocked)
    (stepped : lockStep trace st event = .ok next) :
    next.running waiting = st.running waiting := by
  have notIdle : st.running waiting ≠ none := by
    intro idle
    rw [lockStep, idle] at blocked
    cases blocked
  have notEnded : ∀ call, st.running waiting ≠ some ⟨call, []⟩ := by
    intro call ended
    rw [lockStep, ended] at blocked
    cases blocked
  have notAct : event ≠ .act waiting := by
    rintro rfl
    rw [blocked] at stepped
    cases stepped
  cases lockStep_cases stepped with
  | @call thread _ idle =>
      apply running_proceed_of_ne
      rintro rfl
      exact notIdle idle
  | @lock thread _ _ _ _ _ =>
      apply running_proceed_of_ne
      rintro rfl
      exact notAct rfl
  | @unlock thread _ _ _ _ =>
      apply running_proceed_of_ne
      rintro rfl
      exact notAct rfl
  | @wait thread _ _ _ =>
      apply running_proceed_of_ne
      rintro rfl
      exact notAct rfl
  | @ret thread call within _ =>
      apply Function.update_of_ne
      rintro rfl
      exact notEnded call within

/-- Whatever the threads do, one that is to lock it stays where it is. -/
theorem running_of_left (wellLocked : WellLocked trace) (left : Left trace mutex thread st)
    {waiting : Fin n} (within : st.running waiting = some ⟨call, .lock mutex :: rest⟩)
    {events : List (LockEvent n κ)} (reached : run (lockStep trace) st events = .ok next) :
    next.running waiting = some ⟨call, .lock mutex :: rest⟩ := by
  induction events using List.reverseRecOn generalizing next with
  | nil =>
      cases reached
      exact within
  | append_singleton events event ih =>
      rcases run_concat_eq_ok_iff.mp reached with ⟨middle, atMiddle, stepped⟩
      have stays := left_of_run wellLocked left atMiddle
      rw [running_of_blocked (blocked_of_left stays (ih atMiddle)) stepped]
      exact ih atMiddle

end

end Datamime.Math.Locks
