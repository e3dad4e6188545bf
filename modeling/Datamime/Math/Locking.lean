/-
# What an operation locks

An operation locks mutexes and unlocks them by hand, and may return early or end the process in
between. What a thread holds after it is found step by step, by a rule for each kind of step.
-/

import Mathlib.Logic.Function.Basic
import Mathlib.Tactic

namespace Datamime.Math.Locks

universe u v

/-! ## Operations -/

/-- What an operation does with the mutexes. A `wait` stands for anything else that may take any
time, such as a call of the system. -/
inductive Action (μ : Type u)
  | lock (mutex : μ)
  | unlock (mutex : μ)
  | wait

/-- The actions of an operation, and its result if it returns. It has none where the process
ends or where the operation waits for ever. -/
structure Locking (μ : Type u) (α : Type) where
  actions : List (Action μ)
  result : Option α

namespace Locking

variable {μ : Type u} {α β : Type}

/-- One operation and then another one, if the first returns. -/
def andThen (first : Locking μ α) (next : α → Locking μ β) : Locking μ β :=
  match first.result with
  | none => ⟨first.actions, none⟩
  | some value => ⟨first.actions ++ (next value).actions, (next value).result⟩

instance : Monad (Locking μ) where
  pure value := ⟨[], some value⟩
  bind := andThen

def lock (mutex : μ) : Locking μ Unit := ⟨[.lock mutex], some ()⟩

def unlock (mutex : μ) : Locking μ Unit := ⟨[.unlock mutex], some ()⟩

def wait : Locking μ Unit := ⟨[.wait], some ()⟩

/-- The process ends. -/
def exit : Locking μ α := ⟨[], none⟩

/-- `assert`. -/
def require (condition : Bool) : Locking μ Unit := if condition then pure () else exit

end Locking

/-- The actions of a call, and whether it returns. -/
structure Trace (μ : Type u) where
  actions : List (Action μ)
  returns : Bool

def Locking.trace {μ : Type u} {α : Type} (operation : Locking μ α) : Trace μ :=
  ⟨operation.actions, operation.result.isSome⟩

section

variable {μ : Type u} [DecidableEq μ]

/-- The mutexes that a thread holds after some actions, given those before them. Locking a mutex
twice or unlocking one that is not held has no meaning. -/
def heldAfter : (μ → Bool) → List (Action μ) → Option (μ → Bool)
  | held, [] => some held
  | held, .lock mutex :: rest =>
      if held mutex then none else heldAfter (Function.update held mutex true) rest
  | held, .unlock mutex :: rest =>
      if held mutex then heldAfter (Function.update held mutex false) rest else none
  | held, .wait :: rest => heldAfter held rest

def noMutex : μ → Bool := fun _ => false

@[simp]
theorem update_noMutex_false (mutex : μ) :
    Function.update (Function.update noMutex mutex true) mutex false = noMutex := by
  rw [Function.update_idem]
  exact Function.update_eq_self mutex noMutex

/-- A call that returns has unlocked every mutex that it locked. -/
def Trace.Releases (trace : Trace μ) : Prop :=
  trace.returns = true → heldAfter noMutex trace.actions = some noMutex

/-! ## Rules -/

namespace Locking

variable {α β : Type} {operation : Locking μ α} {next : α → Locking μ β} {before : μ → Bool}
  {mutex : μ}

/-- From the mutexes held before it, an operation locks none that is held and unlocks none that is
not. If it returns, the result and the mutexes held then are as stated. -/
def Leaves (operation : Locking μ α) (before : μ → Bool) (post : α → (μ → Bool) → Prop) : Prop :=
  ∃ after, heldAfter before operation.actions = some after ∧
    ∀ value, operation.result = some value → post value after

end Locking

theorem heldAfter_append (held : μ → Bool) (first second : List (Action μ)) :
    heldAfter held (first ++ second) = (heldAfter held first).bind fun after =>
      heldAfter after second := by
  induction first generalizing held with
  | nil => rfl
  | cons action rest ih =>
      cases action with
      | lock mutex =>
          rw [List.cons_append, heldAfter, heldAfter, ih]
          split <;> rfl
      | unlock mutex =>
          rw [List.cons_append, heldAfter, heldAfter, ih]
          split <;> rfl
      | wait => exact ih held

namespace Locking

variable {α β : Type} {operation : Locking μ α} {next : α → Locking μ β} {before : μ → Bool}
  {mutex : μ}

theorem leaves_pure {value : α} {post : α → (μ → Bool) → Prop} (atEnd : post value before) :
    Leaves (pure value) before post := by
  refine ⟨before, rfl, ?_⟩
  intro result isResult
  cases isResult
  exact atEnd

theorem leaves_exit {post : α → (μ → Bool) → Prop} : Leaves exit before post := ⟨before, rfl, nofun⟩

theorem Leaves.bind {between : α → (μ → Bool) → Prop} {post : β → (μ → Bool) → Prop}
    (first : Leaves operation before between)
    (second : ∀ value held, between value held → Leaves (next value) held post) :
    Leaves (operation >>= next) before post := by
  rcases first with ⟨middle, isMiddle, between⟩
  change Leaves (operation.andThen next) before post
  rw [andThen]
  cases returns : operation.result with
  | none => exact ⟨middle, isMiddle, nofun⟩
  | some value =>
      rcases second value middle (between value returns) with ⟨after, isAfter, atEnd⟩
      refine ⟨after, ?_, atEnd⟩
      rw [heldAfter_append, isMiddle]
      exact isAfter

theorem leaves_lock_bind {next : Unit → Locking μ α} {post : α → (μ → Bool) → Prop}
    (free : before mutex = false)
    (later : Leaves (next ()) (Function.update before mutex true) post) :
    Leaves (lock mutex >>= next) before post := by
  have locks : Leaves (lock mutex) before fun _ held =>
      held = Function.update before mutex true := by
    refine ⟨_, ?_, fun _ _ => rfl⟩
    rw [lock, heldAfter, free]
    rfl
  apply locks.bind
  rintro _ _ rfl
  exact later

theorem leaves_unlock_bind {next : Unit → Locking μ α} {post : α → (μ → Bool) → Prop}
    (isHeld : before mutex = true)
    (later : Leaves (next ()) (Function.update before mutex false) post) :
    Leaves (unlock mutex >>= next) before post := by
  have unlocks : Leaves (unlock mutex) before fun _ held =>
      held = Function.update before mutex false := by
    refine ⟨_, ?_, fun _ _ => rfl⟩
    rw [unlock, heldAfter, if_pos isHeld]
    rfl
  apply unlocks.bind
  rintro _ _ rfl
  exact later

theorem leaves_wait_bind {next : Unit → Locking μ α} {post : α → (μ → Bool) → Prop}
    (later : Leaves (next ()) before post) : Leaves (wait >>= next) before post := by
  have waits : @Leaves μ _ Unit wait before fun _ held => held = before :=
    ⟨_, rfl, fun _ _ => rfl⟩
  apply waits.bind
  rintro _ _ rfl
  exact later

theorem leaves_require_bind {condition : Bool} {next : Unit → Locking μ α}
    {post : α → (μ → Bool) → Prop} (later : condition = true → Leaves (next ()) before post) :
    Leaves (require condition >>= next) before post := by
  cases condition with
  | false => exact leaves_exit
  | true =>
      have passes : @Leaves μ _ Unit (require true) before fun _ held => held = before :=
        leaves_pure rfl
      apply passes.bind
      rintro _ _ rfl
      exact later rfl

/-- A loop whose turns leave the mutexes as they were. -/
theorem leaves_foldlM {σ : Type} {ι : Type v} {turn : σ → ι → Locking μ σ}
    (keeps : ∀ state item, Leaves (turn state item) before fun _ held => held = before)
    (items : List ι) (state : σ) :
    Leaves (items.foldlM turn state) before fun _ held => held = before := by
  induction items generalizing state with
  | nil => exact leaves_pure rfl
  | cons item rest ih =>
      rw [List.foldlM_cons]
      apply (keeps state item).bind
      rintro next _ rfl
      exact ih next

theorem Leaves.isSome {post : α → (μ → Bool) → Prop} (leaves : Leaves operation noMutex post) :
    (heldAfter noMutex operation.trace.actions).isSome = true := by
  rcases leaves with ⟨after, isAfter, _⟩
  rw [trace, isAfter]
  rfl

theorem Leaves.releases (leaves : Leaves operation noMutex fun _ held => held = noMutex) :
    operation.trace.Releases := by
  rcases leaves with ⟨after, isAfter, atEnd⟩
  intro returns
  rcases Option.isSome_iff_exists.mp returns with ⟨value, isValue⟩
  rw [trace, isAfter, atEnd value isValue]

end Locking

end

end Datamime.Math.Locks
