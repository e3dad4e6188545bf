/-
# A hub and its spokes

One party talks to any number of others, and these talk to it only. Messages wait in a queue for
each direction between the hub and a spoke. Each party takes a step when it can, in any order. What
a party has received is a beginning of what was sent to it, in the same order, and steps of
different parties commute.
-/

import Datamime.Math.Commuting
import Datamime.Math.Dialogue

namespace Datamime.Math

variable {ι M E R A : Type}

/-- Who takes a step. -/
inductive Party (ι : Type)
  | hub
  | spoke (i : ι)
  deriving DecidableEq

/-- Why a party takes no step. -/
inductive NoStep
  | ended
  | died
  /-- The message it waits for has not arrived. -/
  | waits
  deriving DecidableEq

/-! ## One spoke -/

/-- A spoke, and what is under way between it and the hub. -/
structure Spoke (M E A : Type) where
  program : Program Unit M E A
  toSpoke : List M
  toHub : List M
  log : List (Act Unit M E)

namespace Spoke

def start (program : Program Unit M E A) : Spoke M E A := ⟨program, [], [], []⟩

/-- The spoke has done something, and goes on with a program. -/
@[simps]
def acts (spoke : Spoke M E A) (act : Act Unit M E) (next : Program Unit M E A) : Spoke M E A :=
  { spoke with program := next, log := spoke.log ++ [act] }

@[simps]
def setToSpoke (spoke : Spoke M E A) (messages : List M) : Spoke M E A :=
  { spoke with toSpoke := messages }

@[simps]
def setToHub (spoke : Spoke M E A) (messages : List M) : Spoke M E A :=
  { spoke with toHub := messages }

/-- A message of the hub is on its way. -/
@[simps!]
def push (spoke : Spoke M E A) (message : M) : Spoke M E A :=
  spoke.setToSpoke (spoke.toSpoke ++ [message])

def step (spoke : Spoke M E A) : Except NoStep (Spoke M E A) :=
  match spoke.program, spoke.toSpoke with
  | .done _, _ => .error .ended
  | .die _, _ => .error .died
  | .mark event next, _ => .ok (spoke.acts (.marked event) next)
  | .send peer message next, _ =>
      .ok ((spoke.acts (.sent peer message) next).setToHub (spoke.toHub ++ [message]))
  | .receive _ _, [] => .error .waits
  | .receive peer next, message :: later =>
      .ok ((spoke.acts (.received peer message) (next message)).setToSpoke later)

/-- All that a step of a spoke can do. -/
inductive Stepped (spoke : Spoke M E A) : Spoke M E A → Prop
  | marked {event : E} {next : Program Unit M E A} (isNext : spoke.program = .mark event next) :
      Stepped spoke (spoke.acts (.marked event) next)
  | sent {message : M} {next : Program Unit M E A}
      (isNext : spoke.program = .send () message next) :
      Stepped spoke ((spoke.acts (.sent () message) next).setToHub (spoke.toHub ++ [message]))
  | received {message : M} {later : List M} {next : M → Program Unit M E A}
      (isNext : spoke.program = .receive () next) (arrived : spoke.toSpoke = message :: later) :
      Stepped spoke ((spoke.acts (.received () message) (next message)).setToSpoke later)

variable {spoke next : Spoke M E A} {message : M} {later : List M}

theorem stepped_of_step (stepped : spoke.step = .ok next) : Stepped spoke next := by
  rw [step] at stepped
  split at stepped
  case h_1 => cases stepped
  case h_2 => cases stepped
  case h_3 isNext =>
      cases stepped
      exact .marked isNext
  case h_4 isNext =>
      cases stepped
      exact .sent isNext
  case h_5 => cases stepped
  case h_6 isNext arrived =>
      cases stepped
      exact .received isNext arrived

theorem Stepped.step (stepped : Stepped spoke next) : spoke.step = .ok next := by
  cases stepped with
  | marked isNext => rw [Spoke.step, isNext]
  | sent isNext => rw [Spoke.step, isNext]
  | received isNext arrived => rw [Spoke.step, isNext, arrived]

/-- A step is not in the way of a message that is sent. -/
theorem Stepped.push (stepped : Stepped spoke next) (message : M) :
    Stepped (spoke.push message) (next.push message) := by
  cases stepped with
  | marked isNext => exact .marked isNext
  | sent isNext => exact .sent isNext
  | received isNext arrived =>
      exact .received isNext (congrArg (· ++ [message]) arrived)

/-- A step is not in the way of a message that is taken by the hub. -/
theorem Stepped.pop (stepped : Stepped spoke next) (arrived : spoke.toHub = message :: later) :
    ∃ rest, next.toHub = message :: rest ∧
      Stepped (spoke.setToHub later) (next.setToHub rest) := by
  cases stepped with
  | marked isNext => exact ⟨later, arrived, .marked isNext⟩
  | sent isNext => exact ⟨_, congrArg (· ++ [_]) arrived, .sent isNext⟩
  | received isNext isAnswer => exact ⟨later, arrived, .received isNext isAnswer⟩

end Spoke

/-! ## The hub with all spokes -/

structure Conversation (ι M E R A : Type) where
  hub : Program ι M E R
  hubLog : List (Act ι M E)
  spokes : ι → Spoke M E A

namespace Conversation

/-- Nobody has done anything. -/
def start (hub : Program ι M E R) (spokes : ι → Program Unit M E A) : Conversation ι M E R A :=
  ⟨hub, [], fun i => .start (spokes i)⟩

variable [DecidableEq ι]

def setSpoke (state : Conversation ι M E R A) (i : ι) (spoke : Spoke M E A) :
    Conversation ι M E R A :=
  { state with spokes := Function.update state.spokes i spoke }

/-- The hub has done something, and goes on with a program. -/
def hubActs (state : Conversation ι M E R A) (act : Act ι M E) (next : Program ι M E R) :
    Conversation ι M E R A :=
  { state with hub := next, hubLog := state.hubLog ++ [act] }

def hubStep (state : Conversation ι M E R A) : Except NoStep (Conversation ι M E R A) :=
  match state.hub with
  | .done _ => .error .ended
  | .die _ => .error .died
  | .mark event next => .ok (state.hubActs (.marked event) next)
  | .send i message next =>
      .ok ((state.setSpoke i ((state.spokes i).push message)).hubActs (.sent i message) next)
  | .receive i next =>
      match (state.spokes i).toHub with
      | [] => .error .waits
      | message :: later =>
          .ok ((state.setSpoke i ((state.spokes i).setToHub later)).hubActs
            (.received i message) (next message))

/-- One step of a party. -/
def step (state : Conversation ι M E R A) : Party ι → Except NoStep (Conversation ι M E R A)
  | .hub => state.hubStep
  | .spoke i => (state.spokes i).step.map (state.setSpoke i)

/-- All that a step of the hub can do. -/
inductive HubStepped (state : Conversation ι M E R A) : Conversation ι M E R A → Prop
  | marked {event : E} {next : Program ι M E R} (isNext : state.hub = .mark event next) :
      HubStepped state (state.hubActs (.marked event) next)
  | sent {i : ι} {message : M} {next : Program ι M E R}
      (isNext : state.hub = .send i message next) :
      HubStepped state
        ((state.setSpoke i ((state.spokes i).push message)).hubActs (.sent i message) next)
  | received {i : ι} {message : M} {later : List M} {next : M → Program ι M E R}
      (isNext : state.hub = .receive i next) (arrived : (state.spokes i).toHub = message :: later) :
      HubStepped state ((state.setSpoke i ((state.spokes i).setToHub later)).hubActs
        (.received i message) (next message))

variable {state next first second : Conversation ι M E R A} {i j : ι} {spoke : Spoke M E A}

theorem hubStepped_of_step (stepped : state.step .hub = .ok next) : HubStepped state next := by
  rw [step, hubStep] at stepped
  split at stepped
  case h_1 => cases stepped
  case h_2 => cases stepped
  case h_3 isNext =>
      cases stepped
      exact .marked isNext
  case h_4 isNext =>
      cases stepped
      exact .sent isNext
  case h_5 isNext =>
      split at stepped
      case h_1 => cases stepped
      case h_2 arrived =>
          cases stepped
          exact .received isNext arrived

theorem HubStepped.step (stepped : HubStepped state next) : state.step .hub = .ok next := by
  rw [Conversation.step, hubStep]
  cases stepped with
  | marked isNext => rw [isNext]
  | sent isNext => rw [isNext]
  | received isNext arrived =>
      rw [isNext]
      dsimp only
      rw [arrived]

theorem step_spoke_iff :
    state.step (.spoke i) = .ok next ↔
      ∃ spoke, Spoke.Stepped (state.spokes i) spoke ∧ next = state.setSpoke i spoke := by
  rw [step]
  constructor
  · intro stepped
    cases isStep : (state.spokes i).step with
    | error idle =>
        rw [isStep] at stepped
        cases stepped
    | ok spoke =>
        rw [isStep] at stepped
        exact ⟨spoke, Spoke.stepped_of_step isStep, (Except.ok.inj stepped).symm⟩
  · rintro ⟨spoke, stepped, rfl⟩
    rw [stepped.step]
    rfl

/-! ## Steps of different parties commute -/

@[simp]
theorem setSpoke_spokes_self : (state.setSpoke i spoke).spokes i = spoke := by
  simp only [setSpoke, Function.update_self]

theorem setSpoke_spokes_of_ne (apart : j ≠ i) :
    (state.setSpoke i spoke).spokes j = state.spokes j := by
  simp only [setSpoke, Function.update_of_ne apart]

@[simp]
theorem setSpoke_setSpoke {other : Spoke M E A} :
    (state.setSpoke i spoke).setSpoke i other = state.setSpoke i other := by
  simp only [setSpoke, Function.update_idem]

theorem setSpoke_comm (apart : i ≠ j) {other : Spoke M E A} :
    (state.setSpoke i spoke).setSpoke j other = (state.setSpoke j other).setSpoke i spoke := by
  simp only [setSpoke, Function.update_comm apart]

theorem hubActs_setSpoke {act : Act ι M E} {rest : Program ι M E R} :
    (state.hubActs act rest).setSpoke i spoke = (state.setSpoke i spoke).hubActs act rest := rfl

/-- The hub and a spoke. -/
theorem hub_spoke_commute (byHub : HubStepped state first)
    (bySpoke : Spoke.Stepped (state.spokes i) spoke) :
    ∃ changed, Spoke.Stepped (first.spokes i) changed ∧
      HubStepped (state.setSpoke i spoke) (first.setSpoke i changed) := by
  cases byHub with
  | marked isNext => exact ⟨spoke, bySpoke, .marked isNext⟩
  | sent isNext =>
      rename_i j message rest
      by_cases same : j = i
      · subst same
        have stepped : HubStepped (state.setSpoke j spoke) _ := .sent isNext
        rw [setSpoke_spokes_self, setSpoke_setSpoke] at stepped
        refine ⟨spoke.push message, ?_, ?_⟩
        · change Spoke.Stepped ((state.setSpoke j _).spokes j) _
          rw [setSpoke_spokes_self]
          exact bySpoke.push message
        · rwa [hubActs_setSpoke, setSpoke_setSpoke]
      · have stepped : HubStepped (state.setSpoke i spoke) _ := .sent isNext
        rw [setSpoke_spokes_of_ne same, setSpoke_comm (Ne.symm same)] at stepped
        refine ⟨spoke, ?_, stepped⟩
        change Spoke.Stepped ((state.setSpoke j _).spokes i) _
        rwa [setSpoke_spokes_of_ne (Ne.symm same)]
  | received isNext arrived =>
      rename_i j message later rest
      by_cases same : j = i
      · subst same
        obtain ⟨queued, stillArrived, stepped⟩ := bySpoke.pop arrived
        have isQueued : ((state.setSpoke j spoke).spokes j).toHub = message :: queued := by
          rw [setSpoke_spokes_self, stillArrived]
        have steppedHub : HubStepped (state.setSpoke j spoke) _ := .received isNext isQueued
        rw [setSpoke_spokes_self, setSpoke_setSpoke] at steppedHub
        refine ⟨spoke.setToHub queued, ?_, ?_⟩
        · change Spoke.Stepped ((state.setSpoke j _).spokes j) _
          rw [setSpoke_spokes_self]
          exact stepped
        · rwa [hubActs_setSpoke, setSpoke_setSpoke]
      · have stillArrived : ((state.setSpoke i spoke).spokes j).toHub = message :: later := by
          rw [setSpoke_spokes_of_ne same, arrived]
        have stepped : HubStepped (state.setSpoke i spoke) _ := .received isNext stillArrived
        rw [setSpoke_spokes_of_ne same, setSpoke_comm (Ne.symm same)] at stepped
        refine ⟨spoke, ?_, stepped⟩
        change Spoke.Stepped ((state.setSpoke j _).spokes i) _
        rwa [setSpoke_spokes_of_ne (Ne.symm same)]

theorem step_commutes : Commutes (step (ι := ι) (M := M) (E := E) (R := R) (A := A)) := by
  intro state first second p q apart byFirst bySecond
  cases p with
  | hub =>
      cases q with
      | hub => exact absurd rfl apart
      | spoke i =>
          obtain ⟨spoke, bySpoke, rfl⟩ := step_spoke_iff.mp bySecond
          obtain ⟨changed, changes, byHub⟩ :=
            hub_spoke_commute (hubStepped_of_step byFirst) bySpoke
          exact ⟨_, step_spoke_iff.mpr ⟨changed, changes, rfl⟩, byHub.step⟩
  | spoke i =>
      obtain ⟨spoke, bySpoke, rfl⟩ := step_spoke_iff.mp byFirst
      cases q with
      | hub =>
          obtain ⟨changed, changes, byHub⟩ :=
            hub_spoke_commute (hubStepped_of_step bySecond) bySpoke
          exact ⟨_, byHub.step, step_spoke_iff.mpr ⟨changed, changes, rfl⟩⟩
      | spoke j =>
          have areApart : i ≠ j := fun same => apart (congrArg Party.spoke same)
          obtain ⟨other, byOther, rfl⟩ := step_spoke_iff.mp bySecond
          refine ⟨(state.setSpoke i spoke).setSpoke j other, step_spoke_iff.mpr ?_,
            step_spoke_iff.mpr ?_⟩
          · refine ⟨other, ?_, rfl⟩
            rwa [setSpoke_spokes_of_ne areApart.symm]
          · refine ⟨spoke, ?_, setSpoke_comm areApart⟩
            rwa [setSpoke_spokes_of_ne areApart]

/-! ## What holds in every run -/

/-- What was received is what was sent, but for what is under way. -/
structure Orderly (state : Conversation ι M E R A) : Prop where
  toSpoke (i : ι) : sentTo i state.hubLog =
    receivedFrom () (state.spokes i).log ++ (state.spokes i).toSpoke
  toHub (i : ι) : sentTo () (state.spokes i).log =
    receivedFrom i state.hubLog ++ (state.spokes i).toHub

theorem Orderly.ofSpoke (orderly : Orderly state) (stepped : Spoke.Stepped (state.spokes i) spoke) :
    Orderly (state.setSpoke i spoke) := by
  have toSpoke := orderly.toSpoke i
  have toHub := orderly.toHub i
  refine ⟨fun j => ?_, fun j => ?_⟩ <;> by_cases same : j = i
  · subst same
    rw [setSpoke_spokes_self]
    refine toSpoke.trans ?_
    cases stepped with
    | marked isNext => simp
    | sent isNext => simp
    | received isNext arrived => simp [arrived]
  · rw [setSpoke_spokes_of_ne same]
    exact orderly.toSpoke j
  · subst same
    rw [setSpoke_spokes_self]
    change _ = receivedFrom j state.hubLog ++ _
    cases stepped with
    | marked isNext => simpa using toHub
    | sent isNext => simp [toHub]
    | received isNext arrived => simpa using toHub
  · rw [setSpoke_spokes_of_ne same]
    exact orderly.toHub j

theorem Orderly.ofHub (orderly : Orderly state) (stepped : HubStepped state next) :
    Orderly next := by
  cases stepped with
  | marked isNext =>
      refine ⟨fun j => ?_, fun j => ?_⟩
      · simpa [hubActs] using orderly.toSpoke j
      · simpa [hubActs] using orderly.toHub j
  | sent isNext =>
      rename_i i message rest
      refine ⟨fun j => ?_, fun j => ?_⟩ <;> by_cases same : j = i
      · subst same
        simp [hubActs, setSpoke, Spoke.push, orderly.toSpoke j]
      · simpa [hubActs, setSpoke, same, sentTo_sent_of_ne (Ne.symm same)] using orderly.toSpoke j
      · subst same
        simpa [hubActs, setSpoke, Spoke.push] using orderly.toHub j
      · simpa [hubActs, setSpoke, same] using orderly.toHub j
  | received isNext arrived =>
      rename_i i message later rest
      refine ⟨fun j => ?_, fun j => ?_⟩ <;> by_cases same : j = i
      · subst same
        simpa [hubActs, setSpoke] using orderly.toSpoke j
      · simpa [hubActs, setSpoke, same] using orderly.toSpoke j
      · subst same
        simp [hubActs, setSpoke, orderly.toHub j, arrived]
      · simpa [hubActs, setSpoke, same, receivedFrom_received_of_ne (Ne.symm same)] using
          orderly.toHub j

theorem Orderly.step {party : Party ι} (orderly : Orderly state)
    (stepped : state.step party = .ok next) : Orderly next := by
  cases party with
  | hub => exact orderly.ofHub (hubStepped_of_step stepped)
  | spoke i =>
      obtain ⟨spoke, bySpoke, rfl⟩ := step_spoke_iff.mp stepped
      exact orderly.ofSpoke bySpoke

variable {hub : Program ι M E R} {spokes : ι → Program Unit M E A}

/-- In every run the queues keep the order, and lose and repeat nothing. -/
theorem orderly_along (schedule : List (Party ι)) :
    AlongRun step (start hub spokes) schedule fun _ state => Orderly state :=
  alongRun_of_preserved schedule ⟨fun _ => rfl, fun _ => rfl⟩
    fun _ _ _ _ orderly stepped => orderly.step stepped

/-- What the hub keeps whatever it receives, it keeps in every run. -/
theorem hub_along {good : List (Act ι M E) → Prop} {post : List (Act ι M E) → R → Prop}
    (keeps : hub.Keeps good post []) (schedule : List (Party ι)) :
    AlongRun step (start hub spokes) schedule
      fun _ state => state.hub.Keeps good post state.hubLog := by
  refine alongRun_of_preserved schedule keeps fun _ state party next keeps stepped => ?_
  cases party with
  | hub =>
      cases hubStepped_of_step stepped with
      | marked isNext =>
          rw [isNext] at keeps
          exact keeps.2
      | sent isNext =>
          rw [isNext] at keeps
          exact keeps.2
      | received isNext arrived =>
          rw [isNext] at keeps
          exact keeps.2 _
  | spoke i =>
      obtain ⟨spoke, -, rfl⟩ := step_spoke_iff.mp stepped
      exact keeps

/-- What a spoke keeps whatever it receives, it keeps in every run. -/
theorem spoke_along {good : List (Act Unit M E) → Prop} {post : List (Act Unit M E) → A → Prop}
    (keeps : (spokes i).Keeps good post []) (schedule : List (Party ι)) :
    AlongRun step (start hub spokes) schedule
      fun _ state => (state.spokes i).program.Keeps good post (state.spokes i).log := by
  refine alongRun_of_preserved schedule keeps fun _ state party next keeps stepped => ?_
  cases party with
  | hub =>
      -- The hub changes the queues of a spoke only.
      have same (j : ι) (changed : Spoke M E A)
          (isSame : changed.program = (state.spokes j).program ∧
            changed.log = (state.spokes j).log) :
          ((state.setSpoke j changed).spokes i).program.Keeps good post
            ((state.setSpoke j changed).spokes i).log := by
        by_cases isHere : i = j
        · subst isHere
          rwa [setSpoke_spokes_self, isSame.1, isSame.2]
        · rwa [setSpoke_spokes_of_ne isHere]
      cases hubStepped_of_step stepped with
      | marked isNext => exact keeps
      | sent isNext => exact same _ _ ⟨rfl, rfl⟩
      | received isNext arrived => exact same _ _ ⟨rfl, rfl⟩
  | spoke j =>
      obtain ⟨spoke, bySpoke, rfl⟩ := step_spoke_iff.mp stepped
      by_cases isHere : i = j
      · subst isHere
        rw [setSpoke_spokes_self]
        cases bySpoke with
        | marked isNext =>
            rw [isNext] at keeps
            exact keeps.2
        | sent isNext =>
            rw [isNext] at keeps
            exact keeps.2
        | received isNext arrived =>
            rw [isNext] at keeps
            exact keeps.2 _
      · rwa [setSpoke_spokes_of_ne isHere]

end Conversation

end Datamime.Math
