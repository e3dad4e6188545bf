/-
# A conversation without queues

A conversation in which each message is taken as soon as it is sent is one of the runs with queues.
If it ends with all parties at their end, every run can be continued to that same end. Such a
conversation is put together from the talks of the hub with one spoke after the other.
-/

import Datamime.Math.Conversation

namespace Datamime.Math

variable {ι M E R S A : Type} [DecidableEq ι]

namespace Conversation

/-- The parties are at these programs, and no message is under way. -/
structure AtRest (state : Conversation ι M E R A) (hub : Program ι M E R)
    (spokes : ι → Program Unit M E A) : Prop where
  hub : state.hub = hub
  program (i : ι) : (state.spokes i).program = spokes i
  toSpoke (i : ι) : (state.spokes i).toSpoke = []
  toHub (i : ι) : (state.spokes i).toHub = []

/-- All parties have come to their end, with these results. -/
def Ends (state : Conversation ι M E R A) (result : R) (results : ι → A) : Prop :=
  state.AtRest (.done result) fun i => .done (results i)

theorem Ends.final {state : Conversation ι M E R A} {result : R} {results : ι → A}
    (ends : state.Ends result results) : Final step state := by
  intro party next stepped
  cases party with
  | hub =>
      rw [step, hubStep, ends.hub] at stepped
      cases stepped
  | spoke i =>
      obtain ⟨spoke, bySpoke, -⟩ := step_spoke_iff.mp stepped
      have isDone := ends.program i
      cases bySpoke with
      | marked isNext => cases isNext.symm.trans isDone
      | sent isNext => cases isNext.symm.trans isDone
      | received isNext _ => cases isNext.symm.trans isDone

/-- A state with some programs at rest can be reached from any with others at rest. -/
def Leads (hub : Program ι M E R) (spokes : ι → Program Unit M E A) (laterHub : Program ι M E R)
    (laterSpokes : ι → Program Unit M E A) : Prop :=
  ∀ state : Conversation ι M E R A, state.AtRest hub spokes →
    ∃ schedule last, run step state schedule = .ok last ∧ last.AtRest laterHub laterSpokes

variable {hub middleHub laterHub : Program ι M E R}
  {spokes middleSpokes laterSpokes : ι → Program Unit M E A} {i : ι}

theorem Leads.refl : Leads hub spokes hub spokes :=
  fun state atRest => ⟨[], state, rfl, atRest⟩

theorem Leads.trans (first : Leads hub spokes middleHub middleSpokes)
    (second : Leads middleHub middleSpokes laterHub laterSpokes) :
    Leads hub spokes laterHub laterSpokes := by
  intro state atRest
  obtain ⟨early, middle, reached, atMiddle⟩ := first state atRest
  obtain ⟨late, last, onward, atLast⟩ := second middle atMiddle
  exact ⟨early ++ late, last, run_append_eq_ok_iff.mpr ⟨middle, reached, onward⟩, atLast⟩

omit [DecidableEq ι] in
theorem AtRest.hubActs {state : Conversation ι M E R A} (atRest : state.AtRest hub spokes)
    (act : Act ι M E) (later : Program ι M E R) :
    (state.hubActs act later).AtRest later spokes where
  hub := rfl
  program := atRest.program
  toSpoke := atRest.toSpoke
  toHub := atRest.toHub

/-- The state of one spoke has been replaced by one without messages under way. -/
theorem AtRest.setSpoke {state : Conversation ι M E R A} {spoke : Spoke M E A}
    {next : Program Unit M E A} (atRest : state.AtRest hub spokes) (program : spoke.program = next)
    (toSpoke : spoke.toSpoke = []) (toHub : spoke.toHub = []) :
    (state.setSpoke i spoke).AtRest hub (Function.update spokes i next) where
  hub := atRest.hub
  program j := by
    by_cases same : j = i
    · subst same
      rwa [setSpoke_spokes_self, Function.update_self]
    · rw [setSpoke_spokes_of_ne same, Function.update_of_ne same, atRest.program j]
  toSpoke j := by
    by_cases same : j = i
    · subst same
      rwa [setSpoke_spokes_self]
    · rw [setSpoke_spokes_of_ne same, atRest.toSpoke j]
  toHub j := by
    by_cases same : j = i
    · subst same
      rwa [setSpoke_spokes_self]
    · rw [setSpoke_spokes_of_ne same, atRest.toHub j]

theorem leads_hubMark (event : E) : Leads (.mark event hub) spokes hub spokes := by
  intro state atRest
  refine ⟨[.hub], _, ?_, atRest.hubActs (.marked event) hub⟩
  rw [run_cons_of_ok (HubStepped.marked atRest.hub).step, run_nil]

theorem leads_spokeMark {event : E} {next : Program Unit M E A}
    (isNext : spokes i = .mark event next) :
    Leads hub spokes hub (Function.update spokes i next) := by
  intro state atRest
  have stepped := Spoke.Stepped.marked ((atRest.program i).trans isNext)
  refine ⟨[.spoke i], state.setSpoke i ((state.spokes i).acts (.marked event) next), ?_,
    atRest.setSpoke rfl (atRest.toSpoke i) (atRest.toHub i)⟩
  rw [run_cons_of_ok (step_spoke_iff.mpr ⟨_, stepped, rfl⟩), run_nil]

/-- The hub sends, and the spoke receives. -/
theorem leads_toSpoke {message : M} {next : M → Program Unit M E A}
    (isNext : spokes i = .receive () next) :
    Leads (.send i message hub) spokes hub (Function.update spokes i (next message)) := by
  intro state atRest
  let sent := (state.setSpoke i ((state.spokes i).push message)).hubActs (.sent i message) hub
  let taken := (((state.spokes i).push message).acts (.received () message)
    (next message)).setToSpoke []
  have isSent : sent.spokes i = (state.spokes i).push message := setSpoke_spokes_self
  have bySpoke : Spoke.Stepped (sent.spokes i) taken := by
    rw [isSent]
    refine .received ((atRest.program i).trans isNext) ?_
    rw [Spoke.push_toSpoke, atRest.toSpoke i, List.nil_append]
  have atLast : (sent.setSpoke i taken).AtRest hub (Function.update spokes i (next message)) := by
    rw [hubActs_setSpoke, setSpoke_setSpoke]
    have atTaken : (state.setSpoke i taken).AtRest _ (Function.update spokes i (next message)) :=
      atRest.setSpoke rfl rfl (atRest.toHub i)
    exact atTaken.hubActs _ _
  refine ⟨[.hub, .spoke i], sent.setSpoke i taken, ?_, atLast⟩
  rw [run_cons_of_ok (HubStepped.sent atRest.hub).step,
    run_cons_of_ok (step_spoke_iff.mpr ⟨taken, bySpoke, rfl⟩), run_nil]

/-- The spoke sends, and the hub receives. -/
theorem leads_toHub {message : M} {next : M → Program ι M E R} {rest : Program Unit M E A}
    (isNext : spokes i = .send () message rest) :
    Leads (.receive i next) spokes (next message) (Function.update spokes i rest) := by
  intro state atRest
  let answered := ((state.spokes i).acts (.sent () message) rest).setToHub
    ((state.spokes i).toHub ++ [message])
  let sent := state.setSpoke i answered
  have isSent : sent.spokes i = answered := setSpoke_spokes_self
  have arrived : (sent.spokes i).toHub = message :: [] := by
    rw [isSent]
    exact congrArg (· ++ [message]) (atRest.toHub i)
  have bySpoke : Spoke.Stepped (state.spokes i) answered :=
    .sent ((atRest.program i).trans isNext)
  have byHub : HubStepped sent _ := .received atRest.hub arrived
  rw [isSent, setSpoke_setSpoke] at byHub
  have atTaken : (state.setSpoke i (answered.setToHub [])).AtRest _
      (Function.update spokes i rest) := atRest.setSpoke rfl (atRest.toSpoke i) rfl
  refine ⟨[.spoke i, .hub], _, ?_, atTaken.hubActs (.received i message) (next message)⟩
  rw [run_cons_of_ok (step_spoke_iff.mpr ⟨answered, bySpoke, rfl⟩), run_cons_of_ok byHub.step,
    run_nil]

/-- If the parties can come to their end without queues, no run can go wrong: it can be continued to
that end, it is not longer than one fixed number, and where nobody can take a step all are at their
end. -/
theorem Leads.completes {result : R} {results : ι → A}
    (leads : Leads hub spokes (.done result) fun i => .done (results i)) :
    ∃ count, ∀ schedule state, run step (start hub spokes) schedule = .ok state →
      schedule.length ≤ count ∧
      (∃ rest last, run step state rest = .ok last ∧ last.Ends result results) ∧
      (Final step state → state.Ends result results) := by
  obtain ⟨whole, last, reached, ends⟩ :=
    leads (start hub spokes) ⟨rfl, fun _ => rfl, fun _ => rfl, fun _ => rfl⟩
  have isFinal : Final step last := Ends.final ends
  refine ⟨whole.length, fun schedule state run_early => ?_⟩
  obtain ⟨rest, joins, total⟩ := step_commutes.run_joins isFinal reached run_early
  refine ⟨by omega, ⟨rest, last, joins, ends⟩, fun ended => ?_⟩
  rwa [step_commutes.final_unique isFinal reached run_early ended]

/-! ## Talks -/

/-- A part of the program of the hub brings the spokes from some programs to others, and has a
result, whatever the hub does then. -/
structure Talks (part : Program ι M E R) (spokes : ι → Program Unit M E A) (result : R)
    (later : ι → Program Unit M E A) : Prop where
  leads {S : Type} (rest : R → Program ι M E S) : Leads (part >>= rest) spokes (rest result) later

variable {part : Program ι M E R} {result : R} {value : S}

theorem Talks.pure : Talks (M := M) (E := E) (pure result) spokes result spokes :=
  ⟨fun _ => Leads.refl⟩

theorem Talks.bind {next : R → Program ι M E S} (first : Talks part spokes result middleSpokes)
    (second : Talks (next result) middleSpokes value laterSpokes) :
    Talks (part >>= next) spokes value laterSpokes := by
  refine ⟨fun rest => ?_⟩
  rw [bind_assoc]
  exact (first.leads _).trans (second.leads rest)

theorem Talks.note (event : E) : Talks (M := M) (Program.note event) spokes () spokes :=
  ⟨fun _ => leads_hubMark event⟩

/-- A part of the program of the hub, in which it talks to one spoke only. -/
structure TalksTo (i : ι) (part : Program ι M E R) (program : Program Unit M E A) (result : R)
    (later : Program Unit M E A) : Prop where
  talks (spokes : ι → Program Unit M E A) (isProgram : spokes i = program) :
    Talks part spokes result (Function.update spokes i later)

variable {program middle later : Program Unit M E A}

theorem TalksTo.pure : TalksTo i (M := M) (E := E) (pure result) program result program := by
  refine ⟨fun spokes isProgram => ?_⟩
  rw [← isProgram, Function.update_eq_self]
  exact .pure

theorem TalksTo.bind {next : R → Program ι M E S} (first : TalksTo i part program result middle)
    (second : TalksTo i (next result) middle value later) :
    TalksTo i (part >>= next) program value later := by
  refine ⟨fun spokes isProgram => ?_⟩
  have onward :=
    second.talks (Function.update spokes i middle) (Function.update_self i middle spokes)
  rw [Function.update_idem] at onward
  exact (first.talks spokes isProgram).bind onward

/-- The spoke receives what the hub sends. -/
theorem TalksTo.tell (message : M) (next : M → Program Unit M E A) :
    TalksTo i (Program.tell i message) (Program.hear () >>= next) () (next message) :=
  ⟨fun _ isProgram => ⟨fun _ => leads_toSpoke isProgram⟩⟩

/-- The hub receives what the spoke sends. -/
theorem TalksTo.hear (message : M) (next : Unit → Program Unit M E A) :
    TalksTo i (Program.hear i) (Program.tell () message >>= next) message (next ()) :=
  ⟨fun _ isProgram => ⟨fun _ => leads_toHub isProgram⟩⟩

/-- The spoke marks an event first. -/
theorem TalksTo.noteFirst {event : E} {next : Unit → Program Unit M E A}
    (talksTo : TalksTo i part (next ()) result later) :
    TalksTo i part (Program.note event >>= next) result later := by
  refine ⟨fun spokes isProgram => ⟨fun rest => ?_⟩⟩
  have onward := (talksTo.talks (Function.update spokes i (next ()))
    (Function.update_self i _ spokes)).leads rest
  rw [Function.update_idem] at onward
  exact (leads_spokeMark isProgram).trans onward

/-- A loop of the hub over spokes, in which it talks to each of them once. -/
theorem Talks.foldlM {body : R → ι → Program ι M E R} {combine : R → ι → R} {spoken : List ι}
    {before after : ι → Program Unit M E A} (once : spoken.Nodup)
    (turn : ∀ i ∈ spoken, ∀ result,
      TalksTo i (body result i) (before i) (combine result i) (after i))
    (atStart : ∀ i ∈ spoken, spokes i = before i) :
    Talks (spoken.foldlM body result) spokes (spoken.foldl combine result)
      (fun i => if i ∈ spoken then after i else spokes i) := by
  induction spoken generalizing result spokes with
  | nil => simpa using Talks.pure
  | cons i spoken ih =>
      obtain ⟨isNew, once⟩ := List.nodup_cons.mp once
      have first := (turn i List.mem_cons_self result).talks spokes (atStart i List.mem_cons_self)
      have others : ∀ j ∈ spoken, Function.update spokes i (after i) j = before j := by
        intro j listed
        have apart : j ≠ i := fun same => isNew (same ▸ listed)
        rw [Function.update_of_ne apart]
        exact atStart j (List.mem_cons_of_mem i listed)
      have onward : Talks (spoken.foldlM body (combine result i)) _ _ _ :=
        ih once (fun j listed => turn j (List.mem_cons_of_mem i listed)) others
      have reached :
          (fun j => if j ∈ spoken then after j else Function.update spokes i (after i) j) =
          fun j => if j ∈ i :: spoken then after j else spokes j := by
        funext j
        by_cases same : j = i
        · subst same
          simp [isNew]
        · simp [same]
      rw [reached] at onward
      rw [List.foldlM_cons, List.foldl_cons]
      exact first.bind onward

/-- The same for a loop without a result. -/
theorem Talks.each {body : ι → Program ι M E Unit} {spoken : List ι}
    {before after : ι → Program Unit M E A} (once : spoken.Nodup)
    (turn : ∀ i ∈ spoken, TalksTo i (body i) (before i) () (after i))
    (atStart : ∀ i ∈ spoken, spokes i = before i) :
    Talks (forM spoken body) spokes () (fun i => if i ∈ spoken then after i else spokes i) := by
  have talks : Talks _ spokes (spoken.foldl (fun _ _ => ()) ()) _ :=
    Talks.foldlM once (fun i listed _ => turn i listed) atStart
  rwa [Program.forM_eq_foldlM]

end Conversation

end Datamime.Math
