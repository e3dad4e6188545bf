/-
# Agents out of step

An instance that comes to its end has synchronized in each round as often as its own arguments and
those of the master say. Nobody passes a synchronization alone, so that a session can end only if
these numbers agree.
-/

import Datamime.Math.Tally
import Datamime.Mutilate.AgentSession

namespace Datamime.Mutilate.Agents

open Datamime.Math Conversation Program

variable {P T : Type} {n : ℕ} {event : Event}

/-! ## What the instances rely on -/

/-- Options are sent only with the flags of a master with these arguments. -/
def Message.Allowed (args : Args) : Message T → Prop
  | .options given => given.loadonly = args.loadonly ∧ given.warmup = args.warmup.getD 0
  | .number _ => True
  | .text _ => True
  | .stats _ => True

/-- The master sends nothing else. -/
def masterTerms (n : ℕ) (T : Type) (args : Args) : Terms (Fin n) (Message T) Event where
  good log := ∀ i, ∀ message ∈ sentTo i log, message.Allowed args
  assumed _ := True
  hears log peer message isGood i := by
    rw [sentTo_received]
    exact isGood i
  marked log event isGood i := by
    rw [sentTo_marked]
    exact isGood i
  lost _ _ _ := trivial

/-- An agent assumes that it hears nothing else. -/
def agentTerms (T : Type) (args : Args) : Terms Unit (Message T) Event where
  good _ := True
  assumed log := ∀ message ∈ receivedFrom () log, message.Allowed args
  hears _ _ _ _ := trivial
  marked _ _ _ := trivial
  lost log act assumed message arrived := by
    refine assumed message ?_
    rw [receivedFrom, List.filterMap_append]
    exact List.mem_append_left _ arrived

def Event.IsSync (event : Event) : Prop := event = .synchronizing ∨ event = .synchronized

/-! ## Parts of both programs -/

section

variable {terms : Terms P (Message T) Event} {sync : Program P (Message T) Event Unit}
  {message : Message T}

theorem marks_expect {expected reason : String} :
    Marks terms event (expect expected reason message) 0 := by
  rw [expect]
  split
  · exact .pure ()
  · exact .die _

theorem marks_repeatSync (one : Marks terms event sync 1) (count : ℕ) :
    Marks terms event (repeatSync sync count) count := by
  induction count with
  | zero => exact .pure ()
  | succ count ih =>
      rw [repeatSync, Nat.add_comm]
      exact one.bind fun _ => ih

theorem marks_runThreads [Zero T] (one : Marks terms event sync 1) (hasAgents : Bool) (args : Args)
    (options : RunOptions T) (servers : List String) (load : Load T) (report : Report T) :
    Marks terms event (runThreads hasAgents sync args options servers load report)
      (syncs hasAgents options) := by
  rw [runThreads_eq]
  exact (marks_repeatSync one _).andSilent fun _ => .pure _

/-- A synchronization marks both events once, and what stands between them is silent. -/
theorem marks_sync {between : Program P (Message T) Event Unit} (isSync : event.IsSync)
    (silent : Marks terms event between 0) :
    Marks terms event (Program.note .synchronizing >>= fun _ => between >>= fun _ =>
      Program.note .synchronized) 1 := by
  rcases isSync with rfl | rfl
  · exact Marks.note.andSilent fun _ => silent.silent fun _ => .noteOther (by decide)
  · exact (Marks.noteOther (by decide)).silent fun _ => silent.silent fun _ => .note

end

/-! ## The master -/

section

variable {args : Args} {message : Message T} {i : Fin n}

theorem marks_masterTell (allowed : message.Allowed args) :
    Marks (masterTerms n T args) event (Program.tell i message) 0 := by
  refine .tell fun log isGood j other sent => ?_
  by_cases same : i = j
  · subst same
    rw [sentTo_sent_self] at sent
    rcases List.mem_append.mp sent with earlier | last
    · exact isGood i other earlier
    · rwa [List.mem_singleton.mp last]
  · rw [sentTo_sent_of_ne same] at sent
    exact isGood j other sent

theorem marks_masterText {text : String} :
    Marks (masterTerms n T args) event (Program.tell i (.text text)) 0 :=
  marks_masterTell trivial

theorem marks_masterNumber {number : ℤ} :
    Marks (masterTerms n T args) event (Program.tell i (.number number)) 0 :=
  marks_masterTell trivial

theorem marks_syncMaster (isSync : event.IsSync) :
    Marks (masterTerms n T args) event syncMaster 1 := by
  have tells (text : String) : Marks (masterTerms n T args) event
      (forM (agentSockets n) fun socket => Program.tell socket (.text text)) 0 :=
    .eachSilent fun _ => marks_masterText
  have hears (expected reason : String) : Marks (masterTerms n T args) event
      (forM (agentSockets n) fun socket => do
        let answer ← Program.hear socket
        expect expected reason answer) 0 :=
    .eachSilent fun _ => Marks.hear.silent fun _ => marks_expect
  have between := (tells "sync_req").silent fun _ =>
    (hears "sync" "sync_agent[M]: out of sync [1]").silent fun _ =>
      (tells "proceed").silent fun _ => hears "ack" "sync_agent[M]: out of sync [2]"
  have marks := marks_sync isSync between
  simp only [bind_assoc] at marks
  exact marks

theorem marks_greet {options : RunOptions T}
    (allowed : (Message.options options).Allowed args) (servers : List String) :
    Marks (masterTerms n T args) event (greet options servers i) 0 := by
  rw [greet]
  exact (marks_masterTell allowed).silent fun _ => Marks.hear.silent fun _ =>
    (Marks.atOnce (readNumber_atOnce _)).silent fun _ => Marks.silent (.eachSilent fun _ =>
      marks_masterText.silent fun _ => Marks.hear.silent fun _ => .pure ()) fun _ =>
    .pure _

theorem marks_finishAgent (report : Report T) :
    Marks (masterTerms n T args) event (finishAgent report) 0 :=
  .foldlMSilent fun _ _ => marks_masterText.silent fun _ => Marks.hear.silent fun _ =>
    (Marks.atOnce (readStats_atOnce _)).silent fun _ => .pure _

variable [Mul T] [Div T] [IntCast T]

theorem syncs_settle (chosen : Option ℤ) (sum masterSum : ℤ) :
    syncs true (settle args (sharedOptions args (withQps args chosen : RunOptions T)) sum
      masterSum) = args.masterSyncs := by
  obtain ⟨qps, lambda, isRound⟩ := Team.withQps_eq (T := T) args chosen
  obtain ⟨shared, isShared⟩ := Team.sharedOptions_eq args (withQps args chosen : RunOptions T)
  obtain ⟨measured, depth, isSettled⟩ :=
    Team.settle_eq (T := T) args (sharedOptions args (withQps args chosen)) sum masterSum
  rw [isSettled, isShared, isRound]
  rfl

theorem allowed_sharedOptions (chosen : Option ℤ) :
    (Message.options (sharedOptions args (withQps args chosen : RunOptions T))).Allowed args := by
  obtain ⟨qps, lambda, isRound⟩ := Team.withQps_eq (T := T) args chosen
  obtain ⟨shared, isShared⟩ := Team.sharedOptions_eq args (withQps args chosen : RunOptions T)
  rw [isShared, isRound]
  exact ⟨rfl, rfl⟩

theorem marks_master [Zero T] (isSync : event.IsSync) (choose : ℕ → List (Round T) → Option ℤ)
    (loads : ℕ → Load T) (count : ℕ) :
    Marks (masterTerms n T args) event (master args choose loads count)
      (count * args.masterSyncs) := by
  have rounds : Marks (masterTerms n T args) event (master args choose loads count)
      ((List.range count).length * args.masterSyncs) := by
    refine .foldlM fun before round => ?_
    rw [go, prepAgent]
    simp only [bind_assoc, pure_bind]
    refine Marks.silent (.foldlMSilent fun sum i =>
      (marks_greet (allowed_sharedOptions _) _).silent fun _ => .pure _) fun sum => ?_
    refine Marks.silent (.eachSilent fun i => marks_masterNumber.silent fun _ =>
      Marks.hear.silent fun _ => .pure ()) fun _ => ?_
    rw [← syncs_settle (T := T) (choose round before) sum]
    exact (marks_runThreads (marks_syncMaster isSync) _ _ _ _ _ _).andSilent fun own =>
      (marks_finishAgent own).silent fun _ => .pure _
  rwa [List.length_range] at rounds

end

/-! ## An agent -/

section

variable {args : Args} {message : Message T}

theorem marks_agentTell :
    Marks (agentTerms T args) event (Program.tell () message) 0 :=
  .tell fun _ _ => trivial

theorem marks_syncAgent (isSync : event.IsSync) :
    Marks (agentTerms T args) event syncAgent 1 := by
  have between : Marks (agentTerms T args) event (do
      let request ← Program.hear ()
      expect "sync_req" "sync_agent[A]: out of sync [1]" request
      Program.tell () (.text "sync")
      let request ← Program.hear ()
      expect "proceed" "sync_agent[A]: out of sync [2]" request
      Program.tell () (.text "ack")) 0 :=
    Marks.hear.silent fun _ => marks_expect.silent fun _ => marks_agentTell.silent fun _ =>
      Marks.hear.silent fun _ => marks_expect.silent fun _ => marks_agentTell
  have marks := marks_sync isSync between
  simp only [bind_assoc] at marks
  exact marks

theorem marks_receiveServers (count : ℕ) (servers : List String) :
    Marks (agentTerms T args) event (receiveServers count servers) 0 := by
  induction count generalizing servers with
  | zero => exact .pure servers
  | succ count ih =>
      rw [receiveServers]
      exact Marks.hear.silent fun _ => (Marks.atOnce (readText_atOnce _)).silent fun _ =>
        marks_agentTell.silent fun _ => ih _

variable [Mul T] [Div T] [IntCast T]

theorem syncs_shareRate {options : RunOptions T} (allowed : (Message.options options).Allowed args)
    (own : Args) (lambdaDenom : ℤ) :
    syncs false (shareRate own options lambdaDenom) = args.agentSyncs own := by
  obtain ⟨isLoadonly, isWarmup⟩ := allowed
  rw [syncs, shareRate, Args.agentSyncs, Args.phases, ← isLoadonly, ← isWarmup]
  rfl

theorem marks_agentRound [Zero T] (isSync : event.IsSync) (own : Args) (load : Load T) :
    Marks (agentTerms T args) event (agentRound own load) (args.agentSyncs own) := by
  rw [agentRound]
  refine .hearAssumed (fun _ => trivial) (fun log message assumed => assumed message ?_)
    fun request allowed => marks_agentTell.silent fun _ => ?_
  · rw [receivedFrom_received_self]
    exact List.mem_append_right _ (List.mem_singleton_self message)
  cases request with
  | number number => exact .die _
  | text text => exact .die _
  | stats report => exact .die _
  | options options =>
      rw [readOptions_options, pure_bind]
      refine (marks_receiveServers _ _).silent fun servers => Marks.hear.silent fun _ =>
        (Marks.atOnce (readNumber_atOnce _)).silent fun lambdaDenom =>
          marks_agentTell.silent fun _ => ?_
      rw [← syncs_shareRate allowed own lambdaDenom]
      exact (marks_runThreads (marks_syncAgent isSync) _ _ _ _ _ _).andSilent fun _ =>
        Marks.hear.silent fun _ => marks_agentTell.silent fun _ => .pure _

theorem marks_agent [Zero T] (isSync : event.IsSync) (args own : Args) (loads : ℕ → Load T)
    (count : ℕ) :
    Marks (agentTerms T args) event (agent own loads count) (count * args.agentSyncs own) := by
  have rounds : Marks (agentTerms T args) event (agent own loads count)
      ((List.range count).length * args.agentSyncs own) :=
    .foldlM fun before round => (marks_agentRound isSync own _).andSilent fun _ => .pure _
  rwa [List.length_range] at rounds

end

/-! ## All instances -/

namespace Team

variable [Mul T] [Div T] [IntCast T] [Zero T] {team : Team n T} {count : ℕ}
  {schedule : List (Party (Fin n))} {cluster : Cluster n T} {rounds : List (Round T)}
  {agentRounds : Fin n → List (Round T)}

/-- At the end the master has synchronized as often as its arguments say, and has sent its own
options only. -/
theorem master_marks (isSync : event.IsSync)
    (reached : run step (team.start count) schedule = .ok cluster)
    (ends : cluster.Ends rounds agentRounds) :
    (∀ i, ∀ message ∈ sentTo i cluster.hubLog, message.Allowed team.args) ∧
      (cluster.events .hub).count event = count * team.args.masterSyncs := by
  have nothing (i : Fin n) (message : Message T)
      (sent : message ∈ sentTo i ([] : List (Act (Fin n) (Message T) Event))) :
      message.Allowed team.args := by cases sent
  have keeps := marks_master (n := n) isSync team.choose team.loads count [] 0 nothing fun _ => rfl
  have atEnd : cluster.hub.Keeps _ _ cluster.hubLog :=
    hub_along keeps schedule schedule (List.prefix_refl schedule) cluster reached
  rw [ends.hub, Nat.zero_add] at atEnd
  exact ⟨atEnd.1, atEnd.2 trivial⟩

/-- At the end an agent has synchronized as often as its arguments and those of the master say. -/
theorem agent_marks (isSync : event.IsSync)
    (reached : run step (team.start count) schedule = .ok cluster)
    (ends : cluster.Ends rounds agentRounds) (i : Fin n) :
    (cluster.events (.spoke i)).count event =
      count * team.args.agentSyncs (team.agentArgs i) := by
  have keeps := marks_agent isSync team.args (team.agentArgs i) (team.agentLoads i) count
    [] 0 trivial fun _ => rfl
  have atEnd : (cluster.spokes i).program.Keeps _ _ (cluster.spokes i).log :=
    spoke_along (i := i) keeps schedule schedule (List.prefix_refl schedule) cluster reached
  have orderly := orderly_along schedule schedule (List.prefix_refl schedule) cluster reached
  rw [ends.program i, Nat.zero_add] at atEnd
  refine atEnd.2 fun message arrived => (master_marks isSync reached ends).1 i message ?_
  rw [orderly.toSpoke i]
  exact List.mem_append_left _ arrived

/-- A session of one round or more can come to its end if and only if every agent synchronizes as
often as the master. -/
theorem ends_iff_inStep (names : "proceed" ∉ team.args.servers) (isSome : 0 < count) :
    (∃ schedule cluster rounds agentRounds, run step (team.start count) schedule = .ok cluster ∧
      Ends cluster rounds agentRounds) ↔ team.InStep := by
  constructor
  · rintro ⟨schedule, cluster, rounds, agentRounds, reached, ends⟩ i
    have waits : Cluster.Waits cluster := waits_of_reached names reached
    have arrivals := agent_marks (.inl rfl) reached ends i
    have passes := agent_marks (.inr rfl) reached ends i
    have hubArrivals := (master_marks (.inl rfl) reached ends).2
    have hubPasses := (master_marks (.inr rfl) reached ends).2
    -- At the end each side has passed as often as it has come, which is the same in each round.
    have agentWaits := waits (.spoke i) .hub
    have masterWaits := waits .hub (.spoke i)
    rw [passes, hubArrivals] at agentWaits
    rw [hubPasses, arrivals] at masterWaits
    exact le_antisymm (Nat.le_of_mul_le_mul_left agentWaits isSome)
      (Nat.le_of_mul_le_mul_left masterWaits isSome)
  · intro inStep
    obtain ⟨_, completes⟩ := (start_leads inStep count).completes
    obtain ⟨-, ⟨schedule, last, reached, ends⟩, -⟩ := completes [] (team.start count) rfl
    exact ⟨schedule, last, _, _, reached, ends⟩

/-- The first agent has no threads. -/
def idler : Team 2 ℚ :=
  { helpers with
    agentArgs := fun i => { helpers.agentArgs i with threads := 4 * i.val } }

theorem idler_never_ends : "proceed" ∉ idler.args.servers ∧ 0 < 1 ∧
    ¬ ∃ schedule cluster rounds agentRounds, run step (idler.start 1) schedule = .ok cluster ∧
      Ends cluster rounds agentRounds := by
  have names : "proceed" ∉ idler.args.servers := by decide
  have apart : idler.args.agentSyncs (idler.agentArgs 0) ≠ idler.args.masterSyncs := by decide
  exact ⟨names, Nat.one_pos, fun ends => apart ((ends_iff_inStep names Nat.one_pos).mp ends 0)⟩

end Team

end Datamime.Mutilate.Agents
