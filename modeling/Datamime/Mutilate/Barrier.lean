/-
# No instance runs ahead

An instance goes through the synchronization only after every other one has arrived at it, so that
no measurement begins before all instances are ready. It holds in every run, however the messages
are delayed, for agents of any arguments.
-/

import Datamime.Math.Conversation
import Datamime.Mutilate.Agents

namespace Datamime.Mutilate.Agents

open Datamime.Math

variable {P T : Type} {n : ℕ}

/-! ## Counts of a log -/

/-- How many of the messages are equal to a text. -/
def saying (text : String) (messages : List (Message T)) : ℕ := messages.countP (·.isText text)

/-- How often an event was marked. -/
def times (event : Event) (log : List (Act P (Message T) Event)) : ℕ := (marks log).count event

variable {text : String} {messages : List (Message T)} {message : Message T}

theorem saying_append_of_isText (isText : message.isText text) :
    saying text (messages ++ [message]) = saying text messages + 1 := by
  rw [saying, List.countP_append, List.countP_singleton, if_pos isText, saying]

theorem saying_append_of_not (silent : message.isText text = false) :
    saying text (messages ++ [message]) = saying text messages := by
  rw [saying, List.countP_append, List.countP_singleton, silent]
  rfl

theorem saying_le_append : saying text messages ≤ saying text (messages ++ [message]) := by
  rw [saying, saying, List.countP_append]
  exact Nat.le_add_right _ _

theorem not_isText {said : String} (apart : said ≠ text) :
    (Message.text said : Message T).isText text = false :=
  beq_eq_false_iff_ne.mpr apart

theorem isText_self : (Message.text text : Message T).isText text = true := beq_self_eq_true text

theorem keeps_expect {good : List (Act P (Message T) Event) → Prop}
    (level : List (Act P (Message T) Event) → Prop) {log : List (Act P (Message T) Event)}
    {expected : String} (reason : String) (isGood : good log)
    (holds : message.isText expected → level log) :
    Program.Keeps good (fun log _ => level log) (expect expected reason message) log := by
  rw [expect]
  split
  case isTrue isText => exact ⟨isGood, holds isText⟩
  case isFalse => exact isGood

/-! ## The master -/

/-- Bounds of what the master has sent to the agents, heard from them, passed and come to. -/
structure MasterStage (proceeds syncs : Fin n → ℕ) (passed arrived : ℕ)
    (log : List (Act (Fin n) (Message T) Event)) : Prop where
  proceeds (i : Fin n) : saying "proceed" (sentTo i log) ≤ proceeds i
  syncs (i : Fin n) : syncs i ≤ saying "sync" (receivedFrom i log)
  passed : times .synchronized log ≤ passed
  arrived : arrived ≤ times .synchronizing log

/-- The master has released no agent, and not itself, before all had arrived. -/
def MasterWaits (log : List (Act (Fin n) (Message T) Event)) : Prop :=
  ∃ proceeds syncs passed arrived, MasterStage proceeds syncs passed arrived log ∧
    (∀ i j, proceeds i ≤ syncs j) ∧ (∀ i, proceeds i ≤ arrived) ∧ (∀ j, passed ≤ syncs j) ∧
    passed ≤ arrived

/-- Between two synchronizations. -/
def MasterRests (log : List (Act (Fin n) (Message T) Event)) : Prop :=
  ∃ k, MasterStage (fun _ => k) (fun _ => k) k k log

variable {log : List (Act (Fin n) (Message T) Event)} {proceeds syncs : Fin n → ℕ}
  {passed arrived : ℕ} {i : Fin n}

theorem MasterRests.waits (rests : MasterRests log) : MasterWaits log := by
  obtain ⟨k, stage⟩ := rests
  exact ⟨_, _, _, _, stage, fun _ _ => le_rfl, fun _ => le_rfl, fun _ => le_rfl, le_rfl⟩

theorem masterRests_nil : MasterRests ([] : List (Act (Fin n) (Message T) Event)) :=
  ⟨0, fun _ => le_rfl, fun _ => le_rfl, le_rfl, le_rfl⟩

theorem MasterStage.tell (stage : MasterStage proceeds syncs passed arrived log)
    (silent : message.isText "proceed" = false) :
    MasterStage proceeds syncs passed arrived (log ++ [.sent i message]) where
  proceeds j := by
    by_cases same : i = j
    · subst same
      rw [sentTo_sent_self, saying_append_of_not silent]
      exact stage.proceeds i
    · rw [sentTo_sent_of_ne same]
      exact stage.proceeds j
  syncs j := by
    rw [receivedFrom_sent]
    exact stage.syncs j
  passed := by
    rw [times, marks_sent]
    exact stage.passed
  arrived := by
    rw [times, marks_sent]
    exact stage.arrived

theorem MasterStage.hear (stage : MasterStage proceeds syncs passed arrived log) (i : Fin n)
    (message : Message T) :
    MasterStage proceeds syncs passed arrived (log ++ [.received i message]) where
  proceeds j := by
    rw [sentTo_received]
    exact stage.proceeds j
  syncs j := by
    by_cases same : i = j
    · subst same
      rw [receivedFrom_received_self]
      exact (stage.syncs i).trans saying_le_append
    · rw [receivedFrom_received_of_ne same]
      exact stage.syncs j
  passed := by
    rw [times, marks_received]
    exact stage.passed
  arrived := by
    rw [times, marks_received]
    exact stage.arrived

theorem MasterRests.tell (rests : MasterRests log) (silent : message.isText "proceed" = false) :
    MasterRests (log ++ [.sent i message]) := by
  obtain ⟨k, stage⟩ := rests
  exact ⟨k, stage.tell silent⟩

theorem MasterRests.hear (rests : MasterRests log) :
    MasterRests (log ++ [.received i message]) := by
  obtain ⟨k, stage⟩ := rests
  exact ⟨k, stage.hear i message⟩

/-- A part of the program of the master keeps it at rest. -/
abbrev MasterMaintains {R : Type} (program : Program (Fin n) (Message T) Event R) : Prop :=
  Program.Maintains MasterWaits MasterRests program

theorem maintains_tell (silent : message.isText "proceed" = false) :
    MasterMaintains (Program.tell i message) :=
  .tell (fun _ => MasterRests.waits) fun _ rests => rests.tell silent

theorem maintains_hear : MasterMaintains (T := T) (Program.hear i) :=
  .hear (fun _ => MasterRests.waits) fun _ _ => MasterRests.hear

theorem maintains_pure {R : Type} (result : R) :
    MasterMaintains (pure result : Program (Fin n) (Message T) Event R) :=
  .pure (fun _ => MasterRests.waits) result

theorem maintains_atOnce {R : Type} {program : Program (Fin n) (Message T) Event R}
    (atOnce : program.AtOnce) : MasterMaintains program :=
  .atOnce (fun _ => MasterRests.waits) atOnce

theorem maintains_greet (options : RunOptions T) {servers : List String}
    (names : "proceed" ∉ servers) (socket : Fin n) :
    MasterMaintains (greet options servers socket) := by
  refine (maintains_tell rfl).bind fun _ => maintains_hear.bind fun answer =>
    (maintains_atOnce (readNumber_atOnce answer)).bind fun number => ?_
  have named : ∀ server ∈ servers, (Message.text server : Message T).isText "proceed" = false := by
    intro server listed
    exact not_isText fun same => names (same ▸ listed)
  refine Program.Maintains.bind ?_ fun _ => maintains_pure number
  clear names
  induction servers with
  | nil => exact maintains_pure ()
  | cons server servers ih =>
      rw [List.forM_cons]
      refine Program.Maintains.bind ?_ fun _ =>
        ih fun server listed => named server (List.mem_cons_of_mem _ listed)
      exact (maintains_tell (named server List.mem_cons_self)).bind fun _ =>
        maintains_hear.bind fun _ => maintains_pure ()

theorem maintains_finishAgent (report : Report T) :
    MasterMaintains (finishAgent report : Program (Fin n) (Message T) Event _) :=
  .foldlM (fun _ => MasterRests.waits) fun _ _ =>
    (maintains_tell (not_isText (by decide))).bind fun _ => maintains_hear.bind fun answer =>
      (maintains_atOnce (readStats_atOnce answer)).bind fun _ => maintains_pure _

/-! ### The synchronization -/

/-- An agent that is in the list has done one more. -/
def oneMore (k : ℕ) (done : List (Fin n)) (i : Fin n) : ℕ :=
  if done.contains i then k + 1 else k

theorem oneMore_le (k : ℕ) (done : List (Fin n)) (i : Fin n) : oneMore k done i ≤ k + 1 := by
  rw [oneMore]
  split <;> omega

theorem le_oneMore (k : ℕ) (done : List (Fin n)) (i : Fin n) : k ≤ oneMore k done i := by
  rw [oneMore]
  split <;> omega

theorem oneMore_sockets (k : ℕ) : oneMore k (agentSockets n) = fun _ => k + 1 := by
  funext i
  rw [oneMore, agentSockets, if_pos (List.contains_iff_mem.mpr (List.mem_finRange i))]

theorem oneMore_append_self (k : ℕ) (done : List (Fin n)) (i : Fin n) :
    oneMore k (done ++ [i]) i = k + 1 := by
  have isIn : i ∈ done ++ [i] := List.mem_append_right done (List.mem_singleton_self i)
  rw [oneMore, if_pos (List.contains_iff_mem.mpr isIn)]

theorem oneMore_append_of_ne {i j : Fin n} (apart : i ≠ j) (k : ℕ) (done : List (Fin n)) :
    oneMore k (done ++ [i]) j = oneMore k done j := by
  simp [oneMore, apart.symm]

/-- The master takes the answer of an agent that has arrived. -/
theorem MasterStage.hearSync {k : ℕ} {done : List (Fin n)}
    (stage : MasterStage proceeds (oneMore k done) passed arrived log) (isNew : i ∉ done)
    (isText : message.isText "sync") :
    MasterStage proceeds (oneMore k (done ++ [i])) passed arrived
      (log ++ [.received i message]) where
  proceeds := (stage.hear i message).proceeds
  syncs j := by
    by_cases same : i = j
    · subst same
      have heard := stage.syncs i
      rw [oneMore, if_neg fun isIn => isNew (List.contains_iff_mem.mp isIn)] at heard
      rw [oneMore_append_self, receivedFrom_received_self, saying_append_of_isText isText]
      exact Nat.succ_le_succ heard
    · rw [oneMore_append_of_ne same]
      exact (stage.hear i message).syncs j
  passed := (stage.hear i message).passed
  arrived := (stage.hear i message).arrived

/-- The master releases an agent. -/
theorem MasterStage.tellProceed {k : ℕ} {done : List (Fin n)}
    (stage : MasterStage (oneMore k done) syncs passed arrived log) (isNew : i ∉ done)
    (isText : message.isText "proceed") :
    MasterStage (oneMore k (done ++ [i])) syncs passed arrived (log ++ [.sent i message]) where
  proceeds j := by
    by_cases same : i = j
    · subst same
      have sent := stage.proceeds i
      rw [oneMore, if_neg fun isIn => isNew (List.contains_iff_mem.mp isIn)] at sent
      rw [oneMore_append_self, sentTo_sent_self, saying_append_of_isText isText]
      exact Nat.succ_le_succ sent
    · rw [oneMore_append_of_ne same, sentTo_sent_of_ne same]
      exact stage.proceeds j
  syncs j := by
    rw [receivedFrom_sent]
    exact stage.syncs j
  passed := by
    rw [times, marks_sent]
    exact stage.passed
  arrived := by
    rw [times, marks_sent]
    exact stage.arrived

theorem MasterStage.synchronizing (stage : MasterStage proceeds syncs passed arrived log) :
    MasterStage proceeds syncs passed (arrived + 1) (log ++ [.marked .synchronizing]) where
  proceeds j := by
    rw [sentTo_marked]
    exact stage.proceeds j
  syncs j := by
    rw [receivedFrom_marked]
    exact stage.syncs j
  passed := by
    rw [times, marks_marked, List.count_append]
    exact stage.passed
  arrived := by
    rw [times, marks_marked, List.count_append]
    exact Nat.succ_le_succ stage.arrived

theorem MasterStage.synchronized (stage : MasterStage proceeds syncs passed arrived log) :
    MasterStage proceeds syncs (passed + 1) arrived (log ++ [.marked .synchronized]) where
  proceeds j := by
    rw [sentTo_marked]
    exact stage.proceeds j
  syncs j := by
    rw [receivedFrom_marked]
    exact stage.syncs j
  passed := by
    rw [times, marks_marked, List.count_append]
    exact Nat.succ_le_succ stage.passed
  arrived := by
    rw [times, marks_marked, List.count_append]
    exact stage.arrived

theorem not_mem_before {before later : List (Fin n)}
    (split : before ++ i :: later = agentSockets n) : i ∉ before := by
  have once := List.nodup_finRange n
  rw [← agentSockets, ← split] at once
  exact fun listed => (List.nodup_append.mp once).2.2 i listed i List.mem_cons_self rfl

/-- The loop that takes the answers of the agents. -/
theorem keeps_hearSync {k : ℕ} (stage : MasterStage (fun _ => k) (fun _ => k) k (k + 1) log) :
    Program.Keeps MasterWaits
      (fun log _ => MasterStage (fun _ => k) (fun _ => k + 1) k (k + 1) log)
      (forM (agentSockets n) fun socket => do
        let answer ← Program.hear socket
        expect "sync" "sync_agent[M]: out of sync [1]" answer) log := by
  have waits {done : List (Fin n)} {log : List (Act (Fin n) (Message T) Event)}
      (stage : MasterStage (fun _ => k) (oneMore k done) k (k + 1) log) : MasterWaits log :=
    ⟨_, _, _, _, stage, fun _ => le_oneMore k done, fun _ => Nat.le_succ k, le_oneMore k done,
      Nat.le_succ k⟩
  have atStart : MasterStage (fun _ => k) (oneMore k []) k (k + 1) log := stage
  refine (Program.Keeps.each (fun before later log => before ++ later = agentSockets n ∧
    MasterStage (fun _ => k) (oneMore k before) k (k + 1) log) ?_ (waits atStart)
    ⟨List.nil_append _, atStart⟩).imp ?_
  rotate_left
  · rintro log - ⟨-, stage⟩
    rwa [oneMore_sockets] at stage
  · rintro before socket later log isGood ⟨split, stage⟩
    have isNew := not_mem_before split
    refine Program.keeps_hear.mpr ⟨isGood, fun answer => ?_⟩
    rw [expect]
    split
    case isTrue isText =>
      have heard := stage.hearSync isNew isText
      exact ⟨waits heard, by rwa [List.append_assoc, List.singleton_append], heard⟩
    case isFalse => exact waits (stage.hear socket answer)

/-- The loop that releases the agents. -/
theorem keeps_tellProceed {k : ℕ}
    (stage : MasterStage (fun _ => k) (fun _ => k + 1) k (k + 1) log) :
    Program.Keeps MasterWaits
      (fun log _ => MasterStage (fun _ => k + 1) (fun _ => k + 1) k (k + 1) log)
      (forM (agentSockets n) fun socket => Program.tell socket (Message.text "proceed")) log := by
  have waits {done : List (Fin n)} {log : List (Act (Fin n) (Message T) Event)}
      (stage : MasterStage (oneMore k done) (fun _ => k + 1) k (k + 1) log) : MasterWaits log :=
    ⟨_, _, _, _, stage, fun i _ => oneMore_le k done i, oneMore_le k done, fun _ => Nat.le_succ k,
      Nat.le_succ k⟩
  have atStart : MasterStage (oneMore k []) (fun _ => k + 1) k (k + 1) log := stage
  refine (Program.Keeps.each (fun before later log => before ++ later = agentSockets n ∧
    MasterStage (oneMore k before) (fun _ => k + 1) k (k + 1) log) ?_ (waits atStart)
    ⟨List.nil_append _, atStart⟩).imp ?_
  rotate_left
  · rintro log - ⟨-, stage⟩
    rwa [oneMore_sockets] at stage
  · rintro before socket later log isGood ⟨split, stage⟩
    have told : MasterStage _ _ _ _ (log ++ [.sent socket (.text "proceed")]) :=
      stage.tellProceed (not_mem_before split) isText_self
    exact ⟨isGood, waits told, by rwa [List.append_assoc, List.singleton_append], told⟩

theorem maintains_syncMaster :
    MasterMaintains (syncMaster : Program (Fin n) (Message T) Event Unit) := by
  rintro log ⟨k, stage⟩
  refine Program.keeps_note.mpr ⟨MasterRests.waits ⟨k, stage⟩, ?_⟩
  have waitsToHear : ∀ log : List (Act (Fin n) (Message T) Event),
      MasterStage (fun _ => k) (fun _ => k) k (k + 1) log → MasterWaits log := fun log stage =>
    ⟨_, _, _, _, stage, fun _ _ => le_rfl, fun _ => Nat.le_succ k, fun _ => le_rfl, Nat.le_succ k⟩
  have waitsToPass : ∀ log : List (Act (Fin n) (Message T) Event),
      MasterStage (fun _ => k + 1) (fun _ => k + 1) k (k + 1) log → MasterWaits log :=
    fun log stage => ⟨_, _, _, _, stage, fun _ _ => le_rfl, fun _ => le_rfl, fun _ => Nat.le_succ k,
      Nat.le_succ k⟩
  have requests : Program.Maintains MasterWaits
      (MasterStage (fun _ => k) (fun _ => k) k (k + 1))
      (forM (agentSockets n) fun socket => Program.tell socket (Message.text "sync_req")) :=
    .each waitsToHear fun socket =>
      .tell waitsToHear fun _ stage => stage.tell (not_isText (by decide))
  refine (requests _ stage.synchronizing).bind fun log _ isGood stage => ?_
  refine (keeps_hearSync stage).bind fun log _ isGood stage => ?_
  refine (keeps_tellProceed stage).bind fun log _ isGood stage => ?_
  have acks : Program.Maintains MasterWaits
      (MasterStage (fun _ => k + 1) (fun _ => k + 1) k (k + 1))
      (forM (agentSockets n) fun socket => do
        let answer ← Program.hear socket
        expect (T := T) "ack" "sync_agent[M]: out of sync [2]" answer) := by
    refine .each waitsToPass fun socket => (Program.Maintains.hear waitsToPass
      fun _ answer stage => stage.hear socket answer).bind fun answer => ?_
    rw [expect]
    split
    case isTrue => exact .pure waitsToPass ()
    case isFalse => exact .die waitsToPass _
  refine (acks _ stage).bind fun log _ isGood stage => ?_
  have passed : MasterRests (log ++ [.marked .synchronized]) := ⟨k + 1, stage.synchronized⟩
  exact ⟨isGood, passed.waits, passed⟩

/-! ## The measurement of any instance -/

section

variable {good level : List (Act P (Message T) Event) → Prop}
  {sync : Program P (Message T) Event Unit}

theorem maintains_doMutilate (isGood : ∀ log, level log → good log)
    (synchronizes : Program.Maintains good level sync) (args : Args) (options : RunOptions T)
    (servers : List String) (load : Load T) (thread : ℕ) (report : Report T) (isMaster : Bool) :
    Program.Maintains good level
      (doMutilate sync args options servers load thread report isMaster) := by
  have ends : Program.Maintains good level (pure (load.measure thread
      (connectionCount args options servers) report) : Program P (Message T) Event _) :=
    .pure isGood _
  have measures : Program.Maintains good level (if isMaster then do
      sync
      pure (load.measure thread (connectionCount args options servers) report)
      else pure (load.measure thread (connectionCount args options servers) report)) := by
    split
    · exact synchronizes.bind fun _ => ends
    · exact ends
  rw [doMutilate]
  split
  · exact .pure isGood report
  · dsimp only
    split
    · exact synchronizes.bind fun _ => measures
    · exact measures

theorem maintains_runThreads [Zero T] (isGood : ∀ log, level log → good log)
    (synchronizes : Program.Maintains good level sync) (hasAgents : Bool) (args : Args)
    (options : RunOptions T) (servers : List String) (load : Load T) (report : Report T) :
    Program.Maintains good level
      (runThreads hasAgents sync args options servers load report) := by
  rw [runThreads]
  split
  · exact .foldlM isGood fun report thread =>
      (maintains_doMutilate isGood synchronizes args options _ load thread _ _).bind fun _ =>
        .pure isGood _
  · split
    · exact maintains_doMutilate isGood synchronizes args options servers load 0 report true
    · dsimp only
      split
      · exact synchronizes.bind fun _ => .pure isGood report
      · exact .pure isGood report

end

variable [Mul T] [Div T] [IntCast T]

theorem maintains_prepAgent {args : Args} (names : "proceed" ∉ args.servers)
    (options : RunOptions T) :
    MasterMaintains (prepAgent args options : Program (Fin n) (Message T) Event _) := by
  rw [prepAgent]
  refine Program.Maintains.bind ?_ fun sum => Program.Maintains.bind ?_ fun _ => maintains_pure _
  · exact .foldlM (fun _ => MasterRests.waits) fun _ socket =>
      (maintains_greet _ names socket).bind fun _ => maintains_pure _
  · exact .each (fun _ => MasterRests.waits) fun socket =>
      (maintains_tell rfl).bind fun _ => maintains_hear.bind fun _ => maintains_pure ()

theorem maintains_master [Zero T] {args : Args} (names : "proceed" ∉ args.servers)
    (choose : ℕ → List (Round T) → Option ℤ) (loads : ℕ → Load T) (rounds : ℕ) :
    MasterMaintains (master args choose loads rounds : Program (Fin n) (Message T) Event _) := by
  refine .foldlM (fun _ => MasterRests.waits) fun before round =>
    Program.Maintains.bind ?_ fun _ => maintains_pure _
  rw [go]
  exact (maintains_prepAgent names _).bind fun _ =>
    (maintains_runThreads (fun _ => MasterRests.waits) maintains_syncMaster _ _ _ _ _ _).bind
      fun _ => (maintains_finishAgent _).bind fun _ => maintains_pure _

/-! ## An agent -/

/-- Bounds of what an agent has passed, been released to, reported and come to. -/
structure AgentStage (passed proceeds syncs arrived : ℕ)
    (log : List (Act Unit (Message T) Event)) : Prop where
  passed : times .synchronized log ≤ passed
  proceeds : proceeds ≤ saying "proceed" (receivedFrom () log)
  syncs : saying "sync" (sentTo () log) ≤ syncs
  arrived : arrived ≤ times .synchronizing log

/-- The agent has not gone on without the master, and has not reported before it came. -/
def AgentWaits (log : List (Act Unit (Message T) Event)) : Prop :=
  ∃ passed proceeds syncs arrived, AgentStage passed proceeds syncs arrived log ∧
    passed ≤ proceeds ∧ syncs ≤ arrived

def AgentRests (log : List (Act Unit (Message T) Event)) : Prop := ∃ k, AgentStage k k k k log

section

variable {log : List (Act Unit (Message T) Event)} {passed proceeds syncs arrived : ℕ}

omit [Mul T] [Div T] [IntCast T]

theorem AgentRests.waits (rests : AgentRests log) : AgentWaits log := by
  obtain ⟨k, stage⟩ := rests
  exact ⟨_, _, _, _, stage, le_rfl, le_rfl⟩

theorem agentRests_nil : AgentRests ([] : List (Act Unit (Message T) Event)) :=
  ⟨0, le_rfl, le_rfl, le_rfl, le_rfl⟩

theorem AgentStage.tell (stage : AgentStage passed proceeds syncs arrived log)
    (silent : message.isText "sync" = false) :
    AgentStage passed proceeds syncs arrived (log ++ [.sent () message]) where
  passed := by
    rw [times, marks_sent]
    exact stage.passed
  proceeds := by
    rw [receivedFrom_sent]
    exact stage.proceeds
  syncs := by
    rw [sentTo_sent_self, saying_append_of_not silent]
    exact stage.syncs
  arrived := by
    rw [times, marks_sent]
    exact stage.arrived

theorem AgentStage.tellSync (stage : AgentStage passed proceeds syncs arrived log)
    (isText : message.isText "sync") :
    AgentStage passed proceeds (syncs + 1) arrived (log ++ [.sent () message]) where
  passed := by
    rw [times, marks_sent]
    exact stage.passed
  proceeds := by
    rw [receivedFrom_sent]
    exact stage.proceeds
  syncs := by
    rw [sentTo_sent_self, saying_append_of_isText isText]
    exact Nat.succ_le_succ stage.syncs
  arrived := by
    rw [times, marks_sent]
    exact stage.arrived

theorem AgentStage.hear (stage : AgentStage passed proceeds syncs arrived log)
    (message : Message T) :
    AgentStage passed proceeds syncs arrived (log ++ [.received () message]) where
  passed := by
    rw [times, marks_received]
    exact stage.passed
  proceeds := by
    rw [receivedFrom_received_self]
    exact stage.proceeds.trans saying_le_append
  syncs := by
    rw [sentTo_received]
    exact stage.syncs
  arrived := by
    rw [times, marks_received]
    exact stage.arrived

theorem AgentStage.hearProceed (stage : AgentStage passed proceeds syncs arrived log)
    (isText : message.isText "proceed") :
    AgentStage passed (proceeds + 1) syncs arrived (log ++ [.received () message]) where
  passed := (stage.hear message).passed
  proceeds := by
    rw [receivedFrom_received_self, saying_append_of_isText isText]
    exact Nat.succ_le_succ stage.proceeds
  syncs := (stage.hear message).syncs
  arrived := (stage.hear message).arrived

theorem AgentStage.synchronizing (stage : AgentStage passed proceeds syncs arrived log) :
    AgentStage passed proceeds syncs (arrived + 1) (log ++ [.marked .synchronizing]) where
  passed := by
    rw [times, marks_marked, List.count_append]
    exact stage.passed
  proceeds := by
    rw [receivedFrom_marked]
    exact stage.proceeds
  syncs := by
    rw [sentTo_marked]
    exact stage.syncs
  arrived := by
    rw [times, marks_marked, List.count_append]
    exact Nat.succ_le_succ stage.arrived

theorem AgentStage.synchronized (stage : AgentStage passed proceeds syncs arrived log) :
    AgentStage (passed + 1) proceeds syncs arrived (log ++ [.marked .synchronized]) where
  passed := by
    rw [times, marks_marked, List.count_append]
    exact Nat.succ_le_succ stage.passed
  proceeds := by
    rw [receivedFrom_marked]
    exact stage.proceeds
  syncs := by
    rw [sentTo_marked]
    exact stage.syncs
  arrived := by
    rw [times, marks_marked, List.count_append]
    exact stage.arrived

/-- A part of the program of an agent keeps it at rest. -/
abbrev AgentMaintains {R : Type} (program : Program Unit (Message T) Event R) : Prop :=
  Program.Maintains AgentWaits AgentRests program

theorem agentMaintains_tell (silent : message.isText "sync" = false) :
    AgentMaintains (Program.tell () message) := by
  refine .tell (fun _ => AgentRests.waits) ?_
  rintro log ⟨k, stage⟩
  exact ⟨k, stage.tell silent⟩

theorem agentMaintains_hear : AgentMaintains (T := T) (Program.hear ()) := by
  refine .hear (fun _ => AgentRests.waits) ?_
  rintro log message ⟨k, stage⟩
  exact ⟨k, stage.hear message⟩

theorem agentMaintains_pure {R : Type} (result : R) :
    AgentMaintains (pure result : Program Unit (Message T) Event R) :=
  .pure (fun _ => AgentRests.waits) result

theorem agentMaintains_atOnce {R : Type} {program : Program Unit (Message T) Event R}
    (atOnce : program.AtOnce) : AgentMaintains program :=
  .atOnce (fun _ => AgentRests.waits) atOnce

theorem agentMaintains_receiveServers (count : ℕ) (servers : List String) :
    AgentMaintains (receiveServers (T := T) count servers) := by
  induction count generalizing servers with
  | zero => exact agentMaintains_pure servers
  | succ count ih =>
      rw [receiveServers]
      exact agentMaintains_hear.bind fun message =>
        (agentMaintains_atOnce (readText_atOnce message)).bind fun server =>
          (agentMaintains_tell (not_isText (by decide))).bind fun _ => ih _

theorem agentMaintains_syncAgent :
    AgentMaintains (syncAgent : Program Unit (Message T) Event Unit) := by
  rintro log ⟨k, stage⟩
  have waits {passed proceeds syncs arrived : ℕ} {log : List (Act Unit (Message T) Event)}
      (stage : AgentStage passed proceeds syncs arrived log) (isPassed : passed ≤ proceeds)
      (isSent : syncs ≤ arrived) : AgentWaits log := ⟨_, _, _, _, stage, isPassed, isSent⟩
  rw [syncAgent]
  refine Program.keeps_note.mpr ⟨waits stage le_rfl le_rfl, ?_⟩
  have came := stage.synchronizing
  refine Program.keeps_hear.mpr ⟨waits came le_rfl k.le_succ, fun request => ?_⟩
  have asked := came.hear request
  have isAsked := keeps_expect (AgentStage k k k (k + 1)) "sync_agent[A]: out of sync [1]"
    (waits asked le_rfl k.le_succ) fun _ : request.isText "sync_req" => asked
  refine isAsked.bind fun log _ isGood stage => ?_
  have told : AgentStage k k (k + 1) (k + 1) (log ++ [.sent () (.text "sync")]) :=
    stage.tellSync isText_self
  refine Program.keeps_tell.mpr ⟨isGood, Program.keeps_hear.mpr
    ⟨waits told le_rfl le_rfl, fun request => ?_⟩⟩
  have isReleased := keeps_expect (AgentStage k (k + 1) (k + 1) (k + 1))
    "sync_agent[A]: out of sync [2]" (waits (told.hear request) le_rfl le_rfl)
    fun isText : request.isText "proceed" => told.hearProceed isText
  refine isReleased.bind fun log _ isGood stage => ?_
  have acked : AgentStage _ _ _ _ (log ++ [.sent () (.text "ack")]) :=
    stage.tell (not_isText (by decide))
  have passes : AgentRests (log ++ [.sent () (.text "ack")] ++ [.marked .synchronized]) :=
    ⟨k + 1, acked.synchronized⟩
  exact Program.keeps_tell.mpr ⟨isGood, waits acked k.le_succ le_rfl, passes.waits, passes⟩

end

theorem agentMaintains_agent [Zero T] (args : Args) (loads : ℕ → Load T) (rounds : ℕ) :
    AgentMaintains (agent args loads rounds) := by
  refine .foldlM (fun _ => AgentRests.waits) fun before round =>
    Program.Maintains.bind ?_ fun _ => agentMaintains_pure _
  rw [agentRound]
  exact agentMaintains_hear.bind fun request => (agentMaintains_tell rfl).bind fun _ =>
    (agentMaintains_atOnce (readOptions_atOnce request)).bind fun options =>
    (agentMaintains_receiveServers _ _).bind fun servers => agentMaintains_hear.bind fun request =>
    (agentMaintains_atOnce (readNumber_atOnce request)).bind fun lambdaDenom =>
    (agentMaintains_tell (not_isText (by decide))).bind fun _ =>
    (maintains_runThreads (fun _ => AgentRests.waits) agentMaintains_syncAgent _ _ _ _ _ _).bind
      fun report => agentMaintains_hear.bind fun _ => (agentMaintains_tell rfl).bind fun _ =>
      agentMaintains_pure _

/-! ## All instances -/

/-- The instances at work. The agents serve any number of rounds. -/
abbrev Cluster (n : ℕ) (T : Type) :=
  Conversation (Fin n) (Message T) Event (List (Round T)) (List (Round T))

/-- The events that an instance has marked. -/
def Cluster.events (cluster : Cluster n T) : Party (Fin n) → List Event
  | .hub => marks cluster.hubLog
  | .spoke i => marks (cluster.spokes i).log

/-- Nobody has passed more synchronizations than anybody else has come to. -/
def Cluster.Waits (cluster : Cluster n T) : Prop :=
  ∀ a b, (cluster.events a).count .synchronized ≤ (cluster.events b).count .synchronizing

omit [Mul T] [Div T] [IntCast T] in
theorem saying_prefix {sent received queued : List (Message T)}
    (split : sent = received ++ queued) :
    saying text received ≤ saying text sent := by
  rw [split, saying, saying, List.countP_append]
  exact Nat.le_add_right _ _

omit [Mul T] [Div T] [IntCast T] in
theorem waits_of_logs {cluster : Cluster n T} (orderly : cluster.Orderly)
    (hub : MasterWaits cluster.hubLog) (spokes : ∀ i, AgentWaits (cluster.spokes i).log) :
    cluster.Waits := by
  obtain ⟨proceeds, syncs, passed, arrived, stage, isReleased, isKnown, isHeard, hasCome⟩ := hub
  -- What the master has heard from an agent, that agent had come to.
  have heard (j : Fin n) : syncs j ≤ times .synchronizing (cluster.spokes j).log := by
    obtain ⟨_, _, _, _, atSpoke, -, isSent⟩ := spokes j
    calc syncs j
        ≤ saying "sync" (receivedFrom j cluster.hubLog) := stage.syncs j
      _ ≤ saying "sync" (sentTo () (cluster.spokes j).log) := saying_prefix (orderly.toHub j)
      _ ≤ _ := atSpoke.syncs
      _ ≤ _ := isSent
      _ ≤ times .synchronizing (cluster.spokes j).log := atSpoke.arrived
  -- What an agent has passed, the master had released it to.
  have released (i : Fin n) : times .synchronized (cluster.spokes i).log ≤ proceeds i := by
    obtain ⟨_, _, _, _, atSpoke, isPassed, -⟩ := spokes i
    calc times .synchronized (cluster.spokes i).log
        ≤ _ := atSpoke.passed
      _ ≤ _ := isPassed
      _ ≤ saying "proceed" (receivedFrom () (cluster.spokes i).log) := atSpoke.proceeds
      _ ≤ saying "proceed" (sentTo i cluster.hubLog) := saying_prefix (orderly.toSpoke i)
      _ ≤ proceeds i := stage.proceeds i
  intro a b
  cases a with
  | hub =>
      cases b with
      | hub => exact stage.passed.trans (hasCome.trans stage.arrived)
      | spoke j => exact stage.passed.trans ((isHeard j).trans (heard j))
  | spoke i =>
      cases b with
      | hub => exact (released i).trans ((isKnown i).trans stage.arrived)
      | spoke j => exact (released i).trans ((isReleased i j).trans (heard j))

/-- The instances have waited for each other in whatever state they have reached. -/
theorem waits_of_reached [Zero T] {args : Args} (names : "proceed" ∉ args.servers)
    {choose : ℕ → List (Round T) → Option ℤ} {loads : ℕ → Load T} {rounds : ℕ}
    {agentArgs : Fin n → Args} {agentLoads : Fin n → ℕ → Load T} {agentRounds : Fin n → ℕ}
    {schedule : List (Party (Fin n))} {cluster : Cluster n T}
    (reached : run Conversation.step (.start (master args choose loads rounds) fun i =>
      agent (agentArgs i) (agentLoads i) (agentRounds i)) schedule = .ok cluster) :
    cluster.Waits := by
  have whole : schedule <+: schedule := List.prefix_refl schedule
  have hub := maintains_master (n := n) names choose loads rounds [] masterRests_nil
  have spokes (i : Fin n) :=
    agentMaintains_agent (agentArgs i) (agentLoads i) (agentRounds i) [] agentRests_nil
  have hubAlong := Conversation.hub_along hub schedule schedule whole cluster reached
  have spokesAlong (i : Fin n) :=
    Conversation.spoke_along (i := i) (spokes i) schedule schedule whole cluster reached
  exact waits_of_logs (Conversation.orderly_along schedule schedule whole cluster reached)
    hubAlong.isGood fun i => (spokesAlong i).isGood

/-- In every run, with agents of any arguments that serve any number of rounds, no instance passes a
synchronization before every other instance has come to it. The names of the servers are addresses
with a port. -/
theorem waits_along [Zero T] {args : Args} (names : "proceed" ∉ args.servers)
    (choose : ℕ → List (Round T) → Option ℤ) (loads : ℕ → Load T) (rounds : ℕ)
    (agentArgs : Fin n → Args) (agentLoads : Fin n → ℕ → Load T) (agentRounds : Fin n → ℕ)
    (schedule : List (Party (Fin n))) :
    AlongRun Conversation.step
      (.start (master args choose loads rounds) fun i =>
        agent (agentArgs i) (agentLoads i) (agentRounds i))
      schedule fun _ cluster => Cluster.Waits cluster :=
  fun _ _ _ reached => waits_of_reached names reached

/-- One server, and no option but the number of threads. -/
def bareArgs (threads : ℤ) : Args where
  threads
  lambdaMul := 1
  connections := 1
  qps := 0
  qpsGiven := false
  roundrobin := false
  loadonly := false
  warmup := none
  depth := 1
  measureConnections := none
  measureQps := none
  measureDepth := none
  servers := ["localhost:11211"]

/-- A master without threads of its own, and two agents with one thread each. -/
def bareCluster : Cluster 2 ℚ :=
  .start (master (bareArgs 0) (fun _ _ => none) (fun _ => ⟨fun _ _ => .initial, 0, 0⟩) 1)
    fun _ => agent (bareArgs 1) (fun _ => ⟨fun _ _ => .initial, 0, 0⟩) 2

/-- They pass one synchronization. -/
def bareSchedule : List (Party (Fin 2)) :=
  let a : Party (Fin 2) := .spoke ⟨0, Nat.two_pos⟩
  let b : Party (Fin 2) := .spoke ⟨1, Nat.one_lt_two⟩
  [.hub, a, a, .hub, .hub, a, a, .hub, .hub, b, b, .hub, .hub, b, b, .hub, .hub, a, a, .hub,
    .hub, a, b, b, .hub, .hub, .hub, .hub, a, a, .hub, b, b, b, .hub, .hub, .hub, a, a, .hub, a,
    b, b, .hub, .hub, .hub, a, a, .hub, .hub, b]

/-- How often an instance has passed a synchronization when the schedule is over. -/
def barePassed (party : Party (Fin 2)) : Option ℕ :=
  match run Conversation.step bareCluster bareSchedule with
  | .ok last => some ((Cluster.events last party).count .synchronized)
  | .error _ => none

theorem barePassed_eq : [.hub, .spoke 0, .spoke 1].map barePassed = [some 1, some 1, some 1] := by
  decide +kernel

theorem waits_along_bare :
    "proceed" ∉ (bareArgs 0).servers ∧
      [.hub, .spoke 0, .spoke 1].map barePassed = [some 1, some 1, some 1] ∧
      AlongRun Conversation.step bareCluster bareSchedule fun _ cluster =>
        Cluster.Waits cluster := by
  have names : "proceed" ∉ (bareArgs 0).servers := by decide
  exact ⟨names, barePassed_eq, waits_along names _ _ _ _ _ _ _⟩

end Datamime.Mutilate.Agents
