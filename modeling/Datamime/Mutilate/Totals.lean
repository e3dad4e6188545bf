/-
# The statistics of a session

Each thread adds up what its connections count, each instance what its threads count, and the
master in the end what all agents have sent. Nothing is lost or counted twice on the way: a count
of the master is the sum over all connections of all instances.
-/

import Datamime.Mutilate.Shares

namespace Datamime.Mutilate.Agents

open Datamime.Math Conversation

variable {T M : Type} {n : ℕ} [AddCommMonoid M]

/-- A number that `ConnectionStats` adds up, such as its `gets`. -/
structure Tally (M : Type) [AddCommMonoid M] where
  value : ConnectionStats → M
  initial : value .initial = 0
  accumulate (counts other : ConnectionStats) :
    value (accumulateCounts counts other) = value counts + value other

def Tally.gets : Tally ℕ where
  value := ConnectionStats.gets
  initial := rfl
  accumulate _ _ := rfl

/-- What the connections of a thread add to a number. -/
def threadTotal (tally : Tally M) (args : Args) (options : RunOptions T) (servers : List String)
    (load : Load T) (thread : ℕ) : M :=
  if options.loadonly then 0
  else ((List.range (connectionCount args options servers)).map fun k =>
    tally.value (load.connection thread k)).sum

/-- What the connections of all threads of an instance add to it. -/
def total (tally : Tally M) (args : Args) (options : RunOptions T) (servers : List String)
    (load : Load T) : M :=
  if 1 < options.threads then
    ((List.range options.threads.toNat).map fun thread =>
      threadTotal tally args options (threadServers options servers thread) load thread).sum
  else if options.threads = 1 then threadTotal tally args options servers load 0
  else 0

/-- A loop in which each turn adds to a number adds the sum of what its turns add. -/
theorem foldl_adds {R A : Type} {body : R → A → R} (measure : R → M) {value : A → M}
    (adds : ∀ state item, measure (body state item) = measure state + value item)
    (todo : List A) (start : R) :
    measure (todo.foldl body start) = measure start + (todo.map value).sum := by
  induction todo generalizing start with
  | nil => rw [List.foldl_nil, List.map_nil, List.sum_nil, add_zero]
  | cons item later ih => rw [List.foldl_cons, ih, adds, List.map_cons, List.sum_cons, add_assoc]

variable {tally : Tally M} {args : Args} {options : RunOptions T} {servers : List String}
  {load : Load T}

theorem value_threadReport (thread : ℕ) (report : Report T) :
    tally.value (threadReport args options servers load thread report).counts =
      tally.value report.counts + threadTotal tally args options servers load thread := by
  rw [threadReport, threadTotal]
  by_cases isLoadonly : options.loadonly = true
  · rw [if_pos isLoadonly, if_pos isLoadonly, add_zero]
  · rw [if_neg isLoadonly, if_neg isLoadonly]
    exact foldl_adds tally.value
      (fun counts k => tally.accumulate counts (load.connection thread k)) _ _

/-- An instance counts what its connections count. -/
theorem value_localReport [Zero T] :
    tally.value (localReport args options servers load .initial).counts =
      total tally args options servers load := by
  have fresh (servers : List String) (thread : ℕ) :
      tally.value (threadReport args options servers load thread .initial).counts =
        threadTotal tally args options servers load thread := by
    rw [value_threadReport]
    exact (congrArg (· + _) tally.initial).trans (zero_add _)
  rw [localReport, total]
  by_cases isMany : 1 < options.threads
  · rw [if_pos isMany, if_pos isMany]
    have adds (report : Report T) (thread : ℕ) :
        tally.value (report.accumulate (threadReport args options
          (threadServers options servers thread) load thread .initial)).counts =
          tally.value report.counts +
            threadTotal tally args options (threadServers options servers thread) load thread := by
      rw [← fresh]
      exact tally.accumulate _ _
    have all := foldl_adds (fun report : Report T => tally.value report.counts) adds
      (List.range options.threads.toNat) .initial
    exact all.trans ((congrArg (· + _) tally.initial).trans (zero_add _))
  · rw [if_neg isMany, if_neg isMany]
    by_cases isOne : options.threads = 1
    · rw [if_pos isOne, if_pos isOne]
      exact fresh servers 0
    · rw [if_neg isOne, if_neg isOne]
      exact tally.initial

namespace Team

/-- The master counts what all connections of all instances count. -/
theorem value_report [Mul T] [Div T] [IntCast T] [Zero T] (team : Team n T) (options : RunOptions T)
    (round : ℕ) :
    tally.value (team.report options round).counts =
      total tally team.args (team.masterOptions options) team.args.servers (team.loads round) +
        ∑ i, total tally (team.agentArgs i) (team.agentOptions options i) team.args.servers
          (team.agentLoads i round) := by
  have adds (report : Report T) (i : Fin n) :
      tally.value (report.accumulate (team.agentReport options round i)).counts =
        tally.value report.counts + total tally (team.agentArgs i) (team.agentOptions options i)
          team.args.servers (team.agentLoads i round) := by
    rw [← value_localReport]
    exact tally.accumulate _ _
  have all := foldl_adds (fun report : Report T => tally.value report.counts) adds
    (agentSockets n) (localReport team.args (team.masterOptions options) team.args.servers
      (team.loads round) .initial)
  rw [Fin.sum_univ_def, ← value_localReport]
  exact all

/-- All instances have come to their end, and in each round a number of the master is the sum over
all connections of all instances. -/
def StatisticsAddUp (team : Team n T) (tally : Tally M) (cluster : Cluster n T) (count : ℕ) :
    Prop :=
  ∃ rounds agentRounds, cluster.Ends rounds agentRounds ∧ ∀ k < count,
    ∃ (master : Round T) (agents : Fin n → Round T), rounds[k]? = some master ∧
      (∀ i, (agentRounds i)[k]? = some (agents i)) ∧
      tally.value master.report.counts =
        total tally team.args master.options master.servers (team.loads k) +
          ∑ i, total tally (team.agentArgs i) (agents i).options (agents i).servers
            (team.agentLoads i k)

/-- Where a session stops, in whatever order the instances took their steps, the statistics of each
round have added up. -/
theorem statistics_add_up [Mul T] [Div T] [IntCast T] [Zero T] {team : Team n T}
    (inStep : team.InStep) (tally : Tally M) {count : ℕ} {schedule : List (Party (Fin n))}
    {cluster : Cluster n T}
    (reached : run step (team.start count) schedule = .ok cluster)
    (stops : Final step cluster) : team.StatisticsAddUp tally cluster count := by
  obtain ⟨_, completes⟩ := (start_leads inStep count).completes
  have ends := (completes schedule cluster reached).2.2 stops
  exact ⟨_, _, ends, fun k isIn => ⟨_, _, rounds_getElem? team isIn,
    fun i => agentRounds_getElem? team i isIn, team.value_report _ k⟩⟩

theorem helpers_statistics : helpers.InStep ∧
    ∃ schedule cluster, run step (helpers.start 2) schedule = .ok cluster ∧
      Final step cluster ∧ helpers.StatisticsAddUp .gets cluster 2 := by
  have inStep : helpers.InStep := fun _ => rfl
  obtain ⟨_, completes⟩ := (start_leads inStep 2).completes
  obtain ⟨-, ⟨schedule, last, reached, ends⟩, -⟩ := completes [] (helpers.start 2) rfl
  have stops : Final step last := Ends.final ends
  exact ⟨inStep, schedule, last, reached, stops, statistics_add_up inStep .gets reached stops⟩

end Team

end Datamime.Mutilate.Agents
