/-
# The shares of the request rate

The master counts the connections of all instances, each as often as its instance weights them. An
instance divides the requested rate by this count. If the servers are not dealt out to the threads
and the count fits in an integer, the rates of all connections add up to the requested rate.
-/

import Mathlib
import Datamime.Mutilate.AgentSession

namespace Datamime.Mutilate.Agents

open Datamime.Math Conversation

variable {T : Type} {n : ℕ}

/-- The connections that the threads of an instance open. -/
def opened (args : Args) (options : RunOptions T) (servers : List String) : ℕ :=
  if 1 < options.threads then
    ((List.range options.threads.toNat).map fun thread =>
      connectionCount args options (threadServers options servers thread)).sum
  else if options.threads = 1 then connectionCount args options servers
  else 0

/-- The requests of all connections of an instance in a second. -/
def requestRate [Mul T] [NatCast T] (args : Args) (options : RunOptions T)
    (servers : List String) : T :=
  opened args options servers * options.lambda

theorem connectionCount_eq {args : Args} {options : RunOptions T} {servers : List String}
    (unmeasured : args.measureConnections = none) (isSome : 0 ≤ options.connections) :
    (connectionCount args options servers : ℤ) = servers.length * options.connections := by
  rw [connectionCount, unmeasured, Option.getD_none, Nat.cast_mul, Int.toNat_of_nonneg isSome]

theorem opened_eq {args : Args} {options : RunOptions T} {servers : List String}
    (unmeasured : args.measureConnections = none) (isSome : 0 ≤ options.connections)
    (everyServer : options.roundrobin = false) (runs : 0 ≤ options.threads) :
    (opened args options servers : ℤ) =
      options.threads * (servers.length * options.connections) := by
  have perThread (thread : ℕ) : threadServers options servers thread = servers := by
    rw [threadServers, everyServer]
    rfl
  rw [opened]
  simp only [perThread]
  by_cases isMany : 1 < options.threads
  · rw [if_pos isMany, List.map_const', List.sum_replicate, List.length_range, smul_eq_mul,
      Nat.cast_mul, connectionCount_eq unmeasured isSome, Int.toNat_of_nonneg runs]
  · rw [if_neg isMany]
    by_cases isOne : options.threads = 1
    · rw [if_pos isOne, isOne, connectionCount_eq unmeasured isSome, one_mul]
    · have isZero : options.threads = 0 := by omega
      rw [if_neg isOne, isZero, zero_mul, Nat.cast_zero]

/-- An instance that weights its connections takes as many shares of the rate. -/
theorem requestRate_eq [Field T] {args : Args} {options : RunOptions T} {servers : List String}
    {qps lambdaDenom lambdaMul : ℤ} (unmeasured : args.measureConnections = none)
    (isSome : 0 ≤ options.connections) (everyServer : options.roundrobin = false)
    (runs : 0 ≤ options.threads) (isRate : options.lambda = rate qps lambdaDenom lambdaMul) :
    requestRate args options servers = (qps : T) / (lambdaDenom : T) *
      ((options.threads * lambdaMul * (servers.length * options.connections) : ℤ) : T) := by
  have isCount : (opened args options servers : T) =
      ((options.threads * (servers.length * options.connections) : ℤ) : T) := by
    rw [← opened_eq unmeasured isSome everyServer runs, Int.cast_natCast]
  rw [requestRate, isCount, isRate, rate]
  push_cast
  ring

/-! ## The count of the master -/

/-- Without overflow, the first loop of the master adds up the connections of the agents. -/
theorem foldl_addAgent {options : RunOptions T} {servers : ℕ}
    (everyServer : options.roundrobin = false)
    {number : Fin n → ℤ} {perNumber : ℤ} (isPer : perNumber = servers * options.connections)
    (isSome : 1 ≤ perNumber) (sockets : List (Fin n)) (nonneg : ∀ i, 0 ≤ number i) {sum : ℤ}
    (atStart : 0 ≤ sum) (fits : sum + (sockets.map fun i => number i * perNumber).sum < 2 ^ 31) :
    sockets.foldl (fun sum i => addAgent options servers sum (number i)) sum =
      sum + (sockets.map fun i => number i * perNumber).sum := by
  induction sockets generalizing sum with
  | nil => rw [List.foldl_nil, List.map_nil, List.sum_nil, add_zero]
  | cons i sockets ih =>
      rw [List.map_cons, List.sum_cons] at fits ⊢
      have others : 0 ≤ (sockets.map fun i => number i * perNumber).sum := by
        refine List.sum_nonneg fun share listed => ?_
        obtain ⟨j, -, rfl⟩ := List.mem_map.mp listed
        exact mul_nonneg (nonneg j) (by omega)
      have isBelow : number i ≤ number i * perNumber := le_mul_of_one_le_right (nonneg i) isSome
      have isNumber : number i % 2 ^ 32 = number i := Int.emod_eq_of_lt (nonneg i) (by omega)
      have added : addAgent options servers sum (number i) = sum + number i * perNumber := by
        have isWeight : weight options servers (number i) = number i * perNumber := by
          rw [weight, pairs, everyServer, if_neg Bool.false_ne_true, isNumber, isPer]
          ring
        rw [addAgent, isWeight]
        have start := nonneg i
        exact Int.bmod_eq_of_le (by omega) (by omega)
      rw [List.foldl_cons, added, ih (by omega) (by omega)]
      omega

namespace Team

/-- The connections with their weights. -/
def shares (team : Team n T) : ℤ :=
  (team.args.threads * team.args.lambdaMul +
    ∑ i, (team.agentArgs i).threads * (team.agentArgs i).lambdaMul) *
      (team.args.servers.length * team.args.connections)

/-- Every thread connects to every server as often as the shared options say, and the count fits in
an integer. -/
structure Plain (team : Team n T) : Prop where
  everyServer : team.args.roundrobin = false
  unmeasured : team.args.measureConnections = none
  sameRate : team.args.measureQps = none
  agentUnmeasured (i : Fin n) : (team.agentArgs i).measureConnections = none
  threads : 0 ≤ team.args.threads
  agentThreads (i : Fin n) : 0 ≤ (team.agentArgs i).threads
  lambdaMul : 1 ≤ team.args.lambdaMul
  agentLambdaMul (i : Fin n) : 1 ≤ (team.agentArgs i).lambdaMul
  connections : 1 ≤ team.args.connections
  servers : 1 ≤ team.args.servers.length
  isUsed : 0 < team.shares
  fits : team.shares < 2 ^ 31

variable [Field T] {team : Team n T}

omit [Field T] in
theorem Plain.perNumber (plain : team.Plain) :
    1 ≤ (team.args.servers.length : ℤ) * team.args.connections := by
  have connections := plain.connections
  have servers : (1 : ℤ) ≤ team.args.servers.length := by exact_mod_cast plain.servers
  nlinarith

omit [Field T] in
/-- The agents get the options of the master. -/
theorem Plain.isShared (plain : team.Plain) (options : RunOptions T) :
    sharedOptions team.args options = options := by
  rw [sharedOptions, plain.sameRate]
  rfl

/-- The count of the master alone. -/
theorem Plain.lambdaDenom_options (plain : team.Plain) :
    (argsToOptions team.args : RunOptions T).lambdaDenom =
      team.args.threads * team.args.lambdaMul *
        (team.args.servers.length * team.args.connections) := by
  have perNumber := plain.perNumber
  have isMul := plain.lambdaMul
  change (if team.args.threads < 1 then (0 : ℤ) else _) = _
  by_cases isIdle : team.args.threads < 1
  · have isZero : team.args.threads = 0 := le_antisymm (by omega) plain.threads
    rw [if_pos isIdle, isZero, zero_mul, zero_mul]
  · have isConnections : team.args.connections * pairs team.args.roundrobin
        team.args.servers.length team.args.threads =
        team.args.threads * (team.args.servers.length * team.args.connections) := by
      rw [pairs, plain.everyServer, if_neg Bool.false_ne_true]
      ring
    have isSome : 1 ≤ team.args.threads * (team.args.servers.length * team.args.connections) := by
      nlinarith
    rw [if_neg isIdle, isConnections]
    have isOnce (count : ℤ) (isSome : 1 ≤ count) : (if count > 1 then count else 1) = count := by
      split <;> omega
    rw [isOnce _ isSome]
    by_cases isWeighted : team.args.lambdaMul > 1
    · rw [if_pos isWeighted]
      ring
    · have isOne : team.args.lambdaMul = 1 := by omega
      rw [if_neg isWeighted, isOne, mul_one]

/-- The options of a round have the shared arguments of the master. -/
theorem Plain.lambdaDenom_eq (plain : team.Plain) {options : RunOptions T} {qps : ℤ} {lambda : T}
    (isRound : options = { (argsToOptions team.args : RunOptions T) with qps, lambda }) :
    team.lambdaDenom options = team.shares := by
  have isStart : startSum team.args options = team.args.threads * team.args.lambdaMul *
      (team.args.servers.length * team.args.connections) := by
    rw [startSum, plain.sameRate, masterSum, plain.unmeasured, isRound]
    exact plain.lambdaDenom_options
  have isSum : team.shares = startSum team.args options + ((agentSockets n).map fun i =>
      (team.agentArgs i).threads * (team.agentArgs i).lambdaMul *
        (team.args.servers.length * team.args.connections)).sum := by
    rw [shares, Fin.sum_univ_def, add_mul, isStart, List.sum_map_mul_right]
    rfl
  have nonneg (i : Fin n) : 0 ≤ (team.agentArgs i).threads * (team.agentArgs i).lambdaMul :=
    mul_nonneg (plain.agentThreads i) (by have isMul := plain.agentLambdaMul i; omega)
  have perNumber := plain.perNumber
  have atStart : 0 ≤ startSum team.args options := by
    rw [isStart]
    have isMul := plain.lambdaMul
    exact mul_nonneg (mul_nonneg plain.threads (by omega)) (by omega)
  have fits := plain.fits
  rw [isSum] at fits ⊢
  rw [lambdaDenom, plain.isShared]
  exact foldl_addAgent (by rw [isRound]; exact plain.everyServer) (by rw [isRound]; rfl) perNumber
    (agentSockets n) nonneg atStart fits

/-- The requests of all connections of all instances add up to the rate of a round. -/
theorem requestRates_add_up [CharZero T] {team : Team n T} (plain : team.Plain) (round : ℕ)
    (before : List (Round T)) :
    requestRate team.args (team.masterOptions (team.roundOptions round before)) team.args.servers +
        ∑ i, requestRate (team.agentArgs i)
          (team.agentOptions (team.roundOptions round before) i) team.args.servers =
      ((team.roundOptions round before).qps : T) := by
  obtain ⟨qps, lambda, isRound⟩ := withQps_eq (T := T) team.args (team.choose round before)
  have isOptions : team.roundOptions round before =
      { (argsToOptions team.args : RunOptions T) with qps, lambda } := isRound
  have isDenom := plain.lambdaDenom_eq isOptions
  generalize team.roundOptions round before = options at isOptions isDenom ⊢
  have master : requestRate team.args (team.masterOptions options) team.args.servers =
      (options.qps : T) / (team.shares : T) * ((team.args.threads * team.args.lambdaMul *
        (team.args.servers.length * team.args.connections) : ℤ) : T) := by
    obtain ⟨depth, isMaster⟩ : ∃ depth, team.masterOptions options = { options with
        lambdaDenom := team.shares
        lambda := rate options.qps team.shares team.args.lambdaMul
        depth } := by
      rw [masterOptions, plain.isShared, isDenom, settle, plain.sameRate]
      cases team.args.measureDepth <;> exact ⟨_, rfl⟩
    rw [isMaster, isOptions]
    exact requestRate_eq plain.unmeasured (zero_le_one.trans plain.connections) plain.everyServer
      plain.threads rfl
  have agents (i : Fin n) : requestRate (team.agentArgs i) (team.agentOptions options i)
      team.args.servers = (options.qps : T) / (team.shares : T) *
        (((team.agentArgs i).threads * (team.agentArgs i).lambdaMul *
          (team.args.servers.length * team.args.connections) : ℤ) : T) := by
    rw [agentOptions, plain.isShared, isDenom, isOptions]
    exact requestRate_eq (plain.agentUnmeasured i) (zero_le_one.trans plain.connections)
      plain.everyServer (plain.agentThreads i) rfl
  have isUsed : (team.shares : T) ≠ 0 := Int.cast_ne_zero.mpr plain.isUsed.ne'
  simp only [master, agents]
  rw [← Finset.mul_sum, ← mul_add, ← Int.cast_sum, ← Int.cast_add, ← Finset.sum_mul, ← add_mul]
  exact div_mul_cancel₀ _ isUsed

/-! ## The rates of a session -/

/-- All instances have come to their end, and in each round the requests of all connections added up
to the rate that the options of the master name. -/
def RatesAddUp (team : Team n T) (cluster : Cluster n T) (count : ℕ) : Prop :=
  ∃ rounds agentRounds, cluster.Ends rounds agentRounds ∧ ∀ k < count,
    ∃ (master : Round T) (agents : Fin n → Round T), rounds[k]? = some master ∧
      (∀ i, (agentRounds i)[k]? = some (agents i)) ∧
      requestRate team.args master.options master.servers +
          ∑ i, requestRate (team.agentArgs i) (agents i).options (agents i).servers =
        (master.options.qps : T)

/-- Where a session stops, in whatever order the instances took their steps, the rates of each round
have added up. -/
theorem rates_add_up [CharZero T] {team : Team n T} (plain : team.Plain) (inStep : team.InStep)
    {count : ℕ} {schedule : List (Party (Fin n))} {cluster : Cluster n T}
    (reached : run step (team.start count) schedule = .ok cluster)
    (stops : Final step cluster) : team.RatesAddUp cluster count := by
  obtain ⟨_, completes⟩ := (start_leads inStep count).completes
  have ends := (completes schedule cluster reached).2.2 stops
  refine ⟨_, _, ends, fun k isIn => ⟨_, _, rounds_getElem? team isIn,
    fun i => agentRounds_getElem? team i isIn, ?_⟩⟩
  have isQps (options : RunOptions T) : (team.masterOptions options).qps = options.qps := by
    rw [masterOptions, plain.isShared]
    obtain ⟨lambda, depth, isSettled⟩ := settle_eq (T := T) team.args options
      (team.lambdaDenom options) (masterSum team.args options)
    rw [isSettled]
  have addUp := requestRates_add_up plain k (team.rounds k)
  rw [← isQps] at addUp
  exact addUp

/-- The helpers of a master that measures nothing apart. -/
def plainHelpers : Team 2 ℚ :=
  { helpers with
    args := { helpers.args with measureConnections := none, measureQps := none } }

theorem plainHelpers_add_up : plainHelpers.Plain ∧ plainHelpers.InStep ∧
    ∃ schedule cluster, run step (plainHelpers.start 3) schedule = .ok cluster ∧
      Final step cluster ∧ plainHelpers.RatesAddUp cluster 3 := by
  have isShares : plainHelpers.shares = 72 := by
    rw [shares, Fin.sum_univ_two]
    rfl
  have plain : plainHelpers.Plain := {
    everyServer := rfl
    unmeasured := rfl
    sameRate := rfl
    agentUnmeasured _ := rfl
    threads := by decide
    agentThreads _ := (by decide : (0 : ℤ) ≤ 4)
    lambdaMul := by decide
    agentLambdaMul _ := le_refl (1 : ℤ)
    connections := by decide
    servers := by decide
    isUsed := by rw [isShares]; decide
    fits := by rw [isShares]; decide }
  have inStep : plainHelpers.InStep := fun _ => rfl
  obtain ⟨_, completes⟩ := (start_leads inStep 3).completes
  obtain ⟨-, ⟨schedule, last, reached, ends⟩, -⟩ := completes [] (plainHelpers.start 3) rfl
  have stops : Final step last := Ends.final ends
  exact ⟨plain, inStep, schedule, last, reached, stops, rates_add_up plain inStep reached stops⟩

end Team

end Datamime.Mutilate.Agents
