/-
# The partition plan

`apply_partition_plan` writes the ways of each stack behind one another, a comma after
each of them, erases the last comma and hands the text to `cat_cbm` as the ways of one
class of service. The allocation functions pass it a stack for every core, also for the
cores that no application has. The text for these is empty before anything is erased.
-/

import Datamime.CacheUtils.Awards
import Datamime.CacheUtils.CatTools
import Datamime.CacheUtils.CosIssueBounds

namespace Datamime.CacheUtils

open Datamime.Math Datamime.Hardware

variable {α : Type}

def CAT_CBM_TOOL_DIR : List Char := "./lltools/build/cat_cbm -c ".toList

def CAT_COS_TOOL_DIR : List Char := "./lltools/build/cat_cos -c ".toList

/-- `text.erase(text.end() - 1)`. -/
def eraseLast : List Char → Except Misuse (List Char)
  | [] => .error .emptyString
  | c :: rest => .ok (c :: rest).dropLast

/-- The command that sets the mask of a class. -/
def cbmCommand (cosID : ℕ) (appPartitions : Stack) : Except Misuse (List Char) := do
  let waysString ← eraseLast (appPartitions.flatMap fun way => Text.ofInt way ++ [','])
  return CAT_CBM_TOOL_DIR ++ Text.ofInt cosID ++ " -m".toList ++ ' ' :: waysString

/-- The command that maps a core to the class of its number. -/
def cosCommand (cosID : ℕ) : List Char :=
  CAT_COS_TOOL_DIR ++ Text.ofInt cosID ++ " -s ".toList ++ Text.ofInt cosID

/-- The loop over the classes, which ends with the first command that fails. The shell splits a
command at its blanks. -/
def setMasks (posixlyCorrect : Bool) (machine : Machine) (partitions : List Stack) :
    List ℕ → Msrs → Except Misuse Msrs
  | [], msrs => .ok msrs
  | a :: rest, msrs => do
      let appPartitions ← stackAt partitions a
      let command ← cbmCommand a appPartitions
      match catCbm posixlyCorrect machine msrs (Text.words command) with
      | .ok next => setMasks posixlyCorrect machine partitions rest next
      | .error _ => .ok msrs

/-- The loop over the cores, which passes over the commands that fail. -/
def mapCores (posixlyCorrect : Bool) (machine : Machine) (numLogicalCores : ℕ) (msrs : Msrs) :
    Msrs :=
  (List.range numLogicalCores).foldl
    (fun msrs cosID =>
      match catCos posixlyCorrect machine msrs (Text.words (cosCommand cosID)) with
      | .ok next => next
      | .error _ => msrs)
    msrs

/-- `apply_partition_plan`. -/
def applyPartitionPlan (posixlyCorrect : Bool) (machine : Machine) (partitions : List Stack)
    (numLogicalCores : ℕ) (msrs : Msrs) : Except Misuse Msrs := do
  let msrs ← setMasks posixlyCorrect machine partitions (List.range numLogicalCores) msrs
  return mapCores posixlyCorrect machine numLogicalCores msrs

/-! ## The arrays that are passed -/

/-- An array that `do_ucp_mrcs` or `do_ucp_ipcs` passes. -/
def PassesPlan (ops : Arithmetic α) (matrix : CurveMatrix α) (numLogicalCores cacheNumWays : ℕ)
    (partitions : List Stack) : Prop :=
  ∃ garbageId garbageSize rounds,
    doUcpMrcs garbageId garbageSize ops matrix numLogicalCores cacheNumWays rounds =
        .ok partitions ∨
      doUcpIpcs garbageId garbageSize ops matrix numLogicalCores cacheNumWays rounds =
        .ok partitions

section

variable {scheme : Scheme α} {matrix : CurveMatrix α} {numApps numLogicalCores cacheNumWays : ℕ}
  {partitions : List Stack}

/-- The ways stand on the stacks of the applications when the allocation ends. -/
theorem divides_of_allocate {rounds : ℕ}
    (allocated : allocate scheme matrix numLogicalCores cacheNumWays rounds = .ok partitions) :
    Allocation.Divides matrix.numApps numLogicalCores cacheNumWays ⟨partitions, []⟩ := by
  obtain ⟨first, started, allocated⟩ := bind_eq_ok_iff.mp allocated
  obtain ⟨last, looped, allocated⟩ := bind_eq_ok_iff.mp allocated
  cases allocated
  obtain ⟨reached, none_left⟩ := reached_of_allocationLoop (.start started) looped
  rw [← none_left]
  exact reached.divides

/-- The ways of the applications, before the workaround. -/
theorem dividesWays_of_divides
    (divides : Allocation.Divides numApps numLogicalCores cacheNumWays ⟨partitions, []⟩) :
    DividesWays cacheNumWays (partitions.take numApps) :=
  (divides.partitioned rfl).1

/-- Whatever memory holds, a block that returns has only exchanged ways. -/
theorem rearranges_of_cosIssueBlock {garbageId garbageSize : ℤ} {settled : List Stack}
    (divides : DividesWays cacheNumWays partitions)
    (returned : cosIssueBlock garbageId garbageSize partitions = .ok settled) :
    Rearranges partitions settled := by
  by_cases large : 12 ≤ cacheNumWays
  · obtain ⟨result, isResult, rearranged, -⟩ := relocate_settles ⟨garbageId, -1, garbageSize, -1⟩
      divides.nodup ((divides.mem_iff 10).mpr (by omega)) ((divides.mem_iff 11).mpr (by omega))
    cases returned.symm.trans isResult
    exact rearranged
  · have absent : 11 ∉ partitions.flatten := fun isWay => by
      have inside := (divides.mem_iff 11).mp isWay
      omega
    rw [eq_of_relocate absent returned]
    exact ⟨List.Perm.refl _, rfl⟩

theorem Rearranges.getElem? {before after : List Stack} (rearranges : Rearranges before after)
    {a : ℕ} {stack : Stack} (isStack : before[a]? = some stack) :
    ∃ settled, after[a]? = some settled ∧ settled.length = stack.length := by
  have size := congrArg (fun list => list[a]?) rearranges.2
  rw [List.getElem?_map, List.getElem?_map, isStack] at size
  cases found : after[a]? with
  | none =>
      rw [found] at size
      cases size
  | some settled =>
      rw [found] at size
      exact ⟨settled, rfl, Option.some.inj size⟩

/-- The end of an allocation function keeps the ways on the stacks of the applications. -/
theorem divides_of_settleUcp {garbageId garbageSize : ℤ} {settled : List Stack}
    (divides : Allocation.Divides numApps numLogicalCores cacheNumWays ⟨partitions, []⟩)
    (returned : settleUcp garbageId garbageSize numApps partitions = .ok settled) :
    Allocation.Divides numApps numLogicalCores cacheNumWays ⟨settled, []⟩ := by
  obtain ⟨block, atBlock, returned⟩ := bind_eq_ok_iff.mp returned
  cases returned
  have rearranged := rearranges_of_cosIssueBlock (dividesWays_of_divides divides) atBlock
  have sameCount : block.length = (partitions.take numApps).length := by
    have lengths := congrArg List.length rearranged.2
    rwa [List.length_map, List.length_map] at lengths
  have inside : ∀ a < numApps, ∃ stack, (partitions.take numApps)[a]? = some stack ∧
      stack ≠ [] := by
    intro a isApp
    rw [List.getElem?_take_of_lt isApp]
    exact divides.held a isApp
  refine ⟨?_, ?_, fun a isApp => ?_, fun a stack isUnused isStack => ?_⟩
  · have cores := divides.cores
    dsimp only at cores ⊢
    rw [List.length_append, sameCount, ← List.length_append, List.take_append_drop, cores]
  · have ways := divides.ways
    rw [List.append_nil] at ways ⊢
    refine List.Perm.trans ?_ ways
    dsimp only
    nth_rewrite 2 [← List.take_append_drop numApps partitions]
    rw [List.flatten_append, List.flatten_append]
    exact rearranged.1.append_right _
  · obtain ⟨stack, isStack, notEmpty⟩ := inside a isApp
    obtain ⟨other, isOther, sameSize⟩ := rearranged.getElem? isStack
    refine ⟨other, ?_, fun isEmpty => notEmpty ?_⟩
    · dsimp only
      rw [List.getElem?_append_left (List.getElem?_eq_some_iff.mp isOther).1, isOther]
    · rw [isEmpty] at sameSize
      exact List.eq_nil_of_length_eq_zero sameSize.symm
  · have atMost : block.length ≤ numApps := by
      rw [sameCount, List.length_take]
      exact Nat.min_le_left _ _
    dsimp only at isStack
    rw [List.getElem?_append_right (atMost.trans isUnused), List.getElem?_drop] at isStack
    refine divides.unused _ stack ?_ isStack
    omega

/-- The arrays that are passed hold each way once, and no way for the other cores. -/
theorem PassesPlan.divides {ops : Arithmetic α}
    (passes : PassesPlan ops matrix numLogicalCores cacheNumWays partitions) :
    Allocation.Divides matrix.numApps numLogicalCores cacheNumWays ⟨partitions, []⟩ := by
  obtain ⟨garbageId, garbageSize, rounds, returned | returned⟩ := passes
  · obtain ⟨allocated, isAllocated, returned⟩ := bind_eq_ok_iff.mp returned
    have divides := divides_of_allocate isAllocated
    have sameApps : (smoothenMrcs ops matrix).numApps = matrix.numApps := numApps_smoothen matrix _
    rw [sameApps] at divides
    exact divides_of_settleUcp divides returned
  · obtain ⟨allocated, isAllocated, returned⟩ := bind_eq_ok_iff.mp returned
    have divides := divides_of_allocate isAllocated
    have sameApps : (smoothenIpcs ops matrix).numApps = matrix.numApps := numApps_smoothen matrix _
    rw [sameApps] at divides
    exact divides_of_settleUcp divides returned

end

/-! ## The commands -/

/-- A mask with exactly the ways of a stack. -/
def IsMaskOf (mask : BitVec 32) (stack : Stack) : Prop :=
  ∀ way : ℤ, way ∈ stack ↔ 0 ≤ way ∧ mask.getLsbD way.toNat = true

/-- The command that is built for a stack makes `cat_cbm` set the mask of the class to exactly the
ways of the stack. -/
def SetsWays (a : ℕ) (stack : Stack) : Prop :=
  ∃ command cbm, cbmCommand a stack = .ok command ∧ IsMaskOf cbm stack ∧
    ∀ posixlyCorrect machine msrs,
      catCbm posixlyCorrect machine msrs (Text.words command) = (do
        catController machine
        setCbm machine msrs a cbm)

section

variable {a : ℕ} {stack : Stack}

theorem cbmCommand_nil (a : ℕ) : cbmCommand a [] = .error .emptyString := rfl

theorem cbmCommand_eq (some_way : stack ≠ []) :
    cbmCommand a stack = .ok (Text.spaced ["./lltools/build/cat_cbm".toList, ['-', 'c'],
      Text.ofInt a, ['-', 'm'], Text.commaJoined (stack.map Text.ofInt)]) := by
  have joined : eraseLast (stack.flatMap fun way => Text.ofInt way ++ [',']) =
      .ok (Text.commaJoined (stack.map Text.ofInt)) := by
    obtain ⟨top, rest, rfl⟩ := List.exists_cons_of_ne_nil some_way
    obtain ⟨c, text, isText⟩ : ∃ c text,
        (top :: rest).flatMap (fun way => Text.ofInt way ++ [',']) = c :: text :=
      List.exists_cons_of_ne_nil (by simp)
    rw [isText, eraseLast, ← isText, ← Text.dropLast_flatMap_comma, List.flatMap_map]
  have isTool : CAT_CBM_TOOL_DIR = "./lltools/build/cat_cbm".toList ++ [' ', '-', 'c', ' '] := by
    decide
  have isOption : " -m".toList = [' ', '-', 'm'] := by decide
  rw [cbmCommand, joined, ok_bind, isTool, isOption, Text.spaced]
  simp only [List.flatMap_cons, List.flatMap_nil, List.append_assoc, List.cons_append,
    List.nil_append, List.append_nil]
  rfl

/-- The shell takes the command apart as it was put together. -/
theorem words_cbmCommand (some_way : stack ≠ []) {command : List Char}
    (built : cbmCommand a stack = .ok command) :
    Text.words command = ["./lltools/build/cat_cbm".toList, ['-', 'c'], Text.ofInt a, ['-', 'm'],
      Text.commaJoined (stack.map Text.ofInt)] := by
  rw [cbmCommand_eq some_way] at built
  cases built
  refine Text.words_spaced fun word isWord => ?_
  have areWords : ∀ field ∈ stack.map Text.ofInt, Text.IsWord field := by
    intro field isField
    obtain ⟨way, -, rfl⟩ := List.mem_map.mp isField
    exact Text.isWord_ofInt way
  have notEmpty : Text.commaJoined (stack.map Text.ofInt) ≠ [] := by
    intro isEmpty
    have counted := length_commaJoined (stack.map Text.ofInt)
    obtain ⟨top, rest, rfl⟩ := List.exists_cons_of_ne_nil some_way
    have some_char := List.length_pos_of_ne_nil (Text.isWord_ofInt top).1
    rw [isEmpty, List.map_cons, List.map_cons, List.sum_cons, List.length_nil] at counted
    omega
  simp only [List.mem_cons, List.not_mem_nil, or_false] at isWord
  rcases isWord with rfl | rfl | rfl | rfl | rfl
  · decide
  · decide
  · exact Text.isWord_ofInt a
  · decide
  · exact ⟨notEmpty, fun c isMember => Text.isBlank_of_mem_commaJoined areWords isMember⟩

theorem setsWays_of_ne_nil (isClass : a < 2 ^ 31) (some_way : stack ≠ [])
    (inside : ∀ way ∈ stack, 0 ≤ way ∧ way < 32) : SetsWays a stack := by
  refine ⟨_, maskOfEntries stack, cbmCommand_eq some_way, fun way => ?_,
    fun posixlyCorrect machine msrs => ?_⟩
  · have bits : ∀ i < 32, (maskOfEntries stack).getLsbD i = decide ((i : ℤ) ∈ stack) :=
      fun i isBit => getLsbD_maskOfEntries
        (fun way isWay => ⟨(inside way isWay).1, (inside way isWay).2.trans (by decide)⟩) isBit
    constructor
    · intro isWay
      obtain ⟨nonneg, below⟩ := inside way isWay
      refine ⟨nonneg, ?_⟩
      rw [bits way.toNat (by omega), Int.toNat_of_nonneg nonneg, decide_eq_true isWay]
    · rintro ⟨nonneg, isSet⟩
      rw [bits way.toNat (BitVec.lt_of_getLsbD isSet), Int.toNat_of_nonneg nonneg] at isSet
      exact of_decide_eq_true isSet
  · rw [words_cbmCommand some_way (cbmCommand_eq some_way)]
    refine catCbm_set isClass some_way fun way isWay => ?_
    have within := inside way isWay
    omega

end

/-- With an application on every core and masks that have a bit for every way, each command sets the
mask to the ways of its stack. -/
theorem setsWays_of_narrow {ops : Arithmetic α} {matrix : CurveMatrix α}
    {numLogicalCores cacheNumWays : ℕ} {partitions : List Stack}
    (isInt : numLogicalCores < 2 ^ 31)
    (passes : PassesPlan ops matrix numLogicalCores cacheNumWays partitions)
    (allCores : matrix.numApps = numLogicalCores) (narrow : cacheNumWays ≤ 32) {a : ℕ}
    {stack : Stack} (isStack : partitions[a]? = some stack) : SetsWays a stack := by
  obtain ⟨cores, ways, held, -⟩ := passes.divides
  dsimp only at cores ways held
  rw [List.append_nil] at ways
  have within := (List.getElem?_eq_some_iff.mp isStack).1
  obtain ⟨other, isOther, notEmpty⟩ := held a (by omega)
  cases isStack.symm.trans isOther
  refine setsWays_of_ne_nil (by omega) notEmpty fun way holds => ?_
  have inside := (DividesWays.mem_iff ways way).mp
    (List.mem_flatten_of_mem (List.mem_of_getElem? isStack) holds)
  omega

/-- The commands set the masks to the ways of all stacks precisely if every core has an
application and the masks have a bit for every way. -/
theorem setsWays_iff {ops : Arithmetic α} {matrix : CurveMatrix α}
    {numLogicalCores cacheNumWays : ℕ} {partitions : List Stack}
    (isInt : numLogicalCores < 2 ^ 31)
    (passes : PassesPlan ops matrix numLogicalCores cacheNumWays partitions) :
    (∀ a stack, partitions[a]? = some stack → SetsWays a stack) ↔
      matrix.numApps = numLogicalCores ∧ cacheNumWays ≤ 32 := by
  obtain ⟨cores, ways, held, unused⟩ := passes.divides
  dsimp only at cores ways held unused
  rw [List.append_nil] at ways
  have isWay : ∀ way : ℤ, way ∈ partitions.flatten ↔ 0 ≤ way ∧ way < cacheNumWays :=
    DividesWays.mem_iff ways
  constructor
  · intro sets
    constructor
    · by_contra different
      rcases Nat.lt_or_gt_of_ne different with fewer | more
      · -- The stack of the first core without an application is empty.
        have within : matrix.numApps < partitions.length := by omega
        have isStack := List.getElem?_eq_getElem within
        obtain ⟨command, cbm, built, -⟩ := sets _ _ isStack
        rw [unused _ _ (le_refl _) isStack, cbmCommand_nil] at built
        cases built
      · obtain ⟨stack, isStack, -⟩ := held numLogicalCores more
        have within := (List.getElem?_eq_some_iff.mp isStack).1
        omega
    · by_contra wide
      obtain ⟨stack, isMember, holds⟩ := List.mem_flatten.mp ((isWay 32).mpr (by omega))
      obtain ⟨a, isStack⟩ := List.mem_iff_getElem?.mp isMember
      obtain ⟨command, cbm, -, bits, -⟩ := sets a stack isStack
      exact absurd (BitVec.lt_of_getLsbD ((bits 32).mp holds).2) (by decide)
  · rintro ⟨allCores, narrow⟩ a stack isStack
    exact setsWays_of_narrow isInt passes allCores narrow isStack

/-! ## A whole plan -/

/-- The machine has a class for each core, and masks that are long enough for the ways. -/
structure SupportsPlan (machine : Machine) (numLogicalCores cacheNumWays : ℕ) : Prop where
  online : 0 < machine.numCores
  opens : machine.OpensAll
  cat : machine.catSupported = true
  l3Cat : machine.l3CatSupported = true
  classes : numLogicalCores ≤ machine.numCos
  ways : cacheNumWays ≤ machine.cbmLen
  /-- A mask of 32 ways would be shifted by its whole length. -/
  narrow : machine.cbmLen < 32

section

variable {posixlyCorrect : Bool} {machine : Machine} {numLogicalCores cacheNumWays : ℕ}
  {msrs : Msrs} {partitions : List Stack}

theorem SupportsPlan.catController_eq
    (supports : SupportsPlan machine numLogicalCores cacheNumWays) :
    catController machine = .ok () :=
  catController_eq_ok_iff.mpr ⟨⟨supports.online, supports.opens⟩, supports.cat, supports.l3Cat⟩

theorem SupportsPlan.exists_setCbm
    (supports : SupportsPlan machine numLogicalCores cacheNumWays) {a : ℕ}
    (isClass : a < numLogicalCores) {cbm : BitVec 32} {stack : Stack} (isMask : IsMaskOf cbm stack)
    (below : ∀ way ∈ stack, way < cacheNumWays) :
    ∃ next, setCbm machine msrs a cbm = .ok next := by
  refine ⟨_, setCbm_eq_ok_iff.mpr ⟨Int.ofNat_lt.mpr (lt_of_lt_of_le isClass supports.classes), ?_,
    supports.online, rfl⟩⟩
  rw [shiftRight, Nat.mod_eq_of_lt supports.narrow]
  apply BitVec.eq_of_getLsbD_eq
  intro i inside
  rw [BitVec.getLsbD_ushiftRight, show (0 : BitVec 32).getLsbD i = false from
    BitVec.getLsbD_zero]
  refine Bool.eq_false_iff.mpr fun isSet => ?_
  have isWay := below _ ((isMask (machine.cbmLen + i : ℕ)).mpr ⟨by omega, isSet⟩)
  have ways := supports.ways
  omega

/-- The loop sets the masks of the classes in its list and no other. -/
theorem exists_setMasks (supports : SupportsPlan machine numLogicalCores cacheNumWays)
    (sets : ∀ a stack, partitions[a]? = some stack → SetsWays a stack)
    (below : ∀ stack ∈ partitions, ∀ way ∈ stack, way < cacheNumWays) {list : List ℕ}
    (distinct : list.Nodup) (isCore : ∀ a ∈ list, a < numLogicalCores)
    (within : ∀ a ∈ list, a < partitions.length) :
    ∃ next, setMasks posixlyCorrect machine partitions list msrs = .ok next ∧
      (∀ a ∈ list, ∀ stack, partitions[a]? = some stack → IsMaskOf (maskOf next a) stack) ∧
      ∀ a ∉ list, maskOf next a = maskOf msrs a := by
  induction list generalizing msrs with
  | nil => exact ⟨msrs, rfl, fun a isMember => (by cases isMember), fun a _ => rfl⟩
  | cons a rest ih =>
      have inside := within a List.mem_cons_self
      have isStack := List.getElem?_eq_getElem inside
      obtain ⟨command, cbm, built, isMask, call⟩ := sets a _ isStack
      obtain ⟨middle, masked⟩ := @SupportsPlan.exists_setCbm _ _ _ msrs supports a
        (isCore a List.mem_cons_self) cbm _ isMask
        (below _ (List.mem_of_getElem? isStack))
      obtain ⟨notLater, distinctRest⟩ := List.nodup_cons.mp distinct
      obtain ⟨next, looped, areMasks, others⟩ := @ih middle distinctRest
        (fun other isLater => isCore other (List.mem_cons_of_mem a isLater))
        fun other isLater => within other (List.mem_cons_of_mem a isLater)
      refine ⟨next, ?_, fun other isMember stack isOther => ?_, fun other absent => ?_⟩
      · rw [setMasks, stackAt_eq_ok isStack, ok_bind, built, ok_bind, call,
          supports.catController_eq, ok_bind, masked]
        exact looped
      · rcases List.mem_cons.mp isMember with rfl | isLater
        · cases isStack.symm.trans isOther
          rw [others _ notLater, maskOf_of_setCbm masked, if_pos rfl]
          exact isMask
        · exact areMasks other isLater stack isOther
      · rw [List.mem_cons, not_or] at absent
        rw [others other absent.2, maskOf_of_setCbm masked,
          if_neg fun isSame => absent.1 (Int.ofNat_inj.mp isSame)]

theorem maskOf_mapCores (a : ℕ) :
    maskOf (mapCores posixlyCorrect machine numLogicalCores msrs) a = maskOf msrs a := by
  rw [mapCores]
  induction List.range numLogicalCores generalizing msrs with
  | nil => rfl
  | cons cosID rest ih =>
      rw [List.foldl_cons, ih]
      split
      · rename_i next returned
        exact maskOf_of_catCos returned a
      · rfl

/-- With an application on every core the plan leaves the mask of each class with exactly the ways
of its stack. -/
theorem exists_applyPartitionPlan {ops : Arithmetic α} {matrix : CurveMatrix α}
    (isInt : numLogicalCores < 2 ^ 31)
    (supports : SupportsPlan machine numLogicalCores cacheNumWays)
    (passes : PassesPlan ops matrix numLogicalCores cacheNumWays partitions)
    (allCores : matrix.numApps = numLogicalCores) :
    ∃ next, applyPartitionPlan posixlyCorrect machine partitions numLogicalCores msrs = .ok next ∧
      ∀ a stack, partitions[a]? = some stack → IsMaskOf (maskOf next a) stack := by
  have narrow : cacheNumWays ≤ 32 := supports.ways.trans machine.cbmLen_le
  have sets : ∀ a stack, partitions[a]? = some stack → SetsWays a stack := fun _ _ isStack =>
    setsWays_of_narrow isInt passes allCores narrow isStack
  obtain ⟨cores, ways, -, -⟩ := passes.divides
  dsimp only at cores ways
  rw [List.append_nil] at ways
  obtain ⟨next, looped, areMasks, -⟩ := @exists_setMasks posixlyCorrect _ _ _ msrs _ supports sets
    (fun stack isStack way isWay =>
      ((DividesWays.mem_iff ways way).mp (List.mem_flatten_of_mem isStack isWay)).2)
    _ List.nodup_range (fun a isCore => List.mem_range.mp isCore)
    fun a isCore => by rw [cores]; exact List.mem_range.mp isCore
  refine ⟨mapCores posixlyCorrect machine numLogicalCores next, ?_, fun a stack isStack => ?_⟩
  · rw [applyPartitionPlan, looped, ok_bind]
    rfl
  · rw [maskOf_mapCores]
    refine areMasks a (List.mem_range.mpr ?_) stack isStack
    rw [← cores]
    exact (List.getElem?_eq_some_iff.mp isStack).1

end

/-- Two applications on a cache of twelve ways. -/
def twoApps : CurveMatrix ℚ where
  nRows := 12
  columns := [[20, 16, 13, 11, 10, 9, 9, 9, 9, 9, 9, 9],
    [30, 25, 20, 16, 13, 11, 10, 9, 8, 8, 8, 8]]
  sized := by decide

theorem twoApps_passesPlan :
    PassesPlan exact twoApps 2 12 [[11, 10, 8, 6, 4, 0], [9, 7, 5, 3, 2, 1]] := by
  refine ⟨0, 0, 10, .inl ?_⟩
  decide +kernel

theorem twoApps_setsWays_iff :
    (∀ a stack, ([[11, 10, 8, 6, 4, 0], [9, 7, 5, 3, 2, 1]] : List Stack)[a]? = some stack →
        SetsWays a stack) ↔
      twoApps.numApps = 2 ∧ 12 ≤ 32 :=
  setsWays_iff (by decide) twoApps_passesPlan

/-! ## A core without an application -/

/-- One application on a cache of twelve ways. -/
def flatCurve : CurveMatrix ℚ where
  nRows := 12
  columns := [[1, 1, 1, 1, 1, 1, 1, 1, 1, 1, 1, 1]]
  sized := by decide

/-- The stack of the second core is empty, and a character of its empty text is erased. -/
theorem idle_core_erases_from_empty :
    ∃ partitions, PassesPlan exact flatCurve 2 12 partitions ∧ partitions[1]? = some [] ∧
      cbmCommand 1 [] = .error .emptyString ∧
      ¬ ∀ a stack, partitions[a]? = some stack → SetsWays a stack := by
  obtain ⟨partitions, returned, -⟩ := @doUcpMrcs_allocatesAll ℚ exact flatCurve 2 (by decide)
    (by decide) (by decide) (by decide) 0 0
  have passes : PassesPlan exact flatCurve 2 12 partitions :=
    ⟨0, 0, 12, .inl (returned 12 (le_refl 12))⟩
  have divides := passes.divides
  have within : 1 < partitions.length := by
    rw [show partitions.length = 2 from divides.cores]
    decide
  have isStack := List.getElem?_eq_getElem within
  rw [divides.unused 1 _ (by decide) isStack] at isStack
  refine ⟨partitions, passes, isStack, rfl, fun sets => ?_⟩
  obtain ⟨command, cbm, built, -⟩ := sets 1 [] isStack
  cases built

end Datamime.CacheUtils
