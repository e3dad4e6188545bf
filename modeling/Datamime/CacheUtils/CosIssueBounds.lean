/-
# Variables and indices of the workaround for ways 10 and 11

A cache of 8 or of 11 ways lacks way 11, and perhaps way 10. The workaround then
compares, reads and indexes with variables that its search never sets. In the
function these start with -1, in the two blocks those for way 10 start without a
value.
-/

import Datamime.CacheUtils.CosIssue

namespace Datamime.CacheUtils

/-- The variables of a block. Two of them start without a value. -/
structure BlockVictims where
  victimId_b10 : Option ℤ
  victimId_b11 : ℤ
  victimPartSize_b10 : Option ℤ
  victimPartSize_b11 : ℤ

/-- One way of stack `a`, which has the given size. -/
def BlockVictims.visit (victims : BlockVictims) (a size : ℕ) (buckID : ℤ) : BlockVictims :=
  let victims :=
    if buckID = 10 then { victims with victimId_b10 := some a, victimPartSize_b10 := some size }
    else victims
  if buckID = 11 then { victims with victimId_b11 := a, victimPartSize_b11 := size } else victims

/-- The search of a block. -/
def findBlockVictims (partitions : List Stack) : BlockVictims :=
  partitions.zipIdx.foldl
    (fun victims (clustParts, a) =>
      clustParts.foldl (fun victims buckID => victims.visit a clustParts.length buckID) victims)
    ⟨none, -1, none, -1⟩

/-- The value of a variable. -/
def readVariable : Option ℤ → Except Misuse ℤ
  | some value => .ok value
  | none => .error .unassigned

/-- The block in `do_ucp_mrcs` and `do_ucp_ipcs`, which must not read a variable before it has a
value. -/
def checkedBlock (partitions : List Stack) : Except Misuse (List Stack) := do
  let victims := findBlockVictims partitions
  let victimId_b10 ← readVariable victims.victimId_b10
  if victimId_b10 ≠ victims.victimId_b11 then
    let victimPartSize_b10 ← readVariable victims.victimPartSize_b10
    if 1 < victimPartSize_b10 then
      exchange partitions victimId_b10 10 victims.victimId_b11 11
    else if 1 < victims.victimPartSize_b11 then
      exchange partitions victims.victimId_b11 11 victimId_b10 10
    else
      useThird ⟨victimId_b10, victims.victimId_b11, victimPartSize_b10, victims.victimPartSize_b11⟩
        partitions (List.range partitions.length)
  else .ok partitions

/-- The variables of a block, with what memory holds in those without a value. -/
def BlockVictims.fill (garbageId garbageSize : ℤ) (victims : BlockVictims) : Victims :=
  ⟨victims.victimId_b10.getD garbageId, victims.victimId_b11,
    victims.victimPartSize_b10.getD garbageSize, victims.victimPartSize_b11⟩

/-! ## The search of a block -/

section

variable {partitions : List Stack}

theorem fill_visit (garbageId garbageSize : ℤ) (victims : BlockVictims) (a size : ℕ)
    (buckID : ℤ) :
    (victims.visit a size buckID).fill garbageId garbageSize =
      (victims.fill garbageId garbageSize).visit a size buckID := by
  by_cases isTen : buckID = 10
  · subst isTen
    rfl
  · by_cases isEleven : buckID = 11
    · subst isEleven
      rfl
    · simp [BlockVictims.visit, Victims.visit, isTen, isEleven]

/-- With any values in memory the search of a block is the search of the function. -/
theorem fill_findBlockVictims (garbageId garbageSize : ℤ) (partitions : List Stack) :
    (findBlockVictims partitions).fill garbageId garbageSize =
      findVictims ⟨garbageId, -1, garbageSize, -1⟩ partitions := by
  have wholeStack : ∀ (victims : BlockVictims) (entry : Stack × ℕ),
      entry.1.foldl (fun victims buckID => Victims.visit victims entry.2 entry.1.length buckID)
          (victims.fill garbageId garbageSize) =
        (entry.1.foldl (fun victims buckID => victims.visit entry.2 entry.1.length buckID)
          victims).fill garbageId garbageSize := by
    intro victims entry
    exact List.foldl_hom _ fun victims buckID =>
      (fill_visit garbageId garbageSize victims entry.2 entry.1.length buckID).symm
  rw [findBlockVictims, findVictims]
  exact (List.foldl_hom _ wholeStack).symm

/-- What is noted for a way that no stack has. -/
theorem holder_findVictims_of_absent {way : ℤ} (isWay : way = 10 ∨ way = 11)
    (absent : way ∉ partitions.flatten) (start : Victims) :
    (findVictims start partitions).holder way = start.holder way := by
  refine holder_of_absent isWay (fun entry isEntry holds => absent ?_) start
  exact List.mem_flatten_of_mem (List.fst_mem_of_mem_zipIdx isEntry) holds

theorem assigned_of_ten (distinct : partitions.flatten.Nodup) (ten : 10 ∈ partitions.flatten) :
    ∃ id size : ℤ, (findBlockVictims partitions).victimId_b10 = some id ∧
      (findBlockVictims partitions).victimPartSize_b10 = some size := by
  obtain ⟨id, stack, -, -, -, found⟩ :=
    exists_holder (.inl rfl) ⟨-1, -1, -1, -1⟩ distinct ten
  rw [← fill_findBlockVictims, Victims.holder, if_pos rfl, Prod.mk.injEq] at found
  obtain ⟨isId, isSize⟩ := found
  -- An unassigned variable would read -1 here, which is no index and no size.
  refine ⟨id, stack.length, ?_, ?_⟩
  · cases assigned : (findBlockVictims partitions).victimId_b10 with
    | none => simp [BlockVictims.fill, assigned] at isId
    | some value => simpa [BlockVictims.fill, assigned] using isId
  · cases assigned : (findBlockVictims partitions).victimPartSize_b10 with
    | none => simp [BlockVictims.fill, assigned] at isSize
    | some value => simpa [BlockVictims.fill, assigned] using isSize

theorem unassigned_of_no_ten (absent : 10 ∉ partitions.flatten) :
    (findBlockVictims partitions).victimId_b10 = none := by
  cases assigned : (findBlockVictims partitions).victimId_b10 with
  | none => rfl
  | some value =>
      -- The search would have to end with whatever memory holds, which the value does not know.
      have found := @holder_findVictims_of_absent partitions 10 (.inl rfl) absent
        ⟨value + 1, -1, -1, -1⟩
      rw [← fill_findBlockVictims, Victims.holder, if_pos rfl, Victims.holder, if_pos rfl,
        Prod.mk.injEq] at found
      simp [BlockVictims.fill, assigned] at found

/-- A block that finds way 10 does what it does with any values in memory. -/
theorem checkedBlock_of_ten (distinct : partitions.flatten.Nodup)
    (ten : 10 ∈ partitions.flatten) (garbageId garbageSize : ℤ) :
    checkedBlock partitions = cosIssueBlock garbageId garbageSize partitions := by
  obtain ⟨id, size, isId, isSize⟩ := assigned_of_ten distinct ten
  rw [checkedBlock, cosIssueBlock, relocate, ← fill_findBlockVictims]
  simp only [isId, isSize, BlockVictims.fill, Option.getD_some, readVariable, ok_bind]

theorem checkedBlock_of_no_ten (absent : 10 ∉ partitions.flatten) :
    checkedBlock partitions = .error .unassigned := by
  rw [checkedBlock, unassigned_of_no_ten absent]
  rfl

end

/-! ## A cache without way 11 -/

section

variable {partitions : List Stack}

theorem stackAt_of_negative {id : ℤ} (negative : id < 0) :
    stackAt partitions id = .error .arrayBounds := by
  rw [stackAt, if_neg (not_le.mpr negative)]

theorem exchange_of_negative {large : ℕ} {largeStack : Stack} {kept small moved : ℤ}
    (isLarge : partitions[large]? = some largeStack) (negative : small < 0) :
    exchange partitions large kept small moved = .error .arrayBounds := by
  obtain ⟨within, -⟩ := List.getElem?_eq_some_iff.mp isLarge
  rw [exchange, stackAt_eq_ok isLarge, ok_bind]
  dsimp only
  rw [setStack_eq_ok within, ok_bind, stackAt_of_negative negative]
  rfl

theorem exchange_ne_ok {large kept small moved : ℤ} {result : List Stack} (negative : small < 0) :
    exchange partitions large kept small moved ≠ .ok result := by
  intro returned
  obtain ⟨clustParts, -, returned⟩ := bind_eq_ok_iff.mp returned
  obtain ⟨refilled, -, returned⟩ := bind_eq_ok_iff.mp returned
  rw [stackAt_of_negative negative] at returned
  cases returned

/-- A third stack that gives up its ways is given none back without a place of way 11. -/
theorem eq_of_useThird {victims : Victims} {list : List ℕ} {result : List Stack}
    (isId11 : victims.victimId_b11 = -1)
    (returned : useThird victims partitions list = .ok result) : result = partitions := by
  induction list with
  | nil => exact (Except.ok.inj returned).symm
  | cons a rest ih =>
      obtain ⟨stack, -, returned⟩ := bind_eq_ok_iff.mp returned
      split at returned
      · obtain ⟨⟨swap1, once⟩, -, returned⟩ := bind_eq_ok_iff.mp returned
        obtain ⟨⟨swap2, twice⟩, -, returned⟩ := bind_eq_ok_iff.mp returned
        obtain ⟨joined, -, returned⟩ := bind_eq_ok_iff.mp returned
        obtain ⟨stack10, -, returned⟩ := bind_eq_ok_iff.mp returned
        obtain ⟨⟨ten, single10⟩, -, returned⟩ := bind_eq_ok_iff.mp returned
        obtain ⟨swapped, -, returned⟩ := bind_eq_ok_iff.mp returned
        rw [isId11, stackAt_of_negative (by decide)] at returned
        cases returned
      · exact ih returned

/-- With no stack of two ways the search for a third one changes nothing. -/
theorem useThird_of_small {victims : Victims} {list : List ℕ}
    (within : ∀ a ∈ list, a < partitions.length)
    (small : ∀ stack ∈ partitions, stack.length ≤ 1) :
    useThird victims partitions list = .ok partitions := by
  induction list with
  | nil => rfl
  | cons a rest ih =>
      have inside := within a List.mem_cons_self
      have isSmall := small partitions[a] (List.getElem_mem inside)
      rw [useThird, stackAt_eq_ok (List.getElem?_eq_getElem inside), ok_bind, if_neg (by omega),
        ih fun other isLater => within other (List.mem_cons_of_mem a isLater)]

/-- With a stack of two ways it goes on to index with the place of way 11. -/
theorem useThird_of_large {victims : Victims} {id10 : ℕ} {list : List ℕ}
    (isId10 : victims.victimId_b10 = id10) (isId11 : victims.victimId_b11 = -1)
    (isTen : partitions[id10]? = some [10]) (within : ∀ a ∈ list, a < partitions.length)
    (large : ∃ a ∈ list, ∃ stack, partitions[a]? = some stack ∧ 2 ≤ stack.length) :
    useThird victims partitions list = .error .arrayBounds := by
  induction list with
  | nil =>
      obtain ⟨a, isMember, -⟩ := large
      cases isMember
  | cons a rest ih =>
      have inside := within a List.mem_cons_self
      have isStack : partitions[a]? = some partitions[a] := List.getElem?_eq_getElem inside
      by_cases gives : (a : ℤ) ≠ id10 ∧ (a : ℤ) ≠ -1 ∧ 2 ≤ partitions[a].length
      · obtain ⟨swap1, swap2, others, isLarge⟩ := exists_cons_cons_of_length gives.2.2
        rw [isLarge] at isStack
        rw [useThird_cons_of_large rest isStack isId10 isTen
          (fun same => gives.1 (congrArg Nat.cast same)) (by rw [isId11]; exact gives.2.1), isId11,
          stackAt_of_negative (by decide)]
        rfl
      · rw [useThird, stackAt_eq_ok isStack, ok_bind, isId10, isId11, if_neg gives]
        refine ih (fun other isLater => within other (List.mem_cons_of_mem a isLater)) ?_
        obtain ⟨other, isMember, stack, isOther, size⟩ := large
        rcases List.mem_cons.mp isMember with isHere | isLater
        · -- The stack was passed over although it is large, so it would be that of way 10.
          subst isHere
          rw [isStack] at isOther
          cases isOther
          have isTenStack : (other : ℤ) = id10 := by
            by_contra different
            exact gives ⟨different, by omega, size⟩
          rw [← Nat.cast_inj.mp isTenStack, isStack] at isTen
          rw [Option.some.inj isTen] at size
          exact absurd size (by decide)
        · exact ⟨other, isLater, stack, isOther, size⟩

/-- Without way 11 the workaround indexes outside the array precisely if a stack has two ways. -/
theorem relocate_without_eleven {garbageId garbageSize : ℤ} (distinct : partitions.flatten.Nodup)
    (ten : 10 ∈ partitions.flatten) (absent : 11 ∉ partitions.flatten) :
    relocate ⟨garbageId, -1, garbageSize, -1⟩ partitions =
      if ∀ stack ∈ partitions, stack.length ≤ 1 then .ok partitions else .error .arrayBounds := by
  obtain ⟨id10, stack10, isStack10, holds10, nodup10, found10⟩ :=
    exists_holder (.inl rfl) ⟨garbageId, -1, garbageSize, -1⟩ distinct ten
  have found11 := @holder_findVictims_of_absent partitions 11 (.inr rfl) absent
    ⟨garbageId, -1, garbageSize, -1⟩
  rw [Victims.holder, if_pos rfl, Prod.mk.injEq] at found10
  rw [Victims.holder, if_neg (by decide), Victims.holder, if_neg (by decide),
    Prod.mk.injEq] at found11
  obtain ⟨isId10, isSize10⟩ := found10
  obtain ⟨isId11, isSize11⟩ := found11
  dsimp only at isId11 isSize11
  rw [relocate, isId10, isId11, isSize10, isSize11, if_pos (by omega)]
  by_cases large10 : 1 < stack10.length
  · rw [if_pos (by exact_mod_cast large10), exchange_of_negative isStack10 (by decide), if_neg]
    exact fun small => absurd (small stack10 (List.mem_of_getElem? isStack10)) (not_le.mpr large10)
  · rw [if_neg (by exact_mod_cast large10), if_neg (by decide)]
    have withinRange : ∀ a ∈ List.range partitions.length, a < partitions.length :=
      fun a isMember => List.mem_range.mp isMember
    by_cases small : ∀ stack ∈ partitions, stack.length ≤ 1
    · rw [if_pos small, useThird_of_small withinRange small]
    · rw [if_neg small]
      rw [eq_singleton holds10 large10] at isStack10
      refine useThird_of_large isId10 isId11 isStack10 withinRange ?_
      obtain ⟨stack, notSmall⟩ := not_forall.mp small
      obtain ⟨isMember, large⟩ := Classical.not_imp.mp notSmall
      obtain ⟨a, isStack⟩ := List.mem_iff_getElem?.mp isMember
      obtain ⟨inside, -⟩ := List.getElem?_eq_some_iff.mp isStack
      exact ⟨a, List.mem_range.mpr inside, stack, isStack, not_le.mp large⟩

/-- Without way 11 the workaround returns nothing but what it was given. -/
theorem eq_of_relocate {garbageId garbageSize : ℤ} {result : List Stack}
    (absent : 11 ∉ partitions.flatten)
    (returned : relocate ⟨garbageId, -1, garbageSize, -1⟩ partitions = .ok result) :
    result = partitions := by
  have found11 := @holder_findVictims_of_absent partitions 11 (.inr rfl) absent
    ⟨garbageId, -1, garbageSize, -1⟩
  rw [Victims.holder, if_neg (by decide), Victims.holder, if_neg (by decide),
    Prod.mk.injEq] at found11
  obtain ⟨isId11, isSize11⟩ := found11
  dsimp only at isId11 isSize11
  rw [relocate, isId11, isSize11] at returned
  split at returned
  · split at returned
    · exact absurd returned (exchange_ne_ok (by decide))
    · rw [if_neg (by decide)] at returned
      exact eq_of_useThird isId11 returned
  · exact (Except.ok.inj returned).symm

theorem verifyIntelCosIssue_without_ten (noTen : 10 ∉ partitions.flatten)
    (noEleven : 11 ∉ partitions.flatten) : verifyIntelCosIssue partitions = .ok partitions := by
  have found10 := @holder_findVictims_of_absent partitions 10 (.inl rfl) noTen ⟨-1, -1, -1, -1⟩
  have found11 := @holder_findVictims_of_absent partitions 11 (.inr rfl) noEleven
    ⟨-1, -1, -1, -1⟩
  rw [Victims.holder, if_pos rfl, Victims.holder, if_pos rfl, Prod.mk.injEq] at found10
  rw [Victims.holder, if_neg (by decide), Victims.holder, if_neg (by decide),
    Prod.mk.injEq] at found11
  rw [verifyIntelCosIssue, relocate, found10.1, found11.1, if_neg (not_not_intro rfl)]

end

/-! ## Divisions of the ways -/

/-- Each way of the cache stands in one of the stacks. -/
def DividesWays (cacheNumWays : ℕ) (partitions : List Stack) : Prop :=
  partitions.flatten.Perm ((List.range cacheNumWays).map Nat.cast)

/-- A workaround indexes only stacks that exist, reads no variable without a value and assigns no
way outside the cache. It leaves a division without ways 10 and 11 as it is. -/
def StaysInside (cacheNumWays : ℕ) (workaround : List Stack → Except Misuse (List Stack))
    (partitions : List Stack) : Prop :=
  ∃ result, workaround partitions = .ok result ∧
    (∀ way ∈ result.flatten, 0 ≤ way ∧ way < cacheNumWays) ∧
    (¬ (10 ∈ partitions.flatten ∧ 11 ∈ partitions.flatten) → result = partitions)

section

variable {cacheNumWays : ℕ} {partitions : List Stack}
  {workaround : List Stack → Except Misuse (List Stack)}

theorem DividesWays.nodup (divides : DividesWays cacheNumWays partitions) :
    partitions.flatten.Nodup :=
  divides.nodup_iff.mpr ((List.nodup_range).map fun _ _ same => by exact_mod_cast same)

theorem DividesWays.mem_iff (divides : DividesWays cacheNumWays partitions) (way : ℤ) :
    way ∈ partitions.flatten ↔ 0 ≤ way ∧ way < cacheNumWays := by
  rw [List.Perm.mem_iff divides, List.mem_map]
  constructor
  · rintro ⟨index, isIndex, rfl⟩
    have below := List.mem_range.mp isIndex
    omega
  · rintro ⟨nonneg, below⟩
    exact ⟨way.toNat, List.mem_range.mpr (by omega), Int.toNat_of_nonneg nonneg⟩

theorem staysInside_of_unchanged (divides : DividesWays cacheNumWays partitions)
    (unchanged : workaround partitions = .ok partitions) :
    StaysInside cacheNumWays workaround partitions :=
  ⟨partitions, unchanged, fun way isWay => (divides.mem_iff way).mp isWay, fun _ => rfl⟩

theorem not_staysInside {misuse : Misuse} (stops : workaround partitions = .error misuse) :
    ¬ StaysInside cacheNumWays workaround partitions := by
  rintro ⟨result, isResult, -⟩
  cases stops.symm.trans isResult

theorem staysInside_of_settles (divides : DividesWays cacheNumWays partitions)
    (large : 12 ≤ cacheNumWays) (settles : SettlesIssue workaround partitions) :
    StaysInside cacheNumWays workaround partitions := by
  obtain ⟨result, isResult, ⟨same, -⟩, -⟩ := settles
  refine ⟨result, isResult, fun way isWay => (divides.mem_iff way).mp (same.mem_iff.mp isWay),
    fun missing => absurd ⟨?_, ?_⟩ missing⟩
  · exact (divides.mem_iff 10).mpr (by omega)
  · exact (divides.mem_iff 11).mpr (by omega)

theorem relocate_staysInside_iff (divides : DividesWays cacheNumWays partitions)
    (some_ten : 11 ≤ cacheNumWays) (garbageId garbageSize : ℤ) :
    StaysInside cacheNumWays (relocate ⟨garbageId, -1, garbageSize, -1⟩) partitions ↔
      cacheNumWays ≠ 11 ∨ ∀ stack ∈ partitions, stack.length ≤ 1 := by
  have ten : 10 ∈ partitions.flatten := (divides.mem_iff 10).mpr (by omega)
  by_cases isEleven : cacheNumWays = 11
  · have absent : 11 ∉ partitions.flatten := fun isWay => by
      have inside := (divides.mem_iff 11).mp isWay
      omega
    have stops := @relocate_without_eleven _ garbageId garbageSize divides.nodup ten absent
    by_cases small : ∀ stack ∈ partitions, stack.length ≤ 1
    · rw [if_pos small] at stops
      exact ⟨fun _ => .inr small, fun _ => staysInside_of_unchanged divides stops⟩
    · rw [if_neg small] at stops
      exact ⟨fun stays => absurd stays (not_staysInside stops),
        fun holds => absurd (holds.resolve_left (not_not_intro isEleven)) small⟩
  · refine ⟨fun _ => .inl isEleven, fun _ => staysInside_of_settles divides (by omega) ?_⟩
    exact relocate_settles _ divides.nodup ten ((divides.mem_iff 11).mpr (by omega))

theorem checkedBlock_staysInside_iff (divides : DividesWays cacheNumWays partitions) :
    StaysInside cacheNumWays checkedBlock partitions ↔
      12 ≤ cacheNumWays ∨ (cacheNumWays = 11 ∧ ∀ stack ∈ partitions, stack.length ≤ 1) := by
  by_cases some_ten : 11 ≤ cacheNumWays
  · have ten : 10 ∈ partitions.flatten := (divides.mem_iff 10).mpr (by omega)
    have same : StaysInside cacheNumWays checkedBlock partitions ↔
        StaysInside cacheNumWays (relocate ⟨0, -1, 0, -1⟩) partitions := by
      rw [StaysInside, StaysInside, checkedBlock_of_ten divides.nodup ten 0 0, cosIssueBlock]
    rw [same, relocate_staysInside_iff divides some_ten]
    constructor
    · rintro (notEleven | small)
      · exact .inl (by omega)
      · exact (Nat.lt_or_ge 11 cacheNumWays).imp id fun few => ⟨by omega, small⟩
    · rintro (large | ⟨-, small⟩)
      · exact .inl (by omega)
      · exact .inr small
  · have absent : 10 ∉ partitions.flatten := fun isWay => by
      have inside := (divides.mem_iff 10).mp isWay
      omega
    exact ⟨fun stays => absurd stays (not_staysInside (checkedBlock_of_no_ten absent)),
      fun holds => by omega⟩

theorem verifyIntelCosIssue_staysInside_iff (divides : DividesWays cacheNumWays partitions) :
    StaysInside cacheNumWays verifyIntelCosIssue partitions ↔
      cacheNumWays ≠ 11 ∨ ∀ stack ∈ partitions, stack.length ≤ 1 := by
  by_cases some_ten : 11 ≤ cacheNumWays
  · exact relocate_staysInside_iff divides some_ten (-1) (-1)
  · refine ⟨fun _ => .inl (by omega), fun _ => staysInside_of_unchanged divides ?_⟩
    refine verifyIntelCosIssue_without_ten (fun isWay => ?_) fun isWay => ?_
    · have inside := (divides.mem_iff 10).mp isWay
      omega
    · have inside := (divides.mem_iff 11).mp isWay
      omega

end

/-- The blocks need 12 ways, the function needs any number but 11. With 11 ways both are right
only for stacks of one way. -/
theorem workarounds_stayInside_iff {cacheNumWays : ℕ} {partitions : List Stack}
    (divides : DividesWays cacheNumWays partitions) :
    (StaysInside cacheNumWays checkedBlock partitions ↔
      12 ≤ cacheNumWays ∨ (cacheNumWays = 11 ∧ ∀ stack ∈ partitions, stack.length ≤ 1)) ∧
    (StaysInside cacheNumWays verifyIntelCosIssue partitions ↔
      cacheNumWays ≠ 11 ∨ ∀ stack ∈ partitions, stack.length ≤ 1) :=
  ⟨checkedBlock_staysInside_iff divides, verifyIntelCosIssue_staysInside_iff divides⟩

/-- Eight ways for two applications. -/
def eightWays : List Stack := [[3, 2, 1, 0], [7, 6, 5, 4]]

/-- Eleven ways for two applications. -/
def elevenWays : List Stack := [[5, 4, 3, 2, 1, 0], [10, 9, 8, 7, 6]]

theorem eightWays_stayInside_iff :
    (StaysInside 8 checkedBlock eightWays ↔
      12 ≤ 8 ∨ (8 = 11 ∧ ∀ stack ∈ eightWays, stack.length ≤ 1)) ∧
    (StaysInside 8 verifyIntelCosIssue eightWays ↔
      8 ≠ 11 ∨ ∀ stack ∈ eightWays, stack.length ≤ 1) :=
  workarounds_stayInside_iff (by unfold DividesWays; decide)

/-- The block reads a variable without a value, and block and function index with -1. -/
theorem few_ways_leave_bounds :
    DividesWays 8 eightWays ∧ checkedBlock eightWays = .error .unassigned ∧
      ¬ StaysInside 8 checkedBlock eightWays ∧
      DividesWays 11 elevenWays ∧ checkedBlock elevenWays = .error .arrayBounds ∧
      verifyIntelCosIssue elevenWays = .error .arrayBounds ∧
      ¬ StaysInside 11 checkedBlock elevenWays ∧
      ¬ StaysInside 11 verifyIntelCosIssue elevenWays := by
  have block8 : checkedBlock eightWays = .error .unassigned := by decide
  have block11 : checkedBlock elevenWays = .error .arrayBounds := by decide
  have function11 : verifyIntelCosIssue elevenWays = .error .arrayBounds := by decide
  exact ⟨by unfold DividesWays; decide, block8, not_staysInside block8,
    by unfold DividesWays; decide, block11, function11, not_staysInside block11,
    not_staysInside function11⟩

end Datamime.CacheUtils
