/-
# Ways 10 and 11 in one partition

Intel's cache allocation needs ways 10 and 11 in the same class of service. The
workaround exchanges ways between the stacks that hold the two. It stands as a
function of its own, and as a block in each of the two allocation functions. The
blocks differ from the function in their variables for way 10, which start
without a value.
-/

import Datamime.CacheUtils.Stacks

namespace Datamime.CacheUtils

/-- The stacks that hold ways 10 and 11, and their sizes. -/
structure Victims where
  victimId_b10 : ℤ
  victimId_b11 : ℤ
  victimPartSize_b10 : ℤ
  victimPartSize_b11 : ℤ

/-- One way of stack `a`, which has the given size. -/
def Victims.visit (victims : Victims) (a size : ℕ) (buckID : ℤ) : Victims :=
  let victims :=
    if buckID = 10 then { victims with victimId_b10 := a, victimPartSize_b10 := size } else victims
  if buckID = 11 then { victims with victimId_b11 := a, victimPartSize_b11 := size } else victims

/-- The search for the two ways. -/
def findVictims (start : Victims) (partitions : List Stack) : Victims :=
  partitions.zipIdx.foldl
    (fun victims (clustParts, a) =>
      clustParts.foldl (fun victims buckID => victims.visit a clustParts.length buckID) victims)
    start

/-- The loop that refills a stack with its ways except the first, from the top, that
is not `kept`. -/
def takeOutLoop (kept swapMe : ℤ) (notFound : Bool) (stack : Stack) : Stack → ℤ × Stack
  | [] => (swapMe, stack)
  | buckID :: rest =>
      if buckID ≠ kept ∧ notFound then takeOutLoop kept buckID false stack rest
      else takeOutLoop kept swapMe notFound (buckID :: stack) rest

/-- `swapMe` and the refilled stack. -/
def takeOut (kept : ℤ) (clustParts : Stack) : ℤ × Stack :=
  takeOutLoop kept (-1) true [] clustParts

/-- Refill a stack with its ways except `dropped`. -/
def dropWay (dropped : ℤ) (clustParts : Stack) : Stack :=
  clustParts.foldl (fun stack buckID => if buckID ≠ dropped then buckID :: stack else stack) []

/-- Bring `moved` from one stack into a larger one that holds `kept`, in exchange. -/
def exchange (partitions : List Stack) (large : ℤ) (kept : ℤ) (small : ℤ) (moved : ℤ) :
    Except Misuse (List Stack) := do
  let clustParts ← stackAt partitions large
  let (swapMe, stack) := takeOut kept clustParts
  let partitions ← setStack partitions large (moved :: stack)
  let clustParts ← stackAt partitions small
  setStack partitions small (swapMe :: dropWay moved clustParts)

/-- The first other stack with two ways gives them up for 10 and 11. -/
def useThird (victims : Victims) (partitions : List Stack) : List ℕ → Except Misuse (List Stack)
  | [] => .ok partitions
  | a :: rest => do
      let stack ← stackAt partitions a
      if a ≠ victims.victimId_b10 ∧ a ≠ victims.victimId_b11 ∧ 2 ≤ stack.length then
        let (swap1, stack) ← pop stack
        let (swap2, stack) ← pop stack
        let partitions ← setStack partitions a (11 :: 10 :: stack)
        let (_, single10) ← pop (← stackAt partitions victims.victimId_b10)
        let partitions ← setStack partitions victims.victimId_b10 (swap1 :: single10)
        let (_, single11) ← pop (← stackAt partitions victims.victimId_b11)
        setStack partitions victims.victimId_b11 (swap2 :: single11)
      else useThird victims partitions rest

/-- The workaround, from the values that the variables start with. -/
def relocate (start : Victims) (partitions : List Stack) : Except Misuse (List Stack) :=
  let victims := findVictims start partitions
  if victims.victimId_b10 ≠ victims.victimId_b11 then
    if 1 < victims.victimPartSize_b10 then
      exchange partitions victims.victimId_b10 10 victims.victimId_b11 11
    else if 1 < victims.victimPartSize_b11 then
      exchange partitions victims.victimId_b11 11 victims.victimId_b10 10
    else useThird victims partitions (List.range partitions.length)
  else .ok partitions

/-- `verify_intel_cos_issue`. -/
def verifyIntelCosIssue (partitions : List Stack) : Except Misuse (List Stack) :=
  relocate ⟨-1, -1, -1, -1⟩ partitions

/-- The block in `do_ucp_mrcs` and `do_ucp_ipcs`. Two of its variables start with
whatever memory holds. -/
def cosIssueBlock (garbageId garbageSize : ℤ) (partitions : List Stack) :
    Except Misuse (List Stack) :=
  relocate ⟨garbageId, -1, garbageSize, -1⟩ partitions

/-! ## The search -/

/-- The stack and size noted for way 10 or for way 11. -/
def Victims.holder (victims : Victims) (way : ℤ) : ℤ × ℤ :=
  if way = 10 then (victims.victimId_b10, victims.victimPartSize_b10)
  else (victims.victimId_b11, victims.victimPartSize_b11)

section

variable {way : ℤ} {victims : Victims} {partitions : List Stack}

theorem holder_visit (isWay : way = 10 ∨ way = 11) (victims : Victims) (a size : ℕ) (buckID : ℤ) :
    (victims.visit a size buckID).holder way =
      if buckID = way then ((a : ℤ), (size : ℤ)) else victims.holder way := by
  by_cases isTen : buckID = 10
  · subst isTen
    rcases isWay with rfl | rfl <;> simp [Victims.visit, Victims.holder]
  · by_cases isEleven : buckID = 11
    · subst isEleven
      rcases isWay with rfl | rfl <;> simp [Victims.visit, Victims.holder]
    · rcases isWay with rfl | rfl <;> simp [Victims.visit, Victims.holder, isTen, isEleven]

theorem holder_visitAll (isWay : way = 10 ∨ way = 11) (victims : Victims) (a size : ℕ)
    (stack : Stack) :
    (stack.foldl (fun victims buckID => victims.visit a size buckID) victims).holder way =
      if way ∈ stack then ((a : ℤ), (size : ℤ)) else victims.holder way := by
  induction stack generalizing victims with
  | nil => rw [List.foldl_nil, if_neg List.not_mem_nil]
  | cons buckID rest ih =>
      rw [List.foldl_cons, ih, holder_visit isWay]
      by_cases later : way ∈ rest
      · rw [if_pos later, if_pos (List.mem_cons_of_mem buckID later)]
      · rw [if_neg later]
        by_cases here : buckID = way
        · rw [if_pos here, if_pos (here ▸ List.mem_cons_self)]
        · rw [if_neg here, if_neg]
          intro isMember
          rcases List.mem_cons.mp isMember with isHead | isLater
          · exact here isHead.symm
          · exact later isLater

/-- Stacks without the way leave what is noted for it. -/
theorem holder_of_absent (isWay : way = 10 ∨ way = 11) {list : List (Stack × ℕ)}
    (absent : ∀ entry ∈ list, way ∉ entry.1) (victims : Victims) :
    (list.foldl
      (fun victims (clustParts, a) =>
        clustParts.foldl (fun victims buckID => victims.visit a clustParts.length buckID) victims)
      victims).holder way = victims.holder way := by
  induction list generalizing victims with
  | nil => rfl
  | cons entry rest ih =>
      rw [List.foldl_cons, ih fun other isLater => absent other (List.mem_cons_of_mem _ isLater),
        holder_visitAll isWay, if_neg (absent entry List.mem_cons_self)]

/-- The search notes the last stack that holds the way. -/
theorem holder_findVictims (isWay : way = 10 ∨ way = 11) (start : Victims)
    {before after : List Stack} {stack : Stack} (isMember : way ∈ stack)
    (notAfter : way ∉ after.flatten) :
    (findVictims start (before ++ stack :: after)).holder way =
      ((before.length : ℤ), (stack.length : ℤ)) := by
  have absent : ∀ {list : List Stack} {offset : ℕ}, way ∉ list.flatten →
      ∀ entry ∈ list.zipIdx offset, way ∉ entry.1 := by
    intro list offset notListed entry isEntry holds
    exact notListed (List.mem_flatten_of_mem (List.fst_mem_of_mem_zipIdx isEntry) holds)
  rw [findVictims, List.zipIdx_append, List.zipIdx_cons, List.foldl_append, List.foldl_cons,
    holder_of_absent isWay (absent notAfter), holder_visitAll isWay, if_pos isMember, Nat.zero_add]

/-- The only stack with a way, as the search finds it. -/
theorem exists_holder (isWay : way = 10 ∨ way = 11) (start : Victims)
    (distinct : partitions.flatten.Nodup) (isMember : way ∈ partitions.flatten) :
    ∃ (id : ℕ) (stack : Stack), partitions[id]? = some stack ∧ way ∈ stack ∧ stack.Nodup ∧
      (findVictims start partitions).holder way = ((id : ℤ), (stack.length : ℤ)) := by
  obtain ⟨stack, isStack, holds⟩ := List.mem_flatten.mp isMember
  obtain ⟨before, after, rfl⟩ := List.append_of_mem isStack
  rw [List.flatten_append, List.flatten_cons, List.nodup_append', List.nodup_append'] at distinct
  obtain ⟨-, ⟨own, -, apart⟩, -⟩ := distinct
  have notAfter : way ∉ after.flatten := fun isAfter => apart holds isAfter
  refine ⟨before.length, stack, ?_, holds, own, holder_findVictims isWay start holds notAfter⟩
  rw [List.getElem?_append_right (le_refl _), Nat.sub_self, List.getElem?_cons_zero]

end

/-! ## Refilled stacks -/

theorem takeOutLoop_found (kept swapMe : ℤ) (stack rest : Stack) :
    takeOutLoop kept swapMe false stack rest = (swapMe, rest.reverse ++ stack) := by
  induction rest generalizing stack with
  | nil => rfl
  | cons buckID rest ih =>
      rw [takeOutLoop, if_neg (by simp), ih, List.reverse_cons, List.append_assoc]
      rfl

/-- One way other than `kept` is taken out and the others stay. -/
theorem perm_takeOutLoop {kept swapMe : ℤ} {stack rest : Stack}
    (another : ∃ way ∈ rest, way ≠ kept) :
    (takeOutLoop kept swapMe true stack rest).1 ≠ kept ∧
      ((takeOutLoop kept swapMe true stack rest).1 ::
        (takeOutLoop kept swapMe true stack rest).2).Perm (rest ++ stack) := by
  induction rest generalizing stack with
  | nil =>
      obtain ⟨way, isMember, -⟩ := another
      cases isMember
  | cons buckID rest ih =>
      rw [takeOutLoop]
      by_cases isKept : buckID = kept
      · rw [if_neg fun taken => taken.1 isKept]
        have later : ∃ way ∈ rest, way ≠ kept := by
          obtain ⟨way, isMember, isOther⟩ := another
          rcases List.mem_cons.mp isMember with isHead | isLater
          · exact absurd (isHead.trans isKept) isOther
          · exact ⟨way, isLater, isOther⟩
        obtain ⟨different, same⟩ := @ih (buckID :: stack) later
        exact ⟨different, same.trans List.perm_middle⟩
      · rw [if_pos ⟨isKept, rfl⟩, takeOutLoop_found]
        exact ⟨isKept, ((List.reverse_perm rest).append_right stack).cons buckID⟩

theorem perm_takeOut {kept : ℤ} {stack : Stack} (another : ∃ way ∈ stack, way ≠ kept) :
    (takeOut kept stack).1 ≠ kept ∧
      ((takeOut kept stack).1 :: (takeOut kept stack).2).Perm stack := by
  have taken := @perm_takeOutLoop kept (-1) [] stack another
  rwa [List.append_nil] at taken

theorem dropWay_eq (dropped : ℤ) (stack : Stack) :
    dropWay dropped stack = (stack.filter (· ≠ dropped)).reverse := by
  suffices general : ∀ filled : Stack,
      stack.foldl (fun stack buckID => if buckID ≠ dropped then buckID :: stack else stack) filled =
        (stack.filter (· ≠ dropped)).reverse ++ filled by
    have whole := general []
    rwa [List.append_nil] at whole
  induction stack with
  | nil => exact fun _ => rfl
  | cons buckID rest ih =>
      intro filled
      rw [List.foldl_cons, ih]
      by_cases isDropped : buckID = dropped
      · simp [isDropped]
      · simp [isDropped]

/-- Dropping a way and putting it back leaves the same ways. -/
theorem perm_dropWay {dropped : ℤ} {stack : Stack} (distinct : stack.Nodup)
    (isMember : dropped ∈ stack) : (dropped :: dropWay dropped stack).Perm stack := by
  have erased : stack.filter (· ≠ dropped) = stack.erase dropped := by
    rw [distinct.erase_eq_filter]
    refine List.filter_congr fun way _ => ?_
    by_cases same : way = dropped
    · simp [same]
    · simp [same]
  rw [dropWay_eq, erased]
  exact ((List.reverse_perm _).cons dropped).trans (List.perm_cons_erase isMember).symm

/-! ## Replaced stacks -/

/-- Replacing a stack changes the number of each way by what the two stacks differ in. -/
theorem count_flatten_set {partitions : List Stack} {id : ℕ} {old : Stack}
    (isStack : partitions[id]? = some old) (new : Stack) (way : ℤ) :
    (partitions.set id new).flatten.count way + old.count way =
      partitions.flatten.count way + new.count way := by
  induction partitions generalizing id with
  | nil => cases isStack
  | cons stack rest ih =>
      cases id with
      | zero =>
          cases isStack
          rw [List.set_cons_zero, List.flatten_cons, List.flatten_cons, List.count_append,
            List.count_append]
          omega
      | succ id =>
          have later := ih isStack
          rw [List.set_cons_succ, List.flatten_cons, List.flatten_cons, List.count_append,
            List.count_append]
          omega

theorem map_length_set {partitions : List Stack} {id : ℕ} {old new : Stack}
    (isStack : partitions[id]? = some old) (sameSize : new.length = old.length) :
    (partitions.set id new).map List.length = partitions.map List.length := by
  rw [List.map_set, sameSize]
  have isSize : (partitions.map List.length)[id]? = some old.length := by
    rw [List.getElem?_map, isStack]
    rfl
  obtain ⟨within, isEntry⟩ := List.getElem?_eq_some_iff.mp isSize
  rw [← isEntry]
  exact List.set_getElem_self within

/-! ## The exchanges -/

/-- The same ways, in stacks of the same sizes. -/
def Rearranges (before after : List Stack) : Prop :=
  after.flatten.Perm before.flatten ∧ after.map List.length = before.map List.length

/-- Some stack holds both ways. -/
def Together (partitions : List Stack) : Prop := ∃ stack ∈ partitions, 10 ∈ stack ∧ 11 ∈ stack

section

variable {partitions : List Stack} {large small : ℕ} {largeStack smallStack : Stack}

theorem getElem?_set_other {id other : ℕ} {stack : Stack}
    (isStack : partitions[other]? = some stack) (different : id ≠ other) (new : Stack) :
    (partitions.set id new)[other]? = some stack := by
  rw [List.getElem?_set_ne different, isStack]

theorem exists_exchange {kept moved : ℤ} (isLarge : partitions[large]? = some largeStack)
    (isSmall : partitions[small]? = some smallStack) (different : large ≠ small)
    (keeps : kept ∈ largeStack) (another : ∃ way ∈ largeStack, way ≠ kept)
    (distinct : smallStack.Nodup) (moves : moved ∈ smallStack) :
    ∃ result, exchange partitions large kept small moved = .ok result ∧
      Rearranges partitions result ∧ ∃ stack ∈ result, kept ∈ stack ∧ moved ∈ stack := by
  obtain ⟨swapped, same⟩ := perm_takeOut another
  rcases isTaken : takeOut kept largeStack with ⟨swapMe, rest⟩
  rw [isTaken] at swapped same
  dsimp only at swapped same
  have dropped := perm_dropWay distinct moves
  obtain ⟨withinLarge, -⟩ := List.getElem?_eq_some_iff.mp isLarge
  obtain ⟨withinSmall, -⟩ := List.getElem?_eq_some_iff.mp isSmall
  have isSmallStill := getElem?_set_other isSmall different (moved :: rest)
  refine ⟨(partitions.set large (moved :: rest)).set small (swapMe :: dropWay moved smallStack),
    ?_, ⟨?_, ?_⟩, moved :: rest, ?_, ?_, List.mem_cons_self⟩
  · rw [exchange, stackAt_eq_ok isLarge, ok_bind, isTaken]
    dsimp only
    rw [setStack_eq_ok withinLarge, ok_bind, stackAt_eq_ok isSmallStill, ok_bind,
      setStack_eq_ok (by rwa [List.length_set])]
  · refine List.perm_iff_count.mpr fun way => ?_
    have first := count_flatten_set isLarge (moved :: rest) way
    have second := count_flatten_set isSmallStill (swapMe :: dropWay moved smallStack) way
    have sameLarge := same.count_eq way
    have sameSmall := dropped.count_eq way
    rw [List.count_cons] at first second sameLarge sameSmall
    omega
  · have sameLarge : (moved :: rest).length = largeStack.length := same.length_eq
    have sameSmall : (swapMe :: dropWay moved smallStack).length = smallStack.length :=
      dropped.length_eq
    exact (map_length_set isSmallStill sameSmall).trans (map_length_set isLarge sameLarge)
  · refine @List.mem_of_getElem? _ _ large _ ?_
    rw [List.getElem?_set_ne different.symm, List.getElem?_set_self withinLarge]
  · apply List.mem_cons_of_mem
    rcases List.mem_cons.mp (same.mem_iff.mpr keeps) with isSwapped | stays
    · exact absurd isSwapped.symm swapped
    · exact stays

/-- A stack of two ways takes 10 and 11, and the stack of way 10 is given the first of the two. -/
theorem useThird_cons_of_large {victims : Victims} {a id10 : ℕ} {swap1 swap2 : ℤ}
    {others : Stack} (rest : List ℕ) (isStack : partitions[a]? = some (swap1 :: swap2 :: others))
    (isId10 : victims.victimId_b10 = id10) (isTen : partitions[id10]? = some [10])
    (notTen : a ≠ id10) (notEleven : (a : ℤ) ≠ victims.victimId_b11) :
    useThird victims partitions (a :: rest) = (do
      let (_, single11) ← pop (← stackAt
        ((partitions.set a (11 :: 10 :: others)).set id10 [swap1]) victims.victimId_b11)
      setStack ((partitions.set a (11 :: 10 :: others)).set id10 [swap1]) victims.victimId_b11
        (swap2 :: single11)) := by
  obtain ⟨withinA, -⟩ := List.getElem?_eq_some_iff.mp isStack
  obtain ⟨within10, -⟩ := List.getElem?_eq_some_iff.mp isTen
  have isTenStill := getElem?_set_other isTen notTen (11 :: 10 :: others)
  have gives : (a : ℤ) ≠ victims.victimId_b10 ∧ (a : ℤ) ≠ victims.victimId_b11 ∧
      2 ≤ (swap1 :: swap2 :: others).length :=
    ⟨fun same => notTen (Nat.cast_inj.mp (same.trans isId10)), notEleven, by simp⟩
  rw [useThird, stackAt_eq_ok isStack, ok_bind, if_pos gives, isId10, pop, ok_bind]
  dsimp only
  rw [pop, ok_bind]
  dsimp only
  rw [setStack_eq_ok withinA, ok_bind, stackAt_eq_ok isTenStill, ok_bind, pop, ok_bind]
  dsimp only
  rw [setStack_eq_ok (by rwa [List.length_set]), ok_bind]

/-- The exchange with a third stack. -/
theorem exists_useThird_of_large {victims : Victims} {a id10 id11 : ℕ} {swap1 swap2 : ℤ}
    {others : Stack} (rest : List ℕ) (isStack : partitions[a]? = some (swap1 :: swap2 :: others))
    (isId10 : victims.victimId_b10 = id10) (isId11 : victims.victimId_b11 = id11)
    (different : id10 ≠ id11) (isTen : partitions[id10]? = some [10])
    (isEleven : partitions[id11]? = some [11]) (notTen : a ≠ id10) (notEleven : a ≠ id11) :
    ∃ result, useThird victims partitions (a :: rest) = .ok result ∧
      Rearranges partitions result ∧ Together result := by
  obtain ⟨withinA, -⟩ := List.getElem?_eq_some_iff.mp isStack
  obtain ⟨within11, -⟩ := List.getElem?_eq_some_iff.mp isEleven
  have isTenStill := getElem?_set_other isTen notTen (11 :: 10 :: others)
  have isElevenStill := getElem?_set_other
    (getElem?_set_other isEleven notEleven (11 :: 10 :: others)) different [swap1]
  refine ⟨((partitions.set a (11 :: 10 :: others)).set id10 [swap1]).set id11 [swap2],
    ?_, ⟨?_, ?_⟩, 11 :: 10 :: others, ?_, by simp, by simp⟩
  · rw [useThird_cons_of_large rest isStack isId10 isTen notTen
      (by rw [isId11]; exact_mod_cast notEleven), isId11, stackAt_eq_ok isElevenStill, ok_bind,
      pop, ok_bind]
    dsimp only
    rw [setStack_eq_ok (by rwa [List.length_set, List.length_set])]
  · refine List.perm_iff_count.mpr fun way => ?_
    have first := count_flatten_set isStack (11 :: 10 :: others) way
    have second := count_flatten_set isTenStill [swap1] way
    have third := count_flatten_set isElevenStill [swap2] way
    simp only [List.count_cons, List.count_nil] at first second third
    omega
  · have third := map_length_set isElevenStill (show [swap2].length = [11].length from rfl)
    have second := map_length_set isTenStill (show [swap1].length = [10].length from rfl)
    have first := map_length_set isStack
      (show (11 :: 10 :: others).length = (swap1 :: swap2 :: others).length from rfl)
    exact third.trans (second.trans first)
  · refine @List.mem_of_getElem? _ _ a _ ?_
    rw [List.getElem?_set_ne notEleven.symm, List.getElem?_set_ne notTen.symm,
      List.getElem?_set_self withinA]

theorem exists_cons_cons_of_length {stack : Stack} (large : 2 ≤ stack.length) :
    ∃ swap1 swap2 others, stack = swap1 :: swap2 :: others := by
  match stack, large with
  | swap1 :: swap2 :: others, _ => exact ⟨swap1, swap2, others, rfl⟩

theorem exists_useThird {victims : Victims} {id10 id11 : ℕ} {list : List ℕ}
    (isId10 : victims.victimId_b10 = id10) (isId11 : victims.victimId_b11 = id11)
    (different : id10 ≠ id11) (isTen : partitions[id10]? = some [10])
    (isEleven : partitions[id11]? = some [11]) (within : ∀ a ∈ list, a < partitions.length) :
    ∃ result, useThird victims partitions list = .ok result ∧ Rearranges partitions result ∧
      ((∃ a ∈ list, ∃ stack, partitions[a]? = some stack ∧ 2 ≤ stack.length) →
        Together result) := by
  induction list with
  | nil =>
      refine ⟨partitions, rfl, ⟨List.Perm.refl _, rfl⟩, ?_⟩
      rintro ⟨a, isMember, -⟩
      cases isMember
  | cons a rest ih =>
      obtain ⟨stack, isStack⟩ : ∃ stack, partitions[a]? = some stack :=
        ⟨_, List.getElem?_eq_getElem (within a List.mem_cons_self)⟩
      by_cases gives : (a : ℤ) ≠ victims.victimId_b10 ∧ (a : ℤ) ≠ victims.victimId_b11 ∧
          2 ≤ stack.length
      · obtain ⟨swap1, swap2, others, rfl⟩ := exists_cons_cons_of_length gives.2.2
        rw [isId10, isId11] at gives
        obtain ⟨result, isResult, rearranged, together⟩ :=
          exists_useThird_of_large rest isStack isId10 isId11 different isTen isEleven
            (fun same => gives.1 (congrArg Nat.cast same))
            fun same => gives.2.1 (congrArg Nat.cast same)
        exact ⟨result, isResult, rearranged, fun _ => together⟩
      · rw [useThird, stackAt_eq_ok isStack, ok_bind, if_neg gives]
        obtain ⟨result, isResult, rearranged, together⟩ :=
          ih fun other isLater => within other (List.mem_cons_of_mem a isLater)
        refine ⟨result, isResult, rearranged, ?_⟩
        rintro ⟨other, isMember, large, isLarge, size⟩
        rcases List.mem_cons.mp isMember with isHere | isLater
        · -- The stack was passed over, so it would hold way 10 or way 11 alone.
          subst isHere
          rw [isLarge] at isStack
          cases isStack
          exfalso
          apply gives
          rw [isId10, isId11]
          refine ⟨fun same => ?_, fun same => ?_, size⟩
          · rw [Nat.cast_inj.mp same, isTen] at isLarge
            cases isLarge
            exact absurd size (by decide)
          · rw [Nat.cast_inj.mp same, isEleven] at isLarge
            cases isLarge
            exact absurd size (by decide)
        · exact together ⟨other, isLater, large, isLarge, size⟩

end

/-! ## The workaround -/

/-- What the workaround does with a division of some ways. -/
def SettlesIssue (workaround : List Stack → Except Misuse (List Stack))
    (partitions : List Stack) : Prop :=
  ∃ result, workaround partitions = .ok result ∧ Rearranges partitions result ∧
    ((∃ stack ∈ partitions, 2 ≤ stack.length) → Together result) ∧
    (Together partitions → result = partitions)

theorem exists_other {way : ℤ} {stack : Stack} (distinct : stack.Nodup) (large : 1 < stack.length) :
    ∃ other ∈ stack, other ≠ way := by
  match stack, large with
  | first :: second :: rest, _ =>
      by_cases isFirst : first = way
      · refine ⟨second, by simp, fun isSecond => ?_⟩
        rw [isFirst, isSecond] at distinct
        exact (List.nodup_cons.mp distinct).1 List.mem_cons_self
      · exact ⟨first, by simp, isFirst⟩

theorem eq_singleton {way : ℤ} {stack : Stack} (isMember : way ∈ stack)
    (small : ¬ 1 < stack.length) : stack = [way] := by
  match stack, isMember, small with
  | [single], isMember, _ => rw [List.mem_singleton.mp isMember]
  | _ :: _ :: _, _, small => exact absurd (by simp) small

/-- A way stands in one stack only. -/
theorem index_unique {partitions : List Stack} {way : ℤ} {first second : ℕ} {one other : Stack}
    (distinct : partitions.flatten.Nodup) (isFirst : partitions[first]? = some one)
    (inFirst : way ∈ one) (isSecond : partitions[second]? = some other) (inSecond : way ∈ other) :
    first = second := by
  by_contra different
  have apart := (List.nodup_flatten.mp distinct).2
  obtain ⟨within, rfl⟩ := List.getElem?_eq_some_iff.mp isFirst
  obtain ⟨withinOther, rfl⟩ := List.getElem?_eq_some_iff.mp isSecond
  rcases Nat.lt_or_gt_of_ne different with less | more
  · exact List.pairwise_iff_getElem.mp apart first second within withinOther less inFirst inSecond
  · exact List.pairwise_iff_getElem.mp apart second first withinOther within more inSecond inFirst

theorem relocate_settles (start : Victims) {partitions : List Stack}
    (distinct : partitions.flatten.Nodup) (ten : 10 ∈ partitions.flatten)
    (eleven : 11 ∈ partitions.flatten) : SettlesIssue (relocate start) partitions := by
  obtain ⟨id10, stack10, isStack10, holds10, nodup10, found10⟩ :=
    exists_holder (.inl rfl) start distinct ten
  obtain ⟨id11, stack11, isStack11, holds11, nodup11, found11⟩ :=
    exists_holder (.inr rfl) start distinct eleven
  rw [Victims.holder, if_pos rfl, Prod.mk.injEq] at found10
  rw [Victims.holder, if_neg (by decide), Prod.mk.injEq] at found11
  obtain ⟨isId10, isSize10⟩ := found10
  obtain ⟨isId11, isSize11⟩ := found11
  by_cases together : id10 = id11
  · refine ⟨partitions, ?_, ⟨List.Perm.refl _, rfl⟩, fun _ => ?_, fun _ => rfl⟩
    · rw [relocate, isId10, isId11, together, if_neg (not_not_intro rfl)]
    · subst together
      rw [isStack10] at isStack11
      cases isStack11
      exact ⟨stack10, List.mem_of_getElem? isStack10, holds10, holds11⟩
  · have apart : ((id10 : ℕ) : ℤ) ≠ id11 := fun same => together (Nat.cast_inj.mp same)
    have notTogether : ¬ Together partitions := by
      rintro ⟨stack, isMember, has10, has11⟩
      obtain ⟨id, isStack⟩ := List.mem_iff_getElem?.mp isMember
      exact together ((index_unique distinct isStack10 holds10 isStack has10).trans
        (index_unique distinct isStack has11 isStack11 holds11))
    by_cases large10 : 1 < stack10.length
    · obtain ⟨result, isResult, rearranged, stack, isMember, has10, has11⟩ :=
        exists_exchange isStack10 isStack11 together holds10 (exists_other nodup10 large10) nodup11
          holds11
      refine ⟨result, ?_, rearranged, fun _ => ⟨stack, isMember, has10, has11⟩,
        fun already => absurd already notTogether⟩
      rw [relocate, isId10, isId11, isSize10, if_pos apart, if_pos (by exact_mod_cast large10),
        isResult]
    · by_cases large11 : 1 < stack11.length
      · obtain ⟨result, isResult, rearranged, stack, isMember, has11, has10⟩ :=
          exists_exchange isStack11 isStack10 (Ne.symm together) holds11
            (exists_other nodup11 large11) nodup10 holds10
        refine ⟨result, ?_, rearranged, fun _ => ⟨stack, isMember, has10, has11⟩,
          fun already => absurd already notTogether⟩
        rw [relocate, isId10, isId11, isSize10, isSize11, if_pos apart,
          if_neg (by exact_mod_cast large10), if_pos (by exact_mod_cast large11), isResult]
      · rw [eq_singleton holds10 large10] at isStack10
        rw [eq_singleton holds11 large11] at isStack11
        obtain ⟨result, isResult, rearranged, joins⟩ :=
          @exists_useThird partitions (findVictims start partitions) id10 id11
            (List.range partitions.length) isId10 isId11 together isStack10 isStack11
            fun a isMember => List.mem_range.mp isMember
        refine ⟨result, ?_, rearranged, ?_, fun already => absurd already notTogether⟩
        · rw [relocate, isId10, isId11, isSize10, isSize11, if_pos apart,
            if_neg (by exact_mod_cast large10), if_neg (by exact_mod_cast large11), isResult]
        · rintro ⟨stack, isMember, large⟩
          obtain ⟨id, isStack⟩ := List.mem_iff_getElem?.mp isMember
          obtain ⟨within, -⟩ := List.getElem?_eq_some_iff.mp isStack
          exact joins ⟨id, List.mem_range.mpr within, stack, isStack, large⟩

/-- The function and the blocks keep the ways and the sizes of the stacks, and bring ways 10
and 11 together whenever a stack is large enough. -/
theorem cosIssue_settled {partitions : List Stack} (distinct : partitions.flatten.Nodup)
    (ten : 10 ∈ partitions.flatten) (eleven : 11 ∈ partitions.flatten) :
    SettlesIssue verifyIntelCosIssue partitions ∧
      ∀ garbageId garbageSize, SettlesIssue (cosIssueBlock garbageId garbageSize) partitions :=
  ⟨relocate_settles ⟨-1, -1, -1, -1⟩ distinct ten eleven,
    fun garbageId garbageSize =>
      relocate_settles ⟨garbageId, -1, garbageSize, -1⟩ distinct ten eleven⟩

theorem cosIssue_settled_singletons :
    SettlesIssue verifyIntelCosIssue [[10], [11], [3, 4, 5]] ∧
      ∀ garbageId garbageSize,
        SettlesIssue (cosIssueBlock garbageId garbageSize) [[10], [11], [3, 4, 5]] :=
  cosIssue_settled (by decide) (by decide) (by decide)

end Datamime.CacheUtils
