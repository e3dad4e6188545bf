/-
# Scans for the first best candidate

A scan keeps the best candidate seen so far and replaces it by a better one, so that of several
best candidates the first one stays. A program that has no candidate to start with may start from
a number that stands for nothing found. If that number is also a possible value, the scan takes
it for nothing found again: what comes right behind a best candidate of this value replaces it,
whatever its own value is. So the scan finds the first best candidate unless this has the value
and others come behind it. Scans of groups, and then of what they found, go wrong in the same case.
-/

import Mathlib.Data.List.Nodup
import Mathlib.Order.Defs.Unbundled
import Datamime.Math.Run

namespace Datamime.Math

universe u v

variable {α : Type u} {β : Type v}

/-! ## The first best candidate -/

/-- The candidate, a value with a tag, is in the list. It is better than those before it, and
none behind it is better. -/
def IsFirstBest (better : α → α → Prop) (candidates : List (α × β)) (best : α × β) : Prop :=
  ∃ before after, candidates = before ++ best :: after ∧
    (∀ other ∈ before, better best.1 other.1) ∧ ∀ other ∈ after, ¬ better other.1 best.1

/-- The candidate is the last of the list. -/
def IsLast (candidates : List (α × β)) (best : α × β) : Prop :=
  ∃ before, candidates = before ++ [best]

/-- A candidate that does not come again is the last one if nothing follows it. -/
theorem isLast_iff {best : α × β} {before after : List (α × β)} (once : best ∉ after) :
    IsLast (before ++ best :: after) best ↔ after = [] := by
  constructor
  · rintro ⟨others, isEnd⟩
    rcases List.eq_nil_or_concat after with rfl | ⟨init, final, rfl⟩
    · rfl
    · exfalso
      have last := congrArg List.getLast? isEnd
      rw [List.concat_eq_append, ← List.cons_append, ← List.append_assoc, List.getLast?_concat,
        List.getLast?_concat, Option.some.injEq] at last
      exact once (by rw [← last]; simp)
  · rintro rfl
    exact ⟨before, rfl⟩

section

variable {better : α → α → Prop} [IsStrictTotalOrder α better] {candidates : List (α × β)}
  {best : α × β}

/-- What is better than a value is better than all that are no better than it. -/
theorem better_of_not_better {a b c : α} (first : better a b) (second : ¬ better c b) :
    better a c := by
  rcases trichotomous_of better b c with less | rfl | more
  · exact trans_of better first less
  · exact first
  · exact absurd more second

theorem exists_isFirstBest (nonempty : candidates ≠ []) :
    ∃ best, IsFirstBest better candidates best := by
  classical
  induction candidates using List.reverseRecOn with
  | nil => exact absurd rfl nonempty
  | append_singleton candidates last ih =>
      rcases List.eq_nil_or_concat candidates with rfl | ⟨_, _, isConcat⟩
      · exact ⟨last, [], [], rfl, by simp, by simp⟩
      obtain ⟨best, before, after, rfl, worse, noBetter⟩ := ih (by rw [isConcat]; simp)
      by_cases replaced : better last.1 best.1
      · refine ⟨last, before ++ best :: after, [], by simp, fun other isOther => ?_, by simp⟩
        rcases List.mem_append.mp isOther with isBefore | isAfter
        · exact trans_of better replaced (worse other isBefore)
        rcases List.mem_cons.mp isAfter with rfl | isAfter
        · exact replaced
        · exact better_of_not_better replaced (noBetter other isAfter)
      · refine ⟨best, before, after ++ [last], by simp, worse, fun other isOther => ?_⟩
        rcases List.mem_append.mp isOther with isAfter | isLast
        · exact noBetter other isAfter
        · rw [List.mem_singleton.mp isLast]
          exact replaced

/-- No candidate is better than the best one. -/
theorem IsFirstBest.not_better (isBest : IsFirstBest better candidates best) {other : α × β}
    (isOther : other ∈ candidates) : ¬ better other.1 best.1 := by
  obtain ⟨before, after, rfl, worse, noBetter⟩ := isBest
  rcases List.mem_append.mp isOther with isBefore | isAfter
  · exact asymm_of better (worse other isBefore)
  rcases List.mem_cons.mp isAfter with rfl | isAfter
  · exact irrefl_of better _
  · exact noBetter other isAfter

/-- In a list that is sorted by position, the first best candidate is better than those of an
earlier position. -/
theorem isFirstBest_iff_of_pairwise {earlier : α × β → α × β → Prop}
    (asymmetric : ∀ x y, earlier x y → ¬ earlier y x) (sorted : candidates.Pairwise earlier) :
    IsFirstBest better candidates best ↔
      best ∈ candidates ∧ (∀ other ∈ candidates, ¬ better other.1 best.1) ∧
        ∀ other ∈ candidates, earlier other best → better best.1 other.1 := by
  constructor
  · intro isBest
    refine ⟨?_, fun other isOther => isBest.not_better isOther, fun other isOther isEarlier => ?_⟩
    · obtain ⟨before, after, rfl, -⟩ := isBest
      simp
    · obtain ⟨before, after, rfl, worse, -⟩ := isBest
      obtain ⟨-, behind, -⟩ := List.pairwise_append.mp sorted
      rcases List.mem_append.mp isOther with isBefore | isAfter
      · exact worse other isBefore
      rcases List.mem_cons.mp isAfter with rfl | isAfter
      · exact absurd isEarlier (asymmetric _ _ isEarlier)
      · exact absurd isEarlier (asymmetric _ _ ((List.pairwise_cons.mp behind).1 other isAfter))
  · rintro ⟨isMember, noBetter, better⟩
    obtain ⟨before, after, rfl⟩ := List.append_of_mem isMember
    obtain ⟨-, -, ordered⟩ := List.pairwise_append.mp sorted
    refine ⟨before, after, rfl, fun other isBefore => ?_, fun other isAfter => ?_⟩
    · exact better other (by simp [isBefore]) (ordered other isBefore best List.mem_cons_self)
    · exact noBetter other (by simp [isAfter])

omit [IsStrictTotalOrder α better] in
theorem IsFirstBest.mem (isBest : IsFirstBest better candidates best) : best ∈ candidates := by
  obtain ⟨before, after, rfl, -⟩ := isBest
  simp

end

/-! ## The scan -/

section

variable [DecidableEq α] (better : α → α → Prop) [DecidableRel better] (nothing : α)

/-- One turn of the scan. -/
def takeBetter (best candidate : α × β) : α × β :=
  if best.1 = nothing ∨ better candidate.1 best.1 then candidate else best

/-- The scan from a candidate on. -/
def scanBest (best : α × β) (candidates : List (α × β)) : α × β :=
  candidates.foldl (takeBetter better nothing) best

theorem scanBest_mem (start : α × β) (candidates : List (α × β)) :
    scanBest better nothing start candidates = start ∨
      scanBest better nothing start candidates ∈ candidates := by
  induction candidates generalizing start with
  | nil => exact .inl rfl
  | cons candidate rest ih =>
      rw [scanBest, List.foldl_cons, takeBetter]
      split
      · rcases ih candidate with same | isMember
        · exact .inr (List.mem_cons.mpr (.inl same))
        · exact .inr (List.mem_cons_of_mem _ isMember)
      · exact (ih start).imp_right (List.mem_cons_of_mem _)

variable {better nothing}

/-- A candidate other than nothing stays as long as no better one comes. -/
theorem scanBest_of_not_better {best : α × β} {candidates : List (α × β)}
    (something : best.1 ≠ nothing) (noBetter : ∀ other ∈ candidates, ¬ better other.1 best.1) :
    scanBest better nothing best candidates = best := by
  induction candidates with
  | nil => rfl
  | cons candidate rest ih =>
      have stays : takeBetter better nothing best candidate = best :=
        if_neg (not_or.mpr ⟨something, noBetter candidate List.mem_cons_self⟩)
      rw [scanBest, List.foldl_cons, stays]
      exact ih fun other isOther => noBetter other (List.mem_cons_of_mem _ isOther)

/-- The scan comes to hold the first best candidate when it meets it. -/
theorem scanBest_append {start best : α × β} (isNothing : start.1 = nothing)
    {before : List (α × β)} (worse : ∀ other ∈ before, better best.1 other.1)
    (after : List (α × β)) :
    scanBest better nothing start (before ++ best :: after) =
      scanBest better nothing best after := by
  have taken : takeBetter better nothing (scanBest better nothing start before) best = best := by
    refine if_pos ?_
    rcases scanBest_mem better nothing start before with same | isMember
    · rw [same]
      exact .inl isNothing
    · exact .inr (worse _ isMember)
  rw [scanBest, List.foldl_append, List.foldl_cons]
  exact congrArg (List.foldl _ · after) taken

/-- The scan carries the tags along. -/
theorem scanBest_map {γ : Type*} (tag : β → γ) (start : α × β) (candidates : List (α × β)) :
    scanBest better nothing (start.1, tag start.2) (candidates.map fun c => (c.1, tag c.2)) =
      ((scanBest better nothing start candidates).1,
        tag (scanBest better nothing start candidates).2) := by
  induction candidates generalizing start with
  | nil => rfl
  | cons candidate rest ih =>
      rw [List.map_cons, scanBest, scanBest, List.foldl_cons, List.foldl_cons, takeBetter,
        takeBetter]
      split
      · exact ih candidate
      · exact ih start

/-- It does not matter from which nothing the scan starts. -/
theorem scanBest_start {candidates : List (α × β)} (nonempty : candidates ≠ []) (first second : β) :
    scanBest better nothing (nothing, first) candidates =
      scanBest better nothing (nothing, second) candidates := by
  obtain ⟨head, rest, rfl⟩ := List.exists_cons_of_ne_nil nonempty
  rw [scanBest, scanBest, List.foldl_cons, List.foldl_cons, takeBetter, takeBetter,
    if_pos (.inl rfl), if_pos (.inl rfl)]

/-- What comes behind nothing replaces it. -/
theorem scanBest_mem_of_isNothing {start : α × β} (isNothing : start.1 = nothing)
    {candidates : List (α × β)} (nonempty : candidates ≠ []) :
    scanBest better nothing start candidates ∈ candidates := by
  obtain ⟨first, rest, rfl⟩ := List.exists_cons_of_ne_nil nonempty
  rw [scanBest, List.foldl_cons, takeBetter, if_pos (.inl isNothing)]
  rcases scanBest_mem better nothing first rest with same | isMember
  · exact List.mem_cons.mpr (.inl same)
  · exact List.mem_cons_of_mem _ isMember

end

/-! ## Loops that scan -/

/-- A loop whose rounds take the better of two candidates is a scan. -/
theorem eq_scanBest_of_run {σ ι ε : Type*} [DecidableEq α] {better : α → α → Prop}
    [DecidableRel better] {nothing : α} {step : σ → ι → Except ε σ} (view : σ → α × β)
    (candidate : ι → α × β) {inputs : List ι} {start last : σ}
    (takes : ∀ input ∈ inputs, ∀ state next, step state input = .ok next →
      view next = takeBetter better nothing (view state) (candidate input))
    (reached : run step start inputs = .ok last) :
    view last = scanBest better nothing (view start) (inputs.map candidate) := by
  induction inputs generalizing start with
  | nil =>
      cases reached
      rfl
  | cons input rest ih =>
      rw [run] at reached
      cases stepped : step start input with
      | error fault =>
          rw [stepped] at reached
          cases reached
      | ok next =>
          rw [stepped] at reached
          rw [ih (fun other isOther => takes other (List.mem_cons_of_mem _ isOther)) reached,
            takes input List.mem_cons_self start next stepped]
          rfl

/-! ## Scans of groups -/

section

variable [DecidableEq α] {better : α → α → Prop} [DecidableRel better] {nothing : α}
  {start : α × β} {groups : List (List (α × β))} {best : α × β}

/-- The scan of what the scans of the groups found. -/
def scanGroups (better : α → α → Prop) [DecidableRel better] (nothing : α) (start : α × β)
    (groups : List (List (α × β))) : α × β :=
  scanBest better nothing start (groups.map (scanBest better nothing start))

/-- A candidate of the joined groups, in its group. -/
theorem exists_group {α : Type u} {groups : List (List α)} {before after : List α} {x : α}
    (isJoin : groups.flatten = before ++ x :: after) :
    ∃ earlier first second later, groups = earlier ++ (first ++ x :: second) :: later ∧
      before = earlier.flatten ++ first ∧ after = second ++ later.flatten := by
  induction groups generalizing before with
  | nil => simp at isJoin
  | cons group rest ih =>
      rw [List.flatten_cons, List.append_eq_append_iff] at isJoin
      rcases isJoin with ⟨middle, isBefore, isRest⟩ | ⟨middle, isGroup, isRest⟩
      · obtain ⟨earlier, first, second, later, rfl, isMiddle, isAfter⟩ := ih isRest
        refine ⟨group :: earlier, first, second, later, rfl, ?_, isAfter⟩
        rw [isBefore, isMiddle, List.flatten_cons, List.append_assoc]
      · cases middle with
        | nil =>
            obtain ⟨earlier, first, second, later, rfl, isMiddle, isAfter⟩ :=
              @ih [] isRest.symm
            refine ⟨group :: earlier, first, second, later, rfl, ?_, isAfter⟩
            rw [List.append_nil] at isGroup
            rw [List.flatten_cons, List.append_assoc, ← isMiddle, isGroup, List.append_nil]
        | cons head middle =>
            obtain ⟨rfl, isAfter⟩ := List.cons.inj isRest
            exact ⟨[], before, middle, rest, by rw [isGroup]; rfl, rfl, isAfter⟩

/-- What the scan of a group found is in the group. -/
theorem scanBest_mem_group (isNothing : start.1 = nothing) (nonempty : ∀ group ∈ groups, group ≠ [])
    {found : α × β} (isFound : found ∈ groups.map (scanBest better nothing start)) :
    found ∈ groups.flatten := by
  obtain ⟨group, isGroup, rfl⟩ := List.mem_map.mp isFound
  exact List.mem_flatten.mpr
    ⟨group, isGroup, scanBest_mem_of_isNothing isNothing (nonempty group isGroup)⟩

theorem scanGroups_mem (isNothing : start.1 = nothing) (nonempty : ∀ group ∈ groups, group ≠ [])
    (some_group : groups ≠ []) :
    scanGroups better nothing start groups ∈ groups.flatten :=
  scanBest_mem_group isNothing nonempty
    (scanBest_mem_of_isNothing isNothing (fun none => some_group (List.map_eq_nil_iff.mp none)))

section

variable {earlier later : List (List (α × β))} {first second : List (α × β)}

/-- The candidate is better than all that the scans of the earlier groups found. -/
theorem better_of_found (isNothing : start.1 = nothing) (isEarlier : ∀ group ∈ earlier, group ≠ [])
    (worse : ∀ other ∈ earlier.flatten ++ first, better best.1 other.1) :
    ∀ other ∈ earlier.map (scanBest better nothing start), better best.1 other.1 :=
  fun other isOther =>
    worse other (List.mem_append_left _ (scanBest_mem_group isNothing isEarlier isOther))

/-- The scan of its group holds the candidate when it meets it. -/
theorem scanGroups_split (isNothing : start.1 = nothing)
    (worse : ∀ other ∈ earlier.flatten ++ first, better best.1 other.1) :
    scanGroups better nothing start (earlier ++ (first ++ best :: second) :: later) =
      scanBest better nothing start (earlier.map (scanBest better nothing start) ++
        scanBest better nothing best second :: later.map (scanBest better nothing start)) := by
  rw [scanGroups, List.map_append, List.map_cons,
    scanBest_append isNothing fun other isOther => worse other (List.mem_append_right _ isOther)]

/-- A candidate that counts as nothing is lost to whatever follows it. -/
theorem eq_nil_of_scanGroups_eq (isNothing : start.1 = nothing) (counts : best.1 = nothing)
    (isEarlier : ∀ group ∈ earlier, group ≠ []) (isLater : ∀ group ∈ later, group ≠ [])
    (worse : ∀ other ∈ earlier.flatten ++ first, better best.1 other.1)
    (notBefore : best ∉ earlier.flatten ++ first) (notAfter : best ∉ second ++ later.flatten)
    (found : scanGroups better nothing start (earlier ++ (first ++ best :: second) :: later) =
      best) : second = [] ∧ later = [] := by
  rw [scanGroups_split isNothing worse] at found
  cases second with
  | cons next second =>
      -- The group's own scan has lost the candidate, and no other group has it.
      exfalso
      have isMember : scanBest better nothing start
          (earlier.map (scanBest better nothing start) ++
            scanBest better nothing best (next :: second) ::
              later.map (scanBest better nothing start)) ∈ _ :=
        scanBest_mem_of_isNothing isNothing (by simp)
      rw [found] at isMember
      rcases List.mem_append.mp isMember with isFound | isFound
      · exact notBefore (List.mem_append_left _ (scanBest_mem_group isNothing isEarlier isFound))
      rcases List.mem_cons.mp isFound with same | isFound
      · refine notAfter (List.mem_append_left _ ?_)
        rw [same]
        exact scanBest_mem_of_isNothing counts (List.cons_ne_nil _ _)
      · exact notAfter (List.mem_append_right _ (scanBest_mem_group isNothing isLater isFound))
  | nil =>
      cases later with
      | nil => exact ⟨rfl, rfl⟩
      | cons group later =>
          exfalso
          have kept : scanBest better nothing best [] = best := rfl
          rw [kept, scanBest_append isNothing (better_of_found isNothing isEarlier worse)] at found
          have isMember : scanBest better nothing best
              ((group :: later).map (scanBest better nothing start)) ∈ _ :=
            scanBest_mem_of_isNothing counts (by simp)
          rw [found] at isMember
          exact notAfter (scanBest_mem_group isNothing isLater isMember)

end

/-- The scans find the first best candidate precisely if it does not count as nothing, or none
comes behind it. -/
theorem scanGroups_eq_iff (isNothing : start.1 = nothing)
    (nonempty : ∀ group ∈ groups, group ≠ []) (distinct : groups.flatten.Nodup)
    (isBest : IsFirstBest better groups.flatten best) :
    scanGroups better nothing start groups = best ↔
      (best.1 = nothing → IsLast groups.flatten best) := by
  obtain ⟨before, after, isJoin, worse, noBetter⟩ := isBest
  rw [isJoin, List.nodup_append, List.nodup_cons] at distinct
  have notBefore : best ∉ before := fun isBefore =>
    distinct.2.2 best isBefore best List.mem_cons_self rfl
  have notAfter := distinct.2.1.1
  rw [isJoin, isLast_iff notAfter]
  obtain ⟨earlier, first, second, later, rfl, rfl, rfl⟩ := exists_group isJoin
  have isEarlier : ∀ group ∈ earlier, group ≠ [] := fun group isGroup =>
    nonempty group (List.mem_append_left _ isGroup)
  have isLater : ∀ group ∈ later, group ≠ [] := fun group isGroup =>
    nonempty group (List.mem_append_right _ (List.mem_cons_of_mem _ isGroup))
  have worseFound := better_of_found isNothing isEarlier worse
  constructor
  · intro found counts
    obtain ⟨rfl, rfl⟩ := eq_nil_of_scanGroups_eq isNothing counts isEarlier isLater worse notBefore
      notAfter found
    rfl
  · intro counts
    rw [scanGroups_split isNothing worse]
    by_cases something : best.1 = nothing
    · obtain ⟨rfl, noLater⟩ := List.append_eq_nil_iff.mp (counts something)
      obtain rfl : later = [] := List.eq_nil_iff_forall_not_mem.mpr fun group isGroup =>
        isLater group isGroup (List.flatten_eq_nil_iff.mp noLater group isGroup)
      exact scanBest_append isNothing worseFound []
    · have inOwn : scanBest better nothing best second = best :=
        scanBest_of_not_better something fun other isOther =>
          noBetter other (List.mem_append_left _ isOther)
      rw [inOwn, scanBest_append isNothing worseFound]
      exact scanBest_of_not_better something fun other isOther =>
        noBetter other (List.mem_append_right _ (scanBest_mem_group isNothing isLater isOther))

end

end Datamime.Math
