/-
# Weighted speedups of clusters

A cluster of applications gets a curve with one entry for each way of dividing its
buckets: the sum of the speedups of the applications. All clusters are computed in
one vector, of which a copy is kept for each of them. A cluster overwrites as many
entries as it has divisions, and the others are those of the cluster before it.
-/

import Datamime.CacheUtils.MarginalUtil
import Mathlib.Data.List.Chain

namespace Datamime.CacheUtils

variable {α : Type}

section

variable [Zero α] [Add α] [Div α]

/-- The application and the bucket of each pair of a division. -/
abbrev Division := List (ℕ × ℕ)

def APP_RELATIVE_IPC_BUCK : ℤ := 2

/-- The speedup of one application. -/
def appWs (ipcVsWays : CurveMatrix α) (pair : ℕ × ℕ) : Except Misuse α :=
  match ipcVsWays.columns[pair.1]? with
  | none => .error .curveBounds
  | some ipcApp => do
      let ipc ← readCurve ipcApp pair.2
      let relative ← readCurve ipcApp APP_RELATIVE_IPC_BUCK
      return ipc / relative

/-- The loop over the applications of a division. -/
def divisionWs (ipcVsWays : CurveMatrix α) (division : Division) : Except Misuse α :=
  division.foldlM (fun ws pair => do return ws + (← appWs ipcVsWays pair)) 0

/-- The loop over the divisions of a cluster, from the entry `p` on. -/
def fillCurve (ipcVsWays : CurveMatrix α) :
    ℕ → List α → List Division → Except Misuse (List α)
  | _, wsCurve, [] => .ok wsCurve
  | p, wsCurve, division :: rest => do
      let ws ← divisionWs ipcVsWays division
      if p < wsCurve.length then fillCurve ipcVsWays (p + 1) (wsCurve.set p ws) rest
      else .error .arrayBounds

/-- The loop over the clusters. -/
def fillCurves (ipcVsWays : CurveMatrix α) :
    List α → List (List Division) → Except Misuse (List (List α))
  | _, [] => .ok []
  | wsCurve, cluster :: rest => do
      let next ← fillCurve ipcVsWays 0 wsCurve cluster
      let later ← fillCurves ipcVsWays next rest
      return next :: later

/-- `get_wscurves_for_combinedmrcs`. -/
def getWscurvesForCombinedmrcs (clusterBucks : List (List Division)) (ipcVsWays : CurveMatrix α)
    (cacheNumWays : ℕ) : Except Misuse (List (List α)) :=
  fillCurves ipcVsWays (List.replicate cacheNumWays 0) clusterBucks

/-! ## Curves of their own -/

/-- The sums of a cluster by itself. -/
def clusterSums (ipcVsWays : CurveMatrix α) (cluster : List Division) : Except Misuse (List α) :=
  cluster.mapM (divisionWs ipcVsWays)

end

/-- The curve of a cluster by itself: its sums, and nothing beyond them. -/
def ownCurve [Zero α] (cacheNumWays : ℕ) (sums : List α) : List α :=
  sums ++ List.replicate (cacheNumWays - sums.length) 0

/-- Whatever the sums of the clusters are, each cluster gets the curve that it has by itself. -/
def HasOwnCurves [Zero α] [Add α] [Div α] (clusterBucks : List (List Division))
    (ipcVsWays : CurveMatrix α) (cacheNumWays : ℕ) : Prop :=
  ∀ sums, clusterBucks.mapM (clusterSums ipcVsWays) = .ok sums →
    getWscurvesForCombinedmrcs clusterBucks ipcVsWays cacheNumWays =
      .ok (sums.map (ownCurve cacheNumWays))

/-- A cluster leaves nothing behind for a shorter one: the entries that this one does not overwrite
are zero. -/
def LeavesNothing [Zero α] (earlier later : List α) : Prop :=
  ∀ ws ∈ earlier.drop later.length, ws = 0

/-- The curves as they are, from the vector that the clusters share. -/
def overlaid : List α → List (List α) → List (List α)
  | _, [] => []
  | wsCurve, sums :: rest =>
      (sums ++ wsCurve.drop sums.length) :: overlaid (sums ++ wsCurve.drop sums.length) rest

section

variable [Zero α] {cacheNumWays : ℕ}

/-- A vector that holds the curve of one cluster gives the next one its own curve precisely if
nothing is left behind. -/
theorem overlay_eq_ownCurve_iff {earlier later : List α} (fits : later.length ≤ cacheNumWays)
    (fitted : earlier.length ≤ cacheNumWays) :
    later ++ (ownCurve cacheNumWays earlier).drop later.length = ownCurve cacheNumWays later ↔
      LeavesNothing earlier later := by
  rw [ownCurve, ownCurve, List.append_cancel_left_eq, List.eq_replicate_iff, LeavesNothing,
    List.drop_append, List.drop_replicate]
  constructor
  · rintro ⟨-, zeros⟩ ws isLeft
    exact zeros ws (List.mem_append_left _ isLeft)
  · intro zeros
    refine ⟨?_, fun ws isMember => ?_⟩
    · rw [List.length_append, List.length_drop, List.length_replicate]
      omega
    · rcases List.mem_append.mp isMember with isLeft | isZero
      · exact zeros ws isLeft
      · exact List.eq_of_mem_replicate isZero

/-- Every cluster gets its own curve precisely if none leaves anything behind for the next. -/
theorem overlaid_eq_iff {earlier : List α} {sums : List (List α)}
    (fitted : earlier.length ≤ cacheNumWays) (fits : ∀ later ∈ sums, later.length ≤ cacheNumWays) :
    overlaid (ownCurve cacheNumWays earlier) sums = sums.map (ownCurve cacheNumWays) ↔
      (earlier :: sums).IsChain LeavesNothing := by
  induction sums generalizing earlier with
  | nil => exact iff_of_true rfl (List.isChain_singleton earlier)
  | cons later rest ih =>
      have inside := fits later List.mem_cons_self
      rw [overlaid, List.map_cons, List.isChain_cons_cons, List.cons.injEq,
        overlay_eq_ownCurve_iff inside fitted]
      refine and_congr_right fun nothing => ?_
      rw [(overlay_eq_ownCurve_iff inside fitted).mpr nothing]
      exact ih inside fun other isLater => fits other (List.mem_cons_of_mem later isLater)

end

section

variable [Zero α] [Add α] [Div α] {ipcVsWays : CurveMatrix α} {cacheNumWays : ℕ}

/-- A cluster overwrites the entries that follow those already written. -/
theorem fillCurve_eq {cluster : List Division} {sums written rest : List α}
    (isSums : clusterSums ipcVsWays cluster = .ok sums) (fits : cluster.length ≤ rest.length) :
    fillCurve ipcVsWays written.length (written ++ rest) cluster =
      .ok (written ++ (sums ++ rest.drop sums.length)) := by
  induction cluster generalizing sums written rest with
  | nil =>
      cases isSums
      rfl
  | cons division later ih =>
      rw [clusterSums, List.mapM_cons] at isSums
      obtain ⟨ws, isWs, isSums⟩ := bind_eq_ok_iff.mp isSums
      obtain ⟨others, areOthers, isSums⟩ := bind_eq_ok_iff.mp isSums
      cases isSums
      cases rest with
      | nil => exact absurd fits (by simp)
      | cons old rest =>
          have isSet : (written ++ old :: rest).set written.length ws =
              (written ++ [ws]) ++ rest := by
            rw [List.set_append_right _ _ (le_refl _), Nat.sub_self, List.set_cons_zero,
              List.append_assoc, List.singleton_append]
          have size : written.length + 1 = (written ++ [ws]).length := by
            rw [List.length_append, List.length_singleton]
          rw [fillCurve, isWs, ok_bind, if_pos (by simp), isSet, size,
            ih areOthers (Nat.le_of_succ_le_succ fits), List.append_assoc, List.singleton_append,
            List.length_cons, List.drop_succ_cons, List.cons_append]

theorem length_of_clusterSums {cluster : List Division} {sums : List α}
    (isSums : clusterSums ipcVsWays cluster = .ok sums) : sums.length = cluster.length :=
  length_of_mapM_eq_ok isSums

/-- The clusters overlay one another in the vector. -/
theorem fillCurves_eq {clusterBucks : List (List Division)} {sums : List (List α)}
    {wsCurve : List α} (areSums : clusterBucks.mapM (clusterSums ipcVsWays) = .ok sums)
    (fits : ∀ cluster ∈ clusterBucks, cluster.length ≤ wsCurve.length) :
    fillCurves ipcVsWays wsCurve clusterBucks = .ok (overlaid wsCurve sums) := by
  induction clusterBucks generalizing sums wsCurve with
  | nil =>
      cases areSums
      rfl
  | cons cluster rest ih =>
      rw [List.mapM_cons] at areSums
      obtain ⟨first, isFirst, areSums⟩ := bind_eq_ok_iff.mp areSums
      obtain ⟨others, areOthers, areSums⟩ := bind_eq_ok_iff.mp areSums
      cases areSums
      have inside := fits cluster List.mem_cons_self
      have filled := @fillCurve_eq _ _ _ _ _ cluster first [] wsCurve isFirst inside
      have sameSize : (first ++ wsCurve.drop first.length).length = wsCurve.length := by
        rw [List.length_append, List.length_drop, length_of_clusterSums isFirst]
        omega
      rw [List.nil_append, List.nil_append, List.length_nil] at filled
      rw [fillCurves, filled, ok_bind, ih areOthers fun other isLater => by
        rw [sameSize]
        exact fits other (List.mem_cons_of_mem cluster isLater)]
      rfl

/-- Each cluster has its own curve precisely if no cluster is followed directly by one that has
fewer divisions and lacks a division in which the sum of the former is not zero. -/
theorem hasOwnCurves_iff {clusterBucks : List (List Division)}
    (fits : ∀ cluster ∈ clusterBucks, cluster.length ≤ cacheNumWays) :
    HasOwnCurves clusterBucks ipcVsWays cacheNumWays ↔
      ∀ sums, clusterBucks.mapM (clusterSums ipcVsWays) = .ok sums →
        sums.IsChain LeavesNothing := by
  refine forall₂_congr fun sums areSums => ?_
  have start : List.replicate cacheNumWays (0 : α) = ownCurve cacheNumWays [] := by
    rw [ownCurve, List.nil_append, List.length_nil, Nat.sub_zero]
  have sizes : ∀ later ∈ sums, later.length ≤ cacheNumWays := by
    intro later isSums
    obtain ⟨cluster, isCluster, isOwn⟩ := exists_of_mem_mapM areSums isSums
    rw [length_of_clusterSums isOwn]
    exact fits cluster isCluster
  rw [getWscurvesForCombinedmrcs, fillCurves_eq areSums fun cluster isCluster => by
    rw [List.length_replicate]
    exact fits cluster isCluster, Except.ok.injEq, start,
    overlaid_eq_iff (Nat.zero_le _) sizes]
  cases sums with
  | nil => exact iff_of_true (List.isChain_singleton []) List.isChain_nil
  | cons first rest =>
      rw [List.isChain_cons_cons]
      refine and_iff_right fun ws isLeft => ?_
      rw [List.drop_nil] at isLeft
      cases isLeft

/-- The curve of a cluster is then the same wherever the cluster stands, and whatever the other
clusters are. -/
theorem sameCurve_of_hasOwnCurves {clusterBucks otherBucks : List (List Division)}
    {sums otherSums curves otherCurves : List (List α)}
    (areSums : clusterBucks.mapM (clusterSums ipcVsWays) = .ok sums)
    (areOtherSums : otherBucks.mapM (clusterSums ipcVsWays) = .ok otherSums)
    (own : HasOwnCurves clusterBucks ipcVsWays cacheNumWays)
    (otherOwn : HasOwnCurves otherBucks ipcVsWays cacheNumWays)
    (returned : getWscurvesForCombinedmrcs clusterBucks ipcVsWays cacheNumWays = .ok curves)
    (otherReturned : getWscurvesForCombinedmrcs otherBucks ipcVsWays cacheNumWays = .ok otherCurves)
    {cluster : List Division} {i j : ℕ} (here : clusterBucks[i]? = some cluster)
    (there : otherBucks[j]? = some cluster) : curves[i]? = otherCurves[j]? := by
  cases returned.symm.trans (own sums areSums)
  cases otherReturned.symm.trans (otherOwn otherSums areOtherSums)
  obtain ⟨first, atHere, isFirst⟩ := getElem?_of_mapM areSums here
  obtain ⟨second, atThere, isSecond⟩ := getElem?_of_mapM areOtherSums there
  cases isFirst.symm.trans isSecond
  rw [List.getElem?_map, List.getElem?_map, atHere, atThere]

end

/-! ## A shorter cluster behind a longer one -/

/-- Two applications on a cache of three ways. -/
def twoCurves : CurveMatrix ℚ where
  nRows := 3
  columns := [[1, 2, 4], [1, 2, 2]]
  sized := by decide

/-- One application divided in two ways. -/
def longCluster : List Division := [[(0, 1)], [(0, 2)]]

/-- The other application, divided in one way. -/
def shortCluster : List Division := [[(1, 0)]]

theorem longCluster_hasOwnCurves_iff :
    HasOwnCurves [shortCluster, longCluster] twoCurves 3 ↔
      ∀ sums, [shortCluster, longCluster].mapM (clusterSums twoCurves) = .ok sums →
        sums.IsChain LeavesNothing :=
  hasOwnCurves_iff (by decide)

/-- The shorter cluster gets the second entry of the longer one, unless it comes first. -/
theorem shortCluster_takes_entry :
    getWscurvesForCombinedmrcs [longCluster, shortCluster] twoCurves 3 =
        .ok [[1 / 2, 1, 0], [1 / 2, 1, 0]] ∧
      getWscurvesForCombinedmrcs [shortCluster, longCluster] twoCurves 3 =
        .ok [[1 / 2, 0, 0], [1 / 2, 1, 0]] ∧
      ¬ HasOwnCurves [longCluster, shortCluster] twoCurves 3 := by
  have returned : getWscurvesForCombinedmrcs [longCluster, shortCluster] twoCurves 3 =
      .ok [[1 / 2, 1, 0], [1 / 2, 1, 0]] := by decide +kernel
  have areSums : [longCluster, shortCluster].mapM (clusterSums twoCurves) =
      .ok [[1 / 2, 1], [1 / 2]] := by decide +kernel
  refine ⟨returned, by decide +kernel, fun own => ?_⟩
  have same := Except.ok.inj (returned.symm.trans (own _ areSums))
  exact absurd same (by decide +kernel)

end Datamime.CacheUtils
