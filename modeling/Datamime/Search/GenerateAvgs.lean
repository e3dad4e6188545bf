/-
# The averages of a measured profile

`generate_avgs` divides sums of counters by the retired instructions. Counters of
several event groups have several tables of samples, and `gen_inst_retired` is
meant to average the retired instructions over them. It does so by putting the
samples of the tables on top of one another, although the groups need not have
been sampled equally often. What is made of rows of different lengths depends on
the version of the array library: they are either added after a row of a single
sample has been stretched to the length of the others, or not accepted at all.
-/

import Datamime.Search.GenerateStats

namespace Datamime.Search

open Datamime.Math Datamime.Math.ERat

/-! ## Retired instructions -/

/-- What `np.array` makes of rows of different lengths. -/
inductive RaggedRows
  /-- An array of arrays, whose sum stretches rows of a single entry. -/
  | stretched
  /-- `ValueError`. -/
  | rejected
  deriving DecidableEq

/-- `np.array_equal`. -/
def arrayEqual (ir1 ir2 : List ERat) : Bool := decide (ir1 = ir2) && !ir1.any ERat.isNan

/-- Whether two of the arrays differ. -/
def needAveraging (instRetiredList : List (List ERat)) : Bool :=
  !decide (instRetiredList.Pairwise fun ir1 ir2 => arrayEqual ir1 ir2 = true)

/-- `np.mean(np.array(rows), axis=0)`. -/
def npMeanRows (ragged : RaggedRows) : List (List ERat) → Except PyError (List ERat)
  | [] => .ok []
  | first :: rest =>
      if ragged = .rejected ∧ ∃ row ∈ rest, row.length ≠ first.length then .error .valueError
      else do
        let sums ← rest.foldlM npAdd first
        return sums.map (· / num (first :: rest).length)

/-- `gen_inst_retired`. -/
def genInstRetired (ragged : RaggedRows) (ctrs : List Frame) : Except PyError ERat := do
  let instRetiredList ← ctrs.mapM (Frame.get · "INST_RETIRED")
  if needAveraging instRetiredList then do
    let means ← npMeanRows ragged instRetiredList
    return npSum means
  else
    match instRetiredList with
    | [] => .error .indexError
    | first :: _ => .ok (npSum first)

/-! ## Metrics of several groups -/

/-- The entries whose row is kept. -/
def keepRows {α : Type} : List Bool → List α → List α
  | true :: mask, cell :: rest => cell :: keepRows mask rest
  | false :: mask, _ :: rest => keepRows mask rest
  | _, _ => []

theorem length_keepRows {α β : Type} (mask : List Bool) {cells : List α} {others : List β}
    (sameLength : cells.length = others.length) :
    (keepRows mask cells).length = (keepRows mask others).length := by
  induction mask generalizing cells others with
  | nil => rfl
  | cons kept mask ih =>
      cases cells with
      | nil =>
          rw [List.eq_nil_of_length_eq_zero sameLength.symm]
          cases kept <;> rfl
      | cons cell rest =>
          cases others with
          | nil => cases sameLength
          | cons other others =>
              have sameRest := ih (Nat.succ.inj sameLength)
              cases kept with
              | true => rw [keepRows, keepRows, List.length_cons, List.length_cons, sameRest]
              | false => rw [keepRows, keepRows, sameRest]

theorem keepRows_map {α β : Type} (mask : List Bool) (f : α → β) (cells : List α) :
    keepRows mask (cells.map f) = (keepRows mask cells).map f := by
  induction mask generalizing cells with
  | nil => rfl
  | cons kept mask ih =>
      cases cells with
      | nil => cases kept <;> rfl
      | cons cell rest =>
          cases kept with
          | true => rw [List.map_cons, keepRows, keepRows, List.map_cons, ih]
          | false => rw [List.map_cons, keepRows, keepRows, ih]

/-- The rows in which these cells are numbers. -/
def notna (cells : List ERat) : List Bool := cells.map fun cell => !cell.isNan

/-- A table with some of its rows. -/
def Frame.keep (ctrs : Frame) (mask : List Bool) : Frame where
  rows := (keepRows mask (List.range ctrs.rows)).length
  column name := (ctrs.column name).map (keepRows mask)
  rectangular name kept isColumn := by
    obtain ⟨cells, column, rfl⟩ := Option.map_eq_some_iff.mp isColumn
    exact length_keepRows mask ((ctrs.rectangular name cells column).trans List.length_range.symm)

/-- `ctrs.dropna(subset=[name])`. -/
def Frame.dropna (ctrs : Frame) (name : String) : Except PyError Frame := do
  let cells ← ctrs.get name
  return ctrs.keep (notna cells)

/-- The average of a metric to which events of several groups contribute. -/
def groupedMpki (ragged : RaggedRows) (ctrs : Frame) (events : List String) :
    Except PyError ERat := do
  let tables ← events.mapM ctrs.dropna
  let instRetired ← genInstRetired ragged tables
  let counts ← (tables.zip events).mapM fun (table, event) => table.get event
  return num 1000 * npSum (counts.map npSum) / instRetired

/-- The average of a metric of one event. -/
def singleMpki (ctrs : Frame) (event : String) : Except PyError ERat := do
  let ctrs ← ctrs.dropna event
  let counts ← ctrs.get event
  let instructions ← ctrs.get "INST_RETIRED"
  return num 1000 * npSum counts / npSum instructions

/-- The events behind `avg_l1d_mpki`. -/
def l1dEvents : List String := ["MEM_LOAD_UOPS_RETIRED.L1_MISS", "L2_TRANS.RFO"]

/-- The events behind `avg_l2_mpki`. -/
def l2Events : List String := ["MEM_LOAD_UOPS_RETIRED.L2_MISS", "OFFCORE_REQUESTS.DEMAND_RFO"]

/-- The events behind `avg_itlb_mpki`. -/
def itlbEvents : List String := ["ITLB_MISSES.STLB_HIT", "ITLB_MISSES.MISS_CAUSES_A_WALK"]

/-- The events behind `avg_dtlb_mpki`. -/
def dtlbEvents : List String :=
  ["DTLB_LOAD_MISSES.STLB_HIT", "DTLB_LOAD_MISSES.MISS_CAUSES_A_WALK",
    "DTLB_STORE_MISSES.STLB_HIT", "DTLB_STORE_MISSES.MISS_CAUSES_A_WALK"]

/-- The dictionary of averages. -/
structure ProfileAvgs where
  avgCi : ERat
  avgIpc : ERat
  avgMtpki : ERat
  avgBrMpki : ERat
  avgL1iMpki : ERat
  avgL1dMpki : ERat
  avgL2Mpki : ERat
  avgItlbMpki : ERat
  avgDtlbMpki : ERat
  avgLocMembw : ERat

/-- `generate_avgs`. -/
def generateAvgs (ragged : RaggedRows) (ctrs : Frame) (tscFreqMhz : ℤ) :
    Except PyError ProfileAvgs := do
  let instructions ← ctrs.get "INST_RETIRED"
  let cycles ← ctrs.get "CPU_CLK_UNHALTED"
  let avgIpc := npSum instructions / npSum cycles
  let traffic ← ctrs.get "local_mem_traffic"
  let avgMtpki := num 1000 * npSum (traffic.drop 1) / (num 64 * npSum (instructions.drop 1))
  let avgBrMpki ← singleMpki ctrs "BR_MISP_RETIRED.ALL_BRANCHES"
  let avgL1iMpki ← singleMpki ctrs "ICACHE.MISSES"
  let unhalted ← ctrs.get "UNHALTED_REFERENCE_CYCLES"
  let refCycles ← ctrs.get "ref_cycles"
  -- The first sample is erroneous.
  let avgCi := npSum (unhalted.drop 1) / npSum (refCycles.drop 1)
  let avgL1dMpki ← groupedMpki ragged ctrs l1dEvents
  let avgL2Mpki ← groupedMpki ragged ctrs l2Events
  let avgItlbMpki ← groupedMpki ragged ctrs itlbEvents
  let avgDtlbMpki ← groupedMpki ragged ctrs dtlbEvents
  return {
    avgCi, avgIpc, avgMtpki, avgBrMpki, avgL1iMpki, avgL1dMpki, avgL2Mpki, avgItlbMpki, avgDtlbMpki
    avgLocMembw :=
      npSum (traffic.drop 1) * num tscFreqMhz * num 1000000 / npSum (refCycles.drop 1) }

/-! ## Rows of rational numbers -/

/-- Entrywise addition of rows of numbers. -/
def addRows (s1 s2 : List ℚ) : Except PyError (List ℚ) :=
  if s1.length = s2.length then .ok (List.zipWith (· + ·) s1 s2)
  else if s1.length = 1 then .ok (s2.map (s1.sum + ·))
  else if s2.length = 1 then .ok (s1.map (· + s2.sum))
  else .error .valueError

/-- What a row contributes to the sum of all entries when it is stretched. -/
def stretchedSum (length : ℕ) (row : List ℚ) : ℚ :=
  if row.length = length then row.sum else length * row.sum

theorem sum_map_add_left (x : ℚ) (row : List ℚ) :
    (row.map (x + ·)).sum = row.length * x + row.sum := by
  induction row with
  | nil => simp
  | cons y rest ih =>
      rw [List.map_cons, List.sum_cons, ih, List.sum_cons, List.length_cons]
      push_cast
      ring

theorem sum_zipWith_add {s1 s2 : List ℚ} (sameLength : s1.length = s2.length) :
    (List.zipWith (· + ·) s1 s2).sum = s1.sum + s2.sum := by
  induction s1 generalizing s2 with
  | nil =>
      rw [List.eq_nil_of_length_eq_zero sameLength.symm, List.zipWith_nil_left, List.sum_nil,
        add_zero]
  | cons x rest ih =>
      cases s2 with
      | nil => cases sameLength
      | cons y others =>
          rw [List.zipWith_cons_cons, List.sum_cons, List.sum_cons, List.sum_cons,
            ih (Nat.succ.inj sameLength)]
          ring

/-- A sum of two rows has the length of one of them, and the other one has that length or is a
single number. -/
theorem addRows_eq_ok {s1 s2 sums : List ℚ} (added : addRows s1 s2 = .ok sums) :
    (sums.length = s1.length ∧ (s2.length = s1.length ∨ s2.length = 1) ∧
        sums.sum = s1.sum + stretchedSum s1.length s2) ∨
      (sums.length = s2.length ∧ s1.length = 1 ∧ s2.length ≠ 1 ∧
        sums.sum = s2.length * s1.sum + s2.sum) := by
  rw [addRows] at added
  split at added
  · rename_i sameLength
    cases added
    refine .inl ⟨by rw [List.length_zipWith, sameLength, min_self], .inl sameLength.symm, ?_⟩
    rw [sum_zipWith_add sameLength, stretchedSum, if_pos sameLength.symm]
  · rename_i different
    split at added
    · rename_i isSingle
      cases added
      refine .inr ⟨List.length_map _, isSingle, fun other => different ?_, ?_⟩
      · rw [isSingle, other]
      · exact sum_map_add_left s1.sum s2
    · split at added
      · rename_i isSingle
        cases added
        refine .inl ⟨List.length_map _, .inr isSingle, ?_⟩
        rw [stretchedSum, if_neg (Ne.symm different)]
        simp only [add_comm _ s2.sum]
        rw [sum_map_add_left, add_comm]
      · cases added

/-- A sum of rows has the length of one of them, and the others have that length or are single
numbers. -/
theorem foldlM_addRows_eq_ok {first sums : List ℚ} {rest : List (List ℚ)}
    (added : rest.foldlM addRows first = .ok sums) :
    (∀ row ∈ first :: rest, row.length = sums.length ∨ row.length = 1) ∧
      (∃ row ∈ first :: rest, row.length = sums.length) ∧
      sums.sum = ((first :: rest).map (stretchedSum sums.length)).sum := by
  induction rest using List.reverseRecOn generalizing sums with
  | nil =>
      cases added
      refine ⟨fun row isRow => ?_, ⟨first, List.mem_cons_self, rfl⟩, ?_⟩
      · rw [List.mem_singleton.mp isRow]
        exact .inl rfl
      · rw [List.map_singleton, List.sum_singleton, stretchedSum, if_pos rfl]
  | append_singleton rest row ih =>
      rw [List.foldlM_append] at added
      obtain ⟨middle, atMiddle, added⟩ := bind_eq_ok_iff.mp added
      rw [List.foldlM_cons] at added
      obtain ⟨last, added, returned⟩ := bind_eq_ok_iff.mp added
      cases returned
      obtain ⟨lengths, ⟨longest, isLongest, sameLength⟩, total⟩ := ih atMiddle
      rw [← List.cons_append, List.map_append, List.sum_append, List.map_singleton,
        List.sum_singleton]
      rcases addRows_eq_ok added with ⟨kept, fits, sum⟩ | ⟨grown, wasSingle, isLong, sum⟩
      · rw [kept]
        refine ⟨fun other isRow => ?_, ⟨longest, List.mem_append_left _ isLongest, sameLength⟩, ?_⟩
        · rcases List.mem_append.mp isRow with isEarlier | isLast
          · exact lengths other isEarlier
          · rw [List.mem_singleton.mp isLast]
            exact fits
        · rw [sum, total]
      · -- All earlier rows are single numbers and now stretched to the length of this one.
        rw [wasSingle] at lengths total
        have areSingle : ∀ other ∈ first :: rest, other.length = 1 :=
          fun other isEarlier => (lengths other isEarlier).elim id id
        rw [grown]
        refine ⟨fun other isRow => ?_, ⟨row, by simp, rfl⟩, ?_⟩
        · rcases List.mem_append.mp isRow with isEarlier | isLast
          · exact .inr (areSingle other isEarlier)
          · rw [List.mem_singleton.mp isLast]
            exact .inl rfl
        · have stretched : (first :: rest).map (stretchedSum row.length) =
              (first :: rest).map fun other => row.length * stretchedSum 1 other := by
            refine List.map_congr_left fun other isEarlier => ?_
            rw [stretchedSum, stretchedSum, areSingle other isEarlier, if_neg (Ne.symm isLong),
              if_pos rfl]
          rw [sum, total, stretched, List.sum_map_mul_left, stretchedSum, if_pos rfl]

theorem exists_foldlM_addRows {length : ℕ} {first : List ℚ} {rest : List (List ℚ)}
    (fits : ∀ row ∈ first :: rest, row.length = length ∨ row.length = 1) :
    ∃ sums, rest.foldlM addRows first = .ok sums := by
  induction rest generalizing first with
  | nil => exact ⟨first, rfl⟩
  | cons row rest ih =>
      have fitsFirst := fits first List.mem_cons_self
      have fitsRow := fits row (by simp)
      obtain ⟨sums, added⟩ : ∃ sums, addRows first row = .ok sums := by
        rw [addRows]
        split
        · exact ⟨_, rfl⟩
        · split
          · exact ⟨_, rfl⟩
          · split
            · exact ⟨_, rfl⟩
            · omega
      rw [List.foldlM_cons, added, ok_bind]
      refine ih fun other isRow => ?_
      rcases List.mem_cons.mp isRow with rfl | isLater
      · rcases addRows_eq_ok added with ⟨kept, -⟩ | ⟨grown, -⟩
        · rw [kept]
          exact fitsFirst
        · rw [grown]
          exact fitsRow
      · exact fits other (by simp [isLater])

/-! ## Counters that are numbers -/

theorem npAdd_map_num (s1 s2 : List ℚ) :
    npAdd (s1.map num) (s2.map num) = (addRows s1 s2).map (List.map num) := by
  have headD : ∀ {row : List ℚ}, row.length = 1 → (row.map num).headD nan = num row.sum := by
    intro row isSingle
    obtain ⟨x, rfl⟩ := List.length_eq_one_iff.mp isSingle
    rw [List.sum_singleton]
    rfl
  rw [npAdd, addRows, List.length_map, List.length_map]
  split
  · show Except.ok _ = Except.ok _
    rw [List.zipWith_map, List.map_zipWith]
    rfl
  · split
    · rename_i isSingle
      show Except.ok _ = Except.ok _
      rw [headD isSingle, List.map_map, List.map_map]
      rfl
    · split
      · rename_i isSingle
        show Except.ok _ = Except.ok _
        rw [headD isSingle, List.map_map, List.map_map]
        rfl
      · rfl

theorem foldlM_npAdd_map_num (first : List ℚ) (rest : List (List ℚ)) :
    (rest.map (List.map num)).foldlM npAdd (first.map num) =
      (rest.foldlM addRows first).map (List.map num) := by
  induction rest generalizing first with
  | nil => rfl
  | cons row rest ih =>
      rw [List.map_cons, List.foldlM_cons, List.foldlM_cons, npAdd_map_num]
      cases addRows first row with
      | error fault => rfl
      | ok sums => exact ih sums

theorem npSum_map_num (row : List ℚ) : npSum (row.map num) = num row.sum := by
  have fromAny : ∀ start : ℚ, (row.map num).foldl (· + ·) (num start) = num (start + row.sum) := by
    induction row with
    | nil => simp
    | cons x rest ih =>
        intro start
        rw [List.map_cons, List.foldl_cons, num_add_num, ih, List.sum_cons, add_assoc]
  have whole := fromAny 0
  rwa [zero_add] at whole

theorem npSum_means (sums : List ℚ) {count : ℕ} (some_row : 0 < count) :
    npSum ((sums.map num).map (· / num count)) = num (sums.sum / count) := by
  have nonzero : (count : ℚ) ≠ 0 := by exact_mod_cast some_row.ne'
  have areNumbers : (sums.map num).map (· / num count) = (sums.map (· / (count : ℚ))).map num := by
    rw [List.map_map, List.map_map]
    exact List.map_congr_left fun x _ => num_div_num nonzero
  simp only [areNumbers, npSum_map_num, div_eq_mul_inv]
  rw [List.sum_map_mul_right, List.map_id']

/-! ## The mean denominator -/

/-- The average over the tables of the sums of their rows. -/
def meanTotal (values : List (List ℚ)) : ℚ := (values.map List.sum).sum / values.length

/-- All tables have equally many samples. -/
def SampledEqually (values : List (List ℚ)) : Prop :=
  ∀ first ∈ values, ∀ second ∈ values, first.length = second.length

/-- The tables with other than one sample have equally many, and the samples of the others
add up to nothing. -/
def SinglesCancel (values : List (List ℚ)) : Prop :=
  (∃ length, ∀ row ∈ values, row.length = length ∨ row.length = 1) ∧
    ((values.filter (·.length = 1)).map List.sum).sum = 0

theorem sum_stretchedSum {length : ℕ} {values : List (List ℚ)}
    (fits : ∀ row ∈ values, row.length = length ∨ row.length = 1) :
    (values.map (stretchedSum length)).sum =
      (values.map List.sum).sum +
        (length - 1) * ((values.filter (·.length = 1)).map List.sum).sum := by
  induction values with
  | nil => simp
  | cons row rest ih =>
      rw [List.map_cons, List.sum_cons, ih fun other isLater => fits other (by simp [isLater]),
        List.map_cons, List.sum_cons, stretchedSum]
      by_cases isSingle : row.length = 1
      · rw [List.filter_cons_of_pos (by simpa using isSingle), List.map_cons, List.sum_cons]
        by_cases sameLength : row.length = length
        · rw [if_pos sameLength, ← sameLength, isSingle]
          push_cast
          ring
        · rw [if_neg sameLength]
          ring
      · rw [List.filter_cons_of_neg (by simpa using isSingle),
          if_pos ((fits row List.mem_cons_self).resolve_right isSingle)]
        ring

theorem sampledEqually_iff_length {values : List (List ℚ)} {longest : List ℚ}
    (isLongest : longest ∈ values) :
    SampledEqually values ↔ ∀ row ∈ values, row.length = longest.length :=
  ⟨fun same row isRow => same row isRow longest isLongest,
    fun same first isFirst second isSecond =>
      (same first isFirst).trans (same second isSecond).symm⟩

/-- The stretched sum of all entries is the plain one in these cases. -/
theorem sum_stretched_eq_iff {values : List (List ℚ)} {longest : List ℚ}
    (isLongest : longest ∈ values)
    (fits : ∀ row ∈ values, row.length = longest.length ∨ row.length = 1) :
    (values.map (stretchedSum longest.length)).sum = (values.map List.sum).sum ↔
      SampledEqually values ∨ SinglesCancel values := by
  rw [sum_stretchedSum fits, add_eq_left, mul_eq_zero, sub_eq_zero, Nat.cast_eq_one]
  constructor
  · rintro (isSingle | cancel)
    · refine .inl ((sampledEqually_iff_length isLongest).mpr fun row isRow => ?_)
      rcases fits row isRow with sameLength | single
      · exact sameLength
      · rw [single, isSingle]
    · exact .inr ⟨⟨longest.length, fits⟩, cancel⟩
  · rintro (same | ⟨-, cancel⟩)
    · by_cases isSingle : longest.length = 1
      · exact .inl isSingle
      · refine .inr ?_
        rw [List.filter_eq_nil_iff.mpr, List.map_nil, List.sum_nil]
        intro row isRow single
        rw [← (sampledEqually_iff_length isLongest).mp same row isRow] at isSingle
        exact isSingle (of_decide_eq_true single)
    · exact .inr cancel

/-- Without need for an average all rows are the first one. -/
theorem rows_eq_first_of_equal {first : List ℚ} {rest : List (List ℚ)}
    (equal : ¬ needAveraging ((first :: rest).map (List.map num)) = true) :
    ∀ row ∈ first :: rest, row = first := by
  have num_injective : Function.Injective num := fun x y same => by cases same; rfl
  rw [needAveraging, Bool.not_eq_true, Bool.not_eq_false', decide_eq_true_iff, List.map_cons,
    List.pairwise_cons] at equal
  intro row isRow
  rcases List.mem_cons.mp isRow with rfl | isLater
  · rfl
  · have sameArray := equal.1 (row.map num) (List.mem_map_of_mem isLater)
    rw [arrayEqual, Bool.and_eq_true, decide_eq_true_iff] at sameArray
    exact (List.map_injective_iff.mpr num_injective sameArray.1).symm

/-- The average of equal totals. -/
theorem meanTotal_of_same {first : List ℚ} {rest : List (List ℚ)}
    (same : ∀ row ∈ first :: rest, row = first) : meanTotal (first :: rest) = first.sum := by
  have nonzero : ((first :: rest).length : ℚ) ≠ 0 := by
    exact_mod_cast Nat.succ_ne_zero rest.length
  have totals : (first :: rest).map List.sum = List.replicate (first :: rest).length first.sum :=
    List.eq_replicate_iff.mpr ⟨List.length_map _, fun total isTotal => by
      obtain ⟨row, isRow, rfl⟩ := List.mem_map.mp isTotal
      rw [same row isRow]⟩
  rw [meanTotal, totals, List.sum_replicate, nsmul_eq_mul, mul_div_cancel_left₀ _ nonzero]

/-- The average of the rows, summed up. -/
theorem npMeanRows_eq_mean_iff {ragged : RaggedRows} {values : List (List ℚ)}
    (some_table : values ≠ []) :
    (do
      let means ← npMeanRows ragged (values.map (List.map num))
      return npSum means) = .ok (num (meanTotal values)) ↔
      SampledEqually values ∨ (ragged = .stretched ∧ SinglesCancel values) := by
  obtain ⟨first, rest, rfl⟩ := List.exists_cons_of_ne_nil some_table
  rw [List.map_cons, npMeanRows]
  split
  · rename_i refused
    obtain ⟨isRejected, row, isRow, different⟩ := refused
    obtain ⟨values, isValue, rfl⟩ := List.mem_map.mp isRow
    rw [List.length_map, List.length_map] at different
    refine iff_of_false (fun returned => by cases returned) ?_
    rintro (same | ⟨isStretched, -⟩)
    · exact different (same values (List.mem_cons_of_mem first isValue) first List.mem_cons_self)
    · rw [isRejected] at isStretched
      cases isStretched
  · rename_i accepted
    rw [foldlM_npAdd_map_num]
    cases added : rest.foldlM addRows first with
    | error fault =>
        refine iff_of_false (fun returned => by cases returned) fun holds => ?_
        have fits : ∃ length, ∀ row ∈ first :: rest, row.length = length ∨ row.length = 1 := by
          rcases holds with same | ⟨-, fits, -⟩
          · exact ⟨first.length, fun row isRow => .inl (same row isRow first List.mem_cons_self)⟩
          · exact fits
        obtain ⟨length, fits⟩ := fits
        obtain ⟨sums, isSum⟩ := exists_foldlM_addRows fits
        cases added.symm.trans isSum
    | ok sums =>
        obtain ⟨fits, ⟨longest, isLongest, sameLength⟩, total⟩ := foldlM_addRows_eq_ok added
        rw [← sameLength] at fits total
        have some_row : 0 < (first :: rest).length := Nat.succ_pos _
        have nonzero : ((first :: rest).length : ℚ) ≠ 0 := by exact_mod_cast some_row.ne'
        show Except.ok (npSum ((sums.map num).map _)) = _ ↔ _
        rw [List.length_cons, List.length_map, ← List.length_cons, npSum_means sums some_row,
          Except.ok.injEq, ERat.num.injEq, meanTotal, div_left_inj' nonzero, total,
          sum_stretched_eq_iff isLongest fits]
        refine or_congr_right' fun unequal => (and_iff_right ?_).symm
        -- Rows of different lengths were not rejected.
        cases ragged with
        | stretched => rfl
        | rejected =>
            refine absurd ((sampledEqually_iff_length List.mem_cons_self).mpr fun row isRow => ?_)
              unequal
            rcases List.mem_cons.mp isRow with rfl | isLater
            · rfl
            · by_contra different
              refine accepted ⟨rfl, row.map num, List.mem_map_of_mem isLater, ?_⟩
              rwa [List.length_map, List.length_map]

/-- The condition: equally many samples, or rows that are stretched without an effect. -/
def MeanDefined (ragged : RaggedRows) (values : List (List ℚ)) : Prop :=
  SampledEqually values ∨ (ragged = .stretched ∧ SinglesCancel values)

/-- What `gen_inst_retired` returns is the average of the tables' sums precisely if the tables have
equally many samples. Rows that are stretched leave one more case, in which it makes no
difference. -/
theorem genInstRetired_eq_mean_iff (ragged : RaggedRows) {ctrs : List Frame}
    {values : List (List ℚ)} (some_table : ctrs ≠ [])
    (areCounts : List.Forall₂
      (fun ctr row => ctr.column "INST_RETIRED" = some (row.map num)) ctrs values) :
    genInstRetired ragged ctrs = .ok (num (meanTotal values)) ↔ MeanDefined ragged values := by
  have gotten : ctrs.mapM (Frame.get · "INST_RETIRED") = .ok (values.map (List.map num)) := by
    clear some_table
    induction areCounts with
    | nil => rfl
    | cons isCount _ ih =>
        rw [List.mapM_cons, Frame.get, isCount, ih]
        rfl
  have some_values : values ≠ [] := by
    rintro rfl
    cases areCounts
    exact some_table rfl
  rw [genInstRetired, gotten, ok_bind]
  by_cases needed : needAveraging (values.map (List.map num)) = true
  · rw [if_pos needed]
    exact npMeanRows_eq_mean_iff some_values
  · rw [if_neg needed]
    obtain ⟨first, rest, rfl⟩ := List.exists_cons_of_ne_nil some_values
    have same := rows_eq_first_of_equal needed
    have areEqual : SampledEqually (first :: rest) :=
      (sampledEqually_iff_length List.mem_cons_self).mpr fun row isRow => by rw [same row isRow]
    refine iff_of_true ?_ (.inl areEqual)
    show Except.ok (npSum (first.map num)) = _
    rw [npSum_map_num, meanTotal_of_same same]

/-! ## Averages of several groups -/

/-- The metrics to which several events contribute. -/
def groupedEvents : List (List String) := [l1dEvents, l2Events, itlbEvents, dtlbEvents]

/-- The columns that `generate_avgs` reads besides the retired instructions. -/
def averagedColumns : List String :=
  ["CPU_CLK_UNHALTED", "local_mem_traffic", "BR_MISP_RETIRED.ALL_BRANCHES", "ICACHE.MISSES",
    "UNHALTED_REFERENCE_CYCLES", "ref_cycles"] ++ groupedEvents.flatten

/-- The retired instructions of the rows in which an event was counted. -/
def Frame.retiredWith (ctrs : Frame) (counts : List ℚ) (event : String) : List ℚ :=
  keepRows (notna (ctrs.cells event)) counts

/-- The average of a metric, with the mean of the tables' retired instructions under it. -/
def meanMpki (ctrs : Frame) (counts : List ℚ) (events : List String) : ERat :=
  num 1000 * npSum (events.map fun event => npSum (filterNan (ctrs.cells event))) /
    num (meanTotal (events.map (ctrs.retiredWith counts)))

theorem keepRows_notna (cells : List ERat) : keepRows (notna cells) cells = filterNan cells := by
  induction cells with
  | nil => rfl
  | cons cell rest ih =>
      cases cell with
      | num q => exact congrArg (num q :: ·) ih
      | inf negative => exact congrArg (inf negative :: ·) ih
      | nan => exact ih

theorem Frame.get_eq_cells {ctrs : Frame} {name : String}
    (exists_column : (ctrs.column name).isSome) : ctrs.get name = .ok (ctrs.cells name) := by
  obtain ⟨cells, column⟩ := Option.isSome_iff_exists.mp exists_column
  rw [Frame.get, Frame.cells, column]
  rfl

/-- Dropping rows drops the same rows of every column. -/
theorem Frame.get_keep {ctrs : Frame} {name : String} {cells : List ERat}
    (column : ctrs.column name = some cells) (mask : List Bool) :
    (ctrs.keep mask).get name = .ok (keepRows mask cells) := by
  have kept : (ctrs.keep mask).column name = some (keepRows mask cells) :=
    congrArg (Option.map (keepRows mask)) column
  rw [Frame.get, kept]

theorem mapM_dropna {ctrs : Frame} {events : List String}
    (exist : ∀ event ∈ events, (ctrs.column event).isSome) :
    events.mapM ctrs.dropna =
      .ok (events.map fun event => ctrs.keep (notna (ctrs.cells event))) := by
  refine mapM_eq_ok_map fun event isEvent => ?_
  rw [Frame.dropna, Frame.get_eq_cells (exist event isEvent)]
  rfl

/-- An event's own column keeps the cells that are numbers. -/
theorem Frame.get_keep_notna {ctrs : Frame} {name : String}
    (exists_column : (ctrs.column name).isSome) :
    (ctrs.keep (notna (ctrs.cells name))).get name = .ok (filterNan (ctrs.cells name)) := by
  obtain ⟨cells, column⟩ := Option.isSome_iff_exists.mp exists_column
  have isCells : ctrs.cells name = cells := by
    rw [Frame.cells, column]
    rfl
  rw [Frame.get_keep column, isCells, keepRows_notna]

theorem mapM_get_keep {ctrs : Frame} {events : List String}
    (exist : ∀ event ∈ events, (ctrs.column event).isSome) :
    ((events.map fun event => ctrs.keep (notna (ctrs.cells event))).zip events).mapM
        (fun (table, event) => table.get event) =
      .ok (events.map fun event => filterNan (ctrs.cells event)) := by
  have pairs : (events.map fun event => ctrs.keep (notna (ctrs.cells event))).zip (events.map id) =
      events.map fun event => (ctrs.keep (notna (ctrs.cells event)), event) := List.zip_map'
  rw [List.map_id] at pairs
  rw [pairs, List.mapM_map]
  exact mapM_eq_ok_map fun event isEvent => Frame.get_keep_notna (exist event isEvent)

/-- The metric is the thousandfold sum of its events over what `gen_inst_retired` returns for the
tables of these events. -/
theorem groupedMpki_eq (ragged : RaggedRows) {ctrs : Frame} {events : List String}
    (exist : ∀ event ∈ events, (ctrs.column event).isSome) :
    groupedMpki ragged ctrs events = (do
      let instRetired ←
        genInstRetired ragged (events.map fun event => ctrs.keep (notna (ctrs.cells event)))
      return num 1000 * npSum (events.map fun event => npSum (filterNan (ctrs.cells event))) /
        instRetired) := by
  rw [groupedMpki, mapM_dropna exist, ok_bind]
  refine congrArg _ (funext fun instRetired => ?_)
  rw [mapM_get_keep exist, ok_bind, List.map_map]
  rfl

theorem exists_singleMpki {ctrs : Frame} {event : String} {counts : List ERat}
    (exists_column : (ctrs.column event).isSome)
    (retired : ctrs.column "INST_RETIRED" = some counts) :
    ∃ average, singleMpki ctrs event = .ok average := by
  obtain ⟨cells, column⟩ := Option.isSome_iff_exists.mp exists_column
  rw [singleMpki, Frame.dropna, Frame.get_eq_cells exists_column, ok_bind]
  show ∃ average, (do
    let counts ← (ctrs.keep _).get event
    let instructions ← (ctrs.keep _).get "INST_RETIRED"
    return num 1000 * npSum counts / npSum instructions : Except PyError ERat) = .ok average
  rw [Frame.get_keep column, ok_bind, Frame.get_keep retired, ok_bind]
  exact ⟨_, rfl⟩

/-- The tables of these events have numbers for the retired instructions. -/
theorem forall₂_retiredWith {ctrs : Frame} {counts : List ℚ} (events : List String)
    (retired : ctrs.column "INST_RETIRED" = some (counts.map num)) :
    List.Forall₂ (fun ctr row => ctr.column "INST_RETIRED" = some (row.map num))
      (events.map fun event => ctrs.keep (notna (ctrs.cells event)))
      (events.map (ctrs.retiredWith counts)) := by
  induction events with
  | nil => exact .nil
  | cons event rest ih =>
      refine .cons ?_ ih
      show (ctrs.column "INST_RETIRED").map _ = _
      rw [retired, Option.map_some, keepRows_map]
      rfl

/-- The metric is defined and has the mean denominator. -/
def UsesMean (ragged : RaggedRows) (ctrs : Frame) (counts : List ℚ) (events : List String)
    (average : ERat) : Prop :=
  (do
    let tables ← events.mapM ctrs.dropna
    genInstRetired ragged tables) = .ok (num (meanTotal (events.map (ctrs.retiredWith counts)))) ∧
  average = meanMpki ctrs counts events

theorem genInstRetired_keep_iff (ragged : RaggedRows) {ctrs : Frame} {counts : List ℚ}
    {events : List String} (some_event : events ≠ [])
    (retired : ctrs.column "INST_RETIRED" = some (counts.map num)) :
    genInstRetired ragged (events.map fun event => ctrs.keep (notna (ctrs.cells event))) =
        .ok (num (meanTotal (events.map (ctrs.retiredWith counts)))) ↔
      MeanDefined ragged (events.map (ctrs.retiredWith counts)) :=
  genInstRetired_eq_mean_iff ragged (fun none => some_event (List.map_eq_nil_iff.mp none))
    (forall₂_retiredWith events retired)

theorem UsesMean.meanDefined {ragged : RaggedRows} {ctrs : Frame} {counts : List ℚ}
    {events : List String} {average : ERat} (some_event : events ≠ [])
    (retired : ctrs.column "INST_RETIRED" = some (counts.map num))
    (exist : ∀ event ∈ events, (ctrs.column event).isSome)
    (usesMean : UsesMean ragged ctrs counts events average) :
    MeanDefined ragged (events.map (ctrs.retiredWith counts)) := by
  have isMean := usesMean.1
  rw [mapM_dropna exist, ok_bind] at isMean
  exact (genInstRetired_keep_iff ragged some_event retired).mp isMean

theorem exists_groupedMpki {ragged : RaggedRows} {ctrs : Frame} {counts : List ℚ}
    {events : List String} (some_event : events ≠ [])
    (retired : ctrs.column "INST_RETIRED" = some (counts.map num))
    (exist : ∀ event ∈ events, (ctrs.column event).isSome)
    (isMean : MeanDefined ragged (events.map (ctrs.retiredWith counts))) :
    ∃ average, groupedMpki ragged ctrs events = .ok average ∧
      UsesMean ragged ctrs counts events average := by
  have isDenominator := (genInstRetired_keep_iff ragged some_event retired).mpr isMean
  rw [groupedMpki_eq ragged exist, isDenominator]
  refine ⟨_, rfl, ?_, rfl⟩
  rw [mapM_dropna exist, ok_bind]
  exact isDenominator

/-- The averages over several groups. -/
def ProfileAvgs.UseMeans (avgs : ProfileAvgs) (ragged : RaggedRows) (ctrs : Frame)
    (counts : List ℚ) : Prop :=
  UsesMean ragged ctrs counts l1dEvents avgs.avgL1dMpki ∧
    UsesMean ragged ctrs counts l2Events avgs.avgL2Mpki ∧
    UsesMean ragged ctrs counts itlbEvents avgs.avgItlbMpki ∧
    UsesMean ragged ctrs counts dtlbEvents avgs.avgDtlbMpki

/-- The whole dictionary. -/
theorem generateAvgs_useMeans_iff (ragged : RaggedRows) {ctrs : Frame} {counts : List ℚ}
    (tscFreqMhz : ℤ) (retired : ctrs.column "INST_RETIRED" = some (counts.map num))
    (exist : ∀ name ∈ averagedColumns, (ctrs.column name).isSome) :
    (∃ avgs, generateAvgs ragged ctrs tscFreqMhz = .ok avgs ∧
        avgs.UseMeans ragged ctrs counts) ↔
      ∀ events ∈ groupedEvents, MeanDefined ragged (events.map (ctrs.retiredWith counts)) := by
  have existGrouped : ∀ events ∈ groupedEvents, ∀ event ∈ events, (ctrs.column event).isSome :=
    fun events isGrouped event isEvent =>
      exist event (List.mem_append_right _ (List.mem_flatten.mpr ⟨events, isGrouped, isEvent⟩))
  have some_event : ∀ events ∈ groupedEvents, events ≠ [] := by decide
  have gotten : ∀ name ∈ averagedColumns, ctrs.get name = .ok (ctrs.cells name) :=
    fun name isRead => Frame.get_eq_cells (exist name isRead)
  obtain ⟨brMpki, isBr⟩ := exists_singleMpki
    (exist "BR_MISP_RETIRED.ALL_BRANCHES" (by decide)) retired
  obtain ⟨l1iMpki, isL1i⟩ := exists_singleMpki (exist "ICACHE.MISSES" (by decide)) retired
  have retiredCells : ctrs.get "INST_RETIRED" = .ok (counts.map num) := by
    rw [Frame.get, retired]
  rw [generateAvgs, retiredCells, gotten "CPU_CLK_UNHALTED" (by decide),
    gotten "local_mem_traffic" (by decide), isBr, isL1i,
    gotten "UNHALTED_REFERENCE_CYCLES" (by decide), gotten "ref_cycles" (by decide)]
  simp only [ok_bind]
  constructor
  · rintro ⟨avgs, -, l1d, l2, itlb, dtlb⟩ events isGrouped
    have usesMean : ∃ average, UsesMean ragged ctrs counts events average := by
      simp only [groupedEvents, List.mem_cons, List.not_mem_nil, or_false] at isGrouped
      rcases isGrouped with rfl | rfl | rfl | rfl
      · exact ⟨_, l1d⟩
      · exact ⟨_, l2⟩
      · exact ⟨_, itlb⟩
      · exact ⟨_, dtlb⟩
    obtain ⟨average, usesMean⟩ := usesMean
    exact usesMean.meanDefined (some_event events isGrouped) retired (existGrouped events isGrouped)
  · intro areMeans
    have grouped : ∀ events ∈ groupedEvents, ∃ average,
        groupedMpki ragged ctrs events = .ok average ∧
          UsesMean ragged ctrs counts events average :=
      fun events isGrouped => exists_groupedMpki (some_event events isGrouped) retired
        (existGrouped events isGrouped) (areMeans events isGrouped)
    obtain ⟨l1dMpki, isL1d, l1d⟩ := grouped l1dEvents (by decide)
    obtain ⟨l2Mpki, isL2, l2⟩ := grouped l2Events (by decide)
    obtain ⟨itlbMpki, isItlb, itlb⟩ := grouped itlbEvents (by decide)
    obtain ⟨dtlbMpki, isDtlb, dtlb⟩ := grouped dtlbEvents (by decide)
    rw [isL1d, isL2, isItlb, isDtlb]
    exact ⟨_, rfl, l1d, l2, itlb, dtlb⟩

/-- `gen_inst_retired` and the averages that divide by it have the mean of the tables precisely if
the tables have equally many samples, or samples that are stretched without an effect. -/
theorem averages_useMeans_iff (ragged : RaggedRows) :
    (∀ (ctrs : List Frame) (values : List (List ℚ)), ctrs ≠ [] →
      List.Forall₂ (fun ctr row => ctr.column "INST_RETIRED" = some (row.map num)) ctrs values →
      (genInstRetired ragged ctrs = .ok (num (meanTotal values)) ↔ MeanDefined ragged values)) ∧
    ∀ (ctrs : Frame) (counts : List ℚ) (tscFreqMhz : ℤ),
      ctrs.column "INST_RETIRED" = some (counts.map num) →
      (∀ name ∈ averagedColumns, (ctrs.column name).isSome) →
      ((∃ avgs, generateAvgs ragged ctrs tscFreqMhz = .ok avgs ∧
          avgs.UseMeans ragged ctrs counts) ↔
        ∀ events ∈ groupedEvents, MeanDefined ragged (events.map (ctrs.retiredWith counts))) :=
  ⟨fun _ _ some_table areCounts => genInstRetired_eq_mean_iff ragged some_table areCounts,
    fun _ _ tscFreqMhz retired exist => generateAvgs_useMeans_iff ragged tscFreqMhz retired exist⟩

/-! ## Groups that take turns -/

/-- Two groups are sampled in turns, each counting every second event. -/
def rotatedColumn (first second : List ERat) (counts : List ℚ) (name : String) :
    Option (List ERat) :=
  if name = "INST_RETIRED" then some (counts.map num)
  else if name ∈ ["MEM_LOAD_UOPS_RETIRED.L1_MISS", "MEM_LOAD_UOPS_RETIRED.L2_MISS"] then some first
  else if name ∈ averagedColumns then some second
  else none

/-- The table of such a run. -/
def rotatedTable (first second : List ERat) (counts : List ℚ)
    (sameRows : first.length = counts.length ∧ second.length = counts.length) : Frame where
  rows := counts.length
  column := rotatedColumn first second counts
  rectangular name cells isColumn := by
    rw [rotatedColumn] at isColumn
    split at isColumn
    · cases isColumn
      exact List.length_map _
    · split at isColumn
      · cases isColumn
        exact sameRows.1
      · split at isColumn
        · cases isColumn
          exact sameRows.2
        · cases isColumn

/-- Four samples, two for each group. -/
def evenTable : Frame :=
  rotatedTable [num 1, nan, num 3, nan] [nan, num 2, nan, num 4] [1000, 2000, 3000, 4000]
    (by decide)

/-- Five samples, three for the first group and two for the second. -/
def fiveSamples : Frame :=
  rotatedTable [num 1, nan, num 3, nan, num 5] [nan, num 2, nan, num 4, nan]
    [1000, 2000, 3000, 4000, 5000] (by decide)

/-- Three samples, one of them for the second group. -/
def threeSamples : Frame :=
  rotatedTable [num 1, nan, num 3] [nan, num 2, nan] [1000, 2000, 3000] (by decide)

/-- The tables that the misses of the first level are averaged over. -/
def l1dTables (ctrs : Frame) : List Frame :=
  l1dEvents.map fun event => ctrs.keep (notna (ctrs.cells event))

theorem evenTable_averages_useMeans_iff :
    (genInstRetired .rejected (l1dTables evenTable) =
        .ok (num (meanTotal [[1000, 3000], [2000, 4000]])) ↔
      MeanDefined .rejected [[1000, 3000], [2000, 4000]]) ∧
    ((∃ avgs, generateAvgs .rejected evenTable 2000 = .ok avgs ∧
        avgs.UseMeans .rejected evenTable [1000, 2000, 3000, 4000]) ↔
      ∀ events ∈ groupedEvents, MeanDefined .rejected
        (events.map (evenTable.retiredWith [1000, 2000, 3000, 4000]))) :=
  ⟨(averages_useMeans_iff .rejected).1 _ _ (by decide) (.cons rfl (.cons rfl .nil)),
    (averages_useMeans_iff .rejected).2 evenTable _ 2000 rfl (by decide)⟩

/-- Three and two samples cannot be averaged. Two and one are either not averaged, or the one is
counted twice. -/
theorem uneven_groups_miss_mean :
    genInstRetired .stretched (l1dTables fiveSamples) = .error .valueError ∧
    genInstRetired .rejected (l1dTables fiveSamples) = .error .valueError ∧
    (∀ ragged, generateAvgs ragged fiveSamples 2000 = .error .valueError) ∧
    genInstRetired .rejected (l1dTables threeSamples) = .error .valueError ∧
    genInstRetired .stretched (l1dTables threeSamples) = .ok (num 4000) ∧
    meanTotal [[1000, 3000], [2000]] = 3000 := by
  refine ⟨by decide, by decide, fun ragged => ?_, by decide, by decide +kernel,
    by norm_num [meanTotal]⟩
  cases ragged <;> rfl

end Datamime.Search
