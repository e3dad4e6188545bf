/-
# The file of the parameters

Every iteration of the search appends a row with its parameter values to a file, and the
first one writes the names above it. An iteration is evaluated again from its row: the names
come from the head of the file, and every value is read as a double.
-/

import Datamime.Math.Run
import Datamime.Search.Workloads

namespace Datamime.Search

open Datamime.Math

section

variable {doubles : Doubles}

/-! ## The search -/

/-- What the optimizer passes to the objective function. -/
inductive Point (doubles : Doubles)
  | dict (params : Params doubles)
  | listed (values : List (PyNumber doubles))

/-- Bind listed values in the order of `all_params`. -/
def bindListed : List ParamDetails → List (PyNumber doubles) → Params doubles →
    Except PyError (Params doubles)
  | [], _, params => .ok params
  | _ :: _, [], _ => .error .indexError
  | details :: rest, value :: values, params =>
      bindListed rest values (params.insert details.name value)

/-- The dictionary of a point. -/
def paramsOf (wltype : WorkloadType) : Point doubles → Except PyError (Params doubles)
  | .dict params => .ok params
  | .listed values => bindListed (allParams wltype) values Dict.empty

/-- A call of `Workload.run` that returned: its parameters and the texts built from them. -/
structure Call (doubles : Doubles) where
  params : Params doubles
  launches : Launches

/-- The state of a search: the text of `params.out`, and the calls so far. -/
structure SearchState (doubles : Doubles) where
  runs : ℕ
  paramsOut : List Char
  calls : List (Call doubles)

/-- Before the first iteration. -/
def SearchState.initial : SearchState doubles := ⟨0, [], []⟩

/-- `bayesopt_objective_fn`, up to the return of `Workload.run`. -/
def bayesoptObjectiveFn (site : Site) (wltype : WorkloadType) (st : SearchState doubles)
    (point : Point doubles) : Except PyError (SearchState doubles) := do
  let params ← paramsOf wltype point
  let pnames := params.entries.flatMap fun entry => entry.1 ++ [',']
  let pvals := params.entries.flatMap fun entry => entry.2.str ++ [',']
  let head := if st.runs = 0 then pnames.dropLast ++ ['\n'] else []
  let launches ← workloadRun site wltype params
  return {
    runs := st.runs + 1
    paramsOut := st.paramsOut ++ head ++ (pvals.dropLast ++ ['\n'])
    calls := st.calls ++ [⟨params, launches⟩] }

/-! ## The evaluation of an iteration -/

/-- A two-dimensional array, by its columns. -/
structure ByColumns (doubles : Doubles) where
  columns : List (List doubles.Double)

/-- `np.array(rows).transpose().astype(float)`: rows of one length, all of whose fields can be
read. -/
def transposed (doubles : Doubles) (rows : List (List (List Char))) :
    Except PyError (ByColumns doubles) :=
  if ∀ row ∈ rows, row.length = (rows.headD []).length then
    match rows.mapM fun row => row.mapM doubles.read? with
    | some columns => .ok ⟨columns⟩
    | none => .error .valueError
  else .error .valueError

/-- `params[:, i]`. -/
def ByColumns.column (params : ByColumns doubles) (i : ℕ) :
    Except PyError (List doubles.Double) :=
  match params.columns[i]? with
  | some column => .ok column
  | none => .error .indexError

/-- `load_costs_params`, as far as the parameters go: the names, and one column for each
iteration. -/
def loadCostsParams (doubles : Doubles) (paramsOut : List Char) :
    Except PyError (List (List Char) × ByColumns doubles) :=
  match (Text.lines paramsOut).map Text.strip with
  | [] => do return ([], ← transposed doubles [])
  | head :: rows => do
      return (head.splitOn ',', ← transposed doubles (rows.map fun row => row.splitOn ','))

/-- `construct_params`. -/
def constructParams (paramLabels : List (List Char)) (params : List doubles.Double) :
    Params doubles :=
  Dict.empty.insertAll (paramLabels.zip (params.map .float))

/-- The parameters that `--evaliter` passes to `Workload.run`. -/
def paramsToEval (doubles : Doubles) (paramsOut : List Char) (evaliter : ℕ) :
    Except PyError (Params doubles) := do
  let (labels, loadedParams) ← loadCostsParams doubles paramsOut
  let column ← loadedParams.column evaliter
  return constructParams labels column

/-! ## What is written is read -/

/-- The names of a dictionary. -/
def names (params : Params doubles) : List (List Char) := params.entries.map Prod.fst

/-- The values of a dictionary. -/
def values (params : Params doubles) : List (PyNumber doubles) := params.entries.map Prod.snd

/-- The row of an iteration. -/
def rowOf (params : Params doubles) : List Char :=
  Text.commaJoined ((values params).map PyNumber.str)

/-- The lines of the file after some calls. -/
def fileLines : List (Call doubles) → List (List Char)
  | [] => []
  | first :: rest =>
      Text.commaJoined (names first.params) ::
        (first :: rest).map fun call => rowOf call.params

theorem fileLines_concat (calls : List (Call doubles)) (call : Call doubles) :
    Text.unlines (fileLines (calls ++ [call])) =
      Text.unlines (fileLines calls) ++
        (if calls.length = 0 then Text.commaJoined (names call.params) ++ ['\n'] else []) ++
        (rowOf call.params ++ ['\n']) := by
  cases calls with
  | nil => simp [fileLines, Text.unlines]
  | cons first rest => simp [fileLines, Text.unlines]

/-- The file of a search holds the names of the first call and the values of all calls. -/
theorem paramsOut_of_run {site : Site} {wltype : WorkloadType} {points : List (Point doubles)}
    {st : SearchState doubles}
    (searched : run (bayesoptObjectiveFn site wltype) .initial points = .ok st) :
    st.runs = st.calls.length ∧ st.paramsOut = Text.unlines (fileLines st.calls) ∧
      ∀ call ∈ st.calls, workloadRun site wltype call.params = .ok call.launches := by
  refine @run_invariant _ _ _ (bayesoptObjectiveFn site wltype)
    (fun st => st.runs = st.calls.length ∧ st.paramsOut = Text.unlines (fileLines st.calls) ∧
      ∀ call ∈ st.calls, workloadRun site wltype call.params = .ok call.launches)
    (fun st point next kept stepped => ?_) _ _ _ ⟨rfl, rfl, fun _ absent => by cases absent⟩
    searched
  obtain ⟨runs, text, ran⟩ := kept
  obtain ⟨params, -, stepped⟩ := bind_eq_ok_iff.mp stepped
  obtain ⟨launches, isRun, stepped⟩ := bind_eq_ok_iff.mp stepped
  cases stepped
  refine ⟨by simp [runs], ?_, fun call isCall => ?_⟩
  · have pnames : (params.entries.flatMap fun entry => entry.1 ++ [',']).dropLast =
        Text.commaJoined (names params) := by
      rw [← Text.dropLast_flatMap_comma, names, List.flatMap_map]
    have pvals : (params.entries.flatMap fun entry => entry.2.str ++ [',']).dropLast =
        rowOf params := by
      rw [rowOf, ← Text.dropLast_flatMap_comma, values, List.map_map, List.flatMap_map]
      rfl
    dsimp only
    rw [fileLines_concat, text, runs, pnames, pvals]
  · rcases List.mem_append.mp isCall with earlier | isNew
    · exact ran call earlier
    · rw [List.mem_singleton.mp isNew]
      exact isRun

/-- Names that can be told apart in a line of the file. -/
structure Nameable (params : Params doubles) : Prop where
  some_name : names params ≠ []
  areWords : ∀ name ∈ names params, Text.IsWord name
  noComma : ∀ name ∈ names params, ',' ∉ name

theorem Nameable.some_value {params : Params doubles} (nameable : Nameable params) :
    (values params).map PyNumber.str ≠ [] := by
  have some_name := nameable.some_name
  rw [names, Ne, List.map_eq_nil_iff] at some_name
  simpa [values] using some_name

theorem splitOn_rowOf {params : Params doubles} (nameable : Nameable params) :
    (rowOf params).splitOn ',' = (values params).map PyNumber.str := by
  refine Text.splitOn_commaJoined nameable.some_value fun field isField => ?_
  obtain ⟨value, -, rfl⟩ := List.mem_map.mp isField
  exact value.comma_not_mem_str

/-- No line of the file has blanks. -/
theorem isBlank_of_mem_fileLines {calls : List (Call doubles)}
    (nameable : ∀ call ∈ calls, Nameable call.params) {line : List Char}
    (isLine : line ∈ fileLines calls) {c : Char} (isMember : c ∈ line) :
    Text.isBlank c = false := by
  cases calls with
  | nil => cases isLine
  | cons first rest =>
      rcases List.mem_cons.mp isLine with rfl | isRow
      · exact Text.isBlank_of_mem_commaJoined
          (nameable first List.mem_cons_self).areWords isMember
      · obtain ⟨call, -, rfl⟩ := List.mem_map.mp isRow
        refine Text.isBlank_of_mem_commaJoined (fun field isField => ?_) isMember
        obtain ⟨value, -, rfl⟩ := List.mem_map.mp isField
        exact value.isWord_str

/-- All values of a row can be read. -/
theorem mapM_read?_str (list : List (PyNumber doubles)) :
    (list.map PyNumber.str).mapM doubles.read? = some (list.map PyNumber.toFloat) := by
  induction list with
  | nil => rfl
  | cons value rest ih => simp [ih]

theorem mapM_read?_rows (calls : List (Call doubles)) :
    (calls.map fun call => (values call.params).map PyNumber.str).mapM
        (fun row => row.mapM doubles.read?) =
      some (calls.map fun call => (values call.params).map PyNumber.toFloat) := by
  induction calls with
  | nil => rfl
  | cons call rest ih =>
      rw [List.map_cons, List.mapM_cons, mapM_read?_str, ih]
      rfl

/-- Loading the file of a search returns the names of the first call, and as columns the values
of all calls as doubles. -/
theorem loadCostsParams_fileLines {first : Call doubles} {rest : List (Call doubles)}
    (nameable : ∀ call ∈ first :: rest, Nameable call.params)
    (sameLength : ∀ call ∈ first :: rest,
      (values call.params).length = (values first.params).length) :
    loadCostsParams doubles (Text.unlines (fileLines (first :: rest))) =
      .ok (names first.params,
        ⟨(first :: rest).map fun call => (values call.params).map PyNumber.toFloat⟩) := by
  have plain := fun line isLine c isMember =>
    @isBlank_of_mem_fileLines _ _ nameable line isLine c isMember
  have oneLine : ∀ line ∈ fileLines (first :: rest), '\n' ∉ line := fun line isLine isMember =>
    absurd (plain line isLine '\n' isMember) (by decide)
  have stripped : (fileLines (first :: rest)).map Text.strip = fileLines (first :: rest) := by
    calc (fileLines (first :: rest)).map Text.strip
        = (fileLines (first :: rest)).map id :=
          List.map_congr_left fun line isLine => Text.strip_of_plain (plain line isLine)
      _ = fileLines (first :: rest) := List.map_id _
  have isFirst := nameable first List.mem_cons_self
  have rows : ((first :: rest).map fun call => rowOf call.params).map (fun row => row.splitOn ',') =
      (first :: rest).map fun call => (values call.params).map PyNumber.str := by
    rw [List.map_map]
    exact List.map_congr_left fun call isCall => splitOn_rowOf (nameable call isCall)
  have rectangular : ∀ row ∈ (first :: rest).map fun call => (values call.params).map PyNumber.str,
      row.length = (((first :: rest).map fun call =>
        (values call.params).map PyNumber.str).headD []).length := by
    intro row isRow
    obtain ⟨call, isCall, rfl⟩ := List.mem_map.mp isRow
    show _ = ((values first.params).map PyNumber.str).length
    rw [List.length_map, List.length_map, sameLength call isCall]
  rw [loadCostsParams, Text.lines_unlines oneLine, stripped, fileLines]
  dsimp only
  rw [rows, Text.splitOn_commaJoined isFirst.some_name isFirst.noComma, transposed,
    if_pos rectangular, mapM_read?_rows]
  rfl

/-- The parameters of an evaluation: the names of the first call, bound to the values of the
iteration as doubles. -/
theorem paramsToEval_fileLines {first : Call doubles} {rest : List (Call doubles)}
    (nameable : ∀ call ∈ first :: rest, Nameable call.params)
    (sameLength : ∀ call ∈ first :: rest,
      (values call.params).length = (values first.params).length)
    {evaliter : ℕ} {call : Call doubles} (isCall : (first :: rest)[evaliter]? = some call) :
    paramsToEval doubles (Text.unlines (fileLines (first :: rest))) evaliter =
      .ok (constructParams (names first.params) ((values call.params).map PyNumber.toFloat)) := by
  rw [paramsToEval, loadCostsParams_fileLines nameable sameLength, ok_bind]
  dsimp only
  rw [ByColumns.column, List.getElem?_map, isCall]
  rfl

end

end Datamime.Search
