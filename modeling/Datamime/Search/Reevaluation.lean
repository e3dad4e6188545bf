/-
# Evaluating an iteration again

The row of an iteration keeps the values of its parameters, but not whether they were
integers: the evaluation binds doubles of the same values. A workload that prints its
parameters then builds other texts than in the search, and so looks for other files. Only
one workload converts all of its parameters before it prints them.
-/

import Datamime.Search.Params

namespace Datamime.Search

open Datamime.Math

section

variable {doubles : Doubles} {site : Site} {wltype : WorkloadType}

/-! ## Dictionaries of parameters -/

/-- A dictionary that binds the parameters of a workload, each integer between its bounds. -/
structure Within (wltype : WorkloadType) (params : Params doubles) : Prop where
  names : (names params).Perm (paramNames wltype)
  bounds : ∀ details ∈ allParams wltype, ∀ n : ℤ,
    params.get? details.name = some (.int n) → details.lower ≤ n ∧ n ≤ details.upper

/-- The same names are bound to equal values. -/
def SameParams (first second : Params doubles) : Prop :=
  ∀ name, Option.Rel PyNumber.Same (first.get? name) (second.get? name)

/-- The value of each parameter stands where the first dictionary has its name. -/
def InOrder (first params : Params doubles) : Prop :=
  ∀ (position : ℕ) (name : List Char) (value own : PyNumber doubles),
    (names first)[position]? = some name → (values params)[position]? = some value →
    params.get? name = some own → value.toFloat = own.toFloat

/-- Every parameter is a double. -/
def AllFloats (params : Params doubles) : Prop :=
  ∀ name value, params.get? name = some value → value.isFloat = true

/-- An evaluation binds the parameters of a call to equal values, and the workload builds the
same texts from them. -/
def Reproduces (site : Site) (wltype : WorkloadType) (call : Call doubles)
    (evaluated : Except PyError (Params doubles)) : Prop :=
  ∃ loaded, evaluated = .ok loaded ∧ SameParams call.params loaded ∧
    workloadRun site wltype loaded = .ok call.launches

theorem mem_names_iff {params : Params doubles} {name : List Char} :
    name ∈ names params ↔ ∃ value, params.get? name = some value := by
  rw [names, List.mem_map]
  constructor
  · rintro ⟨⟨_, value⟩, listed, rfl⟩
    exact ⟨value, (Dict.mem_entries_iff _).mp listed⟩
  · rintro ⟨value, bound⟩
    exact ⟨(name, value), (Dict.mem_entries_iff _).mpr bound, rfl⟩

/-- The names of all parameters can be told apart in a line. -/
theorem paramNames_plain (wltype : WorkloadType) :
    paramNames wltype ≠ [] ∧
      ∀ name ∈ paramNames wltype, Text.IsWord name ∧ ',' ∉ name := by
  cases wltype <;> decide

/-- No bound exceeds what a double can count. -/
theorem bounds_small (wltype : WorkloadType) :
    ∀ details ∈ allParams wltype, 0 ≤ details.lower ∧ details.upper ≤ 300000 := by
  cases wltype <;> simp only [allParams, List.forall_mem_cons] <;> norm_num

namespace Within

variable {params : Params doubles}

theorem mem_names_iff (within : Within wltype params) {name : List Char} :
    name ∈ Search.names params ↔ name ∈ paramNames wltype := within.names.mem_iff

theorem nameable (within : Within wltype params) : Nameable params := by
  obtain ⟨some_name, plain⟩ := paramNames_plain wltype
  refine ⟨fun none => ?_, fun name isName => (plain name (within.mem_names_iff.mp isName)).1,
    fun name isName => (plain name (within.mem_names_iff.mp isName)).2⟩
  have isPerm := within.names
  rw [none] at isPerm
  exact some_name isPerm.nil_eq.symm

theorem small (within : Within wltype params) {name : List Char} {n : ℤ}
    (bound : params.get? name = some (.int n)) : |n| ≤ 2 ^ 53 := by
  have isName := within.mem_names_iff.mp (Search.mem_names_iff.mpr ⟨_, bound⟩)
  obtain ⟨details, isParam, rfl⟩ := List.mem_map.mp isName
  obtain ⟨lower, upper⟩ := within.bounds details isParam n bound
  obtain ⟨nonneg, atMost⟩ := bounds_small wltype details isParam
  have isNonneg : (0 : ℤ) ≤ n := by exact_mod_cast nonneg.trans lower
  have isSmall : n ≤ 300000 := by exact_mod_cast upper.trans atMost
  rw [abs_of_nonneg isNonneg]
  omega

end Within

/-! ## What an evaluation binds -/

section

variable {first params : Params doubles}

theorem length_values : (values params).length = (names params).length := by
  rw [values, names, List.length_map, List.length_map]

/-- A name is bound to the double of the value at its position. -/
theorem get?_constructParams (sameLength : (names first).length = (values params).length)
    {position : ℕ} {name : List Char} {value : PyNumber doubles}
    (isName : (names first)[position]? = some name)
    (isValue : (values params)[position]? = some value) :
    (constructParams (names first) ((values params).map PyNumber.toFloat)).get? name =
      some (.float value.toFloat) := by
  have isPair : (name, PyNumber.float value.toFloat) ∈
      (names first).zip (((values params).map PyNumber.toFloat).map .float) := by
    refine List.mem_of_getElem? (i := position) ?_
    rw [List.getElem?_zip_eq_some, List.getElem?_map, List.getElem?_map, isValue]
    exact ⟨isName, rfl⟩
  refine Dict.get?_insertAll_of_mem ?_ isPair
  rw [List.map_fst_zip (by simp [sameLength])]
  exact first.distinct

theorem get?_constructParams_eq_none {name : List Char} (notName : name ∉ names first)
    (list : List doubles.Double) : (constructParams (names first) list).get? name = none := by
  refine (Dict.get?_insertAll_of_not_mem fun isMember => notName ?_).trans (Dict.get?_empty name)
  obtain ⟨⟨_, value⟩, isPair, rfl⟩ := List.mem_map.mp isMember
  exact (List.of_mem_zip isPair).1

theorem length_names_eq (withinFirst : Within wltype first) (within : Within wltype params) :
    (names first).length = (values params).length := by
  rw [length_values, within.names.length_eq, withinFirst.names.length_eq]

/-- The position of a parameter, and what stands there in the row of another dictionary. -/
theorem exists_position (withinFirst : Within wltype first) (within : Within wltype params)
    {name : List Char} {own : PyNumber doubles} (bound : params.get? name = some own) :
    ∃ (position : ℕ) (value : PyNumber doubles), (names first)[position]? = some name ∧
      (values params)[position]? = some value := by
  have isName : name ∈ names first :=
    withinFirst.mem_names_iff.mpr (within.mem_names_iff.mp (mem_names_iff.mpr ⟨own, bound⟩))
  obtain ⟨position, isPosition⟩ := List.mem_iff_getElem?.mp isName
  have inside := (List.getElem?_eq_some_iff.mp isPosition).1
  rw [length_names_eq withinFirst within] at inside
  exact ⟨position, (values params).get ⟨position, inside⟩, isPosition,
    List.getElem?_eq_getElem inside⟩

/-- The evaluation binds equal values precisely if the row was written in the order of the
names. -/
theorem sameParams_constructParams_iff (withinFirst : Within wltype first)
    (within : Within wltype params) :
    SameParams params
        (constructParams (names first) ((values params).map PyNumber.toFloat)) ↔
      InOrder first params := by
  have sameLength := length_names_eq withinFirst within
  constructor
  · intro same position name value own isName isValue isOwn
    have related := same name
    rw [isOwn, get?_constructParams sameLength isName isValue] at related
    cases related with
    | some equal => exact equal.toFloat_eq.symm
  · intro inOrder name
    cases bound : params.get? name with
    | none =>
        have notName : name ∉ names first := fun isName => by
          obtain ⟨own, isOwn⟩ := mem_names_iff.mp
            (within.mem_names_iff.mpr (withinFirst.mem_names_iff.mp isName))
          rw [bound] at isOwn
          cases isOwn
        rw [get?_constructParams_eq_none notName]
        exact .none
    | some own =>
        obtain ⟨position, value, isName, isValue⟩ := exists_position withinFirst within bound
        rw [get?_constructParams sameLength isName isValue,
          inOrder position name value own isName isValue bound]
        refine .some (PyNumber.same_float_toFloat fun n isInt => ?_)
        rw [isInt] at bound
        exact within.small bound

end

/-! ## The texts of a workload -/

/-- A dictionary with the parameters of another one, as doubles. -/
def LoadedFrom (params loaded : Params doubles) : Prop :=
  ∀ name value, params.get? name = some value → loaded.get? name = some (.float value.toFloat)

theorem param_eq_ok_iff {params : Params doubles} {name : String} {value : PyNumber doubles} :
    param params name = .ok value ↔ params.get? name.toList = some value := by
  rw [param]
  cases params.get? name.toList with
  | none => exact ⟨nofun, nofun⟩
  | some other =>
      rw [Option.some.injEq]
      exact ⟨Except.ok.inj, congrArg _⟩

theorem pathJoin_inj {directory first second : List Char} :
    pathJoin directory first = pathJoin directory second ↔ first = second := by
  rw [pathJoin, pathJoin]
  split
  · exact List.append_right_inj directory
  · rw [List.append_right_inj, List.cons.injEq, and_iff_right rfl]

section

variable {params loaded : Params doubles} {launches : Launches}

theorem LoadedFrom.param (loads : LoadedFrom params loaded) {name : String}
    {value : PyNumber doubles} (bound : param params name = .ok value) :
    Search.param loaded name = .ok (.float value.toFloat) :=
  param_eq_ok_iff.mpr (loads _ value (param_eq_ok_iff.mp bound))

/-- Doubles are read back as they were. -/
theorem LoadedFrom.param_eq (loads : LoadedFrom params loaded) (floats : AllFloats params)
    {name : String} {value : PyNumber doubles} (bound : Search.param params name = .ok value) :
    Search.param loaded name = Search.param params name := by
  rw [loads.param bound, bound,
    ← PyNumber.eq_float_of_isFloat (floats _ _ (param_eq_ok_iff.mp bound))]

/-- A parameter whose text stays the same was a double. -/
theorem isFloat_of_loaded {key : List Char} {old value : PyNumber doubles}
    (isOld : params.get? key = some old) (bound : params.get? key = some value)
    (same : (PyNumber.float old.toFloat : PyNumber doubles).str = old.str) :
    value.isFloat = true := by
  cases isOld.symm.trans bound
  exact PyNumber.isFloat_of_str_eq same.symm

/-- The parameters of `XapianWorkload` are printed, two of them multiplied. -/
theorem xapianRun_loaded_iff (loads : LoadedFrom params loaded)
    (names : ∀ name value, params.get? name = some value → name ∈ paramNames .xapian)
    (ran : xapianRun site params = .ok launches) :
    xapianRun site loaded = .ok launches ↔ AllFloats params := by
  obtain ⟨qps, isQps, ran⟩ := bind_eq_ok_iff.mp ran
  obtain ⟨skew, isSkew, ran⟩ := bind_eq_ok_iff.mp ran
  obtain ⟨termsUlimit, isTermsUlimit, ran⟩ := bind_eq_ok_iff.mp ran
  obtain ⟨avgDocLen, isAvgDocLen, ran⟩ := bind_eq_ok_iff.mp ran
  cases ran
  have evaluated : xapianRun site loaded = .ok (xapianLaunches site (.float qps.toFloat)
      (.float skew.toFloat) (.float termsUlimit.toFloat) (.float avgDocLen.toFloat)) := by
    rw [xapianRun, loads.param isQps, ok_bind, loads.param isSkew, ok_bind,
      loads.param isTermsUlimit, ok_bind, loads.param isAvgDocLen]
    rfl
  rw [evaluated, Except.ok.injEq]
  rw [param_eq_ok_iff] at isQps isSkew isTermsUlimit isAvgDocLen
  constructor
  · intro same
    simp only [xapianLaunches, Launches.mk.injEq, List.cons.injEq, Prod.mk.injEq, true_and,
      and_true, pathJoin_inj, List.append_right_inj] at same
    obtain ⟨sameAvgdl, sameQps, sameSkew, sameFile⟩ := same
    rw [sameAvgdl, List.append_left_inj, List.append_right_inj] at sameFile
    intro name value bound
    have isName := names name value bound
    simp only [paramNames, allParams, List.map_cons, List.map_nil, List.mem_cons, List.not_mem_nil,
      or_false] at isName
    rcases isName with rfl | rfl | rfl | rfl
    · exact isFloat_of_loaded isQps bound sameQps
    · exact isFloat_of_loaded isSkew bound sameSkew
    · cases isTermsUlimit.symm.trans bound
      exact PyNumber.isFloat_of_str_mul_eq sameFile.symm
    · cases isAvgDocLen.symm.trans bound
      exact PyNumber.isFloat_of_str_mul_eq sameAvgdl.symm
  · intro floats
    rw [← PyNumber.eq_float_of_isFloat (floats _ _ isQps),
      ← PyNumber.eq_float_of_isFloat (floats _ _ isSkew),
      ← PyNumber.eq_float_of_isFloat (floats _ _ isTermsUlimit),
      ← PyNumber.eq_float_of_isFloat (floats _ _ isAvgDocLen)]

/-- All parameters of `DnnWorkload` are printed. -/
theorem dnnRun_loaded_iff (loads : LoadedFrom params loaded)
    (names : ∀ name value, params.get? name = some value → name ∈ paramNames .dnn)
    (ran : dnnRun site params = .ok launches) :
    dnnRun site loaded = .ok launches ↔ AllFloats params := by
  obtain ⟨convLayers, isConvLayers, ran⟩ := bind_eq_ok_iff.mp ran
  obtain ⟨stridedConvLayers, isStrided, ran⟩ := bind_eq_ok_iff.mp ran
  obtain ⟨maxpoolLayers, isMaxpoolLayers, ran⟩ := bind_eq_ok_iff.mp ran
  obtain ⟨fcLayers, isFcLayers, ran⟩ := bind_eq_ok_iff.mp ran
  obtain ⟨initChannels, isInitChannels, ran⟩ := bind_eq_ok_iff.mp ran
  obtain ⟨qps, isQps, ran⟩ := bind_eq_ok_iff.mp ran
  cases ran
  have evaluated : dnnRun site loaded = .ok (dnnLaunches site (.float convLayers.toFloat)
      (.float stridedConvLayers.toFloat) (.float maxpoolLayers.toFloat) (.float fcLayers.toFloat)
      (.float initChannels.toFloat) (.float qps.toFloat)) := by
    rw [dnnRun, loads.param isConvLayers, ok_bind, loads.param isStrided, ok_bind,
      loads.param isMaxpoolLayers, ok_bind, loads.param isFcLayers, ok_bind,
      loads.param isInitChannels, ok_bind, loads.param isQps]
    rfl
  rw [evaluated, Except.ok.injEq]
  rw [param_eq_ok_iff] at isConvLayers isStrided isMaxpoolLayers isFcLayers isInitChannels isQps
  constructor
  · intro same
    simp only [dnnLaunches, Launches.mk.injEq, List.cons.injEq, Prod.mk.injEq, true_and,
      and_true] at same
    obtain ⟨⟨sameConv, sameStrided, sameMaxpool, sameFc, sameInit⟩, sameQps⟩ := same
    intro name value bound
    have isName := names name value bound
    simp only [paramNames, allParams, List.map_cons, List.map_nil, List.mem_cons, List.not_mem_nil,
      or_false] at isName
    rcases isName with rfl | rfl | rfl | rfl | rfl | rfl
    · exact isFloat_of_loaded isQps bound sameQps
    · exact isFloat_of_loaded isConvLayers bound sameConv
    · exact isFloat_of_loaded isStrided bound sameStrided
    · exact isFloat_of_loaded isMaxpoolLayers bound sameMaxpool
    · exact isFloat_of_loaded isFcLayers bound sameFc
    · exact isFloat_of_loaded isInitChannels bound sameInit
  · intro floats
    rw [← PyNumber.eq_float_of_isFloat (floats _ _ isConvLayers),
      ← PyNumber.eq_float_of_isFloat (floats _ _ isStrided),
      ← PyNumber.eq_float_of_isFloat (floats _ _ isMaxpoolLayers),
      ← PyNumber.eq_float_of_isFloat (floats _ _ isFcLayers),
      ← PyNumber.eq_float_of_isFloat (floats _ _ isInitChannels),
      ← PyNumber.eq_float_of_isFloat (floats _ _ isQps)]

/-- All parameters of `SiloWorkload` are printed. -/
theorem siloRun_loaded_iff (loads : LoadedFrom params loaded)
    (names : ∀ name value, params.get? name = some value → name ∈ paramNames .silo)
    (ran : siloRun site params = .ok launches) :
    siloRun site loaded = .ok launches ↔ AllFloats params := by
  have asRun := ran
  obtain ⟨qps, isQps, ran⟩ := bind_eq_ok_iff.mp ran
  obtain ⟨scaleFactor, isScaleFactor, ran⟩ := bind_eq_ok_iff.mp ran
  obtain ⟨fqNeworder, isNeworder, ran⟩ := bind_eq_ok_iff.mp ran
  obtain ⟨fqPayment, isPayment, ran⟩ := bind_eq_ok_iff.mp ran
  obtain ⟨fqDelivery, isDelivery, ran⟩ := bind_eq_ok_iff.mp ran
  obtain ⟨fqOrderstatus, isOrderstatus, ran⟩ := bind_eq_ok_iff.mp ran
  dsimp only at ran
  split at ran
  · cases ran
    constructor
    · intro evaluated
      rw [siloRun, loads.param isQps, ok_bind, loads.param isScaleFactor, ok_bind,
        loads.param isNeworder, ok_bind, loads.param isPayment, ok_bind,
        loads.param isDelivery, ok_bind, loads.param isOrderstatus, ok_bind] at evaluated
      dsimp only at evaluated
      split at evaluated
      · have same := Except.ok.inj evaluated
        simp only [siloLaunches, Launches.mk.injEq, List.cons.injEq, Prod.mk.injEq, true_and,
          and_true] at same
        obtain ⟨sameScale, sameQps, sameNeworder, samePayment, sameDelivery, sameOrderstatus, -⟩ :=
          same
        rw [param_eq_ok_iff] at isQps isScaleFactor isNeworder isPayment isDelivery isOrderstatus
        intro name value bound
        have isName := names name value bound
        simp only [paramNames, allParams, List.map_cons, List.map_nil, List.mem_cons,
          List.not_mem_nil, or_false] at isName
        rcases isName with rfl | rfl | rfl | rfl | rfl | rfl
        · exact isFloat_of_loaded isQps bound sameQps
        · exact isFloat_of_loaded isScaleFactor bound sameScale
        · exact isFloat_of_loaded isNeworder bound sameNeworder
        · exact isFloat_of_loaded isPayment bound samePayment
        · exact isFloat_of_loaded isDelivery bound sameDelivery
        · exact isFloat_of_loaded isOrderstatus bound sameOrderstatus
      · cases evaluated
    · intro floats
      rw [← asRun, siloRun, siloRun]
      rw [loads.param_eq floats isQps, loads.param_eq floats isScaleFactor,
        loads.param_eq floats isNeworder, loads.param_eq floats isPayment,
        loads.param_eq floats isDelivery, loads.param_eq floats isOrderstatus]
  · cases ran

/-- `MemcachedWorkload` converts its parameters before it prints them. -/
theorem memcachedRun_loaded (loads : LoadedFrom params loaded)
    (small : ∀ n : ℤ, params.get? "qps".toList = some (.int n) → |n| ≤ 2 ^ 53)
    (ran : memcachedRun site params = .ok launches) :
    memcachedRun site loaded = .ok launches := by
  obtain ⟨keyMean, isKeyMean, ran⟩ := bind_eq_ok_iff.mp ran
  obtain ⟨keyStdev, isKeyStdev, ran⟩ := bind_eq_ok_iff.mp ran
  obtain ⟨valMean, isValMean, ran⟩ := bind_eq_ok_iff.mp ran
  obtain ⟨valStdev, isValStdev, ran⟩ := bind_eq_ok_iff.mp ran
  obtain ⟨updateRatio, isUpdateRatio, ran⟩ := bind_eq_ok_iff.mp ran
  obtain ⟨qps, isQps, ran⟩ := bind_eq_ok_iff.mp ran
  cases ran
  have sameQps : (PyNumber.float qps.toFloat : PyNumber doubles).toInt = qps.toInt := by
    cases qps with
    | int n => exact doubles.toInt_ofInt n (small n (param_eq_ok_iff.mp isQps))
    | float x => rfl
  rw [memcachedRun, loads.param isKeyMean, ok_bind, loads.param isKeyStdev, ok_bind,
    loads.param isValMean, ok_bind, loads.param isValStdev, ok_bind,
    loads.param isUpdateRatio, ok_bind, loads.param isQps, ok_bind, sameQps]
  rfl

/-- A workload builds the same texts from doubles precisely if it converts its parameters or
they were doubles. -/
theorem workloadRun_loaded_iff (within : Within wltype params) (loads : LoadedFrom params loaded)
    (ran : workloadRun site wltype params = .ok launches) :
    workloadRun site wltype loaded = .ok launches ↔ wltype = .memcached ∨ AllFloats params := by
  have names : ∀ name value, params.get? name = some value → name ∈ paramNames wltype :=
    fun name value bound => within.mem_names_iff.mp (mem_names_iff.mpr ⟨value, bound⟩)
  cases wltype with
  | memcached =>
      exact iff_of_true (memcachedRun_loaded loads (fun n bound => within.small bound) ran)
        (.inl rfl)
  | silo => exact (siloRun_loaded_iff loads names ran).trans (or_iff_right nofun).symm
  | xapian => exact (xapianRun_loaded_iff loads names ran).trans (or_iff_right nofun).symm
  | dnn => exact (dnnRun_loaded_iff loads names ran).trans (or_iff_right nofun).symm

end

/-! ## Every iteration -/

/-- The evaluation of an iteration binds the parameters to equal values and builds the same
texts as the search did, precisely if the optimizer passed the parameters in the order of the
first iteration, and the workload is the one that converts them or all of them were doubles. -/
theorem reproduces_iff {points : List (Point doubles)} {st : SearchState doubles}
    (searched : run (bayesoptObjectiveFn site wltype) .initial points = .ok st)
    (within : ∀ call ∈ st.calls, Within wltype call.params)
    {first call : Call doubles} (isFirst : st.calls[0]? = some first) {evaliter : ℕ}
    (isCall : st.calls[evaliter]? = some call) :
    Reproduces site wltype call (paramsToEval doubles st.paramsOut evaliter) ↔
      InOrder first.params call.params ∧ (wltype = .memcached ∨ AllFloats call.params) := by
  obtain ⟨-, text, ran⟩ := paramsOut_of_run searched
  have callRan := ran call (List.mem_of_getElem? isCall)
  have withinCall := within call (List.mem_of_getElem? isCall)
  have withinFirst := within first (List.mem_of_getElem? isFirst)
  obtain ⟨rest, shape⟩ : ∃ rest, st.calls = first :: rest := by
    cases isCalls : st.calls with
    | nil =>
        rw [isCalls] at isFirst
        cases isFirst
    | cons other rest =>
        rw [isCalls] at isFirst
        cases isFirst
        exact ⟨rest, rfl⟩
  rw [shape] at within isCall
  rw [text, shape, paramsToEval_fileLines (fun call isMember => (within call isMember).nameable)
    (fun call isMember => by
      rw [← length_names_eq withinFirst (within call isMember), ← length_values])
    isCall]
  rw [← sameParams_constructParams_iff withinFirst withinCall]
  have loads : SameParams call.params (constructParams (names first.params)
      ((values call.params).map PyNumber.toFloat)) →
      LoadedFrom call.params (constructParams (names first.params)
        ((values call.params).map PyNumber.toFloat)) := by
    intro same name value bound
    have related := same name
    obtain ⟨position, other, isName, isValue⟩ := exists_position withinFirst withinCall bound
    have found := get?_constructParams (length_names_eq withinFirst withinCall) isName isValue
    rw [bound, found] at related
    cases related with
    | some equal => rw [found, equal.toFloat_eq]; rfl
  constructor
  · rintro ⟨loaded, isLoaded, same, evaluated⟩
    cases isLoaded
    exact ⟨same, (workloadRun_loaded_iff withinCall (loads same) callRan).mp evaluated⟩
  · rintro ⟨same, converts⟩
    exact ⟨_, rfl, same, (workloadRun_loaded_iff withinCall (loads same) callRan).mpr converts⟩

end

/-! ## An iteration with integers -/

def plainSite : Site where
  nthreads := 1
  user := "root".toList
  scratchDir := "/scratch".toList
  appsRoot := "/apps".toList
  dataRoot := "/data".toList
  pythonpath := "/usr/bin/python3".toList
  serverBin := "/apps/server".toList
  clientBin := "/apps/client".toList
  numaNodes := 1
  node0Procs := 8

/-- Parameters of a search engine. -/
def xapianParams : Params wholeDoubles where
  entries := [
    ("qps".toList, .int 500),
    ("skew".toList, .float (1 : ℤ)),
    ("terms_ulimit".toList, .int 10),
    ("avg_doc_len".toList, .int 2)]
  distinct := by decide

theorem exists_search_xapian :
    ∃ st call loaded other,
      run (bayesoptObjectiveFn plainSite .xapian) .initial [.dict xapianParams] = .ok st ∧
      st.calls = [call] ∧ call.params = xapianParams ∧
      paramsToEval wholeDoubles st.paramsOut 0 = .ok loaded ∧
      xapianRun plainSite loaded = .ok other ∧
      (call.launches.commands.map fun command => command.getLast?) =
        [some "/data/xapian/stackoverflow-dbs/nd600000_avgdl200".toList] ∧
      (other.commands.map fun command => command.getLast?) =
        [some "/data/xapian/stackoverflow-dbs/nd600000_avgdl200.0".toList] :=
  ⟨_, _, _, _, rfl, rfl, rfl, rfl, rfl, rfl, rfl⟩

/-- The evaluation looks for a database that no one has generated. -/
theorem evaluation_opens_other_database :
    ∃ st call,
      run (bayesoptObjectiveFn plainSite .xapian) .initial [.dict xapianParams] = .ok st ∧
      st.calls[0]? = some call ∧
      ¬ Reproduces plainSite .xapian call (paramsToEval wholeDoubles st.paramsOut 0) := by
  obtain ⟨st, call, loaded, other, searched, calls, -, isLoaded, evaluated, path, otherPath⟩ :=
    exists_search_xapian
  refine ⟨st, call, searched, by rw [calls]; rfl, ?_⟩
  rintro ⟨again, isAgain, -, same⟩
  rw [isLoaded] at isAgain
  cases isAgain
  have equal : other = call.launches := Except.ok.inj (evaluated.symm.trans same)
  rw [equal, path] at otherPath
  revert otherPath
  decide +kernel

theorem within_xapianParams : Within .xapian xapianParams where
  names := by decide +kernel
  bounds := by
    intro details isParam n bound
    simp only [allParams, List.mem_cons, List.not_mem_nil, or_false] at isParam
    rcases isParam with rfl | rfl | rfl | rfl
    · cases bound
      norm_num
    · cases bound
    · cases bound
      norm_num
    · cases bound
      norm_num

/-- The same parameters as doubles. -/
def doubleParams : Params wholeDoubles where
  entries := [
    ("qps".toList, .float (400 : ℤ)),
    ("skew".toList, .float (1 : ℤ)),
    ("terms_ulimit".toList, .float (20 : ℤ)),
    ("avg_doc_len".toList, .float (2 : ℤ))]
  distinct := by decide

theorem within_doubleParams : Within .xapian doubleParams where
  names := by decide +kernel
  bounds := by
    intro details isParam n bound
    simp only [allParams, List.mem_cons, List.not_mem_nil, or_false] at isParam
    rcases isParam with rfl | rfl | rfl | rfl <;> cases bound

theorem exists_search_doubles :
    ∃ st first second third,
      run (bayesoptObjectiveFn plainSite .xapian) .initial
        [.dict xapianParams, .dict doubleParams, .dict xapianParams] = .ok st ∧
      st.calls = [first, second, third] ∧ first.params = xapianParams ∧
      second.params = doubleParams ∧ third.params = xapianParams :=
  ⟨_, _, _, _, rfl, rfl, rfl, rfl, rfl⟩

/-- The exact condition, applied to the second of three iterations. -/
theorem doubleParams_reproduces_iff :
    ∃ (st : SearchState wholeDoubles) (first call : Call wholeDoubles),
      st.calls.length = 3 ∧ first.params = xapianParams ∧ call.params = doubleParams ∧
      (Reproduces plainSite .xapian call (paramsToEval wholeDoubles st.paramsOut 1) ↔
        InOrder first.params call.params ∧
          (WorkloadType.xapian = .memcached ∨ AllFloats call.params)) := by
  obtain ⟨st, first, second, third, searched, calls, isFirst, isSecond, isThird⟩ :=
    exists_search_doubles
  have atFirst : st.calls[0]? = some first := by rw [calls]; rfl
  have atSecond : st.calls[1]? = some second := by rw [calls]; rfl
  refine ⟨st, first, second, by rw [calls]; rfl, isFirst, isSecond,
    reproduces_iff searched (fun call isMember => ?_) atFirst atSecond⟩
  rw [calls] at isMember
  rcases List.mem_cons.mp isMember with rfl | later
  · exact isFirst ▸ within_xapianParams
  rcases List.mem_cons.mp later with rfl | last
  · exact isSecond ▸ within_doubleParams
  · rw [List.mem_singleton.mp last, isThird]
    exact within_xapianParams

end Datamime.Search
