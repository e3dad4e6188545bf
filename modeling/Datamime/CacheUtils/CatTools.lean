/-
# The tools for cache allocation

`cat_cbm` sets the mask of a class of service to a list of ways, and `cat_cos` maps cores
to a class. The ways are numbers with commas between them. Their parser keeps a count of
the characters that are left, from which it takes off the numbers but not the commas.
-/

import Datamime.Hardware.Cat
import Datamime.Profiler.CommandLine
import Mathlib.Data.Finset.Sort

namespace Datamime.CacheUtils

open Datamime.Math Datamime.Math.CommandLine Datamime.Hardware
open Datamime.Profiler (stoi)

/-! ## The list of ways -/

/-- The loop of `parseCbm` over the pieces between the commas, and what follows the loop. -/
def parsePieces : ℕ → List (List Char) → Except Fault (List ℤ)
  | _, [] => .ok []
  | remainingLen, [last] =>
      if 0 < remainingLen then do return [← stoi (last.take remainingLen)] else .ok []
  | remainingLen, piece :: rest => do
      let entry ← stoi piece
      let entries ← parsePieces (remainingLen - piece.length) rest
      return entry :: entries

/-- `parseCbm`. -/
def parseCbm (str : List Char) : Except Fault (List ℤ) :=
  parsePieces str.length (str.splitOn ',')

/-- `getCbm`, which takes each entry as an unsigned number. -/
def maskOfEntries (cbmEntries : List ℤ) : BitVec 32 :=
  getCbm (cbmEntries.map fun entry => (entry % 2 ^ 32).toNat)

/-- The loop of `getCbmEntries`, which shifts the mask down until no bit is left. -/
def cbmEntriesFrom (core : ℤ) (cbm : BitVec 32) : List ℤ :=
  if cbm = 0 then []
  else (if cbm.getLsbD 0 then [core] else []) ++ cbmEntriesFrom (core + 1) (cbm >>> 1)
termination_by cbm.toNat
decreasing_by
  rename_i someBit
  rw [BitVec.toNat_ushiftRight, Nat.shiftRight_one]
  have positive : 0 < cbm.toNat :=
    Nat.pos_of_ne_zero fun isZero => someBit (BitVec.eq_of_toNat_eq isZero)
  exact Nat.div_lt_self positive Nat.one_lt_two

/-- `getCbmEntries`. -/
def getCbmEntries (cbm : BitVec 32) : List ℤ := cbmEntriesFrom 0 cbm

/-- `atoi`. -/
def atoi (text : List Char) : ℤ := (leadingInt? text).getD 0

/-! ## `cat_cbm` -/

/-- The variables that the options of `cat_cbm` set. -/
structure CbmOptions where
  cos : ℕ
  set : Bool
  cbmEntries : List ℤ

/-- The class that stands for none. -/
def INVALID_COS : ℕ := 2 ^ 32 - 1

def CBM_OPTSTRING : List Char := "gc:m:h".toList

/-- The lines that `usage` of `cat_cbm` prints. -/
def cbmUsage (program : List Char) : List String :=
  ["USAGE:",
    String.ofList program ++ " [-g] [-m cbm_entries] [-c cos] [-h]",
    "\t-c cos: Perform action for the specified class of service (COS)",
    "\t-g: Get capacity bit mask (CBM) entries for specified COS",
    "\t-m cbm comma-sep-list: Set CBM for the specified COS to  include specified entries ",
    "\t-h: Print this help",
    "NOTE: Needs sudo to run"]

/-- A return of -1 behind the usage. -/
def failWithUsage (lines : List String) : Fault := .exit (String.intercalate "\n" lines)

/-- The loop over the options. It has no result when the help is printed. -/
def readCbmOptions (program : List Char) :
    CbmOptions → List (Char × List Char) → Except Fault (Option CbmOptions)
  | options, [] => .ok (some options)
  | options, (letter, optarg) :: rest =>
      match letter with
      | 'g' => readCbmOptions program { options with set := false } rest
      | 'c' => readCbmOptions program { options with cos := (atoi optarg % 2 ^ 32).toNat } rest
      | 'm' => do
          let entries ← parseCbm optarg
          readCbmOptions program
            { options with set := true, cbmEntries := options.cbmEntries ++ entries } rest
      | 'h' => .ok none
      | '?' => .error (failWithUsage (cbmUsage program))
      | _ => readCbmOptions program options rest

/-- `CATController::getCbm`. -/
def readCbm (machine : Machine) (msrs : Msrs) (cos : ℤ) : Except Fault (BitVec 32) :=
  if machine.numCos ≤ cos then .error (.thrown (cosExceeds machine cos))
  else do
    let l3Mask ← msrs.read machine 0 (.l3Mask cos)
    return l3Mask.setWidth 32

/-- The class as a signed number, which is what the controller takes. -/
def signedCos (cos : ℕ) : ℤ := Int.bmod cos (2 ^ 32)

/-- `main` of `cat_cbm`: the registers when it returns 0. What `-g` prints is not kept. -/
def catCbm (posixlyCorrect : Bool) (machine : Machine) (msrs : Msrs) (argv : List (List Char)) :
    Except Fault Msrs := do
  let program := argv.headD []
  let options ← readCbmOptions program ⟨INVALID_COS, false, []⟩
    (getopt CBM_OPTSTRING posixlyCorrect argv.tail)
  match options with
  | none => .ok msrs
  | some options =>
      if options.cos = INVALID_COS then .error (failWithUsage (cbmUsage program))
      else do
        catController machine
        if options.set then
          setCbm machine msrs (signedCos options.cos) (maskOfEntries options.cbmEntries)
        else do
          let _ ← readCbm machine msrs (signedCos options.cos)
          return msrs

/-! ## `cat_cos` -/

/-- The variables that the options of `cat_cos` set. -/
structure CosOptions where
  set : Bool
  cores : List ℤ
  cos : ℕ

def COS_OPTSTRING : List Char := "gs:ac:h".toList

/-- The lines that `usage` of `cat_cos` prints. -/
def cosUsage (program : List Char) : List String :=
  ["USAGE:",
    String.ofList program ++ " [-g] [-s cos] [-a] [-c core] [-h]",
    "\t-c core: Perform action for the specified core",
    "\t-a: Perform action for all cores in the systems",
    "\t-g: Get COS for specified cores",
    "\t-s cos: Set class of service (COS) to specified value for specified cores",
    "\t-h: Print this help",
    "NOTE: Needs sudo to run"]

/-- The loop over the options. -/
def readCosOptions (machine : Machine) (program : List Char) :
    CosOptions → List (Char × List Char) → Except Fault (Option CosOptions)
  | options, [] => .ok (some options)
  | options, (letter, optarg) :: rest =>
      match letter with
      | 'g' => readCosOptions machine program { options with set := false } rest
      | 's' =>
          readCosOptions machine program
            { options with set := true, cos := (atoi optarg % 2 ^ 32).toNat } rest
      | 'c' => readCosOptions machine program { options with cores := [atoi optarg] } rest
      | 'a' =>
          readCosOptions machine program
            { options with cores := (List.range machine.numCores).map Nat.cast } rest
      | 'h' => .ok none
      | '?' => .error (failWithUsage (cosUsage program))
      | _ => readCosOptions machine program options rest

/-- `CATController::setCos` for the core that an argument names. -/
def setCosOf (machine : Machine) (cos : ℕ) (msrs : Msrs) (core : ℤ) : Except Fault Msrs :=
  if machine.numCos ≤ cos ∨ 0 ≤ core then setCos machine msrs core.toNat cos
  else .error (.outOfRange .msrDescriptors)

/-- `CATController::getCos` for the core that an argument names. -/
def getCosOf (machine : Machine) (msrs : Msrs) (core : ℤ) : Except Fault (BitVec 32) :=
  if 0 ≤ core then getCos machine msrs core.toNat else .error (.outOfRange .msrDescriptors)

/-- `main` of `cat_cos`: the registers when it returns 0. What `-g` prints is not kept. -/
def catCos (posixlyCorrect : Bool) (machine : Machine) (msrs : Msrs) (argv : List (List Char)) :
    Except Fault Msrs := do
  let program := argv.headD []
  let options ← readCosOptions machine program ⟨false, [], INVALID_COS⟩
    (getopt COS_OPTSTRING posixlyCorrect argv.tail)
  match options with
  | none => .ok msrs
  | some options =>
      if options.cores = [] then .error (failWithUsage (cosUsage program))
      else do
        catController machine
        if options.set then options.cores.foldlM (setCosOf machine options.cos) msrs
        else do
          let _ ← options.cores.mapM (getCosOf machine msrs)
          return msrs

/-! ## Reading back a list of ways -/

theorem stoi_ofInt {z : ℤ} (atLeast : -2 ^ 31 ≤ z) (below : z < 2 ^ 31) :
    stoi (Text.ofInt z) = .ok z := by
  rw [stoi, leadingInt?_ofInt]
  exact if_pos ⟨atLeast, below⟩

/-- With at least as many characters counted as there are, each piece is read as a whole. -/
theorem parsePieces_ofInt {ways : List ℤ} {remainingLen : ℕ}
    (inRange : ∀ way ∈ ways, -2 ^ 31 ≤ way ∧ way < 2 ^ 31)
    (counted : (ways.map fun way => (Text.ofInt way).length).sum ≤ remainingLen) :
    parsePieces remainingLen (ways.map Text.ofInt) = .ok ways := by
  induction ways generalizing remainingLen with
  | nil => rfl
  | cons way rest ih =>
      obtain ⟨atLeast, below⟩ := inRange way List.mem_cons_self
      rw [List.map_cons, List.sum_cons] at counted
      cases rest with
      | nil =>
          rw [List.map_nil, List.sum_nil, Nat.add_zero] at counted
          have some_char : 0 < (Text.ofInt way).length :=
            List.length_pos_of_ne_nil (Text.isWord_ofInt way).1
          rw [List.map_singleton, parsePieces, if_pos (by omega), List.take_of_length_le counted,
            stoi_ofInt atLeast below]
          rfl
      | cons next rest =>
          rw [List.map_cons, List.map_cons, parsePieces, stoi_ofInt atLeast below, ok_bind]
          · rw [← List.map_cons, ih
              (fun other isLater => inRange other (List.mem_cons_of_mem way isLater)) (by omega)]
            rfl
          · exact List.cons_ne_nil _ _

theorem length_commaJoined (fields : List (List Char)) :
    (fields.map List.length).sum ≤ (Text.commaJoined fields).length := by
  rw [← Text.dropLast_flatMap_comma, List.length_dropLast, List.length_flatMap]
  induction fields with
  | nil => exact Nat.zero_le _
  | cons field rest ih =>
      rw [List.map_cons, List.sum_cons, List.map_cons, List.sum_cons, List.length_append,
        List.length_singleton]
      cases rest with
      | nil => simp
      | cons next rest =>
          rw [List.map_cons, List.sum_cons, List.map_cons, List.sum_cons, List.length_append,
            List.length_singleton] at ih ⊢
          omega

/-- The parser undoes the encoding of a list of ways. -/
theorem parseCbm_commaJoined {ways : List ℤ} (some_way : ways ≠ [])
    (inRange : ∀ way ∈ ways, -2 ^ 31 ≤ way ∧ way < 2 ^ 31) :
    parseCbm (Text.commaJoined (ways.map Text.ofInt)) = .ok ways := by
  rw [parseCbm, Text.splitOn_commaJoined (by simpa using some_way)]
  · refine parsePieces_ofInt inRange ?_
    have counted := length_commaJoined (ways.map Text.ofInt)
    rwa [List.map_map] at counted
  · intro field isField
    obtain ⟨way, -, rfl⟩ := List.mem_map.mp isField
    exact Text.comma_not_mem_ofInt way

/-- The mask of a list of ways has exactly their bits. -/
theorem getLsbD_maskOfEntries {ways : List ℤ} (inRange : ∀ way ∈ ways, 0 ≤ way ∧ way < 2 ^ 32)
    {i : ℕ} (inside : i < 32) :
    (maskOfEntries ways).getLsbD i = decide ((i : ℤ) ∈ ways) := by
  rw [maskOfEntries, getCbm, BitSet.getLsbD_ofPositions _ inside, decide_eq_decide, List.mem_map]
  constructor
  · rintro ⟨way, isWay, rfl⟩
    obtain ⟨nonneg, below⟩ := inRange way isWay
    rwa [Int.emod_eq_of_lt nonneg below, Int.toNat_of_nonneg nonneg]
  · intro isWay
    obtain ⟨nonneg, below⟩ := inRange i isWay
    exact ⟨i, isWay, by rw [Int.emod_eq_of_lt nonneg below, Int.toNat_natCast]⟩

/-- The scan finds the positions that are set. -/
theorem cbmEntriesFrom_eq (core : ℤ) (cbm : BitVec 32) :
    cbmEntriesFrom core cbm = (BitSet.positions cbm).map fun position : ℕ => core + position := by
  induction core, cbm using cbmEntriesFrom.induct with
  | case1 core => rw [cbmEntriesFrom, if_pos rfl, BitSet.positions_zero, List.map_nil]
  | case2 core cbm someBit ih =>
      rw [cbmEntriesFrom, if_neg someBit, ih, BitSet.positions_eq_shift cbm, List.map_append,
        List.map_map]
      congr 1
      · split <;> simp
      · apply List.map_congr_left
        intro position _
        rw [Function.comp_apply, Nat.cast_succ]
        ring

theorem getCbmEntries_eq (cbm : BitVec 32) :
    getCbmEntries cbm = (BitSet.positions cbm).map fun position : ℕ => (position : ℤ) := by
  rw [getCbmEntries, cbmEntriesFrom_eq]
  simp

/-- The entries of a mask are in order, and each bit that is set is one of them. -/
theorem sortedLT_getCbmEntries (cbm : BitVec 32) : (getCbmEntries cbm).SortedLT := by
  rw [getCbmEntries_eq]
  exact ((BitSet.sortedLT_positions cbm).pairwise.map (fun position : ℕ => (position : ℤ))
    fun _ _ => Int.ofNat_lt.mpr).sortedLT

theorem mem_getCbmEntries {cbm : BitVec 32} {entry : ℤ} :
    entry ∈ getCbmEntries cbm ↔ ∃ position : ℕ, cbm.getLsbD position ∧ position = entry := by
  simp [getCbmEntries_eq]

/-- The mask of the entries of a mask is that mask. -/
theorem maskOfEntries_getCbmEntries (cbm : BitVec 32) :
    maskOfEntries (getCbmEntries cbm) = cbm := by
  rw [maskOfEntries, getCbmEntries_eq, List.map_map, getCbm]
  have unchanged : (BitSet.positions cbm).map
      ((fun entry : ℤ => (entry % 2 ^ 32).toNat) ∘ fun position : ℕ => (position : ℤ)) =
        BitSet.positions cbm := by
    conv_rhs => rw [← List.map_id (BitSet.positions cbm)]
    apply List.map_congr_left
    intro position isSet
    have inside : position < 32 := BitVec.lt_of_getLsbD (BitSet.mem_positions.mp isSet)
    simp only [Function.comp_apply, id_eq]
    omega
  rw [unchanged, BitSet.ofPositions_positions]

/-- The entries of the mask of a list of ways are those ways, in order and each once. -/
theorem getCbmEntries_maskOfEntries {ways : List ℤ} (areWays : ∀ way ∈ ways, 0 ≤ way ∧ way < 32) :
    getCbmEntries (maskOfEntries ways) = ways.toFinset.sort := by
  refine (sortedLT_getCbmEntries _).eq_of_mem_iff (Finset.sortedLT_sort _) fun entry => ?_
  have inRange : ∀ way ∈ ways, 0 ≤ way ∧ way < 2 ^ 32 := fun way isWay =>
    ⟨(areWays way isWay).1, (areWays way isWay).2.trans (by decide)⟩
  rw [mem_getCbmEntries, Finset.mem_sort, List.mem_toFinset]
  constructor
  · rintro ⟨position, isSet, rfl⟩
    have inside : position < 32 := BitVec.lt_of_getLsbD isSet
    simpa [getLsbD_maskOfEntries inRange inside] using isSet
  · intro isWay
    obtain ⟨nonneg, below⟩ := areWays entry isWay
    refine ⟨entry.toNat, ?_, Int.toNat_of_nonneg nonneg⟩
    rw [getLsbD_maskOfEntries inRange (by omega), Int.toNat_of_nonneg nonneg]
    exact decide_eq_true isWay

/-! ## A comma behind the last way -/

/-- The ways in decimal with commas between them, and one more comma behind them if asked for. -/
def cbmText (ways : List ℤ) (trailingComma : Bool) : List Char :=
  Text.commaJoined (ways.map Text.ofInt) ++ if trailingComma then [','] else []

/-- The characters of the commas are still counted after the last one, so the parser reads a
piece that is not there. -/
theorem parsePieces_trailing {ways : List ℤ} {remainingLen : ℕ}
    (inRange : ∀ way ∈ ways, -2 ^ 31 ≤ way ∧ way < 2 ^ 31)
    (counted : (ways.map fun way => (Text.ofInt way).length).sum < remainingLen) :
    parsePieces remainingLen (ways.map Text.ofInt ++ [[]]) = .error (.thrown "stoi") := by
  induction ways generalizing remainingLen with
  | nil =>
      have some_left : 0 < remainingLen := by simpa using counted
      rw [List.map_nil, List.nil_append, parsePieces, if_pos some_left, List.take_nil]
      rfl
  | cons way rest ih =>
      obtain ⟨atLeast, below⟩ := inRange way List.mem_cons_self
      rw [List.map_cons, List.sum_cons] at counted
      rw [List.map_cons, List.cons_append, parsePieces, stoi_ofInt atLeast below, ok_bind, ih]
      · rfl
      · exact fun other isLater => inRange other (List.mem_cons_of_mem way isLater)
      · omega
      · simp

theorem parseCbm_trailing {ways : List ℤ}
    (inRange : ∀ way ∈ ways, -2 ^ 31 ≤ way ∧ way < 2 ^ 31) :
    parseCbm (cbmText ways true) = .error (.thrown "stoi") := by
  cases ways with
  | nil => rfl
  | cons way rest =>
      have noComma : ∀ field ∈ (way :: rest).map Text.ofInt ++ [[]], ',' ∉ field := by
        intro field isField
        rcases List.mem_append.mp isField with isWay | isLast
        · obtain ⟨other, -, rfl⟩ := List.mem_map.mp isWay
          exact Text.comma_not_mem_ofInt other
        · simp [List.mem_singleton.mp isLast]
      have joined : cbmText (way :: rest) true =
          Text.commaJoined ((way :: rest).map Text.ofInt ++ [[]]) := by
        rw [cbmText, if_pos rfl, Text.commaJoined_append_nil (by simp)]
      have counted := length_commaJoined ((way :: rest).map Text.ofInt)
      rw [List.map_map] at counted
      rw [parseCbm, joined, Text.splitOn_commaJoined (by simp) noComma]
      refine parsePieces_trailing inRange ?_
      rw [Text.commaJoined_append_nil (by simp), List.length_append]
      exact Nat.lt_succ_of_le counted

theorem parseCbm_plain {ways : List ℤ}
    (inRange : ∀ way ∈ ways, -2 ^ 31 ≤ way ∧ way < 2 ^ 31) :
    parseCbm (cbmText ways false) = .ok ways := by
  rw [cbmText, if_neg Bool.false_ne_true, List.append_nil]
  cases ways with
  | nil => rfl
  | cons way rest => exact parseCbm_commaJoined (List.cons_ne_nil _ _) inRange

/-- `cat_cbm` writes out a mask as the list of its ways and reads the list back; only a list
with a comma behind it is not read. -/
theorem cbm_roundTrips (ways entries : List ℤ) (cbm : BitVec 32) (trailingComma : Bool) :
    ((∀ way ∈ ways, 0 ≤ way ∧ way < 32) →
      getCbmEntries (maskOfEntries ways) = ways.toFinset.sort) ∧
    maskOfEntries (getCbmEntries cbm) = cbm ∧
    ((∀ entry ∈ entries, -2 ^ 31 ≤ entry ∧ entry < 2 ^ 31) →
      (parseCbm (cbmText entries trailingComma) = .ok entries ↔ trailingComma = false)) := by
  refine ⟨getCbmEntries_maskOfEntries, maskOfEntries_getCbmEntries cbm, ?_⟩
  intro inRange
  cases trailingComma with
  | true => simp [parseCbm_trailing inRange]
  | false => simp [parseCbm_plain inRange]

/-- Ways out of order and one of them twice, and the same list in its text. -/
theorem cbm_roundTrips_three :
    getCbmEntries (maskOfEntries [5, 0, 5]) = ([5, 0, 5] : List ℤ).toFinset.sort ∧
      (parseCbm (cbmText [5, 0, 5] true) = .ok [5, 0, 5] ↔ true = false) :=
  ⟨(cbm_roundTrips [5, 0, 5] [] 0 true).1 (by decide),
    (cbm_roundTrips [] [5, 0, 5] 0 true).2.2 (by decide)⟩

/-- The parser throws on `1,2,`. -/
theorem parseCbm_one_two_comma :
    cbmText [1, 2] true = "1,2,".toList ∧ parseCbm (cbmText [1, 2] true) ≠ .ok [1, 2] :=
  ⟨by decide, fun parsed => by rw [parseCbm_trailing (by decide)] at parsed; cases parsed⟩

/-! ## The calls -/

section

variable {posixlyCorrect : Bool} {machine : Machine} {msrs next : Msrs} {program : List Char}

/-- A class and a list of ways make one call of the controller. -/
theorem catCbm_set {cos : ℕ} (isClass : cos < 2 ^ 31) {ways : List ℤ} (some_way : ways ≠ [])
    (inRange : ∀ way ∈ ways, -2 ^ 31 ≤ way ∧ way < 2 ^ 31) :
    catCbm posixlyCorrect machine msrs
        [program, ['-', 'c'], Text.ofInt cos, ['-', 'm'],
          Text.commaJoined (ways.map Text.ofInt)] = (do
      catController machine
      setCbm machine msrs cos (maskOfEntries ways)) := by
  have isCos : (atoi (Text.ofInt cos) % 2 ^ 32).toNat = cos := by
    rw [atoi, leadingInt?_ofInt, Option.getD_some]
    omega
  have notInvalid : cos ≠ INVALID_COS := by
    rw [INVALID_COS]
    omega
  rw [catCbm, List.tail_cons, getopt_separate (by decide) (by decide),
    getopt_separate (by decide) (by decide), getopt_nil, readCbmOptions,
    readCbmOptions, isCos, parseCbm_commaJoined some_way inRange, ok_bind, readCbmOptions, ok_bind]
  dsimp only
  have isSigned : signedCos cos = cos := Int.bmod_eq_of_le (by omega) (by omega)
  rw [if_neg notInvalid, if_pos rfl, List.nil_append, isSigned]

/-- Mapping cores changes no mask. -/
theorem maskOf_of_setCosOf {cos : ℕ} {cores : List ℤ}
    (mapped : cores.foldlM (setCosOf machine cos) msrs = .ok next) (other : ℕ) :
    maskOf next other = maskOf msrs other := by
  induction cores generalizing msrs with
  | nil =>
      cases mapped
      rfl
  | cons core rest ih =>
      rw [List.foldlM_cons] at mapped
      obtain ⟨middle, first, mapped⟩ := bind_eq_ok_iff.mp mapped
      rw [setCosOf] at first
      split at first
      · rw [ih mapped, maskOf_of_setCos first]
      · cases first

/-- `cat_cos` changes no mask. -/
theorem maskOf_of_catCos {argv : List (List Char)}
    (returned : catCos posixlyCorrect machine msrs argv = .ok next) (cos : ℕ) :
    maskOf next cos = maskOf msrs cos := by
  obtain ⟨options, -, returned⟩ := bind_eq_ok_iff.mp returned
  cases options with
  | none =>
      cases returned
      rfl
  | some options =>
      dsimp only at returned
      split at returned
      · cases returned
      · obtain ⟨-, -, returned⟩ := bind_eq_ok_iff.mp returned
        split at returned
        · exact maskOf_of_setCosOf returned cos
        · obtain ⟨-, -, returned⟩ := bind_eq_ok_iff.mp returned
          cases returned
          rfl

end

end Datamime.CacheUtils
