/-
# Distributions of the load generator

A script describes the sizes and rates of the load generator by distributions. Each of them prints
itself as an argument, which the load generator parses into a generator of numbers. The parser
first takes an integer from the front of the argument. If that is zero, it looks for the name of a
family, which the argument of a fixed value does not have. Two of the families cannot be printed at
all, since they print another attribute than the one that they were built with.
-/

import Datamime.Fault
import Datamime.Math.CNumber

namespace Datamime.Memcached

open Datamime.Math CNumber CommandLine

variable {doubles : CDoubles}

/-! ## The script -/

/-- The attributes that the distributions set or print. -/
inductive Attribute
  | value
  | maximum
  | mean
  | sd
  | lmbda
  | exponential
  deriving DecidableEq

/-- What the distributions can raise. -/
inductive ScriptError
  | attributeError (name : Attribute)
  /-- An integer that no double is near to. -/
  | overflowError
  /-- An integer was asked for that a double does not have. -/
  | notFinite
  /-- A rounded decimal would have too many digits. -/
  | invalidOperation
  deriving DecidableEq

/-- The numbers of the script. -/
abbrev Number (doubles : CDoubles) : Type := PyNumber doubles.toDoubles

/-- `float(val)`. -/
def float : Number doubles → Except ScriptError doubles.Double
  | .int n => if doubles.isFinite (doubles.ofInt n) then .ok (doubles.ofInt n)
      else .error .overflowError
  | .float x => .ok x

/-- `int(val)`. -/
def int : Number doubles → Except ScriptError ℤ
  | .int n => .ok n
  | .float x => if doubles.isFinite x then .ok (doubles.toInt x) else .error .notFinite

/-- `quantize`. -/
def quantize (val : Number doubles) : Except ScriptError doubles.Double := do
  match doubles.quantize? (← float val) with
  | some q => .ok q
  | none => .error .invalidOperation

/-- The distributions, with the attributes that their constructors set. -/
inductive Distribution (doubles : CDoubles)
  | fixed (value : Number doubles)
  | uniform (value : doubles.Double)
  | normal (mean sd : doubles.Double)
  | exponential (lmbda : doubles.Double)

/-- The calls of the constructors. -/
inductive Init (doubles : CDoubles)
  | fixed (value : Number doubles) (isint : Bool)
  | uniform (maximum : Number doubles)
  | normal (mean sd : Number doubles)
  | exponential (lmbda : Number doubles)

/-- The numbers that a constructor is called with. -/
def Init.parameters : Init doubles → List (Number doubles)
  | .fixed value _ => [value]
  | .uniform maximum => [maximum]
  | .normal mean sd => [mean, sd]
  | .exponential lmbda => [lmbda]

/-- `__init__`. -/
def Init.build : Init doubles → Except ScriptError (Distribution doubles)
  | .fixed value true => do return .fixed (.int (← int value))
  | .fixed value false => do return .fixed (.float (← quantize value))
  | .uniform maximum => do return .uniform (← quantize maximum)
  | .normal mean sd => do return .normal (← quantize mean) (← quantize sd)
  | .exponential lmbda => do return .exponential (← quantize lmbda)

/-- The attribute of a distribution. -/
def Distribution.attribute : Distribution doubles → Attribute → Except ScriptError (Number doubles)
  | .fixed value, .value => .ok value
  | .uniform value, .value => .ok (.float value)
  | .normal mean _, .mean => .ok (.float mean)
  | .normal _ sd, .sd => .ok (.float sd)
  | .exponential lmbda, .lmbda => .ok (.float lmbda)
  | _, name => .error (.attributeError name)

/-- `argstr`. -/
def Distribution.argstr (self : Distribution doubles) : Except ScriptError (List Char) :=
  match self with
  | .fixed _ => do return (← self.attribute .value).str
  | .uniform _ => do return "uniform:".toList ++ (← self.attribute .maximum).str
  | .normal _ _ => do
      let mean ← self.attribute .mean
      let sd ← self.attribute .sd
      return "normal:".toList ++ mean.str ++ ',' :: sd.str
  | .exponential _ => do return "exponential:".toList ++ (← self.attribute .exponential).str

/-- One option of `MemcachedWorkload.construct_paramstr` with its argument. -/
def paramText (param : List Char × Distribution doubles) : Except ScriptError (List Char) := do
  return ' ' :: param.1 ++ ' ' :: (← param.2.argstr)

/-- `MemcachedWorkload.construct_paramstr`. -/
def constructParamstr (params : List (List Char × Distribution doubles)) :
    Except ScriptError (List Char) := do
  return (← params.mapM paramText).flatten

/-- The families that print the attributes that they have. -/
def Distribution.isPrinted : Distribution doubles → Bool
  | .fixed _ => true
  | .uniform _ => false
  | .normal _ _ => true
  | .exponential _ => false

theorem exists_paramText_iff (param : List Char × Distribution doubles) :
    (∃ text, paramText param = .ok text) ↔ param.2.isPrinted = true := by
  rcases param with ⟨name, dist⟩
  cases dist with
  | fixed value => exact iff_of_true ⟨_, rfl⟩ rfl
  | uniform maximum => exact iff_of_false (fun ⟨_, printed⟩ => nomatch printed) Bool.false_ne_true
  | normal mean sd => exact iff_of_true ⟨_, rfl⟩ rfl
  | exponential lmbda => exact iff_of_false (fun ⟨_, printed⟩ => nomatch printed) Bool.false_ne_true

/-- The arguments of a workload can be printed precisely if all of its distributions can. -/
theorem exists_constructParamstr_iff (params : List (List Char × Distribution doubles)) :
    (∃ text, constructParamstr params = .ok text) ↔ ∀ param ∈ params, param.2.isPrinted = true := by
  have printed := exists_mapM_eq_ok_iff (@paramText doubles) params
  simp only [exists_paramText_iff] at printed
  rw [← printed]
  constructor
  · rintro ⟨text, isText⟩
    rcases bind_eq_ok_iff.mp isText with ⟨texts, areTexts, -⟩
    exact ⟨texts, areTexts⟩
  · rintro ⟨texts, areTexts⟩
    exact ⟨texts.flatten, bind_eq_ok_iff.mpr ⟨texts, areTexts, rfl⟩⟩

/-! ## The load generator -/

/-- The generators of the load generator. -/
inductive Generator (doubles : CDoubles)
  | fixed (value : doubles.Double)
  | uniform (scale : doubles.Double)
  | normal (mean sd : doubles.Double)
  | exponential (lambda : doubles.Double)
  | gpareto (loc scale shape div : doubles.Double)
  | gev (loc scale shape : doubles.Double)
  | discrete (table : List (doubles.Double × doubles.Double)) (default : Generator doubles)

/-- How the load generator ends without a generator. -/
inductive Exit
  | die
  | assertion
  deriving DecidableEq

/-- A constant of the program. -/
def literal (text : String) : doubles.Double := doubles.atof text.toList

/-- The constructor of `GPareto`. -/
def newGPareto (loc scale shape div : doubles.Double) : Except Exit (Generator doubles) :=
  if doubles.isZero shape then .error .assertion else .ok (.gpareto loc scale shape div)

/-- The constructor of `GEV`. -/
def newGEV (loc scale shape : doubles.Double) : Except Exit (Generator doubles) :=
  if doubles.isZero shape then .error .assertion else .ok (.gev loc scale shape)

def createFacebookKey : Except Exit (Generator doubles) :=
  newGEV (literal "30.7984") (literal "8.20449") (literal "0.078688")

/-- The chances and the sizes that `createFacebookValue` adds. -/
def facebookValues : List (doubles.Double × doubles.Double) :=
  [(literal "0.00536", literal "0.0"), (literal "0.00047", literal "1.0"),
    (literal "0.17820", literal "2.0"), (literal "0.09239", literal "3.0"),
    (literal "0.00018", literal "4.0"), (literal "0.02740", literal "5.0"),
    (literal "0.00065", literal "6.0"), (literal "0.00606", literal "7.0"),
    (literal "0.00023", literal "8.0"), (literal "0.00837", literal "9.0"),
    (literal "0.00837", literal "10.0"), (literal "0.08989", literal "11.0"),
    (literal "0.00092", literal "12.0"), (literal "0.00326", literal "13.0"),
    (literal "0.01980", literal "14.0")]

def createFacebookValue : Except Exit (Generator doubles) := do
  return .discrete facebookValues
    (← newGPareto (literal "15.0") (literal "214.476") (literal "0.348238") (literal "1.0"))

def createFacebookIA : Except Exit (Generator doubles) :=
  newGPareto (literal "0") (literal "16.0292") (literal "0.154971") (literal "1000000")

/-- The number at a place of the arguments, or zero. -/
def argument (args : List (List Char)) (place : ℕ) : doubles.Double :=
  match args[place]? with
  | some text => doubles.atof text
  | none => literal "0.0"

/-- The generator of the family whose name is found first. -/
def familyGenerator (str : List Char) (a1 a2 a3 : doubles.Double) :
    Except Exit (Generator doubles) :=
  if strcasestr str "fixed".toList then .ok (.fixed a1)
  else if strcasestr str "normal".toList then .ok (.normal a1 a2)
  else if strcasestr str "exponential".toList then .ok (.exponential a1)
  else if strcasestr str "pareto".toList then newGPareto a1 a2 a3 (literal "1.0")
  else if strcasestr str "gev".toList then newGEV a1 a2 a3
  else if strcasestr str "uniform".toList then .ok (.uniform a1)
  else .error .die

/-- `createGenerator`. -/
def createGenerator (str : List Char) : Except Exit (Generator doubles) :=
  if str = "fb_key".toList then createFacebookKey
  else if str = "fb_value".toList then createFacebookValue
  else if str = "fb_ia".toList then createFacebookIA
  else if atoi str ≠ 0 ∨ str = "0".toList then .ok (.fixed (doubles.atof str))
  else
    match tokens ':' str with
    | [] => .error .die
    | _ :: rest =>
        let args := match rest with
          | [] => []
          | a :: _ => tokens ',' a
        familyGenerator str (argument args 0) (argument args 1) (argument args 2)

/-! ## What has to agree -/

/-- A generator of the same family with the same parameters. -/
def Distribution.Matches : Distribution doubles → Generator doubles → Prop
  | .fixed value, .fixed v => value.Same (.float v)
  | .uniform maximum, .uniform scale => scale = maximum
  | .normal mean sd, .normal mean' sd' => mean' = mean ∧ sd' = sd
  | .exponential lmbda, .exponential lambda => lambda = lmbda
  | _, _ => False

/-- The distribution prints an argument that is parsed into its generator. -/
def Distribution.IsParsed (dist : Distribution doubles) : Prop :=
  ∃ text gen, dist.argstr = .ok text ∧ createGenerator text = .ok gen ∧ dist.Matches gen

/-- A fixed value whose integer has low bits, or is the integer zero, or is too large to be read
with its own low bits; and every normal distribution. -/
def Distribution.HasReadableValue : Distribution doubles → Prop
  | .fixed (.int n) => (n = 0 ∨ ¬ 2 ^ 32 ∣ n ∨ 2 ^ 63 ≤ n) ∧ doubles.toInt (doubles.ofInt n) = n
  | .fixed (.float q) => ¬ 2 ^ 32 ∣ doubles.toInt q ∨ 10 ^ 16 ≤ doubles.toInt q
  | .uniform _ => False
  | .normal _ _ => True
  | .exponential _ => False

/-! ## What the constructors make -/

/-- A double that `quantize` returned for a nonnegative number. -/
structure IsQuantized (q : doubles.Double) : Prop where
  result : ∃ x, doubles.quantize? x = some q ∧ doubles.isNonneg x = true
  nonneg : doubles.isNonneg q = true

/-- The attributes that nonnegative parameters lead to. -/
def Distribution.IsQuantized : Distribution doubles → Prop
  | .fixed (.int n) => 0 ≤ n
  | .fixed (.float q) => Memcached.IsQuantized q
  | .uniform value => Memcached.IsQuantized value
  | .normal mean sd => Memcached.IsQuantized mean ∧ Memcached.IsQuantized sd
  | .exponential lmbda => Memcached.IsQuantized lmbda

/-- A number that is not negative. -/
def Nonneg : Number doubles → Prop
  | .int n => 0 ≤ n
  | .float x => doubles.isNonneg x = true

section

variable {val : Number doubles}

theorem isNonneg_of_float {x : doubles.Double} (nonneg : Nonneg val) (isFloat : float val = .ok x) :
    doubles.isNonneg x = true := by
  cases val with
  | int n =>
      rw [float] at isFloat
      split at isFloat
      · cases isFloat
        exact doubles.isNonneg_ofInt n nonneg
      · cases isFloat
  | float y =>
      cases isFloat
      exact nonneg

theorem nonneg_of_int {n : ℤ} (nonneg : Nonneg val) (isInt : int val = .ok n) : 0 ≤ n := by
  cases val with
  | int m =>
      cases isInt
      exact nonneg
  | float x =>
      rw [int] at isInt
      split at isInt
      · rename_i finite
        cases isInt
        exact doubles.toInt_nonneg x finite nonneg
      · cases isInt

theorem isQuantized_of_quantize {q : doubles.Double} (nonneg : Nonneg val)
    (isResult : quantize val = .ok q) : IsQuantized q := by
  rcases bind_eq_ok_iff.mp isResult with ⟨x, isFloat, rounds⟩
  cases rounded : doubles.quantize? x with
  | none => simp [rounded] at rounds
  | some y =>
      simp only [rounded, Except.ok.injEq] at rounds
      subst rounds
      have isNonneg := isNonneg_of_float nonneg isFloat
      exact ⟨⟨x, rounded, isNonneg⟩, doubles.isNonneg_of_quantize? x y rounded isNonneg⟩

end

/-- The constructors make what the printing and the reading below depend on. -/
theorem isQuantized_of_build {init : Init doubles} {dist : Distribution doubles}
    (nonneg : ∀ val ∈ init.parameters, Nonneg val) (built : init.build = .ok dist) :
    dist.IsQuantized := by
  cases init with
  | fixed value isint =>
      have isNonneg : Nonneg value := nonneg value (by simp [Init.parameters])
      cases isint with
      | true =>
          rcases bind_eq_ok_iff.mp built with ⟨n, isInt, same⟩
          cases same
          exact nonneg_of_int isNonneg isInt
      | false =>
          rcases bind_eq_ok_iff.mp built with ⟨q, isResult, same⟩
          cases same
          exact isQuantized_of_quantize isNonneg isResult
  | uniform maximum =>
      rcases bind_eq_ok_iff.mp built with ⟨q, isResult, same⟩
      cases same
      exact isQuantized_of_quantize (nonneg maximum (by simp [Init.parameters])) isResult
  | normal mean sd =>
      rcases bind_eq_ok_iff.mp built with ⟨m, isMean, rest⟩
      rcases bind_eq_ok_iff.mp rest with ⟨s, isSd, same⟩
      cases same
      exact ⟨isQuantized_of_quantize (nonneg mean (by simp [Init.parameters])) isMean,
        isQuantized_of_quantize (nonneg sd (by simp [Init.parameters])) isSd⟩
  | exponential lmbda =>
      rcases bind_eq_ok_iff.mp built with ⟨q, isResult, same⟩
      cases same
      exact isQuantized_of_quantize (nonneg lmbda (by simp [Init.parameters])) isResult

/-! ## Numbers as arguments -/

/-- A printed number. -/
structure IsNumberText (text : List Char) : Prop where
  notEmpty : text ≠ []
  numeric : ∀ c ∈ text, IsNumeric c

section

variable {text : List Char}

theorem isNumberText_ofInt (n : ℤ) : IsNumberText (Text.ofInt n) where
  notEmpty := (Text.isWord_ofInt n).1
  numeric := fun _ => isNumeric_of_mem_ofInt

theorem IsQuantized.isNumberText {q : doubles.Double} (isQuantized : IsQuantized q) :
    IsNumberText (doubles.repr q) := by
  rcases isQuantized.result with ⟨x, isResult, isNonneg⟩
  have finite := doubles.isFinite_of_quantize? x q isResult isNonneg
  exact ⟨(doubles.isWord_repr q).1, doubles.isNumeric_of_mem_repr q finite⟩

theorem IsQuantized.atof_repr {q : doubles.Double} (isQuantized : IsQuantized q) :
    doubles.atof (doubles.repr q) = q := by
  rcases isQuantized.result with ⟨x, isResult, isNonneg⟩
  exact doubles.atof_repr q (doubles.isFinite_of_quantize? x q isResult isNonneg)

theorem IsNumberText.not_mem (isNumber : IsNumberText text) {c : Char} (other : ¬ IsNumeric c) :
    c ∉ text := fun isMember => other (isNumber.numeric c isMember)

/-- A number is no text with another character. -/
theorem IsNumberText.ne (isNumber : IsNumberText text) {name : List Char} {c : Char}
    (isMember : c ∈ name) (other : ¬ IsNumeric c) : text ≠ name := by
  rintro rfl
  exact isNumber.not_mem other isMember

/-- The name of no family occurs in a number. -/
theorem IsNumberText.not_strcasestr (isNumber : IsNumberText text) {name : List Char} {c : Char}
    (isMember : c ∈ name) (other : ¬ IsNumeric c) : ¬ strcasestr text name := by
  apply CNumber.not_strcasestr isMember
  intro d inText same
  have isNumeric := isNumber.numeric d inText
  rw [isNumeric.toLower_eq] at same
  exact other (same ▸ isNumeric)

/-- A number is the argument of a fixed value, or the argument of nothing. -/
theorem IsNumberText.createGenerator_eq (isNumber : IsNumberText text) :
    (createGenerator text : Except Exit (Generator doubles)) =
      if atoi text ≠ 0 ∨ text = "0".toList then .ok (.fixed (doubles.atof text))
      else .error .die := by
  have noKey : text ≠ "fb_key".toList := @isNumber.ne _ _ '_' (by decide) (by decide)
  have noValue : text ≠ "fb_value".toList := @isNumber.ne _ _ '_' (by decide) (by decide)
  have noIA : text ≠ "fb_ia".toList := @isNumber.ne _ _ '_' (by decide) (by decide)
  have noColon : ':' ∉ text := isNumber.not_mem (by decide)
  have family (a1 a2 a3 : doubles.Double) : familyGenerator text a1 a2 a3 = .error .die := by
    rw [familyGenerator,
      if_neg (@isNumber.not_strcasestr _ _ 'f' (by decide) (by decide)),
      if_neg (@isNumber.not_strcasestr _ _ 'n' (by decide) (by decide)),
      if_neg (@isNumber.not_strcasestr _ _ 'x' (by decide) (by decide)),
      if_neg (@isNumber.not_strcasestr _ _ 'p' (by decide) (by decide)),
      if_neg (@isNumber.not_strcasestr _ _ 'g' (by decide) (by decide)),
      if_neg (@isNumber.not_strcasestr _ _ 'u' (by decide) (by decide))]
  rw [createGenerator, if_neg noKey, if_neg noValue, if_neg noIA,
    tokens_of_not_mem isNumber.notEmpty noColon]
  simp only [family]

/-- A nonnegative integer is taken for a fixed value unless its low bits are zero. -/
theorem createGenerator_ofInt {n : ℤ} (nonneg : 0 ≤ n) :
    (createGenerator (Text.ofInt n) : Except Exit (Generator doubles)) =
      if n = 0 ∨ ¬ 2 ^ 32 ∣ n ∨ 2 ^ 63 ≤ n then .ok (.fixed (doubles.ofInt n))
      else .error .die := by
  have lowBits := atoi_ne_zero_iff (leadingInt?_ofInt n) nonneg
  have isZero : Text.ofInt n = "0".toList ↔ n = 0 := by
    constructor
    · intro same
      have isRead := congrArg Text.toInt? same
      rw [Text.toInt?_ofInt] at isRead
      exact Option.some.inj isRead
    · rintro rfl
      decide
  rw [(isNumberText_ofInt n).createGenerator_eq, doubles.atof_ofInt]
  simp only [lowBits, isZero, or_comm]

/-- A double is taken for a fixed value unless the low bits of its whole part are zero. -/
theorem createGenerator_repr {q : doubles.Double} (isQuantized : IsQuantized q) :
    (createGenerator (doubles.repr q) : Except Exit (Generator doubles)) =
      if ¬ 2 ^ 32 ∣ doubles.toInt q ∨ 10 ^ 16 ≤ doubles.toInt q then .ok (.fixed q)
      else .error .die := by
  rcases isQuantized.result with ⟨x, isResult, isNonneg⟩
  have nonneg := doubles.toInt_nonneg q (doubles.isFinite_of_quantize? x q isResult isNonneg)
    isQuantized.nonneg
  have noZero : doubles.repr q ≠ "0".toList := doubles.repr_ne_ofInt q 0
  have lowBits : atoi (doubles.repr q) ≠ 0 ↔
      ¬ 2 ^ 32 ∣ doubles.toInt q ∨ 10 ^ 16 ≤ doubles.toInt q := by
    by_cases large : 10 ^ 16 ≤ doubles.toInt q
    · -- The exponent is left out, so there is one digit.
      rcases doubles.leadingInt?_repr_large x q isResult isNonneg large with
        ⟨digit, isDigit, least, most⟩
      rw [atoi_ne_zero_iff isDigit (Int.le_of_lt least)]
      apply iff_of_true
      · left
        omega
      · exact .inr large
    · have small : |doubles.toInt q| < 10 ^ 16 := by
        rw [abs_of_nonneg nonneg]
        exact not_le.mp large
      rw [atoi_ne_zero_iff (doubles.leadingInt?_repr x q isResult isNonneg small) nonneg]
      omega
  rw [isQuantized.isNumberText.createGenerator_eq, isQuantized.atof_repr]
  simp only [lowBits, noZero, or_false]

end

/-! ## Normal distributions -/

section

variable {mean sd : List Char}

/-- The argument of a normal distribution. -/
def normalText (mean sd : List Char) : List Char := "normal".toList ++ ':' :: (mean ++ ',' :: sd)

theorem normalText_def (mean sd : List Char) :
    normalText mean sd = "normal".toList ++ ':' :: (mean ++ ',' :: sd) := rfl

theorem normalText_eq (mean sd : List Char) :
    "normal:".toList ++ mean ++ ',' :: sd = normalText mean sd := by
  have isName : "normal:".toList = "normal".toList ++ [':'] := by decide
  rw [isName, normalText_def, List.append_assoc, List.append_assoc, List.singleton_append]

/-- The name is no number. -/
theorem atoi_normalText (mean sd : List Char) : atoi (normalText mean sd) = 0 := by
  have isName : "normal".toList = 'n' :: "ormal".toList := by decide
  apply atoi_of_none
  rw [normalText_def, isName, List.cons_append]
  exact leadingInt?_cons_eq_none (by decide) (by decide) (by decide) (by decide) _

theorem toLower_normal : ("normal".toList).map Char.toLower = "normal".toList := by decide

theorem strcasestr_normalText (mean sd : List Char) :
    strcasestr (normalText mean sd) "normal".toList := by
  rw [strcasestr, normalText_def, List.map_append, toLower_normal]
  exact (List.prefix_append _ _).isInfix

theorem not_strcasestr_normalText (isMean : IsNumberText mean) (isSd : IsNumberText sd) :
    ¬ strcasestr (normalText mean sd) "fixed".toList := by
  apply @not_strcasestr _ _ 'f' (by decide)
  intro c isMember same
  have notNumeric : ¬ IsNumeric c := by
    intro isNumeric
    rw [isNumeric.toLower_eq] at same
    subst same
    exact absurd isNumeric (by decide)
  rw [normalText_def, List.mem_append, List.mem_cons, List.mem_append, List.mem_cons] at isMember
  rcases isMember with inName | isColon | inMean | isComma | inSd
  · have inLower := List.mem_map_of_mem (f := Char.toLower) inName
    rw [same, toLower_normal] at inLower
    exact absurd inLower (by decide)
  · subst isColon
    exact absurd same (by decide)
  · exact notNumeric (isMean.numeric c inMean)
  · subst isComma
    exact absurd same (by decide)
  · exact notNumeric (isSd.numeric c inSd)

/-- The argument of a normal distribution is parsed into its two numbers. -/
theorem createGenerator_normalText (isMean : IsNumberText mean) (isSd : IsNumberText sd) :
    (createGenerator (normalText mean sd) : Except Exit (Generator doubles)) =
      .ok (.normal (doubles.atof mean) (doubles.atof sd)) := by
  have colons : tokens ':' (normalText mean sd) = ["normal".toList, mean ++ ',' :: sd] := by
    have noColon : ':' ∉ mean ++ ',' :: sd := by
      rw [List.mem_append, List.mem_cons]
      rintro (inMean | isComma | inSd)
      · exact isMean.not_mem (by decide) inMean
      · exact absurd isComma (by decide)
      · exact isSd.not_mem (by decide) inSd
    rw [normalText_def, tokens_append_cons (by decide) (by decide),
      tokens_of_not_mem (by simp) noColon]
  have commas : tokens ',' (mean ++ ',' :: sd) = [mean, sd] := by
    rw [tokens_append_cons isMean.notEmpty (isMean.not_mem (by decide)),
      tokens_of_not_mem isSd.notEmpty (isSd.not_mem (by decide))]
  have noName {name : List Char} (other : name.head? ≠ some 'n') : normalText mean sd ≠ name := by
    rintro rfl
    exact other rfl
  have noKey := @noName "fb_key".toList (by decide)
  have noValue := @noName "fb_value".toList (by decide)
  have noIA := @noName "fb_ia".toList (by decide)
  have noZero := @noName "0".toList (by decide)
  have noFixed := not_strcasestr_normalText isMean isSd
  have family (a1 a2 a3 : doubles.Double) :
      familyGenerator (normalText mean sd) a1 a2 a3 = .ok (.normal a1 a2) := by
    rw [familyGenerator, if_neg noFixed, if_pos (strcasestr_normalText mean sd)]
  rw [createGenerator, if_neg noKey, if_neg noValue, if_neg noIA,
    if_neg (not_or_intro (not_not.mpr (atoi_normalText mean sd)) noZero), colons]
  simp only [commas, family]
  rfl

end

/-! ## All distributions -/

/-- A distribution is parsed precisely if its value is readable. -/
theorem isParsed_iff {dist : Distribution doubles} (isQuantized : dist.IsQuantized) :
    dist.IsParsed ↔ dist.HasReadableValue := by
  cases dist with
  | fixed value =>
      cases value with
      | int n =>
          have created := @createGenerator_ofInt doubles n isQuantized
          constructor
          · rintro ⟨text, gen, printed, parsed, alike⟩
            cases printed
            rw [show PyNumber.str (.int n) = Text.ofInt n from rfl, created] at parsed
            split at parsed
            · rename_i readable
              cases parsed
              exact ⟨readable, alike.2⟩
            · cases parsed
          · rintro ⟨readable, hasDouble⟩
            rw [if_pos readable] at created
            exact ⟨Text.ofInt n, _, rfl, created, rfl, hasDouble⟩
      | float q =>
          have created := createGenerator_repr isQuantized
          constructor
          · rintro ⟨text, gen, printed, parsed, -⟩
            cases printed
            rw [show PyNumber.str (.float q) = doubles.repr q from rfl, created] at parsed
            split at parsed
            · rename_i readable
              exact readable
            · cases parsed
          · intro readable
            have isReadable : ¬ 2 ^ 32 ∣ doubles.toInt q ∨ 10 ^ 16 ≤ doubles.toInt q := readable
            rw [if_pos isReadable] at created
            exact ⟨doubles.repr q, _, rfl, created, rfl⟩
  | uniform maximum =>
      apply iff_of_false
      · rintro ⟨text, gen, printed, -⟩
        cases printed
      · exact not_false
  | normal mean sd =>
      have created := @createGenerator_normalText doubles _ _ isQuantized.1.isNumberText
        isQuantized.2.isNumberText
      rw [isQuantized.1.atof_repr, isQuantized.2.atof_repr, ← normalText_eq] at created
      apply iff_of_true
      · exact ⟨_, _, rfl, created, rfl, rfl⟩
      · trivial
  | exponential lmbda =>
      apply iff_of_false
      · rintro ⟨text, gen, printed, -⟩
        cases printed
      · exact not_false

/-- For nonnegative parameters, exactly the normal distributions and the fixed ones with a readable
value are parsed into the generator that they describe. -/
theorem isParsed_iff_hasReadableValue {init : Init doubles} {dist : Distribution doubles}
    (nonneg : ∀ val ∈ init.parameters, Nonneg val) (built : init.build = .ok dist) :
    dist.IsParsed ↔ dist.HasReadableValue :=
  isParsed_iff (isQuantized_of_build nonneg built)

/-- A rate of ten requests. -/
theorem fixed_ten_isParsed_iff :
    Distribution.IsParsed (.fixed (.int 10) : Distribution wholeCDoubles) ↔
      Distribution.HasReadableValue (.fixed (.int 10) : Distribution wholeCDoubles) :=
  @isParsed_iff_hasReadableValue wholeCDoubles (.fixed (.int 10) true) _
    (by
      intro val isParameter
      rw [List.mem_singleton.mp isParameter]
      exact Int.le.intro 10 rfl)
    rfl

/-- The fixed double zero is printed with a point, which makes the load generator exit. -/
theorem fixed_zero_not_parsed :
    ∃ dist : Distribution wholeCDoubles,
      (Init.fixed (.int 0) false).build = .ok dist ∧ ¬ dist.IsParsed := by
  have isZero : @IsQuantized wholeCDoubles (0 : ℤ) := ⟨⟨(0 : ℤ), rfl, rfl⟩, rfl⟩
  have notReadable : ¬ (¬ 2 ^ 32 ∣ (0 : ℤ) ∨ 10 ^ 16 ≤ (0 : ℤ)) := by decide
  refine ⟨.fixed (.float (0 : ℤ)), rfl, ?_⟩
  rw [@isParsed_iff wholeCDoubles (.fixed (.float (0 : ℤ))) isZero]
  exact notReadable

/-- No uniform distribution can be printed. -/
example : Distribution.argstr (.uniform (10 : ℤ) : Distribution wholeCDoubles) =
    .error (.attributeError .maximum) := rfl

end Datamime.Memcached
