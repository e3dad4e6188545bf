/-
# Responses in the text protocol

The server answers a set with one line, and a get with the value that it holds or with nothing. A
protocol that has read the closing line of a get counts a miss if no value came before it. It does
not expect that line before the first value or miss if its first request was a set.
-/

import Datamime.Mutilate.Runs
import Mathlib.Data.Rat.Defs

namespace Datamime.Mutilate

open Datamime.Math

inductive AsciiReply
  /-- The line that answers a set. -/
  | status (line : List Char)
  | miss
  | hit (key flags data : List Char)
  deriving DecidableEq

namespace AsciiReply

/-- The line in front of a value. -/
def valueLine (key flags data : List Char) : List Char :=
  "VALUE ".toList ++ key ++ ' ' :: flags ++ ' ' :: Text.ofInt data.length

def encode : AsciiReply → List Char
  | status line => line ++ "\r\n".toList
  | miss => "END\r\n".toList
  | hit key flags data =>
      (valueLine key flags data ++ "\r\n".toList) ++ ((data ++ "\r\n".toList) ++ "END\r\n".toList)

/-- The replies to an operation, of a server that answers no `get` with an error line. -/
def fits : OpType → AsciiReply → Bool
  | .SET, status line =>
      !line.contains '\n' && !"END".toList.isPrefixOf line && !"VALUE".toList.isPrefixOf line
  | .GET, miss => true
  | .GET, hit key flags data =>
      key ≠ [] && key.all (fun c => !CommandLine.isSpace c) && flags ≠ [] &&
        flags.all Char.isDigit && decide (data.length < 2 ^ 31)
  | _, _ => false

/-- How many lines are read for a reply. -/
def lineEnds : AsciiReply → ℕ
  | status _ | miss => 1
  | hit _ _ _ => 2

/-- The bytes of a reply, without the line ends that a line is read with. -/
def rxBytes (reply : AsciiReply) : ℤ := reply.encode.length - 2 * reply.lineEnds

def getMisses (st : Ascii) : AsciiReply → ℕ
  | miss => if st.readState = .WAITING_FOR_GET then 1 else 0
  | _ => 0

def after (st : Ascii) (_ : OpType) : AsciiReply → Ascii
  | status _ => st
  | miss => { st with readState := .WAITING_FOR_GET }
  | hit _ _ data => ⟨.WAITING_FOR_GET, data.length⟩

end AsciiReply

namespace Ascii

/-- A protocol that waits for a line. -/
def ExpectsLine (st : Ascii) : Prop :=
  st.readState = .WAITING_FOR_GET ∨ st.readState = .WAITING_FOR_END

variable {st next : Ascii} {rxBytes : ℤ} {getMisses : ℕ} {done : Bool}

theorem ExpectsLine.handleResponse_of_none (expects : st.ExpectsLine) {input : List Char}
    (noLine : EventBuffer.readln input = none) : st.handleResponse input = .ok none := by
  unfold handleResponse
  rcases expects with isState | isState <;> simp only [isState, noLine]

theorem ExpectsLine.handleResponse_of_line (expects : st.ExpectsLine)
    {input line rest : List Char} (isLine : EventBuffer.readln input = some (line, rest)) :
    st.handleResponse input = st.handleLine line rest := by
  unfold handleResponse
  rcases expects with isState | isState <;> simp only [isState, isLine]

/-- A request that is not the first one changes nothing. -/
theorem keeps (notIdle : st.readState ≠ .IDLE) (request : Request) :
    (protocolAscii.send st request).1 = st := by
  cases request with
  | get key => exact if_neg notIdle
  | set key value => exact if_neg notIdle

theorem ExpectsLine.notIdle (expects : st.ExpectsLine) : st.readState ≠ .IDLE := by
  rcases expects with isState | isState <;>
  · rw [isState]
    exact ReadFsm.noConfusion

theorem takes_line (expects : st.ExpectsLine) {line : List Char} (oneLine : '\n' ∉ line)
    (handled : ∀ rest,
      st.handleLine line rest = .ok (some ⟨next, rest, rxBytes, getMisses, done⟩)) :
    protocolAscii.Takes st (line ++ "\r\n".toList) next rxBytes getMisses done where
  arrived := by
    intro more
    have isLine : EventBuffer.readln (line ++ "\r\n".toList ++ more) = some (line, more) := by
      rw [List.append_assoc]
      exact EventBuffer.readln_crlf oneLine more
    exact (expects.handleResponse_of_line isLine).trans (handled more)
  waits := by
    intro part isPart notWhole
    exact expects.handleResponse_of_none (EventBuffer.readln_part oneLine isPart notWhole)
  someBytes := List.append_ne_nil_of_right_ne_nil _ (by decide)
  keeps := keeps expects.notIdle

theorem takes_data {data : List Char} (isState : st.readState = .WAITING_FOR_GET_DATA)
    (isLength : st.dataLength = data.length) :
    protocolAscii.Takes st (data ++ "\r\n".toList) { st with readState := .WAITING_FOR_END }
      (data.length + 2) 0 false where
  arrived := by
    intro more
    change st.handleResponse (data ++ "\r\n".toList ++ more) = _
    have whole : (data ++ "\r\n".toList).length = data.length + 2 := List.length_append
    have enough : st.dataLength + 2 ≤ (data ++ "\r\n".toList ++ more).length := by
      rw [List.length_append, whole, isLength]
      omega
    rw [handleResponse, isState]
    dsimp only
    rw [if_pos enough, isLength]
    have drained := EventBuffer.drain_length (data ++ "\r\n".toList) more
    rw [whole, Int.natCast_add] at drained
    exact congrArg (fun rest => Except.ok (some (Response.mk _ rest _ 0 false))) drained
  waits := by
    intro part isPart notWhole
    change st.handleResponse part = _
    have shorter := isPart.length_le.lt_of_ne fun same => notWhole (isPart.eq_of_length same)
    have whole : (data ++ "\r\n".toList).length = data.length + 2 := List.length_append
    rw [handleResponse, isState]
    dsimp only
    rw [if_neg]
    rw [isLength]
    omega
  someBytes := List.append_ne_nil_of_right_ne_nil _ (by decide)
  keeps := by
    refine keeps ?_
    rw [isState]
    exact ReadFsm.noConfusion

/-! ## The lines of a reply -/

theorem handleLine_end (st : Ascii) (rest : List Char) :
    st.handleLine "END".toList rest = .ok (some {
      state := { st with readState := .WAITING_FOR_GET }
      rest
      rxBytes := 3
      getMisses := if st.readState = .WAITING_FOR_GET then 1 else 0
      done := true }) := rfl

theorem handleLine_status {line : List Char} (notEnd : "END".toList.isPrefixOf line = false)
    (notValue : "VALUE".toList.isPrefixOf line = false) (rest : List Char) :
    st.handleLine line rest = .ok (some ⟨st, rest, line.length, 0, false⟩) := by
  rw [handleLine, if_neg (ne_true_of_eq_false notEnd), if_neg (ne_true_of_eq_false notValue)]

theorem isSpace_of_isDigit {c : Char} (digit : c.isDigit = true) :
    CommandLine.isSpace c = false := by
  have range : 48 ≤ c.toNat ∧ c.toNat ≤ 57 := by
    simpa [Char.isDigit, UInt32.le_iff_toNat_le] using digit
  simp only [CommandLine.isSpace, Bool.or_eq_false_iff, Bool.and_eq_false_iff,
    decide_eq_false_iff_not]
  omega

/-- A word behind a blank is passed by. -/
theorem dropWhile_word {word : List Char} (noSpace : ∀ c ∈ word, CommandLine.isSpace c = false)
    (rest : List Char) :
    (word ++ ' ' :: rest).dropWhile (fun c => !CommandLine.isSpace c) = ' ' :: rest := by
  rw [List.dropWhile_append_of_pos]
  · rfl
  · intro c isMember
    rw [noSpace c isMember]
    rfl

theorem dropWhile_space {first : Char} (noSpace : CommandLine.isSpace first = false)
    (rest : List Char) :
    (' ' :: first :: rest).dropWhile CommandLine.isSpace = first :: rest := by
  rw [List.dropWhile_cons_of_pos (by decide), List.dropWhile_cons_of_neg]
  rw [noSpace]
  exact Bool.false_ne_true

/-- Digits are read as a number. -/
theorem leadingInt?_digits {digit : Char} {digits : List Char}
    (areDigits : ∀ c ∈ digit :: digits, c.isDigit = true) (rest : List Char) :
    ∃ value, CommandLine.leadingInt? (digit :: digits ++ ' ' :: rest) = some value := by
  have taken : (digit :: digits ++ ' ' :: rest).takeWhile Char.isDigit = digit :: digits := by
    rw [List.takeWhile_append_of_pos areDigits, List.takeWhile_cons_of_neg (by decide),
      List.append_nil]
  have isNumber : Text.toNat? (digit :: digits) = some (Nat.ofDigitChars 10 (digit :: digits) 0) :=
    if_pos ⟨List.cons_ne_nil _ _, List.all_eq_true.mpr areDigits⟩
  refine ⟨Nat.ofDigitChars 10 (digit :: digits) 0, ?_⟩
  rw [List.cons_append, CommandLine.leadingInt?_cons_of_isDigit
    (areDigits digit List.mem_cons_self), ← List.cons_append, CommandLine.leadingNat?, taken,
    isNumber]
  rfl

theorem skipInt_digits {digit : Char} {digits : List Char}
    (areDigits : ∀ c ∈ digit :: digits, c.isDigit = true) (rest : List Char) :
    skipInt (digit :: digits ++ ' ' :: rest) = ' ' :: rest := by
  have isDigit := areDigits digit List.mem_cons_self
  have noMinus : digit ≠ '-' := by
    rintro rfl
    exact absurd isDigit (by decide)
  have noPlus : digit ≠ '+' := by
    rintro rfl
    exact absurd isDigit (by decide)
  have dropped : (digit :: digits ++ ' ' :: rest).dropWhile Char.isDigit = ' ' :: rest := by
    rw [List.dropWhile_append_of_pos areDigits, List.dropWhile_cons_of_neg (by decide)]
  rw [List.cons_append, skipInt]
  · exact dropped
  · rintro _ starts
    exact noMinus (List.cons.inj starts).1
  · rintro _ starts
    exact noPlus (List.cons.inj starts).1

/-- The length is read behind the key and the flags. -/
theorem scanValue?_valueLine {key flags data : List Char} (some_key : key ≠ [])
    (noSpace : ∀ c ∈ key, CommandLine.isSpace c = false) (some_flags : flags ≠ [])
    (areDigits : ∀ c ∈ flags, c.isDigit = true) (small : data.length < 2 ^ 31) :
    scanValue? (AsciiReply.valueLine key flags data) = some data.length := by
  obtain ⟨keyFirst, keyRest, rfl⟩ := List.exists_cons_of_ne_nil some_key
  obtain ⟨digit, digits, rfl⟩ := List.exists_cons_of_ne_nil some_flags
  have isLength : CommandLine.leadingInt? (' ' :: Text.ofInt data.length) =
      some (data.length : ℤ) := CommandLine.leadingInt?_ofInt _
  obtain ⟨value, isFlag⟩ := leadingInt?_digits areDigits (Text.ofInt data.length)
  have behindName : ((AsciiReply.valueLine (keyFirst :: keyRest) (digit :: digits) data).drop
      "VALUE".length).dropWhile CommandLine.isSpace =
      keyFirst :: keyRest ++ ' ' :: (digit :: digits ++ ' ' :: Text.ofInt data.length) := by
    have isLine : (AsciiReply.valueLine (keyFirst :: keyRest) (digit :: digits) data).drop
        "VALUE".length =
        ' ' :: keyFirst :: (keyRest ++ ' ' :: digit :: digits ++ ' ' :: Text.ofInt data.length) :=
      rfl
    rw [isLine, dropWhile_space (noSpace keyFirst List.mem_cons_self), List.append_assoc]
    rfl
  rw [scanValue?]
  simp only [behindName, dropWhile_word noSpace]
  rw [List.cons_append, dropWhile_space (isSpace_of_isDigit (areDigits digit List.mem_cons_self)),
    ← List.cons_append, isFlag, skipInt_digits areDigits, isLength]
  exact congrArg some (CNumber.atoi_of_small isLength (by omega) (by omega))

theorem handleLine_value {key flags data : List Char} (some_key : key ≠ [])
    (noSpace : ∀ c ∈ key, CommandLine.isSpace c = false) (some_flags : flags ≠ [])
    (areDigits : ∀ c ∈ flags, c.isDigit = true) (small : data.length < 2 ^ 31)
    (rest : List Char) :
    st.handleLine (AsciiReply.valueLine key flags data) rest =
      .ok (some ⟨⟨.WAITING_FOR_GET_DATA, data.length⟩, rest,
        (AsciiReply.valueLine key flags data).length, 0, false⟩) := by
  rw [handleLine, scanValue?_valueLine some_key noSpace some_flags areDigits small]
  rfl

/-! ## Whole replies -/

theorem newline_not_mem_valueLine {key flags data : List Char}
    (noSpace : ∀ c ∈ key, CommandLine.isSpace c = false)
    (areDigits : ∀ c ∈ flags, c.isDigit = true) :
    '\n' ∉ AsciiReply.valueLine key flags data := by
  have notInKey : '\n' ∉ key := by
    intro isMember
    have isSpace := noSpace '\n' isMember
    cases isSpace
  have notInFlags : '\n' ∉ flags := by
    intro isMember
    have isDigit := areDigits '\n' isMember
    cases isDigit
  have notInLength : '\n' ∉ Text.ofInt data.length := by
    intro isMember
    rcases Text.isDigit_of_mem_ofInt isMember with isDigit | isSign
    · exact absurd isDigit (by decide)
    · exact absurd isSign (by decide)
  have notInName : '\n' ∉ "VALUE ".toList := by decide
  have notSpace : '\n' ≠ ' ' := by decide
  change '\n' ∉ "VALUE ".toList ++ key ++ ' ' :: flags ++ ' ' :: Text.ofInt data.length
  simp only [List.mem_append, List.mem_cons, not_or]
  exact ⟨⟨⟨notInName, notInKey⟩, notSpace, notInFlags⟩, notSpace, notInLength⟩

/-- The line that answers a set. -/
theorem reads_status (expects : st.ExpectsLine) {line : List Char}
    (fits : (AsciiReply.status line).fits .SET = true) :
    protocolAscii.Reads .SET st (AsciiReply.status line).encode st
      (AsciiReply.status line).rxBytes 0 := by
  simp only [AsciiReply.fits, Bool.and_eq_true, Bool.not_eq_true', List.contains_eq_mem,
    decide_eq_false_iff_not] at fits
  obtain ⟨⟨oneLine, notEnd⟩, notValue⟩ := fits
  have counted : (AsciiReply.status line).rxBytes = line.length := by
    rw [AsciiReply.rxBytes, AsciiReply.encode, List.length_append]
    change ((line.length + 2 : ℕ) : ℤ) - 2 * (1 : ℕ) = line.length
    omega
  rw [counted]
  exact .last (takes_line expects oneLine (handleLine_status notEnd notValue))
    fun isGet => OpType.noConfusion isGet

/-- The closing line of a get. -/
theorem takes_end (expects : st.ExpectsLine) :
    protocolAscii.Takes st "END\r\n".toList { st with readState := .WAITING_FOR_GET } 3
      (if st.readState = .WAITING_FOR_GET then 1 else 0) true :=
  takes_line expects (by decide) (handleLine_end st)

/-- A value between its lines. -/
theorem reads_hit (expects : st.ExpectsLine) {key flags data : List Char}
    (fits : (AsciiReply.hit key flags data).fits .GET = true) :
    protocolAscii.Reads .GET st (AsciiReply.hit key flags data).encode
      ⟨.WAITING_FOR_GET, data.length⟩ (AsciiReply.hit key flags data).rxBytes 0 := by
  simp only [AsciiReply.fits, Bool.and_eq_true, List.all_eq_true, Bool.not_eq_true',
    decide_eq_true_eq] at fits
  obtain ⟨⟨⟨⟨some_key, noSpace⟩, some_flags⟩, areDigits⟩, small⟩ := fits
  have counted : (AsciiReply.hit key flags data).rxBytes =
      (AsciiReply.valueLine key flags data).length + (((data.length : ℤ) + 2) + 3) := by
    rw [AsciiReply.rxBytes, AsciiReply.encode, List.length_append, List.length_append,
      List.length_append, List.length_append]
    change (((AsciiReply.valueLine key flags data).length + 2 + (data.length + 2 + 5) : ℕ) : ℤ) -
      2 * (2 : ℕ) = _
    omega
  rw [counted]
  have line := takes_line expects (newline_not_mem_valueLine noSpace areDigits)
    (handleLine_value some_key noSpace some_flags areDigits small)
  have value : protocolAscii.Takes ⟨.WAITING_FOR_GET_DATA, data.length⟩ (data ++ "\r\n".toList)
      ⟨.WAITING_FOR_END, data.length⟩ (data.length + 2) 0 false := takes_data rfl rfl
  have closing : protocolAscii.Takes ⟨.WAITING_FOR_END, data.length⟩ "END\r\n".toList
      ⟨.WAITING_FOR_GET, data.length⟩ 3 0 true := takes_end (.inr rfl)
  exact .part line (.part value (.last closing fun _ => rfl))

/-- A reply is read to its end. -/
theorem reads_reply (expects : st.ExpectsLine) (type : OpType) (reply : AsciiReply)
    (fits : reply.fits type = true) :
    protocolAscii.Reads type st reply.encode (reply.after st type) reply.rxBytes
      (reply.getMisses st) := by
  cases reply with
  | status line =>
      cases type with
      | GET => cases fits
      | SET => exact reads_status expects fits
  | miss =>
      cases type with
      | GET => exact .last (takes_end expects) fun _ => rfl
      | SET => cases fits
  | hit key flags data =>
      cases type with
      | GET => exact reads_hit expects fits
      | SET => cases fits

end Ascii

/-- The text protocol, for a server that keeps to it. -/
def asciiCodec : Codec protocolAscii AsciiReply where
  encode := AsciiReply.encode
  fits := AsciiReply.fits
  rxBytes := AsciiReply.rxBytes
  getMisses := fun st reply => reply.getMisses st
  after := fun st type reply => reply.after st type
  Prepared := Ascii.ExpectsLine
  waits := fun st expects => expects.handleResponse_of_none rfl
  reads := fun st type reply expects fits => Ascii.reads_reply expects type reply fits
  prepared_after := by
    intro st type reply expects fits
    cases reply with
    | status line => exact expects
    | miss => exact .inl rfl
    | hit key flags data => exact .inl rfl
  start := .initial
  first := fun
    | .GET => ⟨.WAITING_FOR_GET, 0⟩
    | .SET => ⟨.WAITING_FOR_END, 0⟩
  prepared_first := by
    intro type
    cases type with
    | GET => exact .inl rfl
    | SET => exact .inr rfl
  send_start := by
    intro request
    cases request <;> rfl
  keeps := fun st expects => Ascii.keeps expects.notIdle
  request := fun
    | .get key => "get ".toList ++ key ++ "\r\n".toList
    | .set key value =>
        "set ".toList ++ key ++ " 0 0 ".toList ++ Text.ofInt value.length ++ "\r\n".toList ++
          value ++ "\r\n".toList
  send_bytes := by
    intro st request
    cases request with
    | get key => rfl
    | set key value =>
        have sameLength (line : List Char) : line.length + (value.length + 2) =
            (line ++ value ++ "\r\n".toList).length := by
          rw [List.length_append, List.length_append, Nat.add_assoc]
          rfl
        exact Prod.ext rfl (sameLength _)
  isUsable := rfl

/-! ## What is counted -/

namespace AsciiReply

/-- Whether the first get among some operations finds nothing. -/
def firstMisses (pairs : List (OpType × AsciiReply)) : Bool :=
  (pairs.find? (·.1 = .GET)).any (·.2 = miss)

/-- The misses that are not counted: the one that answers the first get, behind a first set. -/
def hidden : List (OpType × AsciiReply) → ℕ
  | [] | (.GET, _) :: _ => 0
  | (.SET, _) :: rest => if firstMisses rest then 1 else 0

def misses (replies : List AsciiReply) : ℕ := replies.countP (· = miss)

theorem misses_cons (reply : AsciiReply) (replies : List AsciiReply) :
    misses (reply :: replies) = (if reply = miss then 1 else 0) + misses replies := by
  rw [misses, misses, List.countP_cons, Nat.add_comm]
  congr 1
  simp

/-- A protocol that has read a closing line counts every miss. -/
theorem missesOf_expectsGet {st : Ascii} (isState : st.readState = .WAITING_FOR_GET)
    (pairs : List (OpType × AsciiReply)) :
    asciiCodec.missesOf st pairs = misses (pairs.map Prod.snd) := by
  induction pairs generalizing st with
  | nil => rfl
  | cons pair rest ih =>
      rcases pair with ⟨type, reply⟩
      have stays : (reply.after st type).readState = .WAITING_FOR_GET := by
        cases reply with
        | status line => exact isState
        | miss => rfl
        | hit key flags data => rfl
      rw [Codec.missesOf]
      change reply.getMisses st + asciiCodec.missesOf (reply.after st type) rest = _
      rw [ih stays, List.map_cons, misses_cons]
      congr 1
      cases reply with
      | status line => rfl
      | miss => exact if_pos isState
      | hit key flags data => rfl

/-- A protocol that expects no value passes over the first miss. -/
theorem missesOf_expectsEnd {st : Ascii} (isState : st.readState = .WAITING_FOR_END)
    {pairs : List (OpType × AsciiReply)} (fit : ∀ pair ∈ pairs, pair.2.fits pair.1 = true) :
    asciiCodec.missesOf st pairs + (if firstMisses pairs then 1 else 0) =
      misses (pairs.map Prod.snd) := by
  induction pairs generalizing st with
  | nil => rfl
  | cons pair rest ih =>
      rcases pair with ⟨type, reply⟩
      have fitsFirst := fit _ List.mem_cons_self
      cases type with
      | SET =>
          cases reply with
          | miss => cases fitsFirst
          | hit key flags data => cases fitsFirst
          | status line =>
              have later := ih isState fun pair isMember =>
                fit pair (List.mem_cons_of_mem _ isMember)
              have counted : misses (((.SET, .status line) :: rest).map Prod.snd) =
                  misses (rest.map Prod.snd) := rfl
              rw [counted, ← later]
              change 0 + asciiCodec.missesOf st rest + _ = _
              rw [Nat.zero_add]
              rfl
      | GET =>
          cases reply with
          | status line => cases fitsFirst
          | miss =>
              have isNext : ({ st with readState := .WAITING_FOR_GET } : Ascii).readState =
                  .WAITING_FOR_GET := rfl
              change (if st.readState = .WAITING_FOR_GET then 1 else 0) +
                asciiCodec.missesOf { st with readState := .WAITING_FOR_GET } rest + 1 = _
              rw [missesOf_expectsGet isNext, isState, List.map_cons, misses_cons, if_pos rfl,
                if_neg ReadFsm.noConfusion, Nat.zero_add, Nat.add_comm]
          | hit key flags data =>
              have isNext : (⟨.WAITING_FOR_GET, data.length⟩ : Ascii).readState =
                  .WAITING_FOR_GET := rfl
              change 0 + asciiCodec.missesOf ⟨.WAITING_FOR_GET, data.length⟩ rest + 0 = _
              rw [missesOf_expectsGet isNext, List.map_cons, misses_cons,
                if_neg AsciiReply.noConfusion, Nat.add_zero]

/-- Every miss is counted but for the hidden ones. -/
theorem missesOf_first {type : OpType} {pairs : List (OpType × AsciiReply)}
    (isFirst : ∀ pair ∈ pairs.head?, pair.1 = type)
    (fit : ∀ pair ∈ pairs, pair.2.fits pair.1 = true) :
    asciiCodec.missesOf (asciiCodec.first type) pairs + hidden pairs =
      misses (pairs.map Prod.snd) := by
  cases pairs with
  | nil => rfl
  | cons pair rest =>
      rcases pair with ⟨own, reply⟩
      have isOwn : own = type := isFirst _ rfl
      subst isOwn
      cases own with
      | GET => exact missesOf_expectsGet rfl _
      | SET =>
          have isState : (⟨.WAITING_FOR_END, 0⟩ : Ascii).readState = .WAITING_FOR_END := rfl
          have isSet : firstMisses ((.SET, reply) :: rest) = firstMisses rest := rfl
          have counted := missesOf_expectsEnd isState fit
          rwa [isSet] at counted

theorem rxBytes_sum (replies : List AsciiReply) :
    (replies.map rxBytes).sum + 2 * ((replies.map lineEnds).sum : ℤ) =
      (replies.map fun reply => (reply.encode.length : ℤ)).sum := by
  induction replies with
  | nil => rfl
  | cons reply rest ih =>
      rw [List.map_cons, List.map_cons, List.map_cons, List.sum_cons, List.sum_cons,
        List.sum_cons, ← ih, rxBytes]
      push_cast
      ring

end AsciiReply

namespace Session

variable {T : Type} {session : Session Ascii AsciiReply T}

/-- The first answers of a session, and how many misses are counted among them. -/
theorem missesOf_take {finished queued : List Request} {isRead unread : List AsciiReply}
    (follows : Follows asciiCodec session finished queued isRead unread) (count : ℕ) :
    asciiCodec.missesOf (asciiCodec.origin session.conn.issued) (session.answers.take count) +
        AsciiReply.hidden (session.answers.take count) =
      AsciiReply.misses (session.replies.take count) := by
  have enough : session.replies.length ≤ (session.conn.issued.map (·.op.type)).length := by
    rw [List.length_map]
    exact follows.replies_length_le
  have isReplies : (session.answers.take count).map Prod.snd = session.replies.take count := by
    rw [List.map_take, answers, List.map_snd_zip enough]
  rw [← isReplies]
  cases isIssued : session.conn.issued with
  | nil =>
      rw [answers, isIssued, List.map_nil, List.zip_nil_left, List.take_nil]
      rfl
  | cons request later =>
      refine AsciiReply.missesOf_first ?_ fun pair isMember =>
        follows.fit pair (List.mem_of_mem_take isMember)
      intro pair isHead
      rw [answers, isIssued] at isHead
      cases isReply : session.replies with
      | nil =>
          rw [isReply, List.zip_nil_right, List.take_nil] at isHead
          cases isHead
      | cons reply replies =>
          rw [isReply] at isHead
          cases count with
          | zero => cases isHead
          | succ count =>
              cases isHead
              rfl

variable [LinearOrder T] [Add T] [Sub T] [OfScientific T] {options : Options} {world : World T}

/-- Once all has arrived, each answered request is finished, and the counts of the connection are
the bytes of the responses since the last reset, without the ends of the lines, and the misses among
them. A miss that is the first response to a get is not counted in a session whose first request was
a set. -/
theorem ascii_counts {events : List (SessionEvent AsciiReply T)}
    (reached : run (step asciiCodec options world) (initial asciiCodec) events = .ok session)
    (arrived : session.wire = []) :
    session.finishedCount = session.replies.length ∧
    session.conn.stats.rxBytes +
        2 * ((session.replies.drop session.settled).map AsciiReply.lineEnds).sum =
      ((session.replies.drop session.settled).map fun reply => (reply.encode.length : ℤ)).sum ∧
    session.conn.stats.getMisses + AsciiReply.hidden session.answers =
      AsciiReply.misses (session.replies.drop session.settled) +
        AsciiReply.hidden (session.answers.take session.settled) := by
  obtain ⟨isFinished, rxBytes, counted⟩ := finished_of_arrived reached arrived
  have isGood := good_along asciiCodec options world events events (List.prefix_refl _) session
    reached
  obtain ⟨finished, queued, isRead, unread, sound⟩ := isGood.isSound
  have before := missesOf_take sound.follows session.settled
  have all := missesOf_take sound.follows session.answers.length
  rw [List.take_length, sound.follows.answers_length, List.take_length] at all
  have split : AsciiReply.misses session.replies =
      AsciiReply.misses (session.replies.take session.settled) +
        AsciiReply.misses (session.replies.drop session.settled) := by
    rw [AsciiReply.misses, AsciiReply.misses, AsciiReply.misses, ← List.countP_append,
      List.take_append_drop]
  refine ⟨isFinished, ?_, by omega⟩
  rw [rxBytes]
  exact AsciiReply.rxBytes_sum _

/-- One record is loaded, and then looked up under another key. -/
def oneRecord : World ℚ where
  clock := fun _ => 0
  delay := fun _ => 0
  request := fun _ => .get "b".toList
  record := fun _ => ("a".toList, "xyz".toList)
  patience := 0

def oneAtATime : Options := ⟨1, 1, false, false, false, false, true⟩

def loadAndMiss : List (SessionEvent AsciiReply ℚ) :=
  [.connected, .startLoading, .answer (.status "STORED".toList), .arrive 3, .arrive 5, .start 10,
    .answer .miss, .arrive 5]

theorem loadAndMiss_counts : ∃ session,
    run (step asciiCodec oneAtATime oneRecord) (initial asciiCodec) loadAndMiss = .ok session ∧
      session.conn.stats.getMisses = 0 ∧ AsciiReply.misses session.replies = 1 ∧
      session.conn.stats.getMisses + AsciiReply.hidden session.answers =
        AsciiReply.misses (session.replies.drop session.settled) +
          AsciiReply.hidden (session.answers.take session.settled) := by
  have passes : (run (step asciiCodec oneAtATime oneRecord) (initial asciiCodec)
      loadAndMiss).toOption.any (fun session => session.wire = [] &&
        session.conn.stats.getMisses = 0 && AsciiReply.misses session.replies = 1) = true := by
    decide +kernel
  obtain ⟨session, reached, isChecked⟩ := exists_of_any passes
  simp only [Bool.and_eq_true, decide_eq_true_eq] at isChecked
  obtain ⟨⟨arrived, counted⟩, missed⟩ := isChecked
  exact ⟨session, reached, counted, missed, (ascii_counts reached arrived).2.2⟩

end Session

end Datamime.Mutilate
