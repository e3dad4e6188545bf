/-
# The protocols of memcached

A load generator writes requests in one of two protocols and takes the responses from a buffer. A
response in the text protocol is one line, or a line that announces a value, the value itself, and a
closing line. A response in the binary protocol is a header of fixed size with the length of what
follows. A protocol takes the next part of a response as soon as all of it has arrived.
-/

import Datamime.Fault
import Datamime.Math.Bytes
import Datamime.Math.CNumber
import Datamime.Math.EventBuffer

namespace Datamime.Mutilate

open Datamime.Math

/-- What `handle_response` does when it finds enough in the buffer. -/
structure Response (π : Type) where
  state : π
  /-- What is left in the buffer. -/
  rest : List Char
  /-- What is added to the counts of the connection. -/
  rxBytes : ℤ
  getMisses : ℕ
  done : Bool
  deriving DecidableEq

/-- The virtual functions of the class of the same name, over what an instance keeps. A request is
returned with the length that is reported for it. -/
structure Protocol (π : Type) where
  /-- What is sent when the connection stands, and whether it can be used at once. -/
  setupConnectionW : List Char × Bool
  setupConnectionR : π → List Char → Except Fault (Option (Response π))
  getRequest : π → List Char → π × List Char × ℕ
  setRequest : π → List Char → List Char → π × List Char × ℕ
  /-- No response if the buffer does not hold enough. -/
  handleResponse : π → List Char → Except Fault (Option (Response π))

/-! ## The text protocol -/

inductive ReadFsm
  | IDLE
  | WAITING_FOR_GET
  | WAITING_FOR_GET_DATA
  | WAITING_FOR_END
  deriving DecidableEq

/-- `ProtocolAscii`. -/
structure Ascii where
  readState : ReadFsm
  dataLength : ℤ
  deriving DecidableEq

namespace Ascii

def initial : Ascii := ⟨.IDLE, 0⟩

/-- A request that is the first one sets what is waited for. -/
def waitFor (state : ReadFsm) (st : Ascii) : Ascii :=
  if st.readState = .IDLE then { st with readState := state } else st

def getRequest (st : Ascii) (key : List Char) : Ascii × List Char × ℕ :=
  let line := "get ".toList ++ key ++ "\r\n".toList
  (st.waitFor .WAITING_FOR_GET, line, line.length)

def setRequest (st : Ascii) (key value : List Char) : Ascii × List Char × ℕ :=
  let line := "set ".toList ++ key ++ " 0 0 ".toList ++ Text.ofInt value.length ++ "\r\n".toList
  (st.waitFor .WAITING_FOR_END, line ++ value ++ "\r\n".toList, line.length + (value.length + 2))

/-- The digits that `%d` reads are passed by. -/
def skipInt : List Char → List Char
  | '-' :: digits => digits.dropWhile Char.isDigit
  | '+' :: digits => digits.dropWhile Char.isDigit
  | digits => digits.dropWhile Char.isDigit

/-- `sscanf(buf, "VALUE %*s %*d %d", &len)`: the number, if the line has one there. -/
def scanValue? (line : List Char) : Option ℤ :=
  let name := (line.drop "VALUE".length).dropWhile CommandLine.isSpace
  let flags := (name.dropWhile fun c => !CommandLine.isSpace c).dropWhile CommandLine.isSpace
  match CommandLine.leadingInt? flags, CommandLine.leadingInt? (skipInt flags) with
  | some _, some _ => some (CNumber.atoi (skipInt flags))
  | _, _ => none

/-- The cases of `handle_response` that read a line. -/
def handleLine (st : Ascii) (line rest : List Char) : Except Fault (Option (Response Ascii)) :=
  if "END".toList.isPrefixOf line then
    .ok (some {
      state := { st with readState := .WAITING_FOR_GET }
      rest
      rxBytes := line.length
      getMisses := if st.readState = .WAITING_FOR_GET then 1 else 0
      done := true })
  else if "VALUE".toList.isPrefixOf line then
    match scanValue? line with
    | none => .error .uninitialised
    | some len => .ok (some ⟨⟨.WAITING_FOR_GET_DATA, len⟩, rest, line.length, 0, false⟩)
  else .ok (some ⟨st, rest, line.length, 0, false⟩)

/-- `ProtocolAscii::handle_response`. -/
def handleResponse (st : Ascii) (input : List Char) : Except Fault (Option (Response Ascii)) :=
  match st.readState with
  | .IDLE => .error (.exit "Unimplemented!")
  | .WAITING_FOR_GET_DATA =>
      if st.dataLength + 2 ≤ input.length then
        .ok (some {
          state := { st with readState := .WAITING_FOR_END }
          rest := EventBuffer.drain (st.dataLength + 2) input
          rxBytes := st.dataLength + 2
          getMisses := 0
          done := false })
      else .ok none
  | _ =>
      match EventBuffer.readln input with
      | none => .ok none
      | some (line, rest) => st.handleLine line rest

end Ascii

/-- `ProtocolAscii`, whose connection can be used at once. -/
def protocolAscii : Protocol Ascii where
  setupConnectionW := ([], true)
  setupConnectionR := fun st input => .ok (some ⟨st, input, 0, 0, true⟩)
  getRequest := Ascii.getRequest
  setRequest := Ascii.setRequest
  handleResponse := Ascii.handleResponse

/-! ## The binary protocol -/

namespace Binary

def CMD_GET : ℕ := 0x00
def CMD_SET : ℕ := 0x01
def CMD_SASL : ℕ := 0x21
def RESP_OK : ℕ := 0x00

/-- The fields of a request header, up to the version. -/
def header (opcode keyLen extraLen bodyLen : ℕ) : List Char :=
  NetworkOrder.toBytes 1 0x80 ++ NetworkOrder.toBytes 1 opcode ++ NetworkOrder.toBytes 2 keyLen ++
    NetworkOrder.toBytes 1 extraLen ++ NetworkOrder.toBytes 1 0 ++ NetworkOrder.toBytes 2 0 ++
    NetworkOrder.toBytes 4 bodyLen ++ NetworkOrder.toBytes 4 0 ++ NetworkOrder.toBytes 8 0

/-- The length of a key is kept in 16 bits. -/
def keylen (key : List Char) : ℕ := key.length % 2 ^ 16

def getRequest (key : List Char) : List Char × ℕ :=
  (header CMD_GET (keylen key) 0 (keylen key) ++ key.take (keylen key), 24 + keylen key)

def setRequest (key value : List Char) : List Char × ℕ :=
  let bodyLen := keylen key + 8 + value.length
  (header CMD_SET (keylen key) 8 bodyLen ++ NetworkOrder.toBytes 8 0 ++ key.take (keylen key) ++
    value, 24 + bodyLen)

/-- `setup_connection_w`, with a name and a password if there is to be an authentication. -/
def setupConnectionW : Option (List Char × List Char) → List Char × Bool
  | none => ([], true)
  | some (user, pass) =>
      (header CMD_SASL 5 0 (6 + user.length + 1 + pass.length) ++ "PLAIN".toList ++
        NetworkOrder.toBytes 1 0 ++ user ++ NetworkOrder.toBytes 1 0 ++ pass, false)

/-- `ProtocolBinary::handle_response`. -/
def handleResponse (input : List Char) : Except Fault (Option (Response Unit)) :=
  if input.length < 24 then .ok none
  else
    let opcode := NetworkOrder.ofBytes ((input.drop 1).take 1)
    let status := NetworkOrder.ofBytes ((input.drop 6).take 2)
    let targetLen := ((24 + NetworkOrder.ofBytes ((input.drop 8).take 4) : ℕ) : ℤ).bmod (2 ^ 32)
    if input.length < targetLen then .ok none
    else if opcode = CMD_SASL ∧ status ≠ RESP_OK then .error (.exit "SASL authentication failed")
    else .ok (some {
      state := ()
      rest := EventBuffer.drain targetLen input
      rxBytes := targetLen
      getMisses := if opcode = CMD_GET ∧ status ≠ 0 then 1 else 0
      done := true })

end Binary

/-- `ProtocolBinary`. -/
def protocolBinary (sasl : Option (List Char × List Char)) : Protocol Unit where
  setupConnectionW := Binary.setupConnectionW sasl
  setupConnectionR := fun _ input =>
    if sasl.isNone then .ok (some ⟨(), input, 0, 0, true⟩) else Binary.handleResponse input
  getRequest := fun _ key => ((), Binary.getRequest key)
  setRequest := fun _ key value => ((), Binary.setRequest key value)
  handleResponse := fun _ input => Binary.handleResponse input

end Datamime.Mutilate
