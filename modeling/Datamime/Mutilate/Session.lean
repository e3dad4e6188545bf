/-
# A connection and its server

The server answers the requests of a connection in order, and what it sends arrives in pieces of any
size. The event loop calls the connection back when a piece has arrived or its timer has expired. A
session is any sequence of such events.
-/

import Datamime.Math.Run
import Datamime.Mutilate.Connection

namespace Datamime.Mutilate

open Datamime.Math

variable {π ρ T : Type}

/-! ## Reading a response -/

namespace Protocol

/-- What is written for a request, with the protocol behind it and the length that is reported. -/
def send (prot : Protocol π) (st : π) : Request → π × List Char × ℕ
  | .get key => prot.getRequest st key
  | .set key value => prot.setRequest st key value

/-- A part of a response that is taken precisely when all of it has arrived, whatever comes behind.
No request changes the state of a protocol that waits for it. -/
structure Takes (prot : Protocol π) (st : π) (bytes : List Char) (next : π) (rxBytes : ℤ)
    (getMisses : ℕ) (done : Bool) : Prop where
  arrived : ∀ more, prot.handleResponse st (bytes ++ more) =
    .ok (some ⟨next, more, rxBytes, getMisses, done⟩)
  waits : ∀ part, part <+: bytes → part ≠ bytes → prot.handleResponse st part = .ok none
  someBytes : bytes ≠ []
  keeps : ∀ request, (prot.send st request).1 = st

/-- A response to an operation that is read to its end, part by part. -/
inductive Reads (prot : Protocol π) : OpType → π → List Char → π → ℤ → ℕ → Prop
  | last {type st bytes next rxBytes getMisses done}
      (takes : prot.Takes st bytes next rxBytes getMisses done)
      (isDone : type = .GET → done = true) :
      Reads prot type st bytes next rxBytes getMisses
  | part {st bytes middle rxBytes getMisses later next rxLater missesLater}
      (takes : prot.Takes st bytes middle rxBytes getMisses false)
      (reads : Reads prot .GET middle later next rxLater missesLater) :
      Reads prot .GET st (bytes ++ later) next (rxBytes + rxLater) (getMisses + missesLater)

end Protocol

/-- The responses of a server that a protocol reads. -/
structure Codec (prot : Protocol π) (ρ : Type) where
  encode : ρ → List Char
  /-- The response may be one to an operation of the type. -/
  fits : OpType → ρ → Bool
  rxBytes : ρ → ℤ
  getMisses : π → ρ → ℕ
  after : π → OpType → ρ → π
  /-- The protocol waits for the first part of a response. -/
  Prepared : π → Prop
  waits : ∀ st, Prepared st → prot.handleResponse st [] = .ok none
  reads : ∀ st type reply, Prepared st → fits type reply = true →
    prot.Reads type st (encode reply) (after st type reply) (rxBytes reply) (getMisses st reply)
  prepared_after : ∀ st type reply, Prepared st → fits type reply = true →
    Prepared (after st type reply)
  /-- The protocol before and behind its first request. -/
  start : π
  first : OpType → π
  prepared_first : ∀ type, Prepared (first type)
  send_start : ∀ request, (prot.send start request).1 = first request.op.type
  keeps : ∀ st, Prepared st → ∀ request, (prot.send st request).1 = st
  request : Request → List Char
  send_bytes : ∀ st r, (prot.send st r).2 = (request r, (request r).length)
  /-- No greeting is sent. -/
  isUsable : prot.setupConnectionW = ([], true)

/-! ## Sessions -/

/-- A connection, what the server has sent and has not arrived, and the responses of the server. -/
structure Session (π ρ T : Type) where
  conn : Connection π T
  wire : List Char
  /-- All responses, in order. -/
  replies : List ρ
  /-- How many operations were answered before the last reset. -/
  settled : ℕ
  /-- How many operations were answered before the last start. -/
  started : ℕ

inductive SessionEvent (ρ T : Type)
  | connected
  | startLoading
  | start (time : T)
  | timer
  | reset
  /-- The server answers the next operation. -/
  | answer (reply : ρ)
  /-- So many bytes arrive. -/
  | arrive (count : ℕ)

namespace Session

variable [LinearOrder T] [Add T] [Sub T] [OfScientific T] {prot : Protocol π}

def initial (codec : Codec prot ρ) : Session π ρ T where
  conn := .initial codec.start
  wire := []
  replies := []
  settled := 0
  started := 0

/-- A call of the connection that may not return. -/
def call (session : Session π ρ T) (returned : Except Stop (Connection π T)) :
    Except Stop (Session π ρ T) := do
  let conn ← returned
  return { session with conn }

/-- One event. The main loop starts, loads and resets connections that are idle. -/
def step (codec : Codec prot ρ) (options : Options) (world : World T) (session : Session π ρ T) :
    SessionEvent ρ T → Except Stop (Session π ρ T)
  | .connected =>
      if session.conn.readState = .INIT_READ then
        .ok { session with conn := session.conn.connected prot }
      else .error .notReady
  | .startLoading =>
      if session.conn.readState = .IDLE ∧ session.conn.writeState = .INIT_WRITE then
        .ok { session with conn := session.conn.startLoading prot options world }
      else .error .notReady
  | .start time =>
      if session.conn.readState = .IDLE ∧ session.conn.writeState = .INIT_WRITE then
        call { session with started := session.replies.length }
          (session.conn.start prot options world time)
      else .error .notReady
  | .timer =>
      if session.conn.timer then session.call (session.conn.timerCallback prot options world)
      else .error .notReady
  | .reset =>
      if session.conn.readState = .IDLE then do
        let conn ← session.conn.reset
        return { session with conn, settled := session.replies.length }
      else .error .notReady
  | .answer reply =>
      match session.conn.issued[session.replies.length]? with
      | some request =>
          if codec.fits request.op.type reply then
            .ok { session with
              wire := session.wire ++ codec.encode reply
              replies := session.replies ++ [reply] }
          else .error .notReady
      | none => .error .notReady
  | .arrive count =>
      if session.wire.take count = [] then .error .notReady
      else call { session with wire := session.wire.drop count }
        (Connection.readCallback prot options world
          { session.conn with input := session.conn.input ++ session.wire.take count })

end Session

end Datamime.Mutilate
