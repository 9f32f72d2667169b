import Neubau.Modbus.Single
import Neubau.Stream.Peer

/-! A session and its server. The server answers the requests it receives, in
order, each with one reply; one disturbance of the replies is allowed, a frame
more or a length field that no frame has. What the server has sent is on the wire
until TCP delivers it, any number of bytes at a time. No timeout fires, every
`send` is accepted and the connection stays up. -/

namespace Neubau.Modbus.Session

open Neubau.Common Neubau.Transition Neubau.Stream

/-- What a server answers a request; a read gets as many registers as it asks for. -/
structure Server where
  registers : Request → Registers
  length_registers : ∀ r, (registers r).length = r.count.toNat

/-- The reply of the server the tests use. -/
def holdingReply (request : Request) (registers : Registers) : Bytes :=
  let byteCount := UInt8.ofNat (registers.length * 2)
  writeU16 request.transactionId ++ writeU16 0 ++ writeU16 (3 + byteCount.toUInt16) ++
    [request.unitId, 0x03, byteCount] ++ registers.flatMap writeU16

/-- The frame with another length field. -/
def setLength (frame : Bytes) (value : UInt16) : Bytes :=
  frame.take 4 ++ writeU16 value ++ frame.drop 6

/-- The one fault in the stream of replies; replies are counted from 0. -/
inductive Disturbance
  /-- One more frame, in front of the reply of this index or behind the last one. -/
  | extra (index : ℕ) (frame : Bytes)
  /-- The reply of this index has another length field. -/
  | length (index : ℕ) (value : UInt16)
  deriving DecidableEq, Repr

def Disturbance.index : Disturbance → ℕ
  | .extra index _ => index
  | .length index _ => index

/-- What is sent ahead of the reply of an index. -/
def Disturbance.ahead (D : Disturbance) (i : ℕ) : Bytes :=
  match D with
  | .extra index frame => if index = i then frame else []
  | .length _ _ => []

/-- What is sent for the reply of an index. -/
def Disturbance.disturb (D : Disturbance) (i : ℕ) (reply : Bytes) : Bytes :=
  match D with
  | .extra _ _ => reply
  | .length index value => if index = i then setLength reply value else reply

/-- What the server sends when it receives requests, the first of this index. A
frame more comes as soon as the reply it follows. -/
def Server.replies (S : Server) (D : Disturbance) : ℕ → List Request → Bytes
  | _, [] => []
  | i, r :: rs =>
    D.disturb i (holdingReply r (S.registers r)) ++ D.ahead (i + 1) ++ S.replies D (i + 1) rs

def Effect.request : Effect → Option Request
  | .sent request _ => some request
  | _ => none

/-- The requests that were sent. -/
def requests (log : List Effect) : List Request := log.filterMap Effect.request

/-- The server's end: how many requests it received, and its bytes TCP still holds. -/
structure Wire where
  received : ℕ
  bytes : Bytes
  deriving DecidableEq, Repr

/-- The server receives what the session sent on its way from `s` to `t`. -/
def Wire.react (S : Server) (D : Disturbance) (w : Wire) (s t : Core) : Wire :=
  let new := requests (t.log.drop s.log.length)
  { received := w.received + new.length
    bytes := w.bytes ++ S.replies D w.received new }

/-- A session and the server's end of its connection. -/
structure Link where
  session : State
  wire : Wire
  deriving DecidableEq, Repr

/-- The server has received the active request, if there is one, and nothing else. -/
def Link.start (S : Server) (D : Disturbance) (s : State) : Link where
  session := s
  wire :=
    { received := s.core.active.toList.length
      bytes := D.ahead 0 ++ S.replies D 0 s.core.active.toList }

/-- The first `k` bytes of the wire arrive. -/
def Link.deliver (S : Server) (D : Disturbance) (l : Link) (k : ℕ) : Link :=
  let session := onData .obliging l.session (l.wire.bytes.take k)
  { session
    wire := { l.wire with bytes := l.wire.bytes.drop k }.react S D l.session.core session.core }

/-- TCP delivers what it holds, in pieces of any size. -/
def linkMachine (S : Server) (D : Disturbance) (s : State) : Machine Link ℕ where
  init l := l = .start S D s
  enabled l k := 0 < k ∧ k ≤ l.wire.bytes.length
  next := Link.deliver S D

/-- What the session did since the link started. -/
def Link.since (l : Link) (s : State) : List Effect := l.session.core.log.drop s.core.log.length

def Effect.isFailed : Effect → Bool
  | .failed _ _ _ => true
  | _ => false

/-- At most one read has failed, those that succeeded got their own registers, and
once the wire is empty every read held at the start is resolved, in order. -/
structure Link.Contained (S : Server) (s : State) (l : Link) : Prop where
  failures : (l.since s).countP Effect.isFailed ≤ 1
  own : ∀ r registers, .posted r registers ∈ l.since s → registers = S.registers r
  resolved : l.wire.bytes = [] →
    (l.since s).filterMap Effect.resolves = s.core.held.map (·.observer)

end Neubau.Modbus.Session
