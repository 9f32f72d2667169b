import Neubau.Common.Basic
import Neubau.Transition.Machine

/-! The Modbus session: one TCP connection, a queue of reads and at most one
read on the wire. `Core` is the session's state without the receive buffer;
every function of the source is a function on it. Callbacks of the loop are the
events of `step`. A `World` answers what libhv and the observers decide: the
results of `send` and `createsocket`, and whether an observer told of a failure
closes the session from inside its callback. -/

namespace Neubau.Modbus.Session

open Neubau.Common

abbrev Registers := List UInt16

/-- `readU16` at an offset; `none` is a read outside the data. -/
def readU16 (data : Bytes) (offset : ℕ) : Option UInt16 := do
  let high ← data[offset]?
  let low ← data[offset + 1]?
  return high.toUInt16 <<< 8 ||| low.toUInt16

def writeU16 (value : UInt16) : Bytes := [(value >>> 8).toUInt8, (value &&& 0xff).toUInt8]

def error (message : String) : Exception := .runtimeError message

/-- A read; `observer` identifies the subscriber its two callbacks share. -/
structure Request where
  unitId : UInt8
  address : UInt16
  count : UInt16
  transactionId : UInt16 := 0
  observer : ℕ
  deriving DecidableEq, Repr

/-- The bytes `sendActive` writes for a request. -/
def Request.bytes (r : Request) : Bytes :=
  writeU16 r.transactionId ++ writeU16 0 ++ writeU16 6 ++ [r.unitId, 0x03] ++
    writeU16 r.address ++ writeU16 r.count

/-- The callback a timer was armed with. -/
inductive Timeout
  | connect
  | response
  deriving DecidableEq, Repr

/-- What a session does to the outside. -/
inductive Effect
  /-- `send` accepted the bytes of the request. -/
  | sent (request : Request) (bytes : Bytes)
  /-- The success callback was queued on the loop. -/
  | posted (request : Request) (registers : Registers)
  /-- The loop ran the success callback. -/
  | delivered (request : Request) (registers : Registers)
  /-- The failure callback ran, with `_closed` as it was then. -/
  | failed (request : Request) (failure : Exception) (closed : Bool)
  deriving DecidableEq, Repr

/-- The TCP client: whether its channel is connected. -/
structure Client where
  isConnected : Bool := false
  deriving DecidableEq, Repr

/-- `ModbusSession::State` without its receive buffer. `armed` is the timer
pending in the loop, `posted` the success callbacks queued there; the three
counts number the reads enqueued and the calls of `send` and `createsocket`. -/
structure Core where
  client : Option Client := none
  queue : List Request := []
  active : Option Request := none
  timer : Option Timeout := none
  nextTransaction : UInt16 := 1
  connecting : Bool := false
  connected : Bool := false
  awaitingResponse : Bool := false
  closed : Bool := false
  armed : Option Timeout := none
  posted : List (Request × Registers) := []
  enqueued : ℕ := 0
  sends : ℕ := 0
  sockets : ℕ := 0
  log : List Effect := []
  deriving DecidableEq, Repr

/-- What the session cannot decide itself: whether the `n`-th `send` and the
`n`-th `createsocket` succeed, and whether an observer told of a failure calls
`close()` before its callback returns. -/
structure World where
  send : ℕ → Bool
  createsocket : ℕ → Bool
  closes : ℕ → Exception → Bool

/-- Every call succeeds and no observer closes the session. -/
def World.obliging : World := ⟨fun _ => true, fun _ => true, fun _ _ => false⟩

variable (W : World)

def Core.isConnected (s : Core) : Bool := s.client.any (·.isConnected)

def Core.disarmTimeout (s : Core) : Core :=
  match s.timer with
  | some _ => { s with armed := none, timer := none }
  | none => s

def Core.armTimeout (s : Core) (callback : Timeout) : Core :=
  { s.disarmTimeout with armed := some callback, timer := some callback }

/-- `request.failure(failure)`; `close` is what a `close()` of the observer does. -/
def callFailure (close : Core → Core) (s : Core) (request : Request) (failure : Exception) :
    Core :=
  let s := { s with log := s.log ++ [.failed request failure s.closed] }
  if W.closes request.observer failure then close s else s

/-- The body of `failAll`, with `close` for a `close()` called from inside one
of the failure callbacks. -/
def failAllWith (close : Core → Core) (s : Core) (failure : Exception) : Core :=
  if s.closed then s
  else
    let s := { s with
      closed := true
      connecting := false
      connected := false
      awaitingResponse := false }
    let s := s.disarmTimeout
    let s := match s.active with
      | some active => callFailure W close { s with active := none } active failure
      | none => s
    let queued := s.queue
    let s := queued.foldl (fun s request => callFailure W close s request failure)
      { s with queue := [] }
    { s with client := s.client.map fun _ => { isConnected := false } }

/-- `failAll`. A nested `close()` finds `_closed` set and returns, so that it
can be left out: `failAll_eq` is the source's recursion. -/
def failAll (s : Core) (failure : Exception) : Core := failAllWith W id s failure

def closeInLoop (s : Core) : Core :=
  if s.closed then s else failAll W s (error "Modbus session stopped")

def sendActive (s : Core) : Core :=
  match s.active with
  | none => s
  | some active =>
    if s.closed then s
    else if !s.isConnected then failAll W s (error "Modbus TCP connection failed")
    else
      let accepted := W.send s.sends
      let s := { s with sends := s.sends + 1 }
      if !accepted then failAll W s (error "Modbus TCP write failed")
      else
        let s := { s with
          log := s.log ++ [Effect.sent active active.bytes]
          awaitingResponse := true }
        s.armTimeout .response

/-- `startConnection`; the report of `start()` is an event of its own. -/
def startConnection (s : Core) : Core :=
  if s.closed || s.connecting then s
  else
    let s := { s with client := some (s.client.getD {}), connecting := true }
    let s := s.armTimeout .connect
    let created := W.createsocket s.sockets
    let s := { s with sockets := s.sockets + 1 }
    if !created then failAll W s (error "invalid Modbus TCP endpoint")
    else { s with client := some { isConnected := false } }

/-- The transaction id after one was used: 0 is skipped. -/
def bump (transaction : UInt16) : UInt16 :=
  if transaction + 1 = 0 then 1 else transaction + 1

def startNext (s : Core) : Core :=
  if s.closed || s.active.isSome then s
  else
    match s.queue with
    | [] => s
    | request :: rest =>
      let s := { s with
        active := some { request with transactionId := s.nextTransaction }
        queue := rest
        nextTransaction := bump s.nextTransaction }
      if s.connected && s.isConnected then sendActive W s else startConnection W s

/-- `enqueueInLoop`; the request gets the next observer number. -/
def enqueueInLoop (s : Core) (unitId : UInt8) (address count : UInt16) : Core :=
  let request : Request := { unitId, address, count, observer := s.enqueued }
  let s := { s with enqueued := s.enqueued + 1 }
  if s.closed then
    callFailure W (closeInLoop W) s request (error "Modbus session stopped")
  else startNext W { s with queue := s.queue ++ [request] }

/-- `onConnection`; libhv has set the channel's status before it reports. -/
def onConnection (s : Core) (up : Bool) : Core :=
  let s := { s with client := s.client.map fun _ => { isConnected := up } }
  if s.closed then s
  else if up then
    sendActive W { s with connecting := false, connected := true }.disarmTimeout
  else
    let wasConnected := s.connected
    let s := { s with connecting := false, connected := false }
    if wasConnected || s.active.isSome then failAll W s (error "Modbus TCP connection failed")
    else s

def onConnectTimeout (s : Core) : Core :=
  if !s.closed && s.connecting then failAll W s (error "Modbus connection timed out") else s

def onResponseTimeout (s : Core) : Core :=
  if !s.closed && s.active.isSome && s.awaitingResponse then
    failAll W s (error "Modbus response timed out")
  else s

def finishActiveSuccess (s : Core) (registers : Registers) : Core :=
  match s.active with
  | none => s
  | some request =>
    let s := { s.disarmTimeout with awaitingResponse := false, active := none }
    let s := { s with
      posted := s.posted ++ [(request, registers)]
      log := s.log ++ [Effect.posted request registers] }
    if !s.closed then startNext W s else s

def finishActiveError (s : Core) (failure : Exception) : Core :=
  match s.active with
  | none => s
  | some request =>
    let s := { s.disarmTimeout with awaitingResponse := false, active := none }
    let s := callFailure W (closeInLoop W) s request failure
    if !s.closed then startNext W s else s

/-- What `handleFrame` finds in a frame for the active request: the registers
or the error; `none` would be an access outside the frame. -/
def checkReply (active : Request) (frame : Bytes) : Option (Except Exception Registers) := do
  let transactionId ← readU16 frame 0
  let protocolId ← readU16 frame 2
  let unitId ← frame[6]?
  let pduSize := frame.length - 7
  if transactionId ≠ active.transactionId then
    return .error (error "unexpected Modbus transaction ID")
  if protocolId ≠ 0 then
    return .error (error "unexpected Modbus protocol ID")
  if unitId ≠ active.unitId then
    return .error (error "unexpected Modbus unit ID")
  let function ← frame[7]?
  if function = 0x83 then
    if pduSize ≠ 2 then
      return .error (error "invalid Modbus exception response")
    let code ← frame[8]?
    return .error (error ("Modbus holding-register exception " ++ toString code.toNat))
  if function ≠ 0x03 then
    return .error (error "unexpected Modbus function")
  if pduSize < 2 then
    return .error (error "unexpected Modbus byte count")
  let byteCount ← frame[8]?
  if byteCount ≠ UInt8.ofNat (active.count.toNat * 2) then
    return .error (error "unexpected Modbus byte count")
  if pduSize ≠ byteCount.toNat + 2 then
    return .error (error "invalid Modbus response payload length")
  -- the loop over `offset`, from 2 while below `pduSize`, in steps of 2
  let registers ← (List.range ((pduSize - 1) / 2)).mapM fun i => readU16 frame (7 + 2 + 2 * i)
  return .ok registers

def handleFrame (s : Core) (frame : Bytes) : Core :=
  match s.active with
  | none => s
  | some active =>
    match checkReply active frame with
    | none => s
    | some (.error failure) => finishActiveError W s failure
    | some (.ok registers) => finishActiveSuccess W s registers

/-- `ModbusSession::State`. -/
structure State where
  core : Core := {}
  receiveBuffer : Bytes := []
  deriving DecidableEq, Repr

/-- The `while` loop of `onData`, for at most `n` frames. -/
def drainBuffer : ℕ → State → State
  | 0, s => s
  | n + 1, s =>
    if s.receiveBuffer.length < 7 then s
    else
      match readU16 s.receiveBuffer 4 with
      | none => s
      | some length =>
        if length < 3 ∨ length > 254 then
          { core := finishActiveError W s.core (error "invalid Modbus response length")
            receiveBuffer := [] }
        else
          let frameSize := 6 + length.toNat
          if s.receiveBuffer.length < frameSize then s
          else
            let frame := s.receiveBuffer.take frameSize
            let s := { s with receiveBuffer := s.receiveBuffer.drop frameSize }
            let s := { s with core := handleFrame W s.core frame }
            if s.core.closed then s else drainBuffer n s

/-- `onData`. A frame takes at least nine bytes, so the loop ends before the
buffer's length runs out: `onData_eq_feed`. -/
def onData (s : State) (bytes : Bytes) : State :=
  if s.core.closed then s
  else
    let s := { s with receiveBuffer := s.receiveBuffer ++ bytes }
    drainBuffer W s.receiveBuffer.length s

/-- The callbacks the loop runs on a session. -/
inductive Event
  | enqueue (unitId : UInt8) (address count : UInt16)
  /-- libhv reports the channel as connected or closed. -/
  | connection (up : Bool)
  /-- The channel is lost, and the report is still to come. -/
  | channelLost
  | data (bytes : Bytes)
  | connectTimeout
  | responseTimeout
  | close
  /-- The oldest success callback queued on the loop runs. -/
  | deliver
  deriving DecidableEq, Repr

/-- The timer that fires is no longer pending. -/
def Core.fire (s : Core) (callback : Timeout) : Core :=
  if s.armed = some callback then { s with armed := none } else s

def Core.deliver (s : Core) : Core :=
  match s.posted with
  | [] => s
  | (request, registers) :: rest =>
    { s with posted := rest, log := s.log ++ [.delivered request registers] }

def State.map (f : Core → Core) (s : State) : State := { s with core := f s.core }

def step (s : State) : Event → State
  | .enqueue unitId address count => s.map (enqueueInLoop W · unitId address count)
  | .connection up => s.map (onConnection W · up)
  | .channelLost =>
    s.map fun c => { c with client := c.client.map fun _ => { isConnected := false } }
  | .data bytes => onData W s bytes
  | .connectTimeout => s.map fun c => onConnectTimeout W (c.fire .connect)
  | .responseTimeout => s.map fun c => onResponseTimeout W (c.fire .response)
  | .close => s.map (closeInLoop W)
  | .deliver => s.map Core.deliver

end Neubau.Modbus.Session
