import Neubau.Modbus.Session
import Neubau.Modbus.ModbusThing

/-! The identification of one unit. An `Identifier` runs one exchange after the
other: up to eight pages of Device Identification, then perhaps one fallback
read. Each exchange ends in one call of `onMei` or `onFallback`, with a response
or without; what the call does next is a `Next`. The exchange is the TCP
connection of one request, of which only start and end matter here. -/

namespace Neubau.Modbus

open Neubau.Common
open Neubau.Modbus.Session (readU16 writeU16)

def encapsulatedInterfaceTransport : UInt8 := 0x2b
def readDeviceIdentification : UInt8 := 0x0e
def basicDeviceIdentification : UInt8 := 0x01
def readHoldingRegistersFunction : UInt8 := 0x03

def deviceIdRequest (transactionId : UInt16) (unitId objectId : UInt8) : Bytes :=
  writeU16 transactionId ++ writeU16 0 ++ writeU16 5 ++
    [unitId, encapsulatedInterfaceTransport, readDeviceIdentification,
      basicDeviceIdentification, objectId]

def holdingRegisterRequest (transactionId : UInt16) (unitId : UInt8)
    (startAddress registerCount : UInt16) : Bytes :=
  writeU16 transactionId ++ writeU16 0 ++ writeU16 6 ++
    [unitId, readHoldingRegistersFunction] ++ writeU16 startAddress ++ writeU16 registerCount

/-- The callback an exchange ends in. -/
inductive ExchangeResult
  | onMei
  | onFallback
  deriving DecidableEq, Repr

/-- A `TcpExchange` that has not finished; `started` says whether `startInLoop` ran. -/
structure TcpExchange where
  result : ExchangeResult
  request : Bytes
  started : Bool := false
  deriving DecidableEq, Repr

/-- `Identifier`; `hasResult` says whether `_result` is set. -/
structure Identifier where
  address : Bytes
  port : UInt16
  unitId : UInt8
  thing : ModbusThing
  hasResult : Bool := true
  exchange : Option TcpExchange := none
  transactionId : UInt16 := 1
  objectId : UInt8 := 0
  page : ℕ := 0
  finished : Bool := false
  deriving DecidableEq

/-- What an identifier does after a callback: it started another exchange,
called its result, or did nothing. -/
inductive Next
  | exchange
  | result (thing : Option ModbusThing)
  | nothing
  deriving DecidableEq

namespace Identifier

def create (address : Bytes) (port : UInt16) (unitId : UInt8) : Identifier :=
  { address, port, unitId, thing := { address, port, unitId } }

def requestMei (i : Identifier) : Identifier × Next :=
  let request := deviceIdRequest i.transactionId i.unitId i.objectId
  ({ i with exchange := some { result := .onMei, request } }, .exchange)

def start (i : Identifier) : Identifier × Next := i.requestMei

/-- `cancel`; the end of the exchange is queued on the loop. -/
def cancel (i : Identifier) : Identifier := { i with finished := true, hasResult := false }

def requestFallback (i : Identifier) : Identifier × Next :=
  let request := holdingRegisterRequest 1 i.unitId 0 1
  ({ i with exchange := some { result := .onFallback, request } }, .exchange)

def complete (i : Identifier) (thing : Option ModbusThing) : Identifier × Next :=
  if i.finished then (i, .nothing)
  else
    let next := if i.hasResult then .result thing else .nothing
    ({ i with finished := true, hasResult := false }, next)

def validEnvelope (response : Bytes) (transactionId : UInt16) (unitId : UInt8) : Bool :=
  response.length ≥ 8 && readU16 response 0 == some transactionId &&
    readU16 response 2 == some 0 && response[6]? == some unitId

/-- The loop over the objects of a page: `count` are left, the next begins at
`offset`. `false` says that the page is truncated. -/
def readObjects (pdu : Bytes) : ℕ → ℕ → Objects → Option (Objects × Bool)
  | 0, _, objects => some (objects, true)
  | count + 1, offset, objects =>
    if offset + 2 > pdu.length then some (objects, false)
    else do
      let currentObjectId ← pdu[offset]?
      let objectLength := (← pdu[offset + 1]?).toNat
      let offset := offset + 2
      if offset + objectLength > pdu.length then return (objects, false)
      let value := (pdu.drop offset).take objectLength
      readObjects pdu count (offset + objectLength) (objects.insert currentObjectId value)

/-- What `onMei` does with a page, after the envelope was found valid; `none`
would be an access outside the response. -/
def onMeiPdu (i : Identifier) (pdu : Bytes) : Option (Identifier × Next) := do
  let function ← pdu[0]?
  if function = encapsulatedInterfaceTransport ||| 0x80 then
    let i := { i with thing := { i.thing with exceptionCode := pdu[1]? } }
    return i.complete (some i.thing)
  if pdu.length < 7 then return i.requestFallback
  if function ≠ encapsulatedInterfaceTransport then return i.requestFallback
  if (← pdu[1]?) ≠ readDeviceIdentification then return i.requestFallback
  let moreFollows := (← pdu[4]?) ≠ 0
  let nextObjectId ← pdu[5]?
  let objectCount := (← pdu[6]?).toNat
  let (objects, whole) ← readObjects pdu objectCount 7 i.thing.objects
  let i := { i with thing := { i.thing with hasDeviceIdentification := true, objects } }
  if !whole then return i.requestFallback
  if moreFollows ∧ nextObjectId ≠ i.objectId ∧ i.page < 7 then
    let i := { i with
      objectId := nextObjectId
      transactionId := i.transactionId + 1
      page := i.page + 1 }
    return i.requestMei
  let thing := { i.thing with
    vendorName := (objects.lookup 0).getD i.thing.vendorName
    productCode := (objects.lookup 1).getD i.thing.productCode
    revision := (objects.lookup 2).getD i.thing.revision }
  return { i with thing }.complete (some thing)

def onMei (i : Identifier) (response : Option Bytes) : Identifier × Next :=
  let i := { i with exchange := none }
  if i.finished then (i, .nothing)
  else
    match response with
    | none => i.requestFallback
    | some response =>
      if !validEnvelope response i.transactionId i.unitId then i.requestFallback
      else (i.onMeiPdu (response.drop 7)).getD (i, .nothing)

/-- What `onFallback` does with a response of valid envelope. -/
def onFallbackPdu (i : Identifier) (pdu : Bytes) : Option (Identifier × Next) := do
  let function ← pdu[0]?
  if function = readHoldingRegistersFunction then return i.complete (some i.thing)
  if function = readHoldingRegistersFunction ||| 0x80 ∧ pdu.length ≥ 2 then
    let i := { i with thing := { i.thing with exceptionCode := some (← pdu[1]?) } }
    return i.complete (some i.thing)
  return i.complete none

def onFallback (i : Identifier) (response : Option Bytes) : Identifier × Next :=
  let i := { i with exchange := none }
  if i.finished then (i, .nothing)
  else
    match response with
    | none => i.complete none
    | some response =>
      if !validEnvelope response 1 i.unitId then i.complete none
      else (i.onFallbackPdu (response.drop 7)).getD (i, .nothing)

/-- The callback of the exchange, if there is one. -/
def exchangeFinished (i : Identifier) (response : Option Bytes) : Identifier × Next :=
  match i.exchange with
  | none => (i, .nothing)
  | some exchange =>
    match exchange.result with
    | .onMei => i.onMei response
    | .onFallback => i.onFallback response

end Identifier

end Neubau.Modbus
