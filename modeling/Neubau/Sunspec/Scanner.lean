import Mathlib.Data.Finmap
import Neubau.Sunspec.Reader
import Neubau.Sunspec.SunspecThing
import Neubau.Transition.Machine

/-! One scan of `SunspecScanner`: `ScanState` with its control. The scan probes
the units in order of priority, on a session it replaces when it finds it
closed; the first accepted header starts the walk along the model chain, which
ends in one candidate or none. What the scan asks of the outside during a
callback is answered by an `Answers`; sessions and reads are numbered. -/

namespace Neubau.Sunspec

open Neubau.Common Neubau.Modbus
open Neubau.Modbus.Session (Registers)

/-- `unitIds`, the units in the order in which they are probed. -/
def unitIds : List UInt8 :=
  [1, 240, 126, 127, 100, 2, 247, 241, 128, 129, 3, 4, 5, 242, 243, 244,
    130, 131, 132, 133, 134, 135, 6, 7, 8, 9, 10,
    11, 12, 13, 14, 15, 16, 17, 18, 19, 20, 21, 22, 23, 24, 25, 26, 27,
    28, 29, 30, 31, 32, 33, 34, 35, 36, 37, 38, 39, 40, 41, 42, 43, 44,
    45, 46, 47, 48, 49, 50, 51, 52, 53, 54, 55, 56, 57, 58, 59, 60, 61,
    62, 63, 64, 65, 66, 67, 68, 69, 70, 71, 72, 73, 74, 75, 76, 77, 78,
    79, 80, 81, 82, 83, 84, 85, 86, 87, 88, 89, 90, 91, 92, 93, 94, 95,
    96, 97, 98, 99,
    101, 102, 103, 104, 105, 106, 107, 108, 109, 110, 111, 112, 113, 114,
    115, 116, 117, 118, 119, 120, 121, 122, 123, 124, 125,
    136, 137, 138, 139, 140, 141, 142, 143, 144, 145, 146, 147, 148, 149,
    150, 151, 152, 153, 154, 155, 156, 157, 158, 159, 160, 161, 162, 163,
    164, 165, 166, 167, 168, 169, 170, 171, 172, 173, 174, 175, 176, 177,
    178, 179, 180, 181, 182, 183, 184, 185, 186, 187, 188, 189, 190, 191,
    192, 193, 194, 195, 196, 197, 198, 199, 200, 201, 202, 203, 204, 205,
    206, 207, 208, 209, 210, 211, 212, 213, 214, 215, 216, 217, 218, 219,
    220, 221, 222, 223, 224, 225, 226, 227, 228, 229, 230, 231, 232, 233,
    234, 235, 236, 237, 238, 239, 245, 246]

def isSunspecSignature (registers : Registers) : Bool :=
  registers.length ≥ 2 && registers[0]? == some 0x5375 && registers[1]? == some 0x6e53

def isSunspecHeader (registers : Registers) : Bool :=
  registers.length == 4 && isSunspecSignature registers && registers[2]? == some 1 &&
    (registers[3]? == some 65 || registers[3]? == some 66)

/-- `SunspecDiscoveryOptions` as the scanner accepts them. -/
structure SunspecDiscoveryOptions where
  maxModels : ℕ
  maxRegisterSpan : ℕ
  maxModels_pos : 0 < maxModels
  maxRegisterSpan_ge : 4 ≤ maxRegisterSpan

/-- Two models at most, within 100 registers. -/
def SunspecDiscoveryOptions.narrow : SunspecDiscoveryOptions where
  maxModels := 2
  maxRegisterSpan := 100
  maxModels_pos := by decide
  maxRegisterSpan_ge := by decide

/-- What a scan is made with; `endpoint` is that of a session. -/
structure Config where
  options : SunspecDiscoveryOptions
  fixedUnitId : Option UInt8
  endpoint : ℕ → ModbusEndpoint

/-- Whose callbacks a read calls. -/
inductive ReadCallback
  | probe
  | reader (number : ℕ)
  deriving DecidableEq, Repr

/-- A call of `readHoldingRegisters` on a session. -/
structure ReadCall where
  session : ℕ
  unitId : UInt8
  address : UInt16
  count : UInt16
  callback : ReadCallback
  deriving DecidableEq, Repr

inductive Effect
  | subscriptionFactory
  | replacementFactory
  | read (call : ReadCall)
  /-- The header of a unit was accepted on a session. -/
  | accepted (session : ℕ) (unitId : UInt8) (commonLength : UInt16)
  /-- `_finished` was set. -/
  | finished
  | onNext (thing : SunspecThing)
  | onCompleted
  | onError (error : Exception)
  deriving DecidableEq, Repr

structure SelectedHeader where
  unitId : UInt8
  registers : Registers
  deriving DecidableEq, Repr

/-- `ScanState` and the `SunspecScanControl` bound to it (`cancelled`,
`cancellation`). The observers and `bindCancellation` say whether the function
is still there. `reads` are all the reads asked for, `pending` the numbers of
those not answered yet. -/
structure ScanState where
  session : Option ℕ := none
  bindCancellation : Bool := true
  nextObserver : Bool := true
  completeObserver : Bool := true
  errorObserver : Bool := true
  activeReader : Option ℕ := none
  selectedHeader : Option SelectedHeader := none
  locations : List ModelLocation := []
  instances : Finmap (fun _ : UInt16 => ℕ) := ∅
  manufacturer : Bytes := []
  model : Bytes := []
  optionsValue : Bytes := []
  version : Bytes := []
  serialNumber : Bytes := []
  currentAddress : ℕ := 0
  unitIndex : ℕ := 0
  retryCurrentUnitOnClosed : Bool := false
  finished : Bool := false
  cancelled : Bool := false
  cancellation : Bool := false
  started : Bool := false
  readers : List LogicalRegisterReader := []
  reads : List ReadCall := []
  pending : List ℕ := []
  log : List Effect := []
  deriving DecidableEq

/-- What a session factory does. -/
inductive Made
  | throws (error : Exception)
  | null
  | session (number : ℕ)
  deriving DecidableEq, Repr

/-- The outside during one callback: whether the session of the scan is closed,
what the factories do, and whether the observer cancels from inside `on_next`. -/
structure Answers where
  isClosed : Bool
  subscription : Made
  replacement : Made
  cancels : Bool
  deriving DecidableEq, Repr

variable (c : Config) (a : Answers)

namespace ScanState

def tell (s : ScanState) (e : Effect) : ScanState := { s with log := s.log ++ [e] }

/-- `bindCancellation({})` unbinds the control. -/
def releaseResources (s : ScanState) : ScanState :=
  let s := match s.activeReader with
    | some n => { s with
        readers := s.readers.modify n LogicalRegisterReader.cancel
        activeReader := none }
    | none => s
  if s.bindCancellation then { s with bindCancellation := false, cancellation := false } else s

def complete (s : ScanState) : ScanState :=
  if s.finished then s
  else
    let s := { s with finished := true }.tell .finished
    let s := s.releaseResources
    let completeObserver := s.completeObserver
    let s := { s with completeObserver := false, nextObserver := false, errorObserver := false }
    if completeObserver then s.tell .onCompleted else s

def fail (s : ScanState) (error : Exception) : ScanState :=
  if s.finished then s
  else
    let s := { s with finished := true }.tell .finished
    let s := s.releaseResources
    let errorObserver := s.errorObserver
    let s := { s with completeObserver := false, nextObserver := false, errorObserver := false }
    if errorObserver then s.tell (.onError error) else s

def cancelInLoop (s : ScanState) : ScanState := s.complete

/-- `SunspecScanControl::cancel`. -/
def cancel (s : ScanState) : ScanState :=
  if s.cancelled then s
  else
    let s := { s with cancelled := true }
    if s.cancellation then s.cancelInLoop else s

/-- `SunspecScanControl::bind` with the cancellation of the scan. -/
def bind (s : ScanState) : ScanState :=
  let s := { s with cancellation := true }
  if s.cancelled then s.cancelInLoop else s

def emit (s : ScanState) : ScanState :=
  if s.finished then s
  else
    match s.session, s.selectedHeader with
    | some session, some header =>
      let s := { s with finished := true }.tell .finished
      let thing : SunspecThing := {
        endpoint := c.endpoint session
        unitId := header.unitId
        baseAddress := 40000
        modelLocations := s.locations
        manufacturer := s.manufacturer
        model := s.model
        options := s.optionsValue
        version := s.version
        serialNumber := s.serialNumber }
      let s := { s with
        locations := []
        manufacturer := []
        model := []
        optionsValue := []
        version := []
        serialNumber := [] }
      let s := s.releaseResources
      let nextObserver := s.nextObserver
      let completeObserver := s.completeObserver
      let s := { s with completeObserver := false, nextObserver := false, errorObserver := false }
      let s := if nextObserver then
          let s := s.tell (.onNext thing)
          if a.cancels then s.cancel else s
        else s
      if completeObserver then s.tell .onCompleted else s
    | _, _ => s

/-- `readHoldingRegisters` of a session. -/
def readHoldingRegisters (s : ScanState) (call : ReadCall) : ScanState :=
  { s with
    reads := s.reads ++ [call]
    pending := s.pending ++ [s.reads.length] }.tell (.read call)

def isInRegisterSpan (address count : ℕ) : Bool :=
  let endAddress := address + count
  address ≥ 40000 ∧ address < 65536 ∧ endAddress ≤ 65536 ∧
    endAddress - 40000 ≤ c.options.maxRegisterSpan

/-- `modelAddresses`: the payload's and the next header's address. -/
def modelAddresses (s : ScanState) (modelLength : ℕ) : Option (ℕ × ℕ) :=
  let payload := s.currentAddress + 2
  let next := payload + modelLength
  if payload > 2 ^ 32 - 1 ∨ next > 2 ^ 32 - 1 then none
  else if isInRegisterSpan c s.currentAddress 2 ∧ isInRegisterSpan c payload modelLength then
    some (payload, next)
  else none

/-- What the reader `n` does after a callback; `onSuccess` runs its success callback. -/
def act (onSuccess : ScanState → ReadSuccess → Registers → ScanState) (s : ScanState) (n : ℕ)
    (p : LogicalRegisterReader × ReaderAction) : ScanState :=
  let s := { s with readers := s.readers.set n p.1 }
  match p.2 with
  | .nothing => s
  | .read address count =>
    match p.1.session with
    | some session => s.readHoldingRegisters
        { session, unitId := p.1.unitId, address, count, callback := .reader n }
    | none => s
  | .success callback registers => onSuccess s callback registers
  | .failure => s.complete

/-- `read`. A new reader of a positive count has no success yet, and the scan
asks for no other: `next_ne_success`. -/
def read (s : ScanState) (address count : ℕ) (success : ReadSuccess) : ScanState :=
  match s.session, s.selectedHeader with
  | some session, some header =>
    let n := s.readers.length
    let reader : LogicalRegisterReader := {
      session := some session
      unitId := header.unitId
      nextAddress := address
      remaining := count
      success := some success }
    let s := { s with readers := s.readers ++ [reader], activeReader := some n }
    s.act (fun s _ _ => s) n reader.next
  | _, _ => s

def readCommonModel (s : ScanState) : ScanState :=
  match s.selectedHeader.bind (·.registers[3]?) with
  | none => s
  | some commonLength =>
    let commonLength := commonLength.toNat
    let commonPayloadAddress := 40004
    if !isInRegisterSpan c commonPayloadAddress commonLength then s.complete
    else s.read commonPayloadAddress commonLength (.onCommonModel commonLength)

def readModelHeader (s : ScanState) : ScanState :=
  if s.finished ∨ isInRegisterSpan c s.currentAddress 2 = false then s.complete
  else s.read s.currentAddress 2 .onModelHeader

def onCommonModel (s : ScanState) (registers : Registers) (commonLength : ℕ) : ScanState :=
  if s.finished ∨ registers.length ≠ commonLength ∨ s.locations.length ≥ c.options.maxModels then
    s.complete
  else
    let subspan (offset count : ℕ) := (registers.drop offset).take count
    let location : ModelLocation :=
      { id := 1, instance_ := 0, address := 40004, length := UInt16.ofNat commonLength }
    let s := { s with
      manufacturer := decodeSunSpecString (subspan 0 16)
      model := decodeSunSpecString (subspan 16 16)
      optionsValue := decodeSunSpecString (subspan 32 8)
      version := decodeSunSpecString (subspan 40 8)
      serialNumber := decodeSunSpecString (subspan 48 16)
      locations := s.locations ++ [location]
      instances := if 1 ∈ s.instances then s.instances else s.instances.insert 1 1
      currentAddress := (40004 + commonLength) % 2 ^ 32 }
    s.readModelHeader c

def onModelHeader (s : ScanState) (header : Registers) : ScanState :=
  if s.finished then s.complete
  else
    match header with
    | [modelId, modelLength] =>
      if modelId = 0xffff then
        if modelLength = 0 then s.emit c a else s.complete
      else if s.locations.length ≥ c.options.maxModels then s.complete
      else
        match s.modelAddresses c modelLength.toNat with
        | none => s.complete
        | some (payloadAddress, nextHeaderAddress) =>
          let instance_ := (s.instances.lookup modelId).getD 0
          if instance_ > 65535 then s.complete
          else
            let location : ModelLocation := {
              id := modelId
              instance_ := UInt16.ofNat instance_
              address := UInt16.ofNat payloadAddress
              length := modelLength }
            let s := { s with
              instances := s.instances.insert modelId ((instance_ + 1) % 2 ^ 32)
              locations := s.locations ++ [location] }
            if modelLength = 0 then
              readModelHeader c { s with currentAddress := nextHeaderAddress }
            else
              s.read payloadAddress modelLength.toNat
                (.onModelPayload nextHeaderAddress modelLength.toNat)
    | _ => s.complete

def onModelPayload (s : ScanState) (registers : Registers) (nextHeaderAddress modelLength : ℕ) :
    ScanState :=
  if registers.length ≠ modelLength then s.complete
  else readModelHeader c { s with currentAddress := nextHeaderAddress }

/-- The success callback of a reader. -/
def succeed (s : ScanState) (callback : ReadSuccess) (registers : Registers) : ScanState :=
  match callback with
  | .onCommonModel commonLength => s.onCommonModel c registers commonLength
  | .onModelHeader => s.onModelHeader c a registers
  | .onModelPayload nextHeaderAddress modelLength =>
    s.onModelPayload c registers nextHeaderAddress modelLength

/-- The factory call of `replaceClosedSession`; `false` says that the scan failed. -/
def replaceClosedSession (s : ScanState) : ScanState × Bool :=
  let s := s.tell .replacementFactory
  match a.replacement with
  | .session n => ({ s with session := some n }, true)
  | .throws error => (s.fail error, false)
  | .null =>
    (s.fail (.logicError "SunSpec session replacement factory returned null"), false)

def acquireSession (s : ScanState) : ScanState × Bool :=
  let s := s.tell .subscriptionFactory
  match a.subscription with
  | .session n => ({ s with session := some n }, true)
  | .throws error => (s.fail error, false)
  | .null =>
    (s.fail (.logicError "SunSpec session acquisition factory returned null"), false)

def probeNextUnit (s : ScanState) : ScanState :=
  if s.finished then s
  else if c.fixedUnitId = none ∧ s.unitIndex = unitIds.length then s.complete
  else
    match s.session, c.fixedUnitId <|> unitIds[s.unitIndex]? with
    | some session, some unitId => s.readHoldingRegisters
        { session, unitId, address := 40000, count := 4, callback := .probe }
    | _, _ => s

def advanceUnit (s : ScanState) (retryCurrentUnitOnClosed : Bool) : ScanState :=
  { s with unitIndex := s.unitIndex + 1, retryCurrentUnitOnClosed }.probeNextUnit c

def onProbeResponse (s : ScanState) (unitId : UInt8) (registers : Registers) : ScanState :=
  if s.finished then s
  else if !isSunspecHeader registers then
    if c.fixedUnitId.isSome then s.complete
    else if a.isClosed then
      match s.replaceClosedSession a with
      | (s, false) => s
      | (s, true) => s.advanceUnit c false
    else s.advanceUnit c true
  else
    match s.session, registers[3]? with
    | some session, some commonLength =>
      let s := { s with selectedHeader := some { unitId, registers } }
      (s.tell (.accepted session unitId commonLength)).readCommonModel c
    | _, _ => s

def onProbeFailure (s : ScanState) : ScanState :=
  if s.finished then s
  else if c.fixedUnitId.isSome then s.complete
  else if a.isClosed then
    match s.replaceClosedSession a with
    | (s, false) => s
    | (s, true) =>
      if s.retryCurrentUnitOnClosed then
        { s with retryCurrentUnitOnClosed := false }.probeNextUnit c
      else s.advanceUnit c false
  else s.advanceUnit c false

def startInLoop (s : ScanState) : ScanState :=
  let s := s.bind
  if s.finished then s
  else
    match s.acquireSession a with
    | (s, false) => s
    | (s, true) =>
      if a.isClosed then
        match s.replaceClosedSession a with
        | (s, false) => s
        | (s, true) => s.probeNextUnit c
      else s.probeNextUnit c

/-- A reader gets the registers of its read: `on_next`, then `on_completed`. -/
def onChunk (s : ScanState) (n count : ℕ) (registers : Registers) : ScanState :=
  match s.readers[n]? with
  | none => s
  | some reader =>
    let s := s.act (succeed c a) n (reader.onNext count registers)
    match s.readers[n]? with
    | none => s
    | some reader => s.act (succeed c a) n reader.next

/-- The read `n` succeeds. -/
def onReply (s : ScanState) (n : ℕ) (registers : Registers) : ScanState :=
  if n ∈ s.pending then
    match s.reads[n]? with
    | none => s
    | some call =>
      let s := { s with pending := s.pending.erase n }
      match call.callback with
      | .probe => s.onProbeResponse c a call.unitId registers
      | .reader m => s.onChunk c a m call.count.toNat registers
  else s

/-- The read `n` fails. -/
def onReadFailure (s : ScanState) (n : ℕ) : ScanState :=
  if n ∈ s.pending then
    match s.reads[n]? with
    | none => s
    | some call =>
      let s := { s with pending := s.pending.erase n }
      match call.callback with
      | .probe => s.onProbeFailure c a
      | .reader m =>
        match s.readers[m]? with
        | none => s
        | some reader => s.act (succeed c a) m reader.fail
  else s

end ScanState

/-- What happens to a scan. -/
inductive Event
  /-- The callback that `start` queued. -/
  | startInLoop (a : Answers)
  | reply (n : ℕ) (registers : Registers) (a : Answers)
  | failure (n : ℕ) (a : Answers)
  | cancel
  deriving DecidableEq, Repr

def step (s : ScanState) : Event → ScanState
  | .startInLoop a => if s.started then s else { s with started := true }.startInLoop c a
  | .reply n registers a => s.onReply c a n registers
  | .failure n a => s.onReadFailure c a n
  | .cancel => s.cancel

/-- A scan under any order of replies, failures, closures and cancellations. -/
def machine : Transition.Machine ScanState Event where
  init s := s = {}
  enabled _ _ := True
  next := step c

end Neubau.Sunspec
