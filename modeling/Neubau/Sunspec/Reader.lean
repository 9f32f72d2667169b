import Neubau.Modbus.Session

/-! `LogicalRegisterReader`: a read of any length, made of reads of at most 125
registers, one after the other. A function of the reader returns what it does
next: another read, or a call of one of its two callbacks. -/

namespace Neubau.Sunspec

open Neubau.Common
open Neubau.Modbus.Session (Registers)

/-- The success callbacks the scan gives its readers. -/
inductive ReadSuccess
  | onCommonModel (commonLength : ℕ)
  | onModelHeader
  | onModelPayload (nextHeaderAddress modelLength : ℕ)
  deriving DecidableEq, Repr

/-- `failure` says whether the failure callback is set; `session` is the number
of the session. -/
structure LogicalRegisterReader where
  session : Option ℕ
  unitId : UInt8
  nextAddress : ℕ
  remaining : ℕ
  registers : Registers := []
  success : Option ReadSuccess
  failure : Bool := true
  finished : Bool := false
  deriving DecidableEq, Repr

/-- What a reader does after a callback. -/
inductive ReaderAction
  | nothing
  | read (address count : UInt16)
  | success (callback : ReadSuccess) (registers : Registers)
  | failure
  deriving DecidableEq, Repr

namespace LogicalRegisterReader

def cancel (r : LogicalRegisterReader) : LogicalRegisterReader :=
  if r.finished then r
  else { r with finished := true, session := none, success := none, failure := false }

def fail (r : LogicalRegisterReader) : LogicalRegisterReader × ReaderAction :=
  if r.finished then (r, .nothing)
  else
    let action := if r.failure then .failure else .nothing
    ({ r with finished := true, success := none, failure := false }, action)

def next (r : LogicalRegisterReader) : LogicalRegisterReader × ReaderAction :=
  if r.finished then (r, .nothing)
  else if r.remaining = 0 then
    let action := match r.success with
      | some callback => .success callback r.registers
      | none => .nothing
    ({ r with finished := true, success := none, failure := false }, action)
  else
    let count := min 125 r.remaining
    let endAddress := r.nextAddress + count
    if r.nextAddress ≥ 65536 ∨ endAddress > 65536 then r.fail
    else (r, .read (UInt16.ofNat r.nextAddress) (UInt16.ofNat count))

/-- The registers of one read arrive; `count` is what the read asked for. -/
def onNext (r : LogicalRegisterReader) (count : ℕ) (registers : Registers) :
    LogicalRegisterReader × ReaderAction :=
  if registers.length ≠ count then r.fail
  else
    ({ r with
      registers := r.registers ++ registers
      nextAddress := (r.nextAddress + count) % 2 ^ 32
      remaining := (r.remaining + 2 ^ 32 - count) % 2 ^ 32 }, .nothing)

end LogicalRegisterReader

end Neubau.Sunspec
