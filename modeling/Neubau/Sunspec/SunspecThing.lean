import Neubau.Modbus.ModbusThing

/-! The candidate a SunSpec scan produces, and its identity. -/

namespace Neubau.Sunspec

open Neubau.Common Neubau.Modbus

/-- The loop of `decodeSunSpecString`: the bytes up to the first NUL. -/
def decodeSunSpecString : List UInt16 → Bytes
  | [] => []
  | value :: registers =>
    let high := (value >>> 8).toUInt8
    if high = 0 then []
    else
      let low := (value &&& 0xff).toUInt8
      if low = 0 then [high] else high :: low :: decodeSunSpecString registers

def normalizeSunSpecIdPart (value : Bytes) : Bytes :=
  value.map fun character =>
    if 65 ≤ character ∧ character ≤ 90 then character - 65 + 97
    else if (97 ≤ character ∧ character ≤ 122) ∨ (48 ≤ character ∧ character ≤ 57) then character
    else 95

def sunSpecId (manufacturer product serial : Bytes) : Bytes :=
  normalizeSunSpecIdPart manufacturer ++ ascii "_" ++ normalizeSunSpecIdPart product ++
    ascii "_" ++ normalizeSunSpecIdPart serial

/-- `address` is the first register of the payload, after the header. -/
structure ModelLocation where
  id : UInt16
  instance_ : UInt16
  address : UInt16
  length : UInt16
  deriving DecidableEq, Repr

structure SunspecThing where
  endpoint : ModbusEndpoint
  unitId : UInt8
  baseAddress : UInt16
  modelLocations : List ModelLocation
  manufacturer : Bytes
  model : Bytes
  options : Bytes
  version : Bytes
  serialNumber : Bytes
  deriving DecidableEq, Repr

def SunspecThing.id (thing : SunspecThing) : Bytes :=
  sunSpecId thing.manufacturer thing.model thing.serialNumber

theorem SunspecThing.id_ne (thing : SunspecThing) : thing.id ≠ [] := by
  simp [SunspecThing.id, sunSpecId, ascii]

end Neubau.Sunspec
