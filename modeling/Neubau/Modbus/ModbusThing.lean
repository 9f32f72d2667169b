import Mathlib.Data.Finmap
import Neubau.Common.Basic

/-! Where a Modbus device answers, and the candidate its identification produces. -/

namespace Neubau.Modbus

open Neubau.Common

structure ModbusEndpoint where
  address : Bytes
  port : UInt16
  deriving DecidableEq, Repr

/-- The check of `ModbusSession::ModbusSession` on the endpoint it is given. -/
def ModbusEndpoint.check (endpoint : ModbusEndpoint) : Except Exception Unit :=
  if endpoint.address = [] ∨ endpoint.port = 0 then
    .error (.invalidArgument "Modbus endpoint must have address and port")
  else .ok ()

/-- `std::map<std::uint8_t, std::string>`. -/
abbrev Objects := Finmap fun _ : UInt8 => Bytes

def modbusThingId (address : Bytes) (port : UInt16) (unitId : UInt8) : Bytes :=
  ascii "modbus://" ++ address ++ ascii ":" ++ decimal port.toNat ++ ascii "/" ++
    decimal unitId.toNat

/-- A unit that answered; its id as a `Thing` is `ModbusThing.id`. -/
structure ModbusThing where
  address : Bytes
  port : UInt16
  unitId : UInt8
  hasDeviceIdentification : Bool := false
  exceptionCode : Option UInt8 := none
  vendorName : Bytes := []
  productCode : Bytes := []
  revision : Bytes := []
  objects : Objects := ∅
  deriving DecidableEq

def ModbusThing.id (thing : ModbusThing) : Bytes :=
  modbusThingId thing.address thing.port thing.unitId

theorem ModbusThing.id_ne (thing : ModbusThing) : thing.id ≠ [] := by
  simp [ModbusThing.id, modbusThingId, ascii]

/-- The id from its right end: a unit without a slash, a port without a colon. -/
theorem modbusThingId_eq (address : Bytes) (port : UInt16) (unitId : UInt8) :
    modbusThingId address port unitId =
      ((ascii "modbus://" ++ address) ++ 58 :: decimal port.toNat) ++
        47 :: decimal unitId.toNat := by
  rw [modbusThingId, show ascii ":" = [58] by decide, show ascii "/" = [47] by decide,
    List.append_assoc, List.append_assoc _ _ (decimal port.toNat)]
  rfl

/-- The id of a unit tells its address, whatever characters it has, its port and its number. -/
theorem modbusThingId_injective {address₁ address₂ : Bytes} {port₁ port₂ : UInt16}
    {unitId₁ unitId₂ : UInt8}
    (h : modbusThingId address₁ port₁ unitId₁ = modbusThingId address₂ port₂ unitId₂) :
    address₁ = address₂ ∧ port₁ = port₂ ∧ unitId₁ = unitId₂ := by
  rw [modbusThingId_eq, modbusThingId_eq] at h
  have hslash (n : ℕ) : 47 ∉ decimal n := not_mem_decimal (by decide) n
  have hcolon (n : ℕ) : 58 ∉ decimal n := not_mem_decimal (by decide) n
  obtain ⟨hfront, hunit⟩ := append_cons_inj_right (hslash _) (hslash _) h
  obtain ⟨haddress, hport⟩ := append_cons_inj_right (hcolon _) (hcolon _) hfront
  exact ⟨List.append_cancel_left haddress, UInt16.toNat_inj.1 (decimal_injective hport),
    UInt8.toNat_inj.1 (decimal_injective hunit)⟩

/-- An address with both separators. -/
theorem modbusThingId_injective_separators :
    modbusThingId (ascii "fe80::1/64:502") 502 7 = ascii "modbus://fe80::1/64:502:502/7" ∧
      ascii "fe80::1/64:502" = [102, 101, 56, 48, 58, 58, 49, 47, 54, 52, 58, 53, 48, 50] ∧
      (502 : UInt16) = 0x1f6 ∧ (7 : UInt8) = 0x07 :=
  ⟨by decide +kernel, modbusThingId_injective (by decide +kernel)⟩

end Neubau.Modbus
