import Neubau.Common.Basic
import Neubau.Stream.Blocks

/-! The parser of SunSpec models: it turns the registers of a model into live values. The
arithmetic of `double` is a parameter; so is, once more, the scaling of a number by a power
of ten, which the source's `scale` computes from it. A read outside the registers is
a fault. -/

namespace Neubau.Sunspec

open Neubau.Common Neubau.Stream

inductive DataPoint
  | min
  | max
  | manufacturer
  | product
  | options
  | version
  | serial
  | totalActiveAcPower
  | totalExportedActiveEnergy
  | totalImportedActiveEnergy
  | operatingStatus
  | events
  | dc
  | id
  | current
  | voltage
  | power
  deriving DecidableEq, Repr

/-- `std::map<DataPoint, D>`, in the order of its keys. -/
abbrev SunSpecBlock (D : Type) := List (DataPoint × D)

/-- A status is any value of its 16 bits; the events are a set of 16 bits. -/
inductive LiveValue (D : Type)
  | uint32 (value : UInt32)
  | operatingStatus (status : UInt16)
  | events (bits : UInt16)
  | int32 (value : ℤ)
  | double (value : D)
  | blocks (blocks : List (SunSpecBlock D))
  | string (text : Bytes)
  deriving DecidableEq, Repr

/-- `values` in the order of the keys. -/
structure SunspecModel (D : Type) where
  id : UInt16
  values : List (DataPoint × LiveValue D)
  deriving DecidableEq, Repr

/-- What the parser uses of `double`. The cast to `std::int32_t` is used in its range. -/
structure Doubles (D : Type) where
  ofInteger : ℤ → D
  toInt32 : D → ℤ
  lt : D → D → Bool
  mul : D → D → D
  div : D → D → D
  pow : D → ℤ → D
  round : D → D
  isFinite : D → Bool

/-- Exact numbers in place of `double`. -/
def rationals : Doubles ℚ where
  ofInteger n := n
  toInt32 x := if x < 0 then ⌈x⌉ else ⌊x⌋
  lt x y := x < y
  mul x y := x * y
  div x y := x / y
  pow x n := x ^ n
  round x := if x < 0 then -⌊-x + 1 / 2⌋ else ⌊x + 1 / 2⌋
  isFinite x := |x| < 2 ^ 1024

def unavailable : UInt16 := 0xffff

def signedWord (value : UInt16) : ℤ :=
  if value ≤ 0x7fff then value.toNat else value.toNat - 0x10000

def mostSignificantWordFirst (first second : UInt16) : UInt32 :=
  first.toUInt32 <<< 16 ||| second.toUInt32

def leastSignificantWordFirst (first second : UInt16) : UInt32 :=
  first.toUInt32 ||| second.toUInt32 <<< 16

def availableValue (value : UInt16) : UInt16 := if value = unavailable then 0 else value

section

variable {D : Type} (F : Doubles D)

/-- `scale` of the source. The parser takes any `scale` in its place. -/
def Doubles.scale (value : D) (scaleFactor : ℤ) : Option D :=
  let scaled := F.mul value (F.pow (F.ofInteger 10) scaleFactor)
  if !F.isFinite scaled then none else some scaled

/-- `std::numeric_limits<std::int32_t>`: the number is less than the one or more than the other. -/
def Doubles.outOfRange (value : D) : Bool :=
  F.lt value (F.ofInteger (-2147483648)) || F.lt (F.ofInteger 2147483647) value

variable (scale : D → ℤ → Option D)

def scaledInteger (value scaleFactor : ℤ) : Option ℤ :=
  match scale (F.ofInteger value) scaleFactor with
  | none => none
  | some scaled => if F.outOfRange scaled then none else some (F.toInt32 scaled)

/-- `std::round(value / 100.0)`. -/
def Doubles.hundreds (value : D) : D := F.round (F.div value (F.ofInteger 100))

def roundedScaledEnergy (value : UInt32) (scaleFactor : ℤ) : Option ℤ :=
  match scale (F.ofInteger value.toNat) scaleFactor with
  | none => none
  | some scaled =>
    let rounded := F.mul (F.hundreds scaled) (F.ofInteger 100)
    if F.outOfRange rounded then none else some (F.toInt32 rounded)

def roundedEnergy (value : UInt32) : D :=
  F.mul (F.ofInteger (F.toInt32 (F.hundreds (F.ofInteger value.toNat)))) (F.ofInteger 100)

def parseInverter (id : UInt16) (registers : List UInt16) :
    Except ℕ (Option (SunspecModel D)) := do
  if registers.length ≠ 50 then
    return none
  let activePower := scaledInteger F scale (max 0 (signedWord (← readAt registers 12)))
    (signedWord (← readAt registers 13))
  let exportedEnergy := roundedScaledEnergy F scale
    (mostSignificantWordFirst (← readAt registers 22) (← readAt registers 23))
    (signedWord (← readAt registers 24))
  match activePower, exportedEnergy with
  | some activePower, some exportedEnergy =>
    return some {
      id
      values := [
        (.totalActiveAcPower, .int32 activePower),
        (.totalExportedActiveEnergy, .int32 exportedEnergy),
        (.operatingStatus, .operatingStatus (← readAt registers 36)),
        (.events, .events (← readAt registers 38))] }
  | _, _ => return none

/-- One pass of the loop of `parseMppt`. -/
def parseMpptBlock (registers : List UInt16) (currentScale voltageScale powerScale : ℤ)
    (index : ℕ) : Except ℕ (Option (SunSpecBlock D)) := do
  let offset := 8 + index * 20
  let scaled (value : UInt16) := scale (F.ofInteger (availableValue value).toNat)
  let current := scaled (← readAt registers (offset + 9)) currentScale
  let voltage := scaled (← readAt registers (offset + 10)) voltageScale
  let power := scaled (← readAt registers (offset + 11)) powerScale
  match current, voltage, power with
  | some current, some voltage, some power =>
    return some [(.current, current), (.voltage, voltage), (.power, power)]
  | _, _, _ => return none

def parseMppt (registers : List UInt16) : Except ℕ (Option (SunspecModel D)) := do
  if registers.length < 8 ∨ (registers.length - 8) % 20 ≠ 0 then
    return none
  let currentScale := signedWord (← readAt registers 0)
  let voltageScale := signedWord (← readAt registers 1)
  let powerScale := signedWord (← readAt registers 2)
  let count := (registers.length - 8) / 20
  match ← collect (parseMpptBlock F scale registers currentScale voltageScale powerScale)
      count 0 [] with
  | none => return none
  | some dc => return some { id := 160, values := [(.dc, .blocks dc)] }

def parseMeter (registers : List UInt16) (elgris : Bool) :
    Except ℕ (Option (SunspecModel D)) := do
  if registers.length ≠ 105 then
    return none
  let scaleFactor := signedWord (← readAt registers 20)
  match scaledInteger F scale (signedWord (← readAt registers 16))
      (if elgris then -scaleFactor else scaleFactor) with
  | none => return none
  | some activePower =>
    let word := if elgris then leastSignificantWordFirst else mostSignificantWordFirst
    let exportedEnergy := word (← readAt registers 36) (← readAt registers 37)
    let importedEnergy := word (← readAt registers 44) (← readAt registers 45)
    return some {
      id := 203
      values := [
        (.totalActiveAcPower, .int32 activePower),
        (.totalExportedActiveEnergy, .double (roundedEnergy F exportedEnergy)),
        (.totalImportedActiveEnergy, .double (roundedEnergy F importedEnergy))] }

def parseModel (id : UInt16) (registers : List UInt16) (manufacturer : Bytes) :
    Except ℕ (Option (SunspecModel D)) :=
  if id = 101 ∨ id = 103 then parseInverter F scale id registers
  else if id = 160 then parseMppt F scale registers
  else if id = 203 then parseMeter F scale registers (manufacturer = ascii "elgris")
  else .ok none

end

end Neubau.Sunspec
