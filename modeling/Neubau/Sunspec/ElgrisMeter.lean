import Neubau.Sunspec.SunspecModelParser

/-! What the parser makes of a meter. The meters of one manufacturer store the words of an
energy in the other order and the scale factor with the other sign. So what the two paths make
of a meter differs by an exchange of words and a negation of the scale factor, as long as the
negation of the factor is a 16-bit number. -/

namespace Neubau.Sunspec

open Neubau.Common Neubau.Stream

variable {D : Type} {F : Doubles D} {scale : D → ℤ → Option D}

/-- The meter's model, from the six registers that it depends on. -/
def meterModel (F : Doubles D) (scale : D → ℤ → Option D) (r : Vector UInt16 105)
    (elgris : Bool) : Option (SunspecModel D) :=
  let scaleFactor := signedWord (r.get 20)
  let word := if elgris then leastSignificantWordFirst else mostSignificantWordFirst
  (scaledInteger F scale (signedWord (r.get 16)) (if elgris then -scaleFactor else scaleFactor)).map
    fun activePower => {
      id := 203
      values := [
        (.totalActiveAcPower, .int32 activePower),
        (.totalExportedActiveEnergy, .double (roundedEnergy F (word (r.get 36) (r.get 37)))),
        (.totalImportedActiveEnergy, .double (roundedEnergy F (word (r.get 44) (r.get 45))))] }

theorem parseMeter_eq (r : Vector UInt16 105) (elgris : Bool) :
    parseMeter F scale r.toList elgris = .ok (meterModel F scale r elgris) := by
  simp only [parseMeter, Vector.length_toList, ne_eq, not_true_eq_false, ↓reduceIte,
    Nat.reduceLT, readAt_toList, Fin.reduceFinMk, ok_bind, meterModel]
  cases scaledInteger F scale (signedWord (r.get 16))
      (if elgris then -signedWord (r.get 20) else signedWord (r.get 20)) <;> rfl

/-- The registers with which an Elgris meter says what another meter says with these: two
pairs of words are exchanged, and the scale factor is negated. -/
def asElgris (r : Vector UInt16 105) : Vector UInt16 105 :=
  Vector.ofFn fun i =>
    if i = 20 then -r.get 20 else r.get (Equiv.swap 36 37 (Equiv.swap 44 45 i))

theorem get_asElgris (r : Vector UInt16 105) (i : Fin 105) : (asElgris r).get i =
    if i = 20 then -r.get 20 else r.get (Equiv.swap 36 37 (Equiv.swap 44 45 i)) :=
  Vector.getElem_ofFn i.isLt

theorem get_asElgris_of_swap {r : Vector UInt16 105} {i j : Fin 105} (hi : i ≠ 20)
    (hj : Equiv.swap 36 37 (Equiv.swap 44 45 i) = j) : (asElgris r).get i = r.get j := by
  rw [get_asElgris, if_neg hi, hj]

/-- The two's complement of a 16-bit number negates it, unless it is the least one. -/
theorem signedWord_neg {value : UInt16} (h : value ≠ 0x8000) :
    signedWord (-value) = -signedWord value := by
  have hne : value.toNat ≠ 0x8000 := fun heq => h (UInt16.toNat_inj.1 heq)
  have hlt := value.toNat_lt
  have hneg : (-value).toNat = (0x10000 - value.toNat) % 0x10000 := by
    rw [UInt16.toNat_neg]
  unfold signedWord
  simp only [UInt16.le_iff_toNat_le, hneg]
  rw [show (0x7fff : UInt16).toNat = 0x7fff from rfl]
  split_ifs <;> omega

theorem leastSignificantWordFirst_swap (first second : UInt16) :
    leastSignificantWordFirst second first = mostSignificantWordFirst first second :=
  UInt32.or_comm _ _

theorem meterModel_asElgris {r : Vector UInt16 105} (h : r.get 20 ≠ 0x8000) :
    meterModel F scale (asElgris r) true = meterModel F scale r false := by
  have h16 : (asElgris r).get 16 = r.get 16 := get_asElgris_of_swap (by decide) (by decide)
  have h36 : (asElgris r).get 36 = r.get 37 := get_asElgris_of_swap (by decide) (by decide)
  have h37 : (asElgris r).get 37 = r.get 36 := get_asElgris_of_swap (by decide) (by decide)
  have h44 : (asElgris r).get 44 = r.get 45 := get_asElgris_of_swap (by decide) (by decide)
  have h45 : (asElgris r).get 45 = r.get 44 := get_asElgris_of_swap (by decide) (by decide)
  have h20 : (asElgris r).get 20 = -r.get 20 := get_asElgris r 20
  simp only [meterModel, h16, h20, h36, h37, h44, h45, ↓reduceIte, signedWord_neg h, neg_neg,
    leastSignificantWordFirst_swap, Bool.false_eq_true]

theorem parseModel_meter (r : Vector UInt16 105) (manufacturer : Bytes) :
    parseModel F scale 203 r.toList manufacturer =
      .ok (meterModel F scale r (manufacturer = ascii "elgris")) := by
  rw [parseModel, if_neg (by decide), if_neg (by decide), if_pos rfl, parseMeter_eq]

/-- The registers that the model of a meter depends on. -/
def meterRegisters : List (Fin 105) := [16, 20, 36, 37, 44, 45]

theorem meterModel_congr {r s : Vector UInt16 105} (h : ∀ i ∈ meterRegisters, r.get i = s.get i)
    (elgris : Bool) : meterModel F scale r elgris = meterModel F scale s elgris := by
  simp only [meterRegisters, List.forall_mem_cons] at h
  obtain ⟨h16, h20, h36, h37, h44, h45, -⟩ := h
  simp only [meterModel, h16, h20, h36, h37, h44, h45]

/-- A meter is parsed as the Elgris meter that says the same, and the two depend on no
other registers. -/
theorem elgris_meter_up_to_quirks (F : Doubles D) (scale : D → ℤ → Option D) :
    (∀ (r : Vector UInt16 105) (manufacturer : Bytes), r.get 20 ≠ 0x8000 →
      manufacturer ≠ ascii "elgris" →
      parseModel F scale 203 r.toList manufacturer =
        parseModel F scale 203 (asElgris r).toList (ascii "elgris")) ∧
    ∀ (r s : Vector UInt16 105) (manufacturer : Bytes),
      (∀ i ∈ meterRegisters, r.get i = s.get i) →
      parseModel F scale 203 r.toList manufacturer =
        parseModel F scale 203 s.toList manufacturer := by
  constructor
  · intro r manufacturer h20 hother
    rw [parseModel_meter, parseModel_meter, decide_eq_false hother, decide_eq_true rfl,
      meterModel_asElgris h20]
  · intro r s manufacturer hagree
    rw [parseModel_meter, parseModel_meter, meterModel_congr hagree]

/-- A meter with the scale factor -1, and a register that neither path reads. -/
theorem elgris_meter_up_to_quirks_deci :
    let r (other : UInt16) : Vector UInt16 105 := Vector.ofFn fun i =>
      if i = 16 then 4321 else if i = 20 then 0xffff else if i = 36 then 1
      else if i = 37 then 233 else if i = 45 then 100 else if i = 17 then other else 0
    let parse (r : Vector UInt16 105) := parseModel rationals rationals.scale 203 r.toList
    parse (r 0) (ascii "Acme") = parse (asElgris (r 0)) (ascii "elgris") ∧
      parse (r 0) (ascii "Acme") = parse (r 7) (ascii "Acme") ∧
      parse (r 0) (ascii "Acme") = .ok (some {
        id := 203
        values := [
          (.totalActiveAcPower, .int32 432),
          (.totalExportedActiveEnergy, .double 65800),
          (.totalImportedActiveEnergy, .double 100)] }) := by
  intro r parse
  have h := elgris_meter_up_to_quirks rationals rationals.scale
  refine ⟨h.1 (r 0) (ascii "Acme") (by decide +kernel) (by decide), ?_, by decide +kernel⟩
  exact h.2 (r 0) (r 7) (ascii "Acme") (by decide +kernel)

end Neubau.Sunspec
