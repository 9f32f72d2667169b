import Mathlib.Data.List.TakeWhile
import Neubau.Sunspec.SunspecThing

/-! The strings in SunSpec registers. A register holds two bytes, the high one
first; a string that is shorter than its field is followed by zeros. Decoding
takes the bytes up to the first zero, wherever in a register it is, and so undoes
the packing of every string without one. -/

namespace Neubau.Sunspec

open Neubau.Common

/-- The bytes of registers, in the order of the wire. -/
def registerBytes (registers : List UInt16) : Bytes :=
  registers.flatMap fun value : UInt16 => [(value >>> 8).toUInt8, (value &&& 0xff).toUInt8]

/-- Two bytes in a register. -/
def join (high low : UInt8) : UInt16 := high.toUInt16 <<< 8 ||| low.toUInt16

/-- A string in `n` registers, with zeros behind it. -/
def packString : ℕ → Bytes → List UInt16
  | 0, _ => []
  | n + 1, text => join (text.getD 0 0) (text.getD 1 0) :: packString n (text.drop 2)

theorem toNat_join (high low : UInt8) : (join high low).toNat = high.toNat * 256 + low.toNat := by
  have hhigh := high.toNat_lt
  have hlow := low.toNat_lt
  have hshift : (high.toUInt16 <<< 8).toNat = high.toNat <<< 8 := by
    simp only [UInt16.toNat_shiftLeft, UInt8.toNat_toUInt16, UInt16.reduceToNat,
      Nat.shiftLeft_eq, Nat.reduceMod, Nat.reducePow]
    omega
  rw [join, UInt16.toNat_or, hshift, UInt8.toNat_toUInt16,
    ← Nat.shiftLeft_add_eq_or_of_lt (by simpa using hlow), Nat.shiftLeft_eq]

theorem join_high (high low : UInt8) : (join high low >>> 8).toUInt8 = high := by
  have hhigh := high.toNat_lt
  have hlow := low.toNat_lt
  apply UInt8.toNat_inj.1
  rw [UInt16.toNat_toUInt8, UInt16.toNat_shiftRight, toNat_join]
  simp only [UInt16.reduceToNat, Nat.reduceMod, Nat.shiftRight_eq_div_pow]
  omega

theorem join_low (high low : UInt8) : (join high low &&& 0xff).toUInt8 = low := by
  have hlow := low.toNat_lt
  apply UInt8.toNat_inj.1
  rw [UInt16.toNat_toUInt8, UInt16.toNat_and, toNat_join,
    show (255 : UInt16).toNat = 2 ^ 8 - 1 from rfl, Nat.and_two_pow_sub_one_eq_mod]
  omega

theorem registerBytes_cons (value : UInt16) (registers : List UInt16) :
    registerBytes (value :: registers) =
      (value >>> 8).toUInt8 :: (value &&& 0xff).toUInt8 :: registerBytes registers := rfl

@[simp] theorem length_registerBytes (registers : List UInt16) :
    (registerBytes registers).length = 2 * registers.length := by
  induction registers with
  | nil => rfl
  | cons value registers ih =>
    rw [registerBytes_cons, List.length_cons, List.length_cons, ih, List.length_cons]
    omega

/-- The registers hold the string and the zeros behind it. -/
theorem registerBytes_packString {n : ℕ} {text : Bytes} (h : text.length ≤ 2 * n) :
    registerBytes (packString n text) = text ++ List.replicate (2 * n - text.length) 0 := by
  induction n generalizing text with
  | zero =>
    obtain rfl := List.eq_nil_of_length_eq_zero (by omega : text.length = 0)
    rfl
  | succ n ih =>
    rw [packString, registerBytes_cons, join_high, join_low, ih (by rw [List.length_drop]; omega)]
    -- the last register is full, half full or empty
    match text with
    | [] => simp [List.replicate_succ, show 2 * (n + 1) = 2 * n + 1 + 1 by ring]
    | [high] => simp [List.replicate_succ, show 2 * (n + 1) - 1 = 2 * n + 1 by omega]
    | high :: low :: rest =>
      simp [show 2 * (n + 1) - (rest.length + 1 + 1) = 2 * n - rest.length by omega]

/-- The loop stops at the first zero byte. -/
theorem decodeSunSpecString_eq (registers : List UInt16) :
    decodeSunSpecString registers = (registerBytes registers).takeWhile (· ≠ 0) := by
  induction registers with
  | nil => rfl
  | cons value registers ih =>
    rw [registerBytes_cons, decodeSunSpecString]
    dsimp only
    split_ifs with hhigh hlow
    · rw [List.takeWhile_cons_of_neg (by simpa using hhigh)]
    · rw [List.takeWhile_cons_of_pos (by simpa using hhigh),
        List.takeWhile_cons_of_neg (by simpa using hlow)]
    · rw [List.takeWhile_cons_of_pos (by simpa using hhigh),
        List.takeWhile_cons_of_pos (by simpa using hlow), ih]

/-- A run of nonzero bytes ends at a zero byte at the latest. -/
theorem takeWhile_take {bytes : Bytes} {n : ℕ} (h : bytes[n]? = some 0) :
    bytes.takeWhile (· ≠ 0) = (bytes.take (n + 1)).takeWhile (· ≠ 0) := by
  induction bytes generalizing n with
  | nil => simp at h
  | cons b bytes ih =>
    cases n with
    | zero =>
      obtain rfl : b = 0 := by simpa using h
      simp
    | succ n =>
      rw [List.getElem?_cons_succ] at h
      rw [List.take_succ_cons, List.takeWhile_cons, List.takeWhile_cons, ih h]

/-- A string without zeros that fits its field is decoded as it was packed. Of any
registers, the longest run of bytes without a zero is decoded, and what follows its
zero does not matter. -/
theorem sunspec_strings_round_trip (registers : List UInt16) :
    (∀ n text, 0 ∉ text → text.length ≤ 2 * n →
      decodeSunSpecString (packString n text) = text) ∧
    decodeSunSpecString registers <+: registerBytes registers ∧
    0 ∉ decodeSunSpecString registers ∧
    (∀ text, text <+: registerBytes registers → 0 ∉ text →
      text <+: decodeSunSpecString registers) ∧
    (decodeSunSpecString registers).length ≤ 2 * registers.length ∧
    ∀ n registers', (registerBytes registers)[n]? = some 0 →
      (registerBytes registers').take (n + 1) = (registerBytes registers).take (n + 1) →
      decodeSunSpecString registers' = decodeSunSpecString registers := by
  simp only [decodeSunSpecString_eq]
  have hnonzero (text : Bytes) (h : 0 ∉ text) : ∀ b ∈ text, decide (b ≠ 0) = true :=
    fun b hb => decide_eq_true fun hzero => h (hzero ▸ hb)
  refine ⟨fun n text h hlen => ?_, List.takeWhile_prefix _, fun h => ?_, fun text hprefix h => ?_,
    ?_, fun n registers' hzero htake => ?_⟩
  · rw [registerBytes_packString hlen, List.takeWhile_append_of_pos (hnonzero text h)]
    simp
  · simpa using List.mem_takeWhile_imp h
  · obtain ⟨rest, hrest⟩ := hprefix
    rw [← hrest, List.takeWhile_append_of_pos (hnonzero text h)]
    exact List.prefix_append _ _
  · rw [← length_registerBytes registers]
    exact (List.takeWhile_prefix _).length_le
  · have hzero' : (registerBytes registers')[n]? = some 0 := by
      rw [← List.getElem?_take_of_lt (Nat.lt_succ_self n), htake,
        List.getElem?_take_of_lt (Nat.lt_succ_self n), hzero]
    rw [takeWhile_take hzero, takeWhile_take hzero', htake]

/-- Three letters in four registers. -/
theorem sunspec_strings_round_trip_letters :
    decodeSunSpecString (packString 4 (ascii "SMA")) = ascii "SMA" :=
  (sunspec_strings_round_trip []).1 4 (ascii "SMA") (by decide) (by decide)

end Neubau.Sunspec
