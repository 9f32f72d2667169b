import Mathlib.Tactic

/-! Exceptions, byte strings and open ports, as every component uses them. A
`std::string` is a list of bytes; messages of exceptions are kept as they stand
in the source. Lists of things that are numbered grow at their end. -/

namespace Neubau.Common

/-- The exceptions the components throw or hand to an observer. -/
inductive Exception
  | runtimeError (what : String)
  | invalidArgument (what : String)
  | logicError (what : String)
  deriving DecidableEq, Repr

abbrev Bytes := List UInt8

/-- The bytes of an ASCII literal. -/
def ascii (text : String) : Bytes := text.toList.map fun c => UInt8.ofNat c.toNat

/-- `std::to_string` of an unsigned number. -/
def decimal (n : ℕ) : Bytes := ascii (toString n)

structure OpenPort where
  address : Bytes
  port : UInt16
  deriving DecidableEq, Repr

theorem getElem?_concat_eq_some {α : Type*} {xs : List α} {x y : α} {n : ℕ} :
    (xs ++ [x])[n]? = some y ↔ xs[n]? = some y ∨ (n = xs.length ∧ x = y) := by
  rcases lt_trichotomy n xs.length with h | h | h
  · simp [List.getElem?_append_left h, h.ne]
  · simp [h]
  · simp [List.getElem?_append_right h.le, h.ne', Nat.sub_ne_zero_of_lt h, List.getElem?_eq_none h.le]

/-- The last separator is where it is, whatever stands before it. -/
theorem append_cons_inj_right {α : Type*} {front front' back back' : List α} {separator : α}
    (h : separator ∉ back) (h' : separator ∉ back')
    (heq : front ++ separator :: back = front' ++ separator :: back') :
    front = front' ∧ back = back' := by
  rcases List.append_eq_append_iff.1 heq with ⟨mid, rfl, hback⟩ | ⟨mid, rfl, hback⟩
  · cases mid with
    | nil => exact ⟨(List.append_nil _).symm, (List.cons.inj hback).2⟩
    | cons x mid => exact absurd (by rw [(List.cons.inj hback).2]; simp) h
  · cases mid with
    | nil => exact ⟨List.append_nil _, (List.cons.inj hback).2.symm⟩
    | cons x mid => exact absurd (by rw [(List.cons.inj hback).2]; simp) h'

/-- A separator is found behind a text without it. -/
theorem idxOf?_append_cons {front rest : Bytes} {separator : UInt8} (h : separator ∉ front) :
    (front ++ separator :: rest).idxOf? separator = some front.length := by
  induction front with
  | nil => simp [List.idxOf?_cons]
  | cons b front ih =>
    rw [List.mem_cons, not_or] at h
    simp [List.idxOf?_cons, ih h.2, Ne.symm h.1]

/-! ### Decimal numbers -/

theorem digit_byte {c : Char} (h : c.isDigit = true) :
    (UInt8.ofNat c.toNat).toNat = c.toNat ∧ 48 ≤ c.toNat ∧ c.toNat ≤ 57 := by
  obtain ⟨hle, hge⟩ : 48 ≤ c.toNat ∧ c.toNat ≤ 57 := Char.isDigit_iff_toNat.1 h
  rw [UInt8.toNat_ofNat']
  omega

theorem decimal_eq (n : ℕ) :
    decimal n = (Nat.toDigits 10 n).map fun c => UInt8.ofNat c.toNat := by
  rw [decimal, ascii, Nat.toString_eq_ofList_toDigits, String.toList_ofList]

/-- A decimal number consists of digits. -/
theorem isDigit_of_mem_decimal {n : ℕ} {c : UInt8} (h : c ∈ decimal n) : 48 ≤ c ∧ c ≤ 57 := by
  rw [decimal_eq] at h
  obtain ⟨d, hd, rfl⟩ := List.mem_map.1 h
  obtain ⟨hbyte, hle, hge⟩ := digit_byte (Nat.isDigit_of_mem_toDigits (by decide) le_rfl hd)
  rw [UInt8.le_iff_toNat_le, UInt8.le_iff_toNat_le, hbyte]
  exact ⟨hle, hge⟩

theorem not_mem_decimal {c : UInt8} (h : ¬(48 ≤ c ∧ c ≤ 57)) (n : ℕ) : c ∉ decimal n :=
  fun hc => h (isDigit_of_mem_decimal hc)

theorem foldl_decimal (n : ℕ) :
    (decimal n).foldl (fun value c => 10 * value + (c.toNat - 48)) 0 = n := by
  rw [decimal_eq, List.foldl_map]
  refine Eq.trans ?_ Nat.ofDigitChars_ten_toDigits
  rw [Nat.ofDigitChars_eq_foldl]
  refine List.foldl_ext _ _ _ fun value d hd => ?_
  rw [(digit_byte (Nat.isDigit_of_mem_toDigits (by decide) le_rfl hd)).1]
  rfl

/-- Different numbers are printed differently. -/
theorem decimal_injective : Function.Injective decimal := by
  intro m n h
  rw [← foldl_decimal m, h, foldl_decimal]

end Neubau.Common
