import Neubau.Thing.Shared

/-! The web interface to the things. The path of a request names a thing by its
percent-encoded id. Decoding undoes every encoding and accepts nothing else, so
that each stored thing has a path and no path can mean two ids. -/

namespace Neubau.Webapp

open Neubau.Common Neubau.Common.Shared

/-- The byte that starts an escape. -/
def percent : UInt8 := 37

def hexValue (character : UInt8) : Option UInt8 :=
  if 48 ≤ character ∧ character ≤ 57 then some (character - 48)
  else if 65 ≤ character ∧ character ≤ 70 then some (character - 65 + 10)
  else if 97 ≤ character ∧ character ≤ 102 then some (character - 97 + 10)
  else none

/-- The loop of `decodePathComponent` from an index on, for at most `n` rounds. -/
def decodeFrom (encoded : Bytes) : ℕ → ℕ → Bytes → Option Bytes
  | 0, _, decoded => some decoded
  | n + 1, index, decoded =>
    match encoded[index]? with
    | none => some decoded
    | some character =>
      if character ≠ percent then decodeFrom encoded n (index + 1) (decoded ++ [character])
      else if index + 2 ≥ encoded.length then none
      else
        match encoded[index + 1]?.bind hexValue, encoded[index + 2]?.bind hexValue with
        | some high, some low =>
          decodeFrom encoded n (index + 3) (decoded ++ [high <<< 4 ||| low])
        | _, _ => none

/-- Every round consumes a byte. -/
def decodePathComponent (encoded : Bytes) : Option Bytes :=
  decodeFrom encoded encoded.length 0 []

/-- What a request is answered with. -/
inductive Response
  | thing (thing : ℕ)
  | error (status : ℕ) (message : String)
  deriving DecidableEq, Repr

/-- The handler of `/api/things/{id}`. -/
def getThing (o : Objects) (things : Repository) (id : Bytes) : Response :=
  match decodePathComponent id with
  | none => .error 400 "invalid thing id encoding"
  | some id =>
    match things.find o id with
    | none => .error 404 "thing not found"
    | some thing => .thing thing

/-! ### Percent encodings -/

/-- The character is the hexadecimal digit of a value, in either case. -/
def HexDigit (value : ℕ) (character : UInt8) : Prop :=
  (ascii "0123456789ABCDEF")[value]? = some character ∨
    (ascii "0123456789abcdef")[value]? = some character

/-- `Encoding text encoded`: each byte of the text is written as it is, unless it
starts an escape, or as an escape with its two digits. -/
inductive Encoding : Bytes → Bytes → Prop
  | nil : Encoding [] []
  | plain {b : UInt8} {text encoded : Bytes} :
      b ≠ percent → Encoding text encoded → Encoding (b :: text) (b :: encoded)
  | escape {b high low : UInt8} {text encoded : Bytes} :
      HexDigit (b.toNat / 16) high → HexDigit (b.toNat % 16) low → Encoding text encoded →
      Encoding (b :: text) (percent :: high :: low :: encoded)

/-- Every escape, in the order of reading, has its two digits. -/
inductive WellEscaped : Bytes → Prop
  | nil : WellEscaped []
  | plain {b : UInt8} {encoded : Bytes} :
      b ≠ percent → WellEscaped encoded → WellEscaped (b :: encoded)
  | escape {high low : UInt8} {encoded : Bytes} :
      (∃ value, HexDigit value high) → (∃ value, HexDigit value low) → WellEscaped encoded →
      WellEscaped (percent :: high :: low :: encoded)

theorem upperDigits : ascii "0123456789ABCDEF" =
    [48, 49, 50, 51, 52, 53, 54, 55, 56, 57, 65, 66, 67, 68, 69, 70] := by decide +kernel

theorem lowerDigits : ascii "0123456789abcdef" =
    [48, 49, 50, 51, 52, 53, 54, 55, 56, 57, 97, 98, 99, 100, 101, 102] := by decide +kernel

/-- The digits in numbers. -/
theorem hexDigit_iff {value : ℕ} {character : UInt8} : HexDigit value character ↔
    (value < 10 ∧ character.toNat = value + 48) ∨
      (10 ≤ value ∧ value < 16 ∧
        (character.toNat = value + 55 ∨ character.toNat = value + 87)) := by
  rw [HexDigit, upperDigits, lowerDigits]
  by_cases h : value < 16
  · interval_cases value <;>
      simp only [List.getElem?_cons_zero, List.getElem?_cons_succ, Option.some.injEq,
        ← UInt8.toNat_inj, UInt8.reduceToNat] <;>
      omega
  · have hlength : 16 ≤ value := not_lt.1 h
    rw [List.getElem?_eq_none (by simpa using hlength),
      List.getElem?_eq_none (by simpa using hlength)]
    exact iff_of_false (by simp) (by omega)

theorem HexDigit.lt {value : ℕ} {character : UInt8} (h : HexDigit value character) :
    value < 16 := by
  rw [hexDigit_iff] at h
  omega

theorem hexValue_eq_some_iff {character value : UInt8} : hexValue character = some value ↔
    (48 ≤ character.toNat ∧ character.toNat ≤ 57 ∧ character.toNat = value.toNat + 48) ∨
    (65 ≤ character.toNat ∧ character.toNat ≤ 70 ∧ character.toNat = value.toNat + 55) ∨
    (97 ≤ character.toNat ∧ character.toNat ≤ 102 ∧ character.toNat = value.toNat + 87) := by
  simp only [hexValue, UInt8.le_iff_toNat_le, UInt8.reduceToNat]
  split_ifs with hdigit hupper hlower
  case neg => exact iff_of_false (by simp) (by omega)
  all_goals
    simp only [Option.some.injEq, ← UInt8.toNat_inj, UInt8.toNat_add, UInt8.toNat_sub,
      UInt8.reduceToNat]
    omega

theorem HexDigit.hexValue {value : ℕ} {character : UInt8} (h : HexDigit value character) :
    hexValue character = some (UInt8.ofNat value) := by
  rw [hexDigit_iff] at h
  rw [hexValue_eq_some_iff, UInt8.toNat_ofNat']
  omega

theorem hexDigit_of_hexValue {character value : UInt8} (h : hexValue character = some value) :
    HexDigit value.toNat character := by
  rw [hexValue_eq_some_iff] at h
  rw [hexDigit_iff]
  omega

/-- The byte of two digits. -/
theorem toNat_digits {high low : UInt8} (hhigh : high.toNat < 16) (hlow : low.toNat < 16) :
    (high <<< 4 ||| low).toNat = high.toNat * 16 + low.toNat := by
  have hshift : (high <<< 4).toNat = high.toNat <<< 4 := by
    simp only [UInt8.toNat_shiftLeft, UInt8.reduceToNat, Nat.shiftLeft_eq, Nat.reduceMod,
      Nat.reducePow]
    omega
  rw [UInt8.toNat_or, hshift, ← Nat.shiftLeft_add_eq_or_of_lt (by simpa using hlow),
    Nat.shiftLeft_eq]

theorem digits_of_byte (b : UInt8) :
    UInt8.ofNat (b.toNat / 16) <<< 4 ||| UInt8.ofNat (b.toNat % 16) = b := by
  have hb := b.toNat_lt
  have hhigh : (UInt8.ofNat (b.toNat / 16)).toNat = b.toNat / 16 := by
    rw [UInt8.toNat_ofNat']
    omega
  have hlow : (UInt8.ofNat (b.toNat % 16)).toNat = b.toNat % 16 := by
    rw [UInt8.toNat_ofNat']
    omega
  apply UInt8.toNat_inj.1
  rw [toNat_digits (by omega) (by omega), hhigh, hlow]
  omega

/-! ### The loop -/

section

variable {text encoded front decoded : Bytes} {n : ℕ}

theorem decodeFrom_end : decodeFrom front n front.length decoded = some decoded := by
  cases n with
  | zero => rfl
  | succ n => simp [decodeFrom]

theorem decodeFrom_plain {b : UInt8} (hb : b ≠ percent) :
    decodeFrom (front ++ b :: encoded) (n + 1) front.length decoded =
      decodeFrom ((front ++ [b]) ++ encoded) n (front ++ [b]).length (decoded ++ [b]) := by
  simp [decodeFrom, hb]

theorem decodeFrom_short (hlen : encoded.length < 2) :
    decodeFrom (front ++ percent :: encoded) (n + 1) front.length decoded = none := by
  have hend : front.length + 2 ≥ (front ++ percent :: encoded).length := by
    simp only [List.length_append, List.length_cons]
    omega
  rw [decodeFrom, List.getElem?_append_right le_rfl, Nat.sub_self, List.getElem?_cons_zero]
  dsimp only
  rw [if_neg (by simp), if_pos hend]

theorem decodeFrom_escape (high low : UInt8) :
    decodeFrom (front ++ percent :: high :: low :: encoded) (n + 1) front.length decoded =
      match hexValue high, hexValue low with
      | some h, some l => decodeFrom ((front ++ [percent, high, low]) ++ encoded) n
          (front ++ [percent, high, low]).length (decoded ++ [h <<< 4 ||| l])
      | _, _ => none := by
  have hend : ¬front.length + 2 ≥ (front ++ percent :: high :: low :: encoded).length := by
    simp only [List.length_append, List.length_cons]
    omega
  rw [decodeFrom, List.getElem?_append_right le_rfl, Nat.sub_self, List.getElem?_cons_zero]
  dsimp only
  rw [if_neg (by simp), if_neg hend]
  simp

/-- What encodes a text is decoded to it. -/
theorem Encoding.decodeFrom (h : Encoding text encoded) (hn : encoded.length ≤ n) :
    decodeFrom (front ++ encoded) n front.length decoded = some (decoded ++ text) := by
  induction h generalizing n front decoded with
  | nil => rw [List.append_nil, decodeFrom_end, List.append_nil]
  | @plain b text encoded hb h ih =>
    obtain ⟨n, rfl⟩ : ∃ k, n = k + 1 := ⟨n - 1, by rw [List.length_cons] at hn; omega⟩
    rw [List.length_cons] at hn
    rw [decodeFrom_plain hb, ih (by omega), List.append_assoc, List.singleton_append]
  | @escape b high low text encoded hhigh hlow h ih =>
    obtain ⟨n, rfl⟩ : ∃ k, n = k + 1 := ⟨n - 1, by simp only [List.length_cons] at hn; omega⟩
    simp only [List.length_cons] at hn
    rw [decodeFrom_escape, hhigh.hexValue, hlow.hexValue]
    dsimp only
    rw [ih (by omega), digits_of_byte, List.append_assoc, List.singleton_append]

/-- What is decoded encodes the text it is decoded to. -/
theorem encoding_of_decodeFrom (hn : encoded.length ≤ n)
    (h : Webapp.decodeFrom (front ++ encoded) n front.length decoded = some text) :
    ∃ rest, text = decoded ++ rest ∧ Encoding rest encoded := by
  induction n generalizing front decoded encoded with
  | zero =>
    obtain rfl := List.eq_nil_of_length_eq_zero (Nat.le_zero.1 hn)
    obtain rfl := Option.some.inj h
    exact ⟨[], (List.append_nil _).symm, .nil⟩
  | succ n ih =>
    match encoded with
    | [] =>
      rw [List.append_nil, decodeFrom_end] at h
      obtain rfl := Option.some.inj h
      exact ⟨[], (List.append_nil _).symm, .nil⟩
    | b :: encoded =>
      rw [List.length_cons] at hn
      by_cases hb : b = percent
      · subst hb
        match encoded with
        | [] => simp [decodeFrom_short] at h
        | [high] => simp [decodeFrom_short] at h
        | high :: low :: encoded =>
          rw [decodeFrom_escape] at h
          cases hhigh : hexValue high with
          | none => simp [hhigh] at h
          | some highValue =>
            cases hlow : hexValue low with
            | none => simp [hhigh, hlow] at h
            | some lowValue =>
              simp only [hhigh, hlow] at h
              simp only [List.length_cons] at hn
              obtain ⟨rest, rfl, hrest⟩ := ih (by omega) h
              have hvalue := toNat_digits (hexDigit_of_hexValue hhigh).lt
                (hexDigit_of_hexValue hlow).lt
              have hlt := (hexDigit_of_hexValue hlow).lt
              refine ⟨(highValue <<< 4 ||| lowValue) :: rest, by simp, .escape ?_ ?_ hrest⟩
              · rw [hvalue, show (highValue.toNat * 16 + lowValue.toNat) / 16 = highValue.toNat by
                  omega]
                exact hexDigit_of_hexValue hhigh
              · rw [hvalue, show (highValue.toNat * 16 + lowValue.toNat) % 16 = lowValue.toNat by
                  omega]
                exact hexDigit_of_hexValue hlow
      · rw [decodeFrom_plain hb] at h
        obtain ⟨rest, rfl, hrest⟩ := ih (by omega) h
        exact ⟨b :: rest, by simp, .plain hb hrest⟩

theorem decodePathComponent_iff :
    decodePathComponent encoded = some text ↔ Encoding text encoded := by
  constructor
  · intro h
    obtain ⟨rest, rfl, hrest⟩ := @encoding_of_decodeFrom text encoded [] [] _ le_rfl h
    exact hrest
  · intro h
    exact @Encoding.decodeFrom text encoded [] [] _ h le_rfl

theorem wellEscaped_iff : WellEscaped encoded ↔ ∃ text, Encoding text encoded := by
  constructor
  · intro h
    induction h with
    | nil => exact ⟨[], .nil⟩
    | plain hb _ ih =>
      obtain ⟨text, htext⟩ := ih
      exact ⟨_, .plain hb htext⟩
    | escape hhigh hlow _ ih =>
      obtain ⟨⟨high, hhigh⟩, ⟨low, hlow⟩⟩ := hhigh, hlow
      obtain ⟨text, htext⟩ := ih
      have hlt := hhigh.lt
      have hlt' := hlow.lt
      have hbyte : (UInt8.ofNat (high * 16 + low)).toNat = high * 16 + low := by
        rw [UInt8.toNat_ofNat']
        omega
      refine ⟨UInt8.ofNat (high * 16 + low) :: text, .escape ?_ ?_ htext⟩
      · rwa [hbyte, show (high * 16 + low) / 16 = high by omega]
      · rwa [hbyte, show (high * 16 + low) % 16 = low by omega]
  · rintro ⟨text, h⟩
    induction h with
    | nil => exact .nil
    | plain hb _ ih => exact .plain hb ih
    | escape hhigh hlow _ ih => exact .escape ⟨_, hhigh⟩ ⟨_, hlow⟩ ih

theorem exists_hexDigit {value : ℕ} (h : value < 16) : ∃ character, HexDigit value character :=
  ⟨_, .inl (List.getElem?_eq_getElem (l := ascii "0123456789ABCDEF") h)⟩

/-- Every text has an encoding of escapes only, so that nothing else of a path can
be in it. -/
theorem exists_encoding (text : Bytes) : ∃ path, Encoding text path ∧
    ∀ c ∈ path, c = percent ∨ ∃ value, HexDigit value c := by
  induction text with
  | nil => exact ⟨[], .nil, by simp⟩
  | cons b text ih =>
    obtain ⟨path, hpath, hc⟩ := ih
    have hb := b.toNat_lt
    obtain ⟨high, hhigh⟩ := exists_hexDigit (show b.toNat / 16 < 16 by omega)
    obtain ⟨low, hlow⟩ := exists_hexDigit (show b.toNat % 16 < 16 by omega)
    refine ⟨percent :: high :: low :: path, .escape hhigh hlow hpath, fun c hmem => ?_⟩
    simp only [List.mem_cons] at hmem
    rcases hmem with rfl | rfl | rfl | hmem
    · exact .inl rfl
    · exact .inr ⟨_, hhigh⟩
    · exact .inr ⟨_, hlow⟩
    · exact hc c hmem

end

/-- A path is accepted exactly if its escapes are whole, and means the one text it
encodes. Every stored thing is found under each encoding of its id, and one of these
consists of escapes only. -/
theorem path_ids_decode_exactly (encoded : Bytes) :
    ((decodePathComponent encoded).isSome ↔ WellEscaped encoded) ∧
    (∀ text, decodePathComponent encoded = some text ↔ Encoding text encoded) ∧
    (∀ text text', Encoding text encoded → Encoding text' encoded → text = text') ∧
    ∀ (o : Objects) (calls : List Call) (t : ℕ), some t ∈ (after o calls).things →
      (∀ path, Encoding (o.id t) path → getThing o (after o calls) path = .thing t) ∧
      ∃ path, Encoding (o.id t) path ∧ ∀ c ∈ path, c = percent ∨ ∃ value, HexDigit value c := by
  refine ⟨?_, fun text => decodePathComponent_iff, fun text text' h h' => ?_,
    fun o calls t ht => ⟨fun path hpath => ?_, exists_encoding (o.id t)⟩⟩
  · rw [Option.isSome_iff_exists, wellEscaped_iff]
    exact exists_congr fun text => decodePathComponent_iff
  · exact Option.some.inj ((decodePathComponent_iff.2 h).symm.trans (decodePathComponent_iff.2 h'))
  · have hfind := (after_sound (o := o) calls).find_eq_some_iff.2 ⟨ht, rfl⟩
    rw [getThing, decodePathComponent_iff.2 hpath]
    dsimp only
    rw [hfind]

/-- An id of a Modbus thing, with one slash and one letter escaped. -/
example : decodePathComponent (ascii "modbus%2fdev%69ce-2") = some (ascii "modbus/device-2") := by
  decide

/-- The end of the input cuts an escape short. -/
example : decodePathComponent (ascii "bad%2") = none := by decide

end Neubau.Webapp
