import Mathlib.Tactic

/-! Records in a row, each a key, the length of its value and the value, with one byte
for the key and one for the length. Parsing takes so many records as are whole. It
undoes the encoding, whatever follows it. -/

namespace Neubau.Stream

abbrev Record := UInt8 × List UInt8

namespace Record

def encode (r : Record) : List UInt8 := r.1 :: UInt8.ofNat r.2.length :: r.2

def encodeAll (rs : List Record) : List UInt8 := rs.flatMap encode

/-- The first `n` records as far as they are whole, and whether all of them are. -/
def parse : ℕ → List UInt8 → List Record × Bool
  | 0, _ => ([], true)
  | n + 1, key :: length :: rest =>
    if rest.length < length.toNat then ([], false)
    else
      let (rs, whole) := parse n (rest.drop length.toNat)
      ((key, rest.take length.toNat) :: rs, whole)
  | _ + 1, _ => ([], false)

theorem encodeAll_cons (r : Record) (rs : List Record) :
    encodeAll (r :: rs) = r.encode ++ encodeAll rs := List.flatMap_cons

theorem length_encode (r : Record) : r.encode.length = r.2.length + 2 := rfl

/-- Every record takes two bytes and those of its value. -/
theorem two_mul_length_le (rs : List Record) : 2 * rs.length ≤ (encodeAll rs).length := by
  induction rs with
  | nil => exact Nat.zero_le _
  | cons r rs ih =>
    rw [encodeAll_cons, List.length_append, length_encode, List.length_cons]
    omega

theorem length_le_of_mem {r : Record} {rs : List Record} (h : r ∈ rs) :
    r.2.length + 2 ≤ (encodeAll rs).length := by
  obtain ⟨before, after, rfl⟩ := List.append_of_mem h
  have hsplit : encodeAll (before ++ r :: after) =
      encodeAll before ++ (r.encode ++ encodeAll after) := by
    rw [encodeAll, List.flatMap_append, ← encodeAll, ← encodeAll, encodeAll_cons]
  rw [hsplit, List.length_append, List.length_append, length_encode]
  omega

variable {n : ℕ}

theorem parse_short {xs : List UInt8} (h : xs.length < 2) : parse (n + 1) xs = ([], false) := by
  match xs with
  | [] => rfl
  | [_] => rfl
  | _ :: _ :: _ => simp at h

theorem parse_cut {key length : UInt8} {rest : List UInt8} (h : rest.length < length.toNat) :
    parse (n + 1) (key :: length :: rest) = ([], false) := by
  rw [parse, if_pos h]

theorem parse_cons {key length : UInt8} {rest : List UInt8} (h : length.toNat ≤ rest.length) :
    parse (n + 1) (key :: length :: rest) =
      ((key, rest.take length.toNat) :: (parse n (rest.drop length.toNat)).1,
        (parse n (rest.drop length.toNat)).2) := by
  rw [parse, if_neg (by omega)]

/-- Parsing undoes the encoding. -/
theorem parse_encodeAll {rs : List Record} (h : ∀ r ∈ rs, r.2.length < 256) (more : List UInt8) :
    parse rs.length (encodeAll rs ++ more) = (rs, true) := by
  induction rs with
  | nil => rfl
  | cons r rest ih =>
    have hlen : (UInt8.ofNat r.2.length).toNat = r.2.length :=
      UInt8.toNat_ofNat_of_lt' (h r List.mem_cons_self)
    have hrest := ih fun r' hr' => h r' (List.mem_cons_of_mem _ hr')
    have hsplit : encodeAll (r :: rest) ++ more =
        r.1 :: UInt8.ofNat r.2.length :: (r.2 ++ (encodeAll rest ++ more)) := by
      simp [encodeAll_cons, encode]
    rw [hsplit, List.length_cons, parse_cons (by rw [hlen, List.length_append]; omega), hlen,
      List.take_left, List.drop_left, hrest]

end Record

end Neubau.Stream
