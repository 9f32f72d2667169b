import Neubau.Sunspec.Scanner

/-! The chain of models behind an accepted header. A chain grows by one model at
a time, at the address its last model ends at, and never past the register span.
A list that is a chain has the shape of a model table: its addresses follow one
another, none was truncated, and its instances count the repeated ids. -/

namespace Neubau.Sunspec

open Neubau.Common

variable {c : Config}

/-- The first address a scan may not read. -/
def Config.limit (c : Config) : ℕ := min 65536 (40000 + c.options.maxRegisterSpan)

theorem Config.limit_le (c : Config) : c.limit ≤ 65536 := Nat.min_le_left _ _

theorem isInRegisterSpan_iff {address count : ℕ} :
    ScanState.isInRegisterSpan c address count = true ↔
      40000 ≤ address ∧ address < 65536 ∧ address + count ≤ c.limit := by
  simp only [ScanState.isInRegisterSpan, Config.limit, decide_eq_true_eq]
  omega

/-- How often a model id occurs. -/
def occurrences (locations : List ModelLocation) (id : UInt16) : ℕ :=
  (locations.map (·.id)).count id

theorem occurrences_le (locations : List ModelLocation) (id : UInt16) :
    occurrences locations id ≤ locations.length :=
  List.count_le_length.trans_eq (List.length_map _)

/-- The location of a model whose header is at `address`. -/
def locationAt (locations : List ModelLocation) (address : ℕ) (id length : UInt16) :
    ModelLocation where
  id := id
  instance_ := UInt16.ofNat (occurrences locations id)
  address := UInt16.ofNat (address + 2)
  length := length

def commonLocation (commonLength : UInt16) : ModelLocation :=
  { id := 1, instance_ := 0, address := 40004, length := commonLength }

/-- `locations` is a chain; the header of its next model is at the address. -/
inductive Chain (c : Config) : List ModelLocation → ℕ → Prop
  | common {commonLength : UInt16} :
      commonLength = 65 ∨ commonLength = 66 → 40004 + commonLength.toNat ≤ c.limit →
      Chain c [commonLocation commonLength] (40004 + commonLength.toNat)
  | model {locations : List ModelLocation} {address : ℕ} {id length : UInt16} :
      Chain c locations address → id ≠ 0xffff → locations.length < c.options.maxModels →
      address + 2 < 65536 → address + 2 + length.toNat ≤ c.limit →
      Chain c (locations ++ [locationAt locations address id length])
        (address + 2 + length.toNat)

namespace Chain

variable {locations : List ModelLocation} {address : ℕ}

/-- Every model takes two registers at least. -/
theorem room (h : Chain c locations address) : 40004 + 2 * locations.length ≤ address := by
  induction h with
  | common hL _ => rcases hL with rfl | rfl <;> decide
  | model _ _ _ _ _ ih => simp only [List.length_append, List.length_singleton]; omega

theorem le_limit (h : Chain c locations address) : address ≤ c.limit := by
  cases h <;> assumption

theorem length_lt (h : Chain c locations address) : locations.length < 65536 := by
  have h₁ := h.room
  have h₂ := h.le_limit
  have h₃ := c.limit_le
  omega

theorem length_le (h : Chain c locations address) : locations.length ≤ c.options.maxModels := by
  cases h with
  | common => exact c.options.maxModels_pos
  | model => simp only [List.length_append, List.length_singleton]; omega

theorem locationAt_instance (h : Chain c locations address) (id length : UInt16) :
    (locationAt locations address id length).instance_.toNat = occurrences locations id := by
  have hlt : occurrences locations id < 65536 := (occurrences_le _ _).trans_lt h.length_lt
  simp [locationAt, Nat.mod_eq_of_lt hlt]

end Chain

theorem locationAt_address {address : ℕ} (h : address + 2 < 65536)
    (locations : List ModelLocation) (id length : UInt16) :
    (locationAt locations address id length).address.toNat = address + 2 := by
  simp [locationAt, Nat.mod_eq_of_lt h]

/-! ### The shape of a model table -/

/-- A model table: no number in it was truncated. -/
structure Table (c : Config) (locations : List ModelLocation) : Prop where
  head : ∃ commonLength : UInt16, (commonLength = 65 ∨ commonLength = 66) ∧
    locations[0]? = some (commonLocation commonLength)
  length_le : locations.length ≤ c.options.maxModels
  consecutive : ∀ i location next, locations[i]? = some location →
    locations[i + 1]? = some next →
    next.address.toNat = location.address.toNat + location.length.toNat + 2
  bound : ∀ location ∈ locations, location.address.toNat + location.length.toNat ≤ c.limit
  id_ne : ∀ location ∈ locations, location.id ≠ 0xffff
  instances : ∀ i location, locations[i]? = some location →
    location.instance_.toNat = occurrences (locations.take i) location.id

theorem Table.ne_nil {locations : List ModelLocation} (h : Table c locations) :
    locations ≠ [] := by
  obtain ⟨commonLength, -, hhead⟩ := h.head
  rintro rfl
  cases hhead

/-- The last model of a chain ends where the next header is. -/
theorem Chain.last {locations : List ModelLocation} {address : ℕ} (h : Chain c locations address)
    {location : ModelLocation} (hl : locations.getLast? = some location) :
    location.address.toNat + location.length.toNat = address := by
  cases h with
  | common =>
    obtain rfl : _ = location := by simpa using hl
    rfl
  | model _ _ _ hend _ =>
    rw [List.getLast?_concat, Option.some_inj] at hl
    subst hl
    rw [locationAt_address hend]
    rfl

theorem Table.common {commonLength : UInt16} (hL : commonLength = 65 ∨ commonLength = 66)
    (hend : 40004 + commonLength.toNat ≤ c.limit) : Table c [commonLocation commonLength] where
  head := ⟨commonLength, hL, rfl⟩
  length_le := c.options.maxModels_pos
  consecutive i location next _ hn := by simp at hn
  bound location hl := by
    obtain rfl : location = _ := by simpa using hl
    exact hend
  id_ne location hl := by
    obtain rfl : location = _ := by simpa using hl
    exact (by decide : (1 : UInt16) ≠ 0xffff)
  instances i location hl := by
    obtain ⟨rfl, rfl⟩ : i = 0 ∧ commonLocation commonLength = location := by
      rcases i with _ | i <;> simp_all
    rfl

/-- An entry of a longer list is an entry of the list or the new one. -/
theorem Chain.table {locations : List ModelLocation} {address : ℕ}
    (h : Chain c locations address) : Table c locations := by
  induction h with
  | common hL hend => exact .common hL hend
  | @model locations address id length h hid hlen hend hlim ih =>
    have hlt {i : ℕ} {l : ModelLocation} (hl : locations[i]? = some l) : i < locations.length :=
      (List.getElem?_eq_some_iff.1 hl).1
    refine ⟨?_, ?_, fun i location next hl hn => ?_, fun location hl => ?_, fun location hl => ?_,
      fun i location hl => ?_⟩
    · obtain ⟨commonLength, hL, hhead⟩ := ih.head
      exact ⟨commonLength, hL, by rw [List.getElem?_append_left (hlt hhead), hhead]⟩
    · simp only [List.length_append, List.length_singleton]
      omega
    · rcases getElem?_concat_eq_some.1 hn with hn | ⟨hi, rfl⟩
      · have := hlt hn
        rw [List.getElem?_append_left (by omega)] at hl
        exact ih.consecutive i location next hl hn
      · rw [List.getElem?_append_left (by omega)] at hl
        have hlast : locations.getLast? = some location := by
          rw [List.getLast?_eq_getElem?, show locations.length - 1 = i by omega, hl]
        rw [locationAt_address hend, h.last hlast]
    · rcases List.mem_append.1 hl with hl | hl
      · exact ih.bound location hl
      · obtain rfl := List.mem_singleton.1 hl
        rw [locationAt_address hend]
        exact hlim
    · rcases List.mem_append.1 hl with hl | hl
      · exact ih.id_ne location hl
      · obtain rfl := List.mem_singleton.1 hl
        exact hid
    · rcases getElem?_concat_eq_some.1 hl with hl | ⟨rfl, rfl⟩
      · rw [List.take_append_of_le_length (hlt hl).le]
        exact ih.instances i location hl
      · rw [List.take_left', h.locationAt_instance]
        · rfl
        · rfl

end Neubau.Sunspec
