import Mathlib.Data.Set.Defs
import Mathlib.Tactic

/-! Values that are overridden. Of a stream of things some set a value, and the
one that did so last determines it. Where all that set the value agree, neither
the order of the stream nor a repetition in it matters. What is accumulated under a
key of a map is there as soon as there is one thing. -/

namespace Neubau.Stream

variable {α β : Type*} {sets : β → Option α} {initial : α}

/-- What a thing makes of a value that it may set. -/
def override (sets : β → Option α) (value : α) (b : β) : α := (sets b).getD value

/-- The last value that is set. -/
theorem foldl_override (initial : α) (bs : List β) :
    bs.foldl (override sets) initial = ((bs.filterMap sets).getLast?).getD initial := by
  induction bs using List.reverseRecOn with
  | nil => rfl
  | append_singleton bs b ih =>
    rw [List.foldl_append, List.foldl_cons, List.foldl_nil, ih, override, List.filterMap_append]
    cases hb : sets b with
    | none => simp [hb]
    | some value => simp [hb]

/-- The last thing that sets the value, if any, sets it to this one. -/
def LastSets (sets : β → Option α) (bs : List β) (value : α) : Prop :=
  ∀ last ∈ (bs.filterMap sets).getLast?, last = value

/-- A value is as before if the last thing that sets it sets it to what it was. -/
theorem foldl_override_eq_iff {bs : List β} :
    bs.foldl (override sets) initial = initial ↔ LastSets sets bs initial := by
  rw [foldl_override, LastSets]
  cases (bs.filterMap sets).getLast? with
  | none => simp
  | some value => simp

/-- The value is one that is set, or the initial one if none is. -/
def Settled (sets : β → Option α) (initial : α) (bs : Set β) (value : α) : Prop :=
  (∃ b ∈ bs, sets b = some value) ∨ ((∀ b ∈ bs, sets b = none) ∧ value = initial)

/-- No two things set different values. -/
def Compatible (sets : β → Option α) (bs : Set β) : Prop :=
  ∀ b ∈ bs, ∀ b' ∈ bs, ∀ value value', sets b = some value → sets b' = some value' → value = value'

theorem compatible_of_forall {bs : Set β} (value : α)
    (h : ∀ b ∈ bs, ∀ v, sets b = some v → v = value) : Compatible sets bs :=
  fun b hb b' hb' v v' hv hv' => (h b hb v hv).trans (h b' hb' v' hv').symm

theorem Settled.unique {bs : Set β} {value value' : α} (hcompatible : Compatible sets bs)
    (h : Settled sets initial bs value) (h' : Settled sets initial bs value') : value = value' := by
  obtain ⟨b, hb, hset⟩ | ⟨hnone, rfl⟩ := h <;> obtain ⟨b', hb', hset'⟩ | ⟨hnone', rfl⟩ := h'
  · exact hcompatible b hb b' hb' _ _ hset hset'
  · exact nomatch hset.symm.trans (hnone' b hb)
  · exact nomatch hset'.symm.trans (hnone b' hb')
  · rfl

theorem settled_foldl (sets : β → Option α) (initial : α) (bs : List β) :
    Settled sets initial {b | b ∈ bs} (bs.foldl (override sets) initial) := by
  rw [foldl_override]
  cases hlast : (bs.filterMap sets).getLast? with
  | none =>
    rw [List.getLast?_eq_none_iff, List.filterMap_eq_nil_iff] at hlast
    exact .inr ⟨hlast, rfl⟩
  | some value =>
    obtain ⟨b, hb, hset⟩ := List.mem_filterMap.1 (List.mem_of_getLast? hlast)
    exact .inl ⟨b, hb, hset⟩

/-- What a map has under a key after an update of the value there. -/
def accumulate (f : α → β → α) (initial : α) (kept : Option α) (b : β) : Option α :=
  some (f (kept.getD initial) b)

theorem foldl_accumulate {f : α → β → α} {bs : List β} (hne : bs ≠ []) (kept : Option α) :
    bs.foldl (accumulate f initial) kept = some (bs.foldl f (kept.getD initial)) := by
  induction bs using List.reverseRecOn with
  | nil => exact absurd rfl hne
  | append_singleton bs b ih =>
    rw [List.foldl_append, List.foldl_append, List.foldl_cons, List.foldl_nil, accumulate]
    rcases eq_or_ne bs [] with rfl | hbs
    · rfl
    · rw [ih hbs]
      rfl

/-- The value under a key is as before if there is no update, or a value that none of
them changes. -/
theorem foldl_accumulate_eq_iff {f : α → β → α} {bs : List β} {kept : Option α} :
    bs.foldl (accumulate f initial) kept = kept ↔
      bs ≠ [] → ∃ value ∈ kept, bs.foldl f value = value := by
  rcases eq_or_ne bs [] with rfl | hne
  · simp
  · rw [foldl_accumulate hne]
    cases kept with
    | none => simp [hne]
    | some value => simp [hne]

end Neubau.Stream
