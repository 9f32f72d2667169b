import Mathlib.Data.Finmap
import Mathlib.Tactic

/-! A feed of changes. The values of a feed belong to keys; publishing a value
tells of it unless it is what was told last under its key. So the feed never
tells the same value of a key twice in a row, and publishing the current value
of a key leaves it the last one told. -/

namespace Neubau.Stream

variable {κ ν : Type*} [DecidableEq κ]

/-- What was told last under each key, and all that was told. -/
structure ChangeFeed (κ ν : Type*) where
  emitted : Finmap (fun _ : κ => ν) := ∅
  log : List ν := []

namespace ChangeFeed

/-- What a log tells of a key. -/
def told (key : ν → κ) (log : List ν) (k : κ) : List ν := log.filter (key · = k)

variable [DecidableEq ν]

def publish (key : ν → κ) (f : ChangeFeed κ ν) (value : ν) : ChangeFeed κ ν :=
  if f.emitted.lookup (key value) = (some value : Option ν) then f
  else { emitted := f.emitted.insert (key value) value, log := f.log ++ [value] }

/-- The feed knows what it told last, and never tells it again at once. -/
structure Faithful (key : ν → κ) (f : ChangeFeed κ ν) : Prop where
  last : ∀ k, f.emitted.lookup k = (told key f.log k).getLast?
  changes : ∀ k, (told key f.log k).IsChain (· ≠ ·)

variable {key : ν → κ} {f : ChangeFeed κ ν}

omit [DecidableEq ν] in
theorem told_append (log : List ν) (value : ν) (k : κ) :
    told key (log ++ [value]) k =
      if key value = k then told key log k ++ [value] else told key log k := by
  unfold told
  rw [List.filter_append]
  split_ifs with h <;> simp [h]

omit [DecidableEq ν] in
theorem Faithful.empty : Faithful key {} := by
  constructor
  · intro k
    exact Finmap.lookup_empty k
  · intro k
    exact List.isChain_nil

theorem Faithful.publish (h : f.Faithful key) (value : ν) : (f.publish key value).Faithful key := by
  unfold ChangeFeed.publish
  split_ifs with hsame
  · exact h
  constructor
  · intro k
    dsimp only
    rw [told_append]
    split_ifs with hk
    · subst hk
      rw [Finmap.lookup_insert, List.getLast?_concat]
    · rw [Finmap.lookup_insert_of_ne _ (Ne.symm hk)]
      exact h.last k
  · intro k
    dsimp only
    rw [told_append]
    split_ifs with hk
    · subst hk
      refine (h.changes _).append (List.isChain_singleton _) ?_
      intro last hlast b hb
      rw [← h.last] at hlast
      obtain rfl : value = b := by simpa using hb
      rintro rfl
      exact hsame hlast
    · exact h.changes k

/-- A value published is the last one told under its key. -/
theorem Faithful.getLast?_publish (h : f.Faithful key) (value : ν) :
    (told key (f.publish key value).log (key value)).getLast? = some value := by
  rw [← (h.publish value).last]
  unfold ChangeFeed.publish
  split_ifs with hsame
  · exact hsame
  · exact Finmap.lookup_insert _

/-- Publishing under one key tells nothing of another. -/
theorem told_publish_of_ne (value : ν) {k : κ} (hk : key value ≠ k) :
    told key (f.publish key value).log k = told key f.log k := by
  unfold ChangeFeed.publish
  split_ifs
  · rfl
  · dsimp only
    rw [told_append, if_neg hk]

end ChangeFeed

end Neubau.Stream
