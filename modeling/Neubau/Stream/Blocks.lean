import Mathlib.Tactic

/-! Sequences read by index. A read outside the sequence is a fault, which ends the
computation with the index. A loop that reads one record after the other gives up
at the first one that is missing; what it collects is known record by record. Behind
a head, blocks of one width stand at the multiples of it. -/

namespace Neubau.Stream

universe u

variable {α β : Type u}

/-- The entry at an index; `.error` is a read outside. -/
def readAt (xs : List α) (i : ℕ) : Except ℕ α :=
  match xs[i]? with
  | some x => .ok x
  | none => .error i

theorem readAt_eq_ok {xs : List α} {i : ℕ} {x : α} (h : xs[i]? = some x) : readAt xs i = .ok x := by
  rw [readAt, h]

@[simp] theorem readAt_toList {n : ℕ} (xs : Vector α n) {i : ℕ} (h : i < n) :
    readAt xs.toList i = .ok (xs.get ⟨i, h⟩) :=
  readAt_eq_ok (by simp [h]; rfl)

/-- A computation goes on after a read inside the sequence. -/
@[simp] theorem ok_bind (x : α) (f : α → Except ℕ β) : (Except.ok x >>= f) = f x := rfl

/-- The loop `for (i = index; remaining > 0; ++i, --remaining) out.push_back(record(i))`,
which returns without a result where `record` has none. -/
def collect (record : ℕ → Except ℕ (Option β)) : ℕ → ℕ → List β → Except ℕ (Option (List β))
  | 0, _, out => .ok (some out)
  | remaining + 1, index, out =>
    match record index with
    | .error fault => .error fault
    | .ok none => .ok none
    | .ok (some x) => collect record remaining (index + 1) (out ++ [x])

/-- A loop whose records are those of a list. -/
theorem collect_eq {record : ℕ → Except ℕ (Option β)} {f : α → Option β} (xs : List α)
    (index : ℕ) (out : List β) (h : ∀ i (hi : i < xs.length), record (index + i) = .ok (f xs[i])) :
    collect record xs.length index out = .ok ((xs.mapM f).map (out ++ ·)) := by
  induction xs generalizing index out with
  | nil => simp [collect]
  | cons x xs ih =>
    have hx : record index = .ok (f x) := h 0 (by simp)
    rw [List.length_cons, collect, hx, List.mapM_cons]
    cases hf : f x with
    | none => rfl
    | some y =>
      dsimp only
      rw [ih (index + 1) (out ++ [y]) fun i hi => ?_]
      · cases xs.mapM f <;> simp
      · rw [show index + 1 + i = index + (i + 1) by omega]
        exact h (i + 1) (by simpa using hi)

theorem mapM_eq_some {f : α → Option β} {xs : List α} {ys : List β} :
    xs.mapM f = some ys ↔ List.Forall₂ (fun x y => f x = some y) xs ys := by
  induction xs generalizing ys with
  | nil => simp [eq_comm]
  | cons x xs ih =>
    rw [List.mapM_cons, List.forall₂_cons_left_iff]
    simp only [← ih]
    cases f x <;> cases xs.mapM f <;> simp [eq_comm]

theorem mapM_isSome {f : α → Option β} {xs : List α} :
    (xs.mapM f).isSome ↔ ∀ x ∈ xs, (f x).isSome := by
  induction xs with
  | nil => simp
  | cons x xs ih =>
    rw [List.mapM_cons, List.forall_mem_cons, ← ih]
    cases f x <;> cases xs.mapM f <;> simp

/-! ### Blocks of one width -/

section

variable {w : ℕ}

/-- The entries of a list of blocks. -/
def entries (blocks : List (Vector α w)) : List α := blocks.flatMap Vector.toList

@[simp] theorem length_entries (blocks : List (Vector α w)) :
    (entries blocks).length = blocks.length * w := by
  induction blocks with
  | nil => simp [entries]
  | cons b blocks ih =>
    rw [entries, List.flatMap_cons, List.length_append, ← entries, ih, List.length_cons,
      Vector.length_toList]
    ring

theorem getElem?_entries (blocks : List (Vector α w)) {i j : ℕ} (hi : i < blocks.length)
    (hj : j < w) : (entries blocks)[i * w + j]? = some blocks[i][j] := by
  induction blocks generalizing i with
  | nil => simp at hi
  | cons b blocks ih =>
    rw [entries, List.flatMap_cons, ← entries]
    cases i with
    | zero => simp [List.getElem?_append_left, hj]
    | succ i =>
      have hpast : b.toList.length ≤ (i + 1) * w + j := by rw [Vector.length_toList]; nlinarith
      have hindex : (i + 1) * w + j - b.toList.length = i * w + j := by
        rw [Vector.length_toList, Nat.succ_mul]; omega
      rw [List.getElem?_append_right hpast, hindex, ih (by simpa using hi)]
      rfl

/-- An entry of a block behind a head. -/
theorem readAt_block {n : ℕ} (head : Vector α n) (blocks : List (Vector α w)) {i j : ℕ}
    (hi : i < blocks.length) (hj : j < w) :
    readAt (head.toList ++ entries blocks) (n + i * w + j) = .ok (blocks[i].get ⟨j, hj⟩) := by
  apply readAt_eq_ok
  rw [List.getElem?_append_right (by rw [Vector.length_toList]; omega), Vector.length_toList,
    show n + i * w + j - n = i * w + j by omega, getElem?_entries blocks hi hj]
  rfl

/-- An entry of the head. -/
theorem readAt_head {n : ℕ} (head : Vector α n) (more : List α) {i : ℕ} (h : i < n) :
    readAt (head.toList ++ more) i = .ok (head.get ⟨i, h⟩) :=
  readAt_eq_ok (by simp [List.getElem?_append_left, h]; rfl)

theorem exists_vector {n : ℕ} {xs : List α} (h : xs.length = n) : ∃ v : Vector α n, v.toList = xs :=
  ⟨⟨xs.toArray, by simpa using h⟩, by simp [Vector.toList]⟩

/-- A sequence whose length is a multiple of the width consists of blocks. -/
theorem exists_entries {k : ℕ} {xs : List α} (h : xs.length = k * w) :
    ∃ blocks : List (Vector α w), blocks.length = k ∧ entries blocks = xs := by
  induction k generalizing xs with
  | zero => exact ⟨[], rfl, by simpa [entries, eq_comm] using h⟩
  | succ k ih =>
    have hfront : (xs.take w).length = w := by rw [List.length_take, h, Nat.succ_mul]; omega
    have hback : (xs.drop w).length = k * w := by rw [List.length_drop, h, Nat.succ_mul]; omega
    obtain ⟨b, hb⟩ := exists_vector hfront
    obtain ⟨blocks, hlen, hblocks⟩ := ih hback
    refine ⟨b :: blocks, by rw [List.length_cons, hlen], ?_⟩
    rw [entries, List.flatMap_cons, ← entries, hblocks, hb, List.take_append_drop]

/-- So does one with a head before them. -/
theorem exists_blocks {n : ℕ} {xs : List α} (hn : n ≤ xs.length) (h : (xs.length - n) % w = 0) :
    ∃ (head : Vector α n) (blocks : List (Vector α w)),
      blocks.length = (xs.length - n) / w ∧ head.toList ++ entries blocks = xs := by
  obtain ⟨head, hhead⟩ := exists_vector (List.length_take_of_le hn)
  have hback : (xs.drop n).length = (xs.length - n) / w * w := by
    rw [List.length_drop, Nat.div_mul_cancel (Nat.dvd_of_mod_eq_zero h)]
  obtain ⟨blocks, hlen, hblocks⟩ := exists_entries hback
  exact ⟨head, blocks, hlen, by rw [hhead, hblocks, List.take_append_drop]⟩

end

end Neubau.Stream
