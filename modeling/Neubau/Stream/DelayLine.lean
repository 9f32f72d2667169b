import Mathlib.Tactic

/-! A line with a delay. Items are resolved one after the other. The resolution of an
item is told at once, or it is posted and told later, in the order of posting. As
long as nothing is told at once while something is posted, items are told in the
order in which they are resolved; and once something is, they never are again. -/

namespace Neubau.Stream

variable {κ : Type*}

structure DelayLine (κ : Type*) where
  posted : List κ := []
  resolved : List κ := []
  told : List κ := []

namespace DelayLine

/-- An item is resolved, and will be told. -/
def post (l : DelayLine κ) (k : κ) : DelayLine κ :=
  { l with posted := l.posted ++ [k], resolved := l.resolved ++ [k] }

/-- Items are resolved and told at once. -/
def tell (l : DelayLine κ) (ks : List κ) : DelayLine κ :=
  { l with resolved := l.resolved ++ ks, told := l.told ++ ks }

/-- The first item that is posted is told. -/
def deliver (l : DelayLine κ) : DelayLine κ :=
  match l.posted with
  | [] => l
  | k :: rest => { l with posted := rest, told := l.told ++ [k] }

/-- What is told and what is posted is what is resolved, in this order. -/
def Ordered (l : DelayLine κ) : Prop := l.told ++ l.posted = l.resolved

/-- An item was told in the place of another one that was resolved before. -/
def Spoiled (l : DelayLine κ) : Prop :=
  ∃ front k j, front ++ [k] <+: l.told ∧ front ++ [j] <+: l.resolved ∧ j ≠ k

variable {l l' : DelayLine κ} {k : κ} {ks : List κ}

@[simp] theorem tell_nil (l : DelayLine κ) : l.tell [] = l := by simp [tell]

@[simp] theorem tell_tell (l : DelayLine κ) (ks ks' : List κ) :
    (l.tell ks).tell ks' = l.tell (ks ++ ks') := by simp [tell]

theorem Ordered.post (h : l.Ordered) (k : κ) : (l.post k).Ordered := by
  simp only [Ordered, DelayLine.post] at h ⊢
  rw [← List.append_assoc, h]

theorem Ordered.deliver (h : l.Ordered) : l.deliver.Ordered := by
  unfold DelayLine.deliver
  split
  · exact h
  · rename_i k rest hposted
    rw [Ordered, hposted] at h
    simp only [Ordered]
    rw [List.append_assoc, List.singleton_append, h]

theorem Ordered.tell (h : l.Ordered) (hk : l.posted = [] ∨ ks = []) : (l.tell ks).Ordered := by
  rcases hk with hposted | rfl
  · rw [Ordered, hposted, List.append_nil] at h
    simp [Ordered, DelayLine.tell, hposted, h]
  · rwa [tell_nil]

theorem Ordered.told_prefix (h : l.Ordered) : l.told <+: l.resolved := ⟨l.posted, h⟩

/-- A new item is told at once while something is posted. -/
theorem Ordered.spoiled (h : l.Ordered) (hposted : l.posted ≠ []) (hk : k ∉ l.resolved)
    (ks : List κ) : (l.tell (k :: ks)).Spoiled := by
  obtain ⟨j, rest, hj⟩ := List.exists_cons_of_ne_nil hposted
  rw [Ordered, hj] at h
  refine ⟨l.told, k, j, ?_, ?_, ?_⟩
  · exact ⟨ks, by simp [DelayLine.tell]⟩
  · exact ⟨rest ++ k :: ks, by simp [DelayLine.tell, ← h]⟩
  · rintro rfl
    exact hk (h ▸ List.mem_append_right _ List.mem_cons_self)

theorem Spoiled.mono (h : l.Spoiled) (htold : l.told <+: l'.told)
    (hresolved : l.resolved <+: l'.resolved) : l'.Spoiled := by
  obtain ⟨front, k, j, hk, hj, hne⟩ := h
  exact ⟨front, k, j, hk.trans htold, hj.trans hresolved, hne⟩

/-- What is told of a spoiled line is no beginning of what it resolves in the end. -/
theorem Spoiled.not_prefix (h : l.Spoiled) (hresolved : l.resolved <+: ks) :
    ¬l.told <+: ks := by
  obtain ⟨front, k, j, hk, hj, hne⟩ := h
  intro htold
  -- two prefixes of one length of one list are equal
  have heq := List.prefix_of_prefix_length_le (hj.trans hresolved) (hk.trans htold) (by simp)
  obtain ⟨rest, hrest⟩ := heq
  simp only [List.append_assoc, List.append_cancel_left_eq, List.cons_append,
    List.cons.injEq] at hrest
  exact hne hrest.1

/-! ### One step of a line -/

/-- A step goes on in order up to the items that it tells at once, and `ok` says whether
these overtake nothing. -/
def Passes (ok : Prop) (l l' : DelayLine κ) : Prop :=
  ∃ (m : DelayLine κ) (ks : List κ), (l.Ordered → m.Ordered) ∧ l' = m.tell ks ∧
    (ok ↔ m.posted = [] ∨ ks = [])

variable {ok : Prop}

theorem Passes.same (h : l' = l) (hok : ok) : Passes ok l l' :=
  ⟨l, [], id, by rw [h, tell_nil], by simp [hok]⟩

theorem Passes.ordered (h : Passes ok l l') (hl : l.Ordered) (hok : ok) : l'.Ordered := by
  obtain ⟨m, ks, hm, rfl, hiff⟩ := h
  exact (hm hl).tell (hiff.1 hok)

theorem Passes.spoiled (h : Passes ok l l') (hl : l.Ordered) (hok : ¬ok)
    (hnodup : l'.resolved.Nodup) : l'.Spoiled := by
  obtain ⟨m, ks, hm, rfl, hiff⟩ := h
  obtain ⟨hposted, hks⟩ := not_or.1 (mt hiff.2 hok)
  obtain ⟨k, rest, rfl⟩ := List.exists_cons_of_ne_nil hks
  refine (hm hl).spoiled hposted (fun hk => ?_) rest
  exact List.disjoint_of_nodup_append hnodup hk List.mem_cons_self

end DelayLine

end Neubau.Stream
