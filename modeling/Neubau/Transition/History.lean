import Mathlib.Tactic

/-! Histories that grow at their end. A rule says which entry may follow which
history. What the rule asks for held of every entry when it was added, so that a
rule for calls that excludes an earlier call lets one call happen at most, and one
that excludes an entry lets no call happen behind that entry. -/

namespace Neubau.Transition

variable {α : Type*} {ok : List α → α → Prop} {history before after : List α} {e : α}

/-- Every entry was allowed after those before it. -/
inductive History (ok : List α → α → Prop) : List α → Prop
  | nil : History ok []
  | snoc {history : List α} {e : α} :
      History ok history → ok history e → History ok (history ++ [e])

namespace History

/-- An entry anywhere in a history. -/
theorem entry (h : History ok history) (hsplit : history = before ++ e :: after) :
    ok before e := by
  induction h generalizing after with
  | nil => exact absurd hsplit (by simp)
  | snoc _ hok ih =>
    rcases List.eq_nil_or_concat after with rfl | ⟨rest, last, rfl⟩
    · obtain ⟨rfl, hlast⟩ := List.append_inj' hsplit rfl
      obtain rfl := List.singleton_inj.1 hlast
      exact hok
    · rw [List.concat_eq_append, ← List.cons_append, ← List.append_assoc] at hsplit
      exact ih (List.append_inj' hsplit rfl).1

variable {call : α → Bool}

/-- A call that finds no call before it happens at most once. -/
theorem once (hcall : ∀ before e, call e = true → ok before e → ∀ e' ∈ before, call e' = false)
    (h : History ok history) : history.countP call ≤ 1 := by
  induction h with
  | nil => simp
  | @snoc history e _ hok ih =>
    rw [List.countP_append, List.countP_singleton]
    split_ifs with he
    · have hnone : history.countP call = 0 := by
        rw [List.countP_eq_zero]
        intro e' he'
        simp [hcall history e he hok e' he']
      omega
    · exact ih

/-- A call that finds some entry missing does not happen behind it. -/
theorem never_after {stop : α} (hcall : ∀ before e, call e = true → ok before e → stop ∉ before)
    (h : History ok history) (hsplit : history = before ++ stop :: after) :
    ∀ e ∈ after, call e = false := by
  intro e he
  obtain ⟨front, back, rfl⟩ := List.append_of_mem he
  rw [← List.cons_append, ← List.append_assoc] at hsplit
  have hok := h.entry hsplit
  cases hc : call e with
  | false => rfl
  | true => exact absurd (by simp) (hcall _ e hc hok)

end History

end Neubau.Transition
