import Mathlib.Tactic

/-! Actions that are left to be done, one after the other. A contract says of each
action what has to hold before it and how the state behind it, when the action and
all it brings are done, is related to the state before. A list of actions ensures a
condition if each action finds what it needs, whatever the actions ahead of it did
within their contracts. Running the first action, and entering anew while an action
waits for code outside, both keep what the list ensures. -/

namespace Neubau.Transition

/-- What an action needs, and what it does from its start to its end. -/
structure Contract (σ α : Type*) where
  pre : α → σ → Prop
  post : α → σ → σ → Prop

namespace Contract

variable {σ α : Type*} (C : Contract σ α)

/-- From `s` the actions can be done in turn, and `Q` holds at the end. -/
def Ensures : σ → List α → (σ → Prop) → Prop
  | s, [], Q => Q s
  | s, a :: rest, Q => C.pre a s ∧ ∀ t, C.post a s t → Ensures t rest Q

variable {C} {s t : σ} {a : α} {rest new : List α} {Q R : σ → Prop}

theorem Ensures.imp (h : C.Ensures s rest Q) (hQ : ∀ t, Q t → R t) : C.Ensures s rest R := by
  induction rest generalizing s with
  | nil => exact hQ s h
  | cons a rest ih => exact ⟨h.1, fun t ht => ih (h.2 t ht)⟩

theorem Ensures.append (h : C.Ensures s new fun t => C.Ensures t rest Q) :
    C.Ensures s (new ++ rest) Q := by
  induction new generalizing s with
  | nil => exact h
  | cons a new ih => exact ⟨h.1, fun t ht => ih (h.2 t ht)⟩

/-- The first action turns into others that together keep its contract. -/
theorem Ensures.run (h : C.Ensures s (a :: rest) Q) (hnew : C.Ensures t new (C.post a s)) :
    C.Ensures t (new ++ rest) Q :=
  Ensures.append (hnew.imp fun u hu => h.2 u hu)

/-- While the first action waits, others come ahead of it. -/
theorem Ensures.enter (h : C.Ensures s (a :: rest) Q)
    (hnew : C.Ensures t new fun u => C.pre a u ∧ ∀ v, C.post a u v → C.post a s v) :
    C.Ensures t (new ++ a :: rest) Q :=
  Ensures.append (hnew.imp fun _ hu => ⟨hu.1, fun v hv => h.2 v (hu.2 v hv)⟩)

end Contract

end Neubau.Transition
