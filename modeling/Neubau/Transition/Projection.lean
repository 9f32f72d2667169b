import Neubau.Transition.Machine

/-! Machines put together from others. A part sees of every step of the whole at
most one step of its own; so what holds of every reachable state of the part, holds
of the part in every reachable state of the whole. -/

namespace Neubau.Transition.Machine

variable {σ ε τ δ : Type*} {M : Machine σ ε} {N : Machine τ δ} {f : σ → τ}

/-- `f` picks a part of a state of `M` that goes along as a state of `N`. -/
structure Sees (M : Machine σ ε) (N : Machine τ δ) (f : σ → τ) : Prop where
  init : ∀ s, M.init s → N.Reachable (f s)
  next : ∀ s e, M.Reachable s → M.enabled s e →
    f (M.next s e) = f s ∨ ∃ d, N.enabled (f s) d ∧ f (M.next s e) = N.next (f s) d

theorem Sees.reachable (h : Sees M N f) {s : σ} (hs : M.Reachable s) : N.Reachable (f s) := by
  induction hs with
  | init hi => exact h.init _ hi
  | @next s e hs he ih =>
    rcases h.next s e hs he with heq | ⟨d, hd, heq⟩
    · rwa [heq]
    · rw [heq]
      exact ih.next hd

/-- What the part keeps. -/
theorem Sees.invariant (h : Sees M N f) {P : τ → Prop} (hP : N.Invariant P) {s : σ}
    (hs : M.Reachable s) : P (f s) :=
  hP.reachable (h.reachable hs)

/-- A property that a step keeps where it starts in a reachable state. -/
theorem Reachable.keeps {P : σ → Prop} (hinit : ∀ s, M.init s → P s)
    (hnext : ∀ s e, M.Reachable s → P s → M.enabled s e → P (M.next s e)) {s : σ}
    (hs : M.Reachable s) : P s := by
  induction hs with
  | init hi => exact hinit _ hi
  | next hs he ih => exact hnext _ _ hs ih he

end Neubau.Transition.Machine
