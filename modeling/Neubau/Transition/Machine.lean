import Mathlib.Tactic

/-! Machines driven by events. A machine has initial states, says which events
are enabled in a state and computes the state each of them leads to. What holds
initially and is kept by every enabled event holds in every reachable state;
what every enabled event relates holds between the ends of every run, and a rank
that every enabled event lowers bounds the run. A machine
restricted by a condition on its steps reaches only states the machine reaches. -/

namespace Neubau.Transition

structure Machine (σ ε : Type*) where
  init : σ → Prop
  enabled : σ → ε → Prop
  next : σ → ε → σ

namespace Machine

variable {σ ε : Type*} {M : Machine σ ε}

/-- `Run M s es t`: the events `es` are enabled one after the other from `s`
and lead to `t`. -/
inductive Run (M : Machine σ ε) : σ → List ε → σ → Prop
  | nil (s : σ) : Run M s [] s
  | cons {s t : σ} {e : ε} {es : List ε} :
      M.enabled s e → Run M (M.next s e) es t → Run M s (e :: es) t

inductive Reachable (M : Machine σ ε) : σ → Prop
  | init {s : σ} : M.init s → Reachable M s
  | next {s : σ} {e : ε} : Reachable M s → M.enabled s e → Reachable M (M.next s e)

/-- An invariant of the machine: true initially and kept by every step. -/
structure Invariant (M : Machine σ ε) (P : σ → Prop) : Prop where
  init : ∀ s, M.init s → P s
  next : ∀ s e, P s → M.enabled s e → P (M.next s e)

theorem Invariant.reachable {P : σ → Prop} (h : M.Invariant P) {s : σ} (hs : M.Reachable s) :
    P s := by
  induction hs with
  | init hi => exact h.init _ hi
  | next _ he ih => exact h.next _ _ ih he

theorem Reachable.run {s t : σ} {es : List ε} (hs : M.Reachable s) (hr : M.Run s es t) :
    M.Reachable t := by
  induction hr with
  | nil => exact hs
  | cons he _ ih => exact ih (hs.next he)

/-- Where every event is enabled, every list of events is a run. -/
theorem Run.foldl (h : ∀ s e, M.enabled s e) (s : σ) (es : List ε) :
    M.Run s es (es.foldl M.next s) := by
  induction es generalizing s with
  | nil => exact .nil s
  | cons e es ih => exact .cons (h s e) (ih (M.next s e))

theorem Reachable.foldl (h : ∀ s e, M.enabled s e) {s : σ} (hs : M.Reachable s) (es : List ε) :
    M.Reachable (es.foldl M.next s) :=
  hs.run (.foldl h s es)

/-- A state property kept by every step is kept by every run. -/
theorem Run.keeps {P : σ → Prop} (h : ∀ s e, P s → M.enabled s e → P (M.next s e))
    {s t : σ} {es : List ε} (hr : M.Run s es t) (hs : P s) : P t := by
  induction hr with
  | nil => exact hs
  | cons he _ ih => exact ih (h _ _ hs he)

/-- A rank that every step lowers bounds the length of every run. -/
theorem Run.ranked {R : σ → ℕ → Prop}
    (h : ∀ s e m, R s m → M.enabled s e → ∃ m' < m, R (M.next s e) m')
    {s t : σ} {es : List ε} (hr : M.Run s es t) {m : ℕ} (hs : R s m) :
    ∃ m', R t m' ∧ es.length + m' ≤ m := by
  induction hr generalizing m with
  | nil => exact ⟨m, hs, by simp⟩
  | cons he _ ih =>
    obtain ⟨m₁, hlt, h₁⟩ := h _ _ m hs he
    obtain ⟨m₂, h₂, hle⟩ := ih h₁
    exact ⟨m₂, h₂, by rw [List.length_cons]; omega⟩

/-- Whether the events are a run from the state. -/
def runs (M : Machine σ ε) [∀ s e, Decidable (M.enabled s e)] : σ → List ε → Bool
  | _, [] => true
  | s, e :: es => decide (M.enabled s e) && M.runs (M.next s e) es

theorem run_of_runs [∀ s e, Decidable (M.enabled s e)] {s : σ} {es : List ε}
    (h : M.runs s es = true) : M.Run s es (es.foldl M.next s) := by
  induction es generalizing s with
  | nil => exact .nil s
  | cons e es ih =>
    rw [runs, Bool.and_eq_true, decide_eq_true_eq] at h
    exact .cons h.1 (ih h.2)

/-- The machine that takes only the steps meeting `ok`. -/
def restrict (M : Machine σ ε) (ok : σ → ε → Prop) : Machine σ ε where
  init := M.init
  enabled s e := M.enabled s e ∧ ok s e
  next := M.next

theorem Reachable.of_restrict {ok : σ → ε → Prop} {s : σ} (hs : (M.restrict ok).Reachable s) :
    M.Reachable s := by
  induction hs with
  | init hi => exact .init hi
  | next _ he ih => exact ih.next he.1

/-- A property that follows, step by step, whether all steps so far met `ok`, tells of
every run whether it is one of the restricted machine. -/
theorem Run.tracks {ok : σ → ε → Prop} {P : Prop → σ → Prop}
    (h : ∀ q s e, P q s → M.enabled s e → P (q ∧ ok s e) (M.next s e))
    {s t : σ} {es : List ε} (hr : M.Run s es t) {q : Prop} (hs : P q s) :
    P (q ∧ (M.restrict ok).Run s es t) t := by
  induction hr generalizing q with
  | nil s =>
    have hq : (q ∧ (M.restrict ok).Run s [] s) = q :=
      propext ⟨And.left, fun hq => ⟨hq, .nil s⟩⟩
    rwa [hq]
  | @cons s t e es he _ ih =>
    have hq : (q ∧ (M.restrict ok).Run s (e :: es) t) =
        ((q ∧ ok s e) ∧ (M.restrict ok).Run (M.next s e) es t) := by
      refine propext ⟨fun ⟨hq, hrun⟩ => ?_, fun ⟨⟨hq, hok⟩, hrun⟩ => ⟨hq, .cons ⟨he, hok⟩ hrun⟩⟩
      cases hrun with
      | cons he' hrest => exact ⟨⟨hq, he'.2⟩, hrest⟩
    rw [hq]
    exact ih (h _ _ _ hs he)

/-- A step that misses `ok` spoils the end of every run, and the other steps keep what
makes the end good: a run ends well exactly if it is one of the restricted machine. -/
theorem Run.restrict_iff {ok : σ → ε → Prop} {P Q : σ → Prop}
    (hkeep : ∀ s e, P s → M.enabled s e → ok s e → P (M.next s e))
    (hspoil : ∀ s e es t, P s → M.enabled s e → ¬ok s e → M.Run (M.next s e) es t → ¬Q t)
    (hgood : ∀ s, P s → Q s) {s t : σ} {es : List ε} (hr : M.Run s es t) (hs : P s) :
    Q t ↔ (M.restrict ok).Run s es t := by
  constructor
  · intro ht
    induction hr with
    | nil s => exact .nil s
    | @cons s t e es he hrest ih =>
      by_cases hok : ok s e
      · exact .cons ⟨he, hok⟩ (ih (hkeep s e hs he hok) ht)
      · exact absurd ht (hspoil s e es t hs he hok hrest)
  · intro hrun
    have hkept : ∀ s e, P s → (M.restrict ok).enabled s e → P (M.next s e) :=
      fun s e h he => hkeep s e h he.1 he.2
    exact hgood t (hrun.keeps hkept hs)

/-- A condition that every step meets restricts nothing. -/
theorem Reachable.restrict {ok : σ → ε → Prop} (h : ∀ s e, ok s e) {s : σ} (hs : M.Reachable s) :
    (M.restrict ok).Reachable s := by
  induction hs with
  | init hi => exact .init hi
  | next _ he ih => exact ih.next ⟨he, h _ _⟩

end Machine

end Neubau.Transition
