import Neubau.Sunspec.ScanSafety

/-! Quiet scans: over, or cancelled before their callback ran. A quiet scan stays
quiet and asks for no session, and the failure of a read does nothing to it.
Whatever happens to a scan, it goes on within its phases and, once it ends, tells
its observer of the end. -/

namespace Neubau.Sunspec

open Neubau.Common
open Neubau.Modbus.Session (Registers)

variable {c : Config} {s t : ScanState}

namespace ScanState

/-- Over, or cancelled before it started. -/
def Quiet (c : Config) (s : ScanState) : Prop := s.Over c ∨ (s.Idle ∧ s.cancelled = true)

/-- What every event of a scan keeps. -/
structure Advances (c : Config) (s t : ScanState) : Prop where
  phase : Phase c s → Phase c t
  ended : s.Over c → t.Over c
  quiet : s.Quiet c → t.Quiet c

theorem Advances.refl (s : ScanState) : Advances c s s := ⟨id, id, id⟩

theorem Advances.trans {u : ScanState} (h₁ : Advances c s t) (h₂ : Advances c t u) :
    Advances c s u :=
  ⟨h₂.phase ∘ h₁.phase, h₂.ended ∘ h₁.ended, h₂.quiet ∘ h₁.quiet⟩

/-- A scan that was cancelled before it started ends when it starts. -/
theorem Idle.step_cancelled (h : s.Idle) (hc : s.cancelled = true) (e : Event) :
    (step c s e = s) ∨ (∃ a, e = .startInLoop a ∧ (step c s e).Over c ∧
      (step c s e).log = [.finished, .onCompleted]) := by
  rw [Idle, hc] at h
  subst h
  cases e with
  | startInLoop a => exact .inr ⟨a, rfl, idle_cancelled_over (a := a), rfl⟩
  | reply n registers a => exact .inl rfl
  | failure n a => exact .inl rfl
  | cancel => exact .inl rfl

theorem Quiet.step (h : s.Quiet c) (e : Event) : (Sunspec.step c s e).Quiet c := by
  rcases h with h | ⟨hidle, hc⟩
  · exact .inl (h.step e).1
  · rcases hidle.step_cancelled (c := c) hc e with heq | ⟨a, -, hover, -⟩
    · rw [heq]
      exact .inr ⟨hidle, hc⟩
    · exact .inl hover

theorem step_advances (s : ScanState) (e : Event) : Advances c s (step c s e) :=
  ⟨fun h => h.step e, fun h => (h.step e).1, fun h => h.step e⟩

/-- The failure of a read does nothing to a quiet scan. -/
theorem Quiet.failure_log (h : s.Quiet c) (n : ℕ) (a : Answers) :
    (Sunspec.step c s (.failure n a)).log = s.log := by
  rcases h with h | ⟨hidle, hc⟩
  · exact (h.step _).2.1
  · rcases hidle.step_cancelled (c := c) hc (.failure n a) with heq | ⟨_, heq, -⟩
    · rw [heq]
    · cases heq

/-- A quiet scan asks for no session. -/
theorem Quiet.step_replacements (h : s.Quiet c) (e : Event) :
    (Sunspec.step c s e).log.count .replacementFactory = s.log.count .replacementFactory := by
  rcases h with h | ⟨hidle, hc⟩
  · rw [(h.step e).2.1]
  · rcases hidle.step_cancelled (c := c) hc e with heq | ⟨_, -, -, hlog⟩
    · rw [heq]
    · rw [hlog, hidle.log_eq.1]
      rfl

/-- A scan that is cancelled is quiet. -/
theorem Phase.cancel_quiet (h : Phase c s) : s.cancel.Quiet c := by
  cases h with
  | idle h =>
    rw [Idle] at h
    rw [h]
    cases s.cancelled <;> exact .inr ⟨rfl, rfl⟩
  | sweeping h =>
    rw [cancel_open h.toOpen h.cancelled]
    exact .inl ((h.over .completed).withCancelled true)
  | walking h =>
    rw [cancel_open h.toOpen h.cancelled]
    exact .inl ((h.over .completed).withCancelled true)
  | ended h => exact .inl (h.step .cancel).1

end ScanState

end Neubau.Sunspec
