import Neubau.Modbus.Identifier

/-! An identifier goes on, one exchange after the other, until it calls its
result; once it is finished or cancelled it calls nobody. -/

namespace Neubau.Modbus

open Neubau.Common

namespace Identifier

/-- Neither finished nor cancelled. -/
structure Open (i : Identifier) : Prop where
  finished : i.finished = false
  hasResult : i.hasResult = true

/-- A callback of an open identifier leaves it open or ends in its result. -/
def Advances (p : Identifier × Next) : Prop :=
  (∃ thing, p.2 = .result thing ∧ p.1.finished = true) ∨
    ((∀ thing, p.2 ≠ .result thing) ∧ p.1.Open)

theorem complete_advances {i : Identifier} (h : i.Open) (thing : Option ModbusThing) :
    Advances (i.complete thing) := by
  refine .inl ⟨thing, ?_, ?_⟩ <;> simp [complete, h.finished, h.hasResult]

theorem requestMei_advances {i : Identifier} (h : i.Open) : Advances i.requestMei :=
  .inr ⟨nofun, h.finished, h.hasResult⟩

theorem requestFallback_advances {i : Identifier} (h : i.Open) : Advances i.requestFallback :=
  .inr ⟨nofun, h.finished, h.hasResult⟩

/-- What holds of every result of a read holds of the reads that follow it. -/
theorem forall_mem_bind {α β : Type} {P : β → Prop} {x : Option α} {f : α → Option β}
    (h : ∀ a, ∀ b ∈ f a, P b) : ∀ b ∈ x >>= f, P b := by
  intro b hb
  obtain ⟨a, -, ha⟩ := Option.bind_eq_some_iff.1 hb
  exact h a b ha

theorem forall_mem_pure {β : Type} {P : β → Prop} {b : β} (h : P b) :
    ∀ c ∈ (pure b : Option β), P c := by
  intro c hc
  cases hc
  exact h

theorem onMeiPdu_advances {i : Identifier} (h : i.Open) (pdu : Bytes) :
    ∀ p ∈ i.onMeiPdu pdu, Advances p := by
  unfold onMeiPdu
  apply forall_mem_bind
  intro function
  split_ifs
  · exact forall_mem_pure (complete_advances (by exact ⟨h.finished, h.hasResult⟩) _)
  · exact forall_mem_pure (requestFallback_advances h)
  · exact forall_mem_pure (requestFallback_advances h)
  apply forall_mem_bind
  intro request
  split_ifs
  · exact forall_mem_pure (requestFallback_advances h)
  refine forall_mem_bind fun more => forall_mem_bind fun next => forall_mem_bind fun count =>
    forall_mem_bind fun page => ?_
  obtain ⟨objects, whole⟩ := page
  dsimp only
  split_ifs
  · exact forall_mem_pure (requestFallback_advances ⟨h.finished, h.hasResult⟩)
  · exact forall_mem_pure (requestMei_advances ⟨h.finished, h.hasResult⟩)
  · exact forall_mem_pure (complete_advances (by exact ⟨h.finished, h.hasResult⟩) _)

theorem onFallbackPdu_advances {i : Identifier} (h : i.Open) (pdu : Bytes) :
    ∀ p ∈ i.onFallbackPdu pdu, Advances p := by
  unfold onFallbackPdu
  apply forall_mem_bind
  intro function
  split_ifs
  · exact forall_mem_pure (complete_advances h _)
  · exact forall_mem_bind fun code =>
      forall_mem_pure (complete_advances (by exact ⟨h.finished, h.hasResult⟩) _)
  · exact forall_mem_pure (complete_advances h none)

theorem getD_advances {i : Identifier} (h : i.Open) {x : Option (Identifier × Next)}
    (hx : ∀ p ∈ x, Advances p) : Advances (x.getD (i, .nothing)) := by
  cases x with
  | none => exact .inr ⟨nofun, h⟩
  | some p => exact hx p rfl

theorem onMei_advances {i : Identifier} (h : i.Open) (response : Option Bytes) :
    Advances (i.onMei response) := by
  have ho : Open { i with exchange := none } := ⟨h.finished, h.hasResult⟩
  unfold onMei
  dsimp only
  rw [if_neg (by rw [h.finished]; exact Bool.false_ne_true)]
  cases response with
  | none => exact requestFallback_advances ho
  | some response =>
    dsimp only
    split_ifs
    · exact requestFallback_advances ho
    · exact getD_advances ho (onMeiPdu_advances ho _)

theorem onFallback_advances {i : Identifier} (h : i.Open) (response : Option Bytes) :
    Advances (i.onFallback response) := by
  have ho : Open { i with exchange := none } := ⟨h.finished, h.hasResult⟩
  unfold onFallback
  dsimp only
  rw [if_neg (by rw [h.finished]; exact Bool.false_ne_true)]
  cases response with
  | none => exact complete_advances ho none
  | some response =>
    dsimp only
    split_ifs
    · exact complete_advances ho none
    · exact getD_advances ho (onFallbackPdu_advances ho _)

/-- The end of an exchange, whatever came, moves an open identifier on. -/
theorem exchangeFinished_advances {i : Identifier} (h : i.Open) (response : Option Bytes) :
    Advances (i.exchangeFinished response) := by
  unfold exchangeFinished
  split
  · exact .inr ⟨nofun, h⟩
  · split
    · exact onMei_advances h response
    · exact onFallback_advances h response

/-- A finished identifier calls nobody. -/
theorem exchangeFinished_of_finished {i : Identifier} (h : i.finished = true)
    (response : Option Bytes) : (i.exchangeFinished response).2 = .nothing ∧
      (i.exchangeFinished response).1.finished = true := by
  unfold exchangeFinished
  split
  · exact ⟨rfl, h⟩
  · split <;> simp [onMei, onFallback, h]

end Identifier

end Neubau.Modbus
