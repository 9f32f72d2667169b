import Neubau.Sunspec.Sweeping

/-! A scan that walks, or has ended, probes no unit any more: no event changes
the unit it was at, and none leads back to the sweep. -/

namespace Neubau.Sunspec

open Neubau.Modbus.Session (Registers)

variable {c : Config} {a : Answers}

namespace ScanState

variable {s : ScanState} {k : ℕ} {unitId : UInt8} {commonLength : UInt16}

/-- The unit and the selected header are the same. -/
def SameUnit (s t : ScanState) : Prop :=
  t.unitIndex = s.unitIndex ∧ t.selectedHeader = s.selectedHeader

theorem Paused.readModelHeader_same (h : s.Paused c k unitId commonLength)
    (hchain : Chain c s.locations s.currentAddress) : SameUnit s (s.readModelHeader c) := by
  have hroom := hchain.room
  have hlimit := c.limit_le
  rw [h.readModelHeader_eq (by omega)]
  split_ifs with hin
  · rw [read_eq h.holds h.selectedHeader (by omega) (by omega)]
    exact ⟨rfl, rfl⟩
  · exact ⟨rfl, rfl⟩

theorem Paused.onModelHeader_same (h : s.Paused c k unitId commonLength)
    (hchain : Chain c s.locations s.currentAddress) (hcounted : s.Counted) (id length : UInt16) :
    SameUnit s (s.onModelHeader c a [id, length]) := by
  have hlimit := c.limit_le
  obtain ⟨hemit, hstray, hunfit, hempty, hpayload⟩ :=
    h.onModelHeader_eq (a := a) hchain hcounted id length
  by_cases hid : id = 0xffff
  · by_cases hz : length = 0
    · rw [hemit hid hz]
      exact ⟨rfl, rfl⟩
    · rw [hstray hid hz]
      exact ⟨rfl, rfl⟩
  by_cases hfits : s.Fits c length
  · by_cases hz : length = 0
    · rw [hempty hid hfits hz]
      have hp : Paused c { s.withModel id length with
        currentAddress := s.currentAddress + 2 + length.toNat } k unitId commonLength :=
          { h with }
      exact hp.readModelHeader_same (.model hchain hid hfits.1 hfits.2.1 hfits.2.2)
    · rw [hpayload hid hfits hz]
      have hp : Paused c (s.withModel id length) k unitId commonLength := { h with }
      have hpos : 0 < length.toNat := Nat.pos_of_ne_zero fun h0 => hz (UInt16.toNat_inj.1 h0)
      have hend := hfits.2.2
      rw [read_eq hp.holds hp.selectedHeader hpos (by omega)]
      exact ⟨rfl, rfl⟩
  · rw [hunfit hid hfits]
    exact ⟨rfl, rfl⟩

theorem Paused.succeed_same (h : s.Paused c k unitId commonLength) {success : ReadSuccess}
    {start count : ℕ} (hstage : s.Stage c commonLength success start count)
    (hend : start + count ≤ c.limit) {registers : Registers} (hlen : registers.length = count) :
    SameUnit s (s.succeed c a success registers) := by
  cases hstage with
  | common hloc hinst =>
    have hp : Paused c (s.withCommonModel commonLength registers) k unitId commonLength :=
      { h with }
    change SameUnit s (s.onCommonModel c registers commonLength.toNat)
    rw [h.onCommonModel_eq hloc hinst hlen]
    exact hp.readModelHeader_same (.common h.commonLength hend)
  | header hchain hcounted =>
    obtain ⟨id, length, rfl⟩ := List.length_eq_two.1 hlen
    exact h.onModelHeader_same hchain hcounted id length
  | payload hchain hcounted =>
    have hp : Paused c { s with currentAddress := start + count } k unitId commonLength :=
      { h with }
    change SameUnit s (s.onModelPayload c registers (start + count) count)
    rw [onModelPayload, if_neg (by simp [hlen])]
    exact hp.readModelHeader_same hchain

theorem Walking.reply_same {w : Walk} (h : s.Walking c w) (registers : Registers) :
    SameUnit s (s.onReply c a w.read registers) := by
  have hchunk := h.chunk_eq
  have hcollected := h.collected
  by_cases hlen : registers.length = w.current.chunk
  · rcases Nat.lt_or_eq_of_le (show w.current.chunk ≤ w.count - w.registers.length by omega) with
      hmore | hlast
    · rw [h.waits.onReply_more hlen hmore]
      exact ⟨rfl, rfl⟩
    · rw [h.reply_last hlen hlast]
      have hp := h.pause (r := (w.current.collect registers).close) rfl
      exact hp.succeed_same (h.stage.congr rfl rfl rfl) h.upper
        (by rw [List.length_append]; omega)
  · rw [h.waits.onReply_bad h.toOpen h.activeReader hlen]
    exact ⟨rfl, rfl⟩

/-- A scan that probes no unit any more. -/
def Settled (c : Config) (s : ScanState) : Prop := s.Over c ∨ ∃ w, s.Walking c w

theorem Settled.started (h : s.Settled c) : s.started = true := by
  rcases h with h | ⟨w, h⟩
  · exact h.started
  · exact h.started

theorem Settled.not_sweeping (h : s.Settled c) {n : ℕ} : ¬s.Sweeping c k n unitId := by
  intro hs
  rcases h with h | ⟨w, h⟩
  · exact Bool.false_ne_true (hs.finished.symm.trans h.finished)
  · exact absurd (hs.selectedHeader.symm.trans h.selectedHeader) nofun

/-- A phase with a selected header. -/
theorem Phase.settled (h : Phase c s) (hs : s.selectedHeader.isSome) : s.Settled c := by
  cases h with
  | idle h => rw [h] at hs; cases hs
  | sweeping h => simp [h.selectedHeader] at hs
  | walking h => exact .inr ⟨_, h⟩
  | ended h => exact .inl h

theorem Settled.step (h : s.Settled c) (e : Event) :
    (step c s e).Settled c ∧ (step c s e).unitIndex = s.unitIndex := by
  rcases h with h | ⟨w, h⟩
  · exact ⟨.inl (h.step e).1, (h.step e).2.2⟩
  have hphase := (Phase.walking h).step e
  have hsame : SameUnit s (Sunspec.step c s e) := by
    cases e with
    | startInLoop a => exact ⟨by simp [Sunspec.step, h.started], by simp [Sunspec.step, h.started]⟩
    | cancel =>
      change SameUnit s s.cancel
      rw [cancel_open h.toOpen h.cancelled]
      exact ⟨rfl, rfl⟩
    | reply n registers a =>
      change SameUnit s (s.onReply c a n registers)
      by_cases hn : n ∈ s.pending
      · rw [h.pending, List.mem_singleton] at hn
        exact hn ▸ h.reply_same registers
      · rw [onReply, if_neg hn]
        exact ⟨rfl, rfl⟩
    | failure n a =>
      change SameUnit s (s.onReadFailure c a n)
      by_cases hn : n ∈ s.pending
      · rw [h.pending, List.mem_singleton] at hn
        rw [hn, h.waits.onReadFailure h.toOpen]
        exact ⟨rfl, rfl⟩
      · rw [onReadFailure, if_neg hn]
        exact ⟨rfl, rfl⟩
  exact ⟨hphase.settled (by rw [hsame.2, h.selectedHeader]; rfl), hsame.1⟩

/-- An accepted header ends the sweep. -/
theorem Sweeping.header_settled {n : ℕ} (h : s.Sweeping c k n unitId)
    (hL : commonLength = 65 ∨ commonLength = 66) :
    (s.onReply c a n [0x5375, 0x6e53, 1, commonLength]).Settled c ∧
      (s.onReply c a n [0x5375, 0x6e53, 1, commonLength]).unitIndex = s.unitIndex := by
  have hp := h.paused hL
  have hlimit := c.limit_le
  have hphase := h.header_phase (a := a) hL
  have hpos : 0 < commonLength.toNat := by rcases hL with rfl | rfl <;> decide
  have hsame : SameUnit (s.accepts k unitId commonLength)
      (s.onReply c a n [0x5375, 0x6e53, 1, commonLength]) := by
    rw [h.onReply_header hL, hp.readCommonModel_eq]
    split_ifs with hin
    · rw [read_eq hp.holds hp.selectedHeader hpos (by omega)]
      exact ⟨rfl, rfl⟩
    · exact ⟨rfl, rfl⟩
  exact ⟨hphase.settled (by rw [hsame.2]; rfl), hsame.1⟩

end ScanState

end Neubau.Sunspec
