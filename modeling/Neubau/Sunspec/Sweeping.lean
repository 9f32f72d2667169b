import Neubau.Sunspec.Walks

/-! What a sweep does at each of its callbacks: it probes the next unit, over a
new session if the one it has is closed, or starts the walk, or ends the scan.
With it, every event of the machine moves between the phases of a scan. -/

namespace Neubau.Sunspec

open Neubau.Common
open Neubau.Modbus.Session (Registers)

variable {c : Config} {a : Answers}

theorem length_unitIds : unitIds.length = 247 := by decide +kernel

theorem mem_unitIds {unitId : UInt8} (hlo : 1 ≤ unitId) (hhi : unitId ≤ 247) :
    unitId ∈ unitIds := by
  -- evaluated on numbers, which the kernel compares at once
  have hall : ((List.range' 1 247).all fun i =>
      (unitIds.map UInt8.toNat).any (Nat.beq i)) = true := by decide +kernel
  rw [UInt8.le_iff_toNat_le] at hlo hhi
  have hrange : unitId.toNat ∈ List.range' 1 247 := by
    rw [List.mem_range'_1]
    exact ⟨hlo, Nat.lt_succ_of_le hhi⟩
  obtain ⟨n, hn, heq⟩ := List.any_eq_true.1 (List.all_eq_true.1 hall _ hrange)
  obtain ⟨u, hu, rfl⟩ := List.mem_map.1 hn
  rw [UInt8.toNat_inj.1 (Nat.eq_of_beq_eq_true heq)]
  exact hu

/-- A list of 247 ids that has each of 1 to 247 has each once. -/
theorem unitIds_nodup : unitIds.Nodup := by
  have hsub : Finset.image UInt8.ofNat (Finset.Icc 1 247) ⊆ unitIds.toFinset := by
    intro unitId hmem
    obtain ⟨n, hn, rfl⟩ := Finset.mem_image.1 hmem
    rw [Finset.mem_Icc] at hn
    have hnat : (UInt8.ofNat n).toNat = n := UInt8.toNat_ofNat_of_lt' (show n < 256 by omega)
    refine List.mem_toFinset.2 (mem_unitIds ?_ ?_)
    · rw [UInt8.le_iff_toNat_le, hnat]
      exact hn.1
    · rw [UInt8.le_iff_toNat_le, hnat]
      exact hn.2
  have hcard : (Finset.image UInt8.ofNat (Finset.Icc 1 247)).card = 247 := by
    refine (Finset.card_image_of_injOn fun n hn m hm heq => ?_).trans (Nat.card_Icc 1 247)
    rw [Finset.mem_coe, Finset.mem_Icc] at hn hm
    have hnat := congrArg UInt8.toNat heq
    rwa [UInt8.toNat_ofNat_of_lt' (show n < 256 by omega),
      UInt8.toNat_ofNat_of_lt' (show m < 256 by omega)] at hnat
  have hle := Finset.card_le_card hsub
  have hlength := length_unitIds
  have heq : unitIds.toFinset.card = unitIds.length :=
    le_antisymm (List.toFinset_card_le _) (by omega)
  exact Multiset.toFinset_card_eq_card_iff_nodup.1 heq

/-- The headers a scan accepts. -/
theorem isSunspecHeader_iff {registers : Registers} :
    isSunspecHeader registers = true ↔ ∃ commonLength : UInt16,
      (commonLength = 65 ∨ commonLength = 66) ∧
        registers = [0x5375, 0x6e53, 1, commonLength] := by
  constructor
  · intro h
    match registers with
    | [r₀, r₁, r₂, r₃] =>
      simp only [isSunspecHeader, isSunspecSignature] at h
      refine ⟨r₃, ?_⟩
      simp_all
    | [] | [_] | [_, _] | [_, _, _] | _ :: _ :: _ :: _ :: _ :: _ =>
      simp [isSunspecHeader] at h
  · rintro ⟨commonLength, rfl | rfl, rfl⟩ <;> rfl

namespace ScanState

variable {s : ScanState} {k n : ℕ} {unitId : UInt8}

/-! ### Probes -/

/-- Every unit was probed. -/
theorem Unselected.probeNextUnit_last (h : s.Unselected k) (hfixed : c.fixedUnitId = none)
    (hlast : s.unitIndex = unitIds.length) : s.probeNextUnit c = s.ended [.onCompleted] := by
  unfold probeNextUnit
  rw [if_neg (by simp [h.finished]), if_pos ⟨hfixed, hlast⟩, complete_open h.toOpen]

theorem Unselected.probeNextUnit_next (h : s.Unselected k) {unitId : UInt8}
    (hunit : s.currentUnit c = some unitId) :
    s.probeNextUnit c = s.readHoldingRegisters (probeCall k unitId) := by
  have hmore : ¬(c.fixedUnitId = none ∧ s.unitIndex = unitIds.length) := by
    rintro ⟨hfixed, hlast⟩
    simp [currentUnit, hfixed, hlast] at hunit
  rw [currentUnit] at hunit
  simp only [probeNextUnit, h.finished, if_neg hmore, h.holds, hunit]
  rfl

/-- The probe of the current unit is sent to the session. -/
theorem Unselected.sweeping (h : s.Unselected k) (hpending : s.pending = [])
    (hunit : s.currentUnit c = some unitId) :
    (s.probeNextUnit c).Sweeping c k s.reads.length unitId := by
  rw [h.probeNextUnit_next hunit]
  exact
    { h with
      log := h.log.append trivial nofun
      pending := by simp [readHoldingRegisters, tell, hpending]
      call := List.getElem?_concat_length
      unit := hunit }

theorem currentUnit_eq_none (h : s.currentUnit c = none) (hindex : s.unitIndex ≤ unitIds.length) :
    c.fixedUnitId = none ∧ s.unitIndex = unitIds.length := by
  unfold currentUnit at h
  cases hf : c.fixedUnitId with
  | some u => simp [hf] at h
  | none =>
    rw [hf] at h
    have hnone : unitIds[s.unitIndex]? = none := h
    exact ⟨rfl, Nat.le_antisymm hindex (List.getElem?_eq_none_iff.1 hnone)⟩

theorem Unselected.probeNextUnit_phase (h : s.Unselected k) (hpending : s.pending = []) :
    Phase c (s.probeNextUnit c) := by
  cases hunit : s.currentUnit c with
  | some unitId => exact .sweeping (h.sweeping hpending hunit)
  | none =>
    obtain ⟨hfixed, hlast⟩ := currentUnit_eq_none hunit h.index
    rw [h.probeNextUnit_last hfixed hlast]
    exact .ended (h.over .completed)

/-! ### Sessions -/

/-- The scan with a session made in place of the closed one. -/
def replaced (s : ScanState) (session : ℕ) : ScanState :=
  { s.tell .replacementFactory with session := some session }

theorem Unselected.replaced (h : s.Unselected k) (session : ℕ) :
    (s.replaced session).Unselected session :=
  { h with
    holds := rfl
    log := h.log.append trivial nofun }

/-- The factory makes a session, or the scan fails. -/
theorem replaceClosedSession_eq (h : s.Open) :
    (∃ session, a.replacement = .session session ∧
      s.replaceClosedSession a = (s.replaced session, true)) ∨
    (∀ session, a.replacement ≠ .session session) ∧
      ∃ error, s.replaceClosedSession a =
        ((s.tell .replacementFactory).ended [.onError error], false) := by
  have hopen : (s.tell .replacementFactory).Open := ⟨h.1, h.2, h.3, h.4, h.5, h.6⟩
  unfold replaceClosedSession
  cases hmade : a.replacement with
  | session session => exact .inl ⟨session, rfl, rfl⟩
  | throws error => exact .inr ⟨nofun, error, by simp only [fail_open hopen]⟩
  | null => exact .inr ⟨nofun, _, by simp only [fail_open hopen]; rfl⟩

theorem Unselected.tell (h : s.Unselected k) : (s.tell .replacementFactory).Unselected k :=
  { h with log := h.log.append trivial nofun }

/-! ### Replies and failures -/

theorem Sweeping.idle (h : s.Sweeping c k n unitId) :
    Unselected { s with pending := [] } k := { h with }

theorem Sweeping.index_lt (h : s.Sweeping c k n unitId) (hfixed : c.fixedUnitId = none) :
    unitIds[s.unitIndex]? = some unitId ∧ s.unitIndex < unitIds.length := by
  have hunit : unitIds[s.unitIndex]? = some unitId := by
    have := h.unit
    rwa [currentUnit, hfixed] at this
  exact ⟨hunit, (List.getElem?_eq_some_iff.1 hunit).1⟩

theorem Sweeping.onReply_eq (h : s.Sweeping c k n unitId) (registers : Registers) :
    s.onReply c a n registers =
      { s with pending := [] }.onProbeResponse c a unitId registers := by
  unfold onReply
  rw [if_pos (by simp [h.pending]), h.call]
  simp [h.pending, probeCall]

theorem Sweeping.onReadFailure_eq (h : s.Sweeping c k n unitId) :
    s.onReadFailure c a n = { s with pending := [] }.onProbeFailure c a := by
  unfold onReadFailure
  rw [if_pos (by simp [h.pending]), h.call]
  simp [h.pending, probeCall]

/-- The scan of the next unit. -/
def advanced (s : ScanState) (retryCurrentUnitOnClosed : Bool) : ScanState :=
  { s with unitIndex := s.unitIndex + 1, retryCurrentUnitOnClosed }

theorem Unselected.advanced (h : s.Unselected k) (hlt : s.unitIndex < unitIds.length) (b : Bool) :
    (s.advanced b).Unselected k :=
  { h with index := hlt }

/-- A header is accepted: the walk starts with the Common Model. -/
def accepts (s : ScanState) (session : ℕ) (unitId : UInt8) (commonLength : UInt16) : ScanState :=
  { s with
    pending := []
    selectedHeader := some { unitId, registers := [0x5375, 0x6e53, 1, commonLength] } }.tell
      (.accepted session unitId commonLength)

theorem Sweeping.onReply_header (h : s.Sweeping c k n unitId) {commonLength : UInt16}
    (hL : commonLength = 65 ∨ commonLength = 66) :
    s.onReply c a n [0x5375, 0x6e53, 1, commonLength] =
      (s.accepts k unitId commonLength).readCommonModel c := by
  have hheader : isSunspecHeader [0x5375, 0x6e53, 1, commonLength] = true :=
    isSunspecHeader_iff.2 ⟨commonLength, hL, rfl⟩
  rw [h.onReply_eq, onProbeResponse, if_neg (by simp [h.finished]), if_neg (by simp [hheader])]
  split
  · rename_i session length hs hl
    obtain rfl : session = k := Option.some_inj.1 (hs.symm.trans h.holds)
    obtain rfl : commonLength = length := Option.some_inj.1 hl
    rfl
  · rename_i hne
    exact absurd rfl (hne k commonLength h.holds)

theorem Sweeping.paused (h : s.Sweeping c k n unitId) {commonLength : UInt16}
    (hL : commonLength = 65 ∨ commonLength = 66) :
    (s.accepts k unitId commonLength).Paused c k unitId commonLength :=
  { h with
    selectedHeader := rfl
    commonLength := hL
    log := h.log.accept k unitId commonLength
    pending := rfl
    readers := fun r hr => by
      have hr' : r ∈ s.readers := hr
      rw [h.readers] at hr'
      cases hr' }

/-- A probe of the only unit that finds no header. -/
theorem Sweeping.onReply_fixed (h : s.Sweeping c k n unitId) {registers : Registers}
    (hr : isSunspecHeader registers = false) (hfixed : c.fixedUnitId.isSome) :
    s.onReply c a n registers = ended { s with pending := [] } [.onCompleted] := by
  rw [h.onReply_eq, onProbeResponse, if_neg (by simp [h.finished]), if_pos (by simp [hr]),
    if_pos hfixed, complete_open (by exact h.idle.toOpen)]

theorem Sweeping.onReply_open (h : s.Sweeping c k n unitId) {registers : Registers}
    (hr : isSunspecHeader registers = false) (hfixed : c.fixedUnitId = none)
    (hopen : a.isClosed = false) :
    s.onReply c a n registers = (advanced { s with pending := [] } true).probeNextUnit c := by
  rw [h.onReply_eq, onProbeResponse, if_neg (by simp [h.finished]), if_pos (by simp [hr]),
    if_neg (by simp [hfixed]), if_neg (by simp [hopen])]
  rfl

theorem Sweeping.onReply_closed (h : s.Sweeping c k n unitId) {registers : Registers}
    (hr : isSunspecHeader registers = false) (hfixed : c.fixedUnitId = none)
    (hclosed : a.isClosed = true) {session : ℕ} (hmade : a.replacement = .session session) :
    s.onReply c a n registers =
      ((replaced { s with pending := [] } session).advanced false).probeNextUnit c := by
  rw [h.onReply_eq, onProbeResponse, if_neg (by simp [h.finished]), if_pos (by simp [hr]),
    if_neg (by simp [hfixed]), if_pos hclosed]
  simp only [replaceClosedSession, hmade]
  rfl

theorem Sweeping.onReadFailure_fixed (h : s.Sweeping c k n unitId)
    (hfixed : c.fixedUnitId.isSome) :
    s.onReadFailure c a n = ended { s with pending := [] } [.onCompleted] := by
  rw [h.onReadFailure_eq, onProbeFailure, if_neg (by simp [h.finished]), if_pos hfixed,
    complete_open (by exact h.idle.toOpen)]

theorem Sweeping.onReadFailure_open (h : s.Sweeping c k n unitId) (hfixed : c.fixedUnitId = none)
    (hopen : a.isClosed = false) :
    s.onReadFailure c a n = (advanced { s with pending := [] } false).probeNextUnit c := by
  rw [h.onReadFailure_eq, onProbeFailure, if_neg (by simp [h.finished]), if_neg (by simp [hfixed]),
    if_neg (by simp [hopen])]
  rfl

/-- A probe that fails on a closed session is repeated, or the sweep goes on. -/
theorem Sweeping.onReadFailure_closed (h : s.Sweeping c k n unitId)
    (hfixed : c.fixedUnitId = none) (hclosed : a.isClosed = true) {session : ℕ}
    (hmade : a.replacement = .session session) :
    s.onReadFailure c a n =
      if s.retryCurrentUnitOnClosed then
        probeNextUnit c { replaced { s with pending := [] } session with
          retryCurrentUnitOnClosed := false }
      else ((replaced { s with pending := [] } session).advanced false).probeNextUnit c := by
  rw [h.onReadFailure_eq, onProbeFailure, if_neg (by simp [h.finished]), if_neg (by simp [hfixed]),
    if_pos hclosed]
  simp only [replaceClosedSession, hmade]
  rfl

/-- Without a session in place of the closed one the scan fails. -/
theorem Sweeping.unreplaced_eq (h : s.Sweeping c k n unitId) (hfixed : c.fixedUnitId = none)
    (hclosed : a.isClosed = true) (hmade : ∀ session, a.replacement ≠ .session session) :
    ∃ error, (∀ registers, isSunspecHeader registers = false → s.onReply c a n registers =
        (tell { s with pending := [] } .replacementFactory).ended [.onError error]) ∧
      s.onReadFailure c a n =
        (tell { s with pending := [] } .replacementFactory).ended [.onError error] := by
  obtain ⟨session, hs, -⟩ | ⟨-, error, hfail⟩ := replaceClosedSession_eq (a := a) h.idle.toOpen
  · exact absurd hs (hmade session)
  refine ⟨error, fun registers hr => ?_, ?_⟩
  · rw [h.onReply_eq, onProbeResponse, if_neg (by simp [h.finished]), if_pos (by simp [hr]),
      if_neg (by simp [hfixed]), if_pos hclosed, hfail]
  · rw [h.onReadFailure_eq, onProbeFailure, if_neg (by simp [h.finished]),
      if_neg (by simp [hfixed]), if_pos hclosed, hfail]

theorem Sweeping.unreplaced (h : s.Sweeping c k n unitId) (hfixed : c.fixedUnitId = none)
    (hclosed : a.isClosed = true) (hmade : ∀ session, a.replacement ≠ .session session) :
    (∀ registers, isSunspecHeader registers = false → (s.onReply c a n registers).Over c ∧
      (s.onReply c a n registers).unitIndex = s.unitIndex) ∧
    (s.onReadFailure c a n).Over c ∧ (s.onReadFailure c a n).unitIndex = s.unitIndex := by
  obtain ⟨error, hreply, hfailure⟩ := h.unreplaced_eq hfixed hclosed hmade
  have hover := h.idle.tell.over (c := c) (.failed error)
  refine ⟨fun registers hr => ?_, ?_⟩
  · rw [hreply registers hr]
    exact ⟨hover, rfl⟩
  · rw [hfailure]
    exact ⟨hover, rfl⟩

/-! ### Phases -/

/-- An accepted header leads to the walk, or to its end where the Common Model
leaves the register span. -/
theorem Sweeping.header_phase (h : s.Sweeping c k n unitId) {commonLength : UInt16}
    (hL : commonLength = 65 ∨ commonLength = 66) :
    Phase c (s.onReply c a n [0x5375, 0x6e53, 1, commonLength]) := by
  have hp := h.paused hL
  have hpos : 0 < commonLength.toNat := by rcases hL with rfl | rfl <;> decide
  rw [h.onReply_header hL, hp.readCommonModel_eq]
  split_ifs with hin
  · exact .walking (hp.read (.common h.locations h.instances) hpos le_rfl hin)
  · exact .ended (hp.over .completed)

theorem Sweeping.advance_phase (h : s.Unselected k) (hpending : s.pending = [])
    (hlt : s.unitIndex < unitIds.length) (b : Bool) :
    Phase c ((s.advanced b).probeNextUnit c) :=
  (h.advanced hlt b).probeNextUnit_phase hpending

theorem Sweeping.reply_phase (h : s.Sweeping c k n unitId) (registers : Registers) :
    Phase c (s.onReply c a n registers) := by
  cases hr : isSunspecHeader registers with
  | true =>
    obtain ⟨commonLength, hL, rfl⟩ := isSunspecHeader_iff.1 hr
    exact h.header_phase hL
  | false =>
    cases hfixed : c.fixedUnitId with
    | some u =>
      rw [h.onReply_fixed hr (by simp [hfixed])]
      exact .ended (h.idle.over .completed)
    | none =>
      have hlt := (h.index_lt hfixed).2
      cases hclosed : a.isClosed with
      | false =>
        rw [h.onReply_open hr hfixed hclosed]
        exact advance_phase h.idle rfl hlt true
      | true =>
        by_cases hmade : ∃ session, a.replacement = .session session
        · obtain ⟨session, hmade⟩ := hmade
          rw [h.onReply_closed hr hfixed hclosed hmade]
          exact advance_phase (h.idle.replaced session) rfl hlt false
        · exact .ended ((h.unreplaced hfixed hclosed (not_exists.1 hmade)).1 registers hr).1

theorem Sweeping.failure_phase (h : s.Sweeping c k n unitId) :
    Phase c (s.onReadFailure c a n) := by
  cases hfixed : c.fixedUnitId with
  | some u =>
    rw [h.onReadFailure_fixed (by simp [hfixed])]
    exact .ended (h.idle.over .completed)
  | none =>
    have hlt := (h.index_lt hfixed).2
    cases hclosed : a.isClosed with
    | false =>
      rw [h.onReadFailure_open hfixed hclosed]
      exact advance_phase h.idle rfl hlt false
    | true =>
      by_cases hmade : ∃ session, a.replacement = .session session
      · obtain ⟨session, hmade⟩ := hmade
        rw [h.onReadFailure_closed hfixed hclosed hmade]
        split_ifs
        · have hu := h.idle.replaced session
          exact Unselected.probeNextUnit_phase { hu with } rfl
        · exact advance_phase (h.idle.replaced session) rfl hlt false
      · exact .ended (h.unreplaced hfixed hclosed (not_exists.1 hmade)).2.1

end ScanState

theorem LogicalRegisterReader.onNext_of_finished {r : LogicalRegisterReader}
    (h : r.finished = true) (count : ℕ) (registers : Registers) :
    ∃ r' : LogicalRegisterReader, r.onNext count registers = (r', .nothing) ∧
      r'.finished = true := by
  unfold onNext
  split_ifs
  · exact ⟨r, fail_of_finished h, h⟩
  · exact ⟨_, rfl, h⟩

namespace ScanState

variable {s : ScanState}

theorem Over.withReaders (h : s.Over c) {readers : List LogicalRegisterReader}
    (hr : ∀ r ∈ readers, r.finished = true) : Over c { s with readers } :=
  ⟨h.1, h.2, h.3, hr, h.5, h.6⟩

theorem Over.withPending (h : s.Over c) (pending : List ℕ) : Over c { s with pending } :=
  ⟨h.1, h.2, h.3, h.4, h.5, h.6⟩

theorem Over.set (h : s.Over c) (n : ℕ) {r : LogicalRegisterReader} (hr : r.finished = true) :
    Over c { s with readers := s.readers.set n r } :=
  h.withReaders fun r' hmem => by
    rcases List.mem_or_eq_of_mem_set hmem with hmem | rfl
    · exact h.readers r' hmem
    · exact hr

/-- A late chunk reaches a reader that has finished. -/
theorem Over.onChunk (h : s.Over c) (n count : ℕ) (registers : Registers) :
    (s.onChunk c a n count registers).Over c ∧
      (s.onChunk c a n count registers).log = s.log ∧
      (s.onChunk c a n count registers).unitIndex = s.unitIndex := by
  unfold ScanState.onChunk
  cases hr : s.readers[n]? with
  | none => exact ⟨h, rfl, rfl⟩
  | some r =>
    obtain ⟨r', hnext, hf⟩ := LogicalRegisterReader.onNext_of_finished
      (h.readers r (List.mem_of_getElem? hr)) count registers
    have hlt := (List.getElem?_eq_some_iff.1 hr).1
    dsimp only
    rw [hnext, act_nothing]
    dsimp only
    rw [List.getElem?_set_self hlt]
    dsimp only
    rw [LogicalRegisterReader.next_of_finished hf, act_nothing]
    exact ⟨(h.set n hf).set n hf, rfl, rfl⟩

/-- Whatever happens to it, an ended scan does nothing more. -/
theorem Over.step (h : s.Over c) (e : Event) :
    (step c s e).Over c ∧ (step c s e).log = s.log ∧
      (step c s e).unitIndex = s.unitIndex := by
  cases e with
  | startInLoop a => simp [Sunspec.step, h.started, h]
  | reply n registers a =>
    change Over c (s.onReply c a n registers) ∧ (s.onReply c a n registers).log = s.log ∧
      (s.onReply c a n registers).unitIndex = s.unitIndex
    unfold onReply
    split_ifs
    · split
      · exact ⟨h, rfl, rfl⟩
      · dsimp only
        split
        · rw [onProbeResponse, if_pos h.finished]
          exact ⟨h.withPending _, rfl, rfl⟩
        · exact (h.withPending _).onChunk _ _ _
    · exact ⟨h, rfl, rfl⟩
  | failure n a =>
    change Over c (s.onReadFailure c a n) ∧ (s.onReadFailure c a n).log = s.log ∧
      (s.onReadFailure c a n).unitIndex = s.unitIndex
    unfold onReadFailure
    split_ifs
    · split
      · exact ⟨h, rfl, rfl⟩
      · dsimp only
        split
        · rw [onProbeFailure, if_pos h.finished]
          exact ⟨h.withPending _, rfl, rfl⟩
        · split
          · exact ⟨h.withPending _, rfl, rfl⟩
          · rename_i r hr
            have hf := h.readers r (List.mem_of_getElem? hr)
            rw [LogicalRegisterReader.fail_of_finished hf, act_nothing]
            exact ⟨(h.withPending _).set _ hf, rfl, rfl⟩
    · exact ⟨h, rfl, rfl⟩
  | cancel =>
    change Over c s.cancel ∧ s.cancel.log = s.log ∧ s.cancel.unitIndex = s.unitIndex
    unfold cancel
    split_ifs
    · exact ⟨h, rfl, rfl⟩
    · dsimp only
      rw [if_neg (by simp [h.cancellation])]
      exact ⟨h.withCancelled true, rfl, rfl⟩

theorem Over.run (h : s.Over c) {es : List Event} {t : ScanState}
    (hr : (machine c).Run s es t) : t.Over c ∧ t.log = s.log :=
  hr.keeps (P := fun t => t.Over c ∧ t.log = s.log)
    (fun _ e ht _ => ⟨(ht.1.step e).1, (ht.1.step e).2.1.trans ht.2⟩) ⟨h, rfl⟩

/-- A scan cancelled before its callback ran ends at once. -/
theorem idle_cancelled_over :
    Over c (ScanState.startInLoop c a { cancelled := true, started := true }) where
  started := rfl
  finished := rfl
  cancellation := rfl
  readers := nofun
  log := ⟨[], _, rfl, nofun, .completed⟩
  pairwise := pairwise_of_confined (Ending.completed.confined 0 0)

/-- The scan with the session of its subscription. -/
def acquired (session : ℕ) : ScanState where
  session := some session
  cancellation := true
  started := true
  log := [.subscriptionFactory]

theorem acquired_unselected (session : ℕ) : (acquired session).Unselected session where
  finished := rfl
  nextObserver := rfl
  completeObserver := rfl
  errorObserver := rfl
  bindCancellation := rfl
  cancellation := rfl
  started := rfl
  cancelled := rfl
  holds := rfl
  selectedHeader := rfl
  locations := rfl
  instances := rfl
  activeReader := rfl
  readers := rfl
  index := Nat.zero_le _
  log := { busy := by simp [acquired, Effect.Busy], unaccepted := by simp [acquired] }

/-- A scan that starts acquires its session first. -/
theorem start_eq : ScanState.startInLoop c a { started := true } =
    match ({ cancellation := true, started := true } : ScanState).acquireSession a with
    | (s, false) => s
    | (s, true) =>
      if a.isClosed then
        match s.replaceClosedSession a with
        | (s, false) => s
        | (s, true) => s.probeNextUnit c
      else s.probeNextUnit c := rfl

theorem acquireSession_made (hmade : a.subscription = .session k) :
    ({ cancellation := true, started := true } : ScanState).acquireSession a =
      (acquired k, true) := by
  rw [acquireSession, hmade]
  rfl

theorem start_open (hmade : a.subscription = .session k) (hopen : a.isClosed = false) :
    ScanState.startInLoop c a { started := true } = (acquired k).probeNextUnit c := by
  rw [start_eq, acquireSession_made hmade]
  exact if_neg (by simp [hopen])

theorem start_closed (hmade : a.subscription = .session k) (hclosed : a.isClosed = true) :
    ScanState.startInLoop c a { started := true } =
      match (acquired k).replaceClosedSession a with
      | (s, false) => s
      | (s, true) => s.probeNextUnit c := by
  rw [start_eq, acquireSession_made hmade]
  exact if_pos hclosed

/-- Without a first session the scan fails. -/
theorem start_unacquired_eq (hmade : ∀ session, a.subscription ≠ .session session) :
    ∃ error, ScanState.startInLoop c a { started := true } = ScanState.ended
      { cancellation := true, started := true, log := [.subscriptionFactory] }
      [.onError error] := by
  have hfail (error : Exception) : ScanState.fail
      { cancellation := true, started := true, log := [.subscriptionFactory] } error = _ :=
    fail_open ⟨rfl, rfl, rfl, rfl, rfl, rfl⟩ error
  rw [start_eq, acquireSession]
  cases hs : a.subscription with
  | session k => exact absurd hs (hmade k)
  | throws error => exact ⟨error, hfail error⟩
  | null => exact ⟨_, hfail _⟩

theorem start_unacquired (hmade : ∀ session, a.subscription ≠ .session session) :
    Over c (ScanState.startInLoop c a { started := true }) ∧
      (ScanState.startInLoop c a { started := true }).unitIndex = 0 := by
  obtain ⟨error, heq⟩ := start_unacquired_eq (c := c) hmade
  rw [heq]
  exact ⟨over_of_ended rfl (by simp [releasedReaders]) (by simp [Effect.Busy]) (.failed error)
    (by simp [After, Effect.Confined]), rfl⟩

theorem start_phase (c : Config) (a : Answers) :
    Phase c (ScanState.startInLoop c a { started := true }) := by
  by_cases hmade : ∃ session, a.subscription = .session session
  · obtain ⟨k, hmade⟩ := hmade
    have hu := acquired_unselected k
    cases hclosed : a.isClosed with
    | false =>
      rw [start_open hmade hclosed]
      exact hu.probeNextUnit_phase rfl
    | true =>
      rw [start_closed hmade hclosed]
      obtain ⟨session, -, heq⟩ | ⟨-, error, heq⟩ := replaceClosedSession_eq (a := a) hu.toOpen
      · rw [heq]
        exact (hu.replaced session).probeNextUnit_phase rfl
      · rw [heq]
        exact .ended (hu.tell.over (.failed error))
  · exact .ended (start_unacquired (not_exists.1 hmade)).1

theorem Phase.cancel (h : Phase c s) : Phase c s.cancel := by
  cases h with
  | idle h =>
    rw [Idle] at h
    rw [h]
    cases s.cancelled <;> exact .idle rfl
  | sweeping h =>
    rw [cancel_open h.toOpen h.cancelled]
    exact .ended ((h.over .completed).withCancelled true)
  | walking h =>
    rw [cancel_open h.toOpen h.cancelled]
    exact .ended ((h.over .completed).withCancelled true)
  | ended h => exact .ended (h.step .cancel).1

/-- Every event moves a scan between its phases. -/
theorem Phase.step (h : Phase c s) (e : Event) : Phase c (step c s e) := by
  cases e with
  | cancel => exact h.cancel
  | startInLoop a =>
    cases h with
    | idle h =>
      rw [Idle] at h
      rw [h]
      cases s.cancelled with
      | false => exact start_phase c a
      | true => exact .ended (idle_cancelled_over (a := a))
    | sweeping h => exact .sweeping (by simpa [Sunspec.step, h.started] using h)
    | walking h => exact .walking (by simpa [Sunspec.step, h.started] using h)
    | ended h => exact .ended (h.step _).1
  | reply n registers a =>
    change Phase c (s.onReply c a n registers)
    by_cases hn : n ∈ s.pending
    · cases h with
      | idle h => rw [h] at hn; cases hn
      | sweeping h =>
        rw [h.pending, List.mem_singleton] at hn
        exact hn ▸ h.reply_phase registers
      | walking h =>
        rw [h.pending, List.mem_singleton] at hn
        exact hn ▸ h.reply_phase registers
      | ended h => exact .ended (h.step (.reply n registers a)).1
    · rwa [onReply, if_neg hn]
  | failure n a =>
    change Phase c (s.onReadFailure c a n)
    by_cases hn : n ∈ s.pending
    · cases h with
      | idle h => rw [h] at hn; cases hn
      | sweeping h =>
        rw [h.pending, List.mem_singleton] at hn
        exact hn ▸ h.failure_phase
      | walking h =>
        rw [h.pending, List.mem_singleton] at hn
        exact .ended (hn ▸ h.failure)
      | ended h => exact .ended (h.step (.failure n a)).1
    · rwa [onReadFailure, if_neg hn]

end ScanState

theorem machine_phase (c : Config) : (machine c).Invariant (·.Phase c) where
  init s hs := by
    obtain rfl : s = {} := hs
    exact .idle rfl
  next _ e h _ := h.step e

end Neubau.Sunspec
