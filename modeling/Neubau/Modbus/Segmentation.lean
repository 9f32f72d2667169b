import Neubau.Modbus.SessionSpec

/-! TCP may cut the replies anywhere. A session whose buffer is drained, fed a
stream whose length fields are all valid, ends in the same state however the
stream is cut: each frame of the stream is handled once, in order, until one of
them closes the session. -/

namespace Neubau.Modbus.Session

open Neubau.Common Neubau.Stream

variable {W : World}

/-- A buffer without a complete frame: the header is not complete, or the length
it announces is valid and not reached. -/
def Drained (buffer : Bytes) : Prop :=
  buffer.length < 7 ∨ ∃ length, readU16 buffer 4 = some length ∧
    3 ≤ length ∧ length ≤ 254 ∧ buffer.length < 6 + length.toNat

theorem cut_eq_wait_iff (buffer : Bytes) : cut buffer = .wait ↔ Drained buffer := by
  unfold cut Drained
  by_cases h7 : buffer.length < 7
  · simp [h7]
  · have h5 : 4 + 1 < buffer.length := by omega
    obtain ⟨length, hl⟩ := readU16_isSome h5
    simp only [h7, ↓reduceIte, hl, Option.some.injEq, exists_eq_left', false_or]
    by_cases hb : length < 3 ∨ length > 254
    · rw [if_pos hb]
      apply iff_of_false (by simp)
      intro h
      rcases hb with hb | hb
      · exact absurd h.1 (UInt16.not_le.2 hb)
      · exact absurd h.2.1 (UInt16.not_le.2 hb)
    · rw [if_neg hb]
      rw [not_or, UInt16.not_lt, UInt16.not_lt] at hb
      by_cases hs : buffer.length < 6 + length.toNat
      · simp [hs, hb]
      · simp [hs]

/-- The frame and the rest are the buffer. -/
theorem cut_frame {xs f rest : Bytes} (h : framer.cut xs = .frame f rest) : f ++ rest = xs := by
  obtain ⟨length, -, -, -, -, rfl, rfl⟩ := cut_eq_frame h
  exact List.take_append_drop _ _

/-- `onData` on an open session drains the buffer with the bytes behind it. -/
theorem onData_open {s : State} (hs : s.core.closed = false) (bytes : Bytes) :
    (onData W s bytes).pair = drain framer (handler W) (s.receiveBuffer ++ bytes).length
      (s.core, s.receiveBuffer ++ bytes) := by
  rw [onData_eq_feed]
  exact feed_eq (H := handler W) (p := s.pair) hs le_rfl

/-- A call of `onData` that leaves the session open leaves its buffer drained. -/
theorem onData_drained {s : State} {bytes : Bytes} (hs : s.core.closed = false)
    (hopen : (onData W s bytes).core.closed = false) :
    Drained (onData W s bytes).receiveBuffer := by
  have h := onData_open (W := W) hs bytes
  have hrun : (handler W).stopped (onData W s bytes).pair.1 = false := hopen
  rw [h] at hrun
  have hcut := drain_waits (p := (s.core, s.receiveBuffer ++ bytes)) le_rfl hrun
  rw [← h] at hcut
  exact (cut_eq_wait_iff _).1 hcut

theorem foldl_onData (chunks : List Bytes) (s : State) :
    (chunks.foldl (onData W) s).pair = chunks.foldl (feed framer (handler W)) s.pair := by
  induction chunks generalizing s with
  | nil => rfl
  | cons c cs ih => rw [List.foldl_cons, List.foldl_cons, ih, onData_eq_feed]

/-- Handle a frame unless the session is closed. -/
def handleOpen (W : World) (s : Core) (frame : Bytes) : Core :=
  if s.closed then s else handleFrame W s frame

/-- However a stream of valid length fields is cut, the session handles its
frames once, in order, and keeps what follows them. -/
theorem segmentation_irrelevant {s : State} {w : Bytes} (chunks : List Bytes)
    (hopen : s.core.closed = false) (hd : Drained s.receiveBuffer)
    (hclean : framer.Clean (s.receiveBuffer ++ w)) (hw : chunks.flatten = w) :
    let stream := s.receiveBuffer ++ w
    let frames := framer.frames stream.length stream
    (chunks.foldl (onData W) s).core = (onData W s w).core ∧
    ((onData W s w).core.closed = false →
      (chunks.foldl (onData W) s).receiveBuffer = (onData W s w).receiveBuffer ∧
      (onData W s w).receiveBuffer = frames.2 ∧ Drained (onData W s w).receiveBuffer) ∧
    (onData W s w).core = frames.1.foldl (handleOpen W) s.core ∧
    frames.1.flatten ++ frames.2 = stream := by
  subst hw
  have hchunks := foldl_feed (H := handler W) (p := s.pair) chunks
    ((cut_eq_wait_iff _).2 hd) hclean
  have hframes := drain_eq_foldl (H := handler W) le_rfl hopen hclean
  rw [← foldl_onData, ← onData_eq_feed] at hchunks
  rw [← onData_open hopen] at hframes
  exact ⟨hchunks.1, fun hc => ⟨hchunks.2 (hchunks.1 ▸ hc), hframes.2 hc, onData_drained hopen hc⟩,
    hframes.1, framer.frames_flatten cut_frame _ _⟩

/-- A reply of one register, cut inside its header. -/
theorem segmentation_irrelevant_header :
    let s := step .obliging (step .obliging {} (.enqueue 7 100 1)) (.connection true)
    let chunks : List Bytes := [[0, 1, 0, 0, 0], [5, 7, 3, 2, 0x12, 0x34]]
    (chunks.foldl (onData .obliging) s).core = (onData .obliging s chunks.flatten).core ∧
      (onData .obliging s chunks.flatten).core.posted.map (·.2) = [[0x1234]] := by
  have h := segmentation_irrelevant (W := .obliging)
    (s := step .obliging (step .obliging {} (.enqueue 7 100 1)) (.connection true))
    [[0, 1, 0, 0, 0], [5, 7, 3, 2, 0x12, 0x34]] (by decide) (.inl (by decide))
    (.frame (f := [0, 1, 0, 0, 0, 5, 7, 3, 2, 0x12, 0x34]) rfl (.wait rfl)) rfl
  exact ⟨h.1, by decide⟩

end Neubau.Modbus.Session
