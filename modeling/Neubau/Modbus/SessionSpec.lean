import Neubau.Modbus.Session
import Neubau.Stream.Framing

/-! What the functions of the session do, one lemma each. Once `_closed` is set
a failure callback can only be told: the `close()` it may call returns at once.
So `failAll` on an open session is one assignment, and the two finish paths and
`enqueueInLoop` are it or a start of the next request. `onData` is the feeding
of a framer by the length field of the MBAP header. -/

namespace Neubau.Modbus.Session

open Neubau.Common Neubau.Stream

variable {W : World}

/-- The requests accepted and not yet resolved, the active one first. -/
def Core.held (s : Core) : List Request := s.active.toList ++ s.queue

@[simp] theorem disarmTimeout_closed (s : Core) : s.disarmTimeout.closed = s.closed := by
  unfold Core.disarmTimeout; split <;> rfl

@[simp] theorem disarmTimeout_active (s : Core) : s.disarmTimeout.active = s.active := by
  unfold Core.disarmTimeout; split <;> rfl

@[simp] theorem disarmTimeout_queue (s : Core) : s.disarmTimeout.queue = s.queue := by
  unfold Core.disarmTimeout; split <;> rfl

@[simp] theorem disarmTimeout_log (s : Core) : s.disarmTimeout.log = s.log := by
  unfold Core.disarmTimeout; split <;> rfl

@[simp] theorem disarmTimeout_client (s : Core) : s.disarmTimeout.client = s.client := by
  unfold Core.disarmTimeout; split <;> rfl

@[simp] theorem disarmTimeout_isConnected (s : Core) :
    s.disarmTimeout.isConnected = s.isConnected := by
  simp [Core.isConnected]

@[simp] theorem disarmTimeout_enqueued (s : Core) : s.disarmTimeout.enqueued = s.enqueued := by
  unfold Core.disarmTimeout; split <;> rfl

@[simp] theorem disarmTimeout_connecting (s : Core) :
    s.disarmTimeout.connecting = s.connecting := by
  unfold Core.disarmTimeout; split <;> rfl

@[simp] theorem disarmTimeout_connected (s : Core) :
    s.disarmTimeout.connected = s.connected := by
  unfold Core.disarmTimeout; split <;> rfl

@[simp] theorem disarmTimeout_awaitingResponse (s : Core) :
    s.disarmTimeout.awaitingResponse = s.awaitingResponse := by
  unfold Core.disarmTimeout; split <;> rfl

@[simp] theorem disarmTimeout_posted (s : Core) : s.disarmTimeout.posted = s.posted := by
  unfold Core.disarmTimeout; split <;> rfl

@[simp] theorem disarmTimeout_sends (s : Core) : s.disarmTimeout.sends = s.sends := by
  unfold Core.disarmTimeout; split <;> rfl

@[simp] theorem disarmTimeout_sockets (s : Core) : s.disarmTimeout.sockets = s.sockets := by
  unfold Core.disarmTimeout; split <;> rfl

@[simp] theorem disarmTimeout_timer (s : Core) : s.disarmTimeout.timer = none := by
  unfold Core.disarmTimeout; split
  · rfl
  · assumption

theorem disarmTimeout_armed {s : Core} (h : s.timer = none → s.armed = none) :
    s.disarmTimeout.armed = none := by
  unfold Core.disarmTimeout
  split
  · rfl
  · rename_i hn
    exact h hn

@[simp] theorem fire_closed (s : Core) (t : Timeout) : (s.fire t).closed = s.closed := by
  unfold Core.fire; split <;> rfl

@[simp] theorem fire_enqueued (s : Core) (t : Timeout) : (s.fire t).enqueued = s.enqueued := by
  unfold Core.fire; split <;> rfl

@[simp] theorem fire_log (s : Core) (t : Timeout) : (s.fire t).log = s.log := by
  unfold Core.fire; split <;> rfl

theorem closeInLoop_closed {s : Core} (h : s.closed = true) : closeInLoop W s = s := if_pos h

/-- Told of a failure after `_closed` was set, an observer changes nothing. -/
theorem callFailure_closed {close : Core → Core} (hc : ∀ s : Core, s.closed = true → close s = s)
    {s : Core} (hs : s.closed = true) (r : Request) (f : Exception) :
    callFailure W close s r f = { s with log := s.log ++ [Effect.failed r f true] } := by
  simp only [callFailure, hs]
  split_ifs
  · exact hc _ rfl
  · rfl

theorem foldl_callFailure {close : Core → Core} (hc : ∀ s : Core, s.closed = true → close s = s)
    (rs : List Request) {s : Core} (hs : s.closed = true) (f : Exception) :
    rs.foldl (fun s r => callFailure W close s r f) s =
      { s with log := s.log ++ rs.map (.failed · f true) } := by
  induction rs generalizing s with
  | nil => simp
  | cons r rs ih =>
    rw [List.foldl_cons, callFailure_closed hc hs, ih (by exact hs)]
    simp

/-- `failAll` of an open session: everything held fails, in order. -/
def Core.failed (s : Core) (f : Exception) : Core :=
  { s.disarmTimeout with
    closed := true
    connecting := false
    connected := false
    awaitingResponse := false
    active := none
    queue := []
    client := s.client.map fun _ => { isConnected := false }
    log := s.log ++ s.held.map (.failed · f true) }

theorem failAllWith_open {close : Core → Core} (hc : ∀ s : Core, s.closed = true → close s = s)
    {s : Core} (hs : s.closed = false) (f : Exception) :
    failAllWith W close s f = s.failed f := by
  obtain ⟨client, queue, active, timer, next, connecting, connected, awaiting, closed, armed,
    posted, enqueued, sends, sockets, log⟩ := s
  obtain rfl : closed = false := hs
  cases timer <;> cases active <;>
    simp [failAllWith, Core.disarmTimeout, callFailure_closed hc, foldl_callFailure hc,
      Core.failed, Core.held]

theorem failAll_open {s : Core} (hs : s.closed = false) (f : Exception) :
    failAll W s f = s.failed f :=
  failAllWith_open (fun _ _ => rfl) hs f

theorem failAll_closed {s : Core} (hs : s.closed = true) (f : Exception) :
    failAll W s f = s := if_pos hs

/-- The recursion of the source: a failure callback of `failAll` may call `close()`. -/
theorem failAll_eq (s : Core) (f : Exception) :
    failAll W s f = failAllWith W (closeInLoop W) s f := by
  cases hs : s.closed with
  | false => rw [failAll_open hs, failAllWith_open (fun _ h => closeInLoop_closed h) hs]
  | true => simp [failAll, failAllWith, hs]

/-- A request of a closed session fails at once. -/
theorem enqueueInLoop_closed {s : Core} (hc : s.closed = true) (unitId : UInt8)
    (address count : UInt16) : enqueueInLoop W s unitId address count =
      { s with
        enqueued := s.enqueued + 1
        log := s.log ++ [Effect.failed { unitId, address, count, observer := s.enqueued }
          (error "Modbus session stopped") true] } := by
  unfold enqueueInLoop
  dsimp only
  rw [if_pos hc]
  exact callFailure_closed (fun _ h => closeInLoop_closed h) (by exact hc) _ _

theorem enqueueInLoop_open {s : Core} (hs : s.closed = false) (unitId : UInt8)
    (address count : UInt16) : enqueueInLoop W s unitId address count =
      startNext W { s with
        enqueued := s.enqueued + 1
        queue := s.queue ++ [{ unitId, address, count, observer := s.enqueued }] } :=
  if_neg (by simp [hs])

/-! ### One request after the other -/

/-- The session after its active request was released. -/
def Core.released (s : Core) : Core :=
  { s.disarmTimeout with awaitingResponse := false, active := none }

/-- The session after the success of its active request was posted. -/
def Core.answered (s : Core) (request : Request) (registers : Registers) : Core :=
  { s.released with
    posted := s.posted ++ [(request, registers)]
    log := s.log ++ [Effect.posted request registers] }

/-- The session with its next request active. -/
def Core.started (s : Core) (request : Request) (rest : List Request) : Core :=
  { s with
    active := some { request with transactionId := s.nextTransaction }
    queue := rest
    nextTransaction := bump s.nextTransaction }

theorem startNext_nil {s : Core} (h : s.queue = []) : startNext W s = s := by
  unfold startNext
  split_ifs
  · rfl
  · rw [h]

/-- A queued request is started unless another is active. -/
theorem startNext_active {s : Core} (h : s.active.isSome) : startNext W s = s := by
  simp [startNext, h]

theorem startNext_closed {s : Core} (h : s.closed = true) : startNext W s = s := by
  simp [startNext, h]

/-- A closed session starts nothing, whether it is asked to or not. -/
theorem startNext_of_open (s : Core) :
    (if !s.closed then startNext W s else s) = startNext W s := by
  cases h : s.closed with
  | false => rfl
  | true => exact (startNext_closed h).symm

theorem startNext_cons {s : Core} {request : Request} {rest : List Request}
    (hs : s.closed = false) (ha : s.active = none) (hq : s.queue = request :: rest) :
    startNext W s =
      if s.connected && s.isConnected then sendActive W (s.started request rest)
      else startConnection W (s.started request rest) := by
  unfold startNext
  rw [if_neg (by simp [hs, ha]), hq]
  rfl

/-- What holds of the session, and of the next request after it was sent or a connection
was started for it, holds after `startNext`. -/
theorem startNext_keeps {P : Core → Prop} {s : Core} (hs : P s)
    (hstart : ∀ request rest, s.closed = false → s.active = none → s.queue = request :: rest →
      P (sendActive W (s.started request rest)) ∧ P (startConnection W (s.started request rest))) :
    P (startNext W s) := by
  by_cases hidle : s.closed || s.active.isSome
  · rwa [startNext, if_pos hidle]
  · obtain ⟨hopen, hnone⟩ : s.closed = false ∧ s.active = none := by simpa using hidle
    cases hq : s.queue with
    | nil => rwa [startNext_nil hq]
    | cons request rest =>
      obtain ⟨hsend, hconnect⟩ := hstart request rest hopen hnone hq
      rw [startNext_cons hopen hnone hq]
      split_ifs
      · exact hsend
      · exact hconnect

theorem finishActiveError_idle {s : Core} (h : s.active = none) (f : Exception) :
    finishActiveError W s f = s := by
  simp [finishActiveError, h]

/-- The active request is released and told, and the next one is started. -/
theorem finishActiveError_active {s : Core} {r : Request} (h : s.active = some r)
    (f : Exception) : finishActiveError W s f =
      startNext W (callFailure W (closeInLoop W) s.released r f) := by
  simp only [finishActiveError, h]
  exact startNext_of_open _

theorem finishActiveSuccess_active {s : Core} {r : Request} (h : s.active = some r)
    (registers : Registers) :
    finishActiveSuccess W s registers = startNext W (s.answered r registers) := by
  simp only [finishActiveSuccess, h, disarmTimeout_posted, disarmTimeout_log]
  exact startNext_of_open (s.answered r registers)

theorem finishActiveSuccess_idle {s : Core} (h : s.active = none) (registers : Registers) :
    finishActiveSuccess W s registers = s := by
  simp [finishActiveSuccess, h]

/-- A frame without an active request is dropped. -/
theorem handleFrame_idle {s : Core} (h : s.active = none) (frame : Bytes) :
    handleFrame W s frame = s := by
  simp [handleFrame, h]

/-- What holds of the session, and after its active request fails or succeeds, holds after a
frame. -/
theorem handleFrame_keeps {P : Core → Prop} {s : Core} (hs : P s)
    (herror : ∀ failure, P (finishActiveError W s failure))
    (hsuccess : ∀ registers, P (finishActiveSuccess W s registers)) (frame : Bytes) :
    P (handleFrame W s frame) := by
  unfold handleFrame
  split
  · exact hs
  · split
    · exact hs
    · exact herror _
    · exact hsuccess _

/-! ### Framing -/

theorem readU16_isSome {data : Bytes} {i : ℕ} (h : i + 1 < data.length) :
    ∃ v, readU16 data i = some v := by
  refine ⟨data[i].toUInt16 <<< 8 ||| data[i + 1].toUInt16, ?_⟩
  simp [readU16, List.getElem?_eq_getElem h, List.getElem?_eq_getElem (Nat.lt_of_succ_lt h)]

theorem readU16_append {data : Bytes} {i : ℕ} (h : i + 1 < data.length) (more : Bytes) :
    readU16 (data ++ more) i = readU16 data i := by
  simp only [readU16, List.getElem?_append_left h,
    List.getElem?_append_left (Nat.lt_of_succ_lt h)]

/-- What the loop of `onData` makes of its buffer. -/
def cut (buffer : Bytes) : Cut UInt8 :=
  if buffer.length < 7 then .wait
  else
    match readU16 buffer 4 with
    | none => .wait
    | some length =>
      if length < 3 ∨ length > 254 then .bad
      else if buffer.length < 6 + length.toNat then .wait
      else .frame (buffer.take (6 + length.toNat)) (buffer.drop (6 + length.toNat))

theorem cut_of_readU16 {xs : Bytes} {length : UInt16} (h7 : ¬ xs.length < 7)
    (hl : readU16 xs 4 = some length) : cut xs =
      if length < 3 ∨ length > 254 then .bad
      else if xs.length < 6 + length.toNat then .wait
      else .frame (xs.take (6 + length.toNat)) (xs.drop (6 + length.toNat)) := by
  rw [cut, if_neg h7, hl]

/-- A header that is complete stays so when more arrives. -/
theorem cut_append_of_readU16 {xs : Bytes} {length : UInt16} (h7 : ¬ xs.length < 7)
    (hl : readU16 xs 4 = some length) (ys : Bytes) : cut (xs ++ ys) =
      if length < 3 ∨ length > 254 then .bad
      else if (xs ++ ys).length < 6 + length.toNat then .wait
      else .frame ((xs ++ ys).take (6 + length.toNat)) ((xs ++ ys).drop (6 + length.toNat)) := by
  have h7' : ¬ (xs ++ ys).length < 7 := by rw [List.length_append]; omega
  have hl' : readU16 (xs ++ ys) 4 = some length := by rw [readU16_append (by omega), hl]
  exact cut_of_readU16 h7' hl'

theorem cut_eq_bad {xs : Bytes} (h : cut xs = .bad) :
    ∃ length, ¬ xs.length < 7 ∧ readU16 xs 4 = some length ∧ (length < 3 ∨ length > 254) := by
  unfold cut at h
  split_ifs at h with h7
  split at h
  · cases h
  · rename_i length hl
    split_ifs at h with hb hs
    exact ⟨length, h7, hl, hb⟩

/-- A frame is what the valid length field of a complete header announces. -/
theorem cut_eq_frame {xs f rest : Bytes} (h : cut xs = .frame f rest) :
    ∃ length, ¬ xs.length < 7 ∧ readU16 xs 4 = some length ∧ ¬ (length < 3 ∨ length > 254) ∧
      6 + length.toNat ≤ xs.length ∧ f = xs.take (6 + length.toNat) ∧
      rest = xs.drop (6 + length.toNat) := by
  unfold cut at h
  split_ifs at h with h7
  split at h
  · cases h
  · rename_i length hl
    split_ifs at h with hb hs
    cases h
    exact ⟨length, h7, hl, hb, not_lt.1 hs, rfl, rfl⟩

/-- The framer of Modbus TCP: six bytes of header, then what its length field announces. -/
def framer : Framer UInt8 where
  cut := cut
  nil := rfl
  shrinks h := by
    obtain ⟨length, h7, -, -, hlen, -, rfl⟩ := cut_eq_frame h
    rw [List.length_drop]
    omega
  bad_append ys h := by
    obtain ⟨length, h7, hl, hb⟩ := cut_eq_bad h
    rw [cut_append_of_readU16 h7 hl, if_pos hb]
  frame_append {xs} _ _ ys h := by
    obtain ⟨length, h7, hl, hb, hlen, rfl, rfl⟩ := cut_eq_frame h
    have hlen' : ¬ (xs ++ ys).length < 6 + length.toNat := by rw [List.length_append]; omega
    rw [cut_append_of_readU16 h7 hl, if_neg hb, if_neg hlen',
      List.take_append_of_le_length hlen, List.drop_append_of_le_length hlen]

/-- The consumer of the frames is the session without its buffer. -/
def handler (W : World) : Handler UInt8 Core where
  frame := handleFrame W
  bad s := finishActiveError W s (error "invalid Modbus response length")
  stopped := Core.closed

def State.pair (s : State) : Core × Bytes := (s.core, s.receiveBuffer)

theorem drainBuffer_eq_drain (n : ℕ) (s : State) :
    (drainBuffer W n s).pair = drain framer (handler W) n s.pair := by
  induction n generalizing s with
  | zero => rfl
  | succ n ih =>
    obtain ⟨core, buffer⟩ := s
    rw [drainBuffer]
    by_cases h7 : buffer.length < 7
    · have h : cut buffer = .wait := by simp only [cut, h7, ↓reduceIte]
      rw [if_pos h7, State.pair, drain_wait h]
    rw [if_neg h7]
    cases hl : readU16 buffer 4 with
    | none =>
      have h : cut buffer = .wait := by simp only [cut, h7, hl, ↓reduceIte]
      rw [State.pair, drain_wait h]
    | some length =>
      dsimp only
      have hcut := cut_of_readU16 h7 hl
      by_cases hb : length < 3 ∨ length > 254
      · have h : cut buffer = .bad := by rw [hcut, if_pos hb]
        rw [if_pos hb, State.pair, State.pair, drain_bad h]
        rfl
      by_cases hs : buffer.length < 6 + length.toNat
      · have h : cut buffer = .wait := by rw [hcut, if_neg hb, if_pos hs]
        rw [if_neg hb, if_pos hs, State.pair, drain_wait h]
      have h : cut buffer = .frame (buffer.take (6 + length.toNat))
          (buffer.drop (6 + length.toNat)) := by
        rw [hcut, if_neg hb, if_neg hs]
      rw [if_neg hb, if_neg hs]
      cases hc : (handleFrame W core (buffer.take (6 + length.toNat))).closed with
      | true =>
        rw [if_pos rfl]
        exact (drain_frame_stopped (H := handler W) h hc).symm
      | false =>
        rw [if_neg (by simp), ih]
        exact (drain_frame_running (H := handler W) h hc).symm

/-- `onData` feeds its bytes to the framer. -/
theorem onData_eq_feed (s : State) (bytes : Bytes) :
    (onData W s bytes).pair = feed framer (handler W) s.pair bytes := by
  unfold onData feed
  change _ = if s.core.closed then _ else _
  split_ifs with hc
  · rfl
  · exact drainBuffer_eq_drain _ _

/-- What every frame and a rejected length keep, `onData` keeps. -/
theorem onData_keeps {P : Core → Prop}
    (hframe : ∀ s f, s.closed = false → P s → P (handleFrame W s f))
    (hbad : ∀ s, s.closed = false → P s →
      P (finishActiveError W s (error "invalid Modbus response length")))
    {s : State} (hs : P s.core) (bytes : Bytes) : P (onData W s bytes).core := by
  have h := feed_keeps (F := framer) (H := handler W) hframe hbad (p := s.pair) hs bytes
  rwa [← onData_eq_feed] at h

end Neubau.Modbus.Session
