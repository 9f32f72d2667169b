import Neubau.Modbus.Accounting

/-! No read stalls. Between two callbacks of the loop an open session is idle,
connecting or awaiting a response; in the two latter phases it has an active
request and the timer of the phase is pending in the loop. Each function starts
in one of these phases and leaves the session in one or closes it. What libhv
promises is the enabling of the events: a channel is reported connected only
while the session is connecting, data arrives only on a connected channel, and
a timer fires only while it is pending. -/

namespace Neubau.Modbus.Session

open Neubau.Common Neubau.Transition

variable {W : World}

/-- No request is on its way: neither a connection nor a response is awaited. -/
structure Core.Resting (s : Core) : Prop where
  active : s.active = none
  connecting : s.connecting = false
  awaiting : s.awaitingResponse = false
  timer : s.timer = none
  armed : s.armed = none

/-- The active request waits for the connection, which is not up yet. -/
structure Core.Connecting (s : Core) : Prop where
  active : s.active.isSome
  connecting : s.connecting = true
  awaiting : s.awaitingResponse = false
  timer : s.timer = some .connect
  armed : s.armed = some .connect
  down : s.isConnected = false

/-- The active request was sent and waits for its response. -/
structure Core.Awaiting (s : Core) : Prop where
  active : s.active.isSome
  connecting : s.connecting = false
  awaiting : s.awaitingResponse = true
  timer : s.timer = some .response
  armed : s.armed = some .response

/-- The phases an open session with a connection alternates between. -/
def Core.Serving (s : Core) : Prop := (s.Resting ∧ s.queue = []) ∨ s.Awaiting

/-- The phases of an open session; a connected channel was reported as such. -/
def Core.Live (s : Core) : Prop :=
  s.closed = true ∨ s.Connecting ∨
    (s.Serving ∧ (s.isConnected = true → s.connected = true))

theorem failAll_closes (s : Core) (f : Exception) : (failAll W s f).closed = true := by
  cases hs : s.closed with
  | false => rw [failAll_open hs]; rfl
  | true => rw [failAll_closed hs]; exact hs

theorem closeInLoop_closes (s : Core) : (closeInLoop W s).closed = true := by
  unfold closeInLoop
  split_ifs with h
  · exact h
  · exact failAll_closes _ _

/-- Sending the active request leaves it awaiting its response. -/
theorem sendActive_awaits {s : Core} (ha : s.active.isSome) (hc : s.connecting = false) :
    (sendActive W s).closed = true ∨
      ((sendActive W s).Awaiting ∧ (sendActive W s).isConnected = s.isConnected ∧
        (sendActive W s).connected = s.connected) := by
  obtain ⟨active, ha⟩ := Option.isSome_iff_exists.1 ha
  simp only [sendActive, ha]
  split_ifs with hclosed hup hsend
  · exact .inl hclosed
  · exact .inl (failAll_closes _ _)
  · exact .inl (failAll_closes _ _)
  · refine .inr ⟨⟨?_, ?_, ?_, rfl, rfl⟩, ?_, ?_⟩ <;>
      simp [Core.armTimeout, Core.isConnected, hc]

/-- Starting a connection leaves the active request waiting for it. -/
theorem startConnection_connects {s : Core} (ha : s.active.isSome) (hc : s.connecting = false)
    (hw : s.awaitingResponse = false) :
    (startConnection W s).closed = true ∨ (startConnection W s).Connecting := by
  unfold startConnection
  dsimp only
  split_ifs with h hcreated
  · exact .inl (by simpa [hc] using h)
  · exact .inl (failAll_closes _ _)
  · refine .inr ⟨?_, ?_, ?_, rfl, rfl, rfl⟩ <;> simp [Core.armTimeout, ha, hw]

/-- A resting session starts its next request, over the connection it has. -/
theorem startNext_live {s : Core} (h : s.Resting)
    (hlink : s.isConnected = true → s.connected = true) : (startNext W s).Live := by
  cases hs : s.closed with
  | true => exact .inl (by rwa [startNext_closed hs])
  | false =>
    cases hq : s.queue with
    | nil =>
      rw [startNext_nil hq]
      exact .inr (.inr ⟨.inl ⟨h, hq⟩, hlink⟩)
    | cons request rest =>
      rw [startNext_cons hs h.active hq]
      split_ifs with hup
      · rcases sendActive_awaits (W := W) (s := s.started request rest) rfl h.connecting with
          ht | ht
        · exact .inl ht
        · exact .inr (.inr ⟨.inr ht.1, fun hi => ht.2.2.trans (hlink (ht.2.1 ▸ hi))⟩)
      · rcases startConnection_connects (W := W) (s := s.started request rest) rfl h.connecting
          h.awaiting with ht | ht
        · exact .inl ht
        · exact .inr (.inl ht)

/-- With a connection there is no need for another. -/
theorem startNext_serving {s : Core} (h : s.Resting) (hup : s.isConnected = true)
    (hlink : s.connected = true) : (startNext W s).closed = true ∨
      ((startNext W s).Serving ∧ (startNext W s).isConnected = true ∧
        (startNext W s).connected = true) := by
  cases hs : s.closed with
  | true => exact .inl (by rwa [startNext_closed hs])
  | false =>
    cases hq : s.queue with
    | nil =>
      rw [startNext_nil hq]
      exact .inr ⟨.inl ⟨h, hq⟩, hup, hlink⟩
    | cons request rest =>
      rw [startNext_cons hs h.active hq, if_pos (by rw [hlink, hup]; rfl)]
      rcases sendActive_awaits (W := W) (s := s.started request rest) rfl h.connecting with
        ht | ht
      · exact .inl ht
      · exact .inr ⟨.inr ht.1, ht.2.1.trans hup, ht.2.2.trans hlink⟩

/-- A connected session with nothing to wait for but a response. -/
def Core.Linked (s : Core) : Prop :=
  s.closed = true ∨ (s.Serving ∧ s.isConnected = true ∧ s.connected = true)

theorem Core.Linked.live {s : Core} (h : s.Linked) : s.Live := by
  rcases h with h | ⟨hs, -, hc⟩
  · exact .inl h
  · exact .inr (.inr ⟨hs, fun _ => hc⟩)

theorem Core.Serving.connecting {s : Core} (h : s.Serving) : s.connecting = false := by
  rcases h with ⟨h, -⟩ | h
  · exact h.connecting
  · exact h.connecting

/-- Once its active request is released, a serving session rests. -/
theorem Core.Serving.rests {s : Core} (h : s.Serving) : s.released.Resting := by
  have hd : s.disarmTimeout.armed = none := by
    rcases h with ⟨h, -⟩ | h
    · exact disarmTimeout_armed fun _ => h.armed
    · exact disarmTimeout_armed fun ht => by simp [h.timer] at ht
  exact ⟨rfl, by simpa [Core.released] using h.connecting, rfl, disarmTimeout_timer s, hd⟩

/-- Telling an observer of a failure closes the session or leaves it resting. -/
theorem callFailure_rests {s : Core} (h : s.Resting) (r : Request) (f : Exception) :
    (callFailure W (closeInLoop W) s r f).closed = true ∨
      ((callFailure W (closeInLoop W) s r f).Resting ∧
        (callFailure W (closeInLoop W) s r f).isConnected = s.isConnected ∧
        (callFailure W (closeInLoop W) s r f).connected = s.connected) := by
  unfold callFailure
  dsimp only
  split_ifs
  · exact .inl (closeInLoop_closes _)
  · exact .inr ⟨⟨h.active, h.connecting, h.awaiting, h.timer, h.armed⟩, rfl, rfl⟩

theorem finishActiveError_linked {s : Core} (h : s.Serving) (hup : s.isConnected = true)
    (hlink : s.connected = true) (f : Exception) : (finishActiveError W s f).Linked := by
  cases hr : s.active with
  | none =>
    rw [finishActiveError_idle hr]
    exact .inr ⟨h, hup, hlink⟩
  | some request =>
    rw [finishActiveError_active hr]
    rcases callFailure_rests (W := W) h.rests request f with ht | ⟨ht, hup', hlink'⟩
    · exact .inl (by rwa [startNext_closed ht])
    · exact startNext_serving ht (hup'.trans ((disarmTimeout_isConnected s).trans hup))
        (hlink'.trans ((disarmTimeout_connected s).trans hlink))

theorem finishActiveSuccess_linked {s : Core} (h : s.Serving) (hup : s.isConnected = true)
    (hlink : s.connected = true) (rs : Registers) : (finishActiveSuccess W s rs).Linked := by
  cases hr : s.active with
  | none =>
    rw [finishActiveSuccess_idle hr]
    exact .inr ⟨h, hup, hlink⟩
  | some request =>
    have ht := h.rests
    rw [finishActiveSuccess_active hr]
    exact startNext_serving ⟨ht.active, ht.connecting, ht.awaiting, ht.timer, ht.armed⟩
      ((disarmTimeout_isConnected s).trans hup) ((disarmTimeout_connected s).trans hlink)

theorem handleFrame_linked {s : Core} (h : s.Serving) (hup : s.isConnected = true)
    (hlink : s.connected = true) (frame : Bytes) : (handleFrame W s frame).Linked :=
  handleFrame_keeps (.inr ⟨h, hup, hlink⟩) (finishActiveError_linked h hup hlink)
    (finishActiveSuccess_linked h hup hlink) frame

/-- Data on a connected channel finds the session serving and leaves it so. -/
theorem onData_linked {s : State} (h : s.core.Linked) (bytes : Bytes) :
    (onData W s bytes).core.Linked := by
  refine onData_keeps (fun c f hc hl => ?_) (fun c hc hl => ?_) h bytes
  · rcases hl with hl | ⟨hl, hup, hlink⟩
    · simp [hl] at hc
    · exact handleFrame_linked hl hup hlink f
  · rcases hl with hl | ⟨hl, hup, hlink⟩
    · simp [hl] at hc
    · exact finishActiveError_linked hl hup hlink _

/-- A connected channel belongs to a session that serves. -/
theorem Core.Live.linked {s : Core} (h : s.Live) (hup : s.isConnected = true) : s.Linked := by
  rcases h with h | h | ⟨h, hlink⟩
  · exact .inl h
  · simp [h.down] at hup
  · exact .inr ⟨h, hup, hlink hup⟩

theorem enqueueInLoop_live {s : Core} (h : s.Live) (unitId : UInt8) (address count : UInt16) :
    (enqueueInLoop W s unitId address count).Live := by
  cases hc : s.closed with
  | true =>
    rw [enqueueInLoop_closed hc]
    exact .inl hc
  | false =>
    rw [enqueueInLoop_open hc]
    rcases h with h | h | ⟨⟨h, hq⟩ | h, hlink⟩
    · exact absurd (hc.symm.trans h) Bool.false_ne_true
    · rw [startNext_active (by exact h.active)]
      exact .inr (.inl ⟨h.active, h.connecting, h.awaiting, h.timer, h.armed, h.down⟩)
    · exact startNext_live ⟨h.active, h.connecting, h.awaiting, h.timer, h.armed⟩ hlink
    · rw [startNext_active (by exact h.active)]
      exact .inr (.inr ⟨.inr ⟨h.active, h.connecting, h.awaiting, h.timer, h.armed⟩, hlink⟩)

/-- A loss is final for a session with a request or a connection. -/
theorem onConnection_down {s : Core} (h : s.Live) : (onConnection W s false).Live := by
  unfold onConnection
  dsimp only
  split_ifs with hc hx hlost
  · exact .inl hc
  · cases hx
  · exact .inl (failAll_closes _ _)
  · rcases h with h | h | ⟨⟨h, hq⟩ | h, hlink⟩
    · exact absurd h hc
    · simp [h.active] at hlost
    · exact .inr (.inr ⟨.inl ⟨⟨h.active, rfl, h.awaiting, h.timer, h.armed⟩, hq⟩,
        by cases s.client <;> simp [Core.isConnected]⟩)
    · simp [h.active] at hlost

/-- The connection awaited is up: the active request is sent. -/
theorem onConnection_up {s : Core} (h : s.Connecting) : (onConnection W s true).Live := by
  unfold onConnection
  dsimp only
  split_ifs with hc hx
  · exact .inl hc
  · obtain hs | ⟨hs, -, hlink⟩ := sendActive_awaits (W := W) (s := Core.disarmTimeout { s with
      client := s.client.map fun _ => { isConnected := true }
      connecting := false
      connected := true }) (by simpa using h.active) (by simp)
    · exact .inl hs
    · exact .inr (.inr ⟨.inr hs, fun _ => by rw [hlink]; simp⟩)
  all_goals exact absurd rfl hx

/-- A timer that fires in a live session closes it. -/
theorem onConnectTimeout_closes {s : Core} (h : s.Live) (ht : s.armed = some .connect) :
    (onConnectTimeout W (s.fire .connect)).closed = true := by
  unfold onConnectTimeout
  split_ifs with hc
  · exact failAll_closes _ _
  · simp only [Core.fire, ht, ↓reduceIte] at hc ⊢
    rcases h with h | h | ⟨⟨h, -⟩ | h, -⟩
    · exact h
    · simpa [h.connecting] using hc
    · simp [h.armed] at ht
    · simp [h.armed] at ht

theorem onResponseTimeout_closes {s : Core} (h : s.Live) (ht : s.armed = some .response) :
    (onResponseTimeout W (s.fire .response)).closed = true := by
  unfold onResponseTimeout
  split_ifs with hc
  · exact failAll_closes _ _
  · simp only [Core.fire, ht, ↓reduceIte] at hc ⊢
    rcases h with h | h | ⟨⟨h, -⟩ | h, -⟩
    · exact h
    · simp [h.armed] at ht
    · simp [h.armed] at ht
    · simpa [h.active, h.awaiting] using hc

theorem channelLost_live {s : Core} (h : s.Live) :
    Core.Live { s with client := s.client.map fun _ => { isConnected := false } } := by
  have hdown : (s.client.map fun _ => ({ isConnected := false } : Client)).any
      (·.isConnected) = false := by cases s.client <;> rfl
  rcases h with h | h | ⟨⟨h, hq⟩ | h, -⟩
  · exact .inl h
  · exact .inr (.inl ⟨h.active, h.connecting, h.awaiting, h.timer, h.armed, hdown⟩)
  · exact .inr (.inr ⟨.inl ⟨⟨h.active, h.connecting, h.awaiting, h.timer, h.armed⟩, hq⟩,
      fun hi => absurd (hdown.symm.trans hi) (by decide)⟩)
  · exact .inr (.inr ⟨.inr ⟨h.active, h.connecting, h.awaiting, h.timer, h.armed⟩,
      fun hi => absurd (hdown.symm.trans hi) (by decide)⟩)

theorem deliver_live {s : Core} (h : s.Live) : s.deliver.Live := by
  unfold Core.deliver
  split
  · exact h
  · rcases h with h | h | ⟨⟨h, hq⟩ | h, hlink⟩
    · exact .inl h
    · exact .inr (.inl ⟨h.active, h.connecting, h.awaiting, h.timer, h.armed, h.down⟩)
    · exact .inr (.inr ⟨.inl ⟨⟨h.active, h.connecting, h.awaiting, h.timer, h.armed⟩, hq⟩, hlink⟩)
    · exact .inr (.inr ⟨.inr ⟨h.active, h.connecting, h.awaiting, h.timer, h.armed⟩, hlink⟩)

/-- What libhv promises of its reports and its timers. -/
def libhv (s : State) : Event → Prop
  | .connection true => s.core.connecting = true
  | .data _ => s.core.isConnected = true
  | .connectTimeout => s.core.armed = some .connect
  | .responseTimeout => s.core.armed = some .response
  | _ => True

instance (s : State) (e : Event) : Decidable (libhv s e) :=
  match e with
  | .enqueue _ _ _ => isTrue trivial
  | .connection true => inferInstanceAs (Decidable (_ = true))
  | .connection false => isTrue trivial
  | .channelLost => isTrue trivial
  | .data _ => inferInstanceAs (Decidable (_ = true))
  | .connectTimeout => inferInstanceAs (Decidable (_ = some Timeout.connect))
  | .responseTimeout => inferInstanceAs (Decidable (_ = some Timeout.response))
  | .close => isTrue trivial
  | .deliver => isTrue trivial

theorem step_live {s : State} (h : s.core.Live) {e : Event} (he : libhv s e) :
    (step W s e).core.Live := by
  cases e with
  | enqueue unitId address count => exact enqueueInLoop_live h unitId address count
  | connection up =>
    cases up with
    | false => exact onConnection_down h
    | true =>
      have hconnecting : s.core.connecting = true := he
      rcases h with h | h | ⟨⟨h, -⟩ | h, -⟩
      · exact .inl (by simp [step, State.map, onConnection, h])
      · exact onConnection_up h
      · simp [h.connecting] at hconnecting
      · simp [h.connecting] at hconnecting
  | channelLost => exact channelLost_live h
  | data bytes => exact (onData_linked (h.linked he) bytes).live
  | connectTimeout => exact .inl (onConnectTimeout_closes h he)
  | responseTimeout => exact .inl (onResponseTimeout_closes h he)
  | close => exact .inl (closeInLoop_closes _)
  | deliver => exact deliver_live h

/-- A session driven by a libhv that keeps its promises. -/
def libhvMachine (W : World) : Machine State Event := (machine W).restrict libhv

theorem libhvMachine_live (W : World) : (libhvMachine W).Invariant (·.core.Live) where
  init s hs := by
    obtain rfl : s = {} := hs
    exact .inr (.inr ⟨.inl ⟨⟨rfl, rfl, rfl, rfl, rfl⟩, rfl⟩, fun h => by cases h⟩)
  next _ _ hs he := step_live hs he.2

theorem Core.Live.phase {s : Core} (h : s.Live) (hopen : s.closed = false) :
    (s.Resting ∧ s.queue = []) ∨ s.Connecting ∨ s.Awaiting := by
  rcases h with h | h | ⟨h | h, -⟩
  · simp [h] at hopen
  · exact .inr (.inl h)
  · exact .inl h
  · exact .inr (.inr h)

/-- A read not resolved is held, so that the session is not resting. -/
theorem Core.Accounted.held_of_unresolved {s : Core} (hs : s.Accounted) {k : ℕ}
    (hk : k < s.enqueued) (hu : s.succeeded k + s.failures k = 0) : s.held ≠ [] := by
  intro hnil
  obtain ⟨ha, hq⟩ := List.append_eq_nil_iff.1 hnil
  have h := hs.places hk
  simp only [Core.waiting, Core.activeFor, ha, hq, List.map_nil, List.count_nil] at h
  omega

/-- Between two callbacks of the loop no read of an open session waits without
an armed timer. -/
theorem no_read_stalls {s : State} (hs : (libhvMachine W).Reachable s)
    (hopen : s.core.closed = false) :
    (s.core.queue ≠ [] → s.core.active.isSome) ∧
    (s.core.active.isSome → (s.core.connecting ^^ s.core.awaitingResponse) = true) ∧
    (s.core.connecting ∨ s.core.awaitingResponse → s.core.active.isSome) ∧
    (s.core.armed.isSome ↔ s.core.connecting ∨ s.core.awaitingResponse) ∧
    ∀ k < s.core.enqueued, s.core.succeeded k + s.core.failures k = 0 →
      s.core.armed.isSome := by
  have hlive : s.core.Live := (libhvMachine_live W).reachable hs
  have hacc : s.core.Accounted := (machine_accounted W).reachable hs.of_restrict
  rcases hlive.phase hopen with ⟨h, hq⟩ | h | h
  · refine ⟨fun hne => absurd hq hne, ?_, ?_, ?_, fun k hk hu => ?_⟩
    · simp [h.active]
    · simp [h.connecting, h.awaiting]
    · simp [h.connecting, h.awaiting, h.armed]
    · have hnil : s.core.held = [] := by simp [Core.held, h.active, hq]
      exact absurd hnil (hacc.held_of_unresolved hk hu)
  · simp [h.active, h.connecting, h.awaiting, h.armed]
  · simp [h.active, h.connecting, h.awaiting, h.armed]

/-- One read, its connection up and its request sent: the response timer is armed. -/
theorem no_read_stalls_awaiting :
    let s := step .obliging (step .obliging {} (.enqueue 7 100 1)) (.connection true)
    s.core.awaitingResponse = true ∧ s.core.armed.isSome := by
  have h₁ : (libhvMachine .obliging).enabled {} (.enqueue 7 100 1) := ⟨trivial, trivial⟩
  have h₂ : (libhvMachine .obliging).enabled
      (step .obliging {} (.enqueue 7 100 1)) (.connection true) := ⟨trivial, rfl⟩
  have h := no_read_stalls (.next (.next (.init rfl) h₁) h₂) (by decide)
  exact ⟨by decide, h.2.2.2.2 0 (by decide) (by decide)⟩

end Neubau.Modbus.Session
