import Neubau.Modbus.Single

/-! The requests of a connected session stand in line, each with the transaction
id it has or will get. Only the first is on the wire. Whichever way it is
resolved, it leaves the line and the next one is sent; ids of neighbours differ,
so that no reply to the one is taken for a reply to the other. -/

namespace Neubau.Modbus.Session

open Neubau.Common Neubau.Transition

variable {W : World}

/-- The transaction ids the requests of a queue will get. -/
def number : UInt16 → List Request → List Request
  | _, [] => []
  | transaction, r :: rest =>
    { r with transactionId := transaction } :: number (bump transaction) rest

/-- The requests held, as they were or will be sent. -/
def Core.line (s : Core) : List Request := s.active.toList ++ number s.nextTransaction s.queue

theorem map_number {β : Type} (f : Request → β)
    (hf : ∀ (r : Request) t, f { r with transactionId := t } = f r) (t : UInt16)
    (rs : List Request) : (number t rs).map f = rs.map f := by
  induction rs generalizing t with
  | nil => rfl
  | cons r rs ih => rw [number, List.map_cons, List.map_cons, ih, hf]

theorem map_line {β : Type} (f : Request → β)
    (hf : ∀ (r : Request) t, f { r with transactionId := t } = f r) (s : Core) :
    s.line.map f = s.held.map f := by
  rw [Core.line, Core.held, List.map_append, List.map_append, map_number f hf]

theorem bump_ne (t : UInt16) : bump t ≠ t := by
  unfold bump
  split_ifs with h
  · rintro rfl
    exact absurd h (by decide)
  · intro heq
    have hone : (1 : UInt16) = 0 := by
      calc (1 : UInt16) = t + 1 - t := by rw [UInt16.add_comm, UInt16.add_sub_cancel]
        _ = 0 := by rw [heq, UInt16.sub_self]
    exact absurd hone (by decide)

/-- The next transaction id is the one after that of the active request. -/
def Core.Fresh (s : Core) : Prop :=
  ∀ a, s.active = some a → s.nextTransaction = bump a.transactionId

theorem Core.Fresh.of_eq {s t : Core} (h : s.Fresh) (ha : t.active = s.active)
    (hn : t.nextTransaction = s.nextTransaction) : t.Fresh := by
  intro a hactive
  rw [hn]
  exact h a (ha ▸ hactive)

theorem Core.Fresh.of_none {s : Core} (h : s.active = none) : s.Fresh := by
  intro a ha
  simp [h] at ha

@[simp] theorem disarmTimeout_nextTransaction (s : Core) :
    s.disarmTimeout.nextTransaction = s.nextTransaction := by
  unfold Core.disarmTimeout; split <;> rfl

theorem failAll_fresh {s : Core} (h : s.Fresh) (f : Exception) : (failAll W s f).Fresh := by
  cases hs : s.closed with
  | false =>
    rw [failAll_open hs]
    exact .of_none rfl
  | true => rwa [failAll_closed hs]

theorem closeInLoop_fresh {s : Core} (h : s.Fresh) : (closeInLoop W s).Fresh := by
  unfold closeInLoop
  split_ifs
  · exact h
  · exact failAll_fresh h _

theorem sendActive_fresh {s : Core} (h : s.Fresh) : (sendActive W s).Fresh := by
  unfold sendActive
  split
  · exact h
  · dsimp only
    split_ifs
    · exact h
    · exact failAll_fresh h _
    · exact failAll_fresh (Core.Fresh.of_eq (s := s) h (by rfl) (by rfl)) _
    · exact h.of_eq (by simp [Core.armTimeout]) (by simp [Core.armTimeout])

theorem startConnection_fresh {s : Core} (h : s.Fresh) : (startConnection W s).Fresh := by
  unfold startConnection
  dsimp only
  split_ifs
  · exact h
  · exact failAll_fresh (h.of_eq (by simp [Core.armTimeout]) (by simp [Core.armTimeout])) _
  · exact h.of_eq (by simp [Core.armTimeout]) (by simp [Core.armTimeout])

theorem startNext_fresh {s : Core} (h : s.Fresh) : (startNext W s).Fresh := by
  refine startNext_keeps h fun request rest _ _ _ => ?_
  have hstarted : (s.started request rest).Fresh := by
    rintro a ⟨⟩
    rfl
  exact ⟨sendActive_fresh hstarted, startConnection_fresh hstarted⟩

theorem callFailure_fresh {s : Core} (h : s.Fresh) (r : Request) (f : Exception) :
    (callFailure W (closeInLoop W) s r f).Fresh := by
  unfold callFailure
  dsimp only
  split_ifs
  · exact closeInLoop_fresh (h.of_eq rfl rfl)
  · exact h.of_eq rfl rfl

theorem finishActiveError_fresh {s : Core} (h : s.Fresh) (f : Exception) :
    (finishActiveError W s f).Fresh := by
  cases hr : s.active with
  | none => rwa [finishActiveError_idle hr]
  | some request =>
    rw [finishActiveError_active hr]
    exact startNext_fresh (callFailure_fresh (.of_none rfl) request f)

theorem finishActiveSuccess_fresh {s : Core} (h : s.Fresh) (registers : Registers) :
    (finishActiveSuccess W s registers).Fresh := by
  cases hr : s.active with
  | none => rwa [finishActiveSuccess_idle hr]
  | some request =>
    rw [finishActiveSuccess_active hr]
    exact startNext_fresh (.of_none rfl)

theorem handleFrame_fresh {s : Core} (h : s.Fresh) (frame : Bytes) :
    (handleFrame W s frame).Fresh :=
  handleFrame_keeps h (finishActiveError_fresh h) (finishActiveSuccess_fresh h) frame

theorem enqueueInLoop_fresh {s : Core} (h : s.Fresh) (unitId : UInt8) (address count : UInt16) :
    (enqueueInLoop W s unitId address count).Fresh := by
  cases hc : s.closed with
  | true =>
    rw [enqueueInLoop_closed hc]
    exact h.of_eq rfl rfl
  | false =>
    rw [enqueueInLoop_open hc]
    exact startNext_fresh (h.of_eq rfl rfl)

theorem onConnection_fresh {s : Core} (h : s.Fresh) (up : Bool) : (onConnection W s up).Fresh := by
  unfold onConnection
  dsimp only
  split_ifs
  · exact h.of_eq rfl rfl
  · exact sendActive_fresh (h.of_eq (by simp) (by simp))
  · exact failAll_fresh (Core.Fresh.of_eq (s := s) h (by rfl) (by rfl)) _
  · exact h.of_eq rfl rfl

theorem fire_fresh {s : Core} (h : s.Fresh) (callback : Timeout) : (s.fire callback).Fresh := by
  unfold Core.fire
  split_ifs
  · exact h.of_eq rfl rfl
  · exact h

theorem step_fresh {s : State} (h : s.core.Fresh) (e : Event) : (step W s e).core.Fresh := by
  cases e with
  | enqueue unitId address count => exact enqueueInLoop_fresh h unitId address count
  | connection up => exact onConnection_fresh h up
  | channelLost => exact h.of_eq rfl rfl
  | data bytes =>
    exact onData_keeps (P := Core.Fresh) (fun _ f _ hc => handleFrame_fresh hc f)
      (fun _ _ hc => finishActiveError_fresh hc _) h bytes
  | connectTimeout =>
    show (onConnectTimeout W (s.core.fire .connect)).Fresh
    unfold onConnectTimeout
    split_ifs
    · exact failAll_fresh (fire_fresh h _) _
    · exact fire_fresh h _
  | responseTimeout =>
    show (onResponseTimeout W (s.core.fire .response)).Fresh
    unfold onResponseTimeout
    split_ifs
    · exact failAll_fresh (fire_fresh h _) _
    · exact fire_fresh h _
  | close => exact closeInLoop_fresh h
  | deliver =>
    show s.core.deliver.Fresh
    unfold Core.deliver
    split
    · exact h
    · exact h.of_eq rfl rfl

theorem machine_fresh (W : World) : (machine W).Invariant (·.core.Fresh) where
  init s hs := by
    obtain rfl : s = {} := hs
    exact .of_none rfl
  next s e hs _ := step_fresh hs e

/-! ### A connected session -/

/-- An open session on a connection that was reported. -/
structure Core.Up (s : Core) : Prop where
  opened : s.closed = false
  connected : s.connected = true
  link : s.isConnected = true
  fresh : s.Fresh
  idle : s.active = none → s.queue = []

theorem up_of_reachable {s : State} (hs : (libhvMachine W).Reachable s)
    (hopen : s.core.closed = false) (hlink : s.core.isConnected = true) : s.core.Up := by
  have hlive : s.core.Live := (libhvMachine_live W).reachable hs
  have hfresh : s.core.Fresh := (machine_fresh W).reachable hs.of_restrict
  rcases hlive.linked hlink with h | ⟨hserving, -, hconnected⟩
  · simp [h] at hopen
  · refine ⟨hopen, hconnected, hlink, hfresh, fun hnone => ?_⟩
    rcases hserving with ⟨-, hqueue⟩ | hawaiting
    · exact hqueue
    · exact absurd hawaiting.active (by simp [hnone])

/-- The first in line is the active request. -/
theorem Core.Up.active {s : Core} (h : s.Up) {a : Request} {rest : List Request}
    (hl : s.line = a :: rest) : s.active = some a ∧ number s.nextTransaction s.queue = rest := by
  cases ha : s.active with
  | none =>
    rw [Core.line, ha, h.idle ha] at hl
    cases hl
  | some b =>
    rw [Core.line, ha] at hl
    cases hl
    exact ⟨rfl, rfl⟩

theorem active_none {s : Core} (hl : s.line = []) : s.active = none := by
  cases ha : s.active with
  | none => rfl
  | some b => simp [Core.line, ha] at hl

/-- Neighbours in line have different transaction ids. -/
theorem Core.Up.neighbour {s : Core} (h : s.Up) {a b : Request} {rest : List Request}
    (hl : s.line = a :: b :: rest) : b.transactionId ≠ a.transactionId := by
  obtain ⟨ha, hrest⟩ := h.active hl
  cases hq : s.queue with
  | nil =>
    rw [hq] at hrest
    cases hrest
  | cons r q =>
    rw [hq, number] at hrest
    cases hrest
    show s.nextTransaction ≠ a.transactionId
    rw [h.fresh a ha]
    exact bump_ne _

/-- The request that is sent when those before it are resolved. -/
def sentNext (line : List Request) : List Effect := line.head?.toList.map fun r => .sent r r.bytes

/-- The first in line was resolved with this effect. -/
structure Resolved (s t : Core) (rest : List Request) (e : Effect) : Prop where
  up : t.Up
  line : t.line = rest
  log : t.log = s.log ++ e :: sentNext rest

/-- The next request goes out over the connection. -/
theorem startNext_sends {s t : Core} {e : Effect} (hopen : t.closed = false)
    (hconnected : t.connected = true) (hlink : t.isConnected = true) (hactive : t.active = none)
    (hlog : t.log = s.log ++ [e]) :
    Resolved s (startNext .obliging t) (number t.nextTransaction t.queue) e := by
  cases hq : t.queue with
  | nil =>
    rw [startNext_nil hq]
    refine ⟨⟨hopen, hconnected, hlink, .of_none hactive, fun _ => hq⟩, ?_, hlog⟩
    rw [Core.line, hactive, hq]
    rfl
  | cons r rest =>
    have heq : startNext .obliging t = Core.armTimeout { t with
        active := some { r with transactionId := t.nextTransaction }
        queue := rest
        nextTransaction := bump t.nextTransaction
        sends := t.sends + 1
        log := t.log ++ [Effect.sent { r with transactionId := t.nextTransaction }
          (Request.bytes { r with transactionId := t.nextTransaction })]
        awaitingResponse := true } .response := by
      have hlink' : t.client.any (·.isConnected) = true := hlink
      simp [startNext, sendActive, hopen, hactive, hq, hconnected, Core.isConnected, hlink',
        World.obliging]
    rw [heq]
    refine ⟨⟨?_, ?_, ?_, ?_, ?_⟩, ?_, ?_⟩
    · simpa [Core.armTimeout] using hopen
    · simpa [Core.armTimeout] using hconnected
    · simpa [Core.armTimeout, Core.isConnected] using hlink
    · intro a ha
      simp only [Core.armTimeout, disarmTimeout_active, Option.some.injEq] at ha
      simp [Core.armTimeout, ← ha]
    · simp [Core.armTimeout]
    · simp [Core.line, Core.armTimeout, number]
    · simp [Core.armTimeout, hlog, number, sentNext]

theorem finishActiveError_resolves {s : Core} (h : s.Up) {a : Request} {rest : List Request}
    (hl : s.line = a :: rest) (f : Exception) :
    Resolved s (finishActiveError .obliging s f) rest (.failed a f false) := by
  obtain ⟨hactive, rfl⟩ := h.active hl
  have hcall : callFailure .obliging (closeInLoop .obliging) s.released a f =
      { s.released with log := s.log ++ [Effect.failed a f false] } := by
    simp [callFailure, World.obliging, Core.released, h.opened]
  rw [finishActiveError_active hactive, hcall]
  have hsends := startNext_sends (s := s) (e := .failed a f false)
    (t := { s.released with log := s.log ++ [Effect.failed a f false] })
    (by simpa [Core.released] using h.opened) (by simpa [Core.released] using h.connected)
    (by simpa [Core.released, Core.isConnected] using h.link) rfl rfl
  simpa [Core.released] using hsends

theorem finishActiveSuccess_resolves {s : Core} (h : s.Up) {a : Request} {rest : List Request}
    (hl : s.line = a :: rest) (registers : Registers) :
    Resolved s (finishActiveSuccess .obliging s registers) rest (.posted a registers) := by
  obtain ⟨hactive, rfl⟩ := h.active hl
  rw [finishActiveSuccess_active hactive]
  have hsends := startNext_sends (s := s) (e := .posted a registers)
    (t := s.answered a registers) (by simpa [Core.answered, Core.released] using h.opened)
    (by simpa [Core.answered, Core.released] using h.connected)
    (by simpa [Core.answered, Core.released, Core.isConnected] using h.link) rfl rfl
  simpa [Core.answered, Core.released] using hsends

end Neubau.Modbus.Session
