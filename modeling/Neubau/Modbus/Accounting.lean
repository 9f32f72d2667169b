import Neubau.Modbus.SessionSpec

/-! Every read is resolved exactly once. The observers resolved so far, then the
one of the active request, then those of the queue, are between two callbacks the
observers of the reads enqueued, in order and without repetition. A closed
session holds nothing and stays closed: later reads fail at once. -/

namespace Neubau.Modbus.Session

open Neubau.Common Neubau.Transition

variable {W : World}

/-- The observer an effect resolves, by a success queued on the loop or by a failure. -/
def Effect.resolves : Effect → Option ℕ
  | .posted r _ => some r.observer
  | .failed r _ _ => some r.observer
  | _ => none

/-- The observers resolved so far and those still held, in this order. -/
def Core.roll (s : Core) : List ℕ :=
  s.log.filterMap Effect.resolves ++ s.held.map (·.observer)

/-- Nothing is held, nothing is under way and no timer is armed. -/
structure Core.Quiet (s : Core) : Prop where
  queue : s.queue = []
  active : s.active = none
  timer : s.timer = none
  armed : s.armed = none

/-- The bookkeeping of a session between two callbacks of the loop. -/
structure Core.Accounted (s : Core) : Prop where
  roll : s.roll = List.range s.enqueued
  timer : s.timer = none → s.armed = none
  quiet : s.closed = true → s.Quiet

/-- A function that resolves nothing without releasing it, keeps the bookkeeping
of timers, and only adds to the log. -/
structure Conserves (s t : Core) : Prop where
  log : s.log <+: t.log
  roll : t.roll = s.roll
  enqueued : t.enqueued = s.enqueued
  timer : (s.timer = none → s.armed = none) → t.timer = none → t.armed = none
  quiet : (s.timer = none → s.armed = none) → (s.closed = true → s.Quiet) →
    t.closed = true → t.Quiet

theorem Conserves.refl (s : Core) : Conserves s s :=
  ⟨List.prefix_rfl, rfl, rfl, id, fun _ h => h⟩

theorem Conserves.trans {s t u : Core} (h₁ : Conserves s t) (h₂ : Conserves t u) :
    Conserves s u :=
  ⟨h₁.log.trans h₂.log, h₂.roll.trans h₁.roll, h₂.enqueued.trans h₁.enqueued,
    fun h => h₂.timer (h₁.timer h), fun h hq => h₂.quiet (h₁.timer h) (h₁.quiet h hq)⟩

theorem Conserves.accounted {s t : Core} (h : Conserves s t) (hs : s.Accounted) : t.Accounted :=
  ⟨by rw [h.roll, h.enqueued, hs.roll], h.timer hs.timer, h.quiet hs.timer hs.quiet⟩

/-- An open state that resolves nothing and whose timers match. -/
theorem Conserves.of_open {s t : Core} (hl : s.log <+: t.log) (hr : t.roll = s.roll)
    (he : t.enqueued = s.enqueued)
    (ht : (s.timer = none → s.armed = none) → t.timer = none → t.armed = none)
    (hc : t.closed = false) : Conserves s t :=
  ⟨hl, hr, he, ht, fun _ _ h => by simp [hc] at h⟩

theorem filterMap_failed (rs : List Request) (f : Exception) (b : Bool) :
    (rs.map (Effect.failed · f b)).filterMap Effect.resolves = rs.map (·.observer) := by
  induction rs with
  | nil => rfl
  | cons r rs ih => simp [Effect.resolves, ih]

theorem failed_conserves (s : Core) (f : Exception) : Conserves s (s.failed f) where
  log := List.prefix_append _ _
  roll := by
    simp only [Core.roll, Core.failed, Core.held, List.filterMap_append, filterMap_failed]
    simp
  enqueued := by simp [Core.failed]
  timer h _ := disarmTimeout_armed h
  quiet h _ _ := ⟨rfl, rfl, disarmTimeout_timer s, disarmTimeout_armed h⟩

theorem failAll_conserves (s : Core) (f : Exception) : Conserves s (failAll W s f) := by
  cases hs : s.closed with
  | false => rw [failAll_open hs]; exact failed_conserves s f
  | true => rw [failAll_closed hs]; exact .refl s

theorem closeInLoop_conserves (s : Core) : Conserves s (closeInLoop W s) := by
  unfold closeInLoop
  split_ifs
  · exact .refl s
  · exact failAll_conserves s _

theorem sendActive_conserves (s : Core) : Conserves s (sendActive W s) := by
  unfold sendActive
  split
  · exact .refl s
  · rename_i active ha
    dsimp only
    split_ifs with hclosed hup hsend
    · exact .refl s
    · exact failAll_conserves s _
    · refine .trans ?_ (failAll_conserves _ _)
      exact .of_open List.prefix_rfl rfl rfl id (by simpa using hclosed)
    · refine .of_open ?_ ?_ ?_ ?_ ?_ <;>
        simp_all [Core.roll, Core.held, Core.armTimeout, Effect.resolves]

theorem startConnection_conserves (s : Core) : Conserves s (startConnection W s) := by
  unfold startConnection
  dsimp only
  split_ifs with h hcreated
  · exact .refl s
  · refine .trans (.of_open ?_ ?_ ?_ ?_ ?_) (failAll_conserves _ _) <;>
      simp_all [Core.roll, Core.held, Core.armTimeout]
  · refine .of_open ?_ ?_ ?_ ?_ ?_ <;> simp_all [Core.roll, Core.held, Core.armTimeout]

theorem startNext_conserves (s : Core) : Conserves s (startNext W s) := by
  refine startNext_keeps (.refl s) fun request rest hopen hnone hq => ?_
  have hroll : (s.started request rest).roll = s.roll := by
    simp [Core.roll, Core.held, Core.started, hnone, hq]
  have hs : Conserves s (s.started request rest) := .of_open List.prefix_rfl hroll rfl id hopen
  exact ⟨hs.trans (sendActive_conserves _), hs.trans (startConnection_conserves _)⟩

/-- Telling the observer of a request that was just released resolves it. -/
theorem callFailure_conserves {s : Core} {r : Request} (hs : s.closed = false)
    (hr : s.active = some r) (f : Exception) :
    Conserves s (callFailure W (closeInLoop W) s.released r f) := by
  have hreleased : s.released.closed = false := by simpa [Core.released] using hs
  have htold : Conserves s
      { s.released with log := s.released.log ++ [Effect.failed r f s.released.closed] } := by
    refine .of_open ?_ ?_ ?_ (fun h _ => disarmTimeout_armed h) hreleased
    · simp [Core.released]
    · simp [Core.roll, Core.held, Core.released, hr, Effect.resolves]
    · simp [Core.released]
  unfold callFailure
  dsimp only
  split_ifs
  · exact htold.trans (closeInLoop_conserves _)
  · exact htold

theorem finishActiveError_conserves {s : Core} (hs : s.closed = false) (f : Exception) :
    Conserves s (finishActiveError W s f) := by
  cases hr : s.active with
  | none =>
    rw [finishActiveError_idle hr]
    exact .refl s
  | some request =>
    rw [finishActiveError_active hr]
    exact (callFailure_conserves hs hr f).trans (startNext_conserves _)

theorem finishActiveSuccess_conserves {s : Core} (hs : s.closed = false) (rs : Registers) :
    Conserves s (finishActiveSuccess W s rs) := by
  cases hr : s.active with
  | none =>
    rw [finishActiveSuccess_idle hr]
    exact .refl s
  | some request =>
    have hanswered : Conserves s (s.answered request rs) := by
      refine .of_open ?_ ?_ ?_ (fun h _ => disarmTimeout_armed h) ?_
      · simp [Core.answered]
      · simp [Core.answered, Core.released, Core.roll, Core.held, hr, Effect.resolves]
      · simp [Core.answered, Core.released]
      · simpa [Core.answered, Core.released] using hs
    rw [finishActiveSuccess_active hr]
    exact hanswered.trans (startNext_conserves _)

theorem handleFrame_conserves {s : Core} (hs : s.closed = false) (frame : Bytes) :
    Conserves s (handleFrame W s frame) :=
  handleFrame_keeps (.refl s) (finishActiveError_conserves hs) (finishActiveSuccess_conserves hs)
    frame

theorem onData_conserves (s : State) (bytes : Bytes) :
    Conserves s.core (onData W s bytes).core :=
  onData_keeps (fun _ f hc h => h.trans (handleFrame_conserves hc f))
    (fun _ hc h => h.trans (finishActiveError_conserves hc _)) (.refl _) bytes

theorem onConnection_conserves (s : Core) (up : Bool) : Conserves s (onConnection W s up) := by
  unfold onConnection
  dsimp only
  have hclient : Conserves s
      { s with client := s.client.map fun _ => { isConnected := up } } :=
    ⟨List.prefix_rfl, rfl, rfl, id, fun _ h hc => ⟨(h hc).1, (h hc).2, (h hc).3, (h hc).4⟩⟩
  split_ifs with hc hup hlost
  · exact hclient
  · refine .trans (.of_open ?_ ?_ ?_ ?_ ?_) (sendActive_conserves _)
    · simp
    · simp [Core.roll, Core.held]
    · simp
    · exact fun h _ => disarmTimeout_armed h
    · simpa using hc
  · refine .trans ?_ (failAll_conserves _ _)
    exact .of_open List.prefix_rfl rfl rfl id (by simpa using hc)
  · exact .of_open List.prefix_rfl rfl rfl id (by simpa using hc)

theorem onConnectTimeout_conserves (s : Core) : Conserves s (onConnectTimeout W s) := by
  unfold onConnectTimeout
  split_ifs
  · exact failAll_conserves s _
  · exact .refl s

theorem onResponseTimeout_conserves (s : Core) : Conserves s (onResponseTimeout W s) := by
  unfold onResponseTimeout
  split_ifs
  · exact failAll_conserves s _
  · exact .refl s

/-- A new read is the last on the roll, waiting or failed. -/
theorem enqueueInLoop_accounted {s : Core} (hs : s.Accounted) (unitId : UInt8)
    (address count : UInt16) : (enqueueInLoop W s unitId address count).Accounted := by
  cases hc : s.closed with
  | true =>
    have hq := hs.quiet hc
    have hroll := hs.roll
    rw [enqueueInLoop_closed hc]
    refine ⟨?_, hs.timer, fun _ => ⟨hq.queue, hq.active, hq.timer, hq.armed⟩⟩
    simp_all [Core.roll, Core.held, hq.queue, hq.active, Effect.resolves, List.range_succ]
  | false =>
    rw [enqueueInLoop_open hc]
    refine (startNext_conserves _).accounted ⟨?_, hs.timer, fun h => by simp [hc] at h⟩
    rw [List.range_succ, ← hs.roll]
    simp [Core.roll, Core.held]

theorem fire_accounted {s : Core} (hs : s.Accounted) (callback : Timeout) :
    (s.fire callback).Accounted := by
  unfold Core.fire
  split_ifs
  · exact ⟨hs.roll, fun _ => rfl,
      fun h => ⟨(hs.quiet h).queue, (hs.quiet h).active, (hs.quiet h).timer, rfl⟩⟩
  · exact hs

theorem deliver_accounted {s : Core} (hs : s.Accounted) : s.deliver.Accounted := by
  unfold Core.deliver
  split
  · exact hs
  · refine ⟨?_, hs.timer, fun h => ⟨(hs.quiet h).1, (hs.quiet h).2, (hs.quiet h).3, (hs.quiet h).4⟩⟩
    dsimp only
    rw [← hs.roll]
    simp [Core.roll, Core.held, List.filterMap_cons, Effect.resolves]

theorem step_accounted {s : State} (hs : s.core.Accounted) (e : Event) :
    (step W s e).core.Accounted := by
  cases e with
  | enqueue unitId address count => exact enqueueInLoop_accounted hs unitId address count
  | connection up => exact (onConnection_conserves _ up).accounted hs
  | channelLost =>
    exact ⟨hs.roll, hs.timer,
      fun h => ⟨(hs.quiet h).1, (hs.quiet h).2, (hs.quiet h).3, (hs.quiet h).4⟩⟩
  | data bytes => exact (onData_conserves s bytes).accounted hs
  | connectTimeout => exact (onConnectTimeout_conserves _).accounted (fire_accounted hs .connect)
  | responseTimeout =>
    exact (onResponseTimeout_conserves _).accounted (fire_accounted hs .response)
  | close => exact (closeInLoop_conserves _).accounted hs
  | deliver => exact deliver_accounted hs

/-- A session under any interleaving of events. -/
def machine (W : World) : Machine State Event where
  init s := s = {}
  enabled _ _ := True
  next := step W

theorem machine_accounted (W : World) : (machine W).Invariant (·.core.Accounted) where
  init s hs := by
    obtain rfl : s = {} := hs
    exact ⟨rfl, fun _ => rfl, fun h => by cases h⟩
  next s e hs _ := step_accounted hs e

/-! ### The four places of a read -/

/-- How often the read of observer `k` waits in the queue. -/
def Core.waiting (s : Core) (k : ℕ) : ℕ := (s.queue.map (·.observer)).count k

/-- How often it is the active request. -/
def Core.activeFor (s : Core) (k : ℕ) : ℕ := (s.active.toList.map (·.observer)).count k

/-- How often its success callback was queued on the loop. -/
def Core.succeeded (s : Core) (k : ℕ) : ℕ :=
  s.log.countP fun | .posted r _ => r.observer = k | _ => false

/-- How often its failure callback was called. -/
def Core.failures (s : Core) (k : ℕ) : ℕ :=
  s.log.countP fun | .failed r _ _ => r.observer = k | _ => false

theorem count_resolves (log : List Effect) (k : ℕ) :
    (log.filterMap Effect.resolves).count k =
      log.countP (fun | .posted r _ => r.observer = k | _ => false) +
        log.countP (fun | .failed r _ _ => r.observer = k | _ => false) := by
  induction log with
  | nil => rfl
  | cons e log ih =>
    cases e <;> simp [List.filterMap_cons, Effect.resolves, List.count_cons, List.countP_cons, ih] <;>
      omega

theorem count_roll (s : Core) (k : ℕ) :
    s.roll.count k = s.waiting k + s.activeFor k + s.succeeded k + s.failures k := by
  simp only [Core.roll, Core.held, List.map_append, List.count_append, count_resolves,
    Core.waiting, Core.activeFor, Core.succeeded, Core.failures]
  omega

theorem Core.Accounted.places {s : Core} (hs : s.Accounted) {k : ℕ} (hk : k < s.enqueued) :
    s.waiting k + s.activeFor k + s.succeeded k + s.failures k = 1 := by
  rw [← count_roll, hs.roll]
  exact List.count_eq_one_of_mem (List.nodup_range) (List.mem_range.2 hk)

theorem Core.Quiet.resolved {s : Core} (hq : s.Quiet) (hs : s.Accounted) {k : ℕ}
    (hk : k < s.enqueued) : s.succeeded k + s.failures k = 1 := by
  have h := hs.places hk
  simpa [Core.waiting, Core.activeFor, hq.queue, hq.active] using h

/-! ### After the close -/

/-- The bytes sent and the successes queued, in order. -/
def produced (log : List Effect) : List Effect :=
  log.filter fun | .sent _ _ => true | .posted _ _ => true | _ => false

/-- The failure callbacks called, with their errors, in order. -/
def rejections (log : List Effect) : List (ℕ × Exception) :=
  log.filterMap fun | .failed r f _ => some (r.observer, f) | _ => none

def Event.isEnqueue : Event → Bool
  | .enqueue _ _ _ => true
  | _ => false

/-- The failures of `n` reads enqueued after the first `k`, each told the session stopped. -/
def stoppedFrom (k n : ℕ) : List (ℕ × Exception) :=
  (List.range' k n).map (·, error "Modbus session stopped")

/-- One callback of a closed session. -/
theorem step_closed {s : State} (hc : s.core.closed = true) (e : Event) :
    (step W s e).core.closed = true ∧
      (step W s e).core.enqueued = s.core.enqueued + (if e.isEnqueue then 1 else 0) ∧
      produced (step W s e).core.log = produced s.core.log ∧
      rejections (step W s e).core.log = rejections s.core.log ++
        stoppedFrom s.core.enqueued (if e.isEnqueue then 1 else 0) := by
  cases e with
  | enqueue unitId address count =>
    simp only [step, State.map, enqueueInLoop_closed hc]
    simp [hc, Event.isEnqueue, produced, rejections, stoppedFrom]
  | connection up => simp [step, State.map, onConnection, hc, Event.isEnqueue, stoppedFrom]
  | channelLost => simp [step, State.map, hc, Event.isEnqueue, stoppedFrom]
  | data bytes => simp [step, onData, hc, Event.isEnqueue, stoppedFrom]
  | connectTimeout => simp [step, State.map, onConnectTimeout, hc, Event.isEnqueue, stoppedFrom]
  | responseTimeout => simp [step, State.map, onResponseTimeout, hc, Event.isEnqueue, stoppedFrom]
  | close => simp [step, State.map, closeInLoop, hc, Event.isEnqueue, stoppedFrom]
  | deliver =>
    simp only [step, State.map, Core.deliver]
    split <;> simp [hc, Event.isEnqueue, stoppedFrom, produced, rejections]

theorem run_closed {s t : State} {es : List Event} (hr : (machine W).Run s es t)
    (hc : s.core.closed = true) :
    t.core.closed = true ∧ produced t.core.log = produced s.core.log ∧
      rejections t.core.log = rejections s.core.log ++
        stoppedFrom s.core.enqueued (es.countP Event.isEnqueue) := by
  induction hr with
  | nil => simp [hc, stoppedFrom]
  | @cons s t e es _ _ ih =>
    obtain ⟨hc', hn, hp, hj⟩ := step_closed (W := W) hc e
    obtain ⟨htc, htp, htj⟩ := ih hc'
    refine ⟨htc, htp.trans hp, ?_⟩
    change _ = _ ++ stoppedFrom (step W s e).core.enqueued _ at htj
    rw [htj]
    change rejections (step W s e).core.log ++ _ = _
    rw [hj, hn, List.append_assoc, List.countP_cons]
    cases e.isEnqueue <;> simp [stoppedFrom, List.range'_succ]

/-- Between two callbacks of the loop every read is in exactly one of four places; a closed
session is empty, has resolved everything, and from then on sends nothing,
completes nothing and fails every later read once. -/
theorem every_read_resolved_once {s : State} (hs : (machine W).Reachable s) :
    (∀ k < s.core.enqueued,
      s.core.waiting k + s.core.activeFor k + s.core.succeeded k + s.core.failures k = 1) ∧
    (s.core.closed = true → s.core.Quiet ∧
      ∀ k < s.core.enqueued, s.core.succeeded k + s.core.failures k = 1) ∧
    (s.core.closed = true → ∀ es t, (machine W).Run s es t →
      t.core.closed = true ∧ produced t.core.log = produced s.core.log ∧
        rejections t.core.log = rejections s.core.log ++
          stoppedFrom s.core.enqueued (es.countP Event.isEnqueue)) := by
  have ha : s.core.Accounted := (machine_accounted W).reachable hs
  refine ⟨fun k hk => ha.places hk, fun hc => ?_, fun hc es t hr => run_closed hr hc⟩
  have hq := ha.quiet hc
  exact ⟨hq, fun k hk => hq.resolved ha hk⟩

/-- Three reads: the first is answered, and the session is closed while the second waits
for its response. -/
def threeReads : List Event :=
  [.enqueue 7 100 1, .enqueue 7 101 1, .enqueue 8 102 1, .connection true,
    .data [0, 1, 0, 0, 0, 5, 7, 3, 2, 0x12, 0x34], .close]

theorem every_read_resolved_once_closed :
    let s := threeReads.foldl (step .obliging) {}
    s.core.Quiet ∧ (∀ k < 3, s.core.succeeded k + s.core.failures k = 1) ∧
      (List.range 3).map s.core.failures = [0, 1, 1] ∧
      rejections (step .obliging s (.enqueue 7 103 1)).core.log =
        rejections s.core.log ++ stoppedFrom 3 1 := by
  intro s
  have hs : (machine .obliging).Reachable s := .foldl (fun _ _ => trivial) (.init rfl) threeReads
  obtain ⟨-, hclosed, hlater⟩ := every_read_resolved_once hs
  obtain ⟨hquiet, hresolved⟩ := hclosed (by decide +kernel)
  have hrun : (machine .obliging).Run s [.enqueue 7 103 1] _ := .cons trivial (.nil _)
  exact ⟨hquiet, hresolved, by decide +kernel, (hlater (by decide +kernel) _ _ hrun).2.2⟩

end Neubau.Modbus.Session
