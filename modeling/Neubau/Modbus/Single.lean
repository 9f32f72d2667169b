import Neubau.Modbus.Liveness

/-! A session used for one read at a time by observers that do not close it.
The read waits for the connection, is sent, and is replied to or fails. One
event of the session turns one of these loads into another, and the log grows
by at most one effect, which the turn determines. -/

namespace Neubau.Modbus.Session

open Neubau.Common

variable {W : World}

/-- What a session carries. -/
inductive Load
  | none
  | waiting (request : Request)
  | sent (request : Request)
  | replied (request : Request) (registers : Registers)
  deriving DecidableEq, Repr

def Core.Carries (s : Core) : Load → Prop
  | .none => s.held = [] ∧ s.posted = []
  | .waiting r => s.closed = false ∧ s.Connecting ∧ s.held = [r] ∧ s.posted = []
  | .sent r => s.closed = false ∧ s.Awaiting ∧ s.held = [r] ∧ s.posted = []
  | .replied r registers => s.held = [] ∧ s.posted = [(r, registers)]

/-- The read is not resolved, and its reply is not queued either. -/
def Load.Held (r : Request) : Load → Prop
  | .waiting r' => r' = r
  | .sent r' => r' = r
  | _ => False

/-- The turns of a load, with `_closed` after them and the effects they have. -/
inductive Turn (closed : Bool) : Load → Load → List Effect → Prop
  | stay {l : Load} : ((∃ r, l.Held r) → closed = false) → Turn closed l l []
  | transmit {r : Request} :
      closed = false → Turn closed (.waiting r) (.sent r) [.sent r r.bytes]
  | reply {r : Request} {registers : Registers} :
      closed = false → Turn closed (.sent r) (.replied r registers) [.posted r registers]
  | refuse {r : Request} {f : Exception} :
      closed = false → Turn closed (.sent r) .none [.failed r f false]
  | lose {l : Load} {r : Request} {f : Exception} :
      closed = true → l.Held r → Turn closed l .none [.failed r f true]
  | deliver {r : Request} {registers : Registers} :
      Turn closed (.replied r registers) .none [.delivered r registers]

/-- One turn of a session. -/
structure Turned (s t : Core) (l l' : Load) (new : List Effect) : Prop where
  log : t.log = s.log ++ new
  enqueued : t.enqueued = s.enqueued
  carries : t.Carries l'
  turn : Turn t.closed l l' new

/-- Some turn of a session that carries `l`. -/
def Turns (s t : Core) (l : Load) : Prop := ∃ l' new, Turned s t l l' new

section

variable {s t : Core} {l : Load} {r : Request}

theorem held_eq_nil : s.held = [] ↔ s.active = none ∧ s.queue = [] := by
  simp [Core.held]

/-- With one request held and no other, the active one is it. -/
theorem held_active (h : s.held = [r]) (ha : s.active.isSome) :
    s.active = some r ∧ s.queue = [] := by
  obtain ⟨active, ha⟩ := Option.isSome_iff_exists.1 ha
  simp only [Core.held, ha, Option.toList_some, List.singleton_append, List.cons.injEq] at h
  exact ⟨by rw [ha, h.1], h.2⟩

theorem stays (hlog : t.log = s.log) (henqueued : t.enqueued = s.enqueued) (ht : t.Carries l)
    (hopen : (∃ r, l.Held r) → t.closed = false) : Turns s t l :=
  ⟨l, [], by simpa using hlog, henqueued, ht, .stay hopen⟩

/-- Closing a session that holds the request loses it. -/
theorem failAll_loses (hopen : t.closed = false) (hheld : t.held = [r]) (hposted : t.posted = [])
    (hl : l.Held r) (hlog : t.log = s.log) (henqueued : t.enqueued = s.enqueued) (f : Exception) :
    Turns s (failAll W t f) l := by
  rw [failAll_open hopen]
  refine ⟨.none, [.failed r f true], ?_, ?_, ⟨?_, ?_⟩, .lose rfl hl⟩
  · simp [Core.failed, hheld, hlog]
  · simp [Core.failed, henqueued]
  · simp [Core.failed, Core.held]
  · simp [Core.failed, hposted]

/-- The request is sent, or lost with the session. -/
theorem sendActive_turns (hopen : t.closed = false) (hactive : t.active = some r)
    (hqueue : t.queue = []) (hposted : t.posted = []) (hconnecting : t.connecting = false)
    (hlog : t.log = s.log) (henqueued : t.enqueued = s.enqueued) :
    Turns s (sendActive W t) (.waiting r) := by
  have hheld : t.held = [r] := by simp [Core.held, hactive, hqueue]
  have hl : Load.Held r (.waiting r) := rfl
  simp only [sendActive, hactive]
  rw [if_neg (by simp [hopen])]
  split_ifs with hup hsend
  · exact failAll_loses hopen hheld hposted hl hlog henqueued _
  · exact failAll_loses (by exact hopen) (by simp [Core.held, hqueue]) (by exact hposted) hl
      (by exact hlog) (by exact henqueued) _
  · refine ⟨.sent r, [.sent r r.bytes], ?_, ?_, ⟨?_, ⟨?_, ?_, ?_, rfl, rfl⟩, ?_, ?_⟩, ?_⟩
    · simp [Core.armTimeout, hlog]
    · simp [Core.armTimeout, henqueued]
    · simp [Core.armTimeout, hopen]
    · simp [Core.armTimeout]
    · simp [Core.armTimeout, hconnecting]
    · simp [Core.armTimeout]
    · simp [Core.armTimeout, Core.held, hqueue]
    · simp [Core.armTimeout, hposted]
    · exact .transmit (by simp [Core.armTimeout, hopen])

/-- A connection is on its way, or the request is lost with the session. -/
theorem startConnection_turns (hopen : t.closed = false) (hactive : t.active = some r)
    (hqueue : t.queue = []) (hposted : t.posted = []) (hconnecting : t.connecting = false)
    (hawaiting : t.awaitingResponse = false) (hlog : t.log = s.log)
    (henqueued : t.enqueued = s.enqueued) : Turns s (startConnection W t) (.waiting r) := by
  have hheld : t.held = [r] := by simp [Core.held, hactive, hqueue]
  have hl : Load.Held r (.waiting r) := rfl
  unfold startConnection
  rw [if_neg (by simp [hopen, hconnecting])]
  dsimp only
  split_ifs with hcreated
  · refine failAll_loses ?_ ?_ ?_ hl ?_ ?_ _
    · simp [Core.armTimeout, hopen]
    · simpa [Core.armTimeout, Core.held] using hheld
    · simp [Core.armTimeout, hposted]
    · simp [Core.armTimeout, hlog]
    · simp [Core.armTimeout, henqueued]
  · refine stays ?_ ?_ ⟨?_, ⟨?_, ?_, ?_, rfl, rfl, rfl⟩, ?_, ?_⟩ fun _ => ?_
    · simp [Core.armTimeout, hlog]
    · simp [Core.armTimeout, henqueued]
    · simp [Core.armTimeout, hopen]
    · simp [Core.armTimeout, hactive]
    · simp [Core.armTimeout]
    · simp [Core.armTimeout, hawaiting]
    · simpa [Core.armTimeout, Core.held] using hheld
    · simp [Core.armTimeout, hposted]
    · simp [Core.armTimeout, hopen]

/-- A request of a session that carries none. -/
theorem enqueueInLoop_turns (hlive : s.Live) (h : s.Carries .none) (unitId : UInt8)
    (address count : UInt16) :
    ∃ r : Request, r.unitId = unitId ∧ r.address = address ∧ r.count = count ∧
      r.observer = s.enqueued ∧
      Turns { s with enqueued := s.enqueued + 1 } (enqueueInLoop W s unitId address count)
        (.waiting r) := by
  obtain ⟨hheld, hposted⟩ := h
  obtain ⟨hactive, hqueue⟩ := held_eq_nil.1 hheld
  cases hclosed : s.closed with
  | true =>
    refine ⟨{ unitId, address, count, observer := s.enqueued }, rfl, rfl, rfl, rfl, ?_⟩
    rw [enqueueInLoop_closed hclosed]
    exact ⟨.none, _, rfl, rfl, ⟨hheld, hposted⟩, .lose hclosed rfl⟩
  | false =>
    rcases hlive.phase hclosed with ⟨hrest, -⟩ | hc | hw
    · let r : Request :=
        { unitId, address, count, transactionId := s.nextTransaction, observer := s.enqueued }
      refine ⟨r, rfl, rfl, rfl, rfl, ?_⟩
      rw [enqueueInLoop_open hclosed, startNext, if_neg (by simp [hclosed, hactive])]
      simp only [hqueue, List.nil_append]
      split_ifs
      · exact sendActive_turns (by exact hclosed) rfl rfl (by exact hposted)
          (by exact hrest.connecting) rfl rfl
      · exact startConnection_turns (by exact hclosed) rfl rfl (by exact hposted)
          (by exact hrest.connecting) (by exact hrest.awaiting) rfl rfl
    · exact absurd hc.active (by simp [hactive])
    · exact absurd hw.active (by simp [hactive])

/-! ### Data -/

theorem finishActiveError_refuses (hW : ∀ i f, W.closes i f = false) (h : s.Carries (.sent r))
    (f : Exception) : Turned s (finishActiveError W s f) (.sent r) .none [.failed r f false] ∧
      (finishActiveError W s f).closed = false := by
  obtain ⟨hopen, hawaiting, hheld, hposted⟩ := h
  obtain ⟨hactive, hqueue⟩ := held_active hheld hawaiting.active
  have heq : finishActiveError W s f =
      { s.released with log := s.log ++ [Effect.failed r f false] } := by
    have ht : callFailure W (closeInLoop W) s.released r f =
        { s.released with log := s.log ++ [Effect.failed r f false] } := by
      rw [callFailure, if_neg (by simp [hW])]
      simp [Core.released, hopen]
    rw [finishActiveError_active hactive, ht]
    exact startNext_nil (by simpa [Core.released] using hqueue)
  rw [heq]
  refine ⟨⟨rfl, ?_, ⟨?_, ?_⟩, .refuse ?_⟩, ?_⟩
  · simp [Core.released]
  · simp [Core.released, Core.held, hqueue]
  · simp [Core.released, hposted]
  · simp [Core.released, hopen]
  · simp [Core.released, hopen]

theorem finishActiveSuccess_replies (h : s.Carries (.sent r)) (registers : Registers) :
    Turned s (finishActiveSuccess W s registers) (.sent r) (.replied r registers)
      [.posted r registers] ∧ (finishActiveSuccess W s registers).closed = false := by
  obtain ⟨hopen, hawaiting, hheld, hposted⟩ := h
  obtain ⟨hactive, hqueue⟩ := held_active hheld hawaiting.active
  have heq : finishActiveSuccess W s registers =
      { s.released with
        posted := [(r, registers)]
        log := s.log ++ [Effect.posted r registers] } := by
    rw [finishActiveSuccess_active hactive, Core.answered, hposted, List.nil_append]
    exact startNext_nil (by simpa [Core.released] using hqueue)
  rw [heq]
  refine ⟨⟨rfl, ?_, ⟨?_, ?_⟩, .reply ?_⟩, ?_⟩
  · simp [Core.released]
  · simp [Core.released, Core.held, hqueue]
  · simp
  · simp [Core.released, hopen]
  · simp [Core.released, hopen]

/-- Data for a session that holds nothing. -/
theorem onData_idle {s : State} (h : s.core.held = []) (bytes : Bytes) :
    (onData W s bytes).core = s.core := by
  have hactive := (held_eq_nil.1 h).1
  refine onData_keeps (P := (· = s.core)) (fun t f _ ht => ?_) (fun t _ ht => ?_) rfl bytes
  · rw [ht, handleFrame_idle hactive]
  · rw [ht, finishActiveError_idle hactive]

/-- Data for a session that awaits a response: it is still awaited, or it came. -/
theorem onData_turns (hW : ∀ i f, W.closes i f = false) {s : State}
    (h : s.core.Carries (.sent r)) (bytes : Bytes) :
    Turns s.core (onData W s bytes).core (.sent r) := by
  have hkeeps : (onData W s bytes).core = s.core ∨
      ∃ l new, Turned s.core (onData W s bytes).core (.sent r) l new ∧
        (onData W s bytes).core.held = [] := by
    refine onData_keeps (P := fun t => t = s.core ∨
      ∃ l new, Turned s.core t (.sent r) l new ∧ t.held = []) (fun t frame _ ht => ?_)
      (fun t _ ht => ?_) (.inl rfl) bytes
    · rcases ht with rfl | ⟨l, new, ht, hheld⟩
      · unfold handleFrame
        split
        · exact .inl rfl
        · split
          · exact .inl rfl
          · exact .inr ⟨_, _, (finishActiveError_refuses hW h _).1,
              (finishActiveError_refuses hW h _).1.carries.1⟩
          · exact .inr ⟨_, _, (finishActiveSuccess_replies h _).1,
              (finishActiveSuccess_replies h _).1.carries.1⟩
      · rw [handleFrame_idle (held_eq_nil.1 hheld).1]
        exact .inr ⟨l, new, ht, hheld⟩
    · rcases ht with rfl | ⟨l, new, ht, hheld⟩
      · exact .inr ⟨_, _, (finishActiveError_refuses hW h _).1,
          (finishActiveError_refuses hW h _).1.carries.1⟩
      · rw [finishActiveError_idle (held_eq_nil.1 hheld).1]
        exact .inr ⟨l, new, ht, hheld⟩
  rcases hkeeps with heq | ⟨l, new, ht, -⟩
  · rw [heq]
    exact stays rfl rfl h fun _ => h.1
  · exact ⟨l, new, ht⟩

/-! ### Every event -/

theorem Core.Live.rests (hlive : s.Live) (hopen : s.closed = false) (hheld : s.held = []) :
    s.Resting := by
  have hactive := (held_eq_nil.1 hheld).1
  rcases hlive.phase hopen with ⟨h, -⟩ | h | h
  · exact h
  · exact absurd h.active (by simp [hactive])
  · exact absurd h.active (by simp [hactive])

/-- A load without a request held. -/
theorem Core.Carries.unheld (h : s.Carries l) (hl : ∀ r, ¬l.Held r) : s.held = [] := by
  cases l with
  | none => exact h.1
  | waiting r => exact absurd rfl (hl r)
  | sent r => exact absurd rfl (hl r)
  | replied r registers => exact h.1

theorem Core.Carries.congr (h : s.Carries l) (hl : ∀ r, ¬l.Held r) (hheld : t.held = [])
    (hposted : t.posted = s.posted) : t.Carries l := by
  cases l with
  | none => exact ⟨hheld, hposted.trans h.2⟩
  | waiting r => exact absurd rfl (hl r)
  | sent r => exact absurd rfl (hl r)
  | replied r registers => exact ⟨hheld, hposted.trans h.2⟩

/-- What a request held requires of the session. -/
theorem Core.Carries.holds (h : s.Carries l) (hl : l.Held r) :
    s.closed = false ∧ s.held = [r] ∧ s.posted = [] ∧ s.active.isSome := by
  cases l with
  | none => exact absurd hl id
  | waiting r' => exact hl ▸ ⟨h.1, h.2.2.1, h.2.2.2, h.2.1.active⟩
  | sent r' => exact hl ▸ ⟨h.1, h.2.2.1, h.2.2.2, h.2.1.active⟩
  | replied r' registers => exact absurd hl id

/-- A change of the session that concerns neither its load nor its log. -/
theorem Core.Carries.stays (h : s.Carries l) (hl : ∀ r, ¬l.Held r) (hheld : t.held = s.held)
    (hposted : t.posted = s.posted) (hlog : t.log = s.log) (henqueued : t.enqueued = s.enqueued) :
    Turns s t l :=
  Session.stays hlog henqueued (h.congr hl (hheld.trans (h.unheld hl)) hposted)
    fun ⟨r, hr⟩ => absurd hr (hl r)

/-- The session is closed by one of its functions. -/
theorem failAll_turns (h : s.Carries l) (hheld : t.held = s.held) (hclosed : t.closed = false)
    (hposted : t.posted = s.posted) (hlog : t.log = s.log) (henqueued : t.enqueued = s.enqueued)
    (f : Exception) : Turns s (failAll W t f) l := by
  by_cases hl : ∃ r, l.Held r
  · obtain ⟨r, hl⟩ := hl
    obtain ⟨-, hr, hp, -⟩ := h.holds hl
    exact failAll_loses hclosed (hheld.trans hr) (hposted.trans hp) hl hlog henqueued f
  · have hnone := not_exists.1 hl
    have hnil := h.unheld hnone
    rw [failAll_open hclosed]
    refine h.stays hnone ?_ ?_ ?_ ?_
    · rw [hnil]
      rfl
    · simp [Core.failed, hposted]
    · simp [Core.failed, hheld, hnil, hlog]
    · simp [Core.failed, henqueued]

theorem Core.Carries.closed_unheld (h : s.Carries l) (hclosed : s.closed = true) (r : Request) :
    ¬l.Held r :=
  fun hl => Bool.false_ne_true ((h.holds hl).1.symm.trans hclosed)

theorem onConnection_turns (hlive : s.Live) (h : s.Carries l) {up : Bool}
    (hup : up = true → s.connecting = true) : Turns s (onConnection W s up) l := by
  unfold onConnection
  dsimp only
  split_ifs with hclosed hx hlost
  · exact h.stays (h.closed_unheld hclosed) rfl rfl rfl rfl
  · have hopen : s.closed = false := by simpa using hclosed
    have hconnecting := hup hx
    cases l with
    | none => exact absurd hconnecting (by simp [(hlive.rests hopen h.1).connecting])
    | waiting r =>
      obtain ⟨-, hc, hheld, hposted⟩ := h
      obtain ⟨hactive, hqueue⟩ := held_active hheld hc.active
      apply sendActive_turns
      · simpa using hopen
      · simpa using hactive
      · simpa using hqueue
      · simpa using hposted
      · simp
      · simp
      · simp
    | sent r => exact absurd hconnecting (by simp [h.2.1.connecting])
    | replied r registers => exact absurd hconnecting (by simp [(hlive.rests hopen h.1).connecting])
  · exact failAll_turns h (by rfl) (by simpa using hclosed) (by rfl) (by rfl) (by rfl) _
  · have hunheld (r : Request) : ¬l.Held r := fun hl => by
      simp [(h.holds hl).2.2.2] at hlost
    exact h.stays hunheld rfl rfl rfl rfl

theorem fire_held (s : Core) (callback : Timeout) : (s.fire callback).held = s.held := by
  unfold Core.fire; split <;> rfl

theorem fire_posted (s : Core) (callback : Timeout) : (s.fire callback).posted = s.posted := by
  unfold Core.fire; split <;> rfl

theorem fire_connecting (s : Core) (callback : Timeout) :
    (s.fire callback).connecting = s.connecting := by
  unfold Core.fire; split <;> rfl

theorem fire_active (s : Core) (callback : Timeout) : (s.fire callback).active = s.active := by
  unfold Core.fire; split <;> rfl

theorem fire_awaitingResponse (s : Core) (callback : Timeout) :
    (s.fire callback).awaitingResponse = s.awaitingResponse := by
  unfold Core.fire; split <;> rfl

theorem onConnectTimeout_turns (h : s.Carries l) (harmed : s.armed = some .connect) :
    Turns s (onConnectTimeout W (s.fire .connect)) l := by
  unfold onConnectTimeout
  split_ifs with hc
  · exact failAll_turns h (fire_held s _) (by simp_all) (fire_posted s _) (fire_log s _)
      (fire_enqueued s _) _
  · have hunheld (r : Request) : ¬l.Held r := fun hl => by
      have hopen := (h.holds hl).1
      cases l with
      | waiting r => simp [fire_connecting, hopen, h.2.1.connecting] at hc
      | sent r => exact absurd (harmed.symm.trans h.2.1.armed) (by decide)
      | _ => exact hl
    exact h.stays hunheld (fire_held s _) (fire_posted s _) (fire_log s _) (fire_enqueued s _)

theorem onResponseTimeout_turns (h : s.Carries l) (harmed : s.armed = some .response) :
    Turns s (onResponseTimeout W (s.fire .response)) l := by
  unfold onResponseTimeout
  split_ifs with hc
  · exact failAll_turns h (fire_held s _) (by simp_all) (fire_posted s _) (fire_log s _)
      (fire_enqueued s _) _
  · have hunheld (r : Request) : ¬l.Held r := fun hl => by
      have hopen := (h.holds hl).1
      cases l with
      | waiting r => exact absurd (harmed.symm.trans h.2.1.armed) (by decide)
      | sent r =>
        simp [fire_active, fire_awaitingResponse, hopen, h.2.1.active, h.2.1.awaiting] at hc
      | _ => exact hl
    exact h.stays hunheld (fire_held s _) (fire_posted s _) (fire_log s _) (fire_enqueued s _)

theorem closeInLoop_turns (h : s.Carries l) : Turns s (closeInLoop W s) l := by
  unfold closeInLoop
  split_ifs with hc
  · exact h.stays (h.closed_unheld hc) rfl rfl rfl rfl
  · exact failAll_turns h rfl (by simpa using hc) rfl rfl rfl _

theorem channelLost_turns (h : s.Carries l) :
    Turns s { s with client := s.client.map fun _ => { isConnected := false } } l := by
  by_cases hl : ∃ r, l.Held r
  · obtain ⟨r, hl⟩ := hl
    have hopen := (h.holds hl).1
    refine Session.stays rfl rfl ?_ fun _ => hopen
    cases l with
    | waiting r' =>
      obtain ⟨-, hc, hheld, hposted⟩ := h
      have hdown : (s.client.map fun _ => ({ isConnected := false } : Client)).any
          (·.isConnected) = false := by cases s.client <;> rfl
      exact ⟨hopen, ⟨hc.active, hc.connecting, hc.awaiting, hc.timer, hc.armed, hdown⟩, hheld,
        hposted⟩
    | sent r' =>
      obtain ⟨-, hw, hheld, hposted⟩ := h
      exact ⟨hopen, ⟨hw.active, hw.connecting, hw.awaiting, hw.timer, hw.armed⟩, hheld, hposted⟩
    | _ => exact absurd hl id
  · exact h.stays (not_exists.1 hl) rfl rfl rfl rfl

theorem deliver_turns (h : s.Carries l) : Turns s s.deliver l := by
  unfold Core.deliver
  split
  · exact ⟨l, [], (List.append_nil _).symm, rfl, h, .stay fun ⟨r, hr⟩ => (h.holds hr).1⟩
  · rename_i request registers rest hposted
    cases l with
    | none => exact absurd (hposted.symm.trans h.2) (by simp)
    | waiting r => exact absurd (hposted.symm.trans h.2.2.2) (by simp)
    | sent r => exact absurd (hposted.symm.trans h.2.2.2) (by simp)
    | replied r rs =>
      have heq := hposted.symm.trans h.2
      simp only [List.cons.injEq, Prod.mk.injEq] at heq
      obtain ⟨⟨rfl, rfl⟩, rfl⟩ := heq
      exact ⟨.none, [.delivered request registers], rfl, rfl, ⟨h.1, rfl⟩, .deliver⟩

end

/-- One event of a session that carries at most one read. -/
theorem step_turns (hW : ∀ i f, W.closes i f = false) {s : State} {l : Load}
    (hlive : s.core.Live) (h : s.core.Carries l) {e : Event} (he : libhv s e)
    (hread : e.isEnqueue = false) : Turns s.core (step W s e).core l := by
  cases e with
  | enqueue unitId address count => cases hread
  | connection up =>
    apply onConnection_turns hlive h
    rintro rfl
    exact he
  | channelLost => exact channelLost_turns h
  | data bytes =>
    have hup : s.core.isConnected = true := he
    change Turns s.core (onData W s bytes).core l
    cases l with
    | waiting r => exact absurd (h.2.1.down.symm.trans hup) Bool.false_ne_true
    | sent r => exact onData_turns hW h bytes
    | _ =>
      rw [onData_idle h.1]
      exact h.stays (fun _ => id) rfl rfl rfl rfl
  | connectTimeout => exact onConnectTimeout_turns h he
  | responseTimeout => exact onResponseTimeout_turns h he
  | close => exact closeInLoop_turns h
  | deliver => exact deliver_turns h

/-! ### Any session -/

/-- The log only grows. -/
theorem step_extends (s : State) (e : Event) : s.core.log <+: (step W s e).core.log := by
  cases e with
  | enqueue unitId address count =>
    change s.core.log <+: (enqueueInLoop W s.core unitId address count).log
    cases hclosed : s.core.closed with
    | true =>
      rw [enqueueInLoop_closed hclosed]
      exact List.prefix_append _ _
    | false =>
      rw [enqueueInLoop_open hclosed]
      exact (startNext_conserves { s.core with
        enqueued := s.core.enqueued + 1
        queue := s.core.queue ++ [{ unitId, address, count, observer := s.core.enqueued }] }).log
  | connection up => exact (onConnection_conserves _ up).log
  | channelLost => exact List.prefix_rfl
  | data bytes => exact (onData_conserves s bytes).log
  | connectTimeout => exact fire_log s.core .connect ▸ (onConnectTimeout_conserves _).log
  | responseTimeout => exact fire_log s.core .response ▸ (onResponseTimeout_conserves _).log
  | close => exact (closeInLoop_conserves _).log
  | deliver =>
    change s.core.log <+: s.core.deliver.log
    unfold Core.deliver
    split
    · exact List.prefix_rfl
    · exact List.prefix_append _ _

/-- Only a request counts as one. -/
theorem step_enqueued {s : State} {e : Event} (h : e.isEnqueue = false) :
    (step W s e).core.enqueued = s.core.enqueued := by
  cases e with
  | enqueue unitId address count => cases h
  | connection up => exact (onConnection_conserves _ up).enqueued
  | channelLost => rfl
  | data bytes => exact (onData_conserves s bytes).enqueued
  | connectTimeout =>
    exact (onConnectTimeout_conserves _).enqueued.trans (fire_enqueued s.core .connect)
  | responseTimeout =>
    exact (onResponseTimeout_conserves _).enqueued.trans (fire_enqueued s.core .response)
  | close => exact (closeInLoop_conserves _).enqueued
  | deliver =>
    change s.core.deliver.enqueued = _
    unfold Core.deliver
    split <;> rfl

theorem enqueueInLoop_enqueued (s : Core) (unitId : UInt8) (address count : UInt16) :
    (enqueueInLoop W s unitId address count).enqueued = s.enqueued + 1 := by
  cases hclosed : s.closed with
  | true => rw [enqueueInLoop_closed hclosed]
  | false =>
    rw [enqueueInLoop_open hclosed]
    exact (startNext_conserves _).enqueued

end Neubau.Modbus.Session
