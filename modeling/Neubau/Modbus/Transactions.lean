import Neubau.Modbus.Line

/-! Transaction ids. A request gets its id when it is started, and there are three ways to
start one: a read arrives at an idle session, or the active request succeeds or fails. The
ids of the requests that a run starts are counted from 1 to 65535 and around again, without
the 0, so that the same id comes back as late as possible. -/

namespace Neubau.Modbus.Session

open Neubau.Common Neubau.Stream Neubau.Transition

variable {W : World}

/-! ### The requests started -/

/-- What `startNext` starts. -/
def Core.starting (s : Core) : List Request :=
  if s.closed || s.active.isSome then []
  else
    match s.queue with
    | [] => []
    | request :: _ => [{ request with transactionId := s.nextTransaction }]

/-- What `enqueueInLoop` starts. -/
def Core.startingEnqueue (s : Core) (unitId : UInt8) (address count : UInt16) : List Request :=
  if s.closed then []
  else
    let request : Request := { unitId, address, count, observer := s.enqueued }
    Core.starting { s with enqueued := s.enqueued + 1, queue := s.queue ++ [request] }

/-- What `finishActiveError` starts. -/
def Core.startingError (W : World) (s : Core) (failure : Exception) : List Request :=
  match s.active with
  | none => []
  | some request => (callFailure W (closeInLoop W) s.released request failure).starting

/-- What `finishActiveSuccess` starts. -/
def Core.startingSuccess (s : Core) (registers : Registers) : List Request :=
  match s.active with
  | none => []
  | some request => (s.answered request registers).starting

/-- What `handleFrame` starts. -/
def Core.startingFrame (W : World) (s : Core) (frame : Bytes) : List Request :=
  match s.active with
  | none => []
  | some active =>
    match checkReply active frame with
    | none => []
    | some (.error failure) => s.startingError W failure
    | some (.ok registers) => s.startingSuccess registers

/-- What `onData` starts, frame by frame. -/
def State.startingData (W : World) (s : State) (bytes : Bytes) : List Request :=
  if s.core.closed then []
  else
    outputs framer (handler W) (Core.startingFrame W)
      (Core.startingError W · (error "invalid Modbus response length"))
      (s.receiveBuffer ++ bytes).length (s.core, s.receiveBuffer ++ bytes)

/-- The requests that a callback starts, in order. -/
def starting (W : World) (s : State) : Event → List Request
  | .enqueue unitId address count => s.core.startingEnqueue unitId address count
  | .data bytes => s.startingData W bytes
  | _ => []

/-- The requests that a run of events starts, in order. -/
def startedIn (W : World) : State → List Event → List Request
  | _, [] => []
  | s, e :: es => starting W s e ++ startedIn W (step W s e) es

/-! ### Numbering -/

theorem length_number (t : UInt16) (rs : List Request) : (number t rs).length = rs.length := by
  induction rs generalizing t with
  | nil => rfl
  | cons r rs ih => rw [number, List.length_cons, ih, List.length_cons]

theorem number_append (t : UInt16) (rs more : List Request) :
    number t (rs ++ more) = number t rs ++ number (bump^[rs.length] t) more := by
  induction rs generalizing t with
  | nil => rfl
  | cons r rs ih =>
    rw [List.cons_append, number, ih, number, List.cons_append, List.length_cons,
      Function.iterate_succ_apply]

/-- The ids of numbered requests. -/
theorem getElem?_number {t : UInt16} {rs : List Request} {k : ℕ} {r : Request}
    (h : (number t rs)[k]? = some r) : r.transactionId = bump^[k] t := by
  induction rs generalizing t k with
  | nil => simp [number] at h
  | cons r' rs ih =>
    cases k with
    | zero =>
      obtain rfl := Option.some.inj h
      rfl
    | succ k =>
      rw [number, List.getElem?_cons_succ] at h
      rw [Function.iterate_succ_apply]
      exact ih h

/-- The counter skips 0 when it wraps around. -/
theorem toNat_bump {t : UInt16} {k : ℕ} (h : t.toNat = 1 + k % 65535) :
    (bump t).toNat = 1 + (k + 1) % 65535 := by
  have hwraps : t + 1 = 0 ↔ t.toNat = 65535 := by
    rw [← UInt16.toNat_inj, UInt16.toNat_add]
    change (t.toNat + 1) % 65536 = 0 ↔ _
    have := t.toNat_lt
    omega
  unfold bump
  split_ifs with hwrap
  · rw [hwraps] at hwrap
    change 1 = _
    omega
  · rw [hwraps] at hwrap
    rw [UInt16.toNat_add]
    change (t.toNat + 1) % 65536 = _
    omega

theorem toNat_bump_iterate (k : ℕ) : (bump^[k] 1).toNat = 1 + k % 65535 := by
  induction k with
  | zero => rfl
  | succ k ih =>
    rw [Function.iterate_succ_apply']
    exact toNat_bump ih

/-! ### What a function starts -/

/-- From `s` to `t` the requests `new` were started: they are the front of the queue, numbered
by the counter. What is active or was sent since is one of them or was active before. -/
structure Began (s : Core) (new : List Request) (t : Core) : Prop where
  front : ∃ front back, s.queue = front ++ back ∧ new = number s.nextTransaction front ∧
    (t.closed = false → t.queue = back)
  next : t.nextTransaction = bump^[new.length] s.nextTransaction
  enqueued : t.enqueued = s.enqueued
  closed : s.closed = true → t.closed = true ∧ new = []
  active : ∀ r, t.active = some r → s.active = some r ∨ r ∈ new
  sent : ∀ r bytes, .sent r bytes ∈ t.log → .sent r bytes ∈ s.log ∨ s.active = some r ∨ r ∈ new

section

variable {s t u : Core}

/-- A function that starts nothing. -/
theorem Began.nothing (hnext : t.nextTransaction = s.nextTransaction)
    (henqueued : t.enqueued = s.enqueued) (hqueue : t.closed = false → t.queue = s.queue)
    (hclosed : s.closed = true → t.closed = true)
    (hactive : ∀ r, t.active = some r → s.active = some r)
    (hsent : ∀ r bytes, .sent r bytes ∈ t.log → .sent r bytes ∈ s.log ∨ s.active = some r) :
    Began s [] t where
  front := ⟨[], s.queue, rfl, rfl, hqueue⟩
  next := hnext
  enqueued := henqueued
  closed h := ⟨hclosed h, rfl⟩
  active r h := .inl (hactive r h)
  sent r bytes h := (hsent r bytes h).imp_right .inl

theorem Began.refl (s : Core) : Began s [] s :=
  .nothing rfl rfl (fun _ => rfl) id (fun _ h => h) (fun _ _ h => .inl h)

theorem Began.trans {xs ys : List Request} (h₁ : Began s xs t) (h₂ : Began t ys u) :
    Began s (xs ++ ys) u where
  front := by
    obtain ⟨front₁, back₁, hqueue₁, hxs, hback₁⟩ := h₁.front
    cases hc : t.closed with
    | true =>
      obtain ⟨hu, rfl⟩ := h₂.closed hc
      exact ⟨front₁, back₁, hqueue₁, by rw [List.append_nil, hxs], fun h => by simp [hu] at h⟩
    | false =>
      obtain ⟨front₂, back₂, hqueue₂, hys, hback₂⟩ := h₂.front
      refine ⟨front₁ ++ front₂, back₂, ?_, ?_, hback₂⟩
      · rw [hqueue₁, ← hback₁ hc, hqueue₂, List.append_assoc]
      · rw [number_append, ← hxs, hys, h₁.next, hxs, length_number]
  next := by rw [h₂.next, h₁.next, List.length_append, Nat.add_comm, Function.iterate_add_apply]
  enqueued := h₂.enqueued.trans h₁.enqueued
  closed h := by
    obtain ⟨ht, rfl⟩ := h₁.closed h
    exact h₂.closed ht
  active r h := by
    rw [List.mem_append, ← or_assoc]
    exact (h₂.active r h).imp_left (h₁.active r)
  sent r bytes h := by
    rw [List.mem_append, ← or_assoc, ← or_assoc]
    rcases h₂.sent r bytes h with h | h | h
    · exact .inl ((or_assoc).2 (h₁.sent r bytes h))
    · exact .inl ((h₁.active r h).imp_left .inr)
    · exact .inr h

/-- The request behind is started by a function that starts nothing more. -/
theorem Began.of_nothing {xs : List Request} (h₁ : Began s xs t) (h₂ : Began t [] u) :
    Began s xs u := by
  have h := h₁.trans h₂
  rwa [List.append_nil] at h

theorem failAll_began (s : Core) (f : Exception) : Began s [] (failAll W s f) := by
  cases hs : s.closed with
  | true =>
    rw [failAll_closed hs]
    exact .refl s
  | false =>
    rw [failAll_open hs]
    apply Began.nothing <;> simp +contextual [Core.failed]

theorem closeInLoop_began (s : Core) : Began s [] (closeInLoop W s) := by
  unfold closeInLoop
  split_ifs
  · exact .refl s
  · exact failAll_began s _

/-- What is active goes out over the connection. -/
theorem sendActive_began (s : Core) : Began s [] (sendActive W s) := by
  unfold sendActive
  cases ha : s.active with
  | none => exact .refl s
  | some active =>
    dsimp only
    split_ifs
    · exact .refl s
    · exact failAll_began s _
    · refine .of_nothing ?_ (failAll_began _ _)
      apply Began.nothing <;> simp +contextual [ha]
    · apply Began.nothing <;> simp +contextual [Core.armTimeout, ha, or_imp]

theorem startConnection_began (s : Core) : Began s [] (startConnection W s) := by
  unfold startConnection
  dsimp only
  split_ifs
  · exact .refl s
  · refine .of_nothing ?_ (failAll_began _ _)
    apply Began.nothing <;> simp +contextual [Core.armTimeout]
  · apply Began.nothing <;> simp +contextual [Core.armTimeout]

/-- The front of the queue becomes active, with the id of the counter. -/
theorem started_began {request : Request} {rest : List Request} (hs : s.closed = false)
    (hq : s.queue = request :: rest) :
    Began s [{ request with transactionId := s.nextTransaction }] (s.started request rest) where
  front := ⟨[request], rest, hq, rfl, fun _ => rfl⟩
  next := rfl
  enqueued := rfl
  closed h := by simp [hs] at h
  active r h := .inr (by simpa [Core.started, eq_comm] using h)
  sent r bytes h := .inl h

theorem starting_of_busy (h : s.closed || s.active.isSome) : s.starting = [] := if_pos h

theorem starting_cons {request : Request} {rest : List Request} (hs : s.closed = false)
    (ha : s.active = none) (hq : s.queue = request :: rest) :
    s.starting = [{ request with transactionId := s.nextTransaction }] := by
  simp [Core.starting, hs, ha, hq]

theorem startNext_began (s : Core) : Began s s.starting (startNext W s) := by
  by_cases hbusy : s.closed || s.active.isSome
  · rw [starting_of_busy hbusy, startNext, if_pos hbusy]
    exact .refl s
  · obtain ⟨hopen, hnone⟩ : s.closed = false ∧ s.active = none := by simpa using hbusy
    cases hq : s.queue with
    | nil =>
      rw [startNext_nil hq, Core.starting, if_neg hbusy, hq]
      exact .refl s
    | cons request rest =>
      have hstarted := started_began hopen hq
      rw [startNext_cons hopen hnone hq, starting_cons hopen hnone hq]
      split_ifs
      · exact hstarted.of_nothing (sendActive_began _)
      · exact hstarted.of_nothing (startConnection_began _)

theorem callFailure_began (s : Core) (r : Request) (f : Exception) :
    Began s [] (callFailure W (closeInLoop W) s r f) := by
  have htold : Began s [] { s with log := s.log ++ [Effect.failed r f s.closed] } := by
    apply Began.nothing <;> simp +contextual
  unfold callFailure
  dsimp only
  split_ifs
  · exact htold.of_nothing (closeInLoop_began _)
  · exact htold

theorem released_began (s : Core) : Began s [] s.released := by
  apply Began.nothing <;> simp +contextual [Core.released]

theorem finishActiveError_began (s : Core) (f : Exception) :
    Began s (s.startingError W f) (finishActiveError W s f) := by
  unfold Core.startingError
  cases ha : s.active with
  | none =>
    rw [finishActiveError_idle ha]
    exact .refl s
  | some request =>
    rw [finishActiveError_active ha]
    exact ((released_began s).trans (callFailure_began _ request f)).trans (startNext_began _)

theorem finishActiveSuccess_began (s : Core) (registers : Registers) :
    Began s (s.startingSuccess registers) (finishActiveSuccess W s registers) := by
  unfold Core.startingSuccess
  cases ha : s.active with
  | none =>
    rw [finishActiveSuccess_idle ha]
    exact .refl s
  | some request =>
    have hanswered : Began s [] (s.answered request registers) := by
      apply Began.nothing <;> simp +contextual [Core.answered, Core.released]
    rw [finishActiveSuccess_active ha]
    exact hanswered.trans (startNext_began _)

theorem handleFrame_began (s : Core) (frame : Bytes) :
    Began s (s.startingFrame W frame) (handleFrame W s frame) := by
  unfold Core.startingFrame handleFrame
  cases s.active with
  | none => exact .refl s
  | some active =>
    dsimp only
    cases checkReply active frame with
    | none => exact .refl s
    | some outcome =>
      cases outcome with
      | error failure => exact finishActiveError_began s failure
      | ok registers => exact finishActiveSuccess_began s registers

theorem onData_began (s : State) (bytes : Bytes) :
    Began s.core (s.startingData W bytes) (onData W s bytes).core := by
  unfold State.startingData
  cases hs : s.core.closed with
  | true =>
    rw [onData, if_pos hs]
    exact .refl s.core
  | false =>
    have hfeed : (onData W s bytes).pair = drain framer (handler W)
        (s.receiveBuffer ++ bytes).length (s.core, s.receiveBuffer ++ bytes) :=
      (onData_eq_feed s bytes).trans (feed_eq hs le_rfl)
    change Began _ _ (onData W s bytes).pair.1
    rw [hfeed, if_neg (by decide)]
    exact drain_outputs (R := Began) Began.refl Began.trans (handleFrame_began (W := W))
      (fun c => finishActiveError_began c _) _ (s.core, s.receiveBuffer ++ bytes)

theorem onConnection_began (s : Core) (up : Bool) : Began s [] (onConnection W s up) := by
  have hclient : Began s [] { s with client := s.client.map fun _ => { isConnected := up } } :=
    .nothing rfl rfl (fun _ => rfl) id (fun _ h => h) (fun _ _ h => .inl h)
  unfold onConnection
  dsimp only
  split_ifs
  · exact hclient
  · refine .of_nothing ?_ (sendActive_began _)
    apply Began.nothing <;> simp +contextual
  · refine .of_nothing ?_ (failAll_began _ _)
    apply Began.nothing <;> simp +contextual
  · apply Began.nothing <;> simp +contextual

theorem fire_began (s : Core) (callback : Timeout) : Began s [] (s.fire callback) := by
  unfold Core.fire
  split_ifs
  · apply Began.nothing <;> simp +contextual
  · exact .refl s

theorem onConnectTimeout_began (s : Core) : Began s [] (onConnectTimeout W s) := by
  unfold onConnectTimeout
  split_ifs
  · exact failAll_began s _
  · exact .refl s

theorem onResponseTimeout_began (s : Core) : Began s [] (onResponseTimeout W s) := by
  unfold onResponseTimeout
  split_ifs
  · exact failAll_began s _
  · exact .refl s

theorem deliver_began (s : Core) : Began s [] s.deliver := by
  unfold Core.deliver
  split
  · exact .refl s
  · apply Began.nothing <;> simp +contextual

end

/-! ### Runs -/

/-- The requests started so far: the first reads, numbered from 1. An open session has started
all reads but those that wait in its queue. What is active or was sent is among them. -/
structure Recorded (s : Core) (started : List Request) : Prop where
  numbered : ∃ reads, started = number 1 reads
  next : s.nextTransaction = bump^[started.length] 1
  observers : started.map (·.observer) <+: List.range s.enqueued
  waiting : s.closed = false →
    started.map (·.observer) ++ s.queue.map (·.observer) = List.range s.enqueued
  active : ∀ r, s.active = some r → r ∈ started
  sent : ∀ r bytes, .sent r bytes ∈ s.log → r ∈ started

section

variable {s t : Core} {started new : List Request}

theorem Recorded.began (hs : Recorded s started) (h : Began s new t) :
    Recorded t (started ++ new) := by
  obtain ⟨front, back, hqueue, hnew, hback⟩ := h.front
  have hobservers : new.map (·.observer) = front.map (·.observer) := by
    rw [hnew]
    exact map_number _ (fun _ _ => rfl) _ _
  have hopen (ht : t.closed = false) : s.closed = false := by
    by_contra hc
    have hclosed := (h.closed (by simpa using hc)).1
    exact absurd (hclosed.symm.trans ht) (by decide)
  refine ⟨?_, ?_, ?_, fun ht => ?_, fun r hr => ?_, fun r bytes hr => ?_⟩
  · obtain ⟨reads, hreads⟩ := hs.numbered
    refine ⟨reads ++ front, ?_⟩
    rw [number_append, ← hreads, hnew, hs.next, hreads, length_number]
  · rw [h.next, hs.next, List.length_append, Nat.add_comm, Function.iterate_add_apply]
  · rw [h.enqueued, List.map_append]
    cases hc : s.closed with
    | true =>
      obtain ⟨-, rfl⟩ := h.closed hc
      simpa using hs.observers
    | false =>
      rw [← hs.waiting hc, hqueue, hobservers, List.map_append, ← List.append_assoc]
      exact List.prefix_append _ _
  · rw [h.enqueued, ← hs.waiting (hopen ht), hqueue, hback ht, List.map_append, hobservers,
      List.map_append, List.append_assoc]
  · rw [List.mem_append]
    exact (h.active r hr).imp_left (hs.active r)
  · rw [List.mem_append]
    rcases h.sent r bytes hr with h | h | h
    · exact .inl (hs.sent r bytes h)
    · exact .inl (hs.active r h)
    · exact .inr h

/-- A read is enqueued behind those that wait, or fails at once. -/
theorem enqueueInLoop_recorded (hs : Recorded s started) (unitId : UInt8)
    (address count : UInt16) : Recorded (enqueueInLoop W s unitId address count)
      (started ++ s.startingEnqueue unitId address count) := by
  have hgrows : List.range s.enqueued <+: List.range (s.enqueued + 1) := by
    rw [List.range_succ]
    exact List.prefix_append _ _
  cases hc : s.closed with
  | true =>
    rw [enqueueInLoop_closed hc, Core.startingEnqueue, if_pos hc, List.append_nil]
    refine ⟨hs.numbered, hs.next, hs.observers.trans hgrows, ?_, hs.active, ?_⟩
    · simp [hc]
    · simpa using hs.sent
  | false =>
    have hqueued : Recorded { s with
        enqueued := s.enqueued + 1
        queue := s.queue ++ [{ unitId, address, count, observer := s.enqueued }] } started := by
      refine ⟨hs.numbered, hs.next, hs.observers.trans hgrows, fun _ => ?_, hs.active, hs.sent⟩
      rw [List.range_succ, ← hs.waiting hc, List.map_append, List.append_assoc]
      rfl
    rw [enqueueInLoop_open hc, Core.startingEnqueue, if_neg (by simp [hc])]
    exact hqueued.began (startNext_began _)

theorem step_recorded {s : State} (hs : Recorded s.core started) (e : Event) :
    Recorded (step W s e).core (started ++ starting W s e) := by
  cases e with
  | enqueue unitId address count => exact enqueueInLoop_recorded hs unitId address count
  | connection up => exact hs.began (onConnection_began _ up)
  | channelLost =>
    exact hs.began (.nothing rfl rfl (fun _ => rfl) id (fun _ h => h) (fun _ _ h => .inl h))
  | data bytes => exact hs.began (onData_began s bytes)
  | connectTimeout =>
    exact hs.began ((fire_began _ .connect).trans (onConnectTimeout_began _))
  | responseTimeout =>
    exact hs.began ((fire_began _ .response).trans (onResponseTimeout_began _))
  | close => exact hs.began (closeInLoop_began _)
  | deliver => exact hs.began (deliver_began _)

theorem run_recorded {s t : State} {es : List Event} (hr : (machine W).Run s es t)
    (hs : Recorded s.core started) : Recorded t.core (started ++ startedIn W s es) := by
  induction hr generalizing started with
  | nil => rwa [startedIn, List.append_nil]
  | cons _ _ ih =>
    rw [startedIn, ← List.append_assoc]
    exact ih (step_recorded hs _)

theorem Recorded.id (h : Recorded s started) {k : ℕ} {r : Request} (hr : started[k]? = some r) :
    r.transactionId.toNat = 1 + k % 65535 := by
  obtain ⟨reads, rfl⟩ := h.numbered
  rw [getElem?_number hr, toNat_bump_iterate]

end

/-- The `k`-th request started has the id `1 + (k - 1) % 65535`: never 0, and an id comes back
after 65535 requests at the earliest. -/
theorem transaction_ids_cycle {t : State} {es : List Event} (hr : (machine W).Run {} es t) :
    (∀ (k : ℕ) (r : Request), 1 ≤ k → (startedIn W {} es)[k - 1]? = some r →
      r.transactionId.toNat = 1 + (k - 1) % 65535) ∧
    (∀ r ∈ startedIn W {} es, r.transactionId ≠ 0) ∧
    (∀ (i j : ℕ) (a b : Request), (startedIn W {} es)[i]? = some a →
      (startedIn W {} es)[j]? = some b → i < j → a.transactionId = b.transactionId →
      65535 ≤ j - i) ∧
    Recorded t.core (startedIn W {} es) := by
  have h : Recorded t.core (startedIn W {} es) := by
    have hinit : Recorded ({} : State).core [] :=
      ⟨⟨[], rfl⟩, rfl, List.prefix_rfl, fun _ => rfl, nofun, nofun⟩
    exact run_recorded hr hinit
  refine ⟨fun k r _ hk => h.id hk, fun r hmem hzero => ?_, fun i j a b hi hj hlt heq => ?_, h⟩
  · obtain ⟨k, hk⟩ := List.mem_iff_getElem?.1 hmem
    have hid := h.id hk
    rw [hzero] at hid
    change 0 = _ at hid
    omega
  · have hia := h.id hi
    have hjb := h.id hj
    rw [heq] at hia
    omega

/-- Two replies in one chunk start two requests; one more read waits behind them. -/
theorem transaction_ids_cycle_three :
    let es : List Event := [.enqueue 1 0 1, .enqueue 1 1 1, .connection true, .enqueue 1 2 1,
      .enqueue 1 3 1, .data [0, 1, 0, 0, 0, 5, 1, 3, 2, 0, 7, 0, 2, 0, 0, 0, 3, 1, 0x83, 2]]
    (startedIn .obliging {} es).map (·.transactionId) = [1, 2, 3] ∧
      (∀ r ∈ startedIn .obliging {} es, r.transactionId ≠ 0) ∧
      Recorded (es.foldl (step .obliging) {}).core (startedIn .obliging {} es) := by
  intro es
  have hr : (machine .obliging).Run {} es (es.foldl (step .obliging) {}) :=
    .foldl (fun _ _ => trivial) _ es
  have h := transaction_ids_cycle hr
  exact ⟨by decide, h.2.1, h.2.2.2⟩

end Neubau.Modbus.Session
