import Neubau.Modbus.Transmission
import Neubau.Stream.DelayLine

/-! The order of outcomes. Requests are sent in the order of their reads, one at a time.
A success is posted to the loop and told later, and a failure is told at once. So a
failure that comes while a success is still posted overtakes it; as long as none does,
observers are told in the order of their reads. -/

namespace Neubau.Modbus.Session

open Neubau.Common Neubau.Stream Neubau.Transition

variable {W : World}

/-- The observer that is told of its outcome. -/
def Effect.tells : Effect → Option ℕ
  | .delivered r _ => some r.observer
  | .failed r _ _ => some r.observer
  | _ => none

/-- The observers told so far, in this order. -/
def told (log : List Effect) : List ℕ := log.filterMap Effect.tells

/-- The session as a line with a delay. -/
def Core.delays (s : Core) : DelayLine ℕ where
  posted := s.posted.map (·.1.observer)
  resolved := s.log.filterMap Effect.resolves
  told := told s.log

/-- The observers of the requests that are held. -/
def Core.observers (s : Core) : List ℕ := s.held.map (·.observer)

/-- The next request can be sent, or a connection for it be started. -/
def Starts (W : World) (s : Core) : Bool :=
  if s.connected && s.isConnected then W.send s.sends else W.createsocket s.sockets

/-! ### What the functions tell -/

section

variable {s : Core}

theorem delays_congr {s t : Core} (hposted : t.posted = s.posted) (hlog : t.log = s.log) :
    t.delays = s.delays := by
  simp only [Core.delays, hposted, hlog]

theorem disarmTimeout_delays (s : Core) : s.disarmTimeout.delays = s.delays :=
  delays_congr (disarmTimeout_posted s) (disarmTimeout_log s)

theorem told_failed (rs : List Request) (f : Exception) (b : Bool) :
    told (rs.map (Effect.failed · f b)) = rs.map (·.observer) := by
  induction rs with
  | nil => rfl
  | cons r rs ih =>
    unfold told at ih ⊢
    rw [List.map_cons, List.filterMap_cons, ih]
    rfl

theorem failed_delays (s : Core) (f : Exception) :
    (s.failed f).delays = s.delays.tell s.observers := by
  have hresolved := filterMap_failed s.held f true
  have htold := told_failed s.held f true
  unfold told at htold
  simp only [Core.delays, Core.failed, DelayLine.tell, told, disarmTimeout_posted,
    List.filterMap_append, hresolved, htold, Core.observers]

theorem failAll_delays (hs : s.closed = false) (f : Exception) :
    (failAll W s f).delays = s.delays.tell s.observers := by
  rw [failAll_open hs, failed_delays]

theorem closeInLoop_delays (s : Core) :
    (closeInLoop W s).delays = s.delays.tell (if s.closed then [] else s.observers) := by
  unfold closeInLoop
  split_ifs with hc
  · simp
  · exact failAll_delays (by simpa using hc) _

/-- The active request is sent, or everything held fails. -/
theorem sendActive_delays (hs : s.closed = false) (ha : s.active.isSome) :
    (sendActive W s).delays =
      s.delays.tell (if s.isConnected && W.send s.sends then [] else s.observers) := by
  obtain ⟨r, hr⟩ := Option.isSome_iff_exists.1 ha
  simp only [sendActive, hr]
  rw [if_neg (by simp [hs])]
  by_cases hup : s.isConnected = true
  · rw [if_neg (by simp [hup]), hup, Bool.true_and]
    by_cases hsend : W.send s.sends = true
    · rw [if_neg (by simp [hsend]), if_pos hsend]
      simp [Core.delays, Core.armTimeout, told, Effect.tells, Effect.resolves]
    · rw [if_pos (by simp [hsend]), if_neg hsend, failAll_delays (by exact hs)]
      simp [Core.delays, Core.observers, Core.held, hr]
  · rw [if_pos (by simp [hup]), if_neg (by simp [hup])]
    exact failAll_delays hs _

/-- A connection is started, or everything held fails. -/
theorem startConnection_delays (hs : s.closed = false) (hc : s.connecting = false) :
    (startConnection W s).delays =
      s.delays.tell (if W.createsocket s.sockets then [] else s.observers) := by
  unfold startConnection
  rw [if_neg (by simp [hs, hc])]
  dsimp only
  by_cases hcreated : W.createsocket s.sockets = true
  · rw [if_neg (by simp [hcreated, Core.armTimeout]), if_pos hcreated]
    simp [Core.delays, Core.armTimeout]
  · rw [if_pos (by simp [hcreated, Core.armTimeout]), if_neg hcreated,
      failAll_delays (by simpa [Core.armTimeout] using hs)]
    simp [Core.delays, Core.armTimeout, Core.observers, Core.held]

theorem started_observers {request : Request} {rest : List Request}
    (hq : s.queue = request :: rest) :
    (s.started request rest).observers = s.queue.map (·.observer) := by
  simp [Core.observers, Core.held, Core.started, hq]

/-- The next request is started, or everything waiting fails. -/
theorem startNext_delays (hs : s.closed = false) (ha : s.active = none)
    (hc : s.connecting = false) : (startNext W s).delays =
      s.delays.tell (if Starts W s then [] else s.queue.map (·.observer)) := by
  cases hq : s.queue with
  | nil =>
    rw [startNext_nil hq]
    simp
  | cons request rest =>
    have hobservers := started_observers hq
    rw [startNext_cons hs ha hq, ← hq, ← hobservers, Starts]
    by_cases hup : (s.connected && s.isConnected) = true
    · have hchannel : (s.started request rest).isConnected = true :=
        (Bool.and_eq_true_iff.1 hup).2
      rw [if_pos hup, if_pos hup, sendActive_delays (by exact hs) rfl, hchannel, Bool.true_and]
      rfl
    · rw [if_neg hup, if_neg hup, startConnection_delays (by exact hs) (by exact hc)]
      rfl

/-- Starting the next request tells of failures only. -/
theorem startNext_tells (s : Core) : ∃ ks, (startNext W s).delays = s.delays.tell ks := by
  refine startNext_keeps (P := fun t => ∃ ks, t.delays = s.delays.tell ks)
    ⟨[], (DelayLine.tell_nil _).symm⟩ fun request rest hopen _ _ => ?_
  refine ⟨⟨_, sendActive_delays (by exact hopen) rfl⟩, ?_⟩
  cases hc : s.connecting with
  | false => exact ⟨_, startConnection_delays (by exact hopen) (by exact hc)⟩
  | true =>
    -- a connection is on its way already
    refine ⟨[], ?_⟩
    rw [startConnection, if_pos (by simp [Core.started, hc]), DelayLine.tell_nil]
    rfl

/-- An observer is told of its failure, and closing tells the others. -/
theorem callFailure_delays (s : Core) (r : Request) (f : Exception) :
    ∃ ks, (callFailure W (closeInLoop W) s r f).delays = s.delays.tell (r.observer :: ks) := by
  have htold : Core.delays { s with log := s.log ++ [Effect.failed r f s.closed] } =
      s.delays.tell [r.observer] := by
    simp [Core.delays, DelayLine.tell, told, Effect.tells, Effect.resolves]
  simp only [callFailure]
  split_ifs
  · rw [closeInLoop_delays, htold, DelayLine.tell_tell]
    exact ⟨_, rfl⟩
  · exact ⟨[], htold⟩

theorem released_delays (s : Core) : s.released.delays = s.delays := disarmTimeout_delays s

/-- The active request fails, and others may fail after it. -/
theorem finishActiveError_delays {r : Request} (hr : s.active = some r) (f : Exception) :
    ∃ ks, (finishActiveError W s f).delays = s.delays.tell (r.observer :: ks) := by
  obtain ⟨ks, hks⟩ := callFailure_delays (W := W) s.released r f
  obtain ⟨ks', hks'⟩ := startNext_tells (W := W) (callFailure W (closeInLoop W) s.released r f)
  rw [released_delays] at hks
  rw [finishActiveError_active hr, hks', hks, DelayLine.tell_tell, List.cons_append]
  exact ⟨_, rfl⟩

theorem deliver_delays (s : Core) : s.deliver.delays = s.delays.deliver := by
  unfold Core.deliver DelayLine.deliver
  cases hposted : s.posted with
  | nil => simp [Core.delays, hposted]
  | cons p rest =>
    simp [Core.delays, hposted, told, Effect.tells, Effect.resolves, List.filterMap_cons]

/-- The active request is posted, and what waits fails unless the next one is started. -/
theorem finishActiveSuccess_delays {r : Request} (hr : s.active = some r)
    (hs : s.closed = false) (hc : s.connecting = false) (registers : Registers) :
    (finishActiveSuccess W s registers).delays =
      (s.delays.post r.observer).tell
        (if Starts W s then [] else s.queue.map (·.observer)) := by
  have hposted : (s.answered r registers).delays = s.delays.post r.observer := by
    simp [Core.answered, Core.delays, DelayLine.post, told, Effect.tells, Effect.resolves]
  have hopen : (s.answered r registers).closed = false := (disarmTimeout_closed s).trans hs
  have hidle : (s.answered r registers).connecting = false := (disarmTimeout_connecting s).trans hc
  rw [finishActiveSuccess_active hr, startNext_delays hopen rfl hidle, hposted]
  simp [Starts, Core.isConnected, Core.answered, Core.released]

end

/-! ### What tells in order -/

/-- A failure of everything held overtakes no success. -/
def Core.Prompt (s : Core) : Prop := s.posted = [] ∨ s.closed = true ∨ s.active = none

/-- A frame tells of no failure while a success is posted: not of its own request's, and
not of the failure to send the next one. -/
def FramePunctual (W : World) (s : Core) (frame : Bytes) : Prop :=
  match s.active with
  | none => True
  | some active =>
    match checkReply active frame with
    | none => True
    | some (.error _) => s.posted = []
    | some (.ok _) => s.queue = [] ∨ Starts W s = true

/-- A frame of an impossible length fails the active request. -/
def BadPunctual (s : Core) : Prop := s.posted = [] ∨ s.active = none

/-- An event tells of no failure while a success is posted. -/
def Punctual (W : World) (s : State) : Event → Prop
  | .enqueue _ _ _ => s.core.posted = [] ∨
      (s.core.closed = false ∧ (s.core.active.isSome = true ∨ Starts W s.core = true))
  | .connection true => s.core.posted = [] ∨ s.core.closed = true ∨
      (s.core.client.isSome = true ∧ W.send s.core.sends = true)
  | .connection false => s.core.Prompt
  | .channelLost => True
  | .data bytes => s.core.closed = true ∨
      Meets framer (handler W) (FramePunctual W) BadPunctual (s.receiveBuffer ++ bytes).length
        (s.core, s.receiveBuffer ++ bytes)
  | .connectTimeout => s.core.Prompt
  | .responseTimeout => s.core.Prompt
  | .close => s.core.Prompt
  | .deliver => True

section

variable {s t : Core}

theorem delays_posted : s.delays.posted = [] ↔ s.posted = [] := List.map_eq_nil_iff

theorem observers_eq_nil : s.observers = [] ↔ s.active = none ∧ s.queue = [] :=
  List.map_eq_nil_iff.trans held_eq_nil

/-- An open session without an active request holds none. -/
theorem Core.Live.queue_nil (h : s.Live) (hs : s.closed = false) (ha : s.active = none) :
    s.queue = [] := by
  rcases h.phase hs with ⟨-, hq⟩ | h | h
  · exact hq
  · exact absurd h.active (by simp [ha])
  · exact absurd h.active (by simp [ha])

/-- Everything held by a live session fails. -/
theorem failAll_passes (h : s.Live) (hs : s.closed = false) (ht : t.closed = false)
    (hheld : t.held = s.held) (hdelays : t.delays = s.delays) (f : Exception) :
    DelayLine.Passes s.Prompt s.delays (failAll W t f).delays := by
  refine ⟨s.delays, s.observers, id, ?_, ?_⟩
  · rw [failAll_delays ht, hdelays, Core.observers, Core.observers, hheld]
  · rw [delays_posted, observers_eq_nil, Core.Prompt]
    have hqueue := h.queue_nil hs
    simp only [hs, Bool.false_eq_true, false_or]
    exact or_congr_right ⟨fun ha => ⟨ha, hqueue ha⟩, And.left⟩

theorem enqueueInLoop_passes {s : State} (h : s.core.Live) (unitId : UInt8)
    (address count : UInt16) : DelayLine.Passes (Punctual W s (.enqueue unitId address count))
      s.core.delays (enqueueInLoop W s.core unitId address count).delays := by
  unfold Punctual
  cases hs : s.core.closed with
  | true =>
    refine ⟨s.core.delays, [s.core.enqueued], id, ?_, by simp [delays_posted]⟩
    rw [enqueueInLoop_closed hs]
    simp [Core.delays, DelayLine.tell, told, Effect.tells, Effect.resolves]
  | false =>
    rw [enqueueInLoop_open hs]
    by_cases ha : s.core.active.isSome = true
    · rw [startNext_active (by exact ha)]
      exact .same (delays_congr rfl rfl) (by simp [ha])
    · have hnone : s.core.active = none := by simpa using ha
      have hq := h.queue_nil hs hnone
      have hrest := h.rests hs (held_eq_nil.2 ⟨hnone, hq⟩)
      rw [startNext_delays (by exact hs) (by exact hnone) (by exact hrest.connecting)]
      refine ⟨s.core.delays, _, id, rfl, ?_⟩
      simp [delays_posted, hnone, hq, Starts, Core.isConnected]

theorem onConnection_passes {s : State} (h : s.core.Live) {up : Bool}
    (hup : libhv s (.connection up)) : DelayLine.Passes (Punctual W s (.connection up))
      s.core.delays (onConnection W s.core up).delays := by
  unfold onConnection
  dsimp only
  split_ifs with hs hx hlost
  · refine .same (delays_congr rfl rfl) ?_
    cases up <;> simp [Punctual, Core.Prompt, hs]
  · obtain rfl := hx
    have hopen : s.core.closed = false := by simpa using hs
    have hactive : s.core.active.isSome = true := by
      rcases h.phase hopen with ⟨hr, -⟩ | hc | hw
      · exact absurd (hr.connecting.symm.trans hup) (by decide)
      · exact hc.active
      · exact hw.active
    obtain ⟨r, hr⟩ := Option.isSome_iff_exists.1 hactive
    have hclient : (s.core.client.map fun _ => ({ isConnected := true } : Client)).any
        (·.isConnected) = s.core.client.isSome := by cases s.core.client <;> rfl
    rw [sendActive_delays (by simpa using hopen) (by simpa using hactive), disarmTimeout_delays]
    refine ⟨s.core.delays, _, id, rfl, ?_⟩
    simp [Punctual, delays_posted, hopen, hclient, Core.isConnected, Core.observers,
      Core.held, hr]
  · obtain rfl : up = false := by simpa using hx
    have hopen : s.core.closed = false := by simpa using hs
    apply failAll_passes h hopen
    · exact hopen
    · rfl
    · exact delays_congr rfl rfl
  · obtain rfl : up = false := by simpa using hx
    refine .same (delays_congr rfl rfl) ?_
    simp only [Bool.or_eq_true, not_or] at hlost
    exact .inr (.inr (by simpa using hlost.2))

theorem closeInLoop_passes (h : s.Live) :
    DelayLine.Passes s.Prompt s.delays (closeInLoop W s).delays := by
  unfold closeInLoop
  split_ifs with hs
  · exact .same rfl (.inr (.inl hs))
  · have hopen : s.closed = false := by simpa using hs
    exact failAll_passes h hopen hopen rfl rfl _

theorem fire_delays (s : Core) (callback : Timeout) : (s.fire callback).delays = s.delays :=
  delays_congr (fire_posted s callback) (fire_log s callback)

/-- A timer that fires closes the session unless it is closed already. -/
theorem onConnectTimeout_passes (h : s.Live) (ht : s.armed = some .connect) :
    DelayLine.Passes s.Prompt s.delays (onConnectTimeout W (s.fire .connect)).delays := by
  have hclosed := onConnectTimeout_closes (W := W) h ht
  unfold onConnectTimeout at hclosed ⊢
  split_ifs at hclosed ⊢ with hc
  · have hopen : s.closed = false := by simp_all
    exact failAll_passes h hopen (by simpa using hopen) (fire_held s _) (fire_delays s _) _
  · exact .same (fire_delays s _) (.inr (.inl (by simpa using hclosed)))

theorem onResponseTimeout_passes (h : s.Live) (ht : s.armed = some .response) :
    DelayLine.Passes s.Prompt s.delays (onResponseTimeout W (s.fire .response)).delays := by
  have hclosed := onResponseTimeout_closes (W := W) h ht
  unfold onResponseTimeout at hclosed ⊢
  split_ifs at hclosed ⊢ with hc
  · have hopen : s.closed = false := by simp_all
    exact failAll_passes h hopen (by simpa using hopen) (fire_held s _) (fire_delays s _) _
  · exact .same (fire_delays s _) (.inr (.inl (by simpa using hclosed)))

theorem finishActiveError_passes (s : Core) (f : Exception) :
    DelayLine.Passes (BadPunctual s) s.delays (finishActiveError W s f).delays := by
  unfold BadPunctual
  cases hr : s.active with
  | none => exact .same (congrArg Core.delays (finishActiveError_idle hr f)) (.inr rfl)
  | some r =>
    obtain ⟨ks, hks⟩ := finishActiveError_delays (W := W) hr f
    exact ⟨s.delays, _, id, hks, by simp [delays_posted]⟩

theorem handleFrame_passes (hs : s.closed = false) (hc : s.connecting = false) (frame : Bytes) :
    DelayLine.Passes (FramePunctual W s frame) s.delays (handleFrame W s frame).delays := by
  unfold FramePunctual handleFrame
  cases hr : s.active with
  | none => exact .same rfl trivial
  | some r =>
    dsimp only
    cases checkReply r frame with
    | none => exact .same rfl trivial
    | some outcome =>
      cases outcome with
      | error failure =>
        have h := finishActiveError_passes (W := W) s failure
        simpa [BadPunctual, hr] using h
      | ok registers =>
        -- the success is posted, so that nothing may be told after it
        refine ⟨s.delays.post r.observer, _, fun h => h.post _,
          finishActiveSuccess_delays hr hs hc registers, ?_⟩
        by_cases hstarts : Starts W s = true <;> simp [DelayLine.post, hstarts]

/-! ### Runs -/

theorem Core.Accounted.resolved_prefix (h : s.Accounted) :
    s.delays.resolved <+: List.range s.enqueued := by
  rw [← h.roll]
  exact List.prefix_append _ _

theorem Core.Accounted.resolved_nodup (h : s.Accounted) : s.delays.resolved.Nodup :=
  List.nodup_range.sublist h.resolved_prefix.sublist

theorem spoiled_of_log (h : s.log <+: t.log) (hs : s.delays.Spoiled) : t.delays.Spoiled :=
  hs.mono (h.filterMap _) (h.filterMap _)

/-- A connected session whose line is in order. -/
def Core.Orderly (s : Core) : Prop := s.Linked ∧ s.Accounted ∧ s.delays.Ordered

/-- What is open and connected serves. -/
theorem Core.Linked.serving (h : s.Linked) (hs : s.closed = false) :
    s.Serving ∧ s.isConnected = true ∧ s.connected = true :=
  h.resolve_left (by simp [hs])

theorem handleFrame_outcome (hs : s.closed = false) (h : s.Orderly) (frame : Bytes) :
    (FramePunctual W s frame → (handleFrame W s frame).Orderly) ∧
      (¬FramePunctual W s frame → (handleFrame W s frame).delays.Spoiled) := by
  obtain ⟨hlinked, hacc, hord⟩ := h
  obtain ⟨hserving, hup, hlink⟩ := hlinked.serving hs
  have hpasses := handleFrame_passes (W := W) hs hserving.connecting frame
  have hacc' := (handleFrame_conserves (W := W) hs frame).accounted hacc
  have hlinked' := handleFrame_linked (W := W) hserving hup hlink frame
  exact ⟨fun hok => ⟨hlinked', hacc', hpasses.ordered hord hok⟩,
    fun hok => hpasses.spoiled hord hok hacc'.resolved_nodup⟩

theorem finishActiveError_outcome (hs : s.closed = false) (h : s.Orderly) (f : Exception) :
    (BadPunctual s → (finishActiveError W s f).Orderly) ∧
      (¬BadPunctual s → (finishActiveError W s f).delays.Spoiled) := by
  obtain ⟨hlinked, hacc, hord⟩ := h
  obtain ⟨hserving, hup, hlink⟩ := hlinked.serving hs
  have hpasses := finishActiveError_passes (W := W) s f
  have hacc' := (finishActiveError_conserves (W := W) hs f).accounted hacc
  have hlinked' := finishActiveError_linked (W := W) hserving hup hlink f
  exact ⟨fun hok => ⟨hlinked', hacc', hpasses.ordered hord hok⟩,
    fun hok => hpasses.spoiled hord hok hacc'.resolved_nodup⟩

/-- The frames that arrive keep the order exactly if all of them are punctual. -/
theorem onData_outcome {s : State} (h : s.core.Orderly) (bytes : Bytes) :
    (Punctual W s (.data bytes) → (onData W s bytes).core.delays.Ordered) ∧
      (¬Punctual W s (.data bytes) → (onData W s bytes).core.delays.Spoiled) := by
  cases hs : s.core.closed with
  | true =>
    have hsame : onData W s bytes = s := by rw [onData, if_pos hs]
    rw [hsame]
    exact ⟨fun _ => h.2.2, fun hpunctual => absurd (.inl hs) hpunctual⟩
  | false =>
    have hfeed : (onData W s bytes).pair = drain framer (handler W)
        (s.receiveBuffer ++ bytes).length (s.core, s.receiveBuffer ++ bytes) :=
      (onData_eq_feed s bytes).trans (feed_eq hs le_rfl)
    have hmeets : (Punctual W s (.data bytes) → (onData W s bytes).pair.1.Orderly) ∧
        (¬Punctual W s (.data bytes) → (onData W s bytes).pair.1.delays.Spoiled) := by
      simp only [Punctual, hs, Bool.false_eq_true, false_or]
      rw [hfeed]
      apply drain_meets (P := Core.Orderly) (R := fun c : Core => c.delays.Spoiled)
      · exact fun c f hc hp hok => (handleFrame_outcome hc hp f).1 hok
      · exact fun c hc hp hok => (finishActiveError_outcome hc hp _).1 hok
      · exact fun c f hc hp hok => (handleFrame_outcome hc hp f).2 hok
      · exact fun c hc hp hok => (finishActiveError_outcome hc hp _).2 hok
      · exact fun c f hc => spoiled_of_log (handleFrame_conserves hc f).log
      · exact fun c hc => spoiled_of_log (finishActiveError_conserves hc _).log
      · exact hs
      · exact h
    exact ⟨fun hok => (hmeets.1 hok).2.2, hmeets.2⟩

/-- One event: the line stays in order exactly if the event is punctual. -/
theorem step_outcome {s : State} (hlive : s.core.Live) (hacc : s.core.Accounted)
    (hord : s.core.delays.Ordered) {e : Event} (he : libhv s e) :
    (Punctual W s e → (step W s e).core.delays.Ordered) ∧
      (¬Punctual W s e → (step W s e).core.delays.Spoiled) := by
  have hnodup := (step_accounted (W := W) hacc e).resolved_nodup
  have hpasses (h : DelayLine.Passes (Punctual W s e) s.core.delays
      (step W s e).core.delays) :
      (Punctual W s e → (step W s e).core.delays.Ordered) ∧
        (¬Punctual W s e → (step W s e).core.delays.Spoiled) :=
    ⟨fun hok => h.ordered hord hok, fun hok => h.spoiled hord hok hnodup⟩
  cases e with
  | enqueue unitId address count => exact hpasses (enqueueInLoop_passes hlive unitId address count)
  | connection up => exact hpasses (onConnection_passes hlive he)
  | channelLost => exact hpasses (.same (delays_congr rfl rfl) trivial)
  | data bytes => exact onData_outcome ⟨hlive.linked he, hacc, hord⟩ bytes
  | connectTimeout => exact hpasses (onConnectTimeout_passes hlive he)
  | responseTimeout => exact hpasses (onResponseTimeout_passes hlive he)
  | close => exact hpasses (closeInLoop_passes hlive)
  | deliver =>
    refine hpasses ⟨s.core.delays.deliver, [], fun h => h.deliver, ?_, ?_⟩
    · rw [DelayLine.tell_nil]
      exact deliver_delays s.core
    · simp [Punctual]

/-- The observers told are the first ones, in the order of their reads. -/
def InOrder (s : Core) : Prop := told s.log <+: List.range s.enqueued

theorem Core.Accounted.inOrder (h : s.Accounted) (hord : s.delays.Ordered) : InOrder s :=
  hord.told_prefix.trans h.resolved_prefix

theorem Core.Accounted.not_inOrder (h : s.Accounted) (hspoiled : s.delays.Spoiled) :
    ¬InOrder s :=
  hspoiled.not_prefix h.resolved_prefix

/-- A run tells of outcomes in order exactly if all its events are punctual. -/
theorem told_in_order_iff {t : State} {es : List Event} (hr : (libhvMachine W).Run {} es t) :
    InOrder t.core ↔ ((libhvMachine W).restrict (Punctual W)).Run {} es t := by
  refine hr.restrict_iff (Q := fun t => InOrder t.core)
    (P := fun s => s.core.Live ∧ s.core.Accounted ∧ s.core.delays.Ordered) ?_ ?_ ?_ ?_
  · rintro s e ⟨hlive, hacc, hord⟩ he hok
    exact ⟨step_live hlive he.2, step_accounted hacc e, (step_outcome hlive hacc hord he.2).1 hok⟩
  · rintro s e es t ⟨hlive, hacc, hord⟩ he hok hrest
    have hspoiled := (step_outcome hlive hacc hord he.2).2 hok
    have hkept := hrest.keeps (P := fun u => u.core.Accounted ∧ u.core.delays.Spoiled)
      (fun u e hu _ => ⟨step_accounted hu.1 e, spoiled_of_log (step_extends u e) hu.2⟩)
      ⟨step_accounted hacc e, hspoiled⟩
    exact hkept.1.not_inOrder hkept.2
  · exact fun s hs => hs.2.1.inOrder hs.2.2
  · exact ⟨(libhvMachine_live W).init _ rfl, (machine_accounted W).init _ rfl, rfl⟩

end

instance (W : World) (s : State) (e : Event) : Decidable ((libhvMachine W).enabled s e) :=
  inferInstanceAs (Decidable (True ∧ libhv s e))

instance (s : Core) : Decidable (InOrder s) := inferInstanceAs (Decidable (_ <+: _))

/-- Requests are sent in the order of their reads, each once and one at a time. The
observers are told in this order exactly in the runs whose events are punctual. -/
theorem outcomes_in_order_iff {t : State} {es : List Event} (hr : (libhvMachine W).Run {} es t) :
    WireOrder t.core.log ∧
      (InOrder t.core ↔ ((libhvMachine W).restrict (Punctual W)).Run {} es t) :=
  ⟨((libhvMachine_wired W).reachable (.run (.init rfl) hr)).1.order, told_in_order_iff hr⟩

/-- With a callback for each reply the observers are told in order. -/
theorem outcomes_in_order_iff_apart :
    let es := [.enqueue 1 0 1, .enqueue 1 1 1, .connection true,
      .data [0, 1, 0, 0, 0, 5, 1, 3, 2, 0, 7], .deliver, .data [0, 2, 0, 0, 0, 3, 1, 0x83, 2]]
    let t := es.foldl (step .obliging) {}
    told t.core.log = [0, 1] ∧ WireOrder t.core.log ∧
      ((libhvMachine .obliging).restrict (Punctual .obliging)).Run {} es t := by
  intro es t
  have hr : (libhvMachine .obliging).Run {} es t := Machine.run_of_runs (by decide)
  have h := outcomes_in_order_iff hr
  exact ⟨by decide, h.1, h.2.1 (by decide)⟩

/-- In one callback the failure of the second read overtakes the success of the first. -/
theorem later_failure_overtakes : ∃ es t, (libhvMachine .obliging).Run {} es t ∧
    told t.core.log = [1, 0] ∧ ¬InOrder t.core :=
  ⟨[.enqueue 1 0 1, .enqueue 1 1 1, .connection true,
      .data ([0, 1, 0, 0, 0, 5, 1, 3, 2, 0, 7] ++ [0, 2, 0, 0, 0, 3, 1, 0x83, 2]), .deliver],
    _, Machine.run_of_runs (by decide), by decide, by decide⟩

end Neubau.Modbus.Session
