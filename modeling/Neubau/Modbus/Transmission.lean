import Neubau.Modbus.Single

/-! The order of the requests on the wire. A request is sent when it is active and no
response is awaited. All requests sent before are resolved by then, so that they come
earlier on the roll of observers, which is increasing. -/

namespace Neubau.Modbus.Session

open Neubau.Common Neubau.Transition

variable {W : World}

/-- Requests are sent in the order of their reads, each once, and each of them after
those before it are resolved. -/
def WireOrder (log : List Effect) : Prop :=
  ∀ front r bytes, front ++ [.sent r bytes] <+: log → ∀ r' bytes', .sent r' bytes' ∈ front →
    r'.observer < r.observer ∧ r'.observer ∈ front.filterMap Effect.resolves

def Effect.isSent : Effect → Bool
  | .sent _ _ => true
  | _ => false

/-- What was sent is in order, and is resolved unless it is the active request that
awaits its response. -/
structure Core.Wired (s : Core) : Prop where
  order : WireOrder s.log
  flight : ∀ r bytes, .sent r bytes ∈ s.log → r.observer ∈ s.log.filterMap Effect.resolves ∨
    (s.awaitingResponse = true ∧ ∃ active, s.active = some active ∧ active.observer = r.observer)

theorem WireOrder.append {log new : List Effect} (h : WireOrder log)
    (hnew : ∀ e ∈ new, e.isSent = false) : WireOrder (log ++ new) := by
  induction new using List.reverseRecOn with
  | nil => rwa [List.append_nil]
  | append_singleton new e ih =>
    have hbefore := ih fun e he => hnew e (List.mem_append_left _ he)
    intro front r bytes hfront
    rw [← List.append_assoc, List.prefix_concat_iff] at hfront
    rcases hfront with heq | hfront
    · -- the last effect is no request that is sent
      have hlast := (List.append_inj' heq rfl).2
      have hsent := hnew e (by simp)
      rw [← List.singleton_inj.1 hlast] at hsent
      cases hsent
    · exact hbefore front r bytes hfront

section

variable {s t : Core}

/-- The session goes on without sending; a request that it releases is resolved. -/
theorem Core.Wired.extend (h : s.Wired) (new : List Effect) (hlog : t.log = s.log ++ new)
    (hnew : ∀ e ∈ new, e.isSent = false)
    (hactive : (t.active = s.active ∧ t.awaitingResponse = s.awaitingResponse) ∨
      ∀ r, s.active = some r → r.observer ∈ new.filterMap Effect.resolves) : t.Wired := by
  refine ⟨hlog ▸ h.order.append hnew, fun r bytes hr => ?_⟩
  rw [hlog] at hr ⊢
  rw [List.filterMap_append]
  have hsent : .sent r bytes ∈ s.log := by
    refine (List.mem_append.1 hr).resolve_right fun hmem => ?_
    exact absurd (hnew _ hmem) (by simp [Effect.isSent])
  rcases h.flight r bytes hsent with hresolved | ⟨hawaiting, active, ha, hobserver⟩
  · exact .inl (List.mem_append_left _ hresolved)
  · rcases hactive with ⟨hsame, hwaits⟩ | hresolved
    · exact .inr ⟨hwaits.trans hawaiting, active, hsame.trans ha, hobserver⟩
    · exact .inl (List.mem_append_right _ (hobserver ▸ hresolved active ha))

/-- A change of the session that concerns neither its log nor its active request. -/
theorem Core.Wired.congr (h : s.Wired) (hlog : t.log = s.log) (hactive : t.active = s.active)
    (hawaiting : t.awaitingResponse = s.awaitingResponse) : t.Wired :=
  h.extend [] (by rw [hlog, List.append_nil]) (by simp) (.inl ⟨hactive, hawaiting⟩)

theorem failAll_wired (h : s.Wired) (f : Exception) : (failAll W s f).Wired := by
  cases hs : s.closed with
  | true => rwa [failAll_closed hs]
  | false =>
    rw [failAll_open hs]
    refine h.extend _ rfl ?_ (.inr fun r hr => ?_)
    · simp [Effect.isSent]
    · rw [filterMap_failed]
      simp [Core.held, hr]

theorem closeInLoop_wired (h : s.Wired) : (closeInLoop W s).Wired := by
  unfold closeInLoop
  split_ifs
  · exact h
  · exact failAll_wired h _

/-- The active request is sent when no response is awaited. -/
theorem sendActive_wired (h : s.Wired) (hawaiting : s.awaitingResponse = false)
    (hroll : s.roll.Pairwise (· < ·)) : (sendActive W s).Wired := by
  unfold sendActive
  cases ha : s.active with
  | none => exact h
  | some active =>
    dsimp only
    split_ifs
    · exact h
    · exact failAll_wired h _
    · apply failAll_wired
      exact h.congr rfl ha.symm rfl
    · have hresolved (r : Request) (bytes : Bytes) (hr : .sent r bytes ∈ s.log) :
          r.observer ∈ s.log.filterMap Effect.resolves :=
        (h.flight r bytes hr).resolve_right (by simp [hawaiting])
      refine Core.Wired.congr (s := { s with
        log := s.log ++ [Effect.sent active active.bytes], awaitingResponse := true }) ⟨?_, ?_⟩
        (by simp [Core.armTimeout]) (by simp [Core.armTimeout, ha]) (by simp [Core.armTimeout])
      · intro front r bytes hfront r' bytes' hr'
        rw [List.prefix_concat_iff] at hfront
        rcases hfront with heq | hfront
        · obtain ⟨rfl, hlast⟩ := List.append_inj' heq rfl
          simp only [List.cons.injEq, Effect.sent.injEq, and_true] at hlast
          obtain ⟨rfl, -⟩ := hlast
          have hold := hresolved r' bytes' hr'
          -- what is resolved comes before what is held
          have hlt := (List.pairwise_append.1 hroll).2.2 _ hold r.observer
          exact ⟨hlt (by simp [Core.held, ha]), hold⟩
        · exact h.order front r bytes hfront r' bytes' hr'
      · intro r bytes hr
        simp only [List.mem_append, List.mem_singleton] at hr
        rcases hr with hr | hr
        · exact .inl (by simpa [Effect.resolves] using hresolved r bytes hr)
        · cases hr
          exact .inr ⟨rfl, active, ha, rfl⟩

theorem startConnection_wired (h : s.Wired) : (startConnection W s).Wired := by
  unfold startConnection
  dsimp only
  split_ifs
  · exact h
  · exact failAll_wired (h.congr (by simp [Core.armTimeout]) (by simp [Core.armTimeout])
      (by simp [Core.armTimeout])) _
  · exact h.congr (by simp [Core.armTimeout]) (by simp [Core.armTimeout])
      (by simp [Core.armTimeout])

theorem startNext_wired (h : s.Wired) (hidle : s.active = none → s.awaitingResponse = false)
    (hroll : s.roll.Pairwise (· < ·)) : (startNext W s).Wired := by
  refine startNext_keeps h fun request rest _ hnone hq => ?_
  have hstarted : (s.started request rest).Wired :=
    h.extend [] (List.append_nil _).symm (by simp) (.inr fun r hr => by simp [hnone] at hr)
  refine ⟨sendActive_wired hstarted (hidle hnone) ?_, startConnection_wired hstarted⟩
  simpa [Core.roll, Core.held, Core.started, hnone, hq] using hroll

theorem callFailure_wired {r : Request} (h : s.Wired) (hr : s.active = some r) (f : Exception) :
    (callFailure W (closeInLoop W) s.released r f).Wired := by
  have hfailed : Core.Wired
      { s.released with log := s.released.log ++ [Effect.failed r f s.released.closed] } := by
    refine h.extend [.failed r f s.released.closed] (by simp [Core.released]) ?_
      (.inr fun r' hr' => ?_)
    · simp [Effect.isSent]
    · obtain rfl := Option.some.inj (hr.symm.trans hr')
      simp [Effect.resolves]
  unfold callFailure
  dsimp only
  split_ifs
  · exact closeInLoop_wired hfailed
  · exact hfailed

theorem callFailure_idle (h : s.awaitingResponse = false) (r : Request) (f : Exception) :
    (callFailure W (closeInLoop W) s r f).awaitingResponse = false := by
  unfold callFailure closeInLoop
  dsimp only
  split_ifs with _ hclosed
  · exact h
  · rw [failAll_open (by simpa using hclosed)]
    rfl
  · exact h

theorem finishActiveError_wired (h : s.Wired) (hs : s.closed = false)
    (hroll : s.roll.Pairwise (· < ·)) (f : Exception) : (finishActiveError W s f).Wired := by
  cases hr : s.active with
  | none => rwa [finishActiveError_idle hr]
  | some request =>
    rw [finishActiveError_active hr]
    refine startNext_wired (callFailure_wired h hr f) (fun _ => callFailure_idle rfl request f) ?_
    rwa [(callFailure_conserves hs hr f).roll]

theorem finishActiveSuccess_wired (h : s.Wired) (hroll : s.roll.Pairwise (· < ·))
    (registers : Registers) : (finishActiveSuccess W s registers).Wired := by
  cases hr : s.active with
  | none => rwa [finishActiveSuccess_idle hr]
  | some request =>
    have hanswered : (s.answered request registers).Wired := by
      refine h.extend [.posted request registers] rfl ?_ (.inr fun r' hr' => ?_)
      · simp [Effect.isSent]
      · obtain rfl := Option.some.inj (hr.symm.trans hr')
        simp [Effect.resolves]
    rw [finishActiveSuccess_active hr]
    refine startNext_wired hanswered (fun _ => rfl) ?_
    simpa [Core.answered, Core.released, Core.roll, Core.held, hr, Effect.resolves] using hroll

theorem handleFrame_wired (h : s.Wired) (hs : s.closed = false) (hroll : s.roll.Pairwise (· < ·))
    (frame : Bytes) : (handleFrame W s frame).Wired :=
  handleFrame_keeps h (finishActiveError_wired h hs hroll) (finishActiveSuccess_wired h hroll)
    frame

theorem onData_wired {s : State} (h : s.core.Wired) (hroll : s.core.roll.Pairwise (· < ·))
    (bytes : Bytes) : (onData W s bytes).core.Wired := by
  have hkeeps : (onData W s bytes).core.Wired ∧ (onData W s bytes).core.roll.Pairwise (· < ·) := by
    refine onData_keeps (P := fun c => c.Wired ∧ c.roll.Pairwise (· < ·)) ?_ ?_ ⟨h, hroll⟩ bytes
    · rintro c f hc ⟨hw, hr⟩
      exact ⟨handleFrame_wired hw hc hr f, by rwa [(handleFrame_conserves hc f).roll]⟩
    · rintro c hc ⟨hw, hr⟩
      exact ⟨finishActiveError_wired hw hc hr _, by rwa [(finishActiveError_conserves hc _).roll]⟩
  exact hkeeps.1

theorem Core.Accounted.pairwise (h : s.Accounted) : s.roll.Pairwise (· < ·) := by
  rw [h.roll]
  exact List.pairwise_lt_range

theorem enqueueInLoop_wired (h : s.Wired) (hlive : s.Live) (hacc : s.Accounted) (unitId : UInt8)
    (address count : UInt16) : (enqueueInLoop W s unitId address count).Wired := by
  have hroll := (enqueueInLoop_accounted (W := W) hacc unitId address count).pairwise
  cases hs : s.closed with
  | true =>
    rw [enqueueInLoop_closed hs]
    have hq := hacc.quiet hs
    exact h.extend _ rfl (by simp [Effect.isSent]) (.inr fun r hr => by simp [hq.active] at hr)
  | false =>
    rw [enqueueInLoop_open hs] at hroll ⊢
    rw [(startNext_conserves _).roll] at hroll
    refine startNext_wired (h.congr rfl rfl rfl) (fun hnone => ?_) hroll
    rcases hlive.phase hs with ⟨hr, -⟩ | hc | hw
    · exact hr.awaiting
    · exact hc.awaiting
    · exact absurd hw.active (by simp_all)

theorem onConnection_wired (h : s.Wired) (hlive : s.Live) (hacc : s.Accounted) {up : Bool}
    (hup : up = true → s.connecting = true) : (onConnection W s up).Wired := by
  unfold onConnection
  dsimp only
  split_ifs with hs hx hlost
  · exact h.congr rfl rfl rfl
  · have hopen : s.closed = false := by simpa using hs
    refine sendActive_wired (h.congr (by simp) (by simp) (by simp)) ?_ ?_
    · rcases hlive.phase hopen with ⟨hr, -⟩ | hc | hw
      · simpa using hr.awaiting
      · simpa using hc.awaiting
      · exact absurd (hup hx) (by simp [hw.connecting])
    · simpa [Core.roll, Core.held] using hacc.pairwise
  · apply failAll_wired
    exact h.congr rfl rfl rfl
  · exact h.congr rfl rfl rfl

theorem fire_wired (h : s.Wired) (callback : Timeout) : (s.fire callback).Wired :=
  h.congr (fire_log s callback) (fire_active s callback) (fire_awaitingResponse s callback)

theorem onConnectTimeout_wired (h : s.Wired) : (onConnectTimeout W s).Wired := by
  unfold onConnectTimeout
  split_ifs
  · exact failAll_wired h _
  · exact h

theorem onResponseTimeout_wired (h : s.Wired) : (onResponseTimeout W s).Wired := by
  unfold onResponseTimeout
  split_ifs
  · exact failAll_wired h _
  · exact h

theorem step_wired {s : State} (h : s.core.Wired) (hlive : s.core.Live) (hacc : s.core.Accounted)
    {e : Event} (he : libhv s e) : (step W s e).core.Wired := by
  cases e with
  | enqueue unitId address count => exact enqueueInLoop_wired h hlive hacc unitId address count
  | connection up =>
    refine onConnection_wired h hlive hacc ?_
    rintro rfl
    exact he
  | channelLost => exact h.congr rfl rfl rfl
  | data bytes => exact onData_wired h hacc.pairwise bytes
  | connectTimeout => exact onConnectTimeout_wired (fire_wired h .connect)
  | responseTimeout => exact onResponseTimeout_wired (fire_wired h .response)
  | close => exact closeInLoop_wired h
  | deliver =>
    change s.core.deliver.Wired
    unfold Core.deliver
    split
    · exact h
    · exact h.extend _ rfl (by simp [Effect.isSent]) (.inl ⟨rfl, rfl⟩)

end

/-- What a session knows of its requests. -/
theorem libhvMachine_wired (W : World) : (libhvMachine W).Invariant
    fun s => s.core.Wired ∧ s.core.Live ∧ s.core.Accounted where
  init s hs := by
    refine ⟨?_, (libhvMachine_live W).init s hs, (machine_accounted W).init s hs⟩
    obtain rfl : s = {} := hs
    exact ⟨fun front r bytes h => absurd h (by simp), fun r bytes h => absurd h (by simp)⟩
  next _ _ h he :=
    ⟨step_wired h.1 h.2.1 h.2.2 he.2, step_live h.2.1 he.2, step_accounted h.2.2 _⟩

end Neubau.Modbus.Session
