import Neubau.Bootstrap.ChainLinks
import Neubau.Sunspec.DiscoveryHalts

/-! How long a chain must live. A chain that is handed to the loop has asked its Modbus
discovery to stop, or the discovery takes no stop any more; so with the callbacks ahead
of the one that destroys the chain, the Modbus discovery makes its last call of the port
scanner. -/

namespace Neubau.Bootstrap.Chain

open Neubau.Common Neubau.Modbus Neubau.Sunspec Neubau.Transition
open Modbus.Discovery.Session (Asked Spent Works)

variable {o : StageOptions} {c t : Chain}

/-- The run of the SunSpec discovery has yet to start its upstream. -/
structure Opening (c : Chain) : Prop where
  modbus : c.modbus = {}
  log : c.sunspec.state.log = [.entered]
  actions : c.sunspec.actions = [.outside .subscribing] ∨ c.sunspec.actions = [.startUpstream]

structure Lifetime (c : Chain) : Prop where
  opening : c.Opening ∨ [.entered, .upstreamStart] <+: c.sunspec.state.log
  halts : c.sunspec.Halts
  settled : c.modbus.completed = true → c.modbus.stopAction = false
  asked : .upstreamStop ∈ c.sunspec.state.log.take c.called → c.modbus.Asked
  refuses : c.held = false → c.sunspec.state.refuses = true
  ahead : ∀ k, c.ahead = some k → c.modbus.Spent k
  destroyed : c.destroyed = true → c.modbus.Spent 0
  dangling : c.dangling = false

theorem Lifetime.opened (h : c.Lifetime) (ha : c.sunspec.actions = []) :
    [.entered, .upstreamStart] <+: c.sunspec.state.log := by
  refine h.opening.resolve_left fun hopening => ?_
  rcases hopening.actions with heq | heq <;> exact absurd (heq.symm.trans ha) nofun

/-- Only the Modbus discovery goes on, in a function that leaves its callbacks queued. -/
theorem Lifetime.modbus (h : c.Lifetime) (ha : c.sunspec.actions = [])
    {s : Modbus.Discovery.Session} (hbegun : s.begun = c.modbus.begun)
    (htasks : s.tasks = c.modbus.tasks) (hstopped : s.stopped = c.modbus.stopped)
    (haction : s.stopAction = c.modbus.stopAction) (hcompleted : s.completed = c.modbus.completed)
    (hw : s.Works t.modbus) (hsunspec : t.sunspec = c.sunspec) (hcalled : t.called = c.called)
    (hheld : t.held = c.held) (hahead : t.ahead = c.ahead) (hdestroyed : t.destroyed = c.destroyed)
    (hdangling : t.dangling = c.dangling) : t.Lifetime := by
  have hspent (k : ℕ) (hk : c.modbus.Spent k) : t.modbus.Spent k := by
    refine Spent.works ⟨hbegun.trans hk.begun, htasks ▸ hk.begins, ?_⟩ hw
    rw [hstopped, htasks, haction]
    exact hk.stops
  refine ⟨.inr ?_, hsunspec ▸ h.halts, fun hc => ?_, fun hm => ?_, ?_, ?_, ?_, ?_⟩
  · rw [hsunspec]
    exact h.opened ha
  · rcases hw.completed hc with hc | hs
    · exact hw.stopAction (haction.trans (h.settled (hcompleted ▸ hc)))
    · exact hs.1
  · refine Asked.works (s := s) ?_ hw
    rw [Asked, hstopped, htasks, haction]
    exact h.asked (by rwa [hsunspec, hcalled] at hm)
  · rw [hheld, hsunspec]
    exact h.refuses
  · rw [hahead]
    exact fun k hk => hspent k (h.ahead k hk)
  · rw [hdestroyed]
    exact fun hd => hspent 0 (h.destroyed hd)
  · rw [hdangling]
    exact h.dangling

/-- No stage goes on that matters here. -/
theorem Lifetime.same (h : c.Lifetime) (ha : c.sunspec.actions = []) (hm : t.modbus = c.modbus)
    (hsunspec : t.sunspec = c.sunspec) (hcalled : t.called = c.called) (hheld : t.held = c.held)
    (hahead : t.ahead = c.ahead) (hdestroyed : t.destroyed = c.destroyed)
    (hdangling : t.dangling = c.dangling) : t.Lifetime :=
  h.modbus ha rfl rfl rfl rfl rfl (hm ▸ .refl _) hsunspec hcalled hheld hahead hdestroyed hdangling

/-- The SunSpec discovery goes on; without a stop the service holds it as before. -/
theorem Lifetime.sunspec (h : c.Lifetime) (hlink : c.UpstreamLink)
    (hs : c.sunspec.Settles o.sunspec) (hd : c.sunspec.Duties) {d : Sunspec.Discovery.Event}
    (he : c.sunspec.Enabled d) (hstart : d ≠ .start ∧ d ≠ .startInLoop)
    (hrun : (∃ reads, d = .run reads) ∨ c.sunspec.actions = [])
    (hstep : t.sunspec = Sunspec.Discovery.step o.sunspec c.sunspec d)
    (hm : t.modbus = c.modbus) (hcalled : t.called = c.called)
    (hheld : t.held = false → c.held = false ∨ d = .stop) (hahead : t.ahead = c.ahead)
    (hdestroyed : t.destroyed = c.destroyed) (hdangling : t.dangling = c.dangling) :
    t.Lifetime := by
  have hlog := (Sunspec.Discovery.step_extends hs hd d).1.log
  have hlater := (Sunspec.Discovery.step_settles hs he).2
  have hhalts := Sunspec.Discovery.step_halts hs h.halts he hstart hlink.started hlink.looping
    hlink.subscribed
  rw [← hstep] at hlog hlater hhalts
  refine ⟨?_, hhalts, hm ▸ h.settled, fun hmem => ?_, fun hfalse => ?_, ?_, ?_, ?_⟩
  · rcases h.opening with hopening | hopened
    · obtain ⟨reads, rfl⟩ : ∃ reads, d = .run reads := by
        refine hrun.resolve_right fun ha => ?_
        rcases hopening.actions with heq | heq <;> exact absurd (heq.symm.trans ha) nofun
      rcases hopening.actions with heq | heq
      · rw [Sunspec.Discovery.step_run heq] at hstep
        refine .inl ⟨hm.trans hopening.modbus, ?_, .inr ?_⟩ <;> rw [hstep]
        · exact hopening.log
        · rfl
      · rw [Sunspec.Discovery.step_run heq] at hstep
        right
        rw [hstep]
        simp [Sunspec.Discovery.State.run, Sunspec.Discovery.State.tell, hopening.log]
    · exact .inr (hopened.trans hlog)
  · rw [hcalled, take_eq_of_isPrefix hlog hlink.called] at hmem
    rw [hm]
    exact h.asked hmem
  · rcases hheld hfalse with hc | rfl
    · exact hlater.refuses (h.refuses hc)
    · rw [hstep]
      exact (Sunspec.Discovery.State.stop_running hs.sound.logged hlink.started hlink.looping
        hlink.subscribed).1
  · rw [hahead, hm]
    exact h.ahead
  · rw [hdestroyed, hm]
    exact h.destroyed
  · rw [hdangling]
    exact h.dangling

/-- A discovery that refuses, with nothing left to be done, has stopped its upstream, or
that has completed. -/
theorem Lifetime.ends (h : c.Lifetime) (hlink : c.UpstreamLink)
    (hs : c.sunspec.Settles o.sunspec) (hd : c.sunspec.Duties) (hm : c.modbus.Sound o.modbus)
    (hi : c.Idle) (hr : c.sunspec.state.refuses = true) : c.modbus.Asked := by
  have hstopping : c.sunspec.state.runStopping = true → c.modbus.Asked := by
    intro hstop
    refine h.asked ?_
    rw [hi.called, List.take_length]
    rcases hd.stops hstop with hlog | hactions
    · exact hlog
    · rw [hi.actions] at hactions
      cases hactions
  have hfailing : c.sunspec.state.failing = true → c.modbus.Asked := fun hf =>
    hstopping (hs.sound.failing hf)
  rcases Sunspec.Discovery.State.refuses_eq_true.1 hr with hstop | hf | ht
  · exact hstopping hstop
  · exact hfailing hf
  · rcases hd.ends ht with hf | hcompleted
    · exact hfailing hf
    have hdone := h.halts.done hs hcompleted
    have hmem := List.mem_of_mem_take (hlink.heard hdone.1)
    refine .inr (.inr (h.settled (hm.ended.trans ?_)))
    exact List.any_eq_true.2 ⟨_, hmem, rfl⟩

/-- A stop that the SunSpec discovery calls finds the Modbus discovery begun. -/
theorem stopModbus_asked {s : Modbus.Discovery.Session} (hb : s.begun = true) :
    (stopModbus o s).Asked := by
  rw [stopModbus, if_pos hb, Modbus.Discovery.step]
  split_ifs with ha
  · exact .inr (.inl (List.mem_append_right _ (List.mem_singleton_self _)))
  · exact .inr (.inr (by simpa using ha))

theorem stopModbus_settled {s : Modbus.Discovery.Session} (hb : s.begun = true)
    (hs : s.completed = true → s.stopAction = false) :
    (stopModbus o s).completed = true → (stopModbus o s).stopAction = false := by
  rw [stopModbus, if_pos hb, Modbus.Discovery.step]
  split_ifs <;> exact hs

theorem stopModbus_spent {s : Modbus.Discovery.Session} {k : ℕ} (h : s.Spent k) :
    (stopModbus o s).Spent k := by
  rw [stopModbus, if_pos h.begun, Modbus.Discovery.step]
  split_ifs with ha
  · refine ⟨h.begun, ?_, ?_⟩
    · show Modbus.Discovery.Task.begin ∉ (s.tasks ++ [Modbus.Discovery.Task.stop]).drop k
      rw [List.drop_append]
      exact List.not_mem_append h.begins fun hm => by
        cases List.mem_singleton.1 (List.mem_of_mem_drop hm)
    · rcases h.stops with hs | hs | ⟨hs, -⟩
      · exact .inl hs
      · refine .inr (.inl ?_)
        show Modbus.Discovery.Task.stop ∈ (s.tasks ++ [Modbus.Discovery.Task.stop]).take k
        rw [List.take_append]
        exact List.mem_append_left _ hs
      · exact absurd (ha.symm.trans hs) (by decide)
  · exact h

/-- A spent session calls its port scanner no more. -/
theorem scannerCall_spent {s : Modbus.Discovery.Session} (h : s.Spent 0) :
    scannerCall s = none := by
  have hbegin := h.begins
  rw [List.drop_zero] at hbegin
  unfold scannerCall
  split_ifs with hstopped
  · rfl
  · rcases h.stops with hs | hs | ⟨-, hs⟩
    · exact absurd hs hstopped
    · cases hs
    · rw [List.drop_zero] at hs
      cases htasks : s.tasks with
      | nil => rfl
      | cons task rest =>
        rw [htasks] at hbegin hs
        cases task with
        | begin => exact absurd List.mem_cons_self hbegin
        | stop => exact absurd List.mem_cons_self hs
        | startInLoop n => rfl
        | cancelled n => rfl

/-! ### Every event -/

theorem Lifetime.runModbus (h : c.Lifetime) (ha : c.sunspec.actions = [])
    (ht : c.modbus.tasks ≠ []) (created : Bool) : (c.next o (.runModbus created)).Lifetime := by
  obtain ⟨task, rest, htasks⟩ := List.exists_cons_of_ne_nil ht
  obtain ⟨u, -, -, -, haction, hcompleted, hw⟩ :=
    Modbus.Discovery.Session.run_pops (o := o.modbus) htasks created
  refine ⟨.inr (h.opened ha), h.halts, fun hc => ?_, fun hm => ?_, h.refuses, fun k hk => ?_,
    fun hd => ?_, ?_⟩
  · rcases hw.completed hc with hc | hs
    · exact hw.stopAction (haction.trans (h.settled (hcompleted ▸ hc)))
    · exact hs.1
  · exact Asked.run (h.asked hm) ht created
  · obtain ⟨k', hk', rfl⟩ := Option.map_eq_some_iff.1 hk
    exact Spent.run (h.ahead k' hk') ht created
  · exact Spent.run (h.destroyed hd) ht created
  · show (c.dangling || (c.destroyed && (scannerCall c.modbus).isSome)) = false
    cases hd : c.destroyed with
    | false => rw [h.dangling]; rfl
    | true => rw [h.dangling, scannerCall_spent (h.destroyed hd)]; rfl

theorem Lifetime.hearScanner (h : c.Lifetime) (hport : c.PortLink)
    (hs : c.scanner.Sound o.scanner) (ha : c.sunspec.actions = []) :
    (c.next o .hearScanner).Lifetime := by
  simp only [next]
  split
  · exact h
  · rename_i e hget
    have hactive := hport.active hs hget
    cases e with
    | onNext n port =>
      have hw := Modbus.Discovery.Session.next_works (o := o.modbus) hactive port
      exact h.modbus (s := { c.modbus with arrived := c.modbus.arrived ++ [port] }) ha rfl rfl rfl
        rfl rfl hw rfl rfl rfl rfl rfl rfl
    | onCompleted =>
      have hw := Modbus.Discovery.Session.completed_works (o := o.modbus) hactive
      exact h.modbus (s := { c.modbus with upstream := .ended, upstreamCompleted := true }) ha rfl
        rfl rfl rfl rfl hw rfl rfl rfl rfl rfl rfl

/-- What the Modbus discovery tells reaches the run, or nobody. -/
theorem hearEffect_cases (c : Chain) (e : Modbus.Discovery.Effect) :
    ((c.hearEffect o e).modbus = c.modbus ∧ (c.hearEffect o e).called = c.called ∧
      (c.hearEffect o e).held = c.held ∧ (c.hearEffect o e).ahead = c.ahead ∧
      (c.hearEffect o e).destroyed = c.destroyed ∧ (c.hearEffect o e).dangling = c.dangling) ∧
    ((c.hearEffect o e).sunspec = c.sunspec ∨ ∃ d, (d ≠ .start ∧ d ≠ .startInLoop) ∧
      (c.sunspec.AtRest ∧ c.sunspec.state.subscribed = true → c.sunspec.Enabled d) ∧
      (c.hearEffect o e).sunspec = Sunspec.Discovery.step o.sunspec c.sunspec d) := by
  have hheard (t : Chain) (d : Sunspec.Discovery.Event) (hd : d ≠ .start ∧ d ≠ .startInLoop)
      (he : t.sunspec.AtRest ∧ t.sunspec.state.subscribed = true → t.sunspec.Enabled d) :
      (t.hearUpstream o d).sunspec = t.sunspec ∨ ∃ d', (d' ≠ .start ∧ d' ≠ .startInLoop) ∧
        (t.sunspec.AtRest ∧ t.sunspec.state.subscribed = true → t.sunspec.Enabled d') ∧
        (t.hearUpstream o d).sunspec = Sunspec.Discovery.step o.sunspec t.sunspec d' := by
    unfold hearUpstream
    dsimp only
    split_ifs
    · exact .inl rfl
    · exact .inr ⟨d, hd, he, rfl⟩
  cases e with
  | onNext thing =>
    exact ⟨⟨rfl, rfl, rfl, rfl, rfl, rfl⟩,
      hheard (c.forward (.modbusThing thing)) (.upstreamCandidate thing) ⟨nofun, nofun⟩ id⟩
  | onCompleted =>
    exact ⟨⟨rfl, rfl, rfl, rfl, rfl, rfl⟩, hheard c .upstreamCompleted ⟨nofun, nofun⟩ id⟩
  | onError error =>
    exact ⟨⟨rfl, rfl, rfl, rfl, rfl, rfl⟩, hheard c (.upstreamFailed error) ⟨nofun, nofun⟩ id⟩
  | _ => exact ⟨⟨rfl, rfl, rfl, rfl, rfl, rfl⟩, .inl rfl⟩

theorem Lifetime.hearModbus (h : c.Lifetime) (hlink : c.UpstreamLink)
    (hs : c.sunspec.Settles o.sunspec) (hd : c.sunspec.Duties) (ha : c.sunspec.actions = []) :
    (c.next o .hearModbus).Lifetime := by
  simp only [next]
  split
  · exact h
  · rename_i e _
    obtain ⟨⟨hm, hcalled, hheld, hahead, hdes, hdangling⟩, hsunspec | ⟨d, hstart, he, hstep⟩⟩ :=
      hearEffect_cases (o := o) { c with told := c.told + 1 } e
    · exact h.same ha hm hsunspec hcalled hheld hahead hdes hdangling
    · exact h.sunspec hlink hs hd (he ⟨.inl ha, hlink.subscribed⟩) hstart (.inr ha) hstep hm hcalled
        (fun hf => .inl (hheld ▸ hf)) hahead hdes hdangling

/-- Nothing but the entry is called before the upstream is started. -/
theorem Lifetime.opened_of_called (h : c.Lifetime) {e : Sunspec.Discovery.Effect}
    (hget : c.sunspec.state.log[c.called]? = some e) (hne : e ≠ .entered) :
    [.entered, .upstreamStart] <+: c.sunspec.state.log := by
  refine h.opening.resolve_left fun hopening => ?_
  have hmem := List.mem_of_getElem? hget
  rw [hopening.log] at hmem
  exact hne (List.mem_singleton.1 hmem)

/-- The SunSpec discovery starts or stops its upstream, or tells its observer. -/
theorem Lifetime.hearSunspec (h : c.Lifetime) (hlink : c.UpstreamLink)
    (hlt : c.called < c.sunspec.state.log.length) : (c.next o .hearSunspec).Lifetime := by
  cases hget : c.sunspec.state.log[c.called]? with
  | none => exact absurd hlt (not_lt.2 (List.getElem?_eq_none_iff.1 hget))
  | some e =>
    have hnext : c.next o .hearSunspec = { c with called := c.called + 1 }.obey o e := by
      simp only [next, hget]
    have htake := take_succ_of_getElem? hget
    have hbefore (hne : e ≠ .upstreamStop)
        (hm : .upstreamStop ∈ c.sunspec.state.log.take (c.called + 1)) :
        .upstreamStop ∈ c.sunspec.state.log.take c.called := by
      rw [htake] at hm
      exact (List.mem_append.1 hm).resolve_right fun hm => hne (List.mem_singleton.1 hm).symm
    rw [hnext]
    cases e with
    | upstreamStart =>
      have hopened := h.opened_of_called hget (by simp)
      have hspent (k : ℕ) (hk : c.modbus.Spent k) :
          (Modbus.Discovery.step o.modbus c.modbus .start).Spent k := by
        rw [Modbus.Discovery.step, if_pos hk.begun]
        exact hk
      refine ⟨.inr hopened, h.halts, fun hc => ?_, fun hm => ?_, h.refuses,
        fun k hk => hspent k (h.ahead k hk), fun hd => hspent 0 (h.destroyed hd), h.dangling⟩
      · change (Modbus.Discovery.step o.modbus c.modbus .start).completed = true at hc
        show (Modbus.Discovery.step o.modbus c.modbus .start).stopAction = false
        unfold Modbus.Discovery.step at hc ⊢
        dsimp only at hc ⊢
        split_ifs at hc ⊢ <;> exact h.settled hc
      · have hasked := h.asked (hbefore (by simp) hm)
        show (Modbus.Discovery.step o.modbus c.modbus .start).Asked
        unfold Modbus.Discovery.step
        dsimp only
        split_ifs
        · exact hasked
        · exact hasked.imp_right (Or.imp_left (List.mem_append_left _))
    | upstreamStop =>
      have hopened := h.opened_of_called hget (by simp)
      -- the upstream was started before
      have hbegun : c.modbus.begun = true := by
        refine hlink.begun ?_
        obtain ⟨rest, hlog⟩ := hopened
        rw [← hlog] at hget ⊢
        obtain hz | hz | hle : c.called = 0 ∨ c.called = 1 ∨ 2 ≤ c.called := by omega
        · rw [hz] at hget
          cases hget
        · rw [hz] at hget
          cases hget
        · rw [List.take_append]
          exact List.mem_append_left _ (by rw [List.take_of_length_le hle]; simp)
      exact ⟨.inr hopened, h.halts, stopModbus_settled hbegun h.settled,
        fun _ => stopModbus_asked hbegun, h.refuses, fun k hk => stopModbus_spent (h.ahead k hk),
        fun hd => stopModbus_spent (h.destroyed hd), h.dangling⟩
    | _ =>
      refine ⟨h.opening.imp_left fun ho => ⟨ho.modbus, ho.log, ho.actions⟩, h.halts, h.settled,
        fun hm => h.asked (hbefore (by simp) hm), h.refuses, h.ahead, h.destroyed, h.dangling⟩

theorem reachable_lifetime (hc : (machine o).Reachable c) : c.Lifetime := by
  refine hc.keeps (P := Lifetime) (fun c hc => ?_) fun c e hc h he => ?_
  · obtain rfl : c = create o := hc
    have hhalts : (create o).sunspec.Halts := by
      refine ⟨⟨[], rfl, nofun⟩, nofun, fun hm => ?_⟩
      rcases hm with hm | hm <;> exact absurd (List.mem_singleton.1 hm) nofun
    exact ⟨.inl ⟨rfl, rfl, .inl rfl⟩, hhalts, nofun, nofun, nofun, nofun, nofun, rfl⟩
  have hport := reachable_portLink hc
  have hlink := reachable_upstreamLink hc
  have hscanner := (sees_scanner o).invariant PortScannerSession.machine_sound hc
  have hmodbus := (sees_modbus o).invariant (Modbus.Discovery.machine_sound o.modbus) hc
  obtain ⟨hs, hd⟩ := (sees_sunspec o).invariant (Sunspec.Discovery.machine_duties o.sunspec) hc
  cases e with
  | sunspec e =>
    have hown := he.2.1
    refine h.sunspec hlink hs hd he.2.2.1 ?_ (he.2.2.2.imp And.left Idle.actions) rfl rfl rfl .inl
      rfl rfl rfl
    exact ⟨fun heq => by rwa [heq] at hown, fun heq => by rwa [heq] at hown⟩
  | runModbus created => exact h.runModbus he.1.actions he.2 created
  | exchangeFinished n response =>
    have hw := Modbus.Discovery.Session.exchange_works (o := o.modbus) c.modbus n response
    exact h.modbus (s := c.modbus) he.actions rfl rfl rfl rfl rfl hw rfl rfl rfl rfl rfl rfl
  | runScanner created => exact h.same he.1.actions rfl rfl rfl rfl rfl rfl rfl
  | connection n isOpen => exact h.same he.1.actions rfl rfl rfl rfl rfl rfl rfl
  | hearScanner => exact h.hearScanner hport hscanner he.1
  | hearModbus => exact h.hearModbus hlink hs hd he.1
  | hearSunspec => exact h.hearSunspec hlink he
  | stopSunspecChain =>
    exact h.sunspec hlink hs hd (d := .stop) (.inl he.1.actions) ⟨nofun, nofun⟩ (.inr he.1.actions)
      rfl rfl rfl (fun _ => .inr rfl) rfl rfl rfl
  | queueInLoop =>
    have hbegun : c.modbus.begun = true := by
      refine hlink.begun ?_
      rw [he.1.called, List.take_length]
      exact (h.opened he.1.actions).subset (List.mem_cons_of_mem _ (List.mem_singleton_self _))
    have hasked := h.ends hlink hs hd hmodbus he.1 (h.refuses he.2.1)
    refine ⟨.inr (h.opened he.1.actions), h.halts, h.settled, h.asked, h.refuses, fun k hk => ?_,
      h.destroyed, h.dangling⟩
    rw [← Option.some.inj hk]
    exact hasked.spent hbegun
  | destroy =>
    have hspent := stopModbus_spent (o := o) (h.ahead 0 he.2)
    have hbegun := (h.ahead 0 he.2).begun
    exact ⟨.inr (h.opened he.1.actions), h.halts, stopModbus_settled hbegun h.settled,
      fun _ => stopModbus_asked hbegun, h.refuses, nofun, fun _ => hspent, h.dangling⟩

end Neubau.Bootstrap.Chain
