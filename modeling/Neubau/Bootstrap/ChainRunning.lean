import Neubau.Bootstrap.ChainLifetime
import Neubau.Bootstrap.ChainScans

/-! A chain that the service holds. Nobody stops its stages but a failure, so the
Modbus discovery goes on with its work, the port scanner stops only with it, and every
thing that is told of is opened. -/

namespace Neubau.Bootstrap.Chain

open Neubau.Common Neubau.Modbus Neubau.Sunspec Neubau.Transition
open Modbus.Discovery (observedThings)
open Modbus.Discovery.Session (Progress Works)
open Sunspec.Discovery.State (target)

variable {o : StageOptions} {c t : Chain}

/-- What holds of a chain as long as the service holds it. -/
structure Running (o : StageOptions) (c : Chain) : Prop where
  alive : c.ahead = none ∧ c.destroyed = false
  stopping : c.sunspec.state.stopping = false
  progress : c.modbus.Progress o.modbus
  modbus : c.modbus.stopped = true ∨ .stop ∈ c.modbus.tasks →
    .upstreamStop ∈ c.sunspec.state.log
  scanner : c.scanner.stopped = true ∨ .stop ∈ c.scanner.tasks → c.modbus.stopped = true
  begun : c.modbus.begun = true →
    .begin ∈ c.modbus.tasks ∨ c.modbus.stopped = true ∨ c.modbus.upstream ≠ .idle
  opened : c.sunspec.state.failing = false →
    c.sunspec.state.opened = (observedThings (c.modbus.log.take c.told)).map target
  finished : c.modbus.completed = true → c.modbus.upstreamCompleted = true
  ended : c.modbus.upstreamCompleted = true →
    c.modbus.stopped = true ∨ c.modbus.upstream = .ended

/-- Only the Modbus discovery goes on, in a function that leaves its callbacks queued. -/
theorem Running.modbus_works (h : c.Running o) (hlink : c.UpstreamLink)
    {s : Modbus.Discovery.Session} (hbegun : s.begun = c.modbus.begun)
    (htasks : s.tasks = c.modbus.tasks) (hstopped : s.stopped = c.modbus.stopped)
    (hidle : c.modbus.upstream ≠ .idle → s.upstream ≠ .idle)
    (hfinished : s.completed = true → s.upstreamCompleted = true)
    (hended : s.upstreamCompleted = true → s.stopped = true ∨ s.upstream = .ended)
    (hw : s.Works t.modbus)
    (hp : t.modbus.Progress o.modbus) (hlog : c.modbus.log <+: t.modbus.log)
    (hscanner : t.scanner = c.scanner) (hsunspec : t.sunspec = c.sunspec) (htold : t.told = c.told)
    (hahead : t.ahead = c.ahead) (hdestroyed : t.destroyed = c.destroyed) : t.Running o := by
  obtain ⟨new, hnew, -, hstop⟩ := hw.tasks
  rw [htasks] at hnew
  refine ⟨by rw [hahead, hdestroyed]; exact h.alive, by rw [hsunspec]; exact h.stopping, hp,
    fun hm => ?_, fun hs => ?_, fun hb => ?_, fun hf => ?_, fun hc => ?_, fun hu => ?_⟩
  · rw [hsunspec]
    refine h.modbus (hm.imp (fun hs => ?_) fun hs => ?_)
    · exact hstopped.symm.trans (hw.stopped.symm.trans hs)
    · rw [hnew] at hs
      exact (List.mem_append.1 hs).resolve_right hstop
  · rw [hscanner] at hs
    exact hw.stopped.trans (hstopped.trans (h.scanner hs))
  · rcases h.begun (hbegun.symm.trans (hw.begun.symm.trans hb)) with hb | hs | hu
    · exact .inl (hnew ▸ List.mem_append_left _ hb)
    · exact .inr (.inl (hw.stopped.trans (hstopped.trans hs)))
    · exact .inr (.inr (by rw [hw.upstream]; exact hidle hu))
  · rw [hsunspec] at hf ⊢
    rw [htold, take_eq_of_isPrefix hlog hlink.told]
    exact h.opened hf
  · rcases hw.completed hc with hc | hc
    · exact hw.upstreamCompleted.trans (hfinished hc)
    · exact hc.2
  · rw [hw.stopped, hw.upstream]
    exact hended (hw.upstreamCompleted.symm.trans hu)

/-- The port scanner goes on. -/
theorem Running.scans (h : c.Running o) {e : PortScannerSession.Event} (hne : e ≠ .requestStop)
    (hscanner : t.scanner = PortScannerSession.step o.scanner c.scanner e)
    (hmodbus : t.modbus = c.modbus) (hsunspec : t.sunspec = c.sunspec) (htold : t.told = c.told)
    (hahead : t.ahead = c.ahead) (hdestroyed : t.destroyed = c.destroyed) : t.Running o := by
  obtain ⟨hstopped, hstops⟩ := PortScannerSession.step_stops (o := o.scanner) c.scanner e
  rw [← hscanner] at hstopped hstops
  refine ⟨by rw [hahead, hdestroyed]; exact h.alive, by rw [hsunspec]; exact h.stopping,
    hmodbus ▸ h.progress, ?_, fun hs => ?_, hmodbus ▸ h.begun, ?_, hmodbus ▸ h.finished,
    hmodbus ▸ h.ended⟩
  · rw [hmodbus, hsunspec]
    exact h.modbus
  · rw [hmodbus]
    rcases hs with hs | hs
    · exact h.scanner (hstopped hs)
    · exact h.scanner (.inr ((hstops hs).resolve_right hne))
  · rw [hmodbus, hsunspec, htold]
    exact h.opened

/-- The SunSpec discovery goes on, which is not told to stop. -/
theorem Running.sunspec (h : c.Running o) (hlife : c.Lifetime)
    (hs : c.sunspec.Settles o.sunspec) (hd : c.sunspec.Duties) {d : Sunspec.Discovery.Event}
    (he : c.sunspec.Enabled d) (hstart : d ≠ .start ∧ d ≠ .startInLoop) (hstop : d ≠ .stop)
    (hstep : t.sunspec = Sunspec.Discovery.step o.sunspec c.sunspec d)
    (hscanner : t.scanner = c.scanner) (hmodbus : t.modbus = c.modbus)
    (hahead : t.ahead = c.ahead) (hdestroyed : t.destroyed = c.destroyed)
    (hopened : c.sunspec.state.failing = false → t.sunspec.state.failing = false →
      t.sunspec.state.opened = (observedThings (t.modbus.log.take t.told)).map target) :
    t.Running o := by
  have hlog := (Sunspec.Discovery.step_extends hs hd d).1.log
  have hlater := (Sunspec.Discovery.step_settles hs he).2
  have hstopping := Sunspec.Discovery.step_stopping (o := o.sunspec) hlife.halts hstart hstop
  rw [← hstep] at hlog hlater hstopping
  refine ⟨by rw [hahead, hdestroyed]; exact h.alive, hstopping.trans h.stopping,
    hmodbus ▸ h.progress, ?_, ?_, hmodbus ▸ h.begun, fun hf => hopened ?_ hf, hmodbus ▸ h.finished,
    hmodbus ▸ h.ended⟩
  · rw [hmodbus]
    exact fun hm => hlog.subset (h.modbus hm)
  · rw [hscanner, hmodbus]
    exact h.scanner
  · by_contra hne
    exact absurd ((hlater.failing (by simpa using hne)).symm.trans hf) (by decide)

/-- Nothing that is left alone here matters. -/
theorem Running.same (h : c.Running o) (hscanner : t.scanner = c.scanner)
    (hmodbus : t.modbus = c.modbus) (hsunspec : t.sunspec = c.sunspec) (htold : t.told = c.told)
    (hahead : t.ahead = c.ahead) (hdestroyed : t.destroyed = c.destroyed) : t.Running o := by
  refine ⟨by rw [hahead, hdestroyed]; exact h.alive, by rw [hsunspec]; exact h.stopping,
    hmodbus ▸ h.progress, ?_, ?_, hmodbus ▸ h.begun, ?_, hmodbus ▸ h.finished,
    hmodbus ▸ h.ended⟩
  · rw [hmodbus, hsunspec]
    exact h.modbus
  · rw [hscanner, hmodbus]
    exact h.scanner
  · rw [hmodbus, hsunspec, htold]
    exact h.opened

/-! ### Every event -/

/-- A session that completes has heard its upstream complete, or was stopped before. -/
theorem Running.ends_run (h : c.Running o) (hs : c.modbus.Sound o.modbus)
    {task : Modbus.Discovery.Task} {rest : List Modbus.Discovery.Task}
    (htasks : c.modbus.tasks = task :: rest) (created : Bool) :
    let t := Modbus.Discovery.step o.modbus c.modbus (.run [] created)
    (t.completed = true → t.upstreamCompleted = true) ∧
      (t.upstreamCompleted = true → t.stopped = true ∨ t.upstream = .ended) := by
  dsimp only
  by_cases hbegin : task = .begin
  · subst hbegin
    obtain ⟨-, -, -, hcompleted, hupstream⟩ := hs.first htasks
    cases hsc : c.modbus.stopped with
    | false =>
      rw [Modbus.Discovery.Session.run_begin htasks hsc created]
      exact ⟨fun hc => absurd (hcompleted.symm.trans hc) (by decide),
        fun hu => absurd (hupstream.symm.trans hu) (by decide)⟩
    | true =>
      have hw := Modbus.Discovery.Session.run_begin_stopped (o := o.modbus) htasks hsc created
      exact ⟨fun _ => hw.upstreamCompleted, fun _ => .inl (hw.stopped.trans hsc)⟩
  · have hw := Modbus.Discovery.Session.run_works (o := o.modbus) htasks hbegin created
    refine ⟨fun hc => ?_, fun hu => ?_⟩
    · rcases hw.completed hc with hc | hc
      · exact hw.upstreamCompleted.trans (h.finished hc)
      · exact hc.2
    · rw [hw.upstream, hw.stopped]
      refine (h.ended (hw.upstreamCompleted.symm.trans hu)).imp_left fun hsc => ?_
      simp [hsc]

/-- A callback of the Modbus discovery; with its stop it stops the port scanner. -/
theorem Running.runModbus (h : c.Running o) (hlink : c.UpstreamLink)
    (hs : c.modbus.Sound o.modbus) (ht : c.modbus.tasks ≠ []) (created : Bool) :
    (c.next o (.runModbus created)).Running o := by
  obtain ⟨task, rest, htasks⟩ := List.exists_cons_of_ne_nil ht
  obtain ⟨u, hrest, hbegun, hstopped, -, -, hw⟩ :=
    Modbus.Discovery.Session.run_pops (o := o.modbus) htasks created
  obtain ⟨new, hnew, -, hstop⟩ := hw.tasks
  have hmodbus : (c.next o (.runModbus created)).modbus =
      Modbus.Discovery.step o.modbus c.modbus (.run [] created) := rfl
  have hlog := Modbus.Discovery.step_log (o := o.modbus) c.modbus (.run [] created)
  have hprogress := Modbus.Discovery.step_progress h.progress hs (e := .run [] created) rfl
  have hstays : c.modbus.stopped = true →
      (Modbus.Discovery.step o.modbus c.modbus (.run [] created)).stopped = true := fun hsc =>
    hw.stopped.trans (by rw [hstopped, hsc]; rfl)
  refine ⟨⟨?_, h.alive.2⟩, h.stopping, hprogress, fun hm => ?_, fun hm => ?_, fun hb => ?_,
    fun hf => ?_, fun hc => ?_, fun hu => ?_⟩
  · show c.ahead.map Nat.pred = none
    rw [h.alive.1]
    rfl
  · refine h.modbus ?_
    rw [hmodbus] at hm
    rw [htasks]
    rcases hm with hm | hm
    · rw [hw.stopped, hstopped, Bool.or_eq_true, decide_eq_true_iff] at hm
      rcases hm with hm | rfl
      · exact .inl hm
      · exact .inr List.mem_cons_self
    · rw [hnew] at hm
      exact .inr (List.mem_cons_of_mem _ (hrest ▸ (List.mem_append.1 hm).resolve_right hstop))
  · rw [hmodbus]
    change ((c.callScanner o).scanner.stopped = true ∨ _ ∈ (c.callScanner o).scanner.tasks) at hm
    simp only [callScanner, scannerCall, htasks, List.head?_cons] at hm
    cases hsc : c.modbus.stopped with
    | true => exact hstays hsc
    | false =>
      rw [hsc] at hm
      cases task with
      | begin =>
        refine hstays (h.scanner ?_)
        simp only [Bool.false_eq_true, ↓reduceIte, startScanner] at hm
        split_ifs at hm
        · exact hm
        · exact hm.imp_right fun hm => (List.mem_append.1 hm).resolve_right (by simp)
      | stop => exact hw.stopped.trans (by simp [hstopped])
      | startInLoop n => exact hstays (h.scanner hm)
      | cancelled n => exact hstays (h.scanner hm)
  · rw [hmodbus] at hb ⊢
    rcases h.begun (hbegun.symm.trans (hw.begun.symm.trans hb)) with hbegin | hsc | hu
    · rw [htasks] at hbegin
      rcases List.mem_cons.1 hbegin with rfl | hbegin
      · cases hsc : c.modbus.stopped with
        | true => exact .inr (.inl (hstays hsc))
        | false =>
          rw [Modbus.Discovery.Session.run_begin htasks hsc created]
          exact .inr (.inr (by simp))
      · exact .inl (hnew ▸ List.mem_append_left _ (hrest ▸ hbegin))
    · exact .inr (.inl (hstays hsc))
    · by_cases hbegin : task = .begin
      · subst hbegin
        exact absurd (hs.first htasks).2.2.1 hu
      · have hw' := Modbus.Discovery.Session.run_works (o := o.modbus) htasks hbegin created
        exact .inr (.inr (by rw [hw'.upstream]; exact hu))
  · show c.sunspec.state.opened = (observedThings ((Modbus.Discovery.step o.modbus c.modbus
      (.run [] created)).log.take c.told)).map target
    rw [take_eq_of_isPrefix hlog hlink.told]
    exact h.opened hf
  · exact (h.ends_run hs htasks created).1 hc
  · exact (h.ends_run hs htasks created).2 hu

theorem Running.hearScanner (h : c.Running o) (hport : c.PortLink) (hlink : c.UpstreamLink)
    (hscanner : c.scanner.Sound o.scanner) (hs : c.modbus.Sound o.modbus) :
    (c.next o .hearScanner).Running o := by
  simp only [next]
  split
  · exact h
  · rename_i e hget
    have hactive := hport.active hscanner hget
    cases e with
    | onNext n port =>
      have hw := Modbus.Discovery.Session.next_works (o := o.modbus) hactive port
      have hp := Modbus.Discovery.step_progress h.progress hs (e := .upstream (.next port)) trivial
      have hlog := Modbus.Discovery.step_log (o := o.modbus) c.modbus (.upstream (.next port))
      exact h.modbus_works (s := { c.modbus with arrived := c.modbus.arrived ++ [port] }) hlink rfl
        rfl rfl id h.finished h.ended hw hp hlog rfl rfl rfl rfl rfl
    | onCompleted =>
      have hw := Modbus.Discovery.Session.completed_works (o := o.modbus) hactive
      have hp := Modbus.Discovery.step_progress h.progress hs (e := .upstream .completed) trivial
      have hlog := Modbus.Discovery.step_log (o := o.modbus) c.modbus (.upstream .completed)
      exact h.modbus_works (s := { c.modbus with upstream := .ended, upstreamCompleted := true })
        hlink rfl rfl rfl (fun _ => by simp) (fun _ => rfl) (fun _ => .inr rfl) hw hp hlog
        rfl rfl rfl rfl rfl

/-- While the discovery has not failed, it takes every thing it is told of. -/
theorem Running.takes (h : c.Running o) (hlink : c.UpstreamLink) (hlife : c.Lifetime)
    (hs : c.sunspec.Settles o.sunspec) (hd : c.sunspec.Duties) (hm : c.modbus.Sound o.modbus)
    {thing : ModbusThing} (hget : c.modbus.log[c.told]? = some (.onNext thing))
    (hf : c.sunspec.state.failing = false) : c.sunspec.state.refuses = false := by
  refine Sunspec.Discovery.State.refuses_eq_false.2 ⟨?_, hf, ?_⟩
  · by_contra hstop
    rcases hlife.halts.halted (by simpa using hstop) with hf' | hstopping
    · exact absurd (hf'.symm.trans hf) (by decide)
    · exact absurd (hstopping.symm.trans h.stopping) (by decide)
  · by_contra hterminal
    rcases hd.ends (by simpa using hterminal) with hf' | hcompleted
    · exact absurd (hf'.symm.trans hf) (by decide)
    -- the upstream has completed, and tells of nothing any more
    · have hmem := hlink.heard (hlife.halts.done hs hcompleted).1
      have horder := hm.order.sublist (List.take_sublist (c.told + 1) c.modbus.log)
      rw [take_succ_of_getElem? hget] at horder
      have hfollows := (List.pairwise_append.1 horder).2.2 _ hmem _ (List.mem_singleton_self _)
      exact absurd (hfollows.1 rfl) (by simp)

/-- Every thing told of is opened, unless the discovery has failed. -/
theorem Running.hearModbus (h : c.Running o) (hlink : c.UpstreamLink) (hlife : c.Lifetime)
    (hs : c.sunspec.Settles o.sunspec) (hd : c.sunspec.Duties) (hm : c.modbus.Sound o.modbus)
    (ha : c.sunspec.actions = []) : (c.next o .hearModbus).Running o := by
  cases hget : c.modbus.log[c.told]? with
  | none =>
    have hnext : c.next o .hearModbus = c := by simp only [next, hget]
    rw [hnext]
    exact h
  | some e =>
    have hnext : c.next o .hearModbus = { c with told := c.told + 1 }.hearEffect o e := by
      simp only [next, hget]
    rw [hnext]
    have hrest : c.sunspec.AtRest := .inl ha
    have hthings := observedThings_take_succ hget
    cases e with
    | onNext thing =>
      have he : c.sunspec.Enabled (.upstreamCandidate thing) := ⟨hrest, hlink.subscribed⟩
      have heq : ({ c with told := c.told + 1 }.hearEffect o (.onNext thing)).sunspec =
          Sunspec.Discovery.step o.sunspec c.sunspec (.upstreamCandidate thing) :=
        hearEffect_thing h.alive.2 hlink.subscribed thing
      refine h.sunspec hlife hs hd he ⟨by simp, by simp⟩ (by simp) heq rfl rfl rfl rfl
        fun hf hnext => ?_
      have hopen := h.takes hlink hlife hs hd hm hget hf
      have haccepts : c.sunspec.state.Accepts thing := by
        by_contra hne
        have hfails := Sunspec.Discovery.State.openEndpoint_fails hopen hne
        rw [heq] at hnext
        exact absurd (hnext.symm.trans hfails) (by decide)
      rw [heq]
      show (Sunspec.Discovery.State.openEndpoint c.sunspec.state thing).1.opened =
        (observedThings (c.modbus.log.take (c.told + 1))).map target
      rw [Sunspec.Discovery.State.openEndpoint_opened haccepts, h.opened hf, hthings,
        List.map_append]
      rfl
    | onCompleted =>
      have he : c.sunspec.Enabled .upstreamCompleted := ⟨hrest, hlink.subscribed⟩
      have heq : ({ c with told := c.told + 1 }.hearEffect o .onCompleted).sunspec =
          Sunspec.Discovery.step o.sunspec c.sunspec .upstreamCompleted :=
        hearEffect_end h.alive.2 hlink.subscribed
      refine h.sunspec hlife hs hd he ⟨by simp, by simp⟩ (by simp) heq rfl rfl rfl rfl
        fun hf _ => ?_
      have hstate : (Sunspec.Discovery.step o.sunspec c.sunspec .upstreamCompleted).state =
          { c.sunspec.state with modbusCompleted := true } :=
        Sunspec.Discovery.State.maybeComplete_state _
      rw [heq, hstate]
      show c.sunspec.state.opened = (observedThings (c.modbus.log.take (c.told + 1))).map target
      rw [hthings]
      exact (h.opened hf).trans (congrArg _ (List.append_nil _).symm)
    | onError error => exact absurd (List.mem_of_getElem? hget) (hlink.unfailed error)
    | _ =>
      refine ⟨h.alive, h.stopping, h.progress, h.modbus, h.scanner, h.begun, fun hf => ?_,
        h.finished, h.ended⟩
      show c.sunspec.state.opened = (observedThings (c.modbus.log.take (c.told + 1))).map target
      rw [hthings]
      exact (h.opened hf).trans (congrArg _ (List.append_nil _).symm)

theorem Running.startsUpstream (h : c.Running o) (hm : c.modbus.Sound o.modbus) :
    ({ c with called := c.called + 1 }.obey o .upstreamStart).Running o := by
  by_cases hbegun : c.modbus.begun = true
  · have hsame : Modbus.Discovery.step o.modbus c.modbus .start = c.modbus := by
      rw [Modbus.Discovery.step, if_pos hbegun]
    exact h.same rfl hsame rfl rfl rfl rfl
  · have heq : Modbus.Discovery.step o.modbus c.modbus .start =
        { c.modbus with begun := true, tasks := c.modbus.tasks ++ [.begin] } := by
      rw [Modbus.Discovery.step, if_neg hbegun]
      rfl
    have hp := Modbus.Discovery.step_progress h.progress hm (e := .start) trivial
    refine ⟨h.alive, h.stopping, hp, fun hm => ?_, fun hs => ?_, fun _ => ?_, fun hf => ?_,
      fun hc => ?_, fun hu => ?_⟩
    · change (Modbus.Discovery.step o.modbus c.modbus .start).stopped = true ∨
        _ ∈ (Modbus.Discovery.step o.modbus c.modbus .start).tasks at hm
      rw [heq] at hm
      refine h.modbus (hm.imp_right fun hm => ?_)
      exact (List.mem_append.1 hm).resolve_right (by simp)
    · show (Modbus.Discovery.step o.modbus c.modbus .start).stopped = true
      rw [heq]
      exact h.scanner hs
    · left
      show _ ∈ (Modbus.Discovery.step o.modbus c.modbus .start).tasks
      rw [heq]
      exact List.mem_append_right _ (List.mem_singleton_self _)
    · show c.sunspec.state.opened = (observedThings
        ((Modbus.Discovery.step o.modbus c.modbus .start).log.take c.told)).map target
      rw [heq]
      exact h.opened hf
    · change (Modbus.Discovery.step o.modbus c.modbus .start).completed = true at hc
      show (Modbus.Discovery.step o.modbus c.modbus .start).upstreamCompleted = true
      rw [heq] at hc ⊢
      exact h.finished hc
    · change (Modbus.Discovery.step o.modbus c.modbus .start).upstreamCompleted = true at hu
      show (Modbus.Discovery.step o.modbus c.modbus .start).stopped = true ∨
        (Modbus.Discovery.step o.modbus c.modbus .start).upstream = .ended
      rw [heq] at hu ⊢
      exact h.ended hu

theorem Running.stopsUpstream (h : c.Running o) (hm : c.modbus.Sound o.modbus)
    (hmem : .upstreamStop ∈ c.sunspec.state.log) :
    ({ c with called := c.called + 1 }.obey o .upstreamStop).Running o := by
  obtain ⟨-, hupstream, hnoted, hbegun, hlog⟩ := stopModbus_keeps (o := o) c.modbus
  have hstopped : (stopModbus o c.modbus).stopped = c.modbus.stopped ∧
      (stopModbus o c.modbus).completed = c.modbus.completed := by
    unfold stopModbus Modbus.Discovery.step
    dsimp only
    split_ifs <;> exact ⟨rfl, rfl⟩
  have htasks : c.modbus.tasks <+: (stopModbus o c.modbus).tasks := by
    unfold stopModbus Modbus.Discovery.step
    dsimp only
    split_ifs
    · exact List.prefix_append _ _
    · exact List.prefix_rfl
    · exact List.prefix_rfl
  have hp : (stopModbus o c.modbus).Progress o.modbus := by
    rcases stopModbus_cases (o := o) c.modbus with heq | heq <;> rw [heq]
    · exact h.progress
    · exact Modbus.Discovery.step_progress h.progress hm (e := .requestStop) trivial
  refine ⟨h.alive, h.stopping, hp, fun _ => hmem,
    fun hs => hstopped.1.trans (h.scanner hs), fun hb => ?_, fun hf => ?_,
    fun hc => hnoted.trans (h.finished (hstopped.2.symm.trans hc)), fun hu => ?_⟩
  · rcases h.begun (hbegun.symm.trans hb) with hb | hs | hu
    · exact .inl (htasks.subset hb)
    · exact .inr (.inl (hstopped.1.trans hs))
    · exact .inr (.inr fun hidle => hu (hupstream.symm.trans hidle))
  · show c.sunspec.state.opened =
      (observedThings ((stopModbus o c.modbus).log.take c.told)).map target
    rw [hlog]
    exact h.opened hf
  · exact (h.ended (hnoted.symm.trans hu)).imp hstopped.1.trans hupstream.trans

/-- The SunSpec discovery starts or stops its upstream, or tells its observer. -/
theorem Running.hearSunspec (h : c.Running o) (hm : c.modbus.Sound o.modbus)
    (hlt : c.called < c.sunspec.state.log.length) : (c.next o .hearSunspec).Running o := by
  cases hget : c.sunspec.state.log[c.called]? with
  | none => exact absurd hlt (not_lt.2 (List.getElem?_eq_none_iff.1 hget))
  | some e =>
    have hnext : c.next o .hearSunspec = { c with called := c.called + 1 }.obey o e := by
      simp only [next, hget]
    rw [hnext]
    cases e with
    | upstreamStart => exact h.startsUpstream hm
    | upstreamStop => exact h.stopsUpstream hm (List.mem_of_getElem? hget)
    | _ => exact h.same rfl rfl rfl rfl rfl rfl

theorem reachable_running (hc : (machine o).Reachable c) (hheld : c.held = true) :
    c.Running o := by
  revert hheld
  refine hc.keeps (P := fun c => c.held = true → c.Running o) (fun c hc _ => ?_)
    fun c e hc ih he hheld => ?_
  · obtain rfl : c = create o := hc
    exact ⟨⟨rfl, rfl⟩, rfl, .init, by rintro (⟨⟨⟩⟩ | ⟨⟨⟩⟩), by rintro (⟨⟨⟩⟩ | ⟨⟨⟩⟩), by rintro ⟨⟩,
      fun _ => rfl, by rintro ⟨⟩, by rintro ⟨⟩⟩
  have h := ih (held_of_next hheld)
  have hport := reachable_portLink hc
  have hlink := reachable_upstreamLink hc
  have hlife := reachable_lifetime hc
  have hscanner := (sees_scanner o).invariant PortScannerSession.machine_sound hc
  have hmodbus := (sees_modbus o).invariant (Modbus.Discovery.machine_sound o.modbus) hc
  obtain ⟨hs, hd⟩ := (sees_sunspec o).invariant (Sunspec.Discovery.machine_duties o.sunspec) hc
  cases e with
  | sunspec e =>
    have hown := he.2.1
    have hne (d : Sunspec.Discovery.Event) (hd : ¬OwnEvent d) : e ≠ d := fun heq => hd (heq ▸ hown)
    refine h.sunspec hlife hs hd he.2.2.1 ⟨hne _ id, hne _ id⟩ (hne _ id) rfl rfl rfl rfl rfl
      fun hf _ => ?_
    have hopened : (Sunspec.Discovery.step o.sunspec c.sunspec e).state.opened =
        c.sunspec.state.opened := by
      rcases Sunspec.Discovery.step_opened hs he.2.2.1 with ⟨heq, -⟩ | ⟨candidate, rfl, -, -⟩
      · exact heq
      · exact absurd rfl (hne (.upstreamCandidate candidate) id)
    exact hopened.trans (h.opened hf)
  | runModbus created => exact h.runModbus hlink hmodbus he.2 created
  | exchangeFinished n response =>
    have hw := Modbus.Discovery.Session.exchange_works (o := o.modbus) c.modbus n response
    have hp := Modbus.Discovery.step_progress h.progress hmodbus
      (e := .exchangeFinished n response) trivial
    have hlog := Modbus.Discovery.step_log (o := o.modbus) c.modbus (.exchangeFinished n response)
    exact h.modbus_works (s := c.modbus) hlink rfl rfl rfl id h.finished h.ended hw hp hlog rfl rfl
      rfl rfl rfl
  | runScanner created => exact h.scans (e := .run created) (by simp) rfl rfl rfl rfl rfl rfl
  | connection n isOpen => exact h.scans (e := .report n isOpen) (by simp) rfl rfl rfl rfl rfl rfl
  | hearScanner => exact h.hearScanner hport hlink hscanner hmodbus
  | hearModbus => exact h.hearModbus hlink hlife hs hd hmodbus he.1
  | hearSunspec => exact h.hearSunspec hmodbus he
  | stopSunspecChain => cases hheld
  | queueInLoop => exact absurd (he.2.1.symm.trans hheld) (by decide)
  | destroy => exact absurd (h.alive.1.symm.trans he.2) (by simp)

end Neubau.Bootstrap.Chain
