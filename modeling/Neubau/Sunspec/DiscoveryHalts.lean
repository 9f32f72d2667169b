import Neubau.Sunspec.DiscoveryDuties

/-! Why a discovery stops its upstream. Once it has started, it enters the loop no
more; its run stops by a failure or by `stop()`, and only a run that stops calls
`stop()` of the upstream. -/

namespace Neubau.Sunspec.Discovery

open Neubau.Common Neubau.Modbus Neubau.Transition

variable {o : SunspecDiscoveryOptions} {p : Process}

namespace State

variable {d t : State} {r : Result}

/-- A function tells one thing at most, and stops the run only by a failure. -/
structure Minds (d : State) (r : Result) : Prop where
  log : r.1.log = d.log ∨ ∃ f, r.1.log = d.log ++ [f] ∧ f ≠ .entered ∧
    (f = .upstreamStop → d.runStopping = true)
  stopping : r.1.stopping = d.stopping
  halts : r.1.runStopping = true → d.runStopping = true ∨ r.1.failing = true
  asks : .stopUpstream ∈ r.2 → r.1.runStopping = true

/-- Only the log and the flags of the stop matter. -/
theorem Minds.of_eq (hlog : r.1.log = d.log) (hstopping : r.1.stopping = d.stopping)
    (hhalts : r.1.runStopping = d.runStopping) (hasks : .stopUpstream ∉ r.2) : Minds d r :=
  ⟨.inl hlog, hstopping, fun h => .inl (hhalts.symm.trans h), fun h => absurd h hasks⟩

theorem Minds.tell (hf : r.1.log = d.log ++ [f]) (hne : f ≠ .entered ∧ f ≠ .upstreamStop)
    (hstopping : r.1.stopping = d.stopping) (hhalts : r.1.runStopping = d.runStopping)
    (hasks : .stopUpstream ∉ r.2) : Minds d r :=
  ⟨.inr ⟨f, hf, hne.1, fun h => absurd h hne.2⟩, hstopping, fun h => .inl (hhalts.symm.trans h),
    fun h => absurd h hasks⟩

theorem complete_minds (d : State) : Minds d d.complete := by
  unfold complete
  split <;> exact .of_eq rfl rfl rfl (by simp)

theorem maybeComplete_minds (d : State) : Minds d d.maybeComplete := by
  unfold maybeComplete
  split
  · exact .of_eq rfl rfl rfl (by simp)
  · split
    · exact complete_minds d
    · exact .of_eq rfl rfl rfl (by simp)

theorem fail_minds (d : State) (error : Exception) : Minds d (d.fail error) := by
  unfold fail
  split
  · exact .of_eq rfl rfl rfl (by simp)
  · exact ⟨.inr ⟨.failing error, rfl, nofun, nofun⟩, rfl, fun _ => .inr rfl, fun _ => rfl⟩

theorem candidate_minds (d : State) (i : ℕ) (thing : SunspecThing) :
    Minds d (d.candidate i thing) := by
  unfold candidate
  split
  · exact .of_eq rfl rfl rfl (by simp)
  split
  · exact .of_eq rfl rfl rfl (by simp)
  · exact .tell rfl ⟨nofun, nofun⟩ rfl rfl (by simp)

theorem scannerCompleted_minds (d : State) (i : ℕ) : Minds d (d.scannerCompleted i) := by
  unfold scannerCompleted
  split
  · exact .of_eq rfl rfl rfl (by simp)
  split <;> exact .of_eq rfl rfl rfl (by simp)

theorem scannerFailed_minds (d : State) (i : ℕ) (error : Exception) :
    Minds d (d.scannerFailed i error) := by
  unfold scannerFailed
  split
  · exact scannerCompleted_minds d i
  · exact fail_minds d error

theorem told_not_stopUpstream (scan : ScanState) (i : ℕ) : .stopUpstream ∉ told i scan := by
  intro h
  obtain ⟨f, -, hf⟩ := List.mem_filterMap.1 h
  cases f <;> cases hf

theorem callScan_minds (d : State) (i : ℕ) (call : ScanCall) : Minds d (d.callScan o i call) := by
  cases hi : d.endpoints[i]? with
  | none =>
    rw [callScan_none hi]
    exact .of_eq rfl rfl rfl (by simp)
  | some e =>
    have hnew : .stopUpstream ∉ d.toldBy o i e call := fun h =>
      told_not_stopUpstream _ i (List.mem_of_mem_drop h)
    rw [callScan_some hi]
    split <;> exact .of_eq rfl rfl rfl hnew

theorem openEndpoint_minds (d : State) (candidate : ModbusThing) :
    Minds d (d.openEndpoint candidate) := by
  unfold openEndpoint
  split
  · exact .of_eq rfl rfl rfl (by simp)
  split
  · exact fail_minds d _
  · exact .of_eq rfl rfl rfl (by simp)

/-- The `stop()` of the upstream is called by a run that stops. -/
theorem run_minds (d : State) (reads : List ℕ) (action : Action)
    (hstops : action = .stopUpstream → d.runStopping = true) :
    Minds d (d.run o reads action) := by
  cases action with
  | outside code => cases code <;> exact .of_eq rfl rfl rfl (by simp [run])
  | cancel i => exact callScan_minds d i .cancel
  | readFails i read => exact callScan_minds d i (.failure read)
  | candidate i thing => exact candidate_minds d i thing
  | scannerFailed i error => exact scannerFailed_minds d i error
  | scannerCompleted i => exact scannerCompleted_minds d i
  | scannerClosed =>
    rw [run]
    split
    · exact .of_eq rfl rfl rfl (by simp)
    · exact maybeComplete_minds d
  | closeSessions i sessions =>
    cases sessions with
    | nil => exact .of_eq rfl rfl rfl (by simp [run])
    | cons session sessions =>
      rw [run]
      split <;> exact .of_eq rfl rfl rfl (by simp)
  | cancelEndpoints i =>
    rw [run]
    split
    · exact .of_eq rfl rfl rfl (by simp)
    · split <;> exact .of_eq rfl rfl rfl (by simp)
  | closeEndpoints i =>
    rw [run]
    split <;> exact .of_eq rfl rfl rfl (by simp)
  | startUpstream => exact .tell rfl ⟨by simp, by simp⟩ rfl rfl (by simp [run])
  | stopUpstream =>
    exact ⟨.inr ⟨_, rfl, by simp, fun _ => hstops rfl⟩, rfl, .inl, fun h => by simp [run] at h⟩
  | finishComplete => exact .tell rfl ⟨by simp, by simp⟩ rfl rfl (by simp [run])
  | finishFail error => exact .tell rfl ⟨by simp, by simp⟩ rfl rfl (by simp [run])
  | releaseResources => exact .of_eq rfl rfl rfl (by simp [run])

end State

open State (Minds)

/-- A discovery that has entered the loop once, with the reasons of its stop. -/
structure Process.Halts (p : Process) : Prop where
  entered : ∃ rest, p.state.log = .entered :: rest ∧ .entered ∉ rest
  halted : p.state.runStopping = true → p.state.failing = true ∨ p.state.stopping = true
  asked : .upstreamStop ∈ p.state.log ∨ .stopUpstream ∈ p.actions → p.state.runStopping = true

/-- A function goes on. -/
theorem Process.Halts.go (h : p.Halts) {r : State.Result} {rest : List Action}
    (hr : Minds p.state r) (hl : State.Lasting p.state r.1) (hrest : rest ⊆ p.actions) :
    Process.Halts ⟨r.1, r.2 ++ rest⟩ where
  entered := by
    obtain ⟨before, hlog, hnot⟩ := h.entered
    rcases hr.log with heq | ⟨f, heq, hne, -⟩
    · exact ⟨before, heq.trans hlog, hnot⟩
    · refine ⟨before ++ [f], by rw [heq, hlog, List.cons_append], fun hmem => ?_⟩
      rcases List.mem_append.1 hmem with hmem | hmem
      · exact hnot hmem
      · exact hne (List.mem_singleton.1 hmem).symm
  halted hs := by
    rcases hr.halts hs with hs | hf
    · refine (h.halted hs).imp hl.failing fun hstop => ?_
      exact hr.stopping.trans hstop
    · exact .inl hf
  asked hmem := by
    rcases hmem with hmem | hmem
    · rcases hr.log with heq | ⟨f, heq, -, hf⟩
      · exact hl.runStopping (h.asked (.inl (heq ▸ hmem)))
      · rw [heq] at hmem
        rcases List.mem_append.1 hmem with hmem | hmem
        · exact hl.runStopping (h.asked (.inl hmem))
        · exact hl.runStopping (hf (List.mem_singleton.1 hmem).symm)
    · rcases List.mem_append.1 hmem with hmem | hmem
      · exact hr.asks hmem
      · exact hl.runStopping (h.asked (.inr (hrest hmem)))

/-- `stop()` on the loop, of a run that listens: it stops, or had done so before. -/
theorem State.stop_running {d : State} (hs : d.Logged) (hstarted : d.started = true)
    (hlooping : d.looping = true) (hsub : d.subscribed = true) :
    d.stop.1.refuses = true ∧ (d.stop = (d, []) ∨
      d.stop = (({ d with stopping := true } : State).tell .stopped, []) ∨
      d.stop = ({ ({ d with stopping := true } : State).tell .stopped with runStopping := true },
        cancelAndCloseEndpoints ++ [.stopUpstream])) := by
  unfold State.stop
  split_ifs with h h'
  · refine ⟨?_, .inl rfl⟩
    rw [hstarted, Bool.not_true, Bool.false_or, Bool.or_eq_true] at h
    rcases h with ht | hstop
    · simp [refuses, ht]
    · have hstopped := (hs.stopped (hs.stops hstop)).2
      exact hstopped.resolve_right (by simp [hsub])
  · simp [hlooping] at h'
  · simp [hlooping] at h'
  · unfold stopInLoop
    split_ifs with hr
    · exact ⟨hr, .inr (.inl rfl)⟩
    · exact ⟨by simp [refuses], .inr (.inr rfl)⟩

theorem Process.Halts.stop (h : p.Halts) (hs : p.state.Logged) (hstarted : p.state.started = true)
    (hlooping : p.state.looping = true) (hsub : p.state.subscribed = true) :
    (step o p .stop).Halts := by
  obtain ⟨before, hlog, hnot⟩ := h.entered
  have hentered : ∃ rest, p.state.log ++ [.stopped] = .entered :: rest ∧ .entered ∉ rest :=
    ⟨before ++ [.stopped], by rw [hlog, List.cons_append], by simpa using hnot⟩
  rw [step, Process.enter]
  rcases (State.stop_running hs hstarted hlooping hsub).2 with heq | heq | heq <;> rw [heq]
  · exact ⟨h.entered, h.halted, h.asked⟩
  · refine ⟨hentered, fun _ => .inr rfl, fun hmem => h.asked (hmem.imp_left fun hm => ?_)⟩
    simpa [State.tell] using hm
  · exact ⟨hentered, fun _ => .inr rfl, fun _ => rfl⟩

/-- What happens to a discovery that was started keeps the reasons of its stop. -/
theorem step_halts (hs : p.Settles o) (h : p.Halts) {e : Event} (he : p.Enabled e)
    (hstart : e ≠ .start ∧ e ≠ .startInLoop) (hstarted : p.state.started = true)
    (hlooping : p.state.looping = true) (hsub : p.state.subscribed = true) :
    (step o p e).Halts := by
  have hl := (step_settles hs he).2.toLasting
  cases e with
  | run reads =>
    obtain ⟨action, rest, hactions⟩ := List.exists_cons_of_ne_nil he
    rw [step_run hactions] at hl ⊢
    refine h.go (State.run_minds p.state reads action ?_) hl ?_
    · rintro rfl
      exact h.asked (.inr (by rw [hactions]; exact List.mem_cons_self))
    · rw [hactions]
      exact List.subset_cons_self _ _
  | throws error => exact h.go (State.fail_minds _ error) hl (List.tail_subset _)
  | start => exact absurd rfl hstart.1
  | stop => exact h.stop hs.sound.logged hstarted hlooping hsub
  | loopRuns => exact ⟨h.entered, h.halted, h.asked⟩
  | startInLoop => exact absurd rfl hstart.2
  | upstreamCandidate candidate =>
    exact h.go (State.openEndpoint_minds _ candidate) hl (List.Subset.refl _)
  | upstreamFailed error => exact h.go (State.fail_minds _ error) hl (List.Subset.refl _)
  | upstreamCompleted =>
    have hnoted : Process.Halts ⟨{ p.state with modbusCompleted := true }, p.actions⟩ :=
      ⟨h.entered, h.halted, h.asked⟩
    refine hnoted.go (State.maybeComplete_minds _) ?_ (List.Subset.refl _)
    rw [State.upstreamCompleted, State.maybeComplete_state]
    exact ⟨id, id, id, id⟩
  | scan i call => exact h.go (State.callScan_minds _ i call) hl (List.Subset.refl _)
  | sessionClosed session =>
    exact h.go (r := (p.state.close session, [])) (.of_eq rfl rfl rfl (by simp)) hl
      (List.Subset.refl _)

/-- Only `stop()` makes a discovery that was started one that is stopping. -/
theorem step_stopping (h : p.Halts) {e : Event} (hstart : e ≠ .start ∧ e ≠ .startInLoop)
    (hstop : e ≠ .stop) : (step o p e).state.stopping = p.state.stopping := by
  cases e with
  | run reads =>
    cases hactions : p.actions with
    | nil => rw [step, hactions]
    | cons action rest =>
      rw [step_run hactions]
      refine (State.run_minds p.state reads action ?_).stopping
      rintro rfl
      exact h.asked (.inr (by rw [hactions]; exact List.mem_cons_self))
  | throws error => exact (State.fail_minds _ error).stopping
  | start => exact absurd rfl hstart.1
  | stop => exact absurd rfl hstop
  | loopRuns => rfl
  | startInLoop => exact absurd rfl hstart.2
  | upstreamCandidate candidate => exact (State.openEndpoint_minds _ candidate).stopping
  | upstreamFailed error => exact (State.fail_minds _ error).stopping
  | upstreamCompleted => exact (State.maybeComplete_minds _).stopping
  | scan i call => exact (State.callScan_minds _ i call).stopping
  | sessionClosed session => rfl

/-- A run that was not stopped before it entered the loop completes with its upstream and
its endpoints. -/
theorem Process.Halts.done (h : p.Halts) (hs : p.Settles o)
    (hcompleted : .onCompleted ∈ p.state.log) : p.state.Done := by
  refine (hs.sound.logged.completed hcompleted).resolve_right ?_
  rintro ⟨before, after, hlog, hstopped⟩
  obtain ⟨rest, heq, hnot⟩ := h.entered
  rw [heq] at hlog
  cases before with
  | nil => cases hstopped
  | cons e before =>
    rw [List.cons_append, List.cons.injEq] at hlog
    exact hnot (hlog.2 ▸ List.mem_append_right _ List.mem_cons_self)

end Neubau.Sunspec.Discovery
