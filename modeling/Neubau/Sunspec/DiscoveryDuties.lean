import Neubau.Sunspec.DiscoveryEndpoints

/-! What a discovery still owes. The end of a scan is taken into account, or the call
that reports it is left to be done; a failure ends the discovery or is about to; and a
run that stops has stopped its upstream or is about to. So a discovery with nothing
left to be done and no scan that waits has ended once its upstream has completed. -/

namespace Neubau.Sunspec.Discovery

open Neubau.Common Neubau.Modbus Neubau.Transition

variable {o : SunspecDiscoveryOptions} {p q : Process}

/-- The action reports the end of the scan of the endpoint `i`. -/
def Action.Reports (i : ℕ) : Action → Prop
  | .scannerCompleted j => j = i
  | .scannerFailed j _ => j = i
  | _ => False

theorem Report.reports {i : ℕ} {calls : List Action} (h : Report i calls) :
    ∃ a ∈ calls, a.Reports i := by
  cases h with
  | completed => exact ⟨_, List.mem_singleton_self _, rfl⟩
  | failed error => exact ⟨_, List.mem_singleton_self _, rfl⟩
  | emitted thing => exact ⟨_, List.mem_cons_of_mem _ (List.mem_singleton_self _), rfl⟩

theorem Report.not_finishFail {i : ℕ} {calls : List Action} (h : Report i calls)
    (error : Exception) : .finishFail error ∉ calls := by
  cases h <;> simp

namespace State

variable {d t : State} {r : Result}

/-- What a function may change, and what it must leave to be done when it does. -/
structure Onward (d : State) (r : Result) : Prop where
  log : d.log <+: r.1.log
  started : d.started = true → r.1.started = true
  looping : r.1.looping = d.looping
  subscribed : d.subscribed = true → r.1.subscribed = true
  modbusCompleted : r.1.modbusCompleted = d.modbusCompleted
  scans : ∀ (i : ℕ) f, r.1.endpoints[i]? = some f → f.scan.finished = true →
    (∃ e, d.endpoints[i]? = some e ∧ e.scan.finished = true) ∨ ∃ a ∈ r.2, a.Reports i
  failing : r.1.failing = true → d.failing = true ∨ ∃ error, .finishFail error ∈ r.2
  fails : ∀ error, .finishFail error ∈ r.2 → r.1.failing = true
  stops : r.1.runStopping = true → d.runStopping = true ∨ .stopUpstream ∈ r.2
  ends : r.1.terminal = true → d.terminal = true ∨ d.failing = true ∨ .onCompleted ∈ r.1.log

/-- Only what scans have finished, the flags and the log matter. -/
theorem Onward.of_eq (hlog : r.1.log = d.log) (hstarted : r.1.started = d.started)
    (hlooping : r.1.looping = d.looping) (hsubscribed : r.1.subscribed = d.subscribed)
    (hmodbus : r.1.modbusCompleted = d.modbusCompleted)
    (hscans : r.1.endpoints.map (·.scan) = d.endpoints.map (·.scan))
    (hfailing : r.1.failing = d.failing) (hfails : ∀ error, .finishFail error ∉ r.2)
    (hstops : r.1.runStopping = d.runStopping) (hends : r.1.terminal = d.terminal) :
    Onward d r where
  log := by rw [hlog]
  started h := hstarted.trans h
  looping := hlooping
  subscribed h := hsubscribed.trans h
  modbusCompleted := hmodbus
  scans i f hf hfinished := by
    have hi : (d.endpoints.map (·.scan))[i]? = some f.scan := by
      rw [← hscans, List.getElem?_map, hf, Option.map_some]
    rw [List.getElem?_map, Option.map_eq_some_iff] at hi
    obtain ⟨e, he, heq⟩ := hi
    exact .inl ⟨e, he, heq ▸ hfinished⟩
  failing h := .inl (hfailing.symm.trans h)
  fails error he := absurd he (hfails error)
  stops h := .inl (hstops.symm.trans h)
  ends h := .inl (hends.symm.trans h)

theorem Onward.same (d : State) {a : List Action}
    (hfails : ∀ error, .finishFail error ∉ a) : Onward d (d, a) :=
  .of_eq rfl rfl rfl rfl rfl rfl rfl hfails rfl rfl

/-- A function that first changes the state, and leaves the rest to another. -/
theorem Onward.after (h : Onward d (t, [])) (h' : Onward t r) : Onward d r where
  log := h.log.trans h'.log
  started hd := h'.started (h.started hd)
  looping := h'.looping.trans h.looping
  subscribed hd := h'.subscribed (h.subscribed hd)
  modbusCompleted := h'.modbusCompleted.trans h.modbusCompleted
  scans i f hf hfinished := by
    rcases h'.scans i f hf hfinished with ⟨e, he, hfin⟩ | hreport
    · exact (h.scans i e he hfin).imp_right fun ⟨a, ha, _⟩ => absurd ha List.not_mem_nil
    · exact .inr hreport
  failing hr := by
    rcases h'.failing hr with ht | hleft
    · exact (h.failing ht).imp_right fun ⟨_, ha⟩ => absurd ha List.not_mem_nil
    · exact .inr hleft
  fails := h'.fails
  stops hr := by
    rcases h'.stops hr with ht | hleft
    · exact (h.stops ht).imp_right fun ha => absurd ha List.not_mem_nil
    · exact .inr hleft
  ends hr := by
    rcases h'.ends hr with ht | ht | ht
    · exact (h.ends ht).imp_right (Or.imp_right fun hmem => h'.log.subset hmem)
    · refine (h.failing ht).elim (fun hf => .inr (.inl hf)) fun ⟨_, ha⟩ => absurd ha List.not_mem_nil
    · exact .inr (.inr ht)

theorem update_scans {i : ℕ} {e f : EndpointScan} (he : d.endpoints[i]? = some e)
    (hf : f.scan = e.scan) : (d.update i f).endpoints.map (·.scan) = d.endpoints.map (·.scan) := by
  obtain ⟨hlt, rfl⟩ := List.getElem?_eq_some_iff.1 he
  rw [update, List.map_set, hf]
  have hself := List.set_getElem_self (show i < (d.endpoints.map (·.scan)).length by simpa using hlt)
  rwa [List.getElem_map] at hself

/-! ### The functions -/

theorem complete_onward (d : State) : Onward d d.complete := by
  unfold complete
  split
  · exact .same d nofun
  · exact .same d (by simp)

theorem maybeComplete_onward (d : State) : Onward d d.maybeComplete := by
  unfold maybeComplete
  split
  · exact .same d nofun
  · split
    · exact complete_onward d
    · exact .same d nofun

theorem fail_onward (d : State) (error : Exception) : Onward d (d.fail error) := by
  unfold fail
  split
  · exact .same d nofun
  · exact {
      log := List.prefix_append _ _
      started := id
      looping := rfl
      subscribed := id
      modbusCompleted := rfl
      scans := fun i f hf hfinished => .inl ⟨f, hf, hfinished⟩
      failing := fun _ => .inr ⟨error, by simp⟩
      fails := fun _ _ => rfl
      stops := fun _ => .inr (by simp)
      ends := .inl }

theorem stopInLoop_onward (d : State) : Onward d d.stopInLoop := by
  unfold stopInLoop
  split
  · exact .same d nofun
  · exact {
      log := List.prefix_rfl
      started := id
      looping := rfl
      subscribed := id
      modbusCompleted := rfl
      scans := fun i f hf hfinished => .inl ⟨f, hf, hfinished⟩
      failing := .inl
      fails := fun error he => by simp [cancelAndCloseEndpoints] at he
      stops := fun _ => .inr (by simp)
      ends := .inl }

theorem tell_onward (d : State) {f : Effect} {a : List Action}
    (hfails : ∀ error, .finishFail error ∉ a) : Onward d (d.tell f, a) where
  log := List.prefix_append _ _
  started := id
  looping := rfl
  subscribed := id
  modbusCompleted := rfl
  scans _ e he hfinished := .inl ⟨e, he, hfinished⟩
  failing := .inl
  fails error he := absurd he (hfails error)
  stops := .inl
  ends := .inl

theorem openEndpoint_onward (d : State) (candidate : ModbusThing) :
    Onward d (d.openEndpoint candidate) := by
  unfold openEndpoint
  split
  · exact .same d nofun
  split
  · exact fail_onward d _
  · refine { Onward.same d (a := []) nofun with
      scans := fun _ f hf hfinished => ?_, ends := .inl }
    rcases getElem?_concat_eq_some.1 hf with hi | ⟨-, rfl⟩
    · exact .inl ⟨f, hi, hfinished⟩
    · cases hfinished

theorem candidate_onward (d : State) (i : ℕ) (thing : SunspecThing) :
    Onward d (d.candidate i thing) := by
  unfold candidate
  split
  · exact .same d nofun
  rename_i e he
  split
  · exact .same d nofun
  · exact Onward.after (t := d.update i { e with emitted := true })
      (.of_eq rfl rfl rfl rfl rfl (update_scans he rfl) rfl nofun rfl rfl) (tell_onward _ (by simp))

theorem scannerCompleted_onward (d : State) (i : ℕ) : Onward d (d.scannerCompleted i) := by
  unfold scannerCompleted
  split
  · exact .same d nofun
  rename_i e he
  split
  · exact .same d nofun
  · exact .of_eq rfl rfl rfl rfl rfl (update_scans he rfl) rfl (by simp) rfl rfl

theorem scannerFailed_onward (d : State) (i : ℕ) (error : Exception) :
    Onward d (d.scannerFailed i error) := by
  unfold scannerFailed
  split
  · exact scannerCompleted_onward d i
  · exact fail_onward d error

theorem startInLoop_onward (d : State) : Onward d d.startInLoop := by
  have hentered : Onward d ({ d with loopEntered := true }.tell .entered, []) :=
    Onward.after (t := { d with loopEntered := true })
      (.of_eq rfl rfl rfl rfl rfl rfl rfl nofun rfl rfl) (tell_onward _ nofun)
  unfold startInLoop
  dsimp only
  split
  · exact hentered.after (complete_onward _)
  · refine hentered.after ?_
    exact { Onward.same _ (a := [.outside .subscribing]) (by simp) with
      subscribed := fun _ => rfl
      ends := .inl }

theorem start_onward (d : State) : Onward d d.start := by
  unfold start
  split
  · exact .same d nofun
  have hstarted : Onward d ({ d with started := true }, []) :=
    { Onward.same d (a := []) nofun with started := fun _ => rfl, ends := .inl }
  dsimp only
  split
  · exact hstarted.after (startInLoop_onward _)
  · exact hstarted.after (.of_eq rfl rfl rfl rfl rfl rfl rfl nofun rfl rfl)

theorem stop_onward (d : State) : Onward d d.stop := by
  have hstopping : Onward d ({ d with stopping := true }.tell .stopped, []) :=
    Onward.after (t := { d with stopping := true })
      (.of_eq rfl rfl rfl rfl rfl rfl rfl nofun rfl rfl) (tell_onward _ nofun)
  unfold stop
  split
  · exact .same d nofun
  split
  · split
    · exact hstopping
    · exact .same d nofun
  · exact hstopping.after (stopInLoop_onward _)

theorem close_onward (d : State) (session : ℕ) : Onward d (d.close session, []) :=
  .of_eq rfl rfl rfl rfl rfl rfl rfl nofun rfl rfl

/-- A callback of a scan tells nothing, unless the scan comes to its end and reports it. -/
theorem toldBy_cases {e : EndpointScan} (h : ScanState.Phase (e.config o) e.scan) (i : ℕ)
    (call : ScanCall) :
    ((d.afterCall o e call).finished = true → e.scan.finished = true) ∧ d.toldBy o i e call = [] ∨
      Report i (d.toldBy o i e call) := by
  have hstep := h.step (call.event (d.answers e))
  rcases told_step h (call.event (d.answers e)) i with hnil | ⟨-, -, hreport⟩
  · cases hf : e.scan.finished with
    | true => exact .inl ⟨fun _ => rfl, hnil⟩
    | false =>
      cases ht : (d.afterCall o e call).finished with
      | false => exact .inl ⟨fun ht' => ht', hnil⟩
      | true =>
        right
        rw [toldBy, told_unfinished h hf, List.length_nil, List.drop_zero]
        exact told_over (hstep.over ht) i
  · exact .inr hreport

/-- A scan that ends in a callback reports its end. -/
theorem callScan_onward (h : Sound o d) (i : ℕ) (call : ScanCall) :
    Onward d (d.callScan o i call) := by
  cases hi : d.endpoints[i]? with
  | none =>
    rw [callScan_none hi]
    exact .same d nofun
  | some e =>
    have htold := toldBy_cases (d := d) (h.fits e (List.mem_of_getElem? hi)).phase i call
    have hfails : ∀ error, .finishFail error ∉ d.toldBy o i e call := by
      intro error
      rcases htold with ⟨-, hnil⟩ | hreport
      · rw [hnil]
        exact List.not_mem_nil
      · exact hreport.not_finishFail error
    -- the endpoint with its scan behind the callback, in a state that is else the same
    have hscans (f : EndpointScan) (hf : f.scan = d.afterCall o e call) (j : ℕ) (g : EndpointScan)
        (hg : (d.endpoints.set i f)[j]? = some g) (hfinished : g.scan.finished = true) :
        (∃ e, d.endpoints[j]? = some e ∧ e.scan.finished = true) ∨
          ∃ a ∈ d.toldBy o i e call, a.Reports j := by
      rw [List.getElem?_set] at hg
      split_ifs at hg with hij hlt
      · obtain rfl := Option.some.inj hg
        subst hij
        rcases htold with ⟨hold, -⟩ | hreport
        · exact .inl ⟨e, hi, hold (hf ▸ hfinished)⟩
        · exact .inr hreport.reports
      · exact .inl ⟨g, hg, hfinished⟩
    rw [callScan_some hi]
    split
    · exact { Onward.same d hfails with scans := hscans _ rfl, ends := .inl }
    · exact { Onward.same d hfails with scans := hscans _ rfl, ends := .inl }

/-- An action that ends in a failure is there because of one. -/
theorem run_onward (h : Sound o d) (reads : List ℕ) (action : Action)
    (hfails : ∀ error, action = .finishFail error → d.failing = true) :
    Onward d (d.run o reads action) := by
  cases action with
  | outside code => cases code <;> exact .same d (by simp)
  | cancel i => exact callScan_onward h i .cancel
  | readFails i read => exact callScan_onward h i (.failure read)
  | candidate i thing => exact candidate_onward d i thing
  | scannerFailed i error => exact scannerFailed_onward d i error
  | scannerCompleted i => exact scannerCompleted_onward d i
  | scannerClosed =>
    rw [run]
    split
    · exact .same d (by simp)
    · exact maybeComplete_onward d
  | closeSessions i sessions =>
    cases sessions with
    | nil => exact .same d (by simp)
    | cons session sessions =>
      rw [run]
      split
      · exact .same d (by simp)
      · exact .of_eq rfl rfl rfl rfl rfl rfl rfl (by simp) rfl rfl
  | cancelEndpoints i =>
    rw [run]
    split
    · exact .same d (by simp)
    · split <;> exact .same d (by simp)
  | closeEndpoints i =>
    rw [run]
    split
    · exact .same d (by simp)
    · exact .same d (by simp)
  | startUpstream => exact tell_onward d (by simp)
  | stopUpstream => exact tell_onward d (by simp)
  | finishComplete =>
    exact { tell_onward d (f := .onCompleted) (a := [.outside .observer, .releaseResources])
        (by simp) with
      ends := fun _ => .inr (.inr (by simp [run, tell])) }
  | finishFail error =>
    exact { tell_onward d (f := .onError error) (a := [.outside .observer, .releaseResources])
        (by simp) with
      ends := fun _ => .inr (.inl (hfails error rfl)) }
  | releaseResources =>
    refine .of_eq rfl rfl rfl rfl rfl ?_ rfl (fun _ => List.not_mem_nil) rfl rfl
    rw [run, releaseResources, List.map_map]
    rfl

end State

/-! ### Every run -/

open State (Onward Later)

/-- What a discovery owes. -/
structure Process.Duties (p : Process) : Prop where
  reported : ∀ (i : ℕ) e, p.state.endpoints[i]? = some e → e.scan.finished = true →
    e.completed = true ∨ p.state.failing = true ∨ p.state.terminal = true ∨
      ∃ a ∈ p.actions, a.Reports i
  failing : p.state.failing = true →
    p.state.terminal = true ∨ ∃ error, .finishFail error ∈ p.actions
  fails : ∀ error, .finishFail error ∈ p.actions → p.state.failing = true
  stops : p.state.runStopping = true →
    .upstreamStop ∈ p.state.log ∨ .stopUpstream ∈ p.actions
  ends : p.state.terminal = true → p.state.failing = true ∨ .onCompleted ∈ p.state.log

/-- The duty of an action is done in the state `t`. -/
def Action.Done (t : State) : Action → Prop
  | .scannerCompleted i | .scannerFailed i _ => ∀ f, t.endpoints[i]? = some f →
      f.completed = true ∨ t.failing = true ∨ t.terminal = true
  | .finishFail _ => t.terminal = true
  | .stopUpstream => .upstreamStop ∈ t.log
  | _ => True

/-- A function goes on; what it was called for is left to be done or is done, and it
adds what it leaves itself. -/
theorem Process.Duties.go (h : p.Duties) {r : State.Result} {rest : List Action}
    (hr : Onward p.state r) (hl : Later o p.state r.1)
    (hactions : ∀ a ∈ p.actions, a ∈ rest ∨ a.Done r.1) (hrest : rest ⊆ p.actions) :
    Process.Duties ⟨r.1, r.2 ++ rest⟩ where
  reported i f hf hfinished := by
    rcases hr.scans i f hf hfinished with ⟨e, he, hfin⟩ | ⟨a, ha, hreports⟩
    · obtain ⟨f', hf', hadvances⟩ := hl.endpoints i e he
      obtain rfl : f' = f := Option.some_inj.1 (hf'.symm.trans hf)
      rcases h.reported i e he hfin with hc | hc | hc | ⟨a, ha, hreports⟩
      · exact .inl (hadvances.completed hc)
      · exact .inr (.inl (hl.failing hc))
      · exact .inr (.inr (.inl (hl.terminal hc)))
      · rcases hactions a ha with ha | hdone
        · exact .inr (.inr (.inr ⟨a, List.mem_append_right _ ha, hreports⟩))
        · have hdone' : f'.completed = true ∨ r.1.failing = true ∨ r.1.terminal = true := by
            cases a with
            | scannerCompleted j =>
              obtain rfl : j = i := hreports
              exact hdone f' hf
            | scannerFailed j error =>
              obtain rfl : j = i := hreports
              exact hdone f' hf
            | _ => cases hreports
          rcases hdone' with hc | hc | hc
          · exact .inl hc
          · exact .inr (.inl hc)
          · exact .inr (.inr (.inl hc))
    · exact .inr (.inr (.inr ⟨a, List.mem_append_left _ ha, hreports⟩))
  failing hf := by
    rcases hr.failing hf with hf | ⟨error, herror⟩
    · rcases h.failing hf with ht | ⟨error, herror⟩
      · exact .inl (hl.terminal ht)
      · rcases hactions _ herror with hmem | hdone
        · exact .inr ⟨error, List.mem_append_right _ hmem⟩
        · exact .inl hdone
    · exact .inr ⟨error, List.mem_append_left _ herror⟩
  fails error herror := by
    rcases List.mem_append.1 herror with herror | herror
    · exact hr.fails error herror
    · exact hl.failing (h.fails error (hrest herror))
  stops hs := by
    rcases hr.stops hs with hs | hs
    · rcases h.stops hs with hmem | hmem
      · exact .inl (hr.log.subset hmem)
      · exact (hactions _ hmem).symm.imp_right (List.mem_append_right _)
    · exact .inr (List.mem_append_left _ hs)
  ends ht := by
    rcases hr.ends ht with ht | hf | hc
    · exact (h.ends ht).imp hl.failing fun hmem => hr.log.subset hmem
    · exact .inl (hl.failing hf)
    · exact .inr hc

/-- The report of an end is taken into account. -/
theorem State.scannerCompleted_done (d : State) (i : ℕ) (f : EndpointScan)
    (hf : (d.scannerCompleted i).1.endpoints[i]? = some f) : f.completed = true := by
  unfold State.scannerCompleted at hf
  split at hf
  · rename_i hnone
    rw [hnone] at hf
    cases hf
  · rename_i e he
    split at hf
    · rename_i hc
      rw [he] at hf
      exact Option.some.inj hf ▸ hc
    · rw [getElem?_update he, if_pos rfl] at hf
      exact Option.some.inj hf ▸ rfl

theorem State.run_done (d : State) (reads : List ℕ) (action : Action) :
    action.Done (d.run o reads action).1 := by
  cases action with
  | scannerCompleted i => exact fun f hf => .inl (d.scannerCompleted_done i f hf)
  | scannerFailed i error =>
    intro f hf
    rw [State.run, State.scannerFailed] at hf ⊢
    split at hf
    · exact .inl (d.scannerCompleted_done i f hf)
    · rename_i hr
      have hopen := State.refuses_eq_false.1 (Bool.eq_false_iff.2 hr)
      rw [if_neg hr, State.fail, if_neg (by simp [hopen])]
      exact .inr (.inl rfl)
  | finishFail error => rfl
  | stopUpstream => exact List.mem_append_right _ (List.mem_singleton_self _)
  | _ => trivial

theorem step_run {action : Action} {rest : List Action} (hactions : p.actions = action :: rest)
    (reads : List ℕ) : step o p (.run reads) =
      ⟨(p.state.run o reads action).1, (p.state.run o reads action).2 ++ rest⟩ := by
  rw [step, hactions]
  simp only [Process.resume, hactions, List.tail_cons]

theorem step_duties (hs : p.Settles o) (h : p.Duties) {e : Event} (he : p.Enabled e) :
    (step o p e).Duties := by
  have hl := (step_settles hs he).2
  have henter {r : State.Result} (hr : Onward p.state r) (hl : Later o p.state r.1) :
      (p.enter r).Duties := h.go hr hl (fun _ => .inl) (List.Subset.refl _)
  cases e with
  | run reads =>
    obtain ⟨action, rest, hactions⟩ := List.exists_cons_of_ne_nil he
    have hfails : ∀ error, action = .finishFail error → p.state.failing = true := by
      rintro error rfl
      exact h.fails error (by rw [hactions]; exact List.mem_cons_self)
    rw [step_run hactions] at hl ⊢
    refine h.go (State.run_onward hs.sound reads action hfails) hl (fun a ha => ?_) ?_
    · rw [hactions] at ha
      rcases List.mem_cons.1 ha with rfl | ha
      · exact .inr (p.state.run_done reads a)
      · exact .inl ha
    · rw [hactions]
      exact List.subset_cons_self _ _
  | throws error =>
    have hhead : ∃ code rest, p.actions = .outside code :: rest := by
      obtain ⟨rest, hactions | hactions⟩ := he <;> exact ⟨_, rest, hactions⟩
    obtain ⟨code, rest, hactions⟩ := hhead
    refine h.go (State.fail_onward _ error) hl (fun a ha => ?_) (List.tail_subset p.actions)
    rw [hactions] at ha
    rcases List.mem_cons.1 ha with rfl | ha
    · exact .inr trivial
    · rw [hactions]
      exact .inl ha
  | start => exact henter (State.start_onward _) hl
  | stop => exact henter (State.stop_onward _) hl
  | loopRuns => exact ⟨h.reported, h.failing, h.fails, h.stops, h.ends⟩
  | startInLoop =>
    refine henter ?_ hl
    exact Onward.after (t := { p.state with queued := false })
      (.of_eq rfl rfl rfl rfl rfl rfl rfl nofun rfl rfl) (State.startInLoop_onward _)
  | upstreamCandidate candidate => exact henter (State.openEndpoint_onward _ candidate) hl
  | upstreamFailed error => exact henter (State.fail_onward _ error) hl
  | upstreamCompleted =>
    -- the run takes note of it first
    have hnoted : Process.Duties ⟨{ p.state with modbusCompleted := true }, p.actions⟩ :=
      ⟨h.reported, h.failing, h.fails, h.stops, h.ends⟩
    refine hnoted.go (o := o) (State.maybeComplete_onward _) ?_ (fun _ => .inl)
      (List.Subset.refl _)
    rw [State.upstreamCompleted, State.maybeComplete_state]
    exact .refl _
  | scan i call => exact henter (State.callScan_onward hs.sound i call) hl
  | sessionClosed session => exact henter (State.close_onward _ session) hl

theorem machine_duties (o : SunspecDiscoveryOptions) :
    (machine o).Invariant fun p => p.Settles o ∧ p.Duties where
  init p hp := by
    refine ⟨(machine_settles o).init p hp, ?_⟩
    obtain rfl : p = {} := hp
    exact {
      reported := fun i e he => by cases he
      failing := fun hf => by cases hf
      fails := fun error he => by cases he
      stops := fun hs => by cases hs
      ends := fun ht => by cases ht }
  next p e h he := ⟨(step_settles h.1 he).1, step_duties h.1 h.2 he⟩

/-- What stays as it is in every step. -/
structure Process.Extends (p q : Process) : Prop where
  log : p.state.log <+: q.state.log
  started : p.state.started = true → q.state.started = true
  looping : p.state.looping = true → q.state.looping = true
  subscribed : p.state.subscribed = true → q.state.subscribed = true

theorem Process.Extends.refl (p : Process) : p.Extends p :=
  ⟨List.prefix_rfl, id, id, id⟩

theorem State.Onward.extends {d : State} {r : State.Result} {old actions : List Action}
    (h : Onward d r) : Process.Extends ⟨d, old⟩ ⟨r.1, actions⟩ :=
  ⟨h.log, h.started, fun hd => h.looping.trans hd, h.subscribed⟩

/-- A step extends the log, and the run takes note of the end of its upstream when it is
told of it. -/
theorem step_extends (hs : p.Settles o) (h : p.Duties) (e : Event) :
    p.Extends (step o p e) ∧ ((step o p e).state.modbusCompleted = true →
      p.state.modbusCompleted = true ∨ e = .upstreamCompleted) := by
  have henter {r : State.Result} (hr : Onward p.state r) {actions : List Action} :
      p.Extends ⟨r.1, actions⟩ ∧ (r.1.modbusCompleted = true →
        p.state.modbusCompleted = true ∨ e = .upstreamCompleted) :=
    ⟨hr.extends, fun hm => .inl (hr.modbusCompleted.symm.trans hm)⟩
  cases e with
  | run reads =>
    cases hactions : p.actions with
    | nil =>
      rw [step, hactions]
      exact ⟨⟨List.prefix_rfl, id, id, id⟩, .inl⟩
    | cons action rest =>
      rw [step_run hactions]
      refine henter (State.run_onward hs.sound reads action ?_)
      rintro error rfl
      exact h.fails error (by rw [hactions]; exact List.mem_cons_self)
  | throws error => exact henter (State.fail_onward _ error)
  | start => exact henter (State.start_onward _)
  | stop => exact henter (State.stop_onward _)
  | loopRuns => exact ⟨⟨List.prefix_rfl, id, fun _ => rfl, id⟩, .inl⟩
  | startInLoop =>
    refine henter ?_
    exact Onward.after (t := { p.state with queued := false })
      (.of_eq rfl rfl rfl rfl rfl rfl rfl (fun _ => List.not_mem_nil) rfl rfl) (State.startInLoop_onward _)
  | upstreamCandidate candidate => exact henter (State.openEndpoint_onward _ candidate)
  | upstreamFailed error => exact henter (State.fail_onward _ error)
  | upstreamCompleted =>
    have hr := State.maybeComplete_onward { p.state with modbusCompleted := true }
    exact ⟨⟨hr.log, hr.started, fun hd => hr.looping.trans hd, hr.subscribed⟩, fun _ => .inr rfl⟩
  | scan i call => exact henter (State.callScan_onward hs.sound i call)
  | sessionClosed session => exact henter (State.close_onward _ session)

/-! ### The end -/

/-- A scan that has not ended waits: for its callback in the loop, or for a read. -/
def Awaits (s : ScanState) : Prop := s.finished = false ∧ (s.started = false ∨ s.pending ≠ [])

instance (s : ScanState) : Decidable (Awaits s) := inferInstanceAs (Decidable (_ ∧ (_ ∨ _)))

theorem awaits_or_finished {c : Config} {s : ScanState} (h : ScanState.Phase c s) :
    s.finished = true ∨ Awaits s := by
  cases h with
  | idle hidle =>
    right
    rw [ScanState.Idle] at hidle
    rw [hidle]
    exact ⟨rfl, .inl rfl⟩
  | sweeping hs => exact .inr ⟨hs.finished, .inr (by rw [hs.pending]; exact List.cons_ne_nil _ _)⟩
  | walking hw => exact .inr ⟨hw.finished, .inr (by rw [hw.pending]; exact List.cons_ne_nil _ _)⟩
  | ended hover => exact .inl hover.finished

/-- A discovery with nothing left to be done and no scan that waits has ended, once its
upstream has completed. -/
theorem Process.Duties.terminal (h : p.Duties) (hs : p.Settles o) (ha : p.actions = [])
    (hm : p.state.modbusCompleted = true)
    (hw : ∀ e ∈ p.state.endpoints, ¬Awaits e.scan) : p.state.terminal = true := by
  have hrest := hs.rest (.inl ha)
  have hfailing : p.state.failing = true → p.state.terminal = true := by
    intro hf
    rcases h.failing hf with ht | ⟨error, herror⟩
    · exact ht
    · rw [ha] at herror
      exact absurd herror List.not_mem_nil
  by_contra ht
  have hdone : p.state.Done := by
    refine ⟨hm, fun e he => ?_⟩
    obtain ⟨i, hi⟩ := List.mem_iff_getElem?.1 he
    have hfinished := (awaits_or_finished (hrest.fits e he).phase).resolve_right (hw e he)
    rcases h.reported i e hi hfinished with hc | hc | hc | ⟨a, hmem, -⟩
    · exact hc
    · exact absurd (hfailing hc) ht
    · exact absurd hc ht
    · rw [ha] at hmem
      exact absurd hmem List.not_mem_nil
  exact ht ((hrest.waits hdone).elim hfailing id)

end Neubau.Sunspec.Discovery
