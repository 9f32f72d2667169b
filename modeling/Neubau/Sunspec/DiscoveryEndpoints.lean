import Neubau.Sunspec.DiscoveryProtocol

/-! How many scans a discovery opens for one endpoint. `openEndpoint` takes every
candidate it accepts for a new endpoint, so there is one scan for each exactly if no
candidate that the run accepts repeats the endpoint of an earlier one. -/

namespace Neubau.Sunspec.Discovery

open Neubau.Common Neubau.Modbus Neubau.Transition

variable {o : SunspecDiscoveryOptions} {p q : Process} {d t : State} {candidate : ModbusThing}

namespace State

/-- The endpoints that scans were opened for. -/
def opened (d : State) : List ModbusEndpoint := d.endpoints.map (·.endpoint)

/-- How many candidates were told of scans of the endpoint `x`. -/
def things (d : State) (x : ModbusEndpoint) : ℕ :=
  d.log.countP fun | .onNext i _ => (d.endpoints[i]?).any (·.endpoint == x) | _ => false

/-- One scan for each endpoint, and at most one thing. -/
def OneScan (d : State) : Prop := d.opened.Nodup ∧ ∀ x, d.things x ≤ 1

theorem Later.opened_extends (h : Later o d t) : d.opened <+: t.opened := by
  rw [List.prefix_iff_getElem?]
  intro i hi
  rw [opened, List.length_map] at hi
  obtain ⟨f, hf, hadvances⟩ := h.endpoints i _ (List.getElem?_eq_getElem hi)
  simp [opened, hf, hadvances.endpoint]

/-- Where no endpoint is added, the endpoints stay what they are. -/
theorem Later.opened_eq (h : Later o d t) (hlength : t.endpoints.length = d.endpoints.length) :
    t.opened = d.opened := by
  have hl : d.opened.length = t.opened.length := by simp [opened, hlength]
  exact (h.opened_extends.eq_of_length hl).symm

theorem Logged.things_le (h : d.Logged) (hn : d.opened.Nodup) (x : ModbusEndpoint) :
    d.things x ≤ 1 := by
  by_cases hx : ∃ (i : ℕ) (e : EndpointScan), d.endpoints[i]? = some e ∧ e.endpoint = x
  · obtain ⟨i, e, he, hex⟩ := hx
    refine le_trans (List.countP_mono_left fun f _ hf => ?_) (h.once i)
    cases f with
    | onNext j thing =>
      simp only [Option.any_eq_true, beq_iff_eq] at hf
      obtain ⟨e', he', hex'⟩ := hf
      have hi : d.opened[i]? = some x := by simp [opened, he, hex]
      have hj : d.opened[j]? = some x := by simp [opened, he', hex']
      have hlt := (List.getElem?_eq_some_iff.1 hj).1
      have hji : j = i := (List.getElem?_inj hlt hn).1 (hj.trans hi.symm)
      simp [hji]
    | _ => cases hf
  · refine le_of_eq_of_le (List.countP_eq_zero.2 fun f _ hf => ?_) (Nat.zero_le 1)
    cases f with
    | onNext j thing =>
      simp only [Option.any_eq_true, beq_iff_eq] at hf
      obtain ⟨e', he', hex'⟩ := hf
      exact hx ⟨j, e', he', hex'⟩
    | _ => cases hf

/-! ### Which functions add an endpoint -/

theorem callScan_length (d : State) (i : ℕ) (call : ScanCall) :
    (d.callScan o i call).1.endpoints.length = d.endpoints.length := by
  cases hi : d.endpoints[i]? with
  | none => rw [callScan_none hi]
  | some e =>
    rw [callScan_some hi]
    split <;> simp [update, createSession]

theorem complete_state (d : State) : d.complete.1 = d := by
  rw [complete]
  split <;> rfl

theorem maybeComplete_state (d : State) : d.maybeComplete.1 = d := by
  rw [maybeComplete]
  split
  · rfl
  · split
    · exact complete_state d
    · rfl

theorem fail_endpoints (d : State) (error : Exception) :
    (d.fail error).1.endpoints = d.endpoints := by
  rw [fail]
  split <;> rfl

theorem scannerCompleted_length (d : State) (i : ℕ) :
    (d.scannerCompleted i).1.endpoints.length = d.endpoints.length := by
  rw [scannerCompleted]
  split
  · rfl
  · split
    · rfl
    · exact List.length_set

theorem startInLoop_endpoints (d : State) : d.startInLoop.1.endpoints = d.endpoints := by
  rw [startInLoop]
  split
  · rw [complete_state]
    rfl
  · rfl

theorem start_endpoints (d : State) : d.start.1.endpoints = d.endpoints := by
  rw [start]
  split
  · rfl
  · simp only
    split
    · exact startInLoop_endpoints _
    · rfl

theorem stop_endpoints (d : State) : d.stop.1.endpoints = d.endpoints := by
  rw [stop]
  split
  · rfl
  · split
    · split <;> rfl
    · rw [stopInLoop]
      split <;> rfl

theorem run_length (d : State) (reads : List ℕ) (action : Action) :
    (d.run o reads action).1.endpoints.length = d.endpoints.length := by
  cases action with
  | outside code => cases code <;> rfl
  | cancel i => exact callScan_length d i .cancel
  | readFails i read => exact callScan_length d i (.failure read)
  | candidate i thing =>
    rw [run, candidate]
    split
    · rfl
    · split
      · rfl
      · exact List.length_set
  | scannerFailed i error =>
    rw [run, scannerFailed]
    split
    · exact scannerCompleted_length d i
    · rw [fail_endpoints]
  | scannerCompleted i => exact scannerCompleted_length d i
  | scannerClosed =>
    rw [run]
    split
    · rfl
    · rw [maybeComplete_state]
  | closeSessions i sessions =>
    cases sessions with
    | nil => rfl
    | cons session sessions =>
      rw [run]
      split <;> rfl
  | cancelEndpoints i =>
    rw [run]
    split <;> rfl
  | closeEndpoints i =>
    rw [run]
    split <;> rfl
  | releaseResources => exact List.length_map _
  | _ => rfl

/-- A scan is opened for the candidate: the run is open, and a session can be made. -/
def Accepts (d : State) (candidate : ModbusThing) : Prop :=
  d.refuses = false ∧ (target candidate).check = .ok ()

instance (d : State) (candidate : ModbusThing) : Decidable (d.Accepts candidate) :=
  inferInstanceAs (Decidable (_ ∧ _))

theorem openEndpoint_opened (h : d.Accepts candidate) :
    (d.openEndpoint candidate).1.opened = d.opened ++ [target candidate] := by
  rw [openEndpoint, if_neg (by simp [h.1]), h.2]
  simp [opened]

theorem openEndpoint_endpoints (h : ¬d.Accepts candidate) :
    (d.openEndpoint candidate).1.endpoints = d.endpoints := by
  rw [openEndpoint]
  split
  · rfl
  rename_i hr
  split
  · exact fail_endpoints d _
  · rename_i hcheck
    exact absurd ⟨by simpa using hr, hcheck⟩ h

/-- An open run does not leave a candidate out; where no session can be made, it fails. -/
theorem openEndpoint_fails (hr : d.refuses = false) (h : ¬d.Accepts candidate) :
    (d.openEndpoint candidate).1.failing = true := by
  rw [openEndpoint, if_neg (by simp [hr])]
  rw [refuses_eq_false] at hr
  split
  · rw [fail, if_neg (by simp [hr])]
    rfl
  · rename_i hcheck
    exact absurd ⟨refuses_eq_false.2 hr, hcheck⟩ h

end State

/-! ### Which runs open one scan for each endpoint -/

/-- A candidate that the run accepts is not of an endpoint opened before. -/
def Fresh (p : Process) : Event → Prop
  | .upstreamCandidate candidate =>
    ¬p.state.Accepts candidate ∨ State.target candidate ∉ p.state.opened
  | _ => True

instance (p : Process) : (e : Event) → Decidable (Fresh p e)
  | .upstreamCandidate _ => inferInstanceAs (Decidable (_ ∨ _))
  | .run _ | .throws _ | .start | .stop | .loopRuns | .startInLoop | .upstreamFailed _
  | .upstreamCompleted | .scan _ _ | .sessionClosed _ => .isTrue trivial

/-- An event adds the endpoint of a candidate that the run accepts, and no other. -/
theorem step_opened (h : p.Settles o) {e : Event} (he : p.Enabled e) :
    ((step o p e).state.opened = p.state.opened ∧ Fresh p e) ∨
      ∃ candidate, e = .upstreamCandidate candidate ∧ p.state.Accepts candidate ∧
        (step o p e).state.opened = p.state.opened ++ [State.target candidate] := by
  have hlater := (step_settles h he).2
  cases e with
  | upstreamCandidate candidate =>
    by_cases ha : p.state.Accepts candidate
    · exact .inr ⟨candidate, rfl, ha, State.openEndpoint_opened ha⟩
    · have hlength := congrArg List.length (State.openEndpoint_endpoints ha)
      exact .inl ⟨hlater.opened_eq hlength, .inl ha⟩
  | run reads =>
    refine .inl ⟨hlater.opened_eq ?_, trivial⟩
    rw [step]
    split
    · rfl
    · exact State.run_length ..
  | throws error =>
    exact .inl ⟨hlater.opened_eq (congrArg List.length (State.fail_endpoints ..)), trivial⟩
  | start =>
    exact .inl ⟨hlater.opened_eq (congrArg List.length (State.start_endpoints _)), trivial⟩
  | stop => exact .inl ⟨hlater.opened_eq (congrArg List.length (State.stop_endpoints _)), trivial⟩
  | loopRuns => exact .inl ⟨rfl, trivial⟩
  | startInLoop =>
    exact .inl ⟨hlater.opened_eq (congrArg List.length (State.startInLoop_endpoints _)), trivial⟩
  | upstreamFailed error =>
    exact .inl ⟨hlater.opened_eq (congrArg List.length (State.fail_endpoints ..)), trivial⟩
  | upstreamCompleted =>
    refine .inl ⟨hlater.opened_eq ?_, trivial⟩
    show (State.maybeComplete _).1.endpoints.length = _
    rw [State.maybeComplete_state]
  | scan i call => exact .inl ⟨hlater.opened_eq (State.callScan_length ..), trivial⟩
  | sessionClosed session => exact .inl ⟨rfl, trivial⟩

theorem step_nodup_iff (h : p.Settles o) {e : Event} (he : p.Enabled e) :
    (step o p e).state.opened.Nodup ↔ p.state.opened.Nodup ∧ Fresh p e := by
  rcases step_opened h he with ⟨heq, hfresh⟩ | ⟨candidate, rfl, ha, heq⟩
  · rw [heq]
    exact ⟨fun hn => ⟨hn, hfresh⟩, And.left⟩
  · rw [heq, List.nodup_append]
    constructor
    · rintro ⟨hn, -, hdisjoint⟩
      exact ⟨hn, .inr fun hmem => hdisjoint _ hmem _ (List.mem_singleton_self _) rfl⟩
    · rintro ⟨hn, hrejected | hmem⟩
      · exact absurd ha hrejected
      · refine ⟨hn, List.nodup_singleton _, fun x hx y hy hxy => ?_⟩
        rw [List.mem_singleton.1 hy] at hxy
        exact hmem (hxy ▸ hx)

/-- A candidate of an endpoint opened before opens it twice, whatever a run opens more. -/
theorem stale_opens_twice {e : Event} {es : List Event} (hp : (machine o).Reachable p)
    (he : p.Enabled e) (hstale : ¬Fresh p e) (hr : (machine o).Run (step o p e) es q) :
    ¬q.state.opened.Nodup := by
  intro hn
  have hsettles := (machine_settles o).reachable hp
  have hprefix := (run_later (hp.next he) hr).opened_extends
  have hnext := (step_nodup_iff hsettles he).1 (hn.sublist hprefix.sublist)
  exact hstale hnext.2

/-- A run opens one scan for each endpoint, and tells of at most one thing of each,
exactly if no candidate that it accepts is of an endpoint opened before. -/
theorem one_scan_iff_fresh {es : List Event} (hr : (machine o).Run {} es q) :
    q.state.OneScan ↔ ((machine o).restrict Fresh).Run {} es q := by
  have hstart : (machine o).Reachable {} ∧ ({} : Process).state.opened.Nodup :=
    ⟨.init rfl, List.nodup_nil⟩
  refine hr.restrict_iff (P := fun p => (machine o).Reachable p ∧ p.state.opened.Nodup)
    (Q := fun p => p.state.OneScan) (fun p e h he hfresh => ?_)
    (fun p e es q h he hstale hrest hone => ?_) (fun p h => ?_) hstart
  · have hsettles := (machine_settles o).reachable h.1
    exact ⟨h.1.next he, (step_nodup_iff hsettles he).2 ⟨h.2, hfresh⟩⟩
  · exact stale_opens_twice h.1 he hstale hrest hone.1
  · exact ⟨h.2, ((machine_settles o).reachable h.1).sound.logged.things_le h.2⟩

instance (o : SunspecDiscoveryOptions) (p : Process) (e : Event) :
    Decidable (((machine o).restrict Fresh).enabled p e) :=
  inferInstanceAs (Decidable (p.Enabled e ∧ Fresh p e))

/-- A unit of a gateway. -/
def gatewayUnit (port : UInt16) (unitId : UInt8) : ModbusThing where
  address := ascii "10.0.0.2"
  port := port
  unitId := unitId

/-- Two gateways, of one unit each. -/
def twoGateways : List Event :=
  [.start, .loopRuns, .startInLoop, .upstreamCandidate (gatewayUnit 502 7),
    .upstreamCandidate (gatewayUnit 503 7)]

theorem one_scan_iff_fresh_two : (twoGateways.foldl (step .narrow) {}).state.OneScan :=
  (one_scan_iff_fresh (Machine.run_of_runs (by decide +kernel))).2
    (Machine.run_of_runs (M := (machine .narrow).restrict Fresh) (by decide +kernel))

/-- The walk of a scan that emits. -/
def walk (endpoint : ℕ) : List Event :=
  [.scan endpoint .startInLoop, .scan endpoint (.reply 0 [0x5375, 0x6e53, 1, 65]),
    .scan endpoint (.reply 1 (List.replicate 65 0)), .scan endpoint (.reply 2 [0xffff, 0]), .run []]

/-- A gateway that answers on two units. -/
def gateway : List Event :=
  [.start, .loopRuns, .startInLoop, .upstreamCandidate (gatewayUnit 502 7),
    .upstreamCandidate (gatewayUnit 502 8)] ++ walk 0 ++ walk 1

/-- It is scanned twice, and is told of twice. -/
theorem one_scan_gateway : ¬ ∀ es q, (machine .narrow).Run {} es q →
    q.state.opened.Nodup ∧ ∀ x, q.state.things x ≤ 1 := by
  intro h
  have hrun : (machine .narrow).Run {} gateway (gateway.foldl (step .narrow) {}) :=
    Machine.run_of_runs (by decide +kernel)
  have hthings : (gateway.foldl (step .narrow) {}).state.things
      { address := ascii "10.0.0.2", port := 502 } = 2 := by decide +kernel
  have hle := (h gateway _ hrun).2 { address := ascii "10.0.0.2", port := 502 }
  omega

end Neubau.Sunspec.Discovery
