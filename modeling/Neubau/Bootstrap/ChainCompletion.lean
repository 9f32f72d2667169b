import Neubau.Bootstrap.ChainCandidates
import Neubau.Bootstrap.ChainRunning

/-! A chain that the service holds comes to its end by itself: each stage completes when
the one below has completed and its own work is done. What the scan then has told of is
all there was to tell. -/

namespace Neubau.Bootstrap.Chain

open Neubau.Common Neubau.Modbus Neubau.Sunspec Neubau.Transition
open Modbus.Discovery (observedThings identifiedThings identifiedNumbers startedJobs)
open PortScannerSession (pairs)
open Sunspec.Discovery.State (target)

variable {o : StageOptions} {c t : Chain}

/-- Nothing is left that could happen by itself: no callback is queued, and no connection,
no exchange and no read is waited for. -/
structure Quiescent (c : Chain) : Prop extends Idle c where
  scannerTasks : c.scanner.tasks = []
  connections : ∀ n ∈ c.scanner.clients, c.scanner.Finished n
  modbusTasks : c.modbus.tasks = []
  exchanges : ∀ n ∈ c.modbus.active, ¬c.modbus.Awaits n
  scans : ∀ e ∈ c.sunspec.state.endpoints, ¬Sunspec.Discovery.Awaits e.scan

/-- The stages have done all their work. -/
structure Complete (o : StageOptions) (c : Chain) : Prop where
  dialed : c.scanner.connectors.map Connector.target = pairs o.scanner
  finished : c.scanner.AllFinished
  arrived : c.modbus.arrived = ports c.scanner.log
  arrives : ∀ n connector, c.scanner.connectors[n]? = some connector →
    (connector.outcome = some true ↔ .onNext n connector.target ∈ c.scanner.log)
  started : startedJobs c.modbus.log =
    c.modbus.arrived.flatMap (Modbus.Discovery.Session.jobs o.modbus)
  identified : (identifiedNumbers c.modbus.log).Perm
    (List.range (startedJobs c.modbus.log).length)
  things : observedThings c.modbus.log = identifiedThings c.modbus.log
  opened : c.sunspec.state.opened = (observedThings c.modbus.log).map target
  scanned : ∀ e ∈ c.sunspec.state.endpoints, e.completed = true ∧ e.Over o.sunspec
  closed : c.sunspec.state.AllClosed

/-- The service has been told of all that the stages have found. -/
structure Heard (c : Chain) : Prop where
  ports : openPorts c.forwarded = ports c.scanner.log
  things : modbusThings c.forwarded = observedThings c.modbus.log
  found : ∀ thing, .sunspecThing thing ∈ c.forwarded ↔
    ∃ e ∈ c.sunspec.state.endpoints, .onNext thing ∈ e.scan.log

/-- A chain that is held and has not failed never stops its Modbus discovery. -/
theorem Running.unstopped (h : c.Running o) (hlife : c.Lifetime)
    (hf : c.sunspec.state.failing = false) : c.modbus.stopped = false := by
  by_contra hstopped
  have hasked := h.modbus (.inl (by simpa using hstopped))
  rcases hlife.halts.halted (hlife.halts.asked (.inl hasked)) with hf' | hstopping
  · exact absurd (hf'.symm.trans hf) (by decide)
  · exact absurd (hstopping.symm.trans h.stopping) (by decide)

/-- A port scan that has completed says so at the end of its log. -/
theorem completed_reported {s : PortScannerSession} (h : s.Core o.scanner)
    (hc : s.completed = true) : .onCompleted ∈ s.log := by
  obtain ⟨l, hl, -⟩ := h.ended
  rw [hl, if_pos hc]
  exact List.mem_append_right _ (List.mem_singleton_self _)

/-- Where nothing is left to happen, the stages of a chain that is held have ended. -/
theorem held_chain_completes (hc : (machine o).Reachable c) (hheld : c.held = true)
    (hq : c.Quiescent) : c.sunspec.state.terminal = true ∧
      (c.sunspec.state.failing = false → c.scanner.completed = true ∧ c.modbus.completed = true ∧
        .onCompleted ∈ c.sunspec.state.log) := by
  have h := reachable_running hc hheld
  have hlife := reachable_lifetime hc
  have hport := reachable_portLink hc
  have hlink := reachable_upstreamLink hc
  have hscanner := (sees_scanner o).invariant PortScannerSession.machine_sound hc
  have hmodbus := (sees_modbus o).invariant (Modbus.Discovery.machine_sound o.modbus) hc
  obtain ⟨hs, hd⟩ := (sees_sunspec o).invariant (Sunspec.Discovery.machine_duties o.sunspec) hc
  cases hf : c.sunspec.state.failing with
  | true =>
    refine ⟨?_, fun hf' => absurd hf' (by decide)⟩
    rcases hd.failing hf with ht | ⟨error, herror⟩
    · exact ht
    · rw [hq.actions] at herror
      cases herror
  | false =>
    have hstopped := h.unstopped hlife hf
    -- the scan was started, and has completed
    have hbegun : c.modbus.begun = true := by
      refine hlink.begun ?_
      rw [hq.called, List.take_length]
      exact (hlife.opened hq.actions).subset (List.mem_cons_of_mem _ (List.mem_singleton_self _))
    have hup : c.modbus.upstream ≠ .idle := by
      rcases h.begun hbegun with hb | hb | hb
      · rw [hq.modbusTasks] at hb
        cases hb
      · exact absurd (hb.symm.trans hstopped) (by decide)
      · exact hb
    have hscanning : c.scanner.begun = true := by
      by_contra hb
      exact hup (hport.idle.2 (by simpa using hb))
    obtain ⟨-, hcompleted⟩ := PortScannerSession.completes ((sees_scanner o).reachable hc)
      o.maxConcurrency_pos hscanning hq.scannerTasks hq.connections
    have hended : c.modbus.upstream = .ended := by
      refine hport.ended.2 ?_
      rw [hq.reported, List.take_length]
      exact completed_reported hscanner.toCore hcompleted
    -- so have the identifications
    obtain ⟨-, -, hdone⟩ := h.progress.completes hstopped (hport.completed hended) hq.modbusTasks
      hq.exchanges
    have htold : .onCompleted ∈ c.modbus.log := by
      obtain ⟨e, he, hterminal⟩ := List.any_eq_true.1 (hmodbus.ended.symm.trans hdone)
      cases e with
      | onCompleted => exact he
      | onError error => exact absurd he (hlink.unfailed error)
      | _ => cases hterminal
    have hnoted : c.sunspec.state.modbusCompleted = true := by
      refine hlink.noted h.alive.2 ?_
      rwa [hq.told, List.take_length]
    have hterminal := hd.terminal hs hq.actions hnoted hq.scans
    refine ⟨hterminal, fun _ => ⟨hcompleted, hdone, ?_⟩⟩
    exact (hd.ends hterminal).resolve_left (by simp [hf])

/-- One host, of which one unit is asked for. -/
def oneHost : StageOptions where
  scanner := { addresses := [[49]], ports := [502], maxConcurrency := 1 }
  modbus := ⟨[1], 1, unitIds_one_ne, Nat.one_pos⟩
  sunspec := .narrow
  maxConcurrency_pos := Nat.one_pos

/-- The host answers, and so does the device behind it. -/
def hostAnswers : List Event :=
  [.hearSunspec, .sunspec (.run []), .sunspec (.run []), .hearSunspec, .sunspec (.run []),
    .runModbus true, .runScanner true, .runScanner true, .connection 0 true, .hearScanner,
    .hearModbus, .hearScanner, .runModbus true,
    .exchangeFinished 0 (some [0, 1, 0, 0, 0, 3, 1, 0xab, 1]), .hearModbus, .hearModbus,
    .hearModbus, .sunspec (.scan 0 .startInLoop),
    .sunspec (.scan 0 (.reply 0 [0x5375, 0x6e53, 1, 65])),
    .sunspec (.scan 0 (.reply 1 (List.replicate 65 0))), .sunspec (.scan 0 (.reply 2 [0xffff, 0])),
    .sunspec (.run []), .hearSunspec] ++ List.replicate 10 (.sunspec (.run [])) ++
    [.hearSunspec, .sunspec (.run []), .sunspec (.run [])]

def hostScanned : Chain := hostAnswers.foldl (next oneHost) (create oneHost)

theorem hostScanned_reachable : (machine oneHost).Reachable hostScanned :=
  (Machine.Reachable.init rfl).run (Machine.run_of_runs (by decide +kernel))

theorem hostScanned_quiescent : hostScanned.Quiescent where
  toIdle := by decide +kernel
  scannerTasks := by decide +kernel
  connections := by decide +kernel
  modbusTasks := by decide +kernel
  exchanges n hn := by
    have hactive : hostScanned.modbus.active = [] := by decide +kernel
    rw [hactive] at hn
    cases hn
  scans := by decide +kernel

theorem held_chain_completes_one : hostScanned.sunspec.state.terminal = true :=
  (held_chain_completes hostScanned_reachable (by decide +kernel) hostScanned_quiescent).1

/-- The completion of a port scan is the last of its reports. -/
theorem reported_all {s : PortScannerSession} (h : s.Core o.scanner) {n : ℕ}
    (hn : .onCompleted ∈ s.log.take n) : s.completed = true ∧ s.log.take n = s.log := by
  obtain ⟨l, hl, hnot⟩ := h.ended
  have hcompleted : s.completed = true := by
    by_contra hno
    rw [if_neg hno, List.append_nil] at hl
    exact hnot (hl ▸ List.mem_of_mem_take hn)
  refine ⟨hcompleted, List.take_of_length_le ?_⟩
  by_contra hlt
  rw [hl, if_pos hcompleted, List.length_append, List.length_singleton] at hlt
  rw [hl, List.take_append_of_le_length (by omega)] at hn
  exact hnot (List.mem_of_mem_take hn)

/-- No thing is told of behind the completion. -/
theorem told_all {s : Modbus.Discovery.Session} (h : s.Sound o.modbus) {n : ℕ}
    (hn : .onCompleted ∈ s.log.take n) :
    observedThings (s.log.take n) = observedThings s.log := by
  have hafter : observedThings (s.log.drop n) = [] := by
    refine List.filterMap_eq_nil_iff.2 fun e he => ?_
    have horder := h.order
    rw [← List.take_append_drop n s.log] at horder
    have hfollows := ((List.pairwise_append.1 horder).2.2 _ hn _ he).1 rfl
    rw [hfollows]
  conv_rhs => rw [← List.take_append_drop n s.log]
  rw [observedThings_append, hafter, List.append_nil]

theorem complete_of_end (hc : (machine o).Reachable c) (hheld : c.held = true)
    (ht : c.sunspec.state.terminal = true) (hf : c.sunspec.state.failing = false) :
    c.Complete o := by
  have h := reachable_running hc hheld
  have hlife := reachable_lifetime hc
  have hport := reachable_portLink hc
  have hlink := reachable_upstreamLink hc
  have hscanner := (sees_scanner o).invariant PortScannerSession.machine_sound hc
  have hmodbus := (sees_modbus o).invariant (Modbus.Discovery.machine_sound o.modbus) hc
  obtain ⟨hs, hd⟩ := (sees_sunspec o).invariant (Sunspec.Discovery.machine_duties o.sunspec) hc
  have hstopped := h.unstopped hlife hf
  have hdone := hlife.halts.done hs ((hd.ends ht).resolve_left (by simp [hf]))
  -- the Modbus discovery has completed, and has told of everything before
  have hheard := hlink.heard hdone.1
  have hcompleted : c.modbus.completed = true :=
    hmodbus.ended.trans (List.any_eq_true.2 ⟨_, List.mem_of_mem_take hheard, rfl⟩)
  obtain ⟨hpending, hactive, -⟩ := hmodbus.closed hcompleted
  -- and so has the port scan
  have hended := hport.ended.1
    ((h.ended (h.finished hcompleted)).resolve_left (by simp [hstopped]))
  have hscanned : c.scanner.stopped = false := by
    by_contra hsc
    exact absurd (h.scanner (.inl (by simpa using hsc))) (by simp [hstopped])
  obtain ⟨hdialed, hreported⟩ := reported_all hscanner.toCore hended
  obtain ⟨hlength, hfinished⟩ := hscanner.complete hscanned hdialed
  have hstarted := hmodbus.waiting hstopped
  rw [hpending, List.append_nil] at hstarted
  have hplaces := hmodbus.places hstopped
  rw [hactive, List.append_nil, ← hmodbus.count] at hplaces
  exact {
    dialed := by
      rw [hscanner.targets, hlength, ← PortScannerSession.length_pairs, List.take_length]
    finished := hfinished
    arrived := by rw [hport.arrived, hreported]
    arrives := fun n connector hn => by
      constructor
      · intro hopen
        obtain ⟨port, hmem⟩ := PortScannerSession.mem_emitted.1
          (hscanner.all hscanned n connector hn hopen)
        obtain ⟨connector', hn', htarget, -⟩ := hscanner.values n port hmem
        obtain rfl := Option.some.inj (hn.symm.trans hn')
        rwa [htarget]
      · intro hmem
        obtain ⟨connector', hn', -, hopen⟩ := hscanner.values n _ hmem
        obtain rfl := Option.some.inj (hn.symm.trans hn')
        exact hopen
    started := hstarted
    identified := hplaces
    things := hmodbus.things hstopped
    opened := by rw [h.opened hf, told_all hmodbus hheard]
    scanned := fun e he => ⟨hdone.2 e he, (hs.sound.fits e he).ended (hdone.2 e he)⟩
    closed := hs.sound.closed ht }

theorem heard_of_idle (hc : (machine o).Reachable c) (hheld : c.held = true)
    (hf : c.sunspec.state.failing = false) (hidle : c.Idle) : c.Heard := by
  have h := reachable_running hc hheld
  have hlife := reachable_lifetime hc
  have hforwards := reachable_forwards hc hheld
  obtain ⟨hs, hemits⟩ := (sees_sunspec o).invariant (Sunspec.Discovery.machine_emits o.sunspec) hc
  have hrunning : c.sunspec.state.runStopping = false := by
    by_contra hstops
    rcases hlife.halts.halted (by simpa using hstops) with hf' | hstopping
    · exact absurd (hf'.symm.trans hf) (by decide)
    · exact absurd (hstopping.symm.trans h.stopping) (by decide)
  refine ⟨?_, ?_, fun thing => ?_⟩
  · rw [hforwards.ports, hidle.reported, List.take_length]
  · rw [hforwards.things, hidle.told, List.take_length]
  · rw [← mem_sunspecThings, hforwards.found, hidle.called, List.take_length, mem_emittedThings]
    constructor
    · rintro ⟨i, hi⟩
      obtain ⟨e, he, hfound⟩ := hemits.told i thing hi
      exact ⟨e, List.mem_of_getElem? he, hfound⟩
    · rintro ⟨e, he, hfound⟩
      obtain ⟨i, hi⟩ := List.mem_iff_getElem?.1 he
      refine ⟨i, (hemits.kept hrunning hf i thing ⟨e, hi, hfound⟩).resolve_left ?_⟩
      rw [hidle.actions]
      exact List.not_mem_nil

/-- A chain that is held and ends without a failure has done all its work: every port was
dialed, every unit of an open port identified, and every endpoint found has been scanned,
with its sessions closed; and what was found, the service has heard of. -/
theorem end_is_complete (hc : (machine o).Reachable c) (hheld : c.held = true)
    (ht : c.sunspec.state.terminal = true) (hf : c.sunspec.state.failing = false) :
    c.Complete o ∧ (c.Idle → c.Heard) :=
  ⟨complete_of_end hc hheld ht hf, heard_of_idle hc hheld hf⟩

theorem end_is_complete_one : hostScanned.Complete oneHost ∧ hostScanned.Heard :=
  (end_is_complete hostScanned_reachable (by decide +kernel) (by decide +kernel)
    (by decide +kernel)).imp_right fun h => h hostScanned_quiescent.toIdle

end Neubau.Bootstrap.Chain
