import Neubau.Bootstrap.ChainCandidates
import Neubau.Bootstrap.ChainLifetime
import Neubau.Common.Subnet

/-! The service that makes the chains, one for each scan of the network. It holds the
last of them only; the others it has stopped and handed to the loop, where they go on
until they are destroyed, beside the chain that is held. -/

namespace Neubau.Bootstrap

open Neubau.Common Neubau.Modbus Neubau.Sunspec Neubau.Transition
open Neubau.Common.Subnet (dottedDecimal dottedDecimal_lawful)

/-- A chain, with the options it was made with and the addresses this machine had then:
those that the subnet was taken from, and those that were left out of its hosts. -/
structure Generation where
  primary : Finset UInt32
  locals : Finset UInt32
  options : StageOptions
  chain : Chain

/-- The SunSpec part of the service, with all the chains it has made. -/
structure DiscoveryService where
  generations : List Generation := []

namespace DiscoveryService

variable (inet : Inet)

/-- The options of the stages for the hosts of a subnet. -/
def stages (hosts : List Bytes) : StageOptions where
  scanner := { addresses := hosts, ports := [502], maxConcurrency := 32 }
  modbus := ⟨[1], 32, unitIds_one_ne, by decide⟩
  sunspec := ⟨256, 10000, by decide, by decide⟩
  maxConcurrency_pos := Nat.zero_lt_succ 31

/-- The subnet of `startSunspec`, and the hosts that `PortScanner` lists of it. -/
def options (primary locals : Finset UInt32) : Except Exception (Option StageOptions) := do
  match ← Subnet.primaryLocal inet primary 24 with
  | none => return none
  | some subnet =>
    let hosts ← subnet.hosts inet locals 4096
    return some (stages hosts)

/-- What happens to the service and to the chains it has made. -/
inductive Event
  /-- `startSunspec`, behind `stopSunspecChain`; the addresses are those found. -/
  | startSunspec (primary locals : Finset UInt32)
  | chain (generation : ℕ) (e : Chain.Event)

/-- The chain was stopped and handed to the loop. -/
def Retired (c : Chain) : Prop := c.held = false ∧ (c.ahead.isSome ∨ c.destroyed = true)

def Enabled (s : DiscoveryService) : Event → Prop
  | .startSunspec _ _ => ∀ g ∈ s.generations, Retired g.chain
  | .chain n e => ∃ g, s.generations[n]? = some g ∧ g.chain.Enabled e

/-- A call that throws leaves the service without a chain. -/
def next (s : DiscoveryService) : Event → DiscoveryService
  | .startSunspec primary locals =>
    match options inet primary locals with
    | .ok (some options) =>
      { generations := s.generations ++ [{ primary, locals, options, chain := .create options }] }
    | _ => s
  | .chain n e =>
    { generations := s.generations.modify n fun g =>
        { g with chain := g.chain.next g.options e } }

/-- The service under any order of events, of its own and of all its chains. -/
def machine : Machine DiscoveryService Event where
  init s := s = {}
  enabled := Enabled
  next := next inet

instance (c : Chain) : Decidable (Retired c) := inferInstanceAs (Decidable (_ ∧ (_ ∨ _)))

instance (s : DiscoveryService) : (e : Event) → Decidable (s.Enabled e)
  | .startSunspec _ _ => inferInstanceAs (Decidable (∀ g ∈ s.generations, Retired g.chain))
  | .chain n e => decidable_of_iff (∃ g ∈ s.generations[n]?, g.chain.Enabled e) Iff.rfl

instance (s : DiscoveryService) (e : Event) : Decidable ((machine inet).enabled s e) :=
  inferInstanceAs (Decidable (s.Enabled e))

variable {inet} {s : DiscoveryService}

/-- A machine without an address has no primary one, and only then. -/
theorem primaryIpv4Address_cases (primary : Finset UInt32) :
    (primary = ∅ ∧ Subnet.primaryIpv4Address primary = none) ∨
      ∃ address, Subnet.primaryIpv4Address primary = some address := by
  unfold Subnet.primaryIpv4Address
  split_ifs with h
  · exact .inr ⟨_, rfl⟩
  · rw [Finset.not_nonempty_iff_eq_empty, Finset.image_eq_empty] at h
    exact .inl ⟨h, rfl⟩

/-- The service makes a chain for the hosts of the network that its first address is in,
and never throws. -/
theorem options_eq (h : inet.Lawful) (primary locals : Finset UInt32) :
    (primary = ∅ ∧ options inet primary locals = .ok none) ∨
      ∃ (address : UInt32) (hosts : List UInt32),
        Subnet.primaryIpv4Address primary = some address ∧
        options inet primary locals = .ok (some (stages (hosts.map inet.ntop))) ∧
        hosts.Pairwise (· < ·) ∧ ∀ host, host ∈ hosts ↔ IsHost 24 address locals host := by
  have hlength : ¬((24 : ℤ) < 0 ∨ 32 < (24 : ℤ)) := by decide
  rcases primaryIpv4Address_cases primary with ⟨hempty, hnone⟩ | ⟨address, haddress⟩
  · refine .inl ⟨hempty, ?_⟩
    rw [options, Subnet.primaryLocal, if_neg hlength, hnone]
    rfl
  · obtain ⟨subnet, hsubnet, hbits, hnetwork, -⟩ :=
      Subnet.ofCidr_eq h ((h.inverse _ address).2 rfl) (by decide : 24 ≤ 32)
    have hcount : subnet.hostCount ≤ 4096 := by
      rw [UInt64.le_iff_toNat_le, Subnet.toNat_hostCount, hbits]
      decide
    have hlisted : subnet.hosts inet locals 4096 = .ok ((subnet.listed locals).map inet.ntop) :=
      Subnet.hosts_of_le hcount
    refine .inr ⟨address, subnet.listed locals, haddress, ?_, Subnet.listed_pairwise subnet locals,
      fun host => ?_⟩
    · have hprimary : Subnet.primaryLocal inet primary 24 = .ok (some subnet) := by
        rw [Subnet.primaryLocal, if_neg hlength, haddress]
        dsimp only
        rw [show Int.toNat 24 = 24 from rfl, hsubnet]
        rfl
      rw [options, hprimary]
      show (subnet.hosts inet locals 4096 >>= fun hosts => pure (some (stages hosts))) = _
      rw [hlisted]
      rfl
    · rw [← hbits]
      exact Subnet.mem_listed_iff_isHost hnetwork

/-! ### Every generation -/

/-- Once retired, a chain stays so. -/
theorem Retired.next {o : StageOptions} {c : Chain} (h : Retired c) {e : Chain.Event}
    (he : c.Enabled e) : Retired (c.next o e) := by
  cases e with
  | runModbus created =>
    refine ⟨h.1, h.2.imp_left fun hs => ?_⟩
    show (c.ahead.map Nat.pred).isSome = true
    rwa [Option.isSome_map]
  | hearScanner =>
    obtain ⟨_, _, _, heq⟩ := Chain.hearScanner_frame (o := o) c
    rw [heq]
    exact h
  | hearModbus =>
    obtain ⟨_, _, _, heq⟩ := Chain.hearModbus_frame (o := o) c
    rw [heq]
    exact h
  | hearSunspec =>
    obtain ⟨_, _, _, heq⟩ := Chain.hearSunspec_frame (o := o) c
    rw [heq]
    exact h
  | stopSunspecChain => exact ⟨rfl, h.2⟩
  | queueInLoop => exact ⟨h.1, .inl rfl⟩
  | destroy => exact ⟨h.1, .inr rfl⟩
  | _ => exact h

/-- What holds of every generation. -/
structure Runs (inet : Inet) (g : Generation) : Prop where
  options : DiscoveryService.options inet g.primary g.locals = .ok (some g.options)
  reachable : (Chain.machine g.options).Reachable g.chain

/-- Every generation runs as a chain does alone, and all but the last are retired. -/
structure Sound (inet : Inet) (s : DiscoveryService) : Prop where
  sound : ∀ g ∈ s.generations, Runs inet g
  retired : ∀ (n : ℕ) g, s.generations[n]? = some g → n + 1 < s.generations.length →
    Retired g.chain

theorem machine_sound (inet : Inet) : (machine inet).Invariant (Sound inet) where
  init s hs := by
    obtain rfl : s = {} := hs
    exact ⟨fun g hg => absurd hg List.not_mem_nil, fun n g hn => absurd hn (by simp)⟩
  next s e h he := by
    cases e with
    | startSunspec primary locals =>
      show Sound inet (s.next inet (.startSunspec primary locals))
      simp only [DiscoveryService.next]
      split
      · rename_i options hoptions
        refine ⟨fun g hg => ?_, fun n g hn hlt => ?_⟩
        · rcases List.mem_append.1 hg with hg | hg
          · exact h.sound g hg
          · rw [List.mem_singleton.1 hg]
            exact ⟨hoptions, .init rfl⟩
        · rw [List.length_append, List.length_singleton] at hlt
          rw [List.getElem?_append_left (by omega)] at hn
          exact he g (List.mem_of_getElem? hn)
      · exact h
    | chain n e =>
      obtain ⟨g, hg, henabled⟩ := he
      have hget {k : ℕ} {g' : Generation}
          (hk : (s.next inet (.chain n e)).generations[k]? = some g') :
          s.generations[k]? = some g' ∨
            n = k ∧ g' = { g with chain := g.chain.next g.options e } := by
        rw [DiscoveryService.next, List.getElem?_modify] at hk
        split_ifs at hk with hnk
        · rw [← hnk, hg] at hk
          exact .inr ⟨hnk, (Option.some.inj hk).symm⟩
        · exact .inl (by simpa using hk)
      have hlength : (s.next inet (.chain n e)).generations.length = s.generations.length :=
        List.length_modify _ _ _
      refine ⟨fun g' hg' => ?_, fun k g' hk hlt => ?_⟩
      · obtain ⟨k, hk⟩ := List.mem_iff_getElem?.1 hg'
        rcases hget hk with hk | ⟨-, rfl⟩
        · exact h.sound g' (List.mem_of_getElem? hk)
        · have hsound := h.sound g (List.mem_of_getElem? hg)
          exact ⟨hsound.options, hsound.reachable.next henabled⟩
      · change k + 1 < (s.next inet (.chain n e)).generations.length at hlt
        rw [hlength] at hlt
        rcases hget hk with hk | ⟨rfl, rfl⟩
        · exact h.retired k g' hk hlt
        · exact (h.retired n g hg hlt).next henabled

/-- What a generation dials, hosts of the network that the machine is in at port 502, each
once, and what it scans: of these the ones that were found open, each once. A connector
stands for an attempt, also where it is cancelled before it dials. -/
structure ScansOnce (inet : Inet) (g : Generation) (address : UInt32) : Prop where
  primary : Subnet.primaryIpv4Address g.primary = some address
  attempts : (g.chain.scanner.connectors.map Connector.target).Nodup
  dialed : g.chain.scanner.dialed.Nodup
  dials : g.chain.scanner.dialed ⊆ g.chain.scanner.connectors.map Connector.target
  targets : ∀ connector ∈ g.chain.scanner.connectors, connector.port = 502 ∧
    ∃ host, IsHost 24 address g.locals host ∧ connector.address = inet.ntop host
  once : g.chain.sunspec.state.OneScan
  found : ∀ x ∈ g.chain.sunspec.state.opened, { address := x.address, port := x.port } ∈
    Chain.ports g.chain.scanner.log
  hosts : ∀ x ∈ g.chain.sunspec.state.opened, x.port = 502 ∧
    ∃ host, IsHost 24 address g.locals host ∧ x.address = inet.ntop host

theorem ntop_injective (h : inet.Lawful) : Function.Injective inet.ntop := fun a b hab =>
  Option.some.inj (((h.inverse _ a).2 rfl).symm.trans ((h.inverse _ b).2 hab))

theorem mem_pairs {hosts : List UInt32} {port : OpenPort} :
    port ∈ PortScannerSession.pairs (stages (hosts.map inet.ntop)).scanner ↔
      port.port = 502 ∧ ∃ host ∈ hosts, port.address = inet.ntop host := by
  obtain ⟨address, number⟩ := port
  simp [PortScannerSession.pairs, stages, eq_comm, and_comm]

/-- A generation asks one unit of each host of the network that the machine is in. -/
structure Covers (inet : Inet) (g : Generation) (address : UInt32) : Prop where
  primary : Subnet.primaryIpv4Address g.primary = some address
  unitIds : g.options.modbus.unitIds = [1]
  nodup : (PortScannerSession.pairs g.options.scanner).Nodup
  hosts : ∀ port, port ∈ PortScannerSession.pairs g.options.scanner ↔
    port.port = 502 ∧ ∃ host, IsHost 24 address g.locals host ∧ port.address = inet.ntop host

theorem Runs.covers (h : inet.Lawful) {g : Generation} (hg : Runs inet g) :
    ∃ address, Covers inet g address := by
  obtain ⟨primary, locals, options, chain⟩ := g
  have hoptions := hg.options
  dsimp only at hoptions
  rcases options_eq h primary locals with
    ⟨-, hnone⟩ | ⟨address, hosts, haddress, heq, hsorted, hhosts⟩
  · rw [hnone] at hoptions
    cases hoptions
  rw [heq] at hoptions
  obtain rfl := Option.some.inj (Except.ok.inj hoptions)
  refine ⟨address, haddress, rfl, ?_, fun port => ?_⟩
  · exact Chain.pairs_nodup (List.Nodup.map (ntop_injective h) (hsorted.imp UInt32.ne_of_lt))
      (List.nodup_singleton 502)
  · rw [mem_pairs]
    simp only [hhosts]

/-- Every scan of the network, held or retired, dials only hosts of the network that the
machine is in, each at most once, and opens at most one scan of registers for each, behind
a port that it found open, whatever scans go on beside it. -/
theorem generations_scan_once (h : inet.Lawful) (hs : (machine inet).Reachable s)
    {g : Generation} (hg : g ∈ s.generations) : ∃ address, ScansOnce inet g address := by
  have hruns := ((machine_sound inet).reachable hs).sound g hg
  obtain ⟨address, hcovers⟩ := hruns.covers h
  have hc := hruns.reachable
  obtain ⟨hscanner, hdialing⟩ :=
    (Chain.sees_scanner _).invariant PortScannerSession.machine_dialing hc
  obtain ⟨hs, -⟩ := (Chain.sees_sunspec _).invariant
    (Sunspec.Discovery.machine_duties _) hc
  obtain ⟨hopened, hopen⟩ := Chain.opened_nodup hc hcovers.nodup hcovers.unitIds
  have hattempts : (g.chain.scanner.connectors.map Connector.target).Nodup := by
    rw [hscanner.targets]
    exact hcovers.nodup.sublist (List.take_sublist _ _)
  have hdialed : g.chain.scanner.dialed.Sublist
      (g.chain.scanner.connectors.map Connector.target) :=
    hdialing.dialed_eq ▸ List.take_sublist _ _
  refine ⟨address, hcovers.primary, hattempts, hattempts.sublist hdialed, hdialed.subset,
    fun connector hconnector => ?_, ⟨hopened, hs.sound.logged.things_le hopened⟩, hopen,
    fun x hx => ?_⟩
  · have htarget := List.mem_map_of_mem (f := Connector.target) hconnector
    rw [hscanner.targets] at htarget
    exact (hcovers.hosts _).1 (List.mem_of_mem_take htarget)
  · exact (hcovers.hosts _).1 ((Chain.ports_nodup hscanner.toCore hcovers.nodup).2 (hopen x hx))

/-- A network in which this machine is alone on record. -/
def home : Finset UInt32 := {3232235778}

/-- The chain is started. -/
def started : List Chain.Event :=
  [.hearSunspec, .sunspec (.run []), .sunspec (.run []), .hearSunspec, .sunspec (.run [])]

/-- The first host answers, and the device behind it, which refuses to identify itself with
the exception; its registers are read. -/
def refused (code : UInt8) : List Chain.Event :=
  started ++ [.runModbus true, .runScanner true, .runScanner true, .connection 0 true,
    .hearScanner, .hearModbus, .runModbus true,
    .exchangeFinished 0 (some [0, 1, 0, 0, 0, 3, 1, 0xab, code]), .hearModbus, .hearModbus,
    .sunspec (.scan 0 .startInLoop)]

def answered : List Chain.Event := refused 1

def scanned : List Event := .startSunspec home home :: answered.map (.chain 0)

/-- Two more hosts are dialed beside the scan. -/
def dialedOn : List Event := scanned ++ List.replicate 2 (.chain 0 (.runScanner true))

theorem generations_scan_once_home :
    (∀ g ∈ (dialedOn.foldl (next dottedDecimal) {}).generations,
      ∃ address, ScansOnce dottedDecimal g address) ∧
    (dialedOn.foldl (next dottedDecimal) {}).generations.map (fun g =>
      (g.chain.scanner.dialed.length, g.chain.sunspec.state.opened.length)) = [(3, 1)] :=
  ⟨fun _ hg => generations_scan_once dottedDecimal_lawful
    ((Machine.Reachable.init rfl).run (Machine.run_of_runs (by decide +kernel))) hg,
    by decide +kernel⟩

/-- The service holds the last chain at most, and no chain calls its port scanner when
the loop has let go of it. -/
theorem chains_end_safely (hs : (machine inet).Reachable s) :
    (∀ (n : ℕ) g, s.generations[n]? = some g → g.chain.held = true →
      n + 1 = s.generations.length) ∧
    ∀ g ∈ s.generations, g.chain.dangling = false ∧
      (g.chain.destroyed = true → g.chain.modbus.Spent 0) := by
  have h := (machine_sound inet).reachable hs
  refine ⟨fun n g hn hheld => ?_, fun g hg => ?_⟩
  · have hlt := (List.getElem?_eq_some_iff.1 hn).1
    by_contra hne
    have hretired := h.retired n g hn (by omega)
    exact absurd (hretired.1.symm.trans hheld) (by decide)
  · have hlife := Chain.reachable_lifetime (h.sound g hg).reachable
    exact ⟨hlife.dangling, hlife.destroyed⟩

/-! ### The stream of candidates -/

/-- What the observers of the service have heard of its chains. -/
def candidates (s : DiscoveryService) : List Candidate :=
  s.generations.flatMap fun g => g.chain.forwarded

theorem Sound.candidates_grow (h : Sound inet s) {e : Event} (he : s.Enabled e) :
    s.candidates <+: (s.next inet e).candidates := by
  cases e with
  | startSunspec primary locals =>
    simp only [DiscoveryService.next]
    split
    · rw [candidates, candidates, List.flatMap_append]
      exact List.prefix_append _ _
    · exact List.prefix_rfl
  | chain n e =>
    obtain ⟨g, hg, -⟩ := he
    obtain ⟨hlt, rfl⟩ := List.getElem?_eq_some_iff.1 hg
    have hsplit : s.generations = s.generations.take n ++
        s.generations[n] :: s.generations.drop (n + 1) := by simp
    rw [candidates, candidates, DiscoveryService.next, List.modify_eq_take_cons_drop hlt]
    conv_lhs => rw [hsplit]
    rw [List.flatMap_append, List.flatMap_append, List.flatMap_cons, List.flatMap_cons]
    dsimp only
    rw [Chain.next_forwarded, List.prefix_append_right_inj]
    -- only the last chain is held
    rcases Nat.lt_or_ge (n + 1) s.generations.length with hlt' | hge
    · rw [(h.retired n _ hg hlt').1, if_neg Bool.false_ne_true]
    · rw [List.drop_eq_nil_of_le hge, List.flatMap_nil, List.append_nil, List.append_nil]
      split
      · exact List.prefix_append _ _
      · exact List.prefix_rfl

/-- The observers of the service hear one chain after the other, and of each chain every
candidate once and behind its cause, for hosts of the network only. -/
theorem candidates_in_order (h : inet.Lawful) (hs : (machine inet).Reachable s) :
    (∀ e, s.Enabled e → s.candidates <+: (s.next inet e).candidates) ∧
      ∀ g ∈ s.generations, ∃ address, Covers inet g address ∧
        ∀ before candidate after, g.chain.forwarded = before ++ candidate :: after →
          Chain.Caused g.options before candidate := by
  have hsound := (machine_sound inet).reachable hs
  refine ⟨fun e he => hsound.candidates_grow he, fun g hg => ?_⟩
  have hruns := hsound.sound g hg
  obtain ⟨address, hcovers⟩ := hruns.covers h
  have hu : g.options.modbus.unitIds.Nodup := hcovers.unitIds ▸ List.nodup_singleton 1
  exact ⟨address, hcovers, fun _ _ _ hsplit =>
    (Chain.reachable_history hruns.reachable hcovers.nodup hu).entry hsplit⟩

/-- The device is found. -/
def found : List Event :=
  scanned ++ [.scan 0 (.reply 0 [0x5375, 0x6e53, 1, 65]), .scan 0 (.reply 1 (.replicate 65 0)),
    .scan 0 (.reply 2 [0xffff, 0]), .run []].map (fun e => .chain 0 (.sunspec e)) ++
    [.chain 0 .hearSunspec]

theorem found_reachable : (machine dottedDecimal).Reachable (found.foldl (next dottedDecimal) {}) :=
  (Machine.Reachable.init rfl).run (Machine.run_of_runs (by decide +kernel))

theorem candidates_in_order_found :
    (∀ g ∈ (found.foldl (next dottedDecimal) {}).generations,
      ∃ address, Covers dottedDecimal g address ∧
        ∀ before candidate after, g.chain.forwarded = before ++ candidate :: after →
          Chain.Caused g.options before candidate) ∧
    (found.foldl (next dottedDecimal) {}).candidates.length = 3 :=
  ⟨(candidates_in_order dottedDecimal_lawful found_reachable).2, by decide +kernel⟩

/-- The chain is stopped when its scan has begun, and handed to the loop. -/
def stopped : List Chain.Event :=
  started ++ [.stopSunspecChain, .hearSunspec, .sunspec (.run []), .sunspec (.run []),
    .sunspec (.run []), .hearSunspec, .sunspec (.run []), .queueInLoop]

/-- The loop comes to the end of it. -/
def released : List Chain.Event :=
  [.runModbus true, .runModbus true, .hearModbus, .destroy, .runModbus true]

/-- The next chain is started before the first one is gone. -/
def restarted : List Event :=
  .startSunspec home home :: stopped.map (.chain 0) ++
    .startSunspec home home :: released.map (.chain 0)

theorem chains_end_safely_restarted :
    (∀ g ∈ (restarted.foldl (next dottedDecimal) {}).generations, g.chain.dangling = false ∧
      (g.chain.destroyed = true → g.chain.modbus.Spent 0)) ∧
    (restarted.foldl (next dottedDecimal) {}).generations.map
      (fun g => (g.chain.held, g.chain.destroyed)) = [(false, true), (true, false)] :=
  ⟨(chains_end_safely
    ((Machine.Reachable.init rfl).run (Machine.run_of_runs (by decide +kernel)))).2,
    by decide +kernel⟩

end DiscoveryService

end Neubau.Bootstrap
