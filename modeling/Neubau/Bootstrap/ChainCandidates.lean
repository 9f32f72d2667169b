import Neubau.Bootstrap.ChainScans
import Neubau.Sunspec.DiscoveryEmissions
import Neubau.Transition.History

/-! What a chain forwards to the service, and in which order. A service that holds the
chain hears of every stage; so an open port comes before the things behind it, and a
Modbus thing before what a scan has found of its unit. -/

namespace Neubau.Bootstrap.Chain

open Neubau.Common Neubau.Modbus Neubau.Sunspec Neubau.Transition
open Neubau.Common.PortScannerSession (pairs)
open Neubau.Modbus.Discovery (observedThings)
open Neubau.Sunspec.Discovery.State (unit)

variable {o : StageOptions} {c t : Chain}

/-! ### Candidates by the stage they come from -/

def openPorts (l : List Candidate) : List OpenPort :=
  l.filterMap fun | .openPort port => some port | _ => none

def modbusThings (l : List Candidate) : List ModbusThing :=
  l.filterMap fun | .modbusThing thing => some thing | _ => none

def sunspecThings (l : List Candidate) : List SunspecThing :=
  l.filterMap fun | .sunspecThing thing => some thing | _ => none

/-- What a SunSpec discovery has told its observer. -/
def emittedThings (log : List Sunspec.Discovery.Effect) : List SunspecThing :=
  log.filterMap fun | .onNext _ thing => some thing | _ => none

/-- A partial inverse picks out what was put in. -/
theorem mem_filterMap_iff {α β : Type*} {f : α → Option β} {g : β → α} {y : β}
    (h : ∀ x, f x = some y ↔ x = g y) {l : List α} : y ∈ l.filterMap f ↔ g y ∈ l := by
  rw [List.mem_filterMap]
  refine ⟨fun ⟨x, hx, heq⟩ => (h x).1 heq ▸ hx, fun hy => ⟨g y, hy, (h (g y)).2 rfl⟩⟩

theorem mem_openPorts {l : List Candidate} {port : OpenPort} :
    port ∈ openPorts l ↔ .openPort port ∈ l :=
  mem_filterMap_iff fun x => by cases x <;> simp

theorem mem_modbusThings {l : List Candidate} {thing : ModbusThing} :
    thing ∈ modbusThings l ↔ .modbusThing thing ∈ l :=
  mem_filterMap_iff fun x => by cases x <;> simp

theorem mem_sunspecThings {l : List Candidate} {thing : SunspecThing} :
    thing ∈ sunspecThings l ↔ .sunspecThing thing ∈ l :=
  mem_filterMap_iff fun x => by cases x <;> simp

theorem mem_emittedThings {log : List Sunspec.Discovery.Effect} {thing : SunspecThing} :
    thing ∈ emittedThings log ↔ ∃ i, .onNext i thing ∈ log := by
  refine List.mem_filterMap.trans ⟨?_, fun ⟨i, h⟩ => ⟨_, h, rfl⟩⟩
  rintro ⟨e, he, heq⟩
  cases e <;> cases heq
  exact ⟨_, he⟩

/-! ### The logs -/

theorem next_logs (hc : (machine o).Reachable c) {e : Event} (he : c.Enabled e) :
    c.scanner.log <+: (c.next o e).scanner.log ∧
      c.sunspec.state.log <+: (c.next o e).sunspec.state.log := by
  obtain ⟨hs, hd⟩ := (sees_sunspec o).invariant (Sunspec.Discovery.machine_duties o.sunspec) hc
  constructor
  · rcases next_scanner (o := o) he with heq | ⟨d, -, heq⟩
    · rw [heq]
    · rw [heq]
      exact (PortScannerSession.step_goes c.scanner d).1
  · rcases next_sunspec (o := o) he with heq | ⟨d, -, heq⟩
    · rw [heq]
    · rw [heq]
      exact (Sunspec.Discovery.step_extends hs hd d).1.log

/-! ### What the service hears of -/

/-- What the service has been forwarded is what each stage has told of, as far as it was
heard. -/
structure Forwards (c : Chain) : Prop where
  ports : openPorts c.forwarded = ports (c.scanner.log.take c.reported)
  things : modbusThings c.forwarded = observedThings (c.modbus.log.take c.told)
  found : sunspecThings c.forwarded = emittedThings (c.sunspec.state.log.take c.called)

/-- What a stage tells of next is forwarded. -/
theorem Forwards.append (h : c.Forwards) {new : List Candidate}
    (hforwarded : t.forwarded = c.forwarded ++ new)
    (hports : Chain.ports (t.scanner.log.take t.reported) =
      Chain.ports (c.scanner.log.take c.reported) ++ openPorts new)
    (hthings : observedThings (t.modbus.log.take t.told) =
      observedThings (c.modbus.log.take c.told) ++ modbusThings new)
    (hfound : emittedThings (t.sunspec.state.log.take t.called) =
      emittedThings (c.sunspec.state.log.take c.called) ++ sunspecThings new) : t.Forwards where
  ports := by rw [hforwarded, hports, ← h.ports, openPorts, List.filterMap_append]; rfl
  things := by rw [hforwarded, hthings, ← h.things, modbusThings, List.filterMap_append]; rfl
  found := by rw [hforwarded, hfound, ← h.found, sunspecThings, List.filterMap_append]; rfl

/-- What an event forwards, where the service holds the chain. -/
def news (c : Chain) : Event → List Candidate
  | .hearScanner => (ports (c.scanner.log[c.reported]?).toList).map .openPort
  | .hearModbus => (observedThings (c.modbus.log[c.told]?).toList).map .modbusThing
  | .hearSunspec => (emittedThings (c.sunspec.state.log[c.called]?).toList).map .sunspecThing
  | _ => []

theorem next_forwarded (c : Chain) (e : Event) : (c.next o e).forwarded =
    if c.held then c.forwarded ++ c.news e else c.forwarded := by
  have hnone : c.forwarded = if c.held then c.forwarded ++ [] else c.forwarded := by simp
  cases e with
  | hearScanner =>
    cases hget : c.scanner.log[c.reported]? with
    | none => simp [next, news, hget, ports]
    | some e => cases e <;> simp [next, news, hget, hearEmission, forward, ports]
  | hearModbus =>
    cases hget : c.modbus.log[c.told]? with
    | none => simp [next, news, hget, observedThings]
    | some e =>
      cases e <;> simp [next, news, hget, hearEffect, hearUpstream, forward, observedThings]
  | hearSunspec =>
    cases hget : c.sunspec.state.log[c.called]? with
    | none => simp [next, news, hget, emittedThings]
    | some e => cases e <;> simp [next, news, hget, obey, forward, emittedThings]
  | _ => exact hnone

theorem next_counts {e : Event} (he : c.Enabled e) :
    (c.next o e).reported = (if e = .hearScanner then c.reported + 1 else c.reported) ∧
      (c.next o e).told = (if e = .hearModbus then c.told + 1 else c.told) ∧
      (c.next o e).called = if e = .hearSunspec then c.called + 1 else c.called := by
  cases e with
  | hearScanner =>
    cases hget : c.scanner.log[c.reported]? with
    | none => exact absurd he.2.2.2 (not_lt.2 (List.getElem?_eq_none_iff.1 hget))
    | some emission =>
      rw [next, hget]
      cases emission <;> exact ⟨rfl, rfl, rfl⟩
  | hearModbus =>
    cases hget : c.modbus.log[c.told]? with
    | none => exact absurd he.2.2 (not_lt.2 (List.getElem?_eq_none_iff.1 hget))
    | some effect =>
      rw [next, hget]
      cases effect <;> exact ⟨rfl, rfl, rfl⟩
  | hearSunspec =>
    cases hget : c.sunspec.state.log[c.called]? with
    | none => exact absurd he (not_lt.2 (List.getElem?_eq_none_iff.1 hget))
    | some effect =>
      rw [next, hget]
      cases effect <;> exact ⟨rfl, rfl, rfl⟩
  | _ => exact ⟨rfl, rfl, rfl⟩

theorem reachable_forwards (hc : (machine o).Reachable c) (hheld : c.held = true) :
    c.Forwards := by
  revert hheld
  refine hc.keeps (P := fun c => c.held = true → c.Forwards) (fun c hc _ => ?_)
    fun c e hc ih he hheld => ?_
  · obtain rfl : c = create o := hc
    exact ⟨rfl, rfl, rfl⟩
  have hport := reachable_portLink hc
  have hlink := reachable_upstreamLink hc
  obtain ⟨hscanner, hsunspec⟩ := next_logs hc he
  have hmodbus := (next_modbusKeeps hc he).log
  obtain ⟨hreported, htold, hcalled⟩ := next_counts (o := o) he
  have hbefore := held_of_next hheld
  have hforwarded := next_forwarded (o := o) c e
  rw [hbefore, if_pos rfl] at hforwarded
  refine (ih hbefore).append hforwarded ?_ ?_ ?_
  · show Chain.ports ((c.next o e).scanner.log.take (c.next o e).reported) = _
    rw [hreported]
    split_ifs with hhear
    · subst hhear
      rw [take_eq_of_isPrefix hscanner he.2.2.2, List.take_add_one, Chain.ports,
        List.filterMap_append]
      simp [news, openPorts, Chain.ports]
    · rw [take_eq_of_isPrefix hscanner hport.reported]
      cases e <;> simp [news, openPorts] at hhear ⊢
  · show observedThings ((c.next o e).modbus.log.take (c.next o e).told) = _
    rw [htold]
    split_ifs with hhear
    · subst hhear
      rw [take_eq_of_isPrefix hmodbus he.2.2, List.take_add_one, observedThings_append]
      simp [news, modbusThings]
    · rw [take_eq_of_isPrefix hmodbus hlink.told]
      cases e <;> simp [news, modbusThings] at hhear ⊢
  · show emittedThings ((c.next o e).sunspec.state.log.take (c.next o e).called) = _
    rw [hcalled]
    split_ifs with hhear
    · subst hhear
      rw [take_eq_of_isPrefix hsunspec he, List.take_add_one, emittedThings, List.filterMap_append]
      simp [news, sunspecThings, emittedThings]
    · rw [take_eq_of_isPrefix hsunspec hlink.called]
      cases e <;> simp [news, sunspecThings] at hhear ⊢

/-! ### The units scanned -/

/-- A unit is scanned when the run hears of a thing of it. -/
theorem next_units (hc : (machine o).Reachable c) {e : Event} (he : c.Enabled e) :
    (c.next o e).sunspec.state.units = c.sunspec.state.units ∨
      ∃ thing, e = .hearModbus ∧ c.modbus.log[c.told]? = some (.onNext thing) ∧
        (c.next o e).sunspec.state.units = c.sunspec.state.units ++ [unit thing] := by
  obtain ⟨hs, -⟩ := (sees_sunspec o).invariant (Sunspec.Discovery.machine_duties o.sunspec) hc
  have hstep {d : Sunspec.Discovery.Event} (hd : c.sunspec.Enabled d)
      (hne : ∀ candidate, d ≠ .upstreamCandidate candidate) :
      (Sunspec.Discovery.step o.sunspec c.sunspec d).state.units = c.sunspec.state.units :=
    (Sunspec.Discovery.step_units hs hd).resolve_right fun ⟨candidate, heq, _⟩ => hne candidate heq
  have hheard (t : Chain) (ht : t.sunspec = c.sunspec) (ha : c.sunspec.actions = [])
      {d : Sunspec.Discovery.Event} (hne : ∀ candidate, d ≠ .upstreamCandidate candidate)
      (hd : c.sunspec.AtRest ∧ c.sunspec.state.subscribed = true → c.sunspec.Enabled d) :
      (t.hearUpstream o d).sunspec.state.units = c.sunspec.state.units := by
    rw [hearUpstream, ht]
    dsimp only
    split_ifs with hdeaf
    · rfl
    · rw [Bool.or_eq_true, not_or, Bool.not_eq_true'] at hdeaf
      exact hstep (hd ⟨.inl ha, by simpa using hdeaf.2⟩) hne
  cases e with
  | sunspec d =>
    refine .inl (hstep he.2.2.1 fun candidate heq => ?_)
    have hown := he.2.1
    rw [heq] at hown
    exact hown
  | stopSunspecChain => exact .inl (hstep (d := .stop) (.inl he.1.actions) (by simp))
  | hearModbus =>
    cases hget : c.modbus.log[c.told]? with
    | none => exact absurd he.2.2 (not_lt.2 (List.getElem?_eq_none_iff.1 hget))
    | some effect =>
      have hnext : c.next o .hearModbus = { c with told := c.told + 1 }.hearEffect o effect := by
        simp only [next, hget]
      rw [hnext]
      cases effect with
      | onNext thing =>
        simp only [hearEffect, hearUpstream, forward]
        split_ifs with hdeaf
        · exact .inl rfl
        · rw [Bool.or_eq_true, not_or, Bool.not_eq_true'] at hdeaf
          refine (Sunspec.Discovery.step_units hs (e := .upstreamCandidate thing)
            ⟨.inl he.1, by simpa using hdeaf.2⟩).imp_right ?_
          rintro ⟨candidate, heq, hunits⟩
          cases heq
          exact ⟨_, trivial, rfl, hunits⟩
      | onCompleted => exact .inl (hheard _ rfl he.1 (by simp) id)
      | onError error => exact .inl (hheard _ rfl he.1 (by simp) id)
      | _ => exact .inl rfl
  | hearScanner =>
    obtain ⟨_, _, _, heq⟩ := hearScanner_frame (o := o) c
    exact .inl (by rw [heq])
  | hearSunspec =>
    obtain ⟨_, _, _, heq⟩ := hearSunspec_frame (o := o) c
    exact .inl (by rw [heq])
  | _ => exact .inl rfl

/-- The units that the SunSpec discovery scans are those it was told of, in their order. -/
theorem reachable_units (hc : (machine o).Reachable c) : c.sunspec.state.units.Sublist
    ((observedThings (c.modbus.log.take c.told)).map unit) := by
  refine hc.keeps (P := fun c => c.sunspec.state.units.Sublist
    ((observedThings (c.modbus.log.take c.told)).map unit)) (fun c hc => ?_) fun c e hc h he => ?_
  · obtain rfl : c = create o := hc
    exact List.nil_sublist _
  have hmodbus := (next_modbusKeeps hc he).log
  obtain ⟨-, htold, -⟩ := next_counts (o := o) he
  show (c.next o e).sunspec.state.units.Sublist
    ((observedThings ((c.next o e).modbus.log.take (c.next o e).told)).map unit)
  rw [htold]
  rcases next_units hc he with hunits | ⟨thing, rfl, hget, hunits⟩
  · rw [hunits]
    refine h.trans (List.Sublist.map unit (List.Sublist.filterMap _ ?_))
    rw [← take_eq_of_isPrefix hmodbus (reachable_upstreamLink hc).told]
    exact List.take_sublist_take_left (by split_ifs <;> omega)
  · rw [hunits, if_pos rfl, take_eq_of_isPrefix hmodbus he.2.2, List.take_add_one, hget,
      observedThings_append, List.map_append]
    exact h.append (List.Sublist.refl _)

theorem units_of_jobs {things : List ModbusThing} (h : (things.map ModbusThing.job).Nodup) :
    (things.map unit).Nodup := by
  refine h.of_map.map_on fun a ha b hb heq => List.inj_on_of_nodup_map h ha hb ?_
  obtain ⟨htarget, hid⟩ := Prod.mk.inj heq
  obtain ⟨haddress, hport⟩ := ModbusEndpoint.mk.inj htarget
  rw [ModbusThing.job, ModbusThing.job, haddress, hport, hid]

/-! ### Causes -/

/-- What a candidate follows upon, and that it comes once. -/
def Caused (o : StageOptions) (before : List Candidate) : Candidate → Prop
  | .openPort port => port ∈ pairs o.scanner ∧ .openPort port ∉ before
  | .modbusThing thing =>
    .openPort { address := thing.address, port := thing.port } ∈ before ∧
      thing.unitId ∈ o.modbus.unitIds ∧
      ∀ other, .modbusThing other ∈ before → other.job ≠ thing.job
  | .sunspecThing thing =>
    (∃ candidate, .modbusThing candidate ∈ before ∧
      unit candidate = (thing.endpoint, thing.unitId)) ∧
      Table ⟨o.sunspec, some thing.unitId, fun _ => thing.endpoint⟩ thing.modelLocations ∧
      ∀ other, .sunspecThing other ∈ before →
        (other.endpoint, other.unitId) ≠ (thing.endpoint, thing.unitId)
  | .mdnsService _ => False

/-- The next port that was found open is forwarded for the first time. -/
theorem Forwards.openPort (h : c.Forwards) (hs : c.scanner.Core o.scanner)
    (hn : (pairs o.scanner).Nodup) {n : ℕ} {port : OpenPort}
    (hget : c.scanner.log[c.reported]? = some (.onNext n port)) :
    Caused o c.forwarded (.openPort port) := by
  obtain ⟨hnodup, hpairs⟩ := ports_nodup hs hn
  have htake : Chain.ports (c.scanner.log.take (c.reported + 1)) =
      openPorts c.forwarded ++ [port] := by
    rw [take_succ_of_getElem? hget, h.ports, Chain.ports, List.filterMap_append]
    rfl
  have hsub : (openPorts c.forwarded ++ [port]).Sublist (Chain.ports c.scanner.log) :=
    htake ▸ (List.take_sublist _ _).filterMap _
  refine ⟨hpairs (hsub.subset (by simp)), fun hmem => ?_⟩
  have hdisjoint := (List.nodup_append.1 (hnodup.sublist hsub)).2.2
  exact hdisjoint _ (mem_openPorts.2 hmem) _ (List.mem_singleton_self port) rfl

/-- The next thing of the Modbus discovery is of a port that was forwarded. -/
theorem Forwards.modbusThing (h : c.Forwards) (hc : (machine o).Reachable c)
    (hn : (pairs o.scanner).Nodup) (hu : o.modbus.unitIds.Nodup) {thing : ModbusThing}
    (hget : c.modbus.log[c.told]? = some (.onNext thing)) :
    Caused o c.forwarded (.modbusThing thing) := by
  have hscanner := (sees_scanner o).invariant PortScannerSession.machine_sound hc
  obtain ⟨hs, ht⟩ := (sees_modbus o).invariant (Modbus.Discovery.machine_traced o.modbus) hc
  obtain ⟨hports, -⟩ := ports_nodup hscanner.toCore hn
  obtain ⟨hjobs, hof⟩ := ht.units hs (jobs_nodup hu (hports.sublist (arrived_sublist hc)))
  have htake : observedThings (c.modbus.log.take (c.told + 1)) =
      modbusThings c.forwarded ++ [thing] := by
    rw [observedThings_take_succ hget, h.things]
    rfl
  have hsub : (modbusThings c.forwarded ++ [thing]).Sublist (observedThings c.modbus.log) :=
    htake ▸ (List.take_sublist _ _).filterMap _
  obtain ⟨port, hport, hjob⟩ := List.mem_flatMap.1 (hof thing (hsub.subset (by simp)))
  obtain ⟨unitId, hunit, heq⟩ := List.mem_map.1 hjob
  obtain ⟨haddress, hnumber, hid⟩ := Modbus.Discovery.Job.mk.inj heq
  rw [(reachable_portLink hc).arrived, ← h.ports, mem_openPorts] at hport
  refine ⟨?_, hid ▸ hunit, fun other hother hsame => ?_⟩
  · cases port
    rwa [← haddress, ← hnumber]
  · have hnodup := hjobs.sublist (hsub.map ModbusThing.job)
    rw [List.map_append, List.nodup_append] at hnodup
    exact hnodup.2.2 _ (List.mem_map_of_mem (mem_modbusThings.2 hother)) _
      (List.mem_singleton_self _) hsame

theorem candidates_pos {log : List Sunspec.Discovery.Effect} {i : ℕ} {thing : SunspecThing}
    (h : .onNext i thing ∈ log) : 0 < Sunspec.Discovery.candidates i log :=
  List.countP_pos_iff.2 ⟨_, h, beq_self_eq_true i⟩

/-- The next thing of the SunSpec discovery was found by a scan of its unit. -/
theorem Forwards.sunspecThing (h : c.Forwards) (hc : (machine o).Reachable c)
    (hn : (pairs o.scanner).Nodup) (hu : o.modbus.unitIds.Nodup) {i : ℕ} {thing : SunspecThing}
    (hget : c.sunspec.state.log[c.called]? = some (.onNext i thing)) :
    Caused o c.forwarded (.sunspecThing thing) := by
  obtain ⟨hs, hemits⟩ := (sees_sunspec o).invariant (Sunspec.Discovery.machine_emits o.sunspec) hc
  obtain ⟨hunit, htable⟩ := hemits.sound hs.sound (List.mem_of_getElem? hget)
  have hunits := reachable_units hc
  rw [← h.things] at hunits
  obtain ⟨candidate, hcandidate, heq⟩ :=
    List.mem_map.1 (hunits.subset (List.mem_of_getElem? hunit))
  refine ⟨⟨candidate, mem_modbusThings.1 hcandidate, heq⟩, htable, fun other hother hsame => ?_⟩
  rw [← mem_sunspecThings, h.found, mem_emittedThings] at hother
  obtain ⟨j, hj⟩ := hother
  obtain ⟨hunit', -⟩ := hemits.sound hs.sound (List.mem_of_mem_take hj)
  -- two things of one unit are two candidates of one endpoint
  have hnodup : c.sunspec.state.units.Nodup := by
    refine List.Nodup.sublist hunits (units_of_jobs ?_)
    rw [h.things]
    exact (units_nodup hc hn hu).1.sublist (((List.take_sublist _ _).filterMap _).map _)
  rw [hsame] at hunit'
  obtain rfl := (List.getElem?_inj (List.getElem?_eq_some_iff.1 hunit').1 hnodup).1
    (hunit'.trans hunit.symm)
  have hle : Sunspec.Discovery.candidates j (c.sunspec.state.log.take (c.called + 1)) ≤ 1 :=
    ((List.take_sublist _ _).countP_le).trans (hs.sound.logged.once j)
  rw [take_succ_of_getElem? hget, Sunspec.Discovery.State.candidates_append] at hle
  have hbefore := candidates_pos hj
  have hnew := candidates_pos (List.mem_singleton_self (Sunspec.Discovery.Effect.onNext j thing))
  omega

/-- The service hears of every candidate of a chain once, and of its cause before it. -/
theorem reachable_history (hc : (machine o).Reachable c) (hn : (pairs o.scanner).Nodup)
    (hu : o.modbus.unitIds.Nodup) : History (Caused o) c.forwarded := by
  refine hc.keeps (P := fun c => History (Caused o) c.forwarded) (fun c hc => ?_)
    fun c e hc ih he => ?_
  · obtain rfl : c = create o := hc
    exact .nil
  show History (Caused o) (c.next o e).forwarded
  rw [next_forwarded]
  split_ifs with hheld
  · have h := reachable_forwards hc hheld
    have hscanner := (sees_scanner o).invariant PortScannerSession.machine_sound hc
    have hone {candidate : Candidate} (hcaused : Caused o c.forwarded candidate) :
        History (Caused o) (c.forwarded ++ [candidate]) := ih.snoc hcaused
    have hnone : History (Caused o) (c.forwarded ++ []) := by rwa [List.append_nil]
    cases e with
    | hearScanner =>
      cases hget : c.scanner.log[c.reported]? with
      | none => simpa [news, hget, ports] using hnone
      | some emission =>
        cases emission with
        | onNext n port =>
          simpa [news, hget, ports] using hone (h.openPort hscanner.toCore hn hget)
        | onCompleted => simpa [news, hget, ports] using hnone
    | hearModbus =>
      cases hget : c.modbus.log[c.told]? with
      | none => simpa [news, hget, observedThings] using hnone
      | some effect =>
        cases effect with
        | onNext thing =>
          simpa [news, hget, observedThings] using hone (h.modbusThing hc hn hu hget)
        | _ => simpa [news, hget, observedThings] using hnone
    | hearSunspec =>
      cases hget : c.sunspec.state.log[c.called]? with
      | none => simpa [news, hget, emittedThings] using hnone
      | some effect =>
        cases effect with
        | onNext i thing =>
          simpa [news, hget, emittedThings] using hone (h.sunspecThing hc hn hu hget)
        | _ => simpa [news, hget, emittedThings] using hnone
    | _ => exact hnone
  · exact ih

end Neubau.Bootstrap.Chain
