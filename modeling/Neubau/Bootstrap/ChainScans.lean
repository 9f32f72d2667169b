import Neubau.Bootstrap.ChainLinks

/-! What a chain scans. The ports that arrive were found open, one report for each; an
identification is started once for each unit of them, and what it finds is told of
once. So where the units of one endpoint are not told apart, the endpoints that the
SunSpec discovery opens differ, and each has one scan. -/

namespace Neubau.Bootstrap.Chain

open Neubau.Common Neubau.Modbus Neubau.Sunspec Neubau.Transition
open Modbus.Discovery (observedThings)
open PortScannerSession (pairs)
open Sunspec.Discovery.State (target)

variable {o : StageOptions} {c : Chain}

/-! ### The ports found open -/

/-- What was told of, with the connectors that found it. -/
def found (log : List Emission) : List (ℕ × OpenPort) :=
  log.filterMap fun | .onNext n port => some (n, port) | .onCompleted => none

theorem ports_eq (log : List Emission) : ports log = (found log).map Prod.snd := by
  rw [ports, found, List.map_filterMap]
  refine List.filterMap_congr fun e _ => ?_
  cases e <;> rfl

theorem emitted_eq (log : List Emission) :
    PortScannerSession.emitted log = (found log).map Prod.fst := by
  rw [PortScannerSession.emitted, found, List.map_filterMap]
  refine List.filterMap_congr fun e _ => ?_
  cases e <;> rfl

theorem mem_found {log : List Emission} {n : ℕ} {port : OpenPort} :
    (n, port) ∈ found log ↔ .onNext n port ∈ log := by
  rw [found, List.mem_filterMap]
  constructor
  · rintro ⟨e, he, heq⟩
    cases e with
    | onNext m p =>
      obtain ⟨rfl, rfl⟩ := Prod.mk.inj (Option.some.inj heq)
      exact he
    | onCompleted => cases heq
  · intro h
    exact ⟨_, h, rfl⟩

/-- A port scan of pairs that differ reports no port twice. -/
theorem ports_nodup {s : PortScannerSession} (h : s.Core o.scanner)
    (hn : (pairs o.scanner).Nodup) : (ports s.log).Nodup ∧ ports s.log ⊆ pairs o.scanner := by
  have hpair : ∀ p ∈ found s.log, (pairs o.scanner)[p.1]? = some p.2 := by
    rintro ⟨n, port⟩ hp
    obtain ⟨connector, hc, htarget, -⟩ := h.values n port (mem_found.1 hp)
    have hlt := (List.getElem?_eq_some_iff.1 hc).1
    have hget : (s.connectors.map Connector.target)[n]? = some port := by
      rw [List.getElem?_map, hc, Option.map_some, htarget]
    rw [h.targets, List.getElem?_take_of_lt hlt] at hget
    exact hget
  have honce := h.once
  rw [emitted_eq] at honce
  rw [ports_eq]
  constructor
  · refine List.Nodup.map_on (fun p hp q hq heq => ?_) honce.of_map
    have hp' := hpair p hp
    have hq' := hpair q hq
    rw [← heq] at hq'
    have hlt := (List.getElem?_eq_some_iff.1 hp').1
    exact Prod.ext ((List.getElem?_inj hlt hn).1 (hp'.trans hq'.symm)) heq
  · intro port hport
    obtain ⟨p, hp, rfl⟩ := List.mem_map.1 hport
    exact List.mem_of_getElem? (hpair p hp)

theorem pairs_nodup {p : PortScannerOptions} (ha : p.addresses.Nodup) (hp : p.ports.Nodup) :
    (pairs p).Nodup := by
  rw [pairs, List.nodup_flatMap]
  refine ⟨fun address _ => hp.map fun a b hab => (OpenPort.mk.inj hab).2, ?_⟩
  refine ha.imp fun {a b} hab x hx hy => hab ?_
  obtain ⟨port, -, rfl⟩ := List.mem_map.1 hx
  obtain ⟨port', -, heq⟩ := List.mem_map.1 hy
  exact (OpenPort.mk.inj heq).1.symm

/-- The ports that have arrived are reports of the scan. -/
theorem arrived_sublist (hc : (machine o).Reachable c) :
    c.modbus.arrived.Sublist (ports c.scanner.log) := by
  rw [(reachable_portLink hc).arrived]
  exact (List.take_sublist _ _).filterMap _

/-! ### The units identified -/

theorem jobs_nodup {u : Modbus.Discovery.Options} {arrived : List OpenPort}
    (hu : u.unitIds.Nodup) (ha : arrived.Nodup) :
    (arrived.flatMap (Modbus.Discovery.Session.jobs u)).Nodup := by
  rw [List.nodup_flatMap]
  refine ⟨fun port _ => hu.map fun a b hab => (Modbus.Discovery.Job.mk.inj hab).2.2, ?_⟩
  refine ha.imp fun {a b} hab x hx hy => hab ?_
  obtain ⟨unit, -, rfl⟩ := List.mem_map.1 hx
  obtain ⟨unit', -, heq⟩ := List.mem_map.1 hy
  obtain ⟨haddress, hport, -⟩ := Modbus.Discovery.Job.mk.inj heq
  cases a
  cases b
  exact congrArg₂ OpenPort.mk haddress.symm hport.symm

/-- The things that a chain is told of are of units that differ, behind ports that were
found open. -/
theorem units_nodup (hc : (machine o).Reachable c) (hn : (pairs o.scanner).Nodup)
    (hu : o.modbus.unitIds.Nodup) :
    ((observedThings c.modbus.log).map ModbusThing.job).Nodup ∧
      ∀ thing ∈ observedThings c.modbus.log, thing.unitId ∈ o.modbus.unitIds ∧
        { address := thing.address, port := thing.port } ∈ ports c.scanner.log := by
  have hscanner := (sees_scanner o).invariant PortScannerSession.machine_sound hc
  obtain ⟨hs, ht⟩ := (sees_modbus o).invariant (Modbus.Discovery.machine_traced o.modbus) hc
  obtain ⟨hports, -⟩ := ports_nodup hscanner.toCore hn
  have harrived := arrived_sublist hc
  obtain ⟨hnodup, hjobs⟩ := ht.units hs (jobs_nodup hu (hports.sublist harrived))
  refine ⟨hnodup, fun thing hthing => ?_⟩
  obtain ⟨port, hport, hjob⟩ := List.mem_flatMap.1 (hjobs thing hthing)
  obtain ⟨unit, hunit, heq⟩ := List.mem_map.1 hjob
  obtain ⟨haddress, hnumber, hid⟩ := Modbus.Discovery.Job.mk.inj heq
  have hfound := harrived.subset hport
  cases port
  exact ⟨hid ▸ hunit, by rwa [← haddress, ← hnumber]⟩

/-- Where one unit is asked for behind each port, the endpoints opened differ, and they
were found open. -/
theorem opened_nodup (hc : (machine o).Reachable c) (hn : (pairs o.scanner).Nodup) {u : UInt8}
    (hu : o.modbus.unitIds = [u]) :
    c.sunspec.state.opened.Nodup ∧ ∀ x ∈ c.sunspec.state.opened,
      { address := x.address, port := x.port } ∈ ports c.scanner.log := by
  obtain ⟨hjobs, hthings⟩ := units_nodup hc hn (hu ▸ List.nodup_singleton u)
  have hunit (thing : ModbusThing) (hthing : thing ∈ observedThings c.modbus.log) :
      thing.unitId = u := by
    have hmem := (hthings thing hthing).1
    rwa [hu, List.mem_singleton] at hmem
  have htold : (observedThings (c.modbus.log.take c.told)).Sublist
      (observedThings c.modbus.log) := (List.take_sublist _ _).filterMap _
  have hopened := (reachable_upstreamLink hc).opened.trans (htold.map target)
  constructor
  · refine List.Nodup.sublist hopened (List.Nodup.map_on (fun a ha b hb heq => ?_) hjobs.of_map)
    refine List.inj_on_of_nodup_map hjobs ha hb ?_
    obtain ⟨haddress, hport⟩ := ModbusEndpoint.mk.inj heq
    simp only [ModbusThing.job, haddress, hport, hunit a ha, hunit b hb]
  · intro x hx
    obtain ⟨thing, hthing, rfl⟩ := List.mem_map.1 (hopened.subset hx)
    exact (hthings thing hthing).2

end Neubau.Bootstrap.Chain
