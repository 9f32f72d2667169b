import Neubau.Bootstrap.DiscoveryService
import Neubau.Bootstrap.Registration

/-! What a first scan of the network leaves in the repository. Every unit that a chain
forwards becomes a thing, and no identity that a scan has read is taken for a unit; so
only two devices that read the same identity are one thing. -/

namespace Neubau.Bootstrap

open Neubau.Common Neubau.Modbus Neubau.Sunspec Neubau.Transition
open Neubau.Bootstrap.Chain (modbusThings sunspecThings mem_modbusThings mem_sunspecThings)

variable {p : Persistence} {l before after : List Candidate} {c : Candidate}

/-- The id of the thing that a candidate of a chain makes. -/
def Candidate.id : Candidate → Option Bytes
  | .modbusThing thing => some thing.id
  | .sunspecThing thing => some thing.id
  | _ => none

/-- The candidate comes from a scan of the network. -/
def Candidate.Scanned : Candidate → Prop
  | .mdnsService _ => False
  | _ => True

/-- The factories make a thing of every unit and of every device. -/
theorem answer_scanned (hc : c.Scanned) (before : List Candidate) :
    idOf (answer before c) = c.id ∧ ∀ e, answer before c ≠ .error e := by
  cases c with
  | mdnsService service => exact absurd hc id
  | _ => exact ⟨rfl, fun e h => by cases h⟩

theorem made_scanned (hl : ∀ c ∈ l, c.Scanned) : made l = l.filterMap Candidate.id := by
  induction l using List.reverseRecOn with
  | nil => rfl
  | append_singleton l c ih =>
    rw [made_concat, ih fun c hc => hl c (List.mem_append_left _ hc),
      (answer_scanned (hl c (by simp)) l).1, List.filterMap_append]
    cases hid : c.id <;> simp [hid]

/-! ### Two kinds of ids -/

theorem colon_not_mem_normalize (value : Bytes) : 58 ∉ normalizeSunSpecIdPart value := by
  rw [normalizeSunSpecIdPart, List.mem_map]
  rintro ⟨character, -, heq⟩
  split_ifs at heq with hupper hother
  · obtain ⟨hlow, hhigh⟩ := hupper
    rw [UInt8.le_iff_toNat_le] at hlow hhigh
    have h := congrArg UInt8.toNat heq
    simp [UInt8.toNat_add, UInt8.toNat_sub] at h hlow hhigh
    omega
  · subst heq
    revert hother
    decide
  · exact absurd heq (by decide)

/-- No identity is the id of a unit. -/
theorem sunspec_id_ne (thing : SunspecThing) (unit : ModbusThing) : thing.id ≠ unit.id := by
  intro h
  have hcolon : 58 ∈ unit.id := by
    rw [ModbusThing.id, modbusThingId_eq]
    simp
  rw [← h, SunspecThing.id, sunSpecId] at hcolon
  simp only [List.mem_append, show ascii "_" = [95] by decide, List.mem_singleton] at hcolon
  rcases hcolon with (((h | h) | h) | h) | h
  · exact colon_not_mem_normalize _ h
  · exact absurd h (by decide)
  · exact colon_not_mem_normalize _ h
  · exact absurd h (by decide)
  · exact colon_not_mem_normalize _ h

theorem modbus_id_injective {a b : ModbusThing} (h : a.id = b.id) : a.job = b.job := by
  obtain ⟨haddress, hport, hunit⟩ := modbusThingId_injective h
  rw [ModbusThing.job, ModbusThing.job, haddress, hport, hunit]

theorem mem_ids {id : Bytes} : id ∈ l.filterMap Candidate.id ↔
    id ∈ (modbusThings l).map (·.id) ∨ id ∈ (sunspecThings l).map (·.id) := by
  simp only [List.mem_filterMap, List.mem_map, mem_modbusThings, mem_sunspecThings]
  constructor
  · rintro ⟨c, hc, heq⟩
    cases c with
    | modbusThing thing => exact .inl ⟨thing, hc, Option.some.inj heq⟩
    | sunspecThing thing => exact .inr ⟨thing, hc, Option.some.inj heq⟩
    | _ => cases heq
  · rintro (⟨thing, hthing, rfl⟩ | ⟨thing, hthing, rfl⟩)
    · exact ⟨_, hthing, rfl⟩
    · exact ⟨_, hthing, rfl⟩

/-! ### The first scan -/

variable {o : StageOptions}

theorem scanned_of_history (h : History (Chain.Caused o) l) : ∀ c ∈ l, c.Scanned := by
  intro c hc
  obtain ⟨before, after, rfl⟩ := List.append_of_mem hc
  have hcaused := h.entry rfl
  cases c with
  | mdnsService service => exact hcaused
  | _ => trivial

/-- The id of a unit is new when the unit is forwarded. -/
theorem unit_new {thing : ModbusThing} (hcaused : Chain.Caused o before (.modbusThing thing)) :
    thing.id ∉ before.filterMap Candidate.id := by
  rw [mem_ids, not_or]
  constructor
  · intro hmem
    obtain ⟨other, hother, hid⟩ := List.mem_map.1 hmem
    exact hcaused.2.2 other (mem_modbusThings.1 hother) (modbus_id_injective hid)
  · intro hmem
    obtain ⟨other, -, hid⟩ := List.mem_map.1 hmem
    exact sunspec_id_ne other thing hid

theorem nodup_snoc {α : Type*} {l : List α} {a : α} : (l ++ [a]).Nodup ↔ l.Nodup ∧ a ∉ l := by
  rw [List.nodup_append_comm, List.singleton_append, List.nodup_cons, and_comm]

/-- The ids of a scan are all different if and only if those of its devices are. -/
theorem ids_nodup_iff (h : History (Chain.Caused o) l) :
    (l.filterMap Candidate.id).Nodup ↔ ((sunspecThings l).map (·.id)).Nodup := by
  induction h with
  | nil => exact Iff.rfl
  | @snoc l c h hcaused ih =>
    have hsunspec : sunspecThings (l ++ [c]) = sunspecThings l ++ sunspecThings [c] :=
      List.filterMap_append
    rw [List.filterMap_append, hsunspec, List.map_append]
    cases c with
    | mdnsService service => exact absurd hcaused id
    | openPort port =>
      show (_ ++ []).Nodup ↔ (_ ++ []).Nodup
      rw [List.append_nil, List.append_nil, ih]
    | modbusThing thing =>
      show (_ ++ [thing.id]).Nodup ↔ (_ ++ []).Nodup
      rw [List.append_nil, nodup_snoc, ih]
      exact and_iff_left (unit_new hcaused)
    | sunspecThing thing =>
      show (_ ++ [thing.id]).Nodup ↔ (_ ++ [thing.id]).Nodup
      rw [nodup_snoc, nodup_snoc, ih, mem_ids, not_or]
      refine and_congr_right fun _ => and_iff_right fun hmem => ?_
      obtain ⟨unit, -, hid⟩ := List.mem_map.1 hmem
      exact sunspec_id_ne thing unit hid.symm

/-- What a scan of the network forwards to an empty repository: every unit and every device
is registered, unless two devices have read the same identity. Then the second of them ends
the subscription. -/
theorem first_scan_registers (hp : ∀ id, ∃ name, p.restoreThingName id = .ok name)
    {inet : Inet} (h : inet.Lawful) {s : DiscoveryService}
    (hs : (DiscoveryService.machine inet).Reachable s) {g : Generation} (hg : g ∈ s.generations) :
    ((hear p g.chain.forwarded).error = none ↔
      ((sunspecThings g.chain.forwarded).map (·.id)).Nodup) ∧
    ((hear p g.chain.forwarded).error = none →
      (hear p g.chain.forwarded).system.ids = g.chain.forwarded.filterMap Candidate.id) ∧
    ∀ e, (hear p g.chain.forwarded).error = some e → e = duplicateId ∧
      ∃ before thing after, g.chain.forwarded = before ++ .sunspecThing thing :: after ∧
        thing.id ∈ (sunspecThings before).map (·.id) ∧
        (hear p g.chain.forwarded).system.ids = before.filterMap Candidate.id := by
  have hruns := ((DiscoveryService.machine_sound inet).reachable hs).sound g hg
  obtain ⟨address, hcovers⟩ := hruns.covers h
  have hhistory := Chain.reachable_history hruns.reachable hcovers.nodup
    (hcovers.unitIds ▸ List.nodup_singleton 1)
  generalize g.chain.forwarded = l at hhistory
  have hscanned := scanned_of_history hhistory
  refine ⟨?_, fun halive => ?_, fun e herror => ?_⟩
  · rw [alive_iff hp, made_scanned hscanned, ids_nodup_iff hhistory]
    refine and_iff_left fun before c after e hsplit => ?_
    exact (answer_scanned (hscanned c (by simp [hsplit])) before).2 e
  · obtain halive' | ⟨before, c, after, e, -, hended, hheard⟩ := hear_cases hp l
    · rw [halive'.ids, made_scanned hscanned]
    · rw [hheard, hended.error] at halive
      cases halive
  · obtain halive | ⟨before, c, after, e', hsplit, hended, hheard⟩ := hear_cases hp l
    · rw [halive.error] at herror
      cases herror
    · have hbefore : ∀ c ∈ before, c.Scanned := fun c hc => hscanned c (by simp [hsplit, hc])
      have hc := answer_scanned (hscanned c (by simp [hsplit])) before
      rw [hheard, hended.error] at herror
      obtain rfl := Option.some.inj herror
      obtain ⟨rfl, id, hid, hmade⟩ := hended.cause.resolve_left (hc.2 e')
      rw [hc.1] at hmade
      rw [made_scanned hbefore] at hid
      have hids : (hear p l).system.ids = before.filterMap Candidate.id := by
        rw [hheard, System.ids, hended.things, ← System.ids, hended.alive.ids, made_scanned hbefore]
      refine ⟨rfl, ?_⟩
      have hcaused := hhistory.entry hsplit
      cases c with
      | modbusThing thing =>
        obtain rfl := Option.some.inj hmade
        exact absurd hid (unit_new hcaused)
      | sunspecThing thing =>
        obtain rfl := Option.some.inj hmade
        refine ⟨before, thing, after, hsplit, (mem_ids.1 hid).resolve_left fun hmem => ?_, hids⟩
        obtain ⟨unit, -, hunit⟩ := List.mem_map.1 hmem
        exact sunspec_id_ne thing unit hunit.symm
      | _ => cases hmade

/-- The scan of the second device that answers, with its serial number. -/
def secondScan (serial : UInt16) : List Sunspec.Discovery.Event :=
  [.scan 1 .startInLoop, .scan 1 (.reply 0 [0x5375, 0x6e53, 1, 65]),
    .scan 1 (.reply 1 (.replicate 48 0 ++ serial :: .replicate 16 0)),
    .scan 1 (.reply 2 [0xffff, 0]), .run []]

/-- A second device is found behind the first one. -/
def secondFound (serial : UInt16) : List DiscoveryService.Event :=
  let second : List Chain.Event := .replicate 5 (.sunspec (.run [])) ++
    [.runScanner true, .connection 1 true, .hearScanner, .hearModbus, .runModbus true,
      .exchangeFinished 1 (some [0, 1, 0, 0, 0, 3, 1, 0xab, 1]), .hearModbus, .hearModbus] ++
    (secondScan serial).map .sunspec ++ [.hearSunspec]
  second.map (.chain 0)

def foundTwo (serial : UInt16) : List DiscoveryService.Event :=
  DiscoveryService.found ++ secondFound serial

theorem foundTwo_reachable {serial : UInt16} (h : serial ∈ [0, 0x3037]) :
    (DiscoveryService.machine Subnet.dottedDecimal).Reachable
      ((foundTwo serial).foldl (DiscoveryService.next Subnet.dottedDecimal) {}) := by
  rw [foundTwo, List.foldl_append]
  obtain rfl | rfl : serial = 0 ∨ serial = 0x3037 := by simpa using h
  · exact DiscoveryService.found_reachable.run (Machine.run_of_runs (by decide +kernel))
  · exact DiscoveryService.found_reachable.run (Machine.run_of_runs (by decide +kernel))

/-- Two devices that differ in their serial number are registered with their units; of two
that have none, the second ends the subscription. -/
theorem first_scan_registers_two :
    (∀ g ∈ ((foundTwo 0x3037).foldl (DiscoveryService.next Subnet.dottedDecimal) {}).generations,
      (hear ⟨fun _ => .ok none⟩ g.chain.forwarded).system.ids =
        [ascii "modbus://192.168.1.1:502/1", ascii "__", ascii "modbus://192.168.1.3:502/1",
          ascii "__07"]) ∧
    ∀ g ∈ ((foundTwo 0).foldl (DiscoveryService.next Subnet.dottedDecimal) {}).generations,
      (hear ⟨fun _ => .ok none⟩ g.chain.forwarded).error = some duplicateId := by
  constructor
  · have hdevices : ∀ g ∈ ((foundTwo 0x3037).foldl
        (DiscoveryService.next Subnet.dottedDecimal) {}).generations,
        ((sunspecThings g.chain.forwarded).map (·.id)).Nodup ∧
          g.chain.forwarded.filterMap Candidate.id =
            [ascii "modbus://192.168.1.1:502/1", ascii "__", ascii "modbus://192.168.1.3:502/1",
              ascii "__07"] := by decide +kernel
    intro g hg
    obtain ⟨halive, hids, -⟩ := first_scan_registers (p := ⟨fun _ => .ok none⟩)
      (fun _ => ⟨none, rfl⟩) Subnet.dottedDecimal_lawful (foundTwo_reachable (by simp)) hg
    exact (hids (halive.2 (hdevices g hg).1)).trans (hdevices g hg).2
  · have hdevices : ∀ g ∈ ((foundTwo 0).foldl
        (DiscoveryService.next Subnet.dottedDecimal) {}).generations,
        ¬((sunspecThings g.chain.forwarded).map (·.id)).Nodup := by decide +kernel
    intro g hg
    obtain ⟨halive, -, hended⟩ := first_scan_registers (p := ⟨fun _ => .ok none⟩)
      (fun _ => ⟨none, rfl⟩) Subnet.dottedDecimal_lawful (foundTwo_reachable (by simp)) hg
    obtain ⟨e, he⟩ := Option.ne_none_iff_exists'.1 (mt halive.1 (hdevices g hg))
    rw [he, (hended e he).1]

end Neubau.Bootstrap
