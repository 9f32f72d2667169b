import Neubau.Bootstrap.ChainCompletion
import Neubau.Bootstrap.FirstScan
import Neubau.Bootstrap.Registration
import Neubau.Mdns.Services
import Neubau.Shelly.Announcement

/-! The whole discovery service with the subscription of `main`: the mDNS discovery and the
scans of the network forward their candidates into one flow, and `main` makes things of
them. It is a flow with two weak points. A query that cannot be sent ends the mDNS part, and
a device that two scans find ends the subscription. -/

namespace Neubau.Bootstrap

open Neubau.Common Neubau.Mdns Neubau.Modbus Neubau.Shelly Neubau.Sunspec Neubau.Transition
open Neubau.Bootstrap.Chain (modbusThings mem_modbusThings)

/-- `DiscoveryService`; `candidates` is what it has forwarded. -/
structure Service where
  mdns : Option Services := none
  sunspec : DiscoveryService := {}
  candidates : List Candidate := []

namespace Service

inductive Event
  /-- `start`, without `startSunspec`; the queries are sent or not. -/
  | start (shelly http : Bool)
  /-- `rediscover`, without `startSunspec`. -/
  | rediscover (shelly http : Bool)
  | datagram (bytes : Bytes)
  /-- `stop`, without `stopSunspecChain`. -/
  | stop
  | sunspec (e : DiscoveryService.Event)

/-- The queries of `start` and of `rediscover`. -/
def queries (shelly http : Bool) : List Services.Event :=
  [.discover (ascii "_shelly._tcp") shelly, .discover (ascii "_http._tcp") http]

/-- What the event is to the mDNS discovery. -/
def Event.services : Event → List Services.Event
  | .start shelly http => queries shelly http
  | .rediscover shelly http => queries shelly http
  | .datagram bytes => [.datagram bytes]
  | _ => []

variable (p : MdnsParser) (inet : Inet)

/-- `rediscover` and the socket need the mDNS discovery. -/
def Enabled (s : Service) : Event → Prop
  | .rediscover _ _ => s.mdns.isSome = true
  | .datagram _ => s.mdns.isSome = true
  | .sunspec e => s.sunspec.Enabled e
  | _ => True

def next (s : Service) (e : Event) : Service :=
  match e with
  | .start shelly http => { s with mdns := some ((queries shelly http).foldl (Services.next p) {}) }
  | .stop => { s with mdns := none }
  | .sunspec e =>
    let sunspec := s.sunspec.next inet e
    -- the chains forward at the end of what they have forwarded
    { s with
      sunspec
      candidates := s.candidates ++ sunspec.candidates.drop s.sunspec.candidates.length }
  | e =>
    match s.mdns with
    | none => s
    | some services =>
      let services' := e.services.foldl (Services.next p) services
      { s with
        mdns := some services'
        candidates := s.candidates ++
          (services'.heard.drop services.heard.length).map .mdnsService }

def machine : Machine Service Event where
  init s := s = {}
  enabled := Enabled
  next := next p inet

end Service

/-- The service of a candidate that the mDNS discovery has forwarded. -/
def Candidate.service : Candidate → Option MdnsService
  | .mdnsService service => some service
  | _ => none

theorem scanned_iff {c : Candidate} : c.Scanned ↔ c.service = none := by
  cases c <;> simp [Candidate.Scanned, Candidate.service]

namespace Service

variable {p : MdnsParser} {inet : Inet} {s t : Service}

theorem news_scanned (c : Chain) (e : Chain.Event) : ∀ x ∈ c.news e, x.Scanned := by
  intro x hx
  cases e with
  | hearScanner =>
    obtain ⟨port, -, rfl⟩ := List.mem_map.1 hx
    trivial
  | hearModbus =>
    obtain ⟨thing, -, rfl⟩ := List.mem_map.1 hx
    trivial
  | hearSunspec =>
    obtain ⟨thing, -, rfl⟩ := List.mem_map.1 hx
    trivial
  | _ => exact absurd hx List.not_mem_nil

/-- The chains forward no service. -/
theorem candidates_scanned {d : DiscoveryService}
    (h : (DiscoveryService.machine inet).Reachable d) : ∀ c ∈ d.candidates, c.Scanned := by
  intro c hc
  obtain ⟨g, hg, hc⟩ := List.mem_flatMap.1 hc
  have hruns := ((DiscoveryService.machine_sound inet).reachable h).sound g hg
  have hall : ∀ c ∈ g.chain.forwarded, c.Scanned := by
    refine hruns.reachable.keeps (P := fun chain => ∀ c ∈ chain.forwarded, c.Scanned) ?_ ?_
    · rintro chain rfl c hc
      exact absurd hc List.not_mem_nil
    · intro chain e _ ih _
      show ∀ c ∈ (chain.next g.options e).forwarded, c.Scanned
      rw [Chain.next_forwarded]
      split_ifs
      · exact fun c hc => (List.mem_append.1 hc).elim (ih c) (news_scanned chain e c)
      · exact ih
  exact hall c hc

/-- An event of the scans, or one that forwards services and leaves the scans alone. -/
theorem next_cases (p : MdnsParser) (inet : Inet) (s : Service) (e : Event) :
    (∃ d, e = .sunspec d) ∨
      (s.next p inet e).sunspec = s.sunspec ∧ ∃ services : List MdnsService,
        (s.next p inet e).candidates = s.candidates ++ services.map .mdnsService := by
  cases e with
  | sunspec d => exact .inl ⟨d, rfl⟩
  | start shelly http => exact .inr ⟨rfl, [], (List.append_nil _).symm⟩
  | stop => exact .inr ⟨rfl, [], (List.append_nil _).symm⟩
  | rediscover shelly http =>
    simp only [next]
    cases s.mdns with
    | none => exact .inr ⟨rfl, [], (List.append_nil _).symm⟩
    | some services => exact .inr ⟨rfl, _, rfl⟩
  | datagram bytes =>
    simp only [next]
    cases s.mdns with
    | none => exact .inr ⟨rfl, [], (List.append_nil _).symm⟩
    | some services => exact .inr ⟨rfl, _, rfl⟩

theorem sees_sunspec (p : MdnsParser) (inet : Inet) :
    (machine p inet).Sees (DiscoveryService.machine inet) Service.sunspec where
  init s hs := by
    obtain rfl : s = {} := hs
    exact .init rfl
  next s e _ he := by
    obtain ⟨d, rfl⟩ | ⟨hsame, -⟩ := next_cases p inet s e
    · exact .inr ⟨d, he, rfl⟩
    · exact .inl hsame

/-- The service only adds to what it has forwarded. -/
theorem candidates_grow (s : Service) (e : Event) :
    s.candidates <+: (s.next p inet e).candidates := by
  obtain ⟨d, rfl⟩ | ⟨-, services, hcandidates⟩ := next_cases p inet s e
  · exact List.prefix_append _ _
  · rw [hcandidates]
    exact List.prefix_append _ _

/-- Of the candidates, those of the scans are what the chains have forwarded. -/
theorem candidates_of_chains (hs : (machine p inet).Reachable s) :
    s.candidates.filter (·.service.isNone) = s.sunspec.candidates := by
  refine hs.keeps (P := fun s => s.candidates.filter (·.service.isNone) = s.sunspec.candidates)
    ?_ ?_
  · rintro s rfl
    rfl
  · intro s e hs ih he
    show (s.next p inet e).candidates.filter _ = (s.next p inet e).sunspec.candidates
    obtain ⟨d, rfl⟩ | ⟨hsame, services, hcandidates⟩ := next_cases p inet s e
    · have hsunspec := (sees_sunspec p inet).reachable hs
      have hgrow := ((DiscoveryService.machine_sound inet).reachable hsunspec).candidates_grow he
      have hnew : ∀ c ∈ (s.sunspec.next inet d).candidates, c.service.isNone = true := fun c hc =>
        Option.isNone_iff_eq_none.2 (scanned_iff.1 (candidates_scanned (hsunspec.next he) c hc))
      show (s.candidates ++ _).filter _ = _
      rw [List.filter_append, ih,
        List.filter_eq_self.2 fun c hc => hnew c (List.mem_of_mem_drop hc)]
      exact List.prefix_iff_eq_append.1 hgrow
    · rw [hcandidates, hsame, List.filter_append, ih]
      simp [Candidate.service]

end Service

/-! ### The end of the subscription -/

section Ending

variable {p : Persistence} {cs : List Candidate}

/-- The factories make a thing of every candidate of a scan, beside those of the Shelly
devices. -/
theorem ids_sublist_made (cs : List Candidate) : (cs.filterMap Candidate.id).Sublist (made cs) := by
  induction cs using List.reverseRecOn with
  | nil => exact List.Sublist.refl _
  | append_singleton cs c ih =>
    rw [made_concat, List.filterMap_append]
    refine ih.append ?_
    cases c with
    | mdnsService service => exact List.nil_sublist _
    | _ => exact List.Sublist.refl _

end Ending

namespace Service

variable {q : Persistence} {p : MdnsParser} {inet : Inet} {s : Service}

/-- An id that two scans forward is made a thing twice. -/
theorem made_twice (hs : (machine p inet).Reachable s) {i j : ℕ} {g g' : Generation}
    (hij : i ≠ j) (hi : s.sunspec.generations[i]? = some g)
    (hj : s.sunspec.generations[j]? = some g') {c c' : Candidate} {id : Bytes}
    (hc : c ∈ g.chain.forwarded) (hc' : c' ∈ g'.chain.forwarded) (hid : c.id = some id)
    (hid' : c'.id = some id) : ¬(made s.candidates).Nodup := by
  intro hnodup
  have hids := (ids_sublist_made s.candidates).nodup hnodup
  have hchains : (s.sunspec.candidates.filterMap Candidate.id).Nodup := by
    rw [← candidates_of_chains hs]
    exact (List.filter_sublist.filterMap Candidate.id).nodup hids
  rw [DiscoveryService.candidates, List.filterMap_flatMap, List.nodup_flatMap] at hchains
  have hmem : id ∈ g.chain.forwarded.filterMap Candidate.id := List.mem_filterMap.2 ⟨c, hc, hid⟩
  have hmem' : id ∈ g'.chain.forwarded.filterMap Candidate.id :=
    List.mem_filterMap.2 ⟨c', hc', hid'⟩
  obtain ⟨hilt, rfl⟩ := List.getElem?_eq_some_iff.1 hi
  obtain ⟨hjlt, rfl⟩ := List.getElem?_eq_some_iff.1 hj
  have hdisjoint := List.pairwise_iff_getElem.1 hchains.2
  rcases Nat.lt_or_gt_of_ne hij with hlt | hlt
  · exact hdisjoint i j hilt hjlt hlt hmem hmem'
  · exact hdisjoint j i hjlt hilt hlt hmem' hmem

/-- The subscription of `main` in any run of the service. It lives as long as the factories
have thrown nothing and made no thing twice, and the repository then has the things they
made. A unit or a device of one id that two scans find ends it, whatever else they read of
it, and then nothing is registered any more. -/
theorem registration_ends_with_repetition
    (hq : ∀ id, ∃ name, q.restoreThingName id = .ok name) (hs : (machine p inet).Reachable s) :
    ((hear q s.candidates).error = none ↔ (made s.candidates).Nodup ∧
      ∀ before c after e, s.candidates = before ++ c :: after → answer before c ≠ .error e) ∧
    ((hear q s.candidates).error = none → (hear q s.candidates).system.ids = made s.candidates) ∧
    (∀ (i j : ℕ) g g' c c' id, i ≠ j → s.sunspec.generations[i]? = some g →
      s.sunspec.generations[j]? = some g' → c ∈ g.chain.forwarded → c' ∈ g'.chain.forwarded →
        c.id = some id → c'.id = some id → (hear q s.candidates).error ≠ none) ∧
    ((hear q s.candidates).error ≠ none →
      ∀ e, hear q (s.next p inet e).candidates = hear q s.candidates) := by
  refine ⟨alive_iff hq s.candidates, fun halive => ?_,
    fun i j g g' c c' id hij hi hj hc hc' hid hid' => ?_, fun hended e => ?_⟩
  · obtain h | ⟨before, c, after, e, -, hended, hheard⟩ := hear_cases hq s.candidates
    · exact h.ids
    · rw [hheard, hended.error] at halive
      cases halive
  · intro halive
    exact made_twice hs hij hi hj hc hc' hid hid' ((alive_iff hq s.candidates).1 halive).1
  · obtain ⟨new, hnew⟩ : s.candidates <+: (s.next p inet e).candidates := s.candidates_grow e
    rw [← hnew]
    exact hear_ended hended new

/-- A scan finds a unit, and is stopped for the next one. -/
def answeredStopped : List Chain.Event :=
  DiscoveryService.answered ++ [.stopSunspecChain, .hearSunspec] ++
    .replicate 12 (.sunspec (.run [])) ++ [.hearSunspec, .sunspec (.run []), .queueInLoop]

/-- The next scan finds the unit again, which refuses for another reason. -/
def scannedTwice : List DiscoveryService.Event :=
  .startSunspec DiscoveryService.home DiscoveryService.home :: answeredStopped.map (.chain 0) ++
    .startSunspec DiscoveryService.home DiscoveryService.home ::
      (DiscoveryService.refused 2).map (.chain 1)

def unitTwice : List Event := scannedTwice.map .sunspec

instance (s : Service) : (e : Event) → Decidable (s.Enabled e)
  | .start _ _ => inferInstanceAs (Decidable True)
  | .rediscover _ _ => inferInstanceAs (Decidable (_ = true))
  | .datagram _ => inferInstanceAs (Decidable (_ = true))
  | .stop => inferInstanceAs (Decidable True)
  | .sunspec e => inferInstanceAs (Decidable (s.sunspec.Enabled e))

instance (s : Service) (e : Event) : Decidable ((machine p inet).enabled s e) :=
  inferInstanceAs (Decidable (s.Enabled e))

/-- The second finding of the unit ends the subscription for good. -/
theorem registration_ends_with_repetition_twice :
    (hear ⟨fun _ => .ok none⟩
      (unitTwice.foldl (next .plain Subnet.dottedDecimal) {}).candidates).error ≠ none := by
  have hreachable : (machine .plain Subnet.dottedDecimal).Reachable
      (unitTwice.foldl (next .plain Subnet.dottedDecimal) {}) :=
    (Machine.Reachable.init rfl).run (Machine.run_of_runs (by decide +kernel))
  have hgenerations :
      ∃ g ∈ (unitTwice.foldl (next .plain Subnet.dottedDecimal) {}).sunspec.generations[0]?,
      ∃ g' ∈ (unitTwice.foldl (next .plain Subnet.dottedDecimal) {}).sunspec.generations[1]?,
      ∃ unit ∈ modbusThings g.chain.forwarded, ∃ unit' ∈ modbusThings g'.chain.forwarded,
        unit ≠ unit' ∧ unit.id = unit'.id := by
    decide +kernel
  obtain ⟨g, hg, g', hg', unit, hunit, unit', hunit', -, hid⟩ := hgenerations
  exact (registration_ends_with_repetition (q := ⟨fun _ => .ok none⟩) (fun _ => ⟨none, rfl⟩)
    hreachable).2.2.1 0 1 g g' (.modbusThing unit) (.modbusThing unit') unit.id Nat.zero_ne_one
      hg hg' (mem_modbusThings.1 hunit) (mem_modbusThings.1 hunit') rfl (congrArg some hid.symm)

end Service

end Neubau.Bootstrap
