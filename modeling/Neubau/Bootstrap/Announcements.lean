import Neubau.Bootstrap.Service

/-! From a datagram to a thing. While the service is not stopped, it forwards what the mDNS
discovery emits until the first query that cannot be sent. Until then, and while the
subscription of `main` lives, every Shelly device that the network has announced is
registered, whatever else the service does in between. -/

namespace Neubau.Bootstrap

open Neubau.Common Neubau.Mdns Neubau.Shelly Neubau.Transition

/-! ### The Shelly factory among the factories -/

section Factories

variable {q : Persistence} {cs : List Candidate} {key : Bytes}

/-- The services among some candidates. -/
def services (cs : List Candidate) : List MdnsService := cs.filterMap Candidate.service

theorem services_concat (cs : List Candidate) (c : Candidate) :
    services (cs ++ [c]) = services cs ++ c.service.toList := by
  rw [services, List.filterMap_append]
  cases hc : c.service <;> simp [services, hc]

/-- The Shelly factory gathers what the services among the candidates announce. -/
theorem shellyFactory_gathers (cs : List Candidate) :
    (factoriesOf cs).shellyFactory.Gathers (services cs) := by
  induction cs using List.reverseRecOn with
  | nil => exact ShellyThingFactory.Gathers.empty
  | append_singleton cs c ih =>
    rw [factoriesOf_concat, services_concat]
    cases c with
    | mdnsService service => exact ih.next _ service
    | _ => exact (List.append_nil (services cs)).symm ▸ ih

/-- A device of which enough is announced was completed by one of the candidates. -/
theorem exists_completing (h : Announced (services cs) key) :
    ∃ before c after, cs = before ++ .mdnsService c :: after ∧ lowercase (instanceId c) = key ∧
      (factoriesOf before).shellyFactory.Completes c := by
  induction cs using List.reverseRecOn with
  | nil => simp [services, Announced, accepted] at h
  | append_singleton cs c ih =>
    by_cases hbefore : Announced (services cs) key
    · obtain ⟨before, d, after, rfl, hkey, hcompletes⟩ := ih hbefore
      exact ⟨before, d, after ++ [c], by simp, hkey, hcompletes⟩
    · rw [services_concat] at h
      cases c with
      | mdnsService service =>
        change Announced (services cs ++ [service]) key at h
        by_cases hkey : isShellyService service = true ∧ lowercase (instanceId service) = key
        · obtain ⟨hs, rfl⟩ := hkey
          exact ⟨cs, service, [], rfl, rfl,
            ((shellyFactory_gathers cs).completes_iff service).2 ⟨hs, hbefore, h⟩⟩
        · exact absurd ((announced_concat_of_ne hkey).1 h) hbefore
      | _ => exact absurd (by simpa [Candidate.service] using h) hbefore

/-- A candidate that completes a device makes a thing of it, where nothing was thrown. -/
theorem made_of_completes {before : List Candidate} {c : MdnsService}
    (hc : (factoriesOf before).shellyFactory.Completes c)
    (hok : ∀ e, answer before (.mdnsService c) ≠ .error e) :
    idOf (answer before (.mdnsService c)) =
      some (shellyId ((factoriesOf before).shellyFactory.merge c)) := by
  have hanswer : answer before (.mdnsService c) = some <$> Thing.create (factoriesOf before).made
      (shellyId ((factoriesOf before).shellyFactory.merge c)) := by
    obtain ⟨hnot, -⟩ | ⟨-, heq⟩ :=
      ShellyThingFactory.tryCreate_eq (factoriesOf before).shellyFactory (factoriesOf before).made c
    · exact absurd hc hnot
    · exact congrArg Prod.snd heq
  rw [hanswer] at hok ⊢
  unfold Thing.create at hok ⊢
  split_ifs at hok ⊢ with hid
  · exact absurd rfl (hok _)
  · rfl

/-- Where the subscription lives, a device of which enough is announced is registered. -/
theorem registered_of_announced (hq : ∀ id, ∃ name, q.restoreThingName id = .ok name)
    (halive : (hear q cs).error = none) (h : Announced (services cs) key) :
    ∃ before c after, cs = before ++ .mdnsService c :: after ∧ lowercase (instanceId c) = key ∧
      shellyId ((factoriesOf before).shellyFactory.merge c) ∈ (hear q cs).system.ids := by
  obtain ⟨before, c, after, hsplit, hkey, hcompletes⟩ := exists_completing h
  refine ⟨before, c, after, hsplit, hkey, ?_⟩
  obtain halive' | ⟨_, _, _, _, -, hended, hheard⟩ := hear_cases hq cs
  · have hmade := made_of_completes hcompletes fun e => halive'.answered before _ after e hsplit
    obtain ⟨rest, hrest⟩ := made_split before (.mdnsService c) after
    rw [halive'.ids, hsplit, hrest, hmade]
    simp
  · rw [hheard, hended.error] at halive
    cases halive

end Factories

end Neubau.Bootstrap

namespace Neubau.Bootstrap.Service

open Neubau.Common Neubau.Mdns Neubau.Shelly Neubau.Transition

variable {q : Persistence} {p : MdnsParser} {inet : Inet} {s t : Service} {es : List Event}

/-- The event neither starts nor stops the service. -/
def Event.Within : Event → Prop
  | .start _ _ | .stop => False
  | _ => True

/-- What one event forwards of the mDNS discovery. -/
theorem next_services {e : Event} (hs : (machine p inet).Reachable s) (he : s.Enabled e)
    (hwithin : e.Within) {mdns : Services} (hmdns : s.mdns = some mdns) :
    (s.next p inet e).mdns = some (e.services.foldl (Services.next p) mdns) ∧
      ∃ new, (e.services.foldl (Services.next p) mdns).heard = mdns.heard ++ new ∧
        services (s.next p inet e).candidates = services s.candidates ++ new := by
  have hforwarded (events : List Services.Event) :
      ∃ new, (events.foldl (Services.next p) mdns).heard = mdns.heard ++ new ∧
        services (s.candidates ++
          ((events.foldl (Services.next p) mdns).heard.drop mdns.heard.length).map .mdnsService) =
            services s.candidates ++ new := by
    obtain ⟨new, hnew⟩ := Services.foldl_heard (p := p) events mdns
    refine ⟨new, hnew.symm, ?_⟩
    rw [← hnew, List.drop_left, services, List.filterMap_append, List.filterMap_map]
    exact congrArg _ (List.filterMap_some)
  cases e with
  | start shelly http => exact absurd hwithin id
  | stop => exact absurd hwithin id
  | rediscover shelly http =>
    simp only [next, hmdns]
    exact ⟨trivial, hforwarded _⟩
  | datagram bytes =>
    simp only [next, hmdns]
    exact ⟨trivial, hforwarded _⟩
  | sunspec d =>
    refine ⟨hmdns, [], (List.append_nil _).symm, ?_⟩
    have hscanned : ∀ c ∈ (s.sunspec.next inet d).candidates, c.Scanned :=
      candidates_scanned (((sees_sunspec p inet).reachable hs).next he)
    rw [List.append_nil]
    show services (s.candidates ++ _) = _
    rw [services, List.filterMap_append, List.filterMap_eq_nil_iff.2 fun c hc =>
      scanned_iff.1 (hscanned c (List.mem_of_mem_drop hc)), List.append_nil]
    rfl

/-- Between start and stop the service forwards what the mDNS discovery tells of. -/
theorem run_services (hs : (machine p inet).Reachable s) (hr : (machine p inet).Run s es t)
    (hes : ∀ e ∈ es, e.Within) {mdns : Services} (hmdns : s.mdns = some mdns) :
    t.mdns = some ((es.flatMap Event.services).foldl (Services.next p) mdns) ∧
      ∃ new, ((es.flatMap Event.services).foldl (Services.next p) mdns).heard = mdns.heard ++ new ∧
        services t.candidates = services s.candidates ++ new := by
  induction hr generalizing mdns with
  | nil s => exact ⟨hmdns, [], (List.append_nil _).symm, (List.append_nil _).symm⟩
  | @cons s t e es he hrest ih =>
    obtain ⟨hnext, new, hheard, hservices⟩ := next_services hs he (hes e List.mem_cons_self) hmdns
    obtain ⟨hend, new', hheard', hservices'⟩ := ih (hs.next he)
      (fun e he => hes e (List.mem_cons_of_mem _ he)) hnext
    rw [List.flatMap_cons, List.foldl_append]
    refine ⟨hend, new ++ new', ?_, ?_⟩
    · rw [hheard', hheard, List.append_assoc]
    · rw [hservices', show (machine p inet).next s e = s.next p inet e from rfl, hservices,
        List.append_assoc]

/-- The calls of the mDNS discovery from the start of the service on. -/
def calls (shelly http : Bool) (es : List Event) : List Services.Event :=
  queries shelly http ++ es.flatMap Event.services

/-- The queries make nobody hear of anything. -/
theorem queries_heard (p : MdnsParser) (shelly http : Bool) :
    ((queries shelly http).foldl (Services.next p) {}).heard = [] := by
  rw [(Services.heard_until_ended p (queries shelly http)).1]
  cases shelly <;> cases http <;> rfl

/-- A service from its start on. -/
theorem run_started (hs : (machine p inet).Reachable s) {shelly http : Bool}
    (hr : (machine p inet).Run s (.start shelly http :: es) t) (hes : ∀ e ∈ es, e.Within) :
    t.mdns = some ((calls shelly http es).foldl (Services.next p) {}) ∧
      services t.candidates = services s.candidates ++
        ((calls shelly http es).foldl (Services.next p) {}).heard := by
  cases hr with
  | cons he hrest =>
    obtain ⟨hmdns, new, hheard, hservices⟩ := run_services (hs.next he) hrest hes rfl
    rw [queries_heard, List.nil_append] at hheard
    rw [calls, List.foldl_append]
    refine ⟨hmdns, ?_⟩
    rw [hservices, hheard]
    rfl

/-- What a service forwards of the mDNS discovery between its start and its stop: all that is
emitted before the first query that cannot be sent, and nothing behind that, however often
it is told to rediscover. -/
theorem services_end_with_failed_query (hs : (machine p inet).Reachable s) {shelly http : Bool}
    (hr : (machine p inet).Run s (.start shelly http :: es) t) (hes : ∀ e ∈ es, e.Within) :
    services t.candidates = services s.candidates ++
      ((((calls shelly http es).takeWhile fun e => !e.ends).filterMap Services.Event.bytes).foldl
        (MdnsDiscovery.onDatagram p) {}).log := by
  rw [(run_started hs hr hes).2, (Services.heard_until_ended p _).1]

/-- A PTR record of `_shelly._tcp.local.` for `p`, and its SRV record. -/
def plugDatagram : Bytes :=
  let serviceType := [7] ++ ascii "_shelly" ++ [4] ++ ascii "_tcp" ++ [5] ++ ascii "local" ++ [0]
  [0, 0, 0x84, 0, 0, 0, 0, 2, 0, 0, 0, 0] ++
    serviceType ++ [0, 12, 0, 1, 0, 0, 0, 120, 0, 22] ++ ([1, 112] ++ serviceType) ++
    ([1, 112] ++ serviceType) ++ [0, 33, 0, 1, 0, 0, 0, 120, 0, 9, 0, 0, 0, 0, 0, 80, 1, 100, 0]

/-- The first query of a rediscovery cannot be sent, and then a device is announced. -/
def unheard : List Event :=
  [.start true true, .rediscover false true, .datagram plugDatagram]

theorem unheard_run : (machine .plain Subnet.dottedDecimal).Run {} unheard
    (unheard.foldl (next .plain Subnet.dottedDecimal) {}) :=
  Machine.run_of_runs (by decide +kernel)

/-- Nobody hears of it. -/
theorem services_end_with_failed_query_unheard :
    services (unheard.foldl (next .plain Subnet.dottedDecimal) {}).candidates = [] := by
  have hwithin : ∀ e ∈ [Event.rediscover false true, .datagram plugDatagram], e.Within := by
    simp [Event.Within]
  rw [services_end_with_failed_query (.init rfl) unheard_run hwithin]
  rfl

/-- The datagrams that came in. -/
def datagrams (es : List Event) : List Bytes :=
  es.filterMap fun | .datagram bytes => some bytes | _ => none

theorem calls_bytes (shelly http : Bool) (es : List Event) :
    (calls shelly http es).filterMap Services.Event.bytes = datagrams es := by
  rw [calls, List.filterMap_append]
  show [] ++ _ = _
  rw [List.nil_append]
  induction es with
  | nil => rfl
  | cons e es ih =>
    rw [List.flatMap_cons, List.filterMap_append, ih]
    cases e <;> rfl

/-- As long as the flow of services has not ended, and while the subscription lives, every
Shelly device of which the datagrams tell a port and a host has a thing in the repository,
when the last of them was not rejected. -/
theorem announced_device_is_registered (hq : ∀ id, ∃ name, q.restoreThingName id = .ok name)
    (hs : (machine p inet).Reachable s) {shelly http : Bool}
    (hr : (machine p inet).Run s (.start shelly http :: es) t) (hes : ∀ e ∈ es, e.Within)
    (hopen : ∀ mdns ∈ t.mdns, mdns.ending = none) {bytes : Bytes}
    (hlast : (datagrams es).getLast? = some bytes) (haccepted : ¬Rejects p bytes)
    (halive : (hear q t.candidates).error = none) {key : Bytes}
    (hresolved : MdnsDiscovery.Resolved ((datagrams es).flatMap (shown p)) key)
    (hshelly : isShellyService (current ((datagrams es).flatMap (shown p)) key) = true)
    (hconnectable : isConnectable (current ((datagrams es).flatMap (shown p)) key) = true) :
    ∃ before c after, t.candidates = before ++ .mdnsService c :: after ∧
      lowercase (instanceId c) =
        lowercase (instanceId (current ((datagrams es).flatMap (shown p)) key)) ∧
      shellyId ((factoriesOf before).shellyFactory.merge c) ∈ (hear q t.candidates).system.ids := by
  obtain ⟨hmdns, hservices⟩ := run_started hs hr hes
  obtain ⟨hheard, hending⟩ := Services.heard_until_ended p (calls shelly http es)
  have hall := hending.1 (hopen _ hmdns)
  rw [List.takeWhile_eq_self_iff.2 (by simpa using hall), calls_bytes] at hheard
  have hcurrent := (tracks_datagrams p (datagrams es)).2 bytes hlast haccepted key hresolved
  generalize current ((datagrams es).flatMap (shown p)) key = service at *
  have hmem : service ∈ services t.candidates := by
    rw [hservices, hheard]
    exact List.mem_append_right _ (List.mem_of_mem_filter (List.mem_of_getLast? hcurrent))
  refine registered_of_announced hq halive ⟨⟨service, mem_accepted.2 ⟨hmem, hshelly, rfl⟩, ?_⟩,
    service, mem_accepted.2 ⟨hmem, hshelly, rfl⟩, ?_⟩
  · exact (of_decide_eq_true hconnectable).1
  · exact (of_decide_eq_true hconnectable).2

/-- A device is announced to a service that was just started. -/
def plugged : List Event := [.start true true, .datagram plugDatagram]

theorem plugged_run : (machine .plain Subnet.dottedDecimal).Run {} plugged
    (plugged.foldl (next .plain Subnet.dottedDecimal) {}) :=
  Machine.run_of_runs (by decide +kernel)

theorem announced_device_is_registered_plugged :
    (hear ⟨fun _ => .ok none⟩
      (plugged.foldl (next .plain Subnet.dottedDecimal) {}).candidates).system.ids ≠ [] := by
  have hwithin : ∀ e ∈ [Event.datagram plugDatagram], e.Within := by simp [Event.Within]
  have hlast : (datagrams [.datagram plugDatagram]).getLast? = some plugDatagram := rfl
  have hresolved : MdnsDiscovery.Resolved
      ((datagrams [.datagram plugDatagram]).flatMap (shown .plain))
      (ascii "p._shelly._tcp.local.") := ⟨by decide +kernel, by decide +kernel⟩
  obtain ⟨before, c, after, -, -, hid⟩ := announced_device_is_registered (q := ⟨fun _ => .ok none⟩)
    (fun _ => ⟨none, rfl⟩) (.init rfl) plugged_run hwithin (by decide +kernel) hlast
    (by decide +kernel) (by decide +kernel) hresolved (by decide +kernel) (by decide +kernel)
  exact List.ne_nil_of_mem hid

end Neubau.Bootstrap.Service
