import Neubau.Shelly.UniqueIds
import Neubau.Stream.Override

/-! Merging the records of a device. Each field of the merged record is determined
by the set of the candidates: a field that candidates may set has the value all
that set it agree on, the addresses are a union, and the lifetime is a maximum. So
candidates that do not contradict each other may come in any order and any number
of times. -/

namespace Neubau.Shelly

open Neubau.Common Neubau.Mdns Neubau.Stream

def IsShelly (service : MdnsService) : Prop := lowercase service.serviceType = shellyServiceType

instance (service : MdnsService) : Decidable (IsShelly service) :=
  inferInstanceAs (Decidable (_ = _))

/-- Service type and instance name, which are taken together. -/
def typeAndName (service : MdnsService) : Bytes × Bytes :=
  (service.serviceType, service.instanceName)

/-- Port, priority and weight, which are taken together. -/
def endpoint (service : MdnsService) : UInt16 × UInt16 × UInt16 :=
  (service.port, service.priority, service.weight)

def setsHostname (service : MdnsService) : Option Bytes :=
  if service.hostname ≠ [] then some service.hostname else none

def setsEndpoint (service : MdnsService) : Option (UInt16 × UInt16 × UInt16) :=
  if service.port ≠ 0 then some (endpoint service) else none

def setsTxt (key : Bytes) (service : MdnsService) : Option (Option Bytes) :=
  (service.txt.lookup key).map some

/-- Candidates that are accepted and do not contradict each other. -/
structure Consistent (cs : Set MdnsService) : Prop where
  accepted : ∀ c ∈ cs, isShellyService c = true
  names : ∀ c ∈ cs, ∀ c' ∈ cs, lowercase c.serviceType = lowercase c'.serviceType →
    typeAndName c = typeAndName c'
  hostname : Compatible setsHostname cs
  endpoint : Compatible setsEndpoint cs
  txt : ∀ key, Compatible (setsTxt key) cs

/-- The record that candidates are merged to. -/
structure IsMerge (cs : Set MdnsService) (record : MdnsService) : Prop where
  shelly : ∀ c ∈ cs, IsShelly c → typeAndName record = typeAndName c
  other : (∀ c ∈ cs, ¬IsShelly c) →
    Settled (fun c => some (typeAndName c)) (typeAndName {}) cs (typeAndName record)
  hostname : Settled setsHostname [] cs record.hostname
  endpoint : Settled setsEndpoint (endpoint {}) cs (endpoint record)
  sorted : record.addresses.Pairwise (· ≤ ·)
  nodup : record.addresses.Nodup
  addresses : ∀ address, address ∈ record.addresses ↔ ∃ c ∈ cs, address ∈ c.addresses
  txt : ∀ key, Settled (setsTxt key) none cs (record.txt.lookup key)
  ttl_le : ∀ c ∈ cs, c.ttl ≤ record.ttl
  ttl : record.ttl = 0 ∨ ∃ c ∈ cs, c.ttl = record.ttl

/-! ### One record for a set -/

theorem isShelly_or_http {c : MdnsService} (h : isShellyService c = true) :
    IsShelly c ∨ lowercase c.serviceType = httpServiceType := by
  unfold isShellyService at h
  split_ifs at h with hs hh
  · exact .inl hs
  · exact .inr (not_not.1 hh)

theorem serviceType_ne_nil {c : MdnsService} (h : isShellyService c = true) :
    c.serviceType ≠ [] := by
  intro hnil
  rcases isShelly_or_http h with hs | hh
  · rw [IsShelly, hnil] at hs
    exact absurd hs (by decide)
  · rw [hnil] at hh
    exact absurd hh (by decide)

/-- All http records have one name. -/
theorem Consistent.compatible_names {cs : Set MdnsService} (h : Consistent cs)
    (hhttp : ∀ c ∈ cs, ¬IsShelly c) : Compatible (fun c => some (typeAndName c)) cs := by
  intro c hc c' hc' name name' hname hname'
  have htype := (isShelly_or_http (h.accepted c hc)).resolve_left (hhttp c hc)
  have htype' := (isShelly_or_http (h.accepted c' hc')).resolve_left (hhttp c' hc')
  rw [← Option.some.inj hname, ← Option.some.inj hname']
  exact h.names c hc c' hc' (htype.trans htype'.symm)

theorem IsMerge.ttl_le_of {cs : Set MdnsService} {r r' : MdnsService} (h : IsMerge cs r)
    (h' : IsMerge cs r') : r'.ttl ≤ r.ttl := by
  rcases h'.ttl with hzero | ⟨c, hc, hmax⟩
  · rw [hzero]
    exact UInt32.le_iff_toNat_le.2 (Nat.zero_le _)
  · rw [← hmax]
    exact h.ttl_le c hc

theorem IsMerge.unique {cs : Set MdnsService} {r r' : MdnsService} (hcs : Consistent cs)
    (h : IsMerge cs r) (h' : IsMerge cs r') : r = r' := by
  have hnames : typeAndName r = typeAndName r' := by
    by_cases hshelly : ∃ c ∈ cs, IsShelly c
    · obtain ⟨c, hc, hs⟩ := hshelly
      rw [h.shelly c hc hs, h'.shelly c hc hs]
    · push Not at hshelly
      exact (h.other hshelly).unique (hcs.compatible_names hshelly) (h'.other hshelly)
  have hhostname := h.hostname.unique hcs.hostname h'.hostname
  have hendpoint := h.endpoint.unique hcs.endpoint h'.endpoint
  have haddresses : r.addresses = r'.addresses := by
    refine List.Perm.eq_of_pairwise' h.sorted h'.sorted ?_
    exact (List.perm_ext_iff_of_nodup h.nodup h'.nodup).2 fun a =>
      (h.addresses a).trans (h'.addresses a).symm
  have htxt : r.txt = r'.txt :=
    Finmap.ext_lookup fun key => (h.txt key).unique (hcs.txt key) (h'.txt key)
  have httl : r.ttl = r'.ttl := UInt32.le_antisymm (h'.ttl_le_of h) (h.ttl_le_of h')
  obtain ⟨htype, hname⟩ := Prod.mk.inj hnames
  simp only [Shelly.endpoint, Prod.mk.injEq] at hendpoint
  obtain ⟨hport, hpriority, hweight⟩ := hendpoint
  cases r
  cases r'
  simp_all

/-! ### Merging one candidate -/

section

variable {record candidate : MdnsService}

theorem mergeService_typeAndName (record candidate : MdnsService) :
    typeAndName (mergeService record candidate) =
      if TakesName record candidate then typeAndName candidate else typeAndName record :=
  mergeService_names record candidate

theorem mergeService_setsHostname (record candidate : MdnsService) :
    (mergeService record candidate).hostname =
      override setsHostname record.hostname candidate := by
  rw [mergeService_hostname, override, setsHostname]
  split_ifs <;> rfl

theorem mergeService_endpoint (record candidate : MdnsService) :
    endpoint (mergeService record candidate) =
      override setsEndpoint (endpoint record) candidate := by
  unfold mergeService override setsEndpoint endpoint
  dsimp only
  split_ifs <;> rfl

theorem mergeService_setsTxt (record candidate : MdnsService) (key : Bytes) :
    (mergeService record candidate).txt.lookup key =
      override (setsTxt key) (record.txt.lookup key) candidate := by
  rw [mergeService_lookup, override, setsTxt]
  cases candidate.txt.lookup key <;> rfl

theorem mergeService_ttl (record candidate : MdnsService) :
    (mergeService record candidate).ttl =
      if record.ttl ≤ candidate.ttl then candidate.ttl else record.ttl := by
  have hmax : (mergeService record candidate).ttl = max record.ttl candidate.ttl := by
    unfold mergeService
    dsimp only
    split_ifs <;> rfl
  exact hmax

/-- The loop of `mergeAddresses` keeps its target free of repetitions. -/
theorem mergeAddresses_nodup (source : List Bytes) {target : List Bytes} (h : target.Nodup) :
    (mergeAddresses target source).Nodup := by
  rw [mergeAddresses, (List.perm_insertionSort _ _).nodup_iff]
  induction source generalizing target with
  | nil => exact h
  | cons address source ih =>
    rw [List.foldl_cons]
    apply ih
    split_ifs with hmem
    · exact h
    · exact h.append (List.nodup_singleton _) (by simpa using hmem)

/-- The addresses are sorted, and those of both records. -/
theorem mergeAddresses_spec (source : List Bytes) {target : List Bytes} (h : target.Nodup) :
    (mergeAddresses target source).Pairwise (· ≤ ·) ∧ (mergeAddresses target source).Nodup ∧
    ∀ a, a ∈ mergeAddresses target source ↔ a ∈ target ∨ a ∈ source :=
  ⟨List.pairwise_insertionSort _ _, mergeAddresses_nodup source h, fun _ => mem_mergeAddresses⟩

/-! ### Merging many -/

/-- A Shelly record names the merged one, or there is none and another one does. -/
def NamedBy (cs : Set MdnsService) (record : MdnsService) : Prop :=
  (∃ c ∈ cs, IsShelly c ∧ typeAndName record = typeAndName c) ∨
    ((∀ c ∈ cs, ¬IsShelly c) ∧
      Settled (fun c => some (typeAndName c)) (typeAndName {}) cs (typeAndName record))

theorem isShelly_congr {a b : MdnsService} (h : typeAndName a = typeAndName b) :
    IsShelly a ↔ IsShelly b := by
  rw [IsShelly, IsShelly, show a.serviceType = b.serviceType from congrArg Prod.fst h]

theorem serviceType_congr {a b : MdnsService} (h : typeAndName a = typeAndName b)
    (hb : isShellyService b = true) : a.serviceType ≠ [] := by
  rw [show a.serviceType = b.serviceType from congrArg Prod.fst h]
  exact serviceType_ne_nil hb

theorem NamedBy.merge {cs : List MdnsService} (haccepted : ∀ c ∈ cs, isShellyService c = true)
    (h : NamedBy {c | c ∈ cs} record) :
    NamedBy {c | c ∈ cs ++ [candidate]} (mergeService record candidate) := by
  have hmem {c : MdnsService} (hc : c ∈ cs) : c ∈ cs ++ [candidate] := List.mem_append_left _ hc
  have hlast : candidate ∈ cs ++ [candidate] := List.mem_concat_self
  unfold NamedBy
  rw [mergeService_typeAndName]
  obtain ⟨c, hc, hs, hname⟩ | ⟨hnone, ⟨c, hc, hname⟩ | ⟨hall, hname⟩⟩ := h
  · -- a Shelly record keeps its name
    have hkeeps : ¬TakesName record candidate := by
      rintro (hempty | ⟨-, hother⟩)
      · exact serviceType_congr hname (haccepted c hc) hempty
      · exact hother ((isShelly_congr hname).2 hs)
    rw [if_neg hkeeps]
    exact .inl ⟨c, hmem hc, hs, hname⟩
  · -- another record gives way to a Shelly record only
    have hname := Option.some.inj hname.symm
    have hother : ¬IsShelly record := mt (isShelly_congr hname).1 (hnone c hc)
    have htakes : TakesName record candidate ↔ IsShelly candidate := by
      constructor
      · rintro (hempty | ⟨hs, -⟩)
        · exact absurd hempty (serviceType_congr hname (haccepted c hc))
        · exact hs
      · exact fun hs => .inr ⟨hs, hother⟩
    by_cases hs : IsShelly candidate
    · rw [if_pos (htakes.2 hs)]
      exact .inl ⟨candidate, hlast, hs, rfl⟩
    · rw [if_neg (mt htakes.1 hs)]
      refine .inr ⟨fun c' hc' => ?_, .inl ⟨c, hmem hc, congrArg some hname.symm⟩⟩
      obtain hc' | rfl := List.mem_append.1 hc' |>.imp id List.mem_singleton.1
      · exact hnone c' hc'
      · exact hs
  · -- the first record names the merged one
    have hempty : record.serviceType = [] := congrArg Prod.fst hname
    have hcs : cs = [] := List.eq_nil_iff_forall_not_mem.2 fun c hc => nomatch hall c hc
    subst hcs
    rw [if_pos (.inl hempty)]
    by_cases hs : IsShelly candidate
    · exact .inl ⟨candidate, hlast, hs, rfl⟩
    · refine .inr ⟨fun c' hc' => ?_, .inl ⟨candidate, hlast, rfl⟩⟩
      obtain rfl := List.mem_singleton.1 hc'
      exact hs

theorem namedBy_foldl {cs : List MdnsService} (haccepted : ∀ c ∈ cs, isShellyService c = true) :
    NamedBy {c | c ∈ cs} (cs.foldl mergeService {}) := by
  induction cs using List.reverseRecOn with
  | nil => exact .inr ⟨nofun, .inr ⟨nofun, rfl⟩⟩
  | append_singleton cs c ih =>
    have hcs (c' : MdnsService) (hc' : c' ∈ cs) : isShellyService c' = true :=
      haccepted c' (List.mem_append_left _ hc')
    rw [List.foldl_append]
    exact (ih hcs).merge hcs

/-- What is left of the fields of the record. -/
theorem foldl_addresses (cs : List MdnsService) :
    (cs.foldl mergeService {}).addresses.Pairwise (· ≤ ·) ∧
    (cs.foldl mergeService {}).addresses.Nodup ∧
    ∀ a, a ∈ (cs.foldl mergeService {}).addresses ↔ ∃ c ∈ cs, a ∈ c.addresses := by
  induction cs using List.reverseRecOn with
  | nil => exact ⟨.nil, .nil, by simp⟩
  | append_singleton cs c ih =>
    obtain ⟨hsorted, hnodup, hiff⟩ := mergeAddresses_spec c.addresses ih.2.1
    rw [List.foldl_append, List.foldl_cons, List.foldl_nil, mergeService_addresses]
    refine ⟨hsorted, hnodup, fun a => (hiff a).trans ?_⟩
    rw [ih.2.2 a]
    simp [or_and_right, exists_or]

theorem foldl_ttl (cs : List MdnsService) :
    (∀ c ∈ cs, c.ttl ≤ (cs.foldl mergeService {}).ttl) ∧
    ((cs.foldl mergeService {}).ttl = 0 ∨ ∃ c ∈ cs, c.ttl = (cs.foldl mergeService {}).ttl) := by
  induction cs using List.reverseRecOn with
  | nil => exact ⟨nofun, .inl rfl⟩
  | append_singleton cs c ih =>
    obtain ⟨hle, hmax⟩ := ih
    rw [List.foldl_append, List.foldl_cons, List.foldl_nil, mergeService_ttl]
    simp only [List.mem_append, List.mem_singleton, or_imp, forall_and, forall_eq,
      or_and_right, exists_or, exists_eq_left]
    split_ifs with h
    · exact ⟨⟨fun c' hc' => UInt32.le_trans (hle c' hc') h, UInt32.le_refl _⟩, .inr (.inr rfl)⟩
    · exact ⟨⟨hle, (UInt32.le_total _ _).resolve_left h⟩, hmax.imp id .inl⟩

/-- The fold merges the candidates. -/
theorem isMerge_foldl {cs : List MdnsService} (h : ∀ c ∈ cs, isShellyService c = true)
    (hnames : ∀ c ∈ cs, ∀ c' ∈ cs, IsShelly c → IsShelly c' → typeAndName c = typeAndName c') :
    IsMerge {c | c ∈ cs} (cs.foldl mergeService {}) where
  shelly c hc hs := by
    obtain ⟨c', hc', hs', hname⟩ | ⟨hnone, -⟩ := namedBy_foldl h
    · rw [hname]
      exact hnames c' hc' c hc hs' hs
    · exact absurd hs (hnone c hc)
  other hnone := by
    obtain ⟨c', hc', hs', -⟩ | ⟨-, hsettled⟩ := namedBy_foldl h
    · exact absurd hs' (hnone c' hc')
    · exact hsettled
  hostname := by
    have hfold : cs.foldl (override setsHostname) (MdnsService.hostname {}) =
        (cs.foldl mergeService {}).hostname :=
      List.foldl_hom MdnsService.hostname fun r c => (mergeService_setsHostname r c).symm
    rw [← hfold]
    exact settled_foldl _ _ _
  endpoint := by
    have hfold : cs.foldl (override setsEndpoint) (Shelly.endpoint {}) =
        Shelly.endpoint (cs.foldl mergeService {}) :=
      List.foldl_hom Shelly.endpoint fun r c => (mergeService_endpoint r c).symm
    rw [← hfold]
    exact settled_foldl _ _ _
  sorted := (foldl_addresses cs).1
  nodup := (foldl_addresses cs).2.1
  addresses := (foldl_addresses cs).2.2
  txt key := by
    have hfold : cs.foldl (override (setsTxt key)) (Finmap.lookup key (MdnsService.txt {})) =
        (cs.foldl mergeService {}).txt.lookup key :=
      List.foldl_hom (fun r : MdnsService => r.txt.lookup key)
        fun r c => (mergeService_setsTxt r c key).symm
    rw [← hfold]
    exact settled_foldl _ _ _
  ttl_le := (foldl_ttl cs).1
  ttl := (foldl_ttl cs).2

theorem Consistent.shellyNames {cs : Set MdnsService} (h : Consistent cs) :
    ∀ c ∈ cs, ∀ c' ∈ cs, IsShelly c → IsShelly c' → typeAndName c = typeAndName c' :=
  fun c hc c' hc' hs hs' => h.names c hc c' hc' (hs.trans hs'.symm)

/-- The merged record depends on nothing but the set of the candidates. -/
theorem foldl_mergeService_congr {cs cs' : List MdnsService} (h : Consistent {c | c ∈ cs})
    (hsame : ∀ c, c ∈ cs' ↔ c ∈ cs) : cs'.foldl mergeService {} = cs.foldl mergeService {} := by
  have hset : {c | c ∈ cs'} = {c | c ∈ cs} := Set.ext hsame
  have hmerge' : IsMerge {c | c ∈ cs'} (cs'.foldl mergeService {}) := by
    rw [← hset] at h
    exact isMerge_foldl h.accepted h.shellyNames
  rw [hset] at hmerge'
  exact hmerge'.unique h (isMerge_foldl h.accepted h.shellyNames)

/-- Consistent candidates are merged to the one record that is theirs, whatever their
order and however often each of them comes. -/
theorem merged_record_of_set {cs : List MdnsService} (h : Consistent {c | c ∈ cs}) :
    IsMerge {c | c ∈ cs} (cs.foldl mergeService {}) ∧
    (∀ record, IsMerge {c | c ∈ cs} record → record = cs.foldl mergeService {}) ∧
    ∀ cs' : List MdnsService, (∀ c, c ∈ cs' ↔ c ∈ cs) →
      cs'.foldl mergeService {} = cs.foldl mergeService {} := by
  have hmerge := isMerge_foldl h.accepted h.shellyNames
  exact ⟨hmerge, fun record hr => hr.unique h hmerge, fun cs' => foldl_mergeService_congr h⟩

/-- A plug tells its address. -/
def plug : MdnsService where
  serviceType := shellyServiceType
  instanceName := ascii "shellyplug-1._shelly._tcp.local."
  addresses := [ascii "10.0.0.7"]
  txt := Finmap.singleton (ascii "id") (ascii "shellyplug-1")
  ttl := 120

/-- The web server of the plug. -/
def plugServer : MdnsService where
  serviceType := httpServiceType
  instanceName := ascii "shellyplug-1._http._tcp.local."
  hostname := ascii "shellyplug-1.local."
  port := 80
  ttl := 60

theorem merged_record_of_set_plug :
    [plugServer, plug, plugServer].foldl mergeService {} =
      [plug, plugServer].foldl mergeService {} := by
  have hall {P : MdnsService → Prop} (h : P plug) (h' : P plugServer) :
      ∀ c ∈ {c | c ∈ [plug, plugServer]}, P c := by simp [h, h']
  refine (merged_record_of_set ⟨?_, ?_, ?_, ?_, fun key => ?_⟩).2.2 _ fun c => ?_
  · exact hall (by decide +kernel) (by decide +kernel)
  · exact hall (hall (by decide) (by decide +kernel)) (hall (by decide +kernel) (by decide))
  · exact compatible_of_forall _ (hall nofun fun v hv => (Option.some.inj hv).symm)
  · exact compatible_of_forall _ (hall nofun fun v hv => (Option.some.inj hv).symm)
  · refine compatible_of_forall (plug.txt.lookup key) (hall (fun v hv => ?_) fun v hv => ?_)
    · obtain ⟨value, hvalue, rfl⟩ := Option.map_eq_some_iff.1 hv
      exact hvalue.symm
    · rw [setsTxt, show plugServer.txt = ∅ from rfl, Finmap.lookup_empty] at hv
      exact nomatch hv
  · have hrepeated (a b : MdnsService) : c ∈ [b, a, b] ↔ c ∈ [a, b] := by
      simp only [List.mem_cons, List.not_mem_nil, or_false]
      tauto
    exact hrepeated plug plugServer

/-! ### The records a factory keeps -/

/-- The candidates of a device that the factory accepts. -/
def accepted (cs : List MdnsService) (key : Bytes) : List MdnsService :=
  cs.filter fun c => isShellyService c && lowercase (instanceId c) = key

namespace ShellyThingFactory

/-- A candidate that is accepted is merged into the record of its device. -/
theorem lookup_tryCreate (f : ShellyThingFactory) (object : ℕ) (c : MdnsService) (key : Bytes) :
    (f.tryCreate object c).1.discovered.lookup key =
      (accepted [c] key).foldl (accumulate mergeService {}) (f.discovered.lookup key) := by
  unfold tryCreate accepted
  by_cases hs : isShellyService c = true
  · rw [if_neg (by simp [hs])]
    have hlookup : (f.discovered.insert (lowercase (instanceId c)) (f.merge c)).lookup key =
        ([c].filter fun c => isShellyService c && lowercase (instanceId c) = key).foldl
          (accumulate mergeService {})
          (f.discovered.lookup key) := by
      by_cases hkey : key = lowercase (instanceId c)
      · subst hkey
        rw [Finmap.lookup_insert]
        simp [hs, accumulate, merge]
      · rw [Finmap.lookup_insert_of_ne _ hkey]
        simp [Ne.symm hkey]
    dsimp only
    split_ifs
    · exact hlookup
    · exact hlookup
  · rw [if_pos (by simp [hs])]
    simp [hs]

theorem lookup_of_run {cs : List MdnsService} {p p' : Production} (hr : machine.Run p cs p')
    (key : Bytes) : p'.factory.discovered.lookup key =
      (accepted cs key).foldl (accumulate mergeService {}) (p.factory.discovered.lookup key) := by
  induction hr with
  | nil => rfl
  | @cons p p' c cs he hr ih =>
    have hnext : (machine.next p c).factory = (p.factory.tryCreate p.things.length c).1 := by
      change (p.tryCreate c).factory = _
      unfold Production.tryCreate
      split <;> simp_all
    rw [ih, hnext, lookup_tryCreate, ← List.foldl_append, accepted, accepted, ← List.filter_append]
    rfl

/-- Two runs with consistent candidates of a device, the same ones in any order, leave
the same record of it. -/
theorem kept_record_of_set {cs cs' : List MdnsService} {p p' : Production}
    (hr : machine.Run {} cs p) (hr' : machine.Run {} cs' p') {key : Bytes}
    (h : Consistent {c | c ∈ accepted cs key})
    (hsame : ∀ c, c ∈ accepted cs' key ↔ c ∈ accepted cs key) :
    p'.factory.discovered.lookup key = p.factory.discovered.lookup key := by
  rw [lookup_of_run hr, lookup_of_run hr', Finmap.lookup_empty]
  rcases eq_or_ne (accepted cs key) [] with hnil | hne
  · have hnil' : accepted cs' key = [] :=
      List.eq_nil_iff_forall_not_mem.2 fun c hc => by simpa [hnil] using (hsame c).1 hc
    rw [hnil, hnil']
  · have hne' : accepted cs' key ≠ [] := by
      obtain ⟨c, hc⟩ := List.exists_mem_of_ne_nil _ hne
      exact List.ne_nil_of_mem ((hsame c).2 hc)
    rw [foldl_accumulate hne, foldl_accumulate hne', Option.getD_none,
      foldl_mergeService_congr h hsame]

end ShellyThingFactory

end

end Neubau.Shelly
