import Neubau.Mdns.MdnsDiscovery
import Neubau.Stream.ChangeFeed

/-! What the mDNS discovery is for. The records seen say, for each instance, what
its merged record is and, for each host, which addresses it has. After every
datagram the last service emitted for an instance with a PTR and an SRV record is
its merged record with the addresses of its host, and no emission repeats the one
before. Names are compared in lower case. -/

namespace Neubau.Mdns

open Neubau.Common Neubau.Stream

/-! ### Histories of records -/

/-- A record as the discovery understands it. -/
inductive Record
  | ptr (owner instanceName : Bytes) (ttl : UInt32)
  | srv (owner : Bytes) (record : SrvRecord) (ttl : UInt32)
  | txt (owner : Bytes) (txt : Txt) (ttl : UInt32)
  /-- An A or an AAAA record. -/
  | address (owner address : Bytes)
  | other

namespace Record

/-- The key of the instance a record is about; a PTR record without a name is about none. -/
def instanceKey : Record → Option Bytes
  | .ptr _ instanceName _ => if instanceName = [] then none else some (dnsKey instanceName)
  | .srv owner _ _ => some (dnsKey owner)
  | .txt owner _ _ => some (dnsKey owner)
  | _ => none

def isPtr : Record → Bool
  | .ptr .. => true
  | _ => false

def isSrv : Record → Bool
  | .srv .. => true
  | _ => false

/-- The key of a host and an address of it. -/
def hostAddress : Record → Option (Bytes × Bytes)
  | .address owner value => if value = [] then none else some (dnsKey owner, value)
  | _ => none

/-- What a record of an instance changes. -/
def update : Record → PendingService → PendingService
  | .ptr owner instanceName ttl, pending =>
    { pending with
      hasPtr := true
      service := { pending.service with serviceType := owner, instanceName, ttl } }
  | .srv owner record ttl, pending =>
    { pending with
      hasSrv := true
      service := { pending.service with
        instanceName := owner
        hostname := record.name
        port := record.port
        priority := record.priority
        weight := record.weight
        ttl } }
  | .txt owner values ttl, pending =>
    { pending with service := { pending.service with instanceName := owner, txt := values, ttl } }
  | _, pending => pending

end Record

/-- What the records say about an instance, apart from its addresses. -/
def merged (h : List Record) (key : Bytes) : PendingService :=
  (h.filter (·.instanceKey = some key)).foldl (fun pending r => r.update pending) {}

/-- The addresses of a host. -/
def hostAddresses (h : List Record) (host : Bytes) : Finset Bytes :=
  ((h.filterMap Record.hostAddress).filter (·.1 = host)).map (·.2) |>.toFinset

/-- They are listed in order, each once. -/
def knownAddresses (h : List Record) (host : Bytes) : List Bytes :=
  ascending (hostAddresses h host)

/-- The merged record of an instance with the addresses known for its hostname. -/
def current (h : List Record) (key : Bytes) : MdnsService :=
  { (merged h key).service with
    addresses := knownAddresses h (dnsKey (merged h key).service.hostname) }

/-- A record of the kind was seen for an instance. -/
def Seen (kind : Record → Bool) (h : List Record) (key : Bytes) : Prop :=
  ∃ r ∈ h, kind r = true ∧ r.instanceKey = some key

variable {h : List Record} {key : Bytes}

theorem merged_append (h : List Record) (r : Record) (key : Bytes) :
    merged (h ++ [r]) key =
      if r.instanceKey = some key then r.update (merged h key) else merged h key := by
  unfold merged
  rw [List.filter_append, List.foldl_append]
  split_ifs with hr <;> simp [hr]

theorem mem_hostAddresses {host address : Bytes} :
    address ∈ hostAddresses h host ↔
      ∃ owner, .address owner address ∈ h ∧ address ≠ [] ∧ dnsKey owner = host := by
  simp only [hostAddresses, List.mem_toFinset, List.mem_map, List.mem_filter, List.mem_filterMap,
    decide_eq_true_eq]
  constructor
  · rintro ⟨⟨key, value⟩, ⟨⟨r, hr, hmade⟩, rfl⟩, rfl⟩
    cases r with
    | address owner address =>
      rw [Record.hostAddress] at hmade
      split_ifs at hmade with hne
      cases hmade
      exact ⟨owner, hr, hne, rfl⟩
    | _ => cases hmade
  · rintro ⟨owner, hr, hne, rfl⟩
    exact ⟨(dnsKey owner, address), ⟨⟨_, hr, if_neg hne⟩, rfl⟩, rfl⟩

theorem knownAddresses_sorted (h : List Record) (host : Bytes) :
    (knownAddresses h host).Pairwise (· ≤ ·) ∧ (knownAddresses h host).Nodup :=
  ⟨(hostAddresses h host).pairwise_sort _, (hostAddresses h host).sort_nodup _⟩

/-- A record of an address adds it to those of its host. -/
theorem hostAddresses_append (h : List Record) (r : Record) (host : Bytes) :
    hostAddresses (h ++ [r]) host =
      match r.hostAddress with
      | some (host', address) =>
        if host' = host then insert address (hostAddresses h host) else hostAddresses h host
      | none => hostAddresses h host := by
  unfold hostAddresses
  rw [List.filterMap_append, List.filter_append, List.map_append, List.toFinset_append]
  cases hr : r.hostAddress with
  | none => simp [hr]
  | some entry =>
    obtain ⟨host', address⟩ := entry
    dsimp only
    split_ifs with heq
    · simp only [List.filterMap_cons, hr, List.filterMap_nil, heq, decide_true,
        List.filter_cons_of_pos, List.filter_nil, List.map_cons, List.map_nil,
        List.toFinset_cons, List.toFinset_nil, insert_empty_eq]
      rw [Finset.union_comm]
      rfl
    · simp [hr, heq]

theorem mem_ascending {keys : Finset Bytes} {key : Bytes} : key ∈ ascending keys ↔ key ∈ keys :=
  Finset.mem_sort _

theorem insertAddress_ascending (addresses : Finset Bytes) (address : Bytes) :
    insertAddress (ascending addresses) address = ascending (insert address addresses) := by
  by_cases hmem : address ∈ addresses
  · rw [insertAddress, if_pos (List.contains_iff_mem.2 (mem_ascending.2 hmem)),
      Finset.insert_eq_of_mem hmem]
  · unfold ascending
    rw [insertAddress, if_neg (by simpa using hmem)]
    have hperm := List.perm_insertionSort (· ≤ ·) (addresses.sort (· ≤ ·) ++ [address])
    have hnodup : (addresses.sort (· ≤ ·) ++ [address]).Nodup := by
      refine List.Nodup.append (addresses.sort_nodup _) (List.nodup_singleton _) ?_
      simpa using hmem
    refine List.Perm.eq_of_pairwise' (List.pairwise_insertionSort _ _)
      (Finset.pairwise_sort _ _) (hperm.trans ?_)
    refine (List.perm_ext_iff_of_nodup hnodup (Finset.sort_nodup _ _)).2 fun a => ?_
    simp [or_comm]

theorem knownAddresses_append (h : List Record) (r : Record) (host : Bytes) :
    knownAddresses (h ++ [r]) host =
      match r.hostAddress with
      | some (host', address) =>
        if host' = host then insertAddress (knownAddresses h host) address
        else knownAddresses h host
      | none => knownAddresses h host := by
  unfold knownAddresses
  rw [hostAddresses_append]
  cases r.hostAddress with
  | none => rfl
  | some entry =>
    dsimp only
    split_ifs
    · rw [insertAddress_ascending]
    · rfl

/-! ### What has been seen -/

theorem seen_append (kind : Record → Bool) (h : List Record) (r : Record) (key : Bytes) :
    Seen kind (h ++ [r]) key ↔ Seen kind h key ∨ (kind r = true ∧ r.instanceKey = some key) := by
  simp [Seen, or_and_right, exists_or]

theorem Record.update_hasPtr (r : Record) (pending : PendingService) :
    (r.update pending).hasPtr = (pending.hasPtr || r.isPtr) := by
  cases r <;> simp [update, isPtr]

theorem Record.update_hasSrv (r : Record) (pending : PendingService) :
    (r.update pending).hasSrv = (pending.hasSrv || r.isSrv) := by
  cases r <;> simp [update, isSrv]

/-- A flag that the records of a kind set is set once one of them was seen. -/
theorem merged_flag {flag : PendingService → Bool} {kind : Record → Bool} (hnew : flag {} = false)
    (hupdate : ∀ r pending, flag (r.update pending) = (flag pending || kind r))
    (h : List Record) (key : Bytes) : flag (merged h key) = true ↔ Seen kind h key := by
  induction h using List.reverseRecOn with
  | nil => simp [merged, Seen, hnew]
  | append_singleton h r ih =>
    rw [merged_append, seen_append, ← ih]
    split_ifs with hr
    · simp [hupdate, hr]
    · simp [hr]

theorem merged_hasPtr (h : List Record) (key : Bytes) :
    (merged h key).hasPtr = true ↔ Seen Record.isPtr h key :=
  merged_flag rfl Record.update_hasPtr h key

theorem merged_hasSrv (h : List Record) (key : Bytes) :
    (merged h key).hasSrv = true ↔ Seen Record.isSrv h key :=
  merged_flag rfl Record.update_hasSrv h key

theorem Record.update_instanceName {r : Record} (hr : r.instanceKey = some key)
    (pending : PendingService) : dnsKey (r.update pending).service.instanceName = key := by
  cases r with
  | ptr owner name ttl =>
    rw [instanceKey] at hr
    split_ifs at hr
    exact Option.some.inj hr
  | srv owner record ttl => exact Option.some.inj hr
  | txt owner txt ttl => exact Option.some.inj hr
  | _ => cases hr

/-- A merged record goes by the name of its instance. -/
theorem merged_instanceName (hseen : (merged h key).hasPtr = true) :
    dnsKey (merged h key).service.instanceName = key := by
  induction h using List.reverseRecOn with
  | nil => simp [merged] at hseen
  | append_singleton h r ih =>
    rw [merged_append] at hseen ⊢
    split_ifs at hseen ⊢ with hr
    · exact Record.update_instanceName hr _
    · exact ih hseen

/-! ### The discovery follows the records -/

/-- The record with other addresses. -/
def PendingService.withAddresses (pending : PendingService) (addresses : List Bytes) :
    PendingService :=
  { pending with service := { pending.service with addresses } }

theorem Record.update_withAddresses (r : Record) (pending : PendingService)
    (addresses : List Bytes) :
    r.update (pending.withAddresses addresses) = (r.update pending).withAddresses addresses := by
  cases r <;> rfl

/-- The record that `handleRecord` reads. -/
def MdnsParser.record (p : MdnsParser) (data : Bytes) (r : RawRecord) : Record :=
  let owner := p.stringExtract data r.nameOffset
  if r.recordType = recordTypePtr then .ptr owner (p.recordParsePtr data r) r.ttl
  else if r.recordType = recordTypeSrv then .srv owner (p.recordParseSrv data r) r.ttl
  else if r.recordType = recordTypeTxt then .txt owner (parseTxt (p.recordParseTxt data r)) r.ttl
  else if r.recordType = recordTypeA then .address owner (p.recordParseA data r)
  else if r.recordType = recordTypeAaaa then .address owner (p.recordParseAaaa data r)
  else .other

namespace MdnsDiscovery

/-- What a record does to the discovery. -/
def take (s : MdnsDiscovery) (r : Record) : MdnsDiscovery :=
  match r.instanceKey, r.hostAddress with
  | some key, _ => s.updatePending key r.update
  | none, some (host, address) => s.addAddress host address
  | none, none => s

theorem handleRecord_eq (p : MdnsParser) (data : Bytes) (s : MdnsDiscovery) (r : RawRecord) :
    handleRecord p data s r = s.take (p.record data r) := by
  have haddress (owner address : Bytes) :
      s.addAddress (dnsKey owner) address = s.take (.address owner address) := by
    by_cases h : address = [] <;> simp [take, Record.instanceKey, Record.hostAddress, addAddress, h]
  unfold handleRecord MdnsParser.record
  dsimp only
  split_ifs with hptr hname
  · simp [take, Record.instanceKey, Record.hostAddress, hname]
  · simp [take, Record.instanceKey, hname]
    rfl
  · rfl
  · rfl
  · exact haddress _ _
  · exact haddress _ _
  · rfl

def feed (s : MdnsDiscovery) : ChangeFeed Bytes MdnsService := ⟨s.emitted, s.log⟩

/-- The key of a service. -/
def serviceKey (service : MdnsService) : Bytes := dnsKey service.instanceName

/-- The services emitted for an instance. -/
def emissions (s : MdnsDiscovery) (key : Bytes) : List MdnsService :=
  ChangeFeed.told serviceKey s.log key

/-- PTR and SRV record of an instance were seen. -/
def Resolved (h : List Record) (key : Bytes) : Prop :=
  Seen Record.isPtr h key ∧ Seen Record.isSrv h key

/-- The discovery holds what the records say, and is silent of what they leave open. -/
structure Tracks (s : MdnsDiscovery) (h : List Record) : Prop where
  pending : ∀ key, ∃ addresses,
    (s.discoveredServices.lookup key).getD {} = (merged h key).withAddresses addresses
  addresses : ∀ host, (s.addresses.lookup host).getD [] = knownAddresses h host
  faithful : s.feed.Faithful serviceKey
  silent : ∀ key, ¬Resolved h key → s.emissions key = []

theorem Tracks.empty : Tracks {} [] where
  pending key := ⟨[], by rw [Finmap.lookup_empty]; rfl⟩
  addresses host := by simp [knownAddresses, hostAddresses, ascending]
  faithful := .empty
  silent _ _ := rfl

theorem Resolved.append {h : List Record} {key : Bytes} (hr : Resolved h key) (r : Record) :
    Resolved (h ++ [r]) key :=
  ⟨(seen_append _ h r key).2 (.inl hr.1), (seen_append _ h r key).2 (.inl hr.2)⟩

variable {s : MdnsDiscovery}

theorem Tracks.take (ht : s.Tracks h) (r : Record) : (s.take r).Tracks (h ++ [r]) := by
  have hsilent (key : Bytes) (hr : ¬Resolved (h ++ [r]) key) : s.emissions key = [] :=
    ht.silent key fun hold => hr (hold.append r)
  unfold MdnsDiscovery.take
  split
  · rename_i key hkey
    have hhost : r.hostAddress = none := by
      cases r <;> first | rfl | cases hkey
    refine ⟨fun key' => ?_, fun host => ?_, ht.faithful, hsilent⟩
    · obtain ⟨addresses, hp⟩ := ht.pending key'
      refine ⟨addresses, ?_⟩
      rw [merged_append]
      by_cases heq : key = key'
      · subst heq
        simp only [updatePending, Finmap.lookup_insert, hp, hkey, ↓reduceIte]
        exact Record.update_withAddresses _ _ _
      · rw [if_neg (by simpa [hkey] using heq)]
        simp only [updatePending]
        rw [Finmap.lookup_insert_of_ne _ (Ne.symm heq)]
        exact hp
    · rw [knownAddresses_append, hhost]
      exact ht.addresses host
  · rename_i host address hkey hhost
    have hne : address ≠ [] := by
      cases r with
      | address owner value =>
        rw [Record.hostAddress] at hhost
        split_ifs at hhost with hv
        cases hhost
        exact hv
      | _ => cases hhost
    unfold addAddress
    rw [if_neg hne]
    refine ⟨fun key' => ?_, fun host' => ?_, ht.faithful, hsilent⟩
    · rw [merged_append, if_neg (by simp [hkey])]
      exact ht.pending key'
    · rw [knownAddresses_append, hhost]
      dsimp only
      split_ifs with heq
      · subst heq
        rw [Finmap.lookup_insert, ht.addresses]
        rfl
      · rw [Finmap.lookup_insert_of_ne _ (Ne.symm heq)]
        exact ht.addresses host'
  · rename_i hkey hhost
    refine ⟨fun key' => ?_, fun host => ?_, ht.faithful, hsilent⟩
    · rw [merged_append, if_neg (by simp [hkey])]
      exact ht.pending key'
    · rw [knownAddresses_append, hhost]
      exact ht.addresses host

/-- The service of an instance as it is to be emitted. -/
theorem Tracks.current (ht : s.Tracks h) {pending : PendingService}
    (hp : s.discoveredServices.lookup key = some pending) :
    { pending.service with
      addresses := (s.addresses.lookup (dnsKey pending.service.hostname)).getD [] } =
      Mdns.current h key := by
  obtain ⟨addresses, heq⟩ := ht.pending key
  obtain rfl : pending = (merged h key).withAddresses addresses := by simpa [hp] using heq
  rw [ht.addresses]
  rfl

theorem Tracks.flags (ht : s.Tracks h) {pending : PendingService}
    (hp : s.discoveredServices.lookup key = some pending) :
    (pending.hasPtr = true ∧ pending.hasSrv = true) ↔ Resolved h key := by
  obtain ⟨addresses, heq⟩ := ht.pending key
  obtain rfl : pending = (merged h key).withAddresses addresses := by simpa [hp] using heq
  rw [Resolved, ← merged_hasPtr, ← merged_hasSrv]
  rfl

/-- An instance with a PTR and an SRV record is in the map. -/
theorem Tracks.mem_keys (ht : s.Tracks h) (hr : Resolved h key) :
    key ∈ s.discoveredServices.keys := by
  rw [Finmap.mem_keys]
  by_contra hn
  obtain ⟨addresses, heq⟩ := ht.pending key
  rw [Finmap.lookup_eq_none.2 hn] at heq
  have hptr : (merged h key).hasPtr = true := (merged_hasPtr h key).2 hr.1
  rw [show (merged h key).hasPtr = false from (congrArg PendingService.hasPtr heq).symm] at hptr
  cases hptr

theorem serviceKey_current (hr : Resolved h key) : serviceKey (Mdns.current h key) = key :=
  merged_instanceName ((merged_hasPtr h key).2 hr.1)

/-- The loop body publishes the current service of an instance that is resolved. -/
theorem Tracks.emitChange_feed (ht : s.Tracks h) (hr : Resolved h key) :
    (s.emitChange key).feed = s.feed.publish serviceKey (Mdns.current h key) := by
  obtain ⟨pending, hp⟩ := Finmap.mem_iff.1 (Finmap.mem_keys.1 (ht.mem_keys hr))
  obtain ⟨hptr, hsrv⟩ := (ht.flags hp).2 hr
  unfold emitChange ChangeFeed.publish
  rw [hp, serviceKey_current hr]
  simp only [hptr, hsrv, Bool.not_true, Bool.or_self, Bool.false_eq_true, ↓reduceIte,
    ht.current hp]
  by_cases hsame : s.emitted.lookup key = some (Mdns.current h key)
  · rw [if_pos hsame]
    exact (if_pos hsame).symm
  · rw [if_neg hsame]
    exact (if_neg hsame).symm

theorem Tracks.emitChange_unresolved (ht : s.Tracks h) (hr : ¬Resolved h key) :
    s.emitChange key = s := by
  unfold emitChange
  split
  · rfl
  · rename_i pending hp
    have hflags := mt (ht.flags hp).1 hr
    exact if_pos (by cases hptr : pending.hasPtr <;> simp_all)

/-- Emitting what changed of one instance changes only the addresses of its record. -/
theorem Tracks.emitChange_maps (ht : s.Tracks h) (hr : Resolved h key) :
    (∀ key', ∃ addresses, ((s.emitChange key).discoveredServices.lookup key').getD {} =
      (merged h key').withAddresses addresses) ∧
    ∀ host, ((s.emitChange key).addresses.lookup host).getD [] = knownAddresses h host := by
  obtain ⟨pending, hp⟩ := Finmap.mem_iff.1 (Finmap.mem_keys.1 (ht.mem_keys hr))
  obtain ⟨hptr, hsrv⟩ := (ht.flags hp).2 hr
  obtain ⟨addresses, heq⟩ := ht.pending key
  obtain rfl : pending = (merged h key).withAddresses addresses := by simpa [hp] using heq
  have hmaps : ∃ known, (s.emitChange key).discoveredServices =
      s.discoveredServices.insert key ((merged h key).withAddresses known) ∧
      ∃ host, (s.emitChange key).addresses =
        s.addresses.insert host ((s.addresses.lookup host).getD []) := by
    unfold emitChange
    rw [hp]
    dsimp only
    rw [if_neg (by simp [hptr, hsrv])]
    refine ⟨(s.addresses.lookup (dnsKey (merged h key).service.hostname)).getD [], ?_,
      dnsKey (merged h key).service.hostname, ?_⟩ <;>
    · split_ifs <;> rfl
  obtain ⟨known, hservices, host, hhosts⟩ := hmaps
  rw [hservices, hhosts]
  constructor
  · intro key'
    by_cases hk : key' = key
    · subst hk
      exact ⟨known, by rw [Finmap.lookup_insert]; rfl⟩
    · rw [Finmap.lookup_insert_of_ne _ hk]
      exact ht.pending key'
  · intro host'
    by_cases hk : host' = host
    · subst hk
      rw [Finmap.lookup_insert]
      exact ht.addresses host'
    · rw [Finmap.lookup_insert_of_ne _ hk]
      exact ht.addresses host'

/-- The last service emitted for an instance is the current one. -/
def UpToDate (s : MdnsDiscovery) (h : List Record) (key : Bytes) : Prop :=
  Resolved h key → (s.emissions key).getLast? = some (Mdns.current h key)

/-- Emitting what changed of one instance brings it up to date and leaves the others. -/
theorem Tracks.emitChange (ht : s.Tracks h) (key : Bytes) :
    (s.emitChange key).Tracks h ∧ (s.emitChange key).UpToDate h key ∧
      ∀ key' ≠ key, (s.emitChange key).emissions key' = s.emissions key' := by
  by_cases hr : Resolved h key
  · have hfeed := ht.emitChange_feed hr
    have hkey := serviceKey_current hr
    have hlog : (s.emitChange key).log =
        (s.feed.publish serviceKey (Mdns.current h key)).log := congrArg ChangeFeed.log hfeed
    have hother (key' : Bytes) (hne : key' ≠ key) :
        (s.emitChange key).emissions key' = s.emissions key' := by
      rw [emissions, hlog]
      exact ChangeFeed.told_publish_of_ne _ (by rw [hkey]; exact Ne.symm hne)
    obtain ⟨hpending, haddresses⟩ := ht.emitChange_maps hr
    refine ⟨⟨hpending, haddresses, ?_, fun key' hr' => ?_⟩, fun _ => ?_, hother⟩
    · rw [hfeed]
      exact ht.faithful.publish _
    · have hne : key' ≠ key := fun heq => hr' (heq ▸ hr)
      rw [hother key' hne]
      exact ht.silent key' hr'
    · have hlast := ht.faithful.getLast?_publish (Mdns.current h key)
      rwa [hkey, ← hlog] at hlast
  · rw [ht.emitChange_unresolved hr]
    exact ⟨ht, fun hr' => absurd hr' hr, fun _ _ => rfl⟩

/-- The loop brings every instance up to date whose key it has run over. -/
theorem Tracks.foldl_emitChange (keys : List Bytes) {s : MdnsDiscovery} (ht : s.Tracks h) :
    (keys.foldl MdnsDiscovery.emitChange s).Tracks h ∧
      ∀ key, key ∈ keys ∨ s.UpToDate h key →
        (keys.foldl MdnsDiscovery.emitChange s).UpToDate h key := by
  induction keys generalizing s with
  | nil => exact ⟨ht, fun key hkey => by simpa using hkey⟩
  | cons first rest ih =>
    obtain ⟨hnext, hdone, hother⟩ := ht.emitChange first
    obtain ⟨hrest, hall⟩ := ih hnext
    refine ⟨hrest, fun key hkey => hall key ?_⟩
    by_cases heq : key = first
    · exact .inr (heq ▸ hdone)
    · rcases hkey with hkey | hkey
      · exact .inl ((List.mem_cons.1 hkey).resolve_left heq)
      · refine .inr fun hr => ?_
        rw [hother key heq]
        exact hkey hr

theorem Tracks.emitChanges (ht : s.Tracks h) :
    s.emitChanges.Tracks h ∧ ∀ key, s.emitChanges.UpToDate h key := by
  obtain ⟨hend, hall⟩ := ht.foldl_emitChange (ascending s.discoveredServices.keys)
  refine ⟨hend, fun key hr => hall key (.inl ?_) hr⟩
  exact mem_ascending.2 (ht.mem_keys hr)

theorem Tracks.foldl_take (rs : List Record) {h : List Record} {s : MdnsDiscovery}
    (ht : s.Tracks h) : (rs.foldl MdnsDiscovery.take s).Tracks (h ++ rs) := by
  induction rs generalizing h s with
  | nil => simpa using ht
  | cons r rs ih => simpa using ih (ht.take r)

end MdnsDiscovery

/-! ### Datagrams -/

open MdnsDiscovery (readU16 skipQuestions)

/-- A datagram that the discovery does not ignore. -/
def IsResponse (bytes : Bytes) : Prop := 12 ≤ bytes.length ∧ 0x8000 ≤ readU16 bytes 2

instance (bytes : Bytes) : Decidable (IsResponse bytes) := inferInstanceAs (Decidable (_ ∧ _))

namespace MdnsParser

/-- The records of the three sections behind the questions. -/
def sections (p : MdnsParser) (bytes : Bytes) :
    Option (List RawRecord × List RawRecord × List RawRecord) := do
  let offset ← skipQuestions p bytes (readU16 bytes 4) 12
  let (answers, offset) := p.recordsParse bytes offset .answer (readU16 bytes 6)
  let (authorities, offset) := p.recordsParse bytes offset .authority (readU16 bytes 8)
  let (additionals, _) := p.recordsParse bytes offset .additional (readU16 bytes 10)
  return (answers, authorities, additionals)

/-- The questions of a response and its answer and authority sections parse. -/
def Parses (p : MdnsParser) (bytes : Bytes) : Prop :=
  IsResponse bytes →
    match p.sections bytes with
    | some (answers, authorities, _) =>
      answers.length = readU16 bytes 6 ∧ authorities.length = readU16 bytes 8
    | none => False

instance (p : MdnsParser) (bytes : Bytes) : Decidable (p.Parses bytes) := by
  unfold Parses
  split <;> infer_instance

/-- The records a datagram shows the discovery. -/
def records (p : MdnsParser) (bytes : Bytes) : List Record :=
  if IsResponse bytes then
    match p.sections bytes with
    | some (answers, authorities, additionals) =>
      (answers ++ authorities ++ additionals).map (p.record bytes)
    | none => []
  else []

end MdnsParser

variable {p : MdnsParser}

theorem foldl_handleRecord (data : Bytes) (rs : List RawRecord) (s : MdnsDiscovery) :
    rs.foldl (MdnsDiscovery.handleRecord p data) s =
      (rs.map (p.record data)).foldl MdnsDiscovery.take s := by
  rw [List.foldl_map]
  congr 1
  funext s r
  exact MdnsDiscovery.handleRecord_eq p data s r

theorem onDatagram_ignored {bytes : Bytes} (hn : ¬IsResponse bytes) (s : MdnsDiscovery) :
    s.onDatagram p bytes = s ∧ p.records bytes = [] := by
  refine ⟨?_, if_neg hn⟩
  unfold MdnsDiscovery.onDatagram
  by_cases hlen : bytes.length < 12
  · exact if_pos hlen
  · rw [if_neg hlen]
    exact if_pos (by by_contra hflags; exact hn ⟨by omega, by omega⟩)

/-- A response shows its records, and then the changes are emitted. -/
theorem onDatagram_response {bytes : Bytes} (hr : IsResponse bytes) (hp : p.Parses bytes)
    (s : MdnsDiscovery) :
    s.onDatagram p bytes = ((p.records bytes).foldl MdnsDiscovery.take s).emitChanges := by
  have hparsed := hp hr
  cases hsections : p.sections bytes with
  | none => simp [hsections] at hparsed
  | some sections =>
    obtain ⟨answers, authorities, additionals⟩ := sections
    obtain ⟨hanswers, hauthorities⟩ : answers.length = readU16 bytes 6 ∧
        authorities.length = readU16 bytes 8 := by simpa [hsections] using hparsed
    have hrecords : p.records bytes =
        (answers ++ authorities ++ additionals).map (p.record bytes) := by
      rw [MdnsParser.records, if_pos hr, hsections]
    rw [hrecords, List.map_append, List.map_append, List.foldl_append, List.foldl_append,
      ← foldl_handleRecord, ← foldl_handleRecord, ← foldl_handleRecord]
    obtain ⟨hlen, hflags⟩ := hr
    unfold MdnsParser.sections at hsections
    unfold MdnsDiscovery.onDatagram
    rw [if_neg (by omega), if_neg (by omega)]
    cases hq : skipQuestions p bytes (readU16 bytes 4) 12 with
    | none =>
      rw [hq] at hsections
      cases hsections
    | some offset =>
      rw [hq] at hsections
      cases hsections
      dsimp only
      rw [if_neg (by simpa using hanswers), if_neg (by simpa using hauthorities)]

/-- After every datagram the last service emitted for an instance with a PTR and
an SRV record is its current one, with the addresses of its host in order and each
once; for the others nothing is emitted; and no two consecutive emissions for an
instance are equal. -/
theorem emits_exactly_the_changes (p : MdnsParser) {datagrams : List Bytes}
    (hparse : ∀ bytes ∈ datagrams, p.Parses bytes) (key : Bytes) :
    let s := datagrams.foldl (MdnsDiscovery.onDatagram p) {}
    let h := datagrams.flatMap p.records
    (Seen Record.isPtr h key ∧ Seen Record.isSrv h key →
      (s.emissions key).getLast? = some (current h key)) ∧
    (¬(Seen Record.isPtr h key ∧ Seen Record.isSrv h key) → s.emissions key = []) ∧
    (s.emissions key).IsChain (· ≠ ·) ∧
    ∀ host, (knownAddresses h host).Pairwise (· ≤ ·) ∧ (knownAddresses h host).Nodup ∧
      ∀ address, address ∈ knownAddresses h host ↔
        ∃ owner, .address owner address ∈ h ∧ address ≠ [] ∧ dnsKey owner = host := by
  have hrun : ∀ {s : MdnsDiscovery} {h : List Record}, s.Tracks h →
      (∀ key, s.UpToDate h key) →
      (datagrams.foldl (MdnsDiscovery.onDatagram p) s).Tracks (h ++ datagrams.flatMap p.records) ∧
      ∀ key, (datagrams.foldl (MdnsDiscovery.onDatagram p) s).UpToDate
        (h ++ datagrams.flatMap p.records) key := by
    induction datagrams with
    | nil =>
      intro s h ht hu
      simpa using ⟨ht, hu⟩
    | cons bytes rest ih =>
      intro s h ht hu
      have hrest := fun b hb => hparse b (List.mem_cons_of_mem _ hb)
      rw [List.foldl_cons, List.flatMap_cons, ← List.append_assoc]
      by_cases hr : IsResponse bytes
      · rw [onDatagram_response hr (hparse bytes List.mem_cons_self) s]
        obtain ⟨hnext, hall⟩ := (ht.foldl_take (p.records bytes)).emitChanges
        exact ih hrest hnext hall
      · obtain ⟨hs, hnone⟩ := onDatagram_ignored (p := p) hr s
        rw [hs, hnone, List.append_nil]
        exact ih hrest ht hu
  have hopen : ∀ key, MdnsDiscovery.UpToDate {} [] key := by
    rintro key ⟨⟨r, hr, -⟩, -⟩
    cases hr
  obtain ⟨ht, hu⟩ := hrun .empty hopen
  refine ⟨hu key, ht.silent key, ht.faithful.changes key, fun host => ?_⟩
  obtain ⟨hsorted, hnodup⟩ := knownAddresses_sorted (datagrams.flatMap p.records) host
  refine ⟨hsorted, hnodup, fun address => ?_⟩
  exact mem_ascending.trans mem_hostAddresses

/-! ### A run -/

/-- The name at an offset, where names are not compressed, and the offset behind it. -/
def plainName (bytes : Bytes) : ℕ → ℕ → Bytes × ℕ
  | 0, offset => ([], offset)
  | fuel + 1, offset =>
    let length := (bytes.getD offset 0).toNat
    if length = 0 then ([], offset + 1)
    else
      let (name, behind) := plainName bytes fuel (offset + 1 + length)
      ((bytes.drop (offset + 1)).take length ++ 46 :: name, behind)

/-- The records at an offset, where names are not compressed. -/
def plainRecords (bytes : Bytes) : ℕ → ℕ → List RawRecord × ℕ
  | 0, offset => ([], offset)
  | count + 1, offset =>
    let behind := (plainName bytes bytes.length offset).2
    let length := readU16 bytes (behind + 8)
    let record : RawRecord := {
      recordType := UInt16.ofNat (readU16 bytes behind)
      ttl := UInt32.ofNat (readU16 bytes (behind + 4) * 65536 + readU16 bytes (behind + 6))
      nameOffset := offset
      recordOffset := behind + 10
      recordLength := length }
    let (rest, offset) := plainRecords bytes count (behind + 10 + length)
    (record :: rest, offset)

/-- mdns.h on well-formed datagrams without compressed names, TXT and AAAA records. -/
def MdnsParser.plain : MdnsParser where
  stringSkip bytes offset := some (plainName bytes bytes.length offset).2
  recordsParse bytes offset _ count := plainRecords bytes count offset
  stringExtract bytes offset := (plainName bytes bytes.length offset).1
  recordParsePtr bytes r := (plainName bytes bytes.length r.recordOffset).1
  recordParseSrv bytes r := {
    name := (plainName bytes bytes.length (r.recordOffset + 6)).1
    port := UInt16.ofNat (readU16 bytes (r.recordOffset + 4))
    priority := UInt16.ofNat (readU16 bytes r.recordOffset)
    weight := UInt16.ofNat (readU16 bytes (r.recordOffset + 2)) }
  recordParseTxt _ _ := []
  recordParseA bytes r :=
    (List.intersperse (ascii ".")
      (((bytes.drop r.recordOffset).take 4).map fun b => decimal b.toNat)).flatten
  recordParseAaaa _ _ := []

/-- A PTR record of `x.t.` and an SRV record of `X.t.`. -/
def oneService : Bytes :=
  [0, 0, 0x84, 0, 0, 0, 0, 2, 0, 0, 0, 0,
    1, 116, 0, 0, 12, 0, 1, 0, 0, 0, 120, 0, 5, 1, 120, 1, 116, 0,
    1, 88, 1, 116, 0, 0, 33, 0, 1, 0, 0, 0, 120, 0, 9, 0, 0, 0, 0, 0, 80, 1, 100, 0]

/-- An address of `D.`. -/
def laterAddress : Bytes :=
  [0, 0, 0x84, 0, 0, 0, 0, 1, 0, 0, 0, 0,
    1, 68, 0, 0, 1, 0, 1, 0, 0, 0, 120, 0, 4, 10, 0, 0, 2]

/-- The service of those datagrams. -/
def theService : MdnsService where
  serviceType := ascii "t."
  instanceName := ascii "X.t."
  hostname := ascii "d."
  port := 80
  addresses := [ascii "10.0.0.2"]
  ttl := 120

instance (kind : Record → Bool) (h : List Record) (key : Bytes) : Decidable (Seen kind h key) :=
  inferInstanceAs (Decidable (∃ r ∈ h, _))

/-- The later address has the service emitted again; a repetition of it has not, nor has
one of the service. -/
theorem emits_exactly_the_changes_later :
    let emitted := ([oneService, laterAddress, laterAddress, oneService].foldl
      (MdnsDiscovery.onDatagram .plain) {}).emissions (ascii "x.t.")
    emitted.getLast? = some theService ∧ emitted.IsChain (· ≠ ·) ∧ emitted.length = 2 := by
  have hparse : ∀ bytes ∈ [oneService, laterAddress, laterAddress, oneService],
      MdnsParser.plain.Parses bytes := by decide +kernel
  have hcurrent : current ([oneService, laterAddress, laterAddress, oneService].flatMap
      MdnsParser.plain.records) (ascii "x.t.") = theService := by decide +kernel
  obtain ⟨hlast, -, hchanges, -⟩ := emits_exactly_the_changes .plain hparse (ascii "x.t.")
  exact ⟨hcurrent ▸ hlast (by decide +kernel), hchanges, by decide +kernel⟩

end Neubau.Mdns
