import Neubau.Mdns.Changes
import Neubau.Stream.Override

/-! Datagrams that the discovery rejects. It decides that a section is incomplete
after it has handled the records of it that are complete, and it does not take them
back. So a rejected datagram has no effect exactly if those records repeat what is
known already. -/

namespace Neubau.Mdns

open Neubau.Common Neubau.Stream
open MdnsDiscovery (readU16 skipQuestions)

/-! ### What records say -/

namespace Record

def setsPtr (r : Record) : Option Bool := if r.isPtr then some true else none

def setsSrv (r : Record) : Option Bool := if r.isSrv then some true else none

def setsServiceType : Record → Option Bytes
  | .ptr owner _ _ => some owner
  | _ => none

def setsInstanceName : Record → Option Bytes
  | .ptr _ instanceName _ => some instanceName
  | .srv owner _ _ => some owner
  | .txt owner _ _ => some owner
  | _ => none

def setsEndpoint : Record → Option SrvRecord
  | .srv _ record _ => some record
  | _ => none

def setsTxt : Record → Option Txt
  | .txt _ values _ => some values
  | _ => none

def setsTtl : Record → Option UInt32
  | .ptr _ _ ttl => some ttl
  | .srv _ _ ttl => some ttl
  | .txt _ _ ttl => some ttl
  | _ => none

end Record

/-- Hostname, port, priority and weight, which an SRV record sets together. -/
def endpoint (service : MdnsService) : SrvRecord where
  name := service.hostname
  port := service.port
  priority := service.priority
  weight := service.weight

/-- What the records say last of each field is what is kept of the instance. -/
structure Repeats (pending : PendingService) (rs : List Record) : Prop where
  ptr : LastSets Record.setsPtr rs pending.hasPtr
  srv : LastSets Record.setsSrv rs pending.hasSrv
  serviceType : LastSets Record.setsServiceType rs pending.service.serviceType
  instanceName : LastSets Record.setsInstanceName rs pending.service.instanceName
  endpoint : LastSets Record.setsEndpoint rs (endpoint pending.service)
  txt : LastSets Record.setsTxt rs pending.service.txt
  ttl : LastSets Record.setsTtl rs pending.service.ttl

/-- The records of an instance. -/
def recordsOf (rs : List Record) (key : Bytes) : List Record :=
  rs.filter (·.instanceKey = some key)

/-- The addresses that records give a host. -/
def addressesOf (rs : List Record) (host : Bytes) : List Bytes :=
  ((rs.filterMap Record.hostAddress).filter (·.1 = host)).map (·.2)

namespace MdnsDiscovery

/-- The discovery knows the instances and the addresses of the records already. -/
structure Knows (s : MdnsDiscovery) (rs : List Record) : Prop where
  instances : ∀ key, recordsOf rs key ≠ [] →
    ∃ pending ∈ s.discoveredServices.lookup key, Repeats pending (recordsOf rs key)
  addresses : ∀ host, ∀ address ∈ addressesOf rs host,
    address ∈ (s.addresses.lookup host).getD []

end MdnsDiscovery

/-! ### Repeated records -/

variable {pending : PendingService} {rs : List Record}

theorem foldl_update_field {α : Type*} (field : PendingService → α) (sets : Record → Option α)
    (h : ∀ pending r, field (r.update pending) = override sets (field pending) r)
    (pending : PendingService) (rs : List Record) :
    field (rs.foldl (fun pending r => r.update pending) pending) = field pending ↔
      LastSets sets rs (field pending) := by
  have hfold : rs.foldl (override sets) (field pending) =
      field (rs.foldl (fun pending r => r.update pending) pending) :=
    List.foldl_hom field fun pending r => (h pending r).symm
  rw [← hfold, foldl_override_eq_iff]

theorem foldl_update_addresses (pending : PendingService) (rs : List Record) :
    (rs.foldl (fun pending r => r.update pending) pending).service.addresses =
      pending.service.addresses := by
  induction rs generalizing pending with
  | nil => rfl
  | cons r rs ih =>
    rw [List.foldl_cons, ih]
    cases r <;> rfl

theorem PendingService.ext_fields {a b : PendingService} : a = b ↔
    a.hasPtr = b.hasPtr ∧ a.hasSrv = b.hasSrv ∧ a.service.serviceType = b.service.serviceType ∧
    a.service.instanceName = b.service.instanceName ∧ endpoint a.service = endpoint b.service ∧
    a.service.txt = b.service.txt ∧ a.service.ttl = b.service.ttl ∧
    a.service.addresses = b.service.addresses := by
  constructor
  · rintro rfl
    simp
  · obtain ⟨⟨⟩, _, _⟩ := a
    obtain ⟨⟨⟩, _, _⟩ := b
    simp only [endpoint, SrvRecord.mk.injEq, PendingService.mk.injEq, MdnsService.mk.injEq]
    tauto

/-- Records change nothing of an instance exactly if they repeat it. -/
theorem foldl_update_eq_iff :
    rs.foldl (fun pending r => r.update pending) pending = pending ↔ Repeats pending rs := by
  have hptr := foldl_update_field (·.hasPtr) Record.setsPtr (by rintro q (_ | _ | _) <;> rfl)
    pending rs
  have hsrv := foldl_update_field (·.hasSrv) Record.setsSrv (by rintro q (_ | _ | _) <;> rfl)
    pending rs
  have htype := foldl_update_field (·.service.serviceType) Record.setsServiceType
    (by rintro q (_ | _ | _) <;> rfl) pending rs
  have hname := foldl_update_field (·.service.instanceName) Record.setsInstanceName
    (by rintro q (_ | _ | _) <;> rfl) pending rs
  have hendpoint := foldl_update_field (endpoint ·.service) Record.setsEndpoint
    (by rintro q (_ | _ | _) <;> rfl) pending rs
  have htxt := foldl_update_field (·.service.txt) Record.setsTxt
    (by rintro q (_ | _ | _) <;> rfl) pending rs
  have httl := foldl_update_field (·.service.ttl) Record.setsTtl
    (by rintro q (_ | _ | _) <;> rfl) pending rs
  rw [PendingService.ext_fields, hptr, hsrv, htype, hname, hendpoint, htxt, httl]
  constructor
  · rintro ⟨h₁, h₂, h₃, h₄, h₅, h₆, h₇, -⟩
    exact ⟨h₁, h₂, h₃, h₄, h₅, h₆, h₇⟩
  · rintro ⟨h₁, h₂, h₃, h₄, h₅, h₆, h₇⟩
    exact ⟨h₁, h₂, h₃, h₄, h₅, h₆, h₇, foldl_update_addresses pending rs⟩

theorem mem_insertAddress {known : List Bytes} {address a : Bytes} :
    a ∈ insertAddress known address ↔ a ∈ known ∨ a = address := by
  unfold insertAddress
  split_ifs with h
  · refine (or_iff_left_of_imp ?_).symm
    rintro rfl
    exact List.contains_iff_mem.1 h
  · rw [(List.perm_insertionSort (· ≤ ·) _).mem_iff, List.mem_append, List.mem_singleton]

/-- Addresses change nothing of a host exactly if they are known. -/
theorem foldl_insertAddress_eq_iff {known addresses : List Bytes} :
    addresses.foldl insertAddress known = known ↔ ∀ address ∈ addresses, address ∈ known := by
  constructor
  · intro h address hmem
    have hall : ∀ (addresses known : List Bytes) (address : Bytes),
        address ∈ known ∨ address ∈ addresses → address ∈ addresses.foldl insertAddress known := by
      intro addresses
      induction addresses with
      | nil => simp
      | cons first addresses ih =>
        intro known address hor
        apply ih
        rw [mem_insertAddress]
        simp only [List.mem_cons] at hor
        tauto
    rw [← h]
    exact hall addresses known address (.inr hmem)
  · intro h
    induction addresses with
    | nil => rfl
    | cons first addresses ih =>
      have hfirst : insertAddress known first = known :=
        if_pos (List.contains_iff_mem.2 (h first List.mem_cons_self))
      rw [List.foldl_cons, hfirst]
      exact ih fun address hmem => h address (List.mem_cons_of_mem _ hmem)

namespace MdnsDiscovery

variable {s : MdnsDiscovery}

theorem lookup_take (s : MdnsDiscovery) (r : Record) (key : Bytes) :
    (s.take r).discoveredServices.lookup key =
      (recordsOf [r] key).foldl (accumulate (fun pending r => r.update pending) {})
        (s.discoveredServices.lookup key) := by
  unfold take recordsOf
  cases hr : r.instanceKey with
  | none =>
    cases r.hostAddress with
    | none => simp [hr]
    | some entry =>
      obtain ⟨host, address⟩ := entry
      simp only [addAddress]
      split_ifs <;> simp [hr]
  | some key' =>
    simp only [updatePending]
    by_cases hkey : key = key'
    · subst hkey
      rw [Finmap.lookup_insert]
      simp [hr, accumulate]
    · rw [Finmap.lookup_insert_of_ne _ hkey]
      simp [hr, Ne.symm hkey]

theorem hostAddress_some {r : Record} {host address : Bytes}
    (h : r.hostAddress = some (host, address)) : r.instanceKey = none ∧ address ≠ [] := by
  cases r with
  | address owner value =>
    rw [Record.hostAddress] at h
    split_ifs at h with hne
    obtain ⟨-, rfl⟩ := Prod.mk.inj (Option.some.inj h)
    exact ⟨rfl, hne⟩
  | _ => cases h

theorem addresses_take (s : MdnsDiscovery) (r : Record) (host : Bytes) :
    (s.take r).addresses.lookup host =
      (addressesOf [r] host).foldl (accumulate insertAddress []) (s.addresses.lookup host) := by
  unfold addressesOf
  cases hr : r.hostAddress with
  | none =>
    have htake : (s.take r).addresses = s.addresses := by
      unfold take
      cases r.instanceKey <;> simp [hr, updatePending]
    simp [htake, hr]
  | some entry =>
    obtain ⟨host', address⟩ := entry
    obtain ⟨hkey, hne⟩ := hostAddress_some hr
    simp only [take, hkey, hr, addAddress, if_neg hne]
    by_cases hhost : host = host'
    · subst hhost
      rw [Finmap.lookup_insert]
      simp [hr, accumulate]
    · rw [Finmap.lookup_insert_of_ne _ hhost]
      simp [hr, Ne.symm hhost]

theorem take_emitted (s : MdnsDiscovery) (r : Record) :
    (s.take r).emitted = s.emitted ∧ (s.take r).log = s.log := by
  unfold take
  split
  · exact ⟨rfl, rfl⟩
  · unfold addAddress
    split_ifs <;> exact ⟨rfl, rfl⟩
  · exact ⟨rfl, rfl⟩

/-- What a list of records does to each part of the discovery. -/
theorem foldl_take (rs : List Record) (s : MdnsDiscovery) :
    (∀ key, (rs.foldl take s).discoveredServices.lookup key =
      (recordsOf rs key).foldl (accumulate (fun pending r => r.update pending) {})
        (s.discoveredServices.lookup key)) ∧
    (∀ host, (rs.foldl take s).addresses.lookup host =
      (addressesOf rs host).foldl (accumulate insertAddress []) (s.addresses.lookup host)) ∧
    (rs.foldl take s).emitted = s.emitted ∧ (rs.foldl take s).log = s.log := by
  induction rs generalizing s with
  | nil => exact ⟨fun _ => rfl, fun _ => rfl, rfl, rfl⟩
  | cons r rs ih =>
    obtain ⟨hservices, haddresses, hemitted, hlog⟩ := ih (s.take r)
    obtain ⟨hemitted', hlog'⟩ := s.take_emitted r
    have hrecords (key : Bytes) : recordsOf (r :: rs) key = recordsOf [r] key ++ recordsOf rs key :=
      List.filter_append [r] rs
    have hhosts (host : Bytes) :
        addressesOf (r :: rs) host = addressesOf [r] host ++ addressesOf rs host := by
      unfold addressesOf
      rw [← List.map_append, ← List.filter_append, ← List.filterMap_append]
      rfl
    rw [List.foldl_cons]
    refine ⟨fun key => ?_, fun host => ?_, hemitted.trans hemitted', hlog.trans hlog'⟩
    · rw [hservices, lookup_take, hrecords, List.foldl_append]
    · rw [haddresses, addresses_take, hhosts, List.foldl_append]

/-- Records have no effect exactly if the discovery knows what they say. -/
theorem foldl_take_eq_iff {rs : List Record} : rs.foldl take s = s ↔ s.Knows rs := by
  obtain ⟨hservices, haddresses, hemitted, hlog⟩ := foldl_take rs s
  have hparts : rs.foldl take s = s ↔
      (∀ key, (rs.foldl take s).discoveredServices.lookup key = s.discoveredServices.lookup key) ∧
      ∀ host, (rs.foldl take s).addresses.lookup host = s.addresses.lookup host := by
    constructor
    · intro h
      rw [h]
      exact ⟨fun _ => rfl, fun _ => rfl⟩
    · rintro ⟨h₁, h₂⟩
      have heq := Finmap.ext_lookup h₁
      have heq' := Finmap.ext_lookup h₂
      cases hfold : rs.foldl take s
      cases s
      simp_all
  rw [hparts]
  constructor
  · rintro ⟨h₁, h₂⟩
    constructor
    · intro key hne
      have hkey := (hservices key).symm.trans (h₁ key)
      obtain ⟨pending, hpending, hfold⟩ := foldl_accumulate_eq_iff.1 hkey hne
      exact ⟨pending, hpending, foldl_update_eq_iff.1 hfold⟩
    · intro host address hmem
      have hhost := (haddresses host).symm.trans (h₂ host)
      obtain ⟨known, hknown, hfold⟩ :=
        foldl_accumulate_eq_iff.1 hhost (List.ne_nil_of_mem hmem)
      rw [Option.mem_def.1 hknown]
      exact foldl_insertAddress_eq_iff.1 hfold address hmem
  · rintro ⟨h₁, h₂⟩
    constructor
    · intro key
      rw [hservices, foldl_accumulate_eq_iff]
      intro hne
      obtain ⟨pending, hpending, hrepeats⟩ := h₁ key hne
      exact ⟨pending, hpending, foldl_update_eq_iff.2 hrepeats⟩
    · intro host
      rw [haddresses, foldl_accumulate_eq_iff]
      intro hne
      obtain ⟨address, hmem⟩ := List.exists_mem_of_ne_nil _ hne
      have hknown := h₂ host
      cases hlookup : s.addresses.lookup host with
      | none =>
        rw [hlookup] at hknown
        exact absurd (hknown address hmem) List.not_mem_nil
      | some known =>
        rw [hlookup] at hknown
        exact ⟨known, rfl, foldl_insertAddress_eq_iff.2 hknown⟩

end MdnsDiscovery

/-! ### Rejected datagrams -/

/-- The datagram is no response, or its questions or the records of its answer and
authority sections do not parse completely. -/
def Rejects (p : MdnsParser) (bytes : Bytes) : Prop := ¬(IsResponse bytes ∧ p.Parses bytes)

instance (p : MdnsParser) (bytes : Bytes) : Decidable (Rejects p bytes) :=
  inferInstanceAs (Decidable (¬_))

/-- The records that are handled before a datagram is rejected. -/
def handled (p : MdnsParser) (bytes : Bytes) : List Record :=
  if IsResponse bytes then
    match p.sections bytes with
    | some (answers, authorities, _) =>
      (if answers.length = readU16 bytes 6 then answers ++ authorities else answers).map
        (p.record bytes)
    | none => []
  else []

variable {p : MdnsParser} {bytes : Bytes}

theorem onDatagram_rejected (h : Rejects p bytes) (s : MdnsDiscovery) :
    s.onDatagram p bytes = (handled p bytes).foldl MdnsDiscovery.take s := by
  by_cases hr : IsResponse bytes
  · have hparses : ¬p.Parses bytes := fun hp => h ⟨hr, hp⟩
    rw [handled, if_pos hr]
    obtain ⟨hlen, hflags⟩ := hr
    unfold MdnsDiscovery.onDatagram
    rw [if_neg (by omega), if_neg (by omega)]
    unfold MdnsParser.Parses at hparses
    unfold MdnsParser.sections at hparses ⊢
    cases hq : skipQuestions p bytes (readU16 bytes 4) 12 with
    | none => rfl
    | some offset =>
      rw [hq] at hparses
      simp only [Option.bind_eq_bind, Option.bind_some, Option.pure_def] at hparses ⊢
      by_cases hanswers :
          (p.recordsParse bytes offset .answer (readU16 bytes 6)).1.length = readU16 bytes 6
      · -- so the authority section is incomplete
        have hauthorities := fun heq => hparses fun _ => ⟨hanswers, heq⟩
        rw [if_neg (not_not.2 hanswers), if_pos hauthorities, if_pos hanswers, List.map_append,
          List.foldl_append, foldl_handleRecord, foldl_handleRecord]
      · rw [if_pos hanswers, if_neg hanswers, foldl_handleRecord]
  · rw [(onDatagram_ignored hr s).1, handled, if_neg hr]
    rfl

/-- A rejected datagram has no effect if and only if the records that are handled before
repeat what the discovery knows. -/
theorem rejected_without_effect_iff (h : Rejects p bytes) (s : MdnsDiscovery) :
    s.onDatagram p bytes = s ↔ s.Knows (handled p bytes) := by
  rw [onDatagram_rejected h, MdnsDiscovery.foldl_take_eq_iff]

/-- The records of mdns.h that fit in the datagram, where names are not compressed, and
the offset at which it stops. -/
def checkedRecords (bytes : Bytes) : ℕ → ℕ → List RawRecord × ℕ
  | 0, offset => ([], offset)
  | count + 1, offset =>
    let behind := (plainName bytes bytes.length offset).2
    if behind + 10 > bytes.length then ([], behind)
    else
      let length := readU16 bytes (behind + 8)
      let (rest, offset') := checkedRecords bytes count (behind + 10 + length)
      if length ≤ bytes.length - (behind + 10) then
        ((plainRecords bytes 1 offset).1 ++ rest, offset')
      else (rest, offset')

/-- mdns.h on datagrams that may end too early. -/
def MdnsParser.checked : MdnsParser :=
  { MdnsParser.plain with
    recordsParse := fun bytes offset _ count => checkedRecords bytes count offset }

/-- Two answers are announced, but there is only a PTR record of `x.t.`. -/
def cutShort : Bytes :=
  [0, 0, 0x84, 0, 0, 0, 0, 2, 0, 0, 0, 0,
    1, 116, 0, 0, 12, 0, 1, 0, 0, 0, 120, 0, 5, 1, 120, 1, 116, 0]

/-- An SRV record of `x.t.`. -/
def onlySrv : Bytes :=
  [0, 0, 0x84, 0, 0, 0, 0, 1, 0, 0, 0, 0,
    1, 120, 1, 116, 0, 0, 33, 0, 1, 0, 0, 0, 120, 0, 9, 0, 0, 0, 0, 0, 80, 1, 100, 0]

/-- The record is news to a new discovery, and no news the second time. -/
theorem rejected_without_effect_iff_twice :
    ¬MdnsDiscovery.Knows {} (handled .checked cutShort) ∧
    (MdnsDiscovery.onDatagram .checked {} cutShort).Knows (handled .checked cutShort) := by
  have hrejects : Rejects .checked cutShort := by decide +kernel
  exact ⟨mt (rejected_without_effect_iff hrejects {}).2 (by decide +kernel),
    (rejected_without_effect_iff hrejects _).1 (by decide +kernel)⟩

/-- The record of the rejected datagram makes the next one complete a service. -/
theorem rejected_record_is_kept : Rejects .checked cutShort ∧
    ([onlySrv].foldl (MdnsDiscovery.onDatagram .checked) {}).log = [] ∧
    ([cutShort, onlySrv].foldl (MdnsDiscovery.onDatagram .checked) {}).log ≠ [] ∧
    ¬∀ s : MdnsDiscovery, s.onDatagram .checked cutShort = s := by
  refine ⟨by decide +kernel, by decide +kernel, by decide +kernel, fun h => ?_⟩
  exact absurd (h {}) (by decide +kernel)

end Neubau.Mdns
