import Mathlib.Data.Finset.Sort
import Mathlib.Data.List.Sort
import Neubau.Mdns.MdnsService

/-! The mDNS discovery. It collects what the records of the datagrams say about
each service instance and each host, and at the end of a datagram it emits every
instance with a PTR and an SRV record whose merged record has changed. What
mdns.h reads from a datagram is a parameter. -/

namespace Neubau.Mdns

open Neubau.Common

inductive EntryType
  | answer
  | authority
  | additional
  deriving DecidableEq, Repr

/-- The arguments of a record callback that the discovery uses. -/
structure RawRecord where
  recordType : UInt16
  ttl : UInt32
  nameOffset : ℕ
  recordOffset : ℕ
  recordLength : ℕ
  deriving DecidableEq, Repr

structure SrvRecord where
  name : Bytes
  port : UInt16
  priority : UInt16
  weight : UInt16
  deriving DecidableEq, Repr

/-- The functions of mdns.h, on the bytes of a datagram. `recordsParse` gives the
records it calls back with, at most as many as it is asked for, and the offset
behind them; the two address functions include `numericAddress`. -/
structure MdnsParser where
  stringSkip : Bytes → ℕ → Option ℕ
  recordsParse : Bytes → ℕ → EntryType → ℕ → List RawRecord × ℕ
  stringExtract : Bytes → ℕ → Bytes
  recordParsePtr : Bytes → RawRecord → Bytes
  recordParseSrv : Bytes → RawRecord → SrvRecord
  recordParseTxt : Bytes → RawRecord → List (Bytes × Bytes)
  recordParseA : Bytes → RawRecord → Bytes
  recordParseAaaa : Bytes → RawRecord → Bytes

def recordTypeA : UInt16 := 1
def recordTypePtr : UInt16 := 12
def recordTypeTxt : UInt16 := 16
def recordTypeAaaa : UInt16 := 28
def recordTypeSrv : UInt16 := 33

def dnsKey (value : Bytes) : Bytes :=
  value.map fun character =>
    if 65 ≤ character ∧ character ≤ 90 then character + 32 else character

structure PendingService where
  service : MdnsService := {}
  hasPtr : Bool := false
  hasSrv : Bool := false
  deriving DecidableEq

/-- `MdnsDiscovery`; `log` are the services handed to the subscribers. -/
structure MdnsDiscovery where
  discoveredServices : Finmap (fun _ : Bytes => PendingService) := ∅
  addresses : Finmap (fun _ : Bytes => List Bytes) := ∅
  emitted : Finmap (fun _ : Bytes => MdnsService) := ∅
  log : List MdnsService := []
  deriving DecidableEq

/-- What `addAddress` makes of the addresses of a host. -/
def insertAddress (hostAddresses : List Bytes) (address : Bytes) : List Bytes :=
  if hostAddresses.contains address then hostAddresses
  else (hostAddresses ++ [address]).insertionSort (· ≤ ·)

/-- The order in which a map goes through its keys. -/
def ascending (keys : Finset Bytes) : List Bytes := keys.sort (· ≤ ·)

/-- The last value wins where a key is repeated. -/
def parseTxt (records : List (Bytes × Bytes)) : Txt :=
  records.foldl (fun result record => result.insert record.1 record.2) ∅

namespace MdnsDiscovery

variable (p : MdnsParser)

/-- `_discoveredServices[key]`, updated. -/
def updatePending (s : MdnsDiscovery) (key : Bytes) (update : PendingService → PendingService) :
    MdnsDiscovery :=
  { s with
    discoveredServices :=
      s.discoveredServices.insert key (update ((s.discoveredServices.lookup key).getD {})) }

def addAddress (s : MdnsDiscovery) (hostname address : Bytes) : MdnsDiscovery :=
  if address = [] then s
  else
    let hostAddresses := (s.addresses.lookup hostname).getD []
    { s with addresses := s.addresses.insert hostname (insertAddress hostAddresses address) }

def handleRecord (data : Bytes) (s : MdnsDiscovery) (r : RawRecord) : MdnsDiscovery :=
  let owner := p.stringExtract data r.nameOffset
  if r.recordType = recordTypePtr then
    let instanceName := p.recordParsePtr data r
    if instanceName = [] then s
    else
      s.updatePending (dnsKey instanceName) fun pending =>
        { pending with
          hasPtr := true
          service := { pending.service with serviceType := owner, instanceName, ttl := r.ttl } }
  else if r.recordType = recordTypeSrv then
    let record := p.recordParseSrv data r
    s.updatePending (dnsKey owner) fun pending =>
      { pending with
        hasSrv := true
        service := { pending.service with
          instanceName := owner
          hostname := record.name
          port := record.port
          priority := record.priority
          weight := record.weight
          ttl := r.ttl } }
  else if r.recordType = recordTypeTxt then
    s.updatePending (dnsKey owner) fun pending =>
      { pending with
        service := { pending.service with
          instanceName := owner
          txt := parseTxt (p.recordParseTxt data r)
          ttl := r.ttl } }
  else if r.recordType = recordTypeA then s.addAddress (dnsKey owner) (p.recordParseA data r)
  else if r.recordType = recordTypeAaaa then s.addAddress (dnsKey owner) (p.recordParseAaaa data r)
  else s

/-- The body of the loop of `emitChanges`. -/
def emitChange (s : MdnsDiscovery) (key : Bytes) : MdnsDiscovery :=
  match s.discoveredServices.lookup key with
  | none => s
  | some pending =>
    if !pending.hasPtr || !pending.hasSrv then s
    else
      let hostname := dnsKey pending.service.hostname
      let hostAddresses := (s.addresses.lookup hostname).getD []
      let service : MdnsService := { pending.service with addresses := hostAddresses }
      let s := { s with
        addresses := s.addresses.insert hostname hostAddresses
        discoveredServices := s.discoveredServices.insert key { pending with service } }
      if s.emitted.lookup key = some service then s
      else { s with emitted := s.emitted.insert key service, log := s.log ++ [service] }

/-- The loop runs over the map in the order of its keys. -/
def emitChanges (s : MdnsDiscovery) : MdnsDiscovery :=
  (ascending s.discoveredServices.keys).foldl emitChange s

/-- `readU16` at an offset of the header. -/
def readU16 (bytes : Bytes) (offset : ℕ) : ℕ :=
  (bytes.getD offset 0).toNat * 256 + (bytes.getD (offset + 1) 0).toNat

/-- The loop over the questions: the offset behind them. -/
def skipQuestions (bytes : Bytes) : ℕ → ℕ → Option ℕ
  | 0, offset => some offset
  | questions + 1, offset => do
    let offset ← p.stringSkip bytes offset
    if offset + 4 > bytes.length then none else skipQuestions bytes questions (offset + 4)

def onDatagram (s : MdnsDiscovery) (bytes : Bytes) : MdnsDiscovery :=
  if bytes.length < 12 then s
  -- the top bit of the flags says that the datagram is a response
  else if readU16 bytes 2 < 0x8000 then s
  else
    match skipQuestions p bytes (readU16 bytes 4) 12 with
    | none => s
    | some offset =>
      let (answers, offset) := p.recordsParse bytes offset .answer (readU16 bytes 6)
      let s := answers.foldl (handleRecord p bytes) s
      if answers.length ≠ readU16 bytes 6 then s
      else
        let (authorities, offset) := p.recordsParse bytes offset .authority (readU16 bytes 8)
        let s := authorities.foldl (handleRecord p bytes) s
        if authorities.length ≠ readU16 bytes 8 then s
        else
          let (additionals, _) := p.recordsParse bytes offset .additional (readU16 bytes 10)
          let s := additionals.foldl (handleRecord p bytes) s
          s.emitChanges

end MdnsDiscovery

end Neubau.Mdns
