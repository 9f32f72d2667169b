import Mathlib.Data.List.Sort
import Neubau.Mdns.MdnsService
import Neubau.Thing.Repository

/-! The factory of Shelly things. It merges the partial records of a device under
the lower-case id of the device and creates the thing once, on the record that
makes the merged one connectable. -/

namespace Neubau.Shelly

open Neubau.Common Neubau.Mdns

def shellyServiceType : Bytes := ascii "_shelly._tcp.local."
def httpServiceType : Bytes := ascii "_http._tcp.local."

/-- `std::tolower` in the C locale. -/
def tolower (c : UInt8) : UInt8 := if 65 ≤ c ∧ c ≤ 90 then c + 32 else c

def lowercase (value : Bytes) : Bytes := value.map tolower

/-- The part of an instance name before its first dot. -/
def instanceLabel (instanceName : Bytes) : Bytes := instanceName.takeWhile (· ≠ 46)

def instanceId (service : MdnsService) : Bytes :=
  match service.txt.lookup (ascii "id") with
  | some id => if id ≠ [] then id else instanceLabel service.instanceName
  | none => instanceLabel service.instanceName

def mergeAddresses (target source : List Bytes) : List Bytes :=
  let merged := source.foldl (fun target address =>
    if address ∈ target then target else target ++ [address]) target
  merged.insertionSort (· ≤ ·)

def mergeService (target source : MdnsService) : MdnsService :=
  let sourceIsShelly := lowercase source.serviceType = shellyServiceType
  let targetIsShelly := lowercase target.serviceType = shellyServiceType
  let target := if target.serviceType = [] ∨ (sourceIsShelly ∧ ¬targetIsShelly) then
    { target with serviceType := source.serviceType, instanceName := source.instanceName }
  else target
  let target := if source.hostname ≠ [] then { target with hostname := source.hostname } else target
  let target := if source.port ≠ 0 then
    { target with port := source.port, priority := source.priority, weight := source.weight }
  else target
  -- the loop over `source.txt` overwrites what `target.txt` has under the same key
  { target with
    addresses := mergeAddresses target.addresses source.addresses
    txt := source.txt ∪ target.txt
    ttl := max target.ttl source.ttl }

def isConnectable (service : MdnsService) : Bool :=
  service.port ≠ 0 ∧ (service.hostname ≠ [] ∨ service.addresses ≠ [])

def isShellyService (service : MdnsService) : Bool :=
  if lowercase service.serviceType = shellyServiceType then true
  else if lowercase service.serviceType ≠ httpServiceType then false
  else
    let id := lowercase (instanceId service)
    let hostname := lowercase service.hostname
    (ascii "shelly").isPrefixOf id || (ascii "shelly").isPrefixOf hostname

def txtValue (service : MdnsService) (key : Bytes) : Bytes := (service.txt.lookup key).getD []

/-- The id of a `ShellyThing`. -/
def shellyId (service : MdnsService) : Bytes :=
  let id := txtValue service (ascii "id")
  if id = [] then instanceLabel service.instanceName else id

/-- `ShellyThingFactory`. -/
structure ShellyThingFactory where
  discovered : Finmap fun _ : Bytes => MdnsService := ∅
  emitted : Finset Bytes := ∅
  deriving DecidableEq

namespace ShellyThingFactory

/-- The record kept for a candidate's device, with the candidate merged into it. -/
def merge (f : ShellyThingFactory) (candidate : MdnsService) : MdnsService :=
  mergeService ((f.discovered.lookup (lowercase (instanceId candidate))).getD {}) candidate

/-- `tryCreate`; a thing it makes is the object of number `object`. What was
merged and marked as emitted stays so when the constructor of the thing throws. -/
def tryCreate (f : ShellyThingFactory) (object : ℕ) (candidate : MdnsService) :
    ShellyThingFactory × Except Exception (Option Thing) :=
  if !isShellyService candidate then (f, .ok none)
  else
    let key := lowercase (instanceId candidate)
    let merged := f.merge candidate
    let f := { f with discovered := f.discovered.insert key merged }
    if key ∈ f.emitted ∨ isConnectable merged = false then (f, .ok none)
    else
      let f := { f with emitted := insert key f.emitted }
      (f, some <$> Thing.create object (shellyId merged))

end ShellyThingFactory

end Neubau.Shelly
