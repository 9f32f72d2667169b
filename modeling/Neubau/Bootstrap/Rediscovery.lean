import Neubau.Shelly.ShellyThingFactory
import Neubau.Sunspec.SunspecThing
import Neubau.Transition.Machine

/-! From candidates to things. `main` hands every candidate of the discovery to
the factories and adds the thing that results to the repository. A rediscovery
repeats the candidates of the devices already known; it is harmless exactly as
long as none of them makes a thing whose id the repository has. -/

namespace Neubau.Bootstrap

open Neubau.Common Neubau.Mdns Neubau.Modbus Neubau.Shelly Neubau.Sunspec

inductive Candidate
  | openPort (port : OpenPort)
  | modbusThing (thing : ModbusThing)
  | mdnsService (service : MdnsService)
  | sunspecThing (thing : SunspecThing)
  deriving DecidableEq

/-- `ThingFactoryService`; the things it makes are numbered. -/
structure ThingFactoryService where
  shellyFactory : ShellyThingFactory := {}
  made : ℕ := 0
  deriving DecidableEq

/-- `tryCreate`. Only the Shelly factory merges; the other things are moved into
a new object as they are. -/
def ThingFactoryService.tryCreate (f : ThingFactoryService) (candidate : Candidate) :
    ThingFactoryService × Except Exception (Option Thing) :=
  let object := f.made
  let f := { f with made := f.made + 1 }
  match candidate with
  | .mdnsService service =>
    let (shellyFactory, thing) := f.shellyFactory.tryCreate object service
    ({ f with shellyFactory }, thing)
  | .sunspecThing thing =>
    (f, .ok (some { object, id := thing.id, name := thing.id, id_ne := thing.id_ne }))
  | .modbusThing thing =>
    (f, .ok (some { object, id := thing.id, name := thing.id, id_ne := thing.id_ne }))
  | .openPort _ => (f, .ok none)

/-- What `main` keeps across candidates. -/
structure System where
  factory : ThingFactoryService := {}
  things : ThingRepository := {}
  deriving DecidableEq

variable (p : Persistence)

/-- The subscriber of `discovery->candidates()` in `main`. -/
def handle (s : System) (candidate : Candidate) : System × Except Exception Unit :=
  let (factory, created) := s.factory.tryCreate candidate
  let s := { s with factory }
  match created with
  | .error e => (s, .error e)
  | .ok none => (s, .ok ())
  | .ok (some thing) =>
    match s.things.add p thing with
    | .error e => (s, .error e)
    | .ok things => ({ s with things }, .ok ())

/-- The ids in the repository. -/
def System.ids (s : System) : List Bytes := s.things.things.map (·.id)

/-- The error of `add` for an id the repository has. -/
def duplicateId : Exception := .invalidArgument "thing id must be unique"

/-- An mDNS record that makes the merged record of its device connectable, the
thing of which was not made yet. -/
def ShellyCompletes (f : ShellyThingFactory) (service : MdnsService) : Prop :=
  isShellyService service = true ∧ lowercase (instanceId service) ∉ f.emitted ∧
    isConnectable (f.merge service) = true

/-- The id of the thing a candidate stands for. -/
def System.thingId (s : System) : Candidate → Option Bytes
  | .openPort _ => none
  | .modbusThing thing => some thing.id
  | .mdnsService service =>
    if isShellyService service then some (shellyId (s.factory.shellyFactory.merge service)) else none
  | .sunspecThing thing => some thing.id

/-- Handling the candidate raises no duplicate id, and the thing of a known id
leaves the repository as it is. -/
def Harmless (s : System) (c : Candidate) : Prop :=
  (handle p s c).2 ≠ .error duplicateId ∧
    ∀ id, s.thingId c = some id → id ∈ s.ids → (handle p s c).1.things = s.things

/-- The candidate makes no thing of an id the repository has. -/
def System.Unknown (s : System) : Candidate → Prop
  | .openPort _ => True
  | .modbusThing thing => thing.id ∉ s.ids
  | .mdnsService service => ShellyCompletes s.factory.shellyFactory service →
      shellyId (s.factory.shellyFactory.merge service) ∉ s.ids
  | .sunspecThing thing => thing.id ∉ s.ids

variable {p}

theorem find_isSome (r : ThingRepository) (id : Bytes) :
    (r.find id).isSome ↔ id ∈ r.things.map (·.id) := by
  simp [ThingRepository.find, List.find?_isSome]

theorem add_known {r : ThingRepository} {thing : Thing} (h : thing.id ∈ r.things.map (·.id)) :
    r.add p (some thing) = .error duplicateId := by
  have hf : (r.find thing.id).isSome = true := (find_isSome r thing.id).2 h
  simp only [ThingRepository.add, hf, ↓reduceIte]
  rfl

/-- The repository takes a thing of a new id, under its persisted name. -/
theorem add_new {r : ThingRepository} {thing : Thing} (h : thing.id ∉ r.things.map (·.id))
    {name : Option Bytes} (hn : p.restoreThingName thing.id = .ok name) :
    ∃ r', r.add p (some thing) = .ok r' ∧
      r'.things = r.things ++ [{ thing with name := name.getD thing.id }] := by
  have hf : ¬(r.find thing.id).isSome = true := fun hf => h ((find_isSome r thing.id).1 hf)
  refine ⟨ThingRepository.emitThings { r with
    things := r.things ++ [{ thing with name := name.getD thing.id }] }, ?_, rfl⟩
  simp only [ThingRepository.add, hf, hn]
  rfl

/-- Handling leaves the things alone or appends the one thing made. -/
theorem handle_things (hp : ∀ id, ∃ name, p.restoreThingName id = .ok name) {s : System}
    {c : Candidate} {f : ThingFactoryService} {t : Thing}
    (hc : s.factory.tryCreate c = (f, .ok (some t))) :
    (t.id ∈ s.ids → handle p s c = ({ s with factory := f }, .error duplicateId)) ∧
    (t.id ∉ s.ids → (handle p s c).2 = .ok () ∧
      (handle p s c).1.ids = s.ids ++ [t.id]) := by
  constructor
  · intro h
    simp only [handle, hc, add_known (p := p) h]
  · intro h
    obtain ⟨name, hn⟩ := hp t.id
    obtain ⟨r, hr, ht⟩ := add_new h hn
    simp only [handle, hc, hr, true_and]
    simp [System.ids, ht]

/-- Handling a candidate that makes no thing changes no thing. -/
theorem handle_none {s : System} {c : Candidate} {f : ThingFactoryService}
    (hc : s.factory.tryCreate c = (f, .ok none)) :
    handle p s c = ({ s with factory := f }, .ok ()) := by
  simp only [handle, hc]

theorem handle_error {s : System} {c : Candidate} {f : ThingFactoryService} {e : Exception}
    (hc : s.factory.tryCreate c = (f, .error e)) :
    handle p s c = ({ s with factory := f }, .error e) := by
  simp only [handle, hc]

/-- A candidate that makes a thing is harmless if and only if its id is new. -/
theorem harmless_of_made (hp : ∀ id, ∃ name, p.restoreThingName id = .ok name) {s : System}
    {c : Candidate} {f : ThingFactoryService} {t : Thing}
    (hc : s.factory.tryCreate c = (f, .ok (some t))) (hid : s.thingId c = some t.id) :
    Harmless p s c ↔ t.id ∉ s.ids := by
  obtain ⟨hknown, hnew⟩ := handle_things hp hc
  refine ⟨fun h hm => h.1 (by rw [hknown hm]), fun hm => ⟨?_, fun id hi hmem => ?_⟩⟩
  · rw [(hnew hm).1]
    nofun
  · rw [hid] at hi
    exact absurd (Option.some.inj hi ▸ hmem) hm

/-- What the Shelly factory makes of a record. -/
theorem tryCreate_mdns (s : System) (service : MdnsService) :
    (¬ShellyCompletes s.factory.shellyFactory service ∧
      ∃ f, s.factory.tryCreate (.mdnsService service) = (f, .ok none)) ∨
    (ShellyCompletes s.factory.shellyFactory service ∧
      ∃ f, s.factory.tryCreate (.mdnsService service) =
        (f, some <$> Thing.create s.factory.made
          (shellyId (s.factory.shellyFactory.merge service)))) := by
  unfold ShellyCompletes
  by_cases hs : isShellyService service = true
  · by_cases hc : lowercase (instanceId service) ∈ s.factory.shellyFactory.emitted ∨
      isConnectable (s.factory.shellyFactory.merge service) = false
    · refine .inl ⟨fun h => ?_, ?_⟩
      · rcases hc with hc | hc
        · exact h.2.1 hc
        · simp [hc] at h
      · simp [ThingFactoryService.tryCreate, ShellyThingFactory.tryCreate, hs, hc]
    · refine .inr ⟨?_, ?_⟩
      · simpa [hs, not_or] using hc
      · simp [ThingFactoryService.tryCreate, ShellyThingFactory.tryCreate, hs, hc]
  · exact .inl ⟨fun h => hs h.1, _, by
      simp [ThingFactoryService.tryCreate, ShellyThingFactory.tryCreate, hs]; rfl⟩

/-- One candidate is harmless if and only if it makes no thing of a known id. -/
theorem harmless_iff (hp : ∀ id, ∃ name, p.restoreThingName id = .ok name) (s : System)
    (c : Candidate) : Harmless p s c ↔ s.Unknown c := by
  cases c with
  | openPort port =>
    refine iff_of_true ⟨?_, nofun⟩ trivial
    rw [handle_none rfl]
    nofun
  | modbusThing thing => exact harmless_of_made hp (t := ⟨_, thing.id, _, thing.id_ne⟩) rfl rfl
  | sunspecThing thing => exact harmless_of_made hp (t := ⟨_, thing.id, _, thing.id_ne⟩) rfl rfl
  | mdnsService service =>
    rcases tryCreate_mdns s service with ⟨hn, f, hc⟩ | ⟨hy, f, hc⟩
    · refine iff_of_true ⟨?_, fun _ _ _ => ?_⟩ fun h => absurd h hn
      · rw [handle_none hc]
        nofun
      · rw [handle_none hc]
    · have hshelly : s.thingId (.mdnsService service) =
          some (shellyId (s.factory.shellyFactory.merge service)) := if_pos hy.1
      by_cases hid : shellyId (s.factory.shellyFactory.merge service) = []
      · have hfresh : shellyId (s.factory.shellyFactory.merge service) ∉ s.ids := by
          simp only [System.ids, hid, List.mem_map, not_exists, not_and]
          exact fun thing _ => thing.id_ne
        rw [Thing.create, dif_pos hid] at hc
        refine iff_of_true ⟨?_, fun _ _ _ => ?_⟩ fun _ => hfresh
        · rw [handle_error hc]
          exact fun h => absurd (Except.error.inj h) (by decide)
        · rw [handle_error hc]
      · rw [Thing.create, dif_neg hid] at hc
        exact (harmless_of_made hp hc hshelly).trans ⟨fun h _ => h, fun h => h hy⟩

/-- The state `main` is in after the candidates `cs`. -/
def run (p : Persistence) (cs : List Candidate) : System :=
  cs.foldl (fun s c => (handle p s c).1) {}

/-- A sequence of candidates is handled without harm if and only if none of them
makes a thing whose id the repository has by then. -/
theorem rediscovery_harmless_iff (hp : ∀ id, ∃ name, p.restoreThingName id = .ok name)
    (cs : List Candidate) :
    (∀ l c r, cs = l ++ c :: r → Harmless p (run p l) c) ↔
      ∀ l c r, cs = l ++ c :: r → (run p l).Unknown c :=
  forall_congr' fun l => forall_congr' fun c => forall_congr' fun _ =>
    imp_congr_right fun _ => harmless_iff hp (run p l) c

/-- A Modbus unit as the scans find it, once or again. -/
def someUnit : ModbusThing := { address := ascii "10.0.0.2", port := 502, unitId := 1 }

/-- A Shelly device as it announces itself, once or again. -/
def someShelly : MdnsService where
  serviceType := shellyServiceType
  instanceName := ascii "shellyplug-1._shelly._tcp.local."
  hostname := ascii "shellyplug-1.local."
  port := 80

/-- A unit and a device, which announces itself again, with another unit between. -/
def announcedAgain : List Candidate :=
  [.modbusThing someUnit, .mdnsService someShelly, .mdnsService someShelly,
    .modbusThing { someUnit with unitId := 2 }, .mdnsService someShelly]

instance (f : ShellyThingFactory) (service : MdnsService) : Decidable (ShellyCompletes f service) :=
  inferInstanceAs (Decidable (_ ∧ _ ∧ _))

instance (s : System) : (c : Candidate) → Decidable (s.Unknown c)
  | .openPort _ => .isTrue trivial
  | .modbusThing _ | .sunspecThing _ => inferInstanceAs (Decidable (_ ∉ _))
  | .mdnsService _ => inferInstanceAs (Decidable (_ → _))

/-- The repetitions do no harm, and the units and the device are registered. -/
theorem rediscovery_harmless_again :
    (∀ l c r, announcedAgain = l ++ c :: r →
      Harmless ⟨fun _ => .ok none⟩ (run ⟨fun _ => .ok none⟩ l) c) ∧
    (run ⟨fun _ => .ok none⟩ announcedAgain).ids.length = 3 := by
  have hunknown : ∀ k : Fin announcedAgain.length,
      (run ⟨fun _ => .ok none⟩ (announcedAgain.take k)).Unknown (announcedAgain.get k) := by
    decide +kernel
  refine ⟨(rediscovery_harmless_iff (fun _ => ⟨none, rfl⟩) announcedAgain).2 fun l c r h => ?_,
    by decide +kernel⟩
  have hlt : l.length < announcedAgain.length := by simp [h]
  have hl : announcedAgain.take l.length = l := by rw [h, List.take_left]
  have hc : announcedAgain.get ⟨l.length, hlt⟩ = c := by simp [h]
  have hnext := hunknown ⟨l.length, hlt⟩
  rwa [hl, hc] at hnext

/-- The second scan finds the same Modbus unit again. -/
theorem rediscovery_of_modbus_thing_throws :
    ¬ ∀ (p : Persistence) (cs : List Candidate), (∀ id, ∃ name, p.restoreThingName id = .ok name) →
      ∀ l c r, cs = l ++ c :: r → Harmless p (run p l) c := by
  intro h
  have hsecond := h ⟨fun _ => .ok none⟩ [.modbusThing someUnit, .modbusThing someUnit]
    (fun _ => ⟨none, rfl⟩) [.modbusThing someUnit] _ [] rfl
  exact hsecond.1 rfl

/-! ### Devices found again -/

/-- The candidate is a thing already, of the given id. -/
def Candidate.IsThing (id : Bytes) : Candidate → Prop
  | .modbusThing thing => thing.id = id
  | .sunspecThing thing => thing.id = id
  | _ => False

theorem handle_ids_subset (hp : ∀ id, ∃ name, p.restoreThingName id = .ok name) (s : System)
    (c : Candidate) : s.ids ⊆ (handle p s c).1.ids := by
  rcases hc : s.factory.tryCreate c with ⟨f, e | (_ | thing)⟩
  · rw [handle_error hc]
    exact List.Subset.refl _
  · rw [handle_none hc]
    exact List.Subset.refl _
  · by_cases hm : thing.id ∈ s.ids
    · rw [(handle_things hp hc).1 hm]
      exact List.Subset.refl _
    · rw [((handle_things hp hc).2 hm).2]
      exact List.subset_append_left _ _

theorem handle_mem_ids (hp : ∀ id, ∃ name, p.restoreThingName id = .ok name) (s : System)
    {c : Candidate} {id : Bytes} (hc : c.IsThing id) : id ∈ (handle p s c).1.ids := by
  obtain ⟨f, thing, hmade, rfl⟩ : ∃ f thing, s.factory.tryCreate c = (f, .ok (some thing)) ∧
      thing.id = id := by
    cases c with
    | modbusThing thing => exact ⟨_, _, rfl, hc⟩
    | sunspecThing thing => exact ⟨_, _, rfl, hc⟩
    | _ => exact hc.elim
  by_cases hm : thing.id ∈ s.ids
  · exact handle_ids_subset hp s c hm
  · rw [((handle_things hp hmade).2 hm).2]
    exact List.mem_append_right _ (List.mem_singleton_self _)

theorem foldl_handle_ids_subset (hp : ∀ id, ∃ name, p.restoreThingName id = .ok name)
    (cs : List Candidate) (s : System) :
    s.ids ⊆ (cs.foldl (fun s c => (handle p s c).1) s).ids := by
  induction cs generalizing s with
  | nil => exact List.Subset.refl _
  | cons c cs ih => exact List.Subset.trans (handle_ids_subset hp s c) (ih _)

/-- A Modbus or SunSpec thing that is found again raises, however much later. -/
theorem rediscovered_thing_raises (hp : ∀ id, ∃ name, p.restoreThingName id = .ok name)
    {c d : Candidate} {id : Bytes} (hc : c.IsThing id) (hd : d.IsThing id)
    (l m : List Candidate) : (handle p (run p (l ++ c :: m)) d).2 = .error duplicateId := by
  have hmem : id ∈ (run p (l ++ c :: m)).ids := by
    rw [run, List.foldl_append, List.foldl_cons]
    exact foldl_handle_ids_subset hp m _ (handle_mem_ids hp _ hc)
  cases d with
  | modbusThing thing =>
    obtain rfl : thing.id = id := hd
    rw [(handle_things hp (t := ⟨_, thing.id, _, thing.id_ne⟩) rfl).1 hmem]
  | sunspecThing thing =>
    obtain rfl : thing.id = id := hd
    rw [(handle_things hp (t := ⟨_, thing.id, _, thing.id_ne⟩) rfl).1 hmem]
  | _ => exact hd.elim

end Neubau.Bootstrap
