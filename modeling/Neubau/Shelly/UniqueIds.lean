import Neubau.Shelly.ShellyThingFactory
import Neubau.Transition.Machine

/-! The ids of Shelly things. The factory tells devices apart by the id of the
single candidate, and the thing gets the id of the merged record. The two are the
same function of a record, but merging may pair the instance name of one
candidate with the empty TXT id of another. Where it does not, the id of a thing
is the key of its device, and no two things share one. -/

namespace Neubau.Shelly

open Neubau.Common Neubau.Mdns Neubau.Transition

/-- The two ids of a record are the same. -/
theorem instanceId_eq (service : MdnsService) : instanceId service = shellyId service := by
  unfold instanceId shellyId txtValue
  cases service.txt.lookup (ascii "id") with
  | none => simp
  | some id => by_cases h : id = [] <;> simp [h]

theorem shellyId_of_txt {service : MdnsService} (h : txtValue service (ascii "id") ≠ []) :
    shellyId service = txtValue service (ascii "id") := if_neg h

theorem shellyId_of_label {service : MdnsService} (h : txtValue service (ascii "id") = []) :
    shellyId service = instanceLabel service.instanceName := if_pos h

/-! ### Merging -/

/-- Merging replaces service type and instance name of the record. -/
def TakesName (record candidate : MdnsService) : Prop :=
  record.serviceType = [] ∨
    (lowercase candidate.serviceType = shellyServiceType ∧
      ¬lowercase record.serviceType = shellyServiceType)

instance (record candidate : MdnsService) : Decidable (TakesName record candidate) :=
  inferInstanceAs (Decidable (_ ∨ _))

/-- The TXT value a record has after a candidate. -/
def lastTxt (record candidate : MdnsService) (key : Bytes) : Bytes :=
  (candidate.txt.lookup key).getD (txtValue record key)

theorem mergeService_names (record candidate : MdnsService) :
    ((mergeService record candidate).serviceType, (mergeService record candidate).instanceName) =
      if TakesName record candidate then (candidate.serviceType, candidate.instanceName)
      else (record.serviceType, record.instanceName) := by
  by_cases h : TakesName record candidate
  all_goals
    have hname := h
    unfold TakesName at hname
    simp only [mergeService, h, hname, ↓reduceIte]
    split_ifs <;> rfl

theorem mergeService_instanceName (record candidate : MdnsService) :
    (mergeService record candidate).instanceName =
      if TakesName record candidate then candidate.instanceName else record.instanceName :=
  (congrArg Prod.snd (mergeService_names record candidate)).trans (apply_ite Prod.snd _ _ _)

theorem mergeService_txt (record candidate : MdnsService) :
    (mergeService record candidate).txt = candidate.txt ∪ record.txt := by
  unfold mergeService
  dsimp only
  split_ifs <;> rfl

theorem mergeService_lookup (record candidate : MdnsService) (key : Bytes) :
    (mergeService record candidate).txt.lookup key =
      (candidate.txt.lookup key).or (record.txt.lookup key) := by
  rw [mergeService_txt]
  by_cases h : key ∈ candidate.txt
  · obtain ⟨value, hvalue⟩ := Finmap.mem_iff.1 h
    rw [Finmap.lookup_union_left h, hvalue, Option.some_or]
  · rw [Finmap.lookup_union_right h, Finmap.lookup_eq_none.2 h, Option.none_or]

theorem mergeService_txtValue (record candidate : MdnsService) (key : Bytes) :
    txtValue (mergeService record candidate) key = lastTxt record candidate key := by
  rw [txtValue, mergeService_lookup, Option.getD_or]
  rfl

theorem mem_mergeAddresses {target source : List Bytes} {address : Bytes} :
    address ∈ mergeAddresses target source ↔ address ∈ target ∨ address ∈ source := by
  rw [mergeAddresses, (List.perm_insertionSort _ _).mem_iff]
  induction source generalizing target with
  | nil => simp
  | cons first source ih =>
    rw [List.foldl_cons, ih, List.mem_cons]
    split_ifs with h
    · have hrepeated : address = first → address ∈ target := fun heq => heq ▸ h
      tauto
    · rw [List.mem_append, List.mem_singleton, or_assoc]

theorem mergeAddresses_eq_nil (target source : List Bytes) :
    mergeAddresses target source = [] ↔ target = [] ∧ source = [] := by
  simp only [List.eq_nil_iff_forall_not_mem, mem_mergeAddresses, not_or, forall_and]

theorem mergeService_port (record candidate : MdnsService) :
    (mergeService record candidate).port =
      if candidate.port ≠ 0 then candidate.port else record.port := by
  unfold mergeService
  dsimp only
  split_ifs <;> rfl

theorem mergeService_hostname (record candidate : MdnsService) :
    (mergeService record candidate).hostname =
      if candidate.hostname ≠ [] then candidate.hostname else record.hostname := by
  unfold mergeService
  dsimp only
  split_ifs <;> rfl

theorem mergeService_addresses (record candidate : MdnsService) :
    (mergeService record candidate).addresses =
      mergeAddresses record.addresses candidate.addresses := by
  unfold mergeService
  dsimp only
  split_ifs <;> rfl

/-- Record and candidate together have a port and a host to connect to. -/
def Connectable (record candidate : MdnsService) : Prop :=
  (candidate.port ≠ 0 ∨ record.port ≠ 0) ∧
    (candidate.hostname ≠ [] ∨ record.hostname ≠ [] ∨
      candidate.addresses ≠ [] ∨ record.addresses ≠ [])

instance (record candidate : MdnsService) : Decidable (Connectable record candidate) :=
  inferInstanceAs (Decidable (_ ∧ _))

/-- A field that only a proper value replaces is set if either value is proper. -/
theorem replaced_ne_iff {α : Type*} [DecidableEq α] {new old default : α} :
    (if new ≠ default then new else old) ≠ default ↔ new ≠ default ∨ old ≠ default := by
  by_cases h : new = default <;> simp [h]

theorem isConnectable_mergeService (record candidate : MdnsService) :
    isConnectable (mergeService record candidate) = true ↔ Connectable record candidate := by
  have hport : (mergeService record candidate).port ≠ 0 ↔
      candidate.port ≠ 0 ∨ record.port ≠ 0 := by
    rw [mergeService_port, replaced_ne_iff]
  have hhost : (mergeService record candidate).hostname ≠ [] ↔
      candidate.hostname ≠ [] ∨ record.hostname ≠ [] := by
    rw [mergeService_hostname, replaced_ne_iff]
  have haddresses : (mergeService record candidate).addresses ≠ [] ↔
      candidate.addresses ≠ [] ∨ record.addresses ≠ [] := by
    rw [mergeService_addresses, Ne, mergeAddresses_eq_nil]
    tauto
  rw [isConnectable, decide_eq_true_eq, hport, hhost, haddresses, Connectable, or_assoc]

/-! ### What is kept -/

namespace ShellyThingFactory

variable {f : ShellyThingFactory} {c : MdnsService}

/-- The record of the candidate's device before the candidate comes. -/
def record (f : ShellyThingFactory) (candidate : MdnsService) : MdnsService :=
  (f.discovered.lookup (lowercase (instanceId candidate))).getD {}

theorem merge_eq (f : ShellyThingFactory) (candidate : MdnsService) :
    f.merge candidate = mergeService (f.record candidate) candidate := rfl

/-- The candidate makes its device connectable, and there is no thing of it yet. -/
def Completes (f : ShellyThingFactory) (candidate : MdnsService) : Prop :=
  isShellyService candidate = true ∧ lowercase (instanceId candidate) ∉ f.emitted ∧
    Connectable (f.record candidate) candidate

instance (f : ShellyThingFactory) (candidate : MdnsService) : Decidable (f.Completes candidate) :=
  inferInstanceAs (Decidable (_ ∧ _ ∧ _))

/-- With a candidate that completes a device the record has a TXT id, or takes
the candidate's name, or goes by a name that was its key already. -/
def Named (f : ShellyThingFactory) (candidate : MdnsService) : Prop :=
  f.Completes candidate →
    lastTxt (f.record candidate) candidate (ascii "id") ≠ [] ∨
    TakesName (f.record candidate) candidate ∨
    lowercase (instanceLabel (f.record candidate).instanceName) = lowercase (instanceId candidate)

instance (f : ShellyThingFactory) (candidate : MdnsService) : Decidable (f.Named candidate) :=
  inferInstanceAs (Decidable (_ → _ ∨ _ ∨ _))

/-- A TXT id in a record is the key of the record. -/
def Keyed (f : ShellyThingFactory) : Prop :=
  ∀ key record, f.discovered.lookup key = some record →
    txtValue record (ascii "id") ≠ [] → lowercase (txtValue record (ascii "id")) = key

theorem Keyed.record (h : f.Keyed) (hid : txtValue (f.record c) (ascii "id") ≠ []) :
    lowercase (txtValue (f.record c) (ascii "id")) = lowercase (instanceId c) := by
  unfold ShellyThingFactory.record at hid ⊢
  cases hr : f.discovered.lookup (lowercase (instanceId c)) with
  | none =>
    rw [hr] at hid
    exact absurd rfl hid
  | some record =>
    rw [hr] at hid
    exact h _ _ hr hid

/-- A TXT id after merging is the key, wherever it comes from. -/
theorem Keyed.lastTxt (h : f.Keyed) (hid : lastTxt (f.record c) c (ascii "id") ≠ []) :
    lowercase (lastTxt (f.record c) c (ascii "id")) = lowercase (instanceId c) := by
  unfold Shelly.lastTxt at hid ⊢
  cases hc : c.txt.lookup (ascii "id") with
  | none =>
    rw [hc] at hid
    exact h.record hid
  | some id =>
    rw [hc] at hid
    have hne : id ≠ [] := hid
    simp [instanceId, hc, hne]

theorem Keyed.insert (h : f.Keyed) (c : MdnsService) :
    Keyed { f with discovered := f.discovered.insert (lowercase (instanceId c)) (f.merge c) } := by
  intro key r hr hid
  by_cases hk : key = lowercase (instanceId c)
  · subst hk
    rw [Finmap.lookup_insert] at hr
    obtain rfl := Option.some.inj hr
    rw [merge_eq, mergeService_txtValue] at hid ⊢
    exact h.lastTxt hid
  · rw [Finmap.lookup_insert_of_ne _ hk] at hr
    exact h key r hr hid

/-- The id of the merged record is the key of the device where the candidate
leaves it named. -/
theorem Keyed.shellyId_iff (h : f.Keyed) (hc : f.Completes c) :
    lowercase (shellyId (f.merge c)) = lowercase (instanceId c) ↔ f.Named c := by
  have hnamed : f.Named c ↔ (Shelly.lastTxt (f.record c) c (ascii "id") ≠ [] ∨
      TakesName (f.record c) c ∨
      lowercase (instanceLabel (f.record c).instanceName) = lowercase (instanceId c)) :=
    ⟨fun hn => hn hc, fun hn _ => hn⟩
  have htxt := mergeService_txtValue (f.record c) c (ascii "id")
  rw [hnamed, merge_eq]
  by_cases hid : Shelly.lastTxt (f.record c) c (ascii "id") = []
  · rw [shellyId_of_label (htxt.trans hid), mergeService_instanceName]
    split_ifs with hname
    · -- the name is the candidate's, which has no TXT id either
      have hown : txtValue c (ascii "id") = [] := by
        unfold Shelly.lastTxt at hid
        unfold txtValue
        cases hl : c.txt.lookup (ascii "id") with
        | none => rfl
        | some id =>
          rw [hl] at hid
          exact hid
      rw [instanceId_eq, shellyId_of_label hown]
      simp [hname]
    · simp [hid, hname]
  · rw [shellyId_of_txt (by rwa [htxt]), htxt]
    exact ⟨fun _ => .inl hid, fun _ => h.lastTxt hid⟩

/-- What `tryCreate` makes of a candidate. -/
theorem tryCreate_eq (f : ShellyThingFactory) (object : ℕ) (c : MdnsService) :
    (¬f.Completes c ∧ ((f.tryCreate object c) = (f, .ok none) ∨
      f.tryCreate object c = ({ f with
        discovered := f.discovered.insert (lowercase (instanceId c)) (f.merge c) }, .ok none))) ∨
    (f.Completes c ∧ f.tryCreate object c = ({
      discovered := f.discovered.insert (lowercase (instanceId c)) (f.merge c)
      emitted := insert (lowercase (instanceId c)) f.emitted },
      some <$> Thing.create object (shellyId (f.merge c)))) := by
  unfold tryCreate Completes
  dsimp only
  rw [← isConnectable_mergeService, ← merge_eq]
  by_cases hs : isShellyService c = true
  · by_cases hm : lowercase (instanceId c) ∈ f.emitted ∨ isConnectable (f.merge c) = false
    · left
      rw [if_neg (by simp [hs]), if_pos hm]
      refine ⟨fun hc => ?_, .inr rfl⟩
      rcases hm with hm | hm
      · exact hc.2.1 hm
      · exact absurd (hm.symm.trans hc.2.2) Bool.false_ne_true
    · right
      rw [if_neg (by simp [hs]), if_neg hm]
      rw [not_or, Bool.not_eq_false] at hm
      exact ⟨⟨hs, hm⟩, rfl⟩
  · left
    rw [if_pos (by simp [hs])]
    exact ⟨fun hc => hs hc.1, .inl rfl⟩

/-! ### Runs of a factory -/

/-- A factory with the things it has returned. -/
structure Production where
  factory : ShellyThingFactory := {}
  things : List Thing := []
  deriving DecidableEq

def Production.tryCreate (p : Production) (candidate : MdnsService) : Production :=
  match p.factory.tryCreate p.things.length candidate with
  | (factory, .ok (some thing)) => { factory, things := p.things ++ [thing] }
  | (factory, _) => { p with factory }

/-- A factory that gets any candidates, in any order. -/
def machine : Machine Production MdnsService where
  init p := p = {}
  enabled _ _ := True
  next := Production.tryCreate

/-- The candidate completes no device under a name that is not its key. -/
def Production.Named (p : Production) (candidate : MdnsService) : Prop := p.factory.Named candidate

/-- No two things have ids that are equal up to case. -/
def Production.Distinct (p : Production) : Prop :=
  p.things.Pairwise fun a b => lowercase a.id ≠ lowercase b.id

variable {p : Production}

/-- A candidate leaves the things alone or adds the one it completes. -/
theorem Production.tryCreate_cases (p : Production) (c : MdnsService) :
    ((p.tryCreate c).things = p.things ∧ p.factory.emitted ⊆ (p.tryCreate c).factory.emitted) ∨
    (p.factory.Completes c ∧ ∃ thing, (p.tryCreate c).things = p.things ++ [thing] ∧
      thing.id = shellyId (p.factory.merge c) ∧
      (p.tryCreate c).factory.emitted =
        insert (lowercase (instanceId c)) p.factory.emitted) := by
  unfold Production.tryCreate
  obtain ⟨-, h | h⟩ | ⟨hc, h⟩ := tryCreate_eq p.factory p.things.length c
  · rw [h]
    exact .inl ⟨rfl, Finset.Subset.refl _⟩
  · rw [h]
    exact .inl ⟨rfl, Finset.Subset.refl _⟩
  · rw [h]
    unfold Thing.create
    split_ifs
    · exact .inl ⟨rfl, Finset.subset_insert _ _⟩
    · exact .inr ⟨hc, _, rfl, rfl, rfl⟩

theorem Production.keyed_tryCreate (h : p.factory.Keyed) (c : MdnsService) :
    (p.tryCreate c).factory.Keyed := by
  have hfactory : (p.tryCreate c).factory = (p.factory.tryCreate p.things.length c).1 := by
    unfold Production.tryCreate
    split <;> simp_all
  rw [hfactory]
  obtain ⟨-, h' | h'⟩ | ⟨-, h'⟩ := tryCreate_eq p.factory p.things.length c <;> rw [h']
  · exact h
  · exact h.insert c
  · exact h.insert c

/-- The things were made under their own ids, each under another. -/
structure Production.Sound (p : Production) : Prop where
  keyed : p.factory.Keyed
  emitted : ∀ thing ∈ p.things, lowercase thing.id ∈ p.factory.emitted
  distinct : p.Distinct

theorem Production.Sound.tryCreate (h : p.Sound) {c : MdnsService} (hc : p.Named c) :
    (p.tryCreate c).Sound := by
  have hkeyed := keyed_tryCreate h.keyed c
  obtain ⟨hthings, hemitted⟩ | ⟨hcompletes, thing, hthings, hid, hemitted⟩ := p.tryCreate_cases c
  · refine ⟨hkeyed, ?_, ?_⟩
    · rw [hthings]
      exact fun thing ht => hemitted (h.emitted thing ht)
    · rw [Distinct, hthings]
      exact h.distinct
  · have hkey : lowercase thing.id = lowercase (instanceId c) := by
      rw [hid]
      exact (h.keyed.shellyId_iff hcompletes).2 hc
    refine ⟨hkeyed, fun t ht => ?_, ?_⟩
    · rw [hthings] at ht
      rw [hemitted]
      rcases List.mem_append.1 ht with ht | ht
      · exact Finset.mem_insert_of_mem (h.emitted t ht)
      · obtain rfl := List.mem_singleton.1 ht
        rw [hkey]
        exact Finset.mem_insert_self _ _
    · rw [Distinct, hthings]
      refine List.pairwise_append.2 ⟨h.distinct, List.pairwise_singleton _ _, ?_⟩
      intro t ht b hb heq
      obtain rfl := List.mem_singleton.1 hb
      rw [hkey] at heq
      exact hcompletes.2.1 (heq ▸ h.emitted t ht)

theorem keyed_empty : Keyed {} := by
  intro key record hr
  rw [Finmap.lookup_empty] at hr
  cases hr

theorem Production.Sound.init : Production.Sound {} := ⟨keyed_empty, nofun, List.Pairwise.nil⟩

/-- If every candidate of a run that completes a device leaves it named, the
factory has made no two things of one id; and behind any run it is exactly then
that the id of a completed device is the key it is told apart by. -/
theorem ids_unique_where_named {cs : List MdnsService} (hr : machine.Run {} cs p) :
    ((machine.restrict Production.Named).Run {} cs p → p.Distinct) ∧
    ∀ c, p.factory.Completes c →
      (lowercase (shellyId (p.factory.merge c)) = lowercase (instanceId c) ↔ p.Named c) := by
  constructor
  · intro hnamed
    have hsound : p.Sound := hnamed.keeps (fun _ _ h he => h.tryCreate he.2) .init
    exact hsound.distinct
  · intro c hc
    have hkeyed : p.factory.Keyed := hr.keeps (P := fun p => p.factory.Keyed)
      (fun _ c h _ => Production.keyed_tryCreate h c) keyed_empty
    exact hkeyed.shellyId_iff hc

instance (p : Production) : Decidable p.Distinct :=
  inferInstanceAs (Decidable (List.Pairwise _ _))

/-- The web server of a device tells its id. -/
def webServer : MdnsService where
  serviceType := httpServiceType
  instanceName := ascii "foo._http._tcp.local."
  txt := Finmap.singleton (ascii "id") (ascii "shelly1")

/-- Another record of the device has an empty id, and its name says who it is. -/
def nameless : MdnsService where
  serviceType := httpServiceType
  instanceName := ascii "shelly1._http._tcp.local."
  hostname := ascii "shelly1.local."
  port := 80
  txt := Finmap.singleton (ascii "id") []

/-- A second device. -/
def foo : MdnsService where
  serviceType := shellyServiceType
  instanceName := ascii "foo._shelly._tcp.local."
  hostname := ascii "foo.local."
  port := 80

instance (p : Production) (c : MdnsService) : Decidable (machine.enabled p c) :=
  inferInstanceAs (Decidable True)

instance (p : Production) (c : MdnsService) :
    Decidable ((machine.restrict Production.Named).enabled p c) :=
  inferInstanceAs (Decidable (True ∧ p.factory.Named c))

/-- Without the web server the first device has its own id. -/
theorem ids_unique_where_named_two :
    ([foo, nameless].foldl Production.tryCreate {}).Distinct :=
  (ids_unique_where_named (Machine.run_of_runs (M := machine) (by decide +kernel))).1
    (Machine.run_of_runs (M := machine.restrict Production.Named) (by decide +kernel))

/-- The thing of the first device gets the id of the second. -/
theorem two_things_of_one_id : ∃ p, machine.Run {} [webServer, nameless, foo] p ∧
    p.things.map (·.id) = [ascii "foo", ascii "foo"] ∧ ¬p.Distinct :=
  ⟨[webServer, nameless, foo].foldl Production.tryCreate {},
    .cons trivial (.cons trivial (.cons trivial (.nil _))), by decide +kernel, by decide +kernel⟩

end ShellyThingFactory

end Neubau.Shelly
