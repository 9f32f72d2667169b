import Neubau.Shelly.UniqueIds

/-! The creation of Shelly things. A device is marked as emitted before its thing is
made, and a thing cannot be made without an id. So a candidate that completes a
device of which there is neither a TXT id nor a name makes the factory throw, and
the device never becomes a thing. No other candidate does. -/

namespace Neubau.Shelly

open Neubau.Common Neubau.Mdns Neubau.Transition

namespace ShellyThingFactory

/-- A factory with what it has answered to the candidates, under their keys. -/
structure Answered where
  factory : ShellyThingFactory := {}
  answers : List (Bytes × Except Exception (Option Thing)) := []

def Answered.tryCreate (a : Answered) (candidate : MdnsService) : Answered :=
  let (factory, answer) := a.factory.tryCreate a.answers.length candidate
  { factory, answers := a.answers ++ [(lowercase (instanceId candidate), answer)] }

/-- A factory that gets any candidates, and goes on after it has thrown. -/
def answering : Machine Answered MdnsService where
  init a := a = {}
  enabled _ _ := True
  next := Answered.tryCreate

/-- Nothing was thrown, and every mark of a device stands for a thing. -/
structure Answered.Safe (a : Answered) : Prop where
  returned : ∀ key e, (key, .error e) ∉ a.answers
  things : ∀ key ∈ a.factory.emitted, ∃ thing : Thing, (key, .ok (some thing)) ∈ a.answers

/-- The name that a device goes by after a candidate. -/
def lastName (record candidate : MdnsService) : Bytes :=
  if TakesName record candidate then candidate.instanceName else record.instanceName

/-- A candidate that completes a device leaves it with a TXT id, or with a name that
has something before its first dot. -/
def Answered.Nameable (a : Answered) (candidate : MdnsService) : Prop :=
  a.factory.Completes candidate →
    lastTxt (a.factory.record candidate) candidate (ascii "id") ≠ [] ∨
      instanceLabel (lastName (a.factory.record candidate) candidate) ≠ []

instance (a : Answered) (candidate : MdnsService) : Decidable (a.Nameable candidate) :=
  inferInstanceAs (Decidable (_ → _ ∨ _))

variable {a b : Answered} {c : MdnsService}

theorem shellyId_merge_eq_nil (f : ShellyThingFactory) (c : MdnsService) :
    shellyId (f.merge c) = [] ↔
      lastTxt (f.record c) c (ascii "id") = [] ∧ instanceLabel (lastName (f.record c) c) = [] := by
  have htxt := mergeService_txtValue (f.record c) c (ascii "id")
  rw [merge_eq, lastName, ← mergeService_instanceName]
  by_cases hid : lastTxt (f.record c) c (ascii "id") = []
  · rw [shellyId_of_label (htxt.trans hid)]
    exact (and_iff_right hid).symm
  · rw [shellyId_of_txt (by rwa [htxt]), htxt]
    exact iff_of_false hid fun h => hid h.1

theorem Answered.nameable_iff (hc : a.factory.Completes c) :
    a.Nameable c ↔ shellyId (a.factory.merge c) ≠ [] := by
  rw [Ne, shellyId_merge_eq_nil, not_and_or]
  exact ⟨fun h => h hc, fun h _ => h⟩

theorem Answered.factory_tryCreate (a : Answered) (c : MdnsService) :
    (a.tryCreate c).factory = (a.factory.tryCreate a.answers.length c).1 := rfl

theorem Answered.answers_tryCreate (a : Answered) (c : MdnsService) :
    (a.tryCreate c).answers = a.answers ++
      [(lowercase (instanceId c), (a.factory.tryCreate a.answers.length c).2)] := rfl

/-- What a candidate adds to the answers and to the marks. -/
theorem Answered.tryCreate_cases (a : Answered) (c : MdnsService) :
    (¬a.factory.Completes c ∧ (a.tryCreate c).factory.emitted = a.factory.emitted ∧
      (a.tryCreate c).answers = a.answers ++ [(lowercase (instanceId c), .ok none)]) ∨
    (a.factory.Completes c ∧
      (a.tryCreate c).factory.emitted = insert (lowercase (instanceId c)) a.factory.emitted ∧
      (a.tryCreate c).answers = a.answers ++ [(lowercase (instanceId c),
        some <$> Thing.create a.answers.length (shellyId (a.factory.merge c)))]) := by
  rw [factory_tryCreate, answers_tryCreate]
  obtain ⟨hc, h | h⟩ | ⟨hc, h⟩ := tryCreate_eq a.factory a.answers.length c
  · rw [h]
    exact .inl ⟨hc, rfl, rfl⟩
  · rw [h]
    exact .inl ⟨hc, rfl, rfl⟩
  · rw [h]
    exact .inr ⟨hc, rfl, rfl⟩

/-- A candidate that leaves a name is answered without an exception. -/
theorem Answered.Safe.tryCreate (h : a.Safe) (hc : a.Nameable c) : (a.tryCreate c).Safe := by
  obtain ⟨-, hemitted, hanswers⟩ | ⟨hcompletes, hemitted, hanswers⟩ := a.tryCreate_cases c
  · constructor
    · intro key e hmem
      rw [hanswers, List.mem_append, List.mem_singleton] at hmem
      rcases hmem with hmem | hmem
      · exact h.returned key e hmem
      · exact nomatch congrArg Prod.snd hmem
    · intro key hkey
      rw [hemitted] at hkey
      rw [hanswers]
      obtain ⟨thing, hthing⟩ := h.things key hkey
      exact ⟨thing, List.mem_append_left _ hthing⟩
  · have hid := (nameable_iff hcompletes).1 hc
    rw [Thing.create, dif_neg hid] at hanswers
    constructor
    · intro key e hmem
      rw [hanswers, List.mem_append, List.mem_singleton] at hmem
      rcases hmem with hmem | hmem
      · exact h.returned key e hmem
      · exact nomatch congrArg Prod.snd hmem
    · intro key hkey
      rw [hemitted, Finset.mem_insert] at hkey
      rw [hanswers]
      rcases hkey with rfl | hkey
      · exact ⟨_, List.mem_append_right _ (List.mem_singleton.2 rfl)⟩
      · obtain ⟨thing, hthing⟩ := h.things key hkey
        exact ⟨thing, List.mem_append_left _ hthing⟩

/-- Any other candidate makes the factory throw. -/
theorem Answered.throws (hc : ¬a.Nameable c) :
    (lowercase (instanceId c), .error (.invalidArgument "thing id must not be empty")) ∈
      (a.tryCreate c).answers := by
  obtain ⟨hn, -, -⟩ | ⟨hcompletes, -, hanswers⟩ := a.tryCreate_cases c
  · exact absurd (fun hcompletes => absurd hcompletes hn) hc
  · have hid := not_not.1 (mt (nameable_iff hcompletes).2 hc)
    rw [hanswers, Thing.create, dif_pos hid]
    exact List.mem_append_right _ (List.mem_singleton.2 rfl)

theorem Answered.answers_grow {cs : List MdnsService} (hr : answering.Run a cs b)
    {answer : Bytes × Except Exception (Option Thing)} (h : answer ∈ a.answers) :
    answer ∈ b.answers :=
  hr.keeps (P := fun a => answer ∈ a.answers) (fun _ _ hs _ => List.mem_append_left _ hs) h

theorem Answered.Safe.init : Answered.Safe {} :=
  ⟨fun _ _ => List.not_mem_nil, fun _ hkey => absurd hkey (Finset.notMem_empty _)⟩

/-- In a run of candidates the factory throws nothing, and marks no device without
having returned a thing for it, if and only if each candidate that completes a device
leaves it with something to be named by. A thing that is returned has an id. -/
theorem factory_safe_iff_nameable {cs : List MdnsService} (hr : answering.Run {} cs b) :
    (b.Safe ↔ (answering.restrict Answered.Nameable).Run {} cs b) ∧
    ∀ key (thing : Thing), (key, .ok (some thing)) ∈ b.answers → thing.id ≠ [] := by
  refine ⟨?_, fun _ thing _ => thing.id_ne⟩
  refine Machine.Run.restrict_iff (P := Answered.Safe) (Q := Answered.Safe)
    (fun a c h _ hc => h.tryCreate hc) ?_ (fun _ h => h) hr .init
  intro a c cs b _ _ hc hrest hsafe
  exact hsafe.returned _ _ (Answered.answers_grow hrest (Answered.throws hc))

instance (a : Answered) (c : MdnsService) : Decidable (answering.enabled a c) :=
  inferInstanceAs (Decidable True)

instance (a : Answered) (c : MdnsService) :
    Decidable ((answering.restrict Answered.Nameable).enabled a c) :=
  inferInstanceAs (Decidable (True ∧ a.Nameable c))

/-- A device with a name. -/
theorem factory_safe_iff_nameable_foo : Answered.Safe ([foo].foldl Answered.tryCreate {}) :=
  (factory_safe_iff_nameable (Machine.run_of_runs (M := answering) (by decide +kernel))).1.2
    (Machine.run_of_runs (M := answering.restrict Answered.Nameable) (by decide +kernel))

/-- A device whose name starts with a dot. -/
def unnamed : MdnsService where
  serviceType := shellyServiceType
  instanceName := ascii ".x._shelly._tcp.local."
  hostname := ascii "x.local."
  port := 80

/-- The factory throws, and the device is marked without a thing. -/
theorem unnamed_device_throws : ∃ b, answering.Run {} [unnamed] b ∧
    ([], .error (.invalidArgument "thing id must not be empty")) ∈ b.answers ∧
    [] ∈ b.factory.emitted ∧ ¬b.Safe := by
  have hthrows := Answered.throws (a := {}) (c := unnamed) (by decide +kernel)
  refine ⟨_, .cons trivial (.nil _), hthrows, by decide +kernel, fun hsafe => ?_⟩
  exact hsafe.returned _ _ hthrows

end ShellyThingFactory

end Neubau.Shelly
