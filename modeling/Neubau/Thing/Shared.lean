import Neubau.Thing.Repository
import Mathlib.Logic.Function.Basic

/-! The repository on shared pointers. Things are objects, the repository and its
subscribers hold pointers to them, and the name of an object is changed in place.
The state is kept where an operation throws, so that what a failed operation has
done is seen. -/

namespace Neubau.Common.Shared

/-- The objects there are; the id of an object never changes. -/
structure Objects where
  id : ℕ → Bytes
  id_ne : ∀ t, id t ≠ []

/-- A shared pointer; `none` is the null pointer. -/
abbrev ThingPtr := Option ℕ

/-- `ThingRepository`, with the names of all objects. The subject holds `latest`
for later subscribers; `published` lists the values it was given. -/
structure Repository where
  names : ℕ → Bytes
  things : List ThingPtr := []
  latest : List ThingPtr := []
  published : List (List ThingPtr) := []

variable (o : Objects)

/-- Nothing is stored and every object has the name its constructor gave it. -/
def Repository.initial : Repository where
  names := o.id

namespace Repository

def find (r : Repository) (id : Bytes) : ThingPtr :=
  (r.things.find? fun thing => thing.any (o.id · = id)).getD none

def emitThings : StateM Repository Unit :=
  modify fun r => { r with latest := r.things, published := r.published ++ [r.things] }

def setResolvedName (thing : ℕ) (name : Bytes) : StateM Repository Unit :=
  modify fun r => { r with names := Function.update r.names thing name }

def add (p : Persistence) (thing : ThingPtr) : ExceptT Exception (StateM Repository) Unit := do
  let some thing := thing | throw (.invalidArgument "thing must not be null")
  if ((← get).find o (o.id thing)).isSome then
    throw (.invalidArgument "thing id must be unique")
  let restoredName ← liftExcept (p.restoreThingName (o.id thing))
  setResolvedName thing (restoredName.getD (o.id thing))
  modify fun r => { r with things := r.things ++ [some thing] }
  emitThings

def remove (thing : ThingPtr) : StateM Repository Unit := do
  match (← get).things.findIdx? (· = thing) with
  | none => return
  | some position =>
    modify fun r => { r with things := r.things.eraseIdx position }
    emitThings

/-- The repository with a thing at its end, as it is published. -/
def added (r : Repository) (thing : ℕ) (name : Bytes) : Repository where
  names := Function.update r.names thing name
  things := r.things ++ [some thing]
  latest := r.things ++ [some thing]
  published := r.published ++ [r.things ++ [some thing]]

/-- The repository with other things, as they are published. -/
def left (r : Repository) (things : List ThingPtr) : Repository :=
  { r with things, latest := things, published := r.published ++ [things] }

/-- The ids of the stored things are distinct, no null pointer is among them and
the subscribers were given the same list. -/
structure Sound (r : Repository) : Prop where
  null : none ∉ r.things
  ids : (r.things.map (Option.map o.id)).Nodup
  latest : r.latest = r.things

variable {o} {p : Persistence} {r : Repository}

theorem initial_sound : (initial o).Sound o := ⟨by simp [initial], by simp [initial], rfl⟩

theorem Sound.nodup (h : r.Sound o) : r.things.Nodup := .of_map _ h.ids

/-- `find` returns the thing of an id that is stored. -/
theorem Sound.find_eq_some_iff (h : r.Sound o) {id : Bytes} {t : ℕ} :
    r.find o id = some t ↔ some t ∈ r.things ∧ o.id t = id := by
  have hfound : ∀ thing, r.things.find? (fun thing => thing.any (o.id · = id)) = some thing →
      ∃ u, thing = some u ∧ some u ∈ r.things ∧ o.id u = id := by
    intro thing hf
    have hp := List.find?_some hf
    cases thing with
    | none => simp at hp
    | some u => exact ⟨u, rfl, List.mem_of_find?_eq_some hf, by simpa using hp⟩
  constructor
  · intro hf
    cases hthing : r.things.find? fun thing => thing.any (o.id · = id) with
    | none => simp [find, hthing] at hf
    | some thing =>
      obtain ⟨u, rfl, hu, hid⟩ := hfound thing hthing
      simp only [find, hthing, Option.getD_some, Option.some.injEq] at hf
      exact hf ▸ ⟨hu, hid⟩
  · rintro ⟨hmem, hid⟩
    cases hthing : r.things.find? fun thing => thing.any (o.id · = id) with
    | none =>
      have := List.find?_eq_none.1 hthing (some t) hmem
      simp [hid] at this
    | some thing =>
      obtain ⟨u, rfl, hu, hidu⟩ := hfound thing hthing
      have : some u = some t := List.inj_on_of_nodup_map h.ids hu hmem (by simp [hid, hidu])
      simp only [find, hthing, Option.getD_some, this]

theorem Sound.find_isSome_iff (h : r.Sound o) {id : Bytes} :
    (r.find o id).isSome ↔ some id ∈ r.things.map (Option.map o.id) := by
  rw [Option.isSome_iff_exists]
  simp only [h.find_eq_some_iff, List.mem_map, Option.map_eq_some_iff]
  constructor
  · rintro ⟨t, hmem, hid⟩
    exact ⟨some t, hmem, t, rfl, hid⟩
  · rintro ⟨_, hmem, t, rfl, hid⟩
    exact ⟨t, hmem, hid⟩

theorem add_null : (add o p none).run.run r =
    (.error (.invalidArgument "thing must not be null"), r) := rfl

theorem add_some (t : ℕ) : (add o p (some t)).run.run r =
    if (r.find o (o.id t)).isSome then
      (.error (.invalidArgument "thing id must be unique"), r)
    else match p.restoreThingName (o.id t) with
      | .error e => (.error e, r)
      | .ok name => (.ok (), r.added t (name.getD (o.id t))) := by
  change StateT.run (ExceptT.run (if (r.find o (o.id t)).isSome then _ else _)) r = _
  split_ifs with h
  · rfl
  · cases hp : p.restoreThingName (o.id t) with
    | error e => simp [liftExcept]; rfl
    | ok name => simp [liftExcept]; rfl

theorem remove_findIdx? (thing : ThingPtr) : ((remove thing).run r).2 =
    match r.things.findIdx? (· = thing) with
    | none => r
    | some position => r.left (r.things.eraseIdx position) := by
  cases h : r.things.findIdx? (· = thing) <;> simp [remove, h] <;> rfl

theorem remove_run (thing : ThingPtr) : ((remove thing).run r).2 =
    if thing ∈ r.things then r.left (r.things.erase thing) else r := by
  have herase := List.erase_eq_eraseIdx r.things thing
  have hidx : r.things.idxOf? thing = r.things.findIdx? (· = thing) :=
    congrArg (r.things.findIdx? ·) (funext fun _ => beq_eq_decide _ _)
  rw [hidx] at herase
  rw [remove_findIdx?]
  cases h : r.things.findIdx? (· = thing) with
  | none =>
    have hmem : thing ∉ r.things := by
      intro hmem
      have := List.findIdx?_eq_none_iff.1 h thing hmem
      simp at this
    rw [if_neg hmem]
  | some position =>
    have hmem : thing ∈ r.things := by
      obtain ⟨hlt, hp, -⟩ := List.findIdx?_eq_some_iff_getElem.1 h
      exact of_decide_eq_true hp ▸ List.getElem_mem hlt
    rw [h] at herase
    rw [if_pos hmem, herase]

end Repository

/-- A call of the repository; the configuration file may answer differently each
time. -/
inductive Call
  | add (p : Persistence) (thing : ThingPtr)
  | remove (thing : ThingPtr)

open Repository

/-- What the call throws or returns, and the repository it leaves. -/
def Call.run (r : Repository) : Call → Except Exception Unit × Repository
  | .add p thing => (Repository.add o p thing).run.run r
  | .remove thing => (.ok (), ((Repository.remove thing).run r).2)

/-- The repository after the calls. -/
def after (calls : List Call) : Repository :=
  calls.foldl (fun r c => (c.run o r).2) (Repository.initial o)

/-- Call `k` stored the thing, and no later call removed it. -/
def Stands (calls : List Call) (k t : ℕ) : Prop :=
  (∃ p, calls[k]? = some (.add p (some t)) ∧
    ((Call.add p (some t)).run o (after o (calls.take k))).1 = .ok ()) ∧
  ∀ j, k < j → calls[j]? ≠ some (.remove (some t))

variable {o} {r : Repository}

/-- A call fails and leaves everything, stores a new thing, or removes one. -/
theorem Call.run_cases (c : Call) (r : Repository) :
    (∃ p thing e, c = .add p thing ∧ c.run o r = (.error e, r)) ∨
    (∃ p t name, c = .add p (some t) ∧ ¬(r.find o (o.id t)).isSome ∧
      p.restoreThingName (o.id t) = .ok name ∧
      c.run o r = (.ok (), r.added t (name.getD (o.id t)))) ∨
    (∃ thing, c = .remove thing ∧ c.run o r =
      (.ok (), if thing ∈ r.things then r.left (r.things.erase thing) else r)) := by
  cases c with
  | remove thing => exact .inr (.inr ⟨thing, rfl, by rw [run, remove_run]⟩)
  | add p thing =>
    cases thing with
    | none => exact .inl ⟨p, none, _, rfl, add_null⟩
    | some t =>
      have hadd := add_some (o := o) (p := p) (r := r) t
      by_cases h : (r.find o (o.id t)).isSome
      · rw [if_pos h] at hadd
        exact .inl ⟨p, some t, _, rfl, hadd⟩
      · rw [if_neg h] at hadd
        cases hp : p.restoreThingName (o.id t) with
        | error e => exact .inl ⟨p, some t, e, rfl, by rw [run, hadd, hp]⟩
        | ok name => exact .inr (.inl ⟨p, t, name, rfl, h, hp, by rw [run, hadd, hp]⟩)

theorem Repository.Sound.run (h : r.Sound o) (c : Call) : (c.run o r).2.Sound o := by
  rcases c.run_cases r with ⟨p, thing, e, -, he⟩ | ⟨p, t, name, -, hf, -, he⟩ | ⟨thing, -, he⟩
  · rw [he]
    exact h
  · rw [he]
    have hid : some (o.id t) ∉ r.things.map (Option.map o.id) := fun hm => hf (h.find_isSome_iff.2 hm)
    refine ⟨by simp [added, h.null], ?_, rfl⟩
    simp only [added, List.map_append, List.map_cons, List.map_nil, Option.map_some]
    exact h.ids.append (List.nodup_singleton _) (by simpa using hid)
  · rw [he]
    dsimp only
    split_ifs
    · exact ⟨fun hm => h.null (List.mem_of_mem_erase hm),
        h.ids.sublist (List.erase_sublist.map _), rfl⟩
    · exact h

theorem after_concat (calls : List Call) (c : Call) :
    after o (calls ++ [c]) = (c.run o (after o calls)).2 := by
  simp [after]

theorem after_sound (calls : List Call) : (after o calls).Sound o := by
  induction calls using List.reverseRecOn with
  | nil => exact initial_sound
  | append_singleton calls c ih => exact after_concat calls c ▸ ih.run c

end Neubau.Common.Shared
