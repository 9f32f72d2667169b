import Neubau.Thing.Shared
import Mathlib.Data.List.InsertIdx
import Mathlib.Data.List.ReduceOption

/-! The two views of the repository. After any calls the stored things are those
whose addition succeeded and was not undone, in the order of their additions and
under the names found then; what `find` searches is what the subscribers were
given last. The repository of the pointers, read through the objects, is the
repository of values. -/

namespace Neubau.Common.Shared

open Repository

variable {o : Objects} {calls : List Call} {c : Call}

theorem Stands.lt {k t : ℕ} (h : Stands o calls k t) : k < calls.length := by
  obtain ⟨⟨p, hk, -⟩, -⟩ := h
  exact (List.getElem?_eq_some_iff.1 hk).1

/-- A thing stands after one call more if it stood and is not removed, or if the
call stored it. -/
theorem stands_concat {k t : ℕ} : Stands o (calls ++ [c]) k t ↔
    (Stands o calls k t ∧ c ≠ .remove (some t)) ∨
    (k = calls.length ∧ (∃ p, c = .add p (some t)) ∧ (c.run o (after o calls)).1 = .ok ()) := by
  rcases lt_trichotomy k calls.length with hk | rfl | hk
  · have htake : (calls ++ [c]).take k = calls.take k := List.take_append_of_le_length hk.le
    have hget : (calls ++ [c])[k]? = calls[k]? := List.getElem?_append_left hk
    have hlater : (∀ j, k < j → (calls ++ [c])[j]? ≠ some (.remove (some t))) ↔
        (∀ j, k < j → calls[j]? ≠ some (.remove (some t))) ∧ c ≠ .remove (some t) := by
      simp only [ne_eq, getElem?_concat_eq_some, not_or, not_and]
      constructor
      · intro h
        exact ⟨fun j hj => (h j hj).1, fun hc => (h calls.length hk).2 rfl hc⟩
      · rintro ⟨h, hc⟩ j hj
        exact ⟨h j hj, fun _ => hc⟩
    simp only [Stands, htake, hget, hlater, hk.ne, false_and, or_false, and_assoc]
  · have hnot : ¬Stands o calls calls.length t := fun h => lt_irrefl _ h.lt
    simp only [hnot, false_and, false_or, true_and]
    simp only [Stands, List.take_left, List.getElem?_concat_length, Option.some.injEq]
    constructor
    · rintro ⟨⟨p, rfl, hok⟩, -⟩
      exact ⟨⟨p, rfl⟩, hok⟩
    · rintro ⟨⟨p, rfl⟩, hok⟩
      refine ⟨⟨p, rfl, hok⟩, fun j hj => ?_⟩
      rw [List.getElem?_eq_none (by simp; omega)]
      simp
  · refine iff_of_false (fun h => ?_) (fun h => ?_)
    · have := h.lt
      simp at this
      omega
    · rcases h with ⟨h, -⟩ | ⟨h, -⟩
      · exact absurd h.lt (by omega)
      · omega

/-- The stored things, each with the call that stored it. -/
structure History (o : Objects) (calls : List Call) (entries : List (ℕ × ℕ)) : Prop where
  things : (after o calls).things = entries.map fun e => some e.2
  order : entries.Pairwise (·.1 < ·.1)
  stands : ∀ k t, (k, t) ∈ entries ↔ Stands o calls k t
  named : ∀ k t, (k, t) ∈ entries → ∃ p name, calls[k]? = some (.add p (some t)) ∧
    p.restoreThingName (o.id t) = .ok name ∧ (after o calls).names t = name.getD (o.id t)

namespace History

variable {entries : List (ℕ × ℕ)}

theorem mem_things (h : History o calls entries) {k t : ℕ} (ht : (k, t) ∈ entries) :
    some t ∈ (after o calls).things := by
  rw [h.things]
  exact List.mem_map.2 ⟨(k, t), ht, rfl⟩

/-- A call keeps the entry of a thing whose name it leaves. -/
theorem named_concat (h : History o calls entries) (c : Call) {k t : ℕ} (ht : (k, t) ∈ entries)
    (hname : (after o (calls ++ [c])).names t = (after o calls).names t) :
    ∃ p name, (calls ++ [c])[k]? = some (.add p (some t)) ∧
      p.restoreThingName (o.id t) = .ok name ∧
      (after o (calls ++ [c])).names t = name.getD (o.id t) := by
  obtain ⟨p, name, hk, hp, hn⟩ := h.named k t ht
  exact ⟨p, name, getElem?_concat_eq_some.2 (.inl hk), hp, hname.trans hn⟩

/-- Every call keeps a history. -/
theorem concat (h : History o calls entries) (c : Call) :
    ∃ entries, History o (calls ++ [c]) entries := by
  rcases c.run_cases (after o calls) with
    ⟨p, thing, e, rfl, he⟩ | ⟨p, t, name, rfl, hf, hp, he⟩ | ⟨thing, rfl, he⟩
  · have hsame : after o (calls ++ [Call.add p thing]) = after o calls := by rw [after_concat, he]
    refine ⟨entries, ?_, h.order, fun k t => ?_, fun k t ht => h.named_concat _ ht (by rw [hsame])⟩
    · rw [hsame, h.things]
    · rw [stands_concat, he, h.stands]
      simp
  · have hadd : after o (calls ++ [Call.add p (some t)]) =
        (after o calls).added t (name.getD (o.id t)) := by rw [after_concat, he]
    refine ⟨entries ++ [(calls.length, t)], ?_, ?_, fun k u => ?_, fun k u hu => ?_⟩
    · rw [hadd]
      simp [added, h.things]
    · refine List.pairwise_append.2 ⟨h.order, List.pairwise_singleton _ _, fun e hm e' he' => ?_⟩
      rw [List.mem_singleton.1 he']
      exact ((h.stands e.1 e.2).1 hm).lt
    · rw [stands_concat, he, ← h.stands]
      simp
      tauto
    · rcases List.mem_append.1 hu with hold | hnew
      · refine h.named_concat _ hold ?_
        have hne : u ≠ t := by
          rintro rfl
          exact hf ((after_sound calls).find_isSome_iff.2
            (List.mem_map.2 ⟨_, h.mem_things hold, rfl⟩))
        rw [hadd]
        simp [added, hne]
      · obtain ⟨rfl, rfl⟩ := Prod.mk.inj (List.mem_singleton.1 hnew)
        refine ⟨p, name, List.getElem?_concat_length, hp, ?_⟩
        rw [hadd]
        simp [added]
  · have hthings : (after o (calls ++ [Call.remove thing])).things =
        (after o calls).things.filter (· ≠ thing) := by
      have herase : (after o calls).things.erase thing =
          (after o calls).things.filter (· ≠ thing) := by
        rw [(after_sound calls).nodup.erase_eq_filter]
        exact List.filter_congr fun thing' _ => by simp [bne, beq_eq_decide]
      rw [after_concat, he, ← herase]
      dsimp only
      split_ifs with hm
      · rfl
      · exact (List.erase_of_not_mem hm).symm
    have hnames : (after o (calls ++ [Call.remove thing])).names = (after o calls).names := by
      rw [after_concat, he]
      split_ifs <;> rfl
    refine ⟨entries.filter fun e => some e.2 ≠ thing, ?_, h.order.filter _, fun k t => ?_,
      fun k t ht => h.named_concat _ (List.mem_of_mem_filter ht) (by rw [hnames])⟩
    · rw [hthings, h.things, List.filter_map]
      rfl
    · rw [stands_concat, ← h.stands, List.mem_filter]
      simp
      tauto

end History

theorem exists_history (calls : List Call) : ∃ entries, History o calls entries := by
  induction calls using List.reverseRecOn with
  | nil => exact ⟨[], rfl, .nil, by simp [Stands], by simp⟩
  | append_singleton calls c ih =>
    obtain ⟨entries, h⟩ := ih
    exact h.concat c

/-- After any calls: no null pointer is stored and the ids are distinct; the
stored things are those whose addition stands, in the order of the additions and
under the names they were given then; `find` finds exactly the stored things;
the subscribers have the list `find` searches; and a call that throws has changed
and published nothing. -/
theorem repository_views_agree (o : Objects) (calls : List Call) :
    none ∉ (after o calls).things ∧
    ((after o calls).things.map (Option.map o.id)).Nodup ∧
    (∃ entries : List (ℕ × ℕ), (after o calls).things = entries.map (fun e => some e.2) ∧
      entries.Pairwise (·.1 < ·.1) ∧
      (∀ k t, (k, t) ∈ entries ↔ Stands o calls k t) ∧
      ∀ k t, (k, t) ∈ entries → ∃ p name, calls[k]? = some (.add p (some t)) ∧
        p.restoreThingName (o.id t) = .ok name ∧ (after o calls).names t = name.getD (o.id t)) ∧
    (∀ id t, (after o calls).find o id = some t ↔ some t ∈ (after o calls).things ∧ o.id t = id) ∧
    (after o calls).latest = (after o calls).things ∧
    ∀ (c : Call) e, (c.run o (after o calls)).1 = .error e → (c.run o (after o calls)).2 = after o calls := by
  have hsound := after_sound (o := o) calls
  obtain ⟨entries, h⟩ := exists_history (o := o) calls
  refine ⟨hsound.null, hsound.ids, ⟨entries, h.things, h.order, h.stands, h.named⟩,
    fun id t => hsound.find_eq_some_iff, hsound.latest, fun c e hc => ?_⟩
  rcases c.run_cases (after o calls) with
    ⟨_, _, _, _, he⟩ | ⟨_, _, _, _, _, _, he⟩ | ⟨_, _, he⟩
  · rw [he]
  · rw [he] at hc
    cases hc
  · rw [he] at hc
    cases hc

section Values

variable {r : Repository}

variable (o)

/-- The thing a pointer points to. -/
def Repository.value (r : Repository) (t : ℕ) : Thing where
  object := t
  id := o.id t
  name := r.names t
  id_ne := o.id_ne t

/-- The repository of the things the pointers point to. -/
def Repository.values (r : Repository) : ThingRepository where
  things := r.things.reduceOption.map (r.value o)
  snapshot := r.latest.reduceOption.map (r.value o)

variable {o}

theorem find?_reduceOption {α : Type*} (l : List (Option α)) (p : α → Bool) :
    l.reduceOption.find? p = (l.find? fun x => x.any p).getD none := by
  induction l with
  | nil => rfl
  | cons x l ih =>
    cases x with
    | none => simpa [List.reduceOption_cons_of_none] using ih
    | some a =>
      by_cases ha : p a
      · simp [List.reduceOption_cons_of_some, ha]
      · simpa [List.reduceOption_cons_of_some, ha] using ih

theorem values_find (r : Repository) (id : Bytes) :
    (r.values o).find id = (r.find o id).map (r.value o) := by
  rw [ThingRepository.find, values, List.find?_map, find?_reduceOption]
  rfl

/-- The values of a repository with a thing at its end. -/
theorem values_added {t : ℕ} (ht : some t ∉ r.things) (name : Bytes) :
    (r.added t name).values o = ThingRepository.emitThings { r.values o with
      things := (r.values o).things ++ [{ r.value o t with name }] } := by
  have hold : r.things.reduceOption.map ((r.added t name).value o) =
      r.things.reduceOption.map (r.value o) := by
    refine List.map_congr_left fun u hu => ?_
    have hne : u ≠ t := by
      rintro rfl
      exact ht (List.reduceOption_mem_iff.1 hu)
    simp [value, added, hne]
  have hnew : (r.things ++ [some t]).reduceOption.map ((r.added t name).value o) =
      r.things.reduceOption.map (r.value o) ++ [{ r.value o t with name }] := by
    rw [List.reduceOption_append, List.map_append, hold]
    simp [List.reduceOption_cons_of_some, value, added]
  simp only [values, ThingRepository.emitThings, ThingRepository.mk.injEq]
  exact ⟨hnew, hnew⟩

/-- Adding a pointer is adding the thing it points to. -/
theorem values_add (h : r.Sound o) (p : Persistence) (thing : ThingPtr) :
    (r.values o).add p (thing.map (r.value o)) =
      (((Repository.add o p thing).run.run r).1.map fun _ =>
        ((Repository.add o p thing).run.run r).2.values o) := by
  cases thing with
  | none => rfl
  | some t =>
    have hid : (r.value o t).id = o.id t := rfl
    have hv : ((r.values o).find (o.id t)).isSome = (r.find o (o.id t)).isSome := by
      rw [values_find, Option.isSome_map]
    rw [add_some]
    simp only [ThingRepository.add, Option.map_some, hid, hv]
    split_ifs with hf
    · rfl
    · have ht : some t ∉ r.things := fun hm => hf (h.find_isSome_iff.2 (List.mem_map.2 ⟨_, hm, rfl⟩))
      cases p.restoreThingName (o.id t) with
      | error e => rfl
      | ok name =>
        simp only [values_added ht]
        rfl

/-- Removing a pointer is removing the thing it points to. -/
theorem values_remove (h : r.Sound o) (t : ℕ) :
    (r.values o).remove (r.value o t) = ((Repository.remove (some t)).run r).2.values o := by
  have hthings : ∀ l : List ThingPtr, none ∉ l → l = l.reduceOption.map some := by
    intro l hl
    induction l with
    | nil => rfl
    | cons x l ih =>
      cases x with
      | none => simp at hl
      | some u =>
        rw [List.reduceOption_cons_of_some, List.map_cons, ← ih (by simpa using hl)]
  have hidx : (r.values o).things.findIdx? (·.object = (r.value o t).object) =
      r.things.findIdx? (· = some t) := by
    rw [hthings _ h.null, values, List.findIdx?_map, List.findIdx?_map]
    congr 1
    funext u
    exact decide_eq_decide.2 (by simp [value])
  have herase : ∀ position, (r.values o).things.eraseIdx position =
      (r.things.eraseIdx position).reduceOption.map (r.value o) := by
    intro position
    have hid : ∀ l : List ℕ, (l.map some).reduceOption = l := by simp [List.reduceOption]
    rw [values, List.eraseIdx_map]
    congr 1
    conv_rhs => rw [hthings _ h.null, List.eraseIdx_map, hid]
  rw [ThingRepository.remove, hidx, remove_findIdx?]
  cases r.things.findIdx? (· = some t) with
  | none => rfl
  | some position =>
    simp only [ThingRepository.emitThings, herase]
    rfl

end Values

end Neubau.Common.Shared
