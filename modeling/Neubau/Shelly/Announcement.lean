import Neubau.Shelly.Creation
import Neubau.Shelly.Merging

/-! Which devices become things. The records of a device come one by one, and may each
hold only a part of what is needed: a port, and a host to connect to. Whatever their order
and however often they are repeated, the factory answers once for every device of which
both were announced, on the record that completes it, and never for another. -/

namespace Neubau.Shelly

open Neubau.Common Neubau.Mdns Neubau.Stream Neubau.Transition

/-- The records of a device that the factory accepts tell a port, and a host or an
address. -/
def Announced (cs : List MdnsService) (key : Bytes) : Prop :=
  (∃ c ∈ accepted cs key, c.port ≠ 0) ∧
    ∃ c ∈ accepted cs key, c.hostname ≠ [] ∨ c.addresses ≠ []

instance (cs : List MdnsService) (key : Bytes) : Decidable (Announced cs key) :=
  inferInstanceAs (Decidable (_ ∧ _))

theorem mem_accepted {cs : List MdnsService} {key : Bytes} {c : MdnsService} :
    c ∈ accepted cs key ↔ c ∈ cs ∧ isShellyService c = true ∧ lowercase (instanceId c) = key := by
  simp [accepted]

/-- What is announced depends on the set of records only. -/
theorem announced_congr {cs cs' : List MdnsService} (h : ∀ c, c ∈ cs ↔ c ∈ cs') (key : Bytes) :
    Announced cs key ↔ Announced cs' key := by
  simp only [Announced, mem_accepted, h]

theorem exists_accepted_concat {P : MdnsService → Prop} (cs : List MdnsService) (c : MdnsService)
    (key : Bytes) : (∃ d ∈ accepted (cs ++ [c]) key, P d) ↔
      (∃ d ∈ accepted cs key, P d) ∨
        (isShellyService c = true ∧ lowercase (instanceId c) = key) ∧ P c := by
  simp only [mem_accepted, List.mem_append, List.mem_singleton]
  constructor
  · rintro ⟨d, ⟨hd | rfl, hkey⟩, hP⟩
    · exact .inl ⟨d, ⟨hd, hkey⟩, hP⟩
    · exact .inr ⟨hkey, hP⟩
  · rintro (⟨d, ⟨hd, hkey⟩, hP⟩ | ⟨hkey, hP⟩)
    · exact ⟨d, ⟨.inl hd, hkey⟩, hP⟩
    · exact ⟨c, ⟨.inr rfl, hkey⟩, hP⟩

theorem Announced.concat {cs : List MdnsService} {key : Bytes} (h : Announced cs key)
    (c : MdnsService) : Announced (cs ++ [c]) key :=
  ⟨(exists_accepted_concat cs c key).2 (.inl h.1), (exists_accepted_concat cs c key).2 (.inl h.2)⟩

/-- A record of another device announces nothing of this one. -/
theorem announced_concat_of_ne {cs : List MdnsService} {c : MdnsService} {key : Bytes}
    (h : ¬(isShellyService c = true ∧ lowercase (instanceId c) = key)) :
    Announced (cs ++ [c]) key ↔ Announced cs key := by
  simp only [Announced, exists_accepted_concat, h, false_and, or_false]

/-- The answer is a thing, or an exception where one should be. -/
def Responds : Except Exception (Option Thing) → Bool
  | .ok none => false
  | _ => true

namespace ShellyThingFactory

variable {f : ShellyThingFactory} {cs : List MdnsService} {c : MdnsService} {key : Bytes}

/-- The record kept for a device is what its records announced, and a mark stands for a
device of which enough is announced. -/
structure Gathers (f : ShellyThingFactory) (cs : List MdnsService) : Prop where
  port : ∀ key, ((f.discovered.lookup key).getD {}).port ≠ 0 ↔ ∃ c ∈ accepted cs key, c.port ≠ 0
  host : ∀ key, (((f.discovered.lookup key).getD {}).hostname ≠ [] ∨
    ((f.discovered.lookup key).getD {}).addresses ≠ []) ↔
      ∃ c ∈ accepted cs key, c.hostname ≠ [] ∨ c.addresses ≠ []
  emitted : ∀ key, key ∈ f.emitted ↔ Announced cs key

theorem Gathers.empty : Gathers {} [] where
  port key := by simp [accepted]
  host key := by simp [accepted]
  emitted key := by simp [accepted, Announced]

/-- A candidate of the device is merged, and the records of the others are left alone. -/
theorem lookup_next (f : ShellyThingFactory) (object : ℕ) (c : MdnsService) (key : Bytes) :
    ((f.tryCreate object c).1.discovered.lookup key).getD {} =
      if isShellyService c = true ∧ lowercase (instanceId c) = key then
        mergeService ((f.discovered.lookup key).getD {}) c
      else (f.discovered.lookup key).getD {} := by
  rw [lookup_tryCreate]
  split_ifs with h
  · have hone : accepted [c] key = [c] := by simp [accepted, h]
    rw [hone]
    rfl
  · have hnone : accepted [c] key = [] := by simpa [accepted] using h
    rw [hnone]
    rfl

theorem or_swap_pairs {a b c d : Prop} : a ∨ b ∨ c ∨ d ↔ (b ∨ d) ∨ a ∨ c := by
  tauto

/-- A candidate makes its device connectable if and only if enough is announced with it. -/
theorem Gathers.connectable_iff (h : f.Gathers cs) (hs : isShellyService c = true) :
    Connectable (f.record c) c ↔ Announced (cs ++ [c]) (lowercase (instanceId c)) := by
  have hport := h.port (lowercase (instanceId c))
  have hhost := h.host (lowercase (instanceId c))
  rw [← record] at hport hhost
  rw [Announced, exists_accepted_concat, exists_accepted_concat, ← hport, ← hhost, hs, Connectable]
  simp only [and_self, true_and]
  exact and_congr or_comm or_swap_pairs

/-- A candidate completes a device if and only if enough is announced with it, and was
not before. -/
theorem Gathers.completes_iff (h : f.Gathers cs) (c : MdnsService) :
    f.Completes c ↔ isShellyService c = true ∧ ¬Announced cs (lowercase (instanceId c)) ∧
      Announced (cs ++ [c]) (lowercase (instanceId c)) := by
  refine and_congr_right fun hs => ?_
  rw [h.emitted, h.connectable_iff hs]

theorem Gathers.next (h : f.Gathers cs) (object : ℕ) (c : MdnsService) :
    (f.tryCreate object c).1.Gathers (cs ++ [c]) where
  port key := by
    rw [lookup_next, exists_accepted_concat]
    split_ifs with hc
    · rw [mergeService_port, replaced_ne_iff, h.port]
      simp [hc, or_comm]
    · simp [hc, h.port]
  host key := by
    rw [lookup_next, exists_accepted_concat, ← h.host key]
    split_ifs with hc
    · rw [mergeService_hostname, replaced_ne_iff, mergeService_addresses]
      simp only [ne_eq, mergeAddresses_eq_nil, not_and_or, hc, and_self, true_and, or_assoc]
      rw [or_left_comm]
      exact or_congr_right or_left_comm
    · simp [hc]
  emitted key := by
    have hcompletes := h.completes_iff c
    by_cases hkey : isShellyService c = true ∧ lowercase (instanceId c) = key
    · obtain ⟨hs, rfl⟩ := hkey
      have hknown (hc : ¬f.Completes c) : Announced (cs ++ [c]) (lowercase (instanceId c)) →
          Announced cs (lowercase (instanceId c)) := fun hnow => by
        by_contra hbefore
        exact hc (hcompletes.2 ⟨hs, hbefore, hnow⟩)
      obtain ⟨hc, heq | heq⟩ | ⟨hc, heq⟩ := tryCreate_eq f object c
      all_goals rw [heq]
      · exact (h.emitted _).trans ⟨fun hbefore => hbefore.concat c, hknown hc⟩
      · exact (h.emitted _).trans ⟨fun hbefore => hbefore.concat c, hknown hc⟩
      · exact iff_of_true (Finset.mem_insert_self _ _) (hcompletes.1 hc).2.2
    · rw [announced_concat_of_ne hkey, ← h.emitted]
      obtain ⟨-, heq | heq⟩ | ⟨hc, heq⟩ := tryCreate_eq f object c
      all_goals rw [heq]
      rw [Finset.mem_insert, or_iff_right]
      rintro rfl
      exact hkey ⟨hc.1, rfl⟩

/-- The number of times that the factory has responded for a device. -/
def Answered.responses (a : Answered) (key : Bytes) : ℕ :=
  a.answers.countP fun answer => answer.1 = key && Responds answer.2

theorem responds_none : Responds (.ok none) = false := rfl

theorem responds_create (object : ℕ) (id : Bytes) :
    Responds (some <$> Thing.create object id) = true := by
  unfold Thing.create
  split_ifs <;> rfl

theorem Answered.gathers (cs : List MdnsService) :
    (cs.foldl Answered.tryCreate {}).factory.Gathers cs ∧ ∀ key,
      (cs.foldl Answered.tryCreate {}).responses key = if Announced cs key then 1 else 0 := by
  induction cs using List.reverseRecOn with
  | nil =>
    refine ⟨.empty, fun key => ?_⟩
    rw [if_neg (by simp [Announced, accepted])]
    rfl
  | append_singleton cs c ih =>
    obtain ⟨hgathers, hresponses⟩ := ih
    rw [List.foldl_append, List.foldl_cons, List.foldl_nil]
    generalize cs.foldl Answered.tryCreate {} = a at hgathers hresponses
    have hnext : (a.tryCreate c).factory.Gathers (cs ++ [c]) := hgathers.next a.answers.length c
    refine ⟨hnext, fun key => ?_⟩
    have hemitted := hnext.emitted key
    have hbefore := hgathers.emitted key
    have hold := hresponses key
    unfold responses at hold ⊢
    obtain ⟨-, hmarks, hanswers⟩ | ⟨hc, hmarks, hanswers⟩ := a.tryCreate_cases c
    · rw [hmarks, hbefore] at hemitted
      simp only [hanswers, List.countP_append, hold, List.countP_singleton, responds_none,
        Bool.and_false, Bool.false_eq_true, if_false, add_zero, hemitted]
    · rw [hmarks, Finset.mem_insert, hbefore] at hemitted
      simp only [hanswers, List.countP_append, hold, List.countP_singleton, responds_create,
        Bool.and_true, decide_eq_true_eq]
      by_cases hkey : lowercase (instanceId c) = key
      · subst hkey
        rw [if_neg fun h => hc.2.1 ((hgathers.emitted _).2 h), if_pos rfl,
          if_pos (hemitted.1 (.inl rfl))]
      · rw [or_iff_right (Ne.symm hkey)] at hemitted
        simp only [hkey, hemitted, if_false, add_zero]

/-- Over any candidates the factory responds once for each device of which a port and a
host were announced, on the candidate that completes the announcement, and for no other;
so neither their order nor repetitions matter to the number of responses. -/
theorem responds_once_for_announced (cs : List MdnsService) (key : Bytes) :
    (cs.foldl Answered.tryCreate {}).responses key = (if Announced cs key then 1 else 0) ∧
      (∀ cs' : List MdnsService, (∀ c, c ∈ cs ↔ c ∈ cs') →
        (cs'.foldl Answered.tryCreate {}).responses key =
          (cs.foldl Answered.tryCreate {}).responses key) ∧
      ∀ before c after, cs = before ++ c :: after →
        (Responds ((before.foldl Answered.tryCreate {}).factory.tryCreate before.length c).2 = true ↔
          isShellyService c = true ∧ ¬Announced before (lowercase (instanceId c)) ∧
            Announced (before ++ [c]) (lowercase (instanceId c))) := by
  refine ⟨(Answered.gathers cs).2 key, fun cs' hsame => ?_, fun before c after _ => ?_⟩
  · rw [(Answered.gathers cs').2, (Answered.gathers cs).2]
    simp only [announced_congr hsame]
  rw [← (Answered.gathers before).1.completes_iff c]
  obtain ⟨hc, heq | heq⟩ | ⟨hc, heq⟩ :=
    tryCreate_eq (before.foldl Answered.tryCreate {}).factory before.length c
  · rw [heq]
    exact iff_of_false Bool.false_ne_true hc
  · rw [heq]
    exact iff_of_false Bool.false_ne_true hc
  · rw [heq]
    exact iff_of_true (responds_create _ _) hc

end ShellyThingFactory

end Neubau.Shelly
