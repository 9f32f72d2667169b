import Neubau.Bootstrap.Rediscovery

/-! The subscription of `main` to the candidates of the discovery. An observer whose handler
throws gets the exception as the error of its stream, and hears nothing behind it. So the
repository has the things of all candidates as long as every candidate could be handled,
and from the first that could not be it stays as it is. -/

namespace Neubau.Bootstrap

open Neubau.Common Neubau.Shelly

/-- The observer of `discovery->candidates()` with what it works on. -/
structure Subscription where
  system : System := {}
  error : Option Exception := none
  deriving DecidableEq

def Subscription.onNext (p : Persistence) (s : Subscription) (candidate : Candidate) :
    Subscription :=
  if s.error.isSome then s
  else
    match handle p s.system candidate with
    | (system, .ok ()) => { system }
    | (system, .error e) => { system, error := some e }

/-- The subscription behind some candidates. -/
def hear (p : Persistence) (cs : List Candidate) : Subscription := cs.foldl (.onNext p) {}

/-- The factories behind some candidates, whatever became of the things. -/
def factoriesOf (cs : List Candidate) : ThingFactoryService :=
  cs.foldl (fun f c => (f.tryCreate c).1) {}

/-- What the factories answer to a candidate behind others. -/
def answer (before : List Candidate) (c : Candidate) : Except Exception (Option Thing) :=
  ((factoriesOf before).tryCreate c).2

/-- The id of a thing that was made. -/
def idOf : Except Exception (Option Thing) → Option Bytes
  | .ok (some thing) => some thing.id
  | _ => none

/-- The ids of the things that the factories make, one candidate after the other. -/
def madeFrom (f : ThingFactoryService) : List Candidate → List Bytes
  | [] => []
  | c :: cs => (idOf (f.tryCreate c).2).toList ++ madeFrom (f.tryCreate c).1 cs

def made (cs : List Candidate) : List Bytes := madeFrom {} cs

section Hearing

variable {p : Persistence} {cs before after : List Candidate} {c : Candidate}

theorem madeFrom_append (f : ThingFactoryService) (cs ds : List Candidate) :
    madeFrom f (cs ++ ds) =
      madeFrom f cs ++ madeFrom (cs.foldl (fun f c => (f.tryCreate c).1) f) ds := by
  induction cs generalizing f with
  | nil => rfl
  | cons c cs ih => simp only [List.cons_append, madeFrom, ih, List.append_assoc, List.foldl_cons]

theorem made_concat (cs : List Candidate) (c : Candidate) :
    made (cs ++ [c]) = made cs ++ (idOf (answer cs c)).toList := by
  rw [made, madeFrom_append, madeFrom, madeFrom, List.append_nil]
  rfl

theorem made_split (before : List Candidate) (c : Candidate) (after : List Candidate) :
    ∃ rest, made (before ++ c :: after) =
      made before ++ (idOf (answer before c)).toList ++ rest := by
  refine ⟨madeFrom ((factoriesOf before).tryCreate c).1 after, ?_⟩
  rw [made, madeFrom_append, madeFrom, List.append_assoc]
  rfl

theorem factoriesOf_concat (cs : List Candidate) (c : Candidate) :
    factoriesOf (cs ++ [c]) = ((factoriesOf cs).tryCreate c).1 := by
  rw [factoriesOf, List.foldl_append]
  rfl

theorem hear_concat (cs : List Candidate) (c : Candidate) :
    hear p (cs ++ [c]) = (hear p cs).onNext p c := by
  rw [hear, List.foldl_append]
  rfl

theorem onNext_ended {s : Subscription} (h : s.error ≠ none) (c : Candidate) : s.onNext p c = s :=
  if_pos (Option.isSome_iff_ne_none.2 h)

/-- A subscription that has ended stays as it is. -/
theorem hear_ended (h : (hear p cs).error ≠ none) (ds : List Candidate) :
    hear p (cs ++ ds) = hear p cs := by
  induction ds using List.reverseRecOn with
  | nil => rw [List.append_nil]
  | append_singleton ds d ih =>
    rw [← List.append_assoc, hear_concat, ih]
    exact onNext_ended h d

/-- The subscription has handled everything: the things that were made are there, each
under an id of its own. -/
structure Alive (p : Persistence) (cs : List Candidate) : Prop where
  error : (hear p cs).error = none
  factory : (hear p cs).system.factory = factoriesOf cs
  ids : (hear p cs).system.ids = made cs
  nodup : (made cs).Nodup
  answered : ∀ before c after e, cs = before ++ c :: after → answer before c ≠ .error e

/-- It ended at a candidate: the factories threw, or they made a thing whose id the
repository had. -/
structure EndedAt (p : Persistence) (before : List Candidate) (c : Candidate) (e : Exception) :
    Prop where
  alive : Alive p before
  error : (hear p (before ++ [c])).error = some e
  things : (hear p (before ++ [c])).system.things = (hear p before).system.things
  cause : answer before c = .error e ∨
    e = duplicateId ∧ ∃ id ∈ made before, idOf (answer before c) = some id

theorem Alive.nil : Alive p [] where
  error := rfl
  factory := rfl
  ids := rfl
  nodup := List.nodup_nil
  answered before c after e h := by simp at h

/-- Nor do they throw at a candidate more, if not at that one. -/
theorem Alive.answered_concat (h : Alive p cs) (hanswer : ∀ e, answer cs c ≠ .error e)
    (before : List Candidate) (d : Candidate) (after : List Candidate) (e : Exception)
    (hsplit : cs ++ [c] = before ++ d :: after) : answer before d ≠ .error e := by
  rcases List.eq_nil_or_concat after with rfl | ⟨rest, last, rfl⟩
  · obtain ⟨rfl, hlast⟩ := List.append_inj' hsplit rfl
    obtain rfl := List.singleton_inj.1 hlast
    exact hanswer e
  · rw [List.concat_eq_append, ← List.cons_append, ← List.append_assoc] at hsplit
    exact h.answered before d rest e (List.append_inj' hsplit rfl).1

/-- A candidate more, behind others that were all handled. -/
theorem Alive.next (hp : ∀ id, ∃ name, p.restoreThingName id = .ok name) (h : Alive p cs)
    (c : Candidate) : Alive p (cs ++ [c]) ∨ ∃ e, EndedAt p cs c e := by
  have hnext : hear p (cs ++ [c]) = match handle p (hear p cs).system c with
      | (system, .ok ()) => { system }
      | (system, .error e) => { system, error := some e } := by
    rw [hear_concat, Subscription.onNext, h.error]
    rfl
  have hmade := made_concat cs c
  rcases hc : (hear p cs).system.factory.tryCreate c with ⟨f, e | (_ | thing)⟩
  · have hanswer : answer cs c = .error e := by rw [answer, ← h.factory, hc]
    rw [handle_error hc] at hnext
    exact .inr ⟨e, h, by rw [hnext], by rw [hnext], .inl hanswer⟩
  · have hanswer : answer cs c = .ok none := by rw [answer, ← h.factory, hc]
    rw [handle_none hc] at hnext
    rw [hanswer] at hmade
    refine .inl ⟨by rw [hnext], ?_, ?_, ?_, h.answered_concat fun e => by simp [hanswer]⟩
    · rw [hnext, factoriesOf_concat, ← h.factory, hc]
    · rw [hnext, hmade]
      exact h.ids.trans (List.append_nil _).symm
    · rw [hmade]
      exact (List.append_nil _).symm ▸ h.nodup
  · have hanswer : answer cs c = .ok (some thing) := by rw [answer, ← h.factory, hc]
    obtain ⟨hknown, hnew⟩ := handle_things hp hc
    by_cases hmem : thing.id ∈ (hear p cs).system.ids
    · rw [hknown hmem] at hnext
      refine .inr ⟨duplicateId, h, by rw [hnext], by rw [hnext], .inr ⟨rfl, thing.id, ?_, ?_⟩⟩
      · exact h.ids ▸ hmem
      · rw [hanswer]
        rfl
    · obtain ⟨hok, hids⟩ := hnew hmem
      have hfactory : (handle p (hear p cs).system c).1.factory = f := by
        simp only [handle, hc]
        split <;> rfl
      rcases hh : handle p (hear p cs).system c with ⟨system, result⟩
      rw [hh] at hok hids hfactory hnext
      dsimp only at hok hids hfactory
      subst hok
      rw [hanswer] at hmade
      refine .inl ⟨by rw [hnext], ?_, ?_, ?_, h.answered_concat fun e => by simp [hanswer]⟩
      · rw [hnext, factoriesOf_concat, ← h.factory, hc]
        exact hfactory
      · rw [hnext, hmade]
        exact hids.trans (by rw [h.ids]; rfl)
      · rw [hmade]
        refine List.nodup_append.2 ⟨h.nodup, List.nodup_singleton _, ?_⟩
        rintro id hid _ hid' rfl
        obtain rfl : id = thing.id := List.mem_singleton.1 hid'
        exact hmem (h.ids ▸ hid)

/-- All candidates were handled, or the subscription ended at one of them. -/
theorem hear_cases (hp : ∀ id, ∃ name, p.restoreThingName id = .ok name) (cs : List Candidate) :
    Alive p cs ∨ ∃ before c after e, cs = before ++ c :: after ∧ EndedAt p before c e ∧
      hear p cs = hear p (before ++ [c]) := by
  induction cs using List.reverseRecOn with
  | nil => exact .inl .nil
  | append_singleton cs d ih =>
    rcases ih with h | ⟨before, c, after, e, rfl, hended, hheard⟩
    · rcases h.next hp d with h | ⟨e, hended⟩
      · exact .inl h
      · exact .inr ⟨cs, d, [], e, rfl, hended, rfl⟩
    · refine .inr ⟨before, c, after ++ [d], e, by simp, hended, ?_⟩
      rw [← hheard]
      exact hear_ended (by rw [hheard, hended.error]; simp) [d]

/-- The subscription lives if and only if the factories never threw and made no id twice. -/
theorem alive_iff (hp : ∀ id, ∃ name, p.restoreThingName id = .ok name) (cs : List Candidate) :
    (hear p cs).error = none ↔
      (made cs).Nodup ∧
        ∀ before c after e, cs = before ++ c :: after → answer before c ≠ .error e := by
  rcases hear_cases hp cs with h | ⟨before, c, after, e, rfl, hended, hheard⟩
  · exact iff_of_true h.error ⟨h.nodup, h.answered⟩
  · refine iff_of_false (by rw [hheard, hended.error]; simp) fun ⟨hnodup, hanswered⟩ => ?_
    rcases hended.cause with hthrew | ⟨-, id, hid, hmade⟩
    · exact hanswered before c after e rfl hthrew
    · obtain ⟨rest, hsplit⟩ := made_split before c after
      rw [hsplit, hmade, Option.toList_some] at hnodup
      have hdisjoint := (List.nodup_append.1 (List.nodup_append.1 hnodup).1).2.2
      exact hdisjoint id hid id (List.mem_singleton_self id) rfl

end Hearing

end Neubau.Bootstrap
