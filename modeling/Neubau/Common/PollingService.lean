import Neubau.Thing.Shared
import Neubau.Transition.Machine

/-! Polling and expiry. The polling service keeps the things it was told of last,
polls them one after the other at a tick, and removes a thing from the repository
when it hears that the thing has expired; the repository then tells it of the
things that are left. Things report the outcomes of their polls at any time. -/

namespace Neubau.Common.Shared

open Transition

/-- `Thing::kMaxConsecutiveFailures`. -/
def kMaxConsecutiveFailures : ℕ := 3

/-- The repository, the counters of all objects and `PollingService`: `polling`
are the things a tick has yet to poll. `polled` and `reports` list what happened,
a report being true for a success. -/
structure Polling where
  repository : Repository
  consecutiveFailures : ℕ → ℕ := fun _ => 0
  currentThings : List ThingPtr
  polling : List ThingPtr := []
  polled : List ThingPtr := []
  reports : List (ℕ × Bool) := []

namespace Polling

variable (o : Objects)

def onThingsChanged (s : Polling) (current : List ThingPtr) : Polling :=
  { s with currentThings := current }

/-- The service hears every list the repository publishes. -/
def update (s : Polling) (r : Repository) : Polling :=
  (r.published.drop s.repository.published.length).foldl onThingsChanged
    { s with repository := r }

def add (p : Persistence) (thing : ThingPtr) (s : Polling) : Polling :=
  s.update ((Call.add p thing).run o s.repository).2

/-- A subscription to the expiry of a thing calls `remove`. -/
def onExpired (thing : ThingPtr) (s : Polling) : Polling :=
  s.update ((Call.remove thing).run o s.repository).2

def notePollSuccess (t : ℕ) (s : Polling) : Polling :=
  { s with
    consecutiveFailures := Function.update s.consecutiveFailures t 0
    reports := s.reports ++ [(t, true)] }

def countFailure (t : ℕ) (s : Polling) : Polling :=
  { s with
    consecutiveFailures := Function.update s.consecutiveFailures t (s.consecutiveFailures t + 1)
    reports := s.reports ++ [(t, false)] }

/-- `heard` is the number of live subscriptions to the expiry of the thing. -/
def notePollFailure (t heard : ℕ) (s : Polling) : Polling :=
  let s := s.countFailure t
  if kMaxConsecutiveFailures ≤ s.consecutiveFailures t then (onExpired o (some t))^[heard] s else s

/-- `onTick` polls a copy of the current things. -/
def onTick (s : Polling) : Polling := { s with polling := s.currentThings }

/-- The next thing of the tick is polled. -/
def poll (s : Polling) : Polling :=
  { s with polling := s.polling.tail, polled := s.polled ++ s.polling.take 1 }

inductive Event
  | add (p : Persistence) (thing : ThingPtr)
  | success (t : ℕ)
  | failure (t heard : ℕ)
  | tick
  | poll

/-- A tick runs to its end before the next; every thing published last has a live
subscription to its expiry. -/
def Enabled (s : Polling) : Event → Prop
  | .failure t heard => some t ∈ s.repository.latest → 1 ≤ heard
  | .tick => s.polling = []
  | .poll => s.polling ≠ []
  | _ => True

def step (s : Polling) : Event → Polling
  | .add p thing => s.add o p thing
  | .success t => s.notePollSuccess t
  | .failure t heard => s.notePollFailure o t heard
  | .tick => s.onTick
  | .poll => s.poll

/-- A service that has just subscribed to a repository with any things. -/
def Init (s : Polling) : Prop :=
  ∃ calls, s = { repository := after o calls, currentThings := (after o calls).latest }

def machine : Machine Polling Event where
  init := Init o
  enabled := Enabled
  next := step o

/-- The outcomes a thing has reported, the last one first. -/
def outcomes (reports : List (ℕ × Bool)) (t : ℕ) : List Bool :=
  ((reports.filter (·.1 = t)).map (·.2)).reverse

/-- The last three outcomes of a thing are failures. -/
def Failing (reports : List (ℕ × Bool)) (t : ℕ) : Prop :=
  (outcomes reports t).take kMaxConsecutiveFailures = List.replicate kMaxConsecutiveFailures false

instance (reports : List (ℕ × Bool)) (t : ℕ) : Decidable (Failing reports t) :=
  inferInstanceAs (Decidable (_ = _))

/-- The service knows the things of the repository, and the counter of a thing
counts the failures it has reported since its last success. -/
structure Sound (s : Polling) : Prop where
  repository : s.repository.Sound o
  current : s.currentThings = s.repository.things
  counter : ∀ t, s.consecutiveFailures t = ((outcomes s.reports t).takeWhile (! ·)).length

variable {o} {s : Polling}

/-- Whether the last outcomes are failures can be told from their number. -/
theorem failing_iff (reports : List (ℕ × Bool)) (t : ℕ) : Failing reports t ↔
    kMaxConsecutiveFailures ≤ ((outcomes reports t).takeWhile (! ·)).length := by
  unfold Failing kMaxConsecutiveFailures
  rcases outcomes reports t with _ | ⟨_ | _, _ | ⟨_ | _, _ | ⟨_ | _, l⟩⟩⟩ <;> simp [List.replicate]

theorem outcomes_concat (reports : List (ℕ × Bool)) (t u : ℕ) (b : Bool) :
    outcomes (reports ++ [(t, b)]) u =
      if t = u then b :: outcomes reports u else outcomes reports u := by
  by_cases h : t = u <;> simp [outcomes, h]

theorem update_self (s : Polling) : s.update s.repository = s := by
  simp [update]

theorem update_published {r : Repository}
    (h : r.published = s.repository.published ++ [r.latest]) :
    s.update r = { s with repository := r, currentThings := r.latest } := by
  simp [update, h, onThingsChanged]

/-- After a call of the repository the service knows the things there are. -/
theorem Sound.call (h : s.Sound o) (c : Call) : s.update (c.run o s.repository).2 = { s with
    repository := (c.run o s.repository).2
    currentThings := (c.run o s.repository).2.things } := by
  have hself : s.update s.repository = { s with
      repository := s.repository, currentThings := s.repository.things } := by
    rw [update_self, ← h.current]
  rcases c.run_cases (o := o) s.repository with
    ⟨_, _, _, -, he⟩ | ⟨_, _, _, -, -, -, he⟩ | ⟨thing, -, he⟩
  · rw [he]
    exact hself
  · rw [he]
    exact update_published rfl
  · rw [he]
    dsimp only
    split_ifs
    · exact update_published rfl
    · exact hself

theorem Sound.update (h : s.Sound o) (c : Call) : (s.update (c.run o s.repository).2).Sound o := by
  rw [h.call]
  exact ⟨h.repository.run c, rfl, h.counter⟩

/-- A thing that expires leaves the repository; the service is told. -/
theorem onExpired_eq (thing : ThingPtr) (s : Polling) : s.onExpired o thing =
    if thing ∈ s.repository.things then { s with
      repository := s.repository.left (s.repository.things.erase thing)
      currentThings := s.repository.things.erase thing } else s := by
  rw [onExpired, Call.run, Repository.remove_run]
  split_ifs
  · exact update_published rfl
  · exact update_self s

/-- Hearing of an expiry again does nothing. -/
theorem onExpired_onExpired (h : s.repository.things.Nodup) (thing : ThingPtr) :
    (s.onExpired o thing).onExpired o thing = s.onExpired o thing := by
  rw [onExpired_eq thing (s.onExpired o thing), if_neg]
  rw [onExpired_eq]
  split_ifs with hm
  · exact h.not_mem_erase
  · exact hm

theorem iterate_onExpired (h : s.repository.things.Nodup) (thing : ThingPtr) (heard : ℕ) :
    (onExpired o thing)^[heard + 1] s = s.onExpired o thing := by
  induction heard with
  | zero => rfl
  | succ heard ih => rw [Function.iterate_succ_apply', ih, onExpired_onExpired h]

theorem Sound.countFailure (h : s.Sound o) (t : ℕ) : (s.countFailure t).Sound o := by
  refine ⟨h.repository, h.current, fun u => ?_⟩
  rw [Polling.countFailure, outcomes_concat]
  by_cases hu : t = u
  · simp [hu, h.counter]
  · simp [hu, Ne.symm hu, h.counter]

theorem Sound.notePollSuccess (h : s.Sound o) (t : ℕ) : (s.notePollSuccess t).Sound o := by
  refine ⟨h.repository, h.current, fun u => ?_⟩
  rw [Polling.notePollSuccess, outcomes_concat]
  by_cases hu : t = u
  · simp [hu]
  · simp [hu, Ne.symm hu, h.counter]

/-- The counter tells whether the last outcomes of a thing are failures. -/
theorem Sound.failing_iff (h : s.Sound o) (t : ℕ) :
    Failing s.reports t ↔ kMaxConsecutiveFailures ≤ s.consecutiveFailures t := by
  rw [h.counter, Polling.failing_iff]

/-- A failure removes the thing that is there if it makes the last outcomes all
failures; otherwise it is only counted. -/
theorem notePollFailure_eq (h : s.Sound o) {t heard : ℕ}
    (he : some t ∈ s.repository.latest → 1 ≤ heard) : s.notePollFailure o t heard =
      if Failing (s.reports ++ [(t, false)]) t then (s.countFailure t).onExpired o (some t)
      else s.countFailure t := by
  have hf : Failing (s.reports ++ [(t, false)]) t ↔ _ := (h.countFailure t).failing_iff t
  simp only [notePollFailure, ← hf]
  split_ifs
  · cases heard with
    | succ heard => rw [iterate_onExpired (h.countFailure t).repository.nodup]
    | zero =>
      have hnot : some t ∉ (s.countFailure t).repository.things := fun hm =>
        absurd (he (h.repository.latest.symm ▸ hm)) (by omega)
      rw [onExpired_eq, if_neg hnot]
      rfl
  · rfl

theorem machine_sound : (machine o).Invariant (Sound o) where
  init := by
    rintro s ⟨calls, rfl⟩
    exact ⟨after_sound calls, (after_sound calls).latest, fun t => rfl⟩
  next s e h he := by
    cases e with
    | add p thing => exact h.update (.add p thing)
    | success t => exact h.notePollSuccess t
    | failure t heard =>
      change Sound o (s.notePollFailure o t heard)
      rw [notePollFailure_eq h he]
      split_ifs
      · exact (h.countFailure t).update (.remove (some t))
      · exact h.countFailure t
    | tick => exact ⟨h.repository, h.current, h.counter⟩
    | poll => exact ⟨h.repository, h.current, h.counter⟩

end Polling

end Neubau.Common.Shared
