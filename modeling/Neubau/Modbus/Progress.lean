import Neubau.Modbus.Pages
import Neubau.Modbus.Upstream

/-! A session comes to its end. Every active identification has an exchange that was
started or is queued to start, and no job waits while there is room; so a session with
nothing queued, no exchange going on and an upstream that has completed has completed
itself. -/

namespace Neubau.Modbus

open Neubau.Common

/-- An open identifier whose exchange ends starts the next one or calls its result. -/
theorem Identifier.exchangeFinished_goes_on {i : Identifier} (h : i.Open) {x : TcpExchange}
    (hx : i.exchange = some x) (response : Option Bytes) :
    (∃ thing, (i.exchangeFinished response).2 = .result thing) ∨
      (i.exchangeFinished response).2 = .exchange ∧
        ∃ y, (i.exchangeFinished response).1.exchange = some y := by
  have hcomplete (j : Identifier) (hj : j.Open) (thing : Option ModbusThing) :
      (j.complete thing).2 = .result thing := by
    simp [Identifier.complete, hj.finished, hj.hasResult]
  unfold Identifier.exchangeFinished
  rw [hx]
  dsimp only
  split
  · rcases i.onMei_cases h.finished response with ⟨-, heq⟩ | ⟨pdu, -, -, heq⟩ | ⟨pdu, -, -, heq⟩
    · rw [heq]
      exact .inr ⟨rfl, _, rfl⟩
    · rw [heq]
      exact .inl ⟨_, hcomplete _ (h.rested.withException _) _⟩
    · rw [heq, Identifier.onPage]
      split_ifs
      · exact .inr ⟨rfl, _, rfl⟩
      · exact .inr ⟨rfl, _, rfl⟩
      · have hnamed : Identifier.Open { i.rested.withPage pdu with
            thing := (i.rested.withPage pdu).thing.named } := ⟨h.finished, h.hasResult⟩
        exact .inl ⟨_, hcomplete _ hnamed _⟩
  · rcases i.onFallback_cases h.finished response with heq | heq | ⟨code, heq⟩
    · rw [heq]
      exact .inl ⟨_, hcomplete _ h.rested _⟩
    · rw [heq]
      exact .inl ⟨_, hcomplete _ h.rested _⟩
    · rw [heq]
      exact .inl ⟨_, hcomplete _ (h.rested.withException _) _⟩

namespace Discovery

variable {o : Options}

namespace Session

variable {s t : Session}

/-- The exchange of the identification `n` goes on. -/
def Awaits (s : Session) (n : ℕ) : Prop :=
  ∃ i x, s.identifiers[n]? = some i ∧ i.exchange = some x ∧ x.started = true

/-- The identification `n` has an exchange, started or queued. -/
def Waiting (s : Session) (n : ℕ) : Prop :=
  ∃ i x, s.identifiers[n]? = some i ∧ i.exchange = some x ∧
    (x.started = true ∨ .startInLoop n ∈ s.tasks)

/-- Every active identification waits for something. -/
def Waits (s : Session) : Prop := ∀ n ∈ s.active, s.Waiting n

/-- What a session that goes on has to do, it does. -/
structure Progress (o : Options) (s : Session) : Prop where
  waits : s.Waits
  filled : s.stopped = false → s.pending ≠ [] → o.maxConcurrency ≤ s.active.length
  ends : s.stopped = false → s.upstreamCompleted = true → s.pending = [] → s.active = [] →
    s.completed = true

theorem Progress.init : Progress o {} := ⟨nofun, fun _ h => absurd rfl h, nofun⟩

theorem Waiting.mono {n : ℕ} (h : s.Waiting n) (hi : t.identifiers[n]? = s.identifiers[n]?)
    (ht : .startInLoop n ∈ s.tasks → .startInLoop n ∈ t.tasks) : t.Waiting n := by
  obtain ⟨i, x, hn, hx, hor⟩ := h
  exact ⟨i, x, hi.trans hn, hx, hor.imp_right ht⟩

/-- Where nothing becomes active and the identifiers stay, each goes on to wait. -/
theorem Waits.mono (h : s.Waits) (ha : t.active ⊆ s.active)
    (hi : ∀ n ∈ t.active, t.identifiers[n]? = s.identifiers[n]?)
    (ht : ∀ n ∈ t.active, .startInLoop n ∈ s.tasks → .startInLoop n ∈ t.tasks) : t.Waits :=
  fun n hn => (h n (ha hn)).mono (hi n hn) (ht n hn)

theorem Waits.same (h : s.Waits) (ha : t.active = s.active)
    (hi : t.identifiers = s.identifiers) (ht : t.tasks = s.tasks) : t.Waits :=
  h.mono (by rw [ha]; exact List.Subset.refl _) (fun _ _ => by rw [hi]) fun _ _ => by rw [ht]; exact id

theorem Waits.startJob (h : s.Waits) (job : Job) : (s.startJob job).Waits := by
  intro n hn
  rcases List.mem_append.1 hn with hn | hn
  · obtain ⟨i, x, hi, hx, hor⟩ := h n hn
    exact ⟨i, x, getElem?_concat_eq_some.2 (.inl hi), hx, hor.imp_right (List.mem_append_left _)⟩
  · have hlast := List.mem_singleton.1 hn
    refine ⟨_, _, getElem?_concat_eq_some.2 (.inr ⟨hlast, rfl⟩), rfl, .inr ?_⟩
    rw [hlast]
    exact List.mem_append_right _ (List.mem_singleton_self _)

theorem Waits.startJobs (h : s.Waits) (pending : List Job) : (startJobs o pending s).Waits := by
  induction pending generalizing s with
  | nil => exact h.same rfl rfl rfl
  | cons job rest ih =>
    rw [Session.startJobs]
    split_ifs
    · exact ih (h.startJob job)
    · exact h.same rfl rfl rfl

/-- The loop of `fill` leaves a job only if there is no room for it. -/
theorem startJobs_filled (pending : List Job) (s : Session) :
    (startJobs o pending s).stopped = false → (startJobs o pending s).pending ≠ [] →
      o.maxConcurrency ≤ (startJobs o pending s).active.length := by
  induction pending generalizing s with
  | nil => exact fun _ hne => absurd rfl hne
  | cons job rest ih =>
    rw [startJobs]
    split_ifs with hroom
    · exact ih (s.startJob job)
    · intro hs _
      exact not_lt.1 fun hlt => hroom ⟨hs, hlt⟩

/-- A session that could end has ended. -/
theorem Waits.maybeComplete (h : s.Waits)
    (hf : s.stopped = false → s.pending ≠ [] → o.maxConcurrency ≤ s.active.length) :
    s.maybeComplete.Progress o := by
  unfold Session.maybeComplete
  split_ifs with hleft
  · refine ⟨h, hf, fun hs hu hp ha => ?_⟩
    rcases hleft with hc | hc | hc | hc
    · exact hc
    · exact absurd (hc.symm.trans hu) Bool.false_ne_true
    · exact absurd hp hc
    · exact absurd ha hc
  · unfold Session.finish
    split_ifs with hc
    · exact ⟨h, hf, fun _ _ _ _ => hc⟩
    · exact ⟨h.same rfl rfl rfl, hf, fun _ _ _ _ => rfl⟩

theorem Waits.fill (h : s.Waits) (hs : s.Sound o) : (s.fill o).Progress o := by
  unfold Session.fill
  split_ifs with hc
  · exact ⟨h, fun _ hp => absurd (hs.closed hc).1 hp, fun _ _ _ _ => hc⟩
  · exact (h.startJobs s.pending).maybeComplete (startJobs_filled s.pending s)

theorem Progress.same (h : s.Progress o) (ha : t.active = s.active)
    (hi : t.identifiers = s.identifiers) (hs : t.stopped = s.stopped)
    (hu : t.upstreamCompleted = s.upstreamCompleted) (hp : t.pending = s.pending)
    (hc : t.completed = s.completed)
    (ht : ∀ n, .startInLoop n ∈ s.tasks → .startInLoop n ∈ t.tasks) : t.Progress o where
  waits := h.waits.mono (by rw [ha]; exact List.Subset.refl _) (fun _ _ => by rw [hi])
    fun n _ => ht n
  filled := by
    rw [hs, hp, ha]
    exact h.filled
  ends := by
    rw [hs, hu, hp, ha, hc]
    exact h.ends

/-- A session that is stopped has nothing left to do. -/
theorem Progress.stopped (ha : s.active = []) (hs : s.stopped = true) : s.Progress o where
  waits n hn := absurd hn (by rw [ha]; exact List.not_mem_nil)
  filled hs' := absurd (hs.symm.trans hs') (by decide)
  ends hs' := absurd (hs.symm.trans hs') (by decide)

/-- The exchange of the identification `n` ends. -/
theorem Progress.exchangeFinished (h : s.Progress o) (hs : s.Sound o) (n : ℕ)
    (response : Option Bytes) : (s.exchangeFinished o n response).Progress o := by
  unfold Session.exchangeFinished
  split
  · exact h
  rename_i i hi
  -- the other identifications keep their identifiers
  have hothers : ∀ j, ∀ m ∈ s.active, m ≠ n → (s.identifiers.set n j)[m]? = s.identifiers[m]? :=
    fun j m _ hm => List.getElem?_set_ne (Ne.symm hm)
  by_cases hn : n ∈ s.active
  · obtain ⟨j, x, hj, hx, -⟩ := h.waits n hn
    obtain rfl : i = j := Option.some.inj (hi.symm.trans hj)
    obtain ⟨i', hi', hopen⟩ := hs.opened n hn
    obtain rfl : i = i' := Option.some.inj (hi.symm.trans hi')
    have hlt := (List.getElem?_eq_some_iff.1 hi).1
    dsimp only
    rcases Identifier.exchangeFinished_goes_on hopen hx response with ⟨thing, hp⟩ | ⟨hp, y, hy⟩
    · rw [hp]
      dsimp only
      rw [oneFinished_eq (hs.running hn).1]
      have hfinished : (i.exchangeFinished response).1.finished = true := by
        rcases Identifier.exchangeFinished_advances hopen response with ⟨_, -, hf⟩ | ⟨hno, -⟩
        · exact hf
        · exact absurd hp (hno thing)
      refine Waits.fill (fun m hm => ?_) (hs.identified hn hfinished thing)
      obtain ⟨hne, hm⟩ := (List.Nodup.mem_erase_iff hs.nodup).1 hm
      exact (h.waits m hm).mono (hothers _ m hm hne) id
    · rw [hp]
      refine ⟨fun m hm => ?_, h.filled, h.ends⟩
      by_cases hmn : m = n
      · subst hmn
        exact ⟨_, y, List.getElem?_set_self hlt, hy,
          .inr (List.mem_append_right _ (List.mem_singleton_self _))⟩
      · exact (h.waits m hm).mono (hothers _ m hm hmn) (List.mem_append_left _)
  · have hquiet := Identifier.exchangeFinished_of_finished (hs.finished n hn i hi) response
    dsimp only
    rw [hquiet.1]
    refine ⟨fun m hm => ?_, h.filled, h.ends⟩
    exact (h.waits m hm).mono (hothers _ m hm fun hmn => hn (hmn ▸ hm)) id

theorem Progress.startInLoop {n : ℕ} {rest : List Task} (h : s.Progress o) (hs : s.Sound o)
    (ht : s.tasks = .startInLoop n :: rest) (created : Bool) :
    (({ s with tasks := rest } : Session).startInLoop o n created).Progress o := by
  -- the callbacks of the others are behind the one that runs
  have hrest : ∀ m ≠ n, .startInLoop m ∈ s.tasks → .startInLoop m ∈ rest := by
    intro m hm hmem
    rw [ht] at hmem
    exact (List.mem_cons.1 hmem).resolve_left fun heq => hm (Task.startInLoop.inj heq)
  by_cases hn : n ∈ s.active
  · obtain ⟨i, x, hi, hx, -⟩ := h.waits n hn
    have hlt := (List.getElem?_eq_some_iff.1 hi).1
    have hi' : ({ s with tasks := rest } : Session).identifiers[n]? = some i := hi
    -- once it is started, everyone waits again
    let started : Session := { s with
      tasks := rest
      identifiers := s.identifiers.set n { i with exchange := some { x with started := true } } }
    have hwaits : started.Waits := by
      intro m hm
      by_cases hmn : m = n
      · subst hmn
        exact ⟨_, _, List.getElem?_set_self hlt, rfl, .inl rfl⟩
      · exact (h.waits m hm).mono (List.getElem?_set_ne (Ne.symm hmn)) (hrest m hmn)
    have hstarted : started.Progress o := ⟨hwaits, h.filled, h.ends⟩
    cases created with
    | true =>
      rw [Session.startInLoop]
      simp only [hi', hx, ↓reduceIte]
      exact hstarted
    | false =>
      have hsound : started.Sound o := by
        refine Sound.setIdentifier (s := { s with tasks := rest })
          (hs.tasks (by rw [ht, List.count_cons]; omega)) (fun _ => ?_) fun hn' => absurd hn hn'
        obtain ⟨j, hj, ho⟩ := hs.opened n hn
        obtain rfl : i = j := Option.some.inj (hi.symm.trans hj)
        exact ⟨ho.finished, ho.hasResult⟩
      have heq : ({ s with tasks := rest } : Session).exchangeFinished o n none =
          started.exchangeFinished o n none := by
        have hset : started.identifiers[n]? =
            some { i with exchange := some { x with started := true } } := List.getElem?_set_self hlt
        have hresult : Identifier.exchangeFinished
            { i with exchange := some { x with started := true } } none =
              i.exchangeFinished none := by
          simp only [Identifier.exchangeFinished, hx]
          split <;> rfl
        unfold Session.exchangeFinished
        simp only [hi', hset, hresult, started, List.set_set]
      rw [Session.startInLoop]
      simp only [hi', hx, Bool.false_eq_true, ↓reduceIte]
      rw [heq]
      exact hstarted.exchangeFinished hsound n none
  · have hpop : Progress o { s with tasks := rest } :=
      ⟨h.waits.mono (List.Subset.refl _) (fun _ _ => rfl)
        fun m hm => hrest m fun hmn => hn (hmn ▸ hm), h.filled, h.ends⟩
    have hsound : Sound o { s with tasks := rest } :=
      hs.tasks (by rw [ht, List.count_cons]; omega)
    unfold Session.startInLoop
    split
    · exact hpop
    split
    · exact hpop
    · split_ifs
      · refine ⟨hpop.waits.mono (List.Subset.refl _) (fun m hm => ?_) fun _ _ => id, h.filled, h.ends⟩
        have hne : n ≠ m := fun hmn => hn (hmn ▸ hm)
        exact List.getElem?_set_ne hne
      · exact hpop.exchangeFinished hsound n none

theorem Progress.enqueue (h : s.Progress o) (hs : s.Sound o) (hup : s.upstream = .active)
    (candidate : OpenPort) :
    Progress o ({ s with arrived := s.arrived ++ [candidate] }.enqueue o candidate) := by
  have hc : s.completed = false := by
    cases hc : s.completed with
    | true => exact absurd hup (hs.closed hc).2.2
    | false => rfl
  unfold Session.enqueue
  dsimp only
  split_ifs
  · exact h.same rfl rfl rfl rfl rfl rfl fun _ => id
  · have hw : Waits { s with
        arrived := s.arrived ++ [candidate], pending := s.pending ++ jobs o candidate } :=
      h.waits.same rfl rfl rfl
    rw [Session.fill, if_neg (by simp [hc])]
    exact (hw.startJobs _).maybeComplete (startJobs_filled _ _)

/-- The reports of a port scan that does not fail. -/
theorem Progress.report (h : s.Progress o) (hs : s.Sound o) {e : Upstream}
    (he : ∀ error, e ≠ .failed error) : (s.report o e).Progress o := by
  unfold Session.report
  split_ifs with hup
  · exact h
  · rw [ne_eq, not_not] at hup
    cases e with
    | next candidate => exact h.enqueue hs hup candidate
    | failed error => exact absurd rfl (he error)
    | completed =>
      have hw : Waits { s with upstream := .ended, upstreamCompleted := true } :=
        h.waits.same rfl rfl rfl
      exact hw.maybeComplete h.filled

theorem Progress.begin {rest : List Task} (h : s.Progress o) (hs : s.Sound o)
    (ht : s.tasks = .begin :: rest) : (({ s with tasks := rest } : Session).begin o []).Progress o := by
  have hrest : ∀ n, .startInLoop n ∈ s.tasks → .startInLoop n ∈ rest := by
    intro n hn
    rw [ht] at hn
    exact (List.mem_cons.1 hn).resolve_left nofun
  rw [begin_eq]
  dsimp only
  split_ifs with hstop
  · have hidle := (hs.first ht).2.2.2.1
    unfold Session.finish
    rw [if_neg (by simp [hidle])]
    exact Progress.stopped (hs.halted hstop).2 hstop
  · exact h.same rfl rfl rfl rfl rfl rfl hrest

theorem Progress.stop (s : Session) (hs : s.stopped = true → s.active = []) :
    (s.stop o []).Progress o := by
  refine Progress.stopped ?_ (works_stop s).stopped
  cases hstop : s.stopped with
  | true =>
    rw [Session.stop, if_pos hstop]
    exact hs hstop
  | false =>
    have hactive : (s.breakOff .stopped).active = [] := by rw [Session.breakOff, cancelAll_eq]
    rw [stop_eq hstop, List.foldl_nil]
    split_ifs
    · unfold Session.maybeComplete Session.finish
      split_ifs <;> exact hactive
    · exact hactive

/-- The upstream does not fail, and reports nothing while it is started or stopped. -/
def Orderly : Event → Prop
  | .run reports _ => reports = []
  | .upstream (.failed _) => False
  | _ => True

end Session

theorem step_progress {s : Session} (h : s.Progress o) (hs : s.Sound o) {e : Event}
    (he : Session.Orderly e) : (step o s e).Progress o := by
  cases e with
  | start =>
    unfold step
    dsimp only
    split_ifs
    · exact h
    · exact h.same rfl rfl rfl rfl rfl rfl fun _ => List.mem_append_left _
  | requestStop =>
    unfold step
    dsimp only
    split_ifs
    · exact h.same rfl rfl rfl rfl rfl rfl fun _ => List.mem_append_left _
    · exact h
  | run reports created =>
    obtain rfl : reports = [] := he
    unfold step
    dsimp only
    split
    · exact h
    · rename_i task rest ht
      have hsound : ∀ (hne : task ≠ .begin), Session.Sound o { s with tasks := rest } := fun hne =>
        hs.tasks (by rw [ht, List.count_cons]; omega)
      cases task with
      | begin => exact h.begin hs ht
      | stop => exact .stop _ fun hstop => (hs.halted hstop).2
      | startInLoop n => exact h.startInLoop hs ht created
      | cancelled n =>
        refine Session.Progress.exchangeFinished ?_ (hsound nofun) n none
        refine h.same rfl rfl rfl rfl rfl rfl fun m hm => ?_
        rw [ht] at hm
        exact (List.mem_cons.1 hm).resolve_left nofun
  | upstream e =>
    refine h.report hs fun error heq => ?_
    subst heq
    exact he
  | exchangeFinished n response =>
    exact step_exchangeFinished_keeps h (h.exchangeFinished hs n response)

/-- A session that is not stopped, with nothing queued, no exchange going on and an
upstream that has completed, has done every job. -/
theorem Session.Progress.completes {s : Session} (h : s.Progress o) (hstop : s.stopped = false)
    (hup : s.upstreamCompleted = true) (ht : s.tasks = []) (hx : ∀ n ∈ s.active, ¬s.Awaits n) :
    s.pending = [] ∧ s.active = [] ∧ s.completed = true := by
  have hactive : s.active = [] := by
    refine List.eq_nil_iff_forall_not_mem.2 fun n hn => hx n hn ?_
    obtain ⟨i, x, hi, hexchange, hstarted | hqueued⟩ := h.waits n hn
    · exact ⟨i, x, hi, hexchange, hstarted⟩
    · rw [ht] at hqueued
      exact absurd hqueued List.not_mem_nil
  have hpending : s.pending = [] := by
    by_contra hne
    have hle := h.filled hstop hne
    rw [hactive, List.length_nil] at hle
    exact absurd o.maxConcurrency_pos (by omega)
  exact ⟨hpending, hactive, h.ends hstop hup hpending hactive⟩

end Discovery

end Neubau.Modbus
