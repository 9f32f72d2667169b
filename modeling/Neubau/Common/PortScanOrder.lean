import Neubau.Common.PortScanCoverage

/-! The port scan dials in order and ends. The callbacks that dial stand in the
loop in the order of their connectors, each before the callback that cancels its
connector, so every connector is dialed once and in its turn. What a stopped
session still does is to complete. -/

namespace Neubau.Common.PortScannerSession

open Transition

variable {o : PortScannerOptions} {s : PortScannerSession}

/-- The connectors whose dialing is queued. -/
def pendingDials (tasks : List PortScannerTask) : List ℕ :=
  tasks.filterMap fun
    | .startInLoop n => some n
    | _ => none

theorem mem_pendingDials {tasks : List PortScannerTask} {n : ℕ} :
    n ∈ pendingDials tasks ↔ .startInLoop n ∈ tasks := by
  simp only [pendingDials, List.mem_filterMap]
  constructor
  · rintro ⟨t, ht, hn⟩
    cases t with
    | startInLoop m => exact Option.some.inj hn ▸ ht
    | fill => cases hn
    | stop => cases hn
    | cancel m => cases hn
  · exact fun h => ⟨_, h, rfl⟩

/-- What was dialed, in the order of the attempts. -/
def dialed (s : PortScannerSession) : List OpenPort :=
  s.dials.filterMap fun n => (s.connectors[n]?).map Connector.target

/-- Those dialed and those waiting in the loop are all connectors, in their order;
those waiting have not finished. -/
structure Dialing (s : PortScannerSession) : Prop where
  dials : s.dials ++ pendingDials s.tasks = List.range s.connectors.length
  waiting : ∀ n, .startInLoop n ∈ s.tasks → ∃ c, s.connectors[n]? = some c ∧ c.outcome = none
  order : s.tasks.Pairwise fun a b => ∀ n, a = .cancel n → b ≠ .startInLoop n
  cancels : ∀ n, .cancel n ∈ s.tasks → n < s.connectors.length
  clients : ∀ n ∈ s.clients, n ∈ s.dials

theorem Dialing.init : Dialing {} := ⟨rfl, by simp, .nil, by simp, by simp⟩

namespace Dialing

theorem nodup (h : s.Dialing) : (s.dials ++ pendingDials s.tasks).Nodup :=
  h.dials ▸ List.nodup_range

theorem dials_le (h : s.Dialing) : s.dials.length ≤ s.connectors.length := by
  have hprefix : s.dials <+: List.range s.connectors.length := ⟨_, h.dials⟩
  simpa using hprefix.length_le

theorem dials_eq (h : s.Dialing) : s.dials = List.range s.dials.length := by
  have hprefix : s.dials <+: List.range s.connectors.length := ⟨_, h.dials⟩
  have htake := List.prefix_iff_eq_take.1 hprefix
  rwa [List.take_range, Nat.min_eq_left h.dials_le] at htake

/-- The connectors are dialed from the first one on. -/
theorem dialed_eq (h : s.Dialing) :
    s.dialed = (s.connectors.map Connector.target).take s.dials.length := by
  have hfirst : ∀ k ≤ s.connectors.length,
      (List.range k).filterMap (fun n => (s.connectors[n]?).map Connector.target) =
        (s.connectors.map Connector.target).take k := by
    intro k hk
    induction k with
    | zero => rfl
    | succ k ih =>
      rw [List.range_succ, List.filterMap_append, ih (by omega), List.take_add_one]
      simp [List.getElem?_eq_getElem (show k < s.connectors.length by omega)]
  rw [dialed, h.dials_eq, List.length_range]
  exact hfirst _ h.dials_le

theorem not_waiting (h : s.Dialing) {n : ℕ} (hn : n ∈ s.dials) : .startInLoop n ∉ s.tasks :=
  fun hm => (List.nodup_append.1 h.nodup).2.2 n hn n (mem_pendingDials.2 hm) rfl

/-- Other callbacks may join the loop. -/
theorem queueInLoop (h : s.Dialing) {t : PortScannerTask} (ht : ∀ n, t ≠ .startInLoop n)
    (hc : ∀ n, t = .cancel n → n < s.connectors.length) : (s.queueInLoop t).Dialing := by
  refine ⟨?_, fun n hn => ?_, ?_, fun n hn => ?_, h.clients⟩
  · have : pendingDials [t] = [] := by
      cases t with
      | startInLoop n => exact absurd rfl (ht n)
      | fill => rfl
      | stop => rfl
      | cancel n => rfl
    simp only [PortScannerSession.queueInLoop, pendingDials, List.filterMap_append]
    rw [← pendingDials, ← pendingDials, this, List.append_nil]
    exact h.dials
  · rcases List.mem_append.1 hn with hn | hn
    · exact h.waiting n hn
    · exact absurd (List.mem_singleton.1 hn).symm (ht n)
  · refine List.pairwise_append.2 ⟨h.order, List.pairwise_singleton _ _, fun a _ b hb n _ => ?_⟩
    rw [List.mem_singleton.1 hb]
    exact ht n
  · rcases List.mem_append.1 hn with hn | hn
    · exact h.cancels n hn
    · exact hc n (List.mem_singleton.1 hn).symm

theorem finish (h : s.Dialing) : s.finish.Dialing := by
  unfold PortScannerSession.finish
  split_ifs
  · exact h
  · exact { h with }

/-- The jobs started wait in the loop behind all others. -/
theorem started (h : s.Dialing) {k : ℕ} (hj : s.nextJob + k ≤ jobCount o) :
    (s.started o k).Dialing := by
  obtain ⟨news, hlength, -, hopen, heq⟩ := started_eq hj
  have hpending : pendingDials ((List.range' s.connectors.length k).map .startInLoop) =
      List.range' s.connectors.length k := by
    simp [pendingDials, List.filterMap_map]
  rw [heq]
  refine ⟨?_, fun n hn => ?_, ?_, fun n hn => ?_, h.clients⟩
  · have hold := h.dials
    simp only [pendingDials, List.filterMap_append] at hpending hold ⊢
    rw [hpending, ← List.append_assoc, hold, List.length_append, hlength, List.range_eq_range',
      List.range_eq_range', ← List.range'_append_1]
    simp
  · rcases List.mem_append.1 hn with hn | hn
    · obtain ⟨c, hc, ho⟩ := h.waiting n hn
      exact ⟨c, getElem?_append_cases.2 (.inl hc), ho⟩
    · simp only [List.mem_map, PortScannerTask.startInLoop.injEq, exists_eq_right,
        List.mem_range'_1] at hn
      obtain ⟨c, hc⟩ : ∃ c, news[n - s.connectors.length]? = some c :=
        ⟨_, List.getElem?_eq_getElem (by omega)⟩
      exact ⟨c, getElem?_append_cases.2 (.inr ⟨hn.1, hc⟩), hopen c (List.mem_of_getElem? hc)⟩
  · refine List.pairwise_append.2 ⟨h.order, ?_, fun a ha b hb n hcancel => ?_⟩
    · refine List.pairwise_map.2 (List.pairwise_of_forall fun a b n hcancel => ?_)
      cases hcancel
    · rintro rfl
      have hlt := h.cancels n (hcancel ▸ ha)
      simp only [List.mem_map, PortScannerTask.startInLoop.injEq, exists_eq_right,
        List.mem_range'_1] at hb
      omega
  · rw [List.length_append]
    rcases List.mem_append.1 hn with hn | hn
    · have := h.cancels n hn
      omega
    · simp at hn

theorem fill (h : s.Dialing) (hcore : s.Core o) : (s.fill o).Dialing := by
  cases hs : s.stopped with
  | true =>
    rw [PortScannerSession.fill, if_pos hs]
    exact h.finish
  | false =>
    obtain ⟨k, -, hj, -, heq⟩ := hcore.fill_eq hs
    rw [heq]
    split_ifs
    · exact (h.started hj).finish
    · exact h.started hj

/-- A connector that is not waiting may finish. -/
theorem finishConnector (h : s.Dialing) (hs : s.Core o) {n : ℕ} (hn : .startInLoop n ∉ s.tasks)
    (isOpen : Bool) : (s.finishConnector o n isOpen).Dialing := by
  rcases finishConnector_cases s n isOpen with heq | ⟨c, hc, ho, heq⟩
  · rwa [heq]
  · rw [heq]
    refine fill ⟨?_, fun m hm => ?_, h.order, fun m hm => ?_, h.clients⟩ (hs.settled hc ho isOpen)
    · simpa [settled] using h.dials
    · obtain ⟨c', hc', ho'⟩ := h.waiting m hm
      have hne : n ≠ m := by
        rintro rfl
        exact hn hm
      exact ⟨c', by simpa [settled, hne] using hc', ho'⟩
    · simpa [settled] using h.cancels m hm

/-- The callback that dials comes before all others of its connector. -/
theorem startInLoop {n : ℕ} {tasks : List PortScannerTask} (ht : s.tasks = .startInLoop n :: tasks)
    (h : s.Dialing) (hs : s.Core o) (created : Bool) :
    (PortScannerSession.startInLoop o n created { s with tasks }).Dialing := by
  obtain ⟨c, hc, ho⟩ := h.waiting n (by simp [ht])
  have hnot : .startInLoop n ∉ tasks := by
    intro hm
    have hnodup := (List.nodup_append.1 h.nodup).2.1
    rw [ht] at hnodup
    exact (List.nodup_cons.1 hnodup).1 (mem_pendingDials.2 hm)
  have hdialed : Dialing { s with tasks, dials := s.dials ++ [n] } := by
    refine ⟨?_, fun m hm => h.waiting m (by simp [ht, hm]), ?_,
      fun m hm => h.cancels m (by simp [ht, hm]), fun m hm => List.mem_append_left _ (h.clients m hm)⟩
    · rw [← h.dials, ht, List.append_assoc]
      rfl
    · have := h.order
      rw [ht] at this
      exact (List.pairwise_cons.1 this).2
  simp only [PortScannerSession.startInLoop, hc, ho, Option.isSome_none, Bool.false_eq_true,
    ↓reduceIte]
  split_ifs
  · refine ⟨hdialed.dials, hdialed.waiting, hdialed.order, hdialed.cancels, fun m hm => ?_⟩
    rcases List.mem_append.1 hm with hm | hm
    · exact hdialed.clients m hm
    · exact List.mem_append_right _ hm
  · exact hdialed.finishConnector (hs.frame tasks s.begun (s.dials ++ [n]) s.clients) hnot false

/-- Another callback is taken from the loop. -/
theorem pop {t : PortScannerTask} {tasks : List PortScannerTask} (h : s.Dialing)
    (ht : s.tasks = t :: tasks) (hne : ∀ n, t ≠ .startInLoop n) : Dialing { s with tasks } := by
  refine ⟨?_, fun m hm => h.waiting m (by simp [ht, hm]), ?_,
    fun m hm => h.cancels m (by simp [ht, hm]), h.clients⟩
  · rw [← h.dials, ht]
    cases t with
    | startInLoop n => exact absurd rfl (hne n)
    | fill => rfl
    | stop => rfl
    | cancel n => rfl
  · have := h.order
    rw [ht] at this
    exact (List.pairwise_cons.1 this).2

theorem cancelled (ns : List ℕ) (h : s.Dialing) (hn : ∀ n ∈ ns, n < s.connectors.length) :
    (ns.foldl (fun s n => s.queueInLoop (.cancel n)) s).Dialing := by
  induction ns generalizing s with
  | nil => exact h
  | cons n ns ih =>
    refine ih (h.queueInLoop (by simp) fun m hm => ?_) fun m hm => hn m (List.mem_cons_of_mem _ hm)
    cases hm
    exact hn n List.mem_cons_self

theorem stop (h : s.Dialing) (hs : s.Core o) : s.stop.Dialing := by
  cases hstop : s.stopped with
  | true =>
    rw [PortScannerSession.stop, if_pos hstop]
    exact h
  | false =>
    have hhalted : s.halted.Dialing := by
      have hall : ∀ n ∈ s.active, n < s.connectors.length := by
        intro n hn
        obtain ⟨c, hc, -⟩ := (hs.active hstop n).1 hn
        exact (List.getElem?_eq_some_iff.1 hc).1
      have hcancelled := h.cancelled s.active hall
      rw [cancels_eq] at hcancelled
      exact { hcancelled with }
    rw [stop_eq hstop]
    split_ifs
    · exact hhalted.finish
    · exact hhalted

end Dialing

theorem machine_dialing : (machine o).Invariant fun s => s.Sound o ∧ s.Dialing where
  init := by
    rintro s rfl
    exact ⟨.init, .init⟩
  next s e h he := by
    refine ⟨machine_sound.next s e h.1 he, ?_⟩
    obtain ⟨hs, hd⟩ := h
    cases e with
    | start =>
      have hbegun : Dialing { s with begun := true } := { hd with }
      exact hbegun.queueInLoop (by simp) (by simp)
    | requestStop => exact hd.queueInLoop (by simp) (by simp)
    | report n isOpen => exact hd.finishConnector hs.toCore (hd.not_waiting (hd.clients n he)) isOpen
    | run created =>
      change Dialing (step o s (.run created))
      unfold step
      cases ht : s.tasks with
      | nil => exact hd
      | cons t tasks =>
        have hcore := hs.toCore.frame tasks s.begun s.dials s.clients
        cases t with
        | fill => exact (hd.pop ht (by simp)).fill hcore
        | stop => exact (hd.pop ht (by simp)).stop hcore
        | startInLoop n => exact Dialing.startInLoop ht hd hs.toCore created
        | cancel n =>
          refine (hd.pop ht (by simp)).finishConnector hcore (fun hm => ?_) false
          have horder := hd.order
          rw [ht] at horder
          exact (List.pairwise_cons.1 horder).1 _ hm n rfl rfl

/-! ### After a stop -/

/-- From `s` to `t` no connector is made and nothing is emitted but the completion,
unless that was emitted before. -/
def Ends (s t : PortScannerSession) : Prop :=
  t.connectors.length = s.connectors.length ∧
  (t.completed = s.completed ∧ t.log = s.log ∨
    s.completed = false ∧ t.completed = true ∧ t.log = s.log ++ [.onCompleted])

theorem Ends.refl (s : PortScannerSession) : s.Ends s := ⟨rfl, .inl ⟨rfl, rfl⟩⟩

theorem Ends.trans {s t u : PortScannerSession} (h : s.Ends t) (h' : t.Ends u) : s.Ends u := by
  obtain ⟨hn, h⟩ := h
  obtain ⟨hn', h'⟩ := h'
  refine ⟨hn'.trans hn, ?_⟩
  rcases h with ⟨hc, hl⟩ | ⟨hc, hc', hl⟩
  · rcases h' with ⟨hc', hl'⟩ | ⟨hc', hc'', hl'⟩
    · exact .inl ⟨hc'.trans hc, hl'.trans hl⟩
    · exact .inr ⟨hc ▸ hc', hc'', hl ▸ hl'⟩
  · rcases h' with ⟨hc'', hl'⟩ | ⟨hc'', -⟩
    · exact .inr ⟨hc, hc''.trans hc', hl'.trans hl⟩
    · rw [hc'] at hc''
      cases hc''

theorem ends_finish (s : PortScannerSession) : s.Ends s.finish := by
  refine ⟨by simp, ?_⟩
  cases hc : s.completed with
  | true => exact .inl ⟨by simp, by simp [finish_log, hc]⟩
  | false => exact .inr ⟨rfl, by simp, by simp [finish_log, hc]⟩

theorem ends_finishConnector (hs : s.stopped = true) (n : ℕ) (isOpen : Bool) :
    s.Ends (s.finishConnector o n isOpen) ∧ (s.finishConnector o n isOpen).stopped = true := by
  rcases finishConnector_cases s n isOpen with heq | ⟨c, hc, ho, heq⟩
  · rw [heq]
    exact ⟨.refl s, hs⟩
  · have hstop : (s.settled n c isOpen).stopped = true := hs
    have hsettled : s.Ends (s.settled n c isOpen) := ⟨by simp [settled], .inl ⟨rfl, by simp [settled, hs]⟩⟩
    rw [heq, fill, if_pos hstop]
    exact ⟨hsettled.trans (ends_finish _), by simpa using hstop⟩

/-- A stopped session stays stopped; it can only complete. -/
theorem ends_step (hs : s.stopped = true) (e : Event) :
    s.Ends (step o s e) ∧ (step o s e).stopped = true := by
  cases e with
  | start => exact ⟨.refl s, hs⟩
  | requestStop => exact ⟨.refl s, hs⟩
  | report n isOpen => exact ends_finishConnector hs n isOpen
  | run created =>
    unfold step
    cases ht : s.tasks with
    | nil => exact ⟨.refl s, hs⟩
    | cons t tasks =>
      have hpop : ({ s with tasks } : PortScannerSession).stopped = true := hs
      have hends : s.Ends { s with tasks } := ⟨rfl, .inl ⟨rfl, rfl⟩⟩
      cases t with
      | fill =>
        dsimp only [runTask]
        rw [fill, if_pos hpop]
        exact ⟨hends.trans (ends_finish _), by simpa using hpop⟩
      | stop =>
        dsimp only [runTask]
        rw [stop, if_pos hpop]
        exact ⟨hends, hpop⟩
      | cancel n =>
        obtain ⟨h, hstop⟩ := ends_finishConnector (o := o) hpop n false
        exact ⟨hends.trans h, hstop⟩
      | startInLoop n =>
        dsimp only [runTask, startInLoop]
        cases hn : s.connectors[n]? with
        | none => exact ⟨hends, hpop⟩
        | some c =>
          dsimp only
          split_ifs
          · exact ⟨hends, hpop⟩
          · exact ⟨hends, hpop⟩
          · obtain ⟨h, hstop⟩ := ends_finishConnector (o := o)
              (s := { s with tasks, dials := s.dials ++ [n] }) hs n false
            exact ⟨Ends.trans ⟨rfl, .inl ⟨rfl, rfl⟩⟩ h, hstop⟩

theorem ends_run {t : PortScannerSession} {es : List Event} (hr : (machine o).Run s es t)
    (hs : s.stopped = true) : s.Ends t := by
  induction hr with
  | nil => exact .refl _
  | cons _ _ ih =>
    obtain ⟨h, hstop⟩ := ends_step (o := o) hs _
    exact h.trans (ih hstop)

/-! ### Coverage -/

/-- Two hosts with two ports each, two at a time. -/
def twoHosts : PortScannerOptions where
  addresses := [ascii "10.0.0.2", ascii "10.0.0.3"]
  ports := [502, 503]
  maxConcurrency := 2

end Neubau.Common.PortScannerSession
