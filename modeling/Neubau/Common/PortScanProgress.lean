import Neubau.Common.PortScanOrder

/-! A port scan comes to its end. Every connector that was dialed either waits for its
connection or has finished; so a session that has nothing queued in the loop and waits
for no connection has finished all its connectors and has completed. -/

namespace Neubau.Common.PortScannerSession

open Transition

variable {o : PortScannerOptions} {s t u : PortScannerSession}

/-- The connector `n` has finished. -/
def Finished (s : PortScannerSession) (n : ℕ) : Prop :=
  ∃ c, s.connectors[n]? = some c ∧ c.outcome.isSome

instance (s : PortScannerSession) (n : ℕ) : Decidable (s.Finished n) :=
  decidable_of_iff (∃ c ∈ s.connectors[n]?, c.outcome.isSome) Iff.rfl

/-- From `s` to `t` the session dialed nobody, and what had finished stayed so. -/
structure Goes (s t : PortScannerSession) : Prop where
  begun : t.begun = s.begun
  log : s.log <+: t.log
  dials : t.dials = s.dials
  clients : t.clients = s.clients
  stopped : t.stopped = s.stopped
  stops : .stop ∈ t.tasks → .stop ∈ s.tasks
  finished : ∀ n, s.Finished n → t.Finished n

theorem Goes.refl (s : PortScannerSession) : s.Goes s :=
  ⟨rfl, List.prefix_rfl, rfl, rfl, rfl, id, fun _ => id⟩

theorem Goes.trans (h : s.Goes t) (h' : t.Goes u) : s.Goes u where
  begun := h'.begun.trans h.begun
  log := h.log.trans h'.log
  dials := h'.dials.trans h.dials
  clients := h'.clients.trans h.clients
  stopped := h'.stopped.trans h.stopped
  stops ht := h.stops (h'.stops ht)
  finished n hn := h'.finished n (h.finished n hn)

theorem goes_finish (s : PortScannerSession) : s.Goes s.finish := by
  unfold finish
  split_ifs
  · exact .refl s
  · exact { Goes.refl s with log := List.prefix_append _ _ }

theorem goes_startJob (s : PortScannerSession) : s.Goes (s.startJob o) := by
  unfold startJob
  dsimp only
  split
  · refine { Goes.refl s with
      stops := fun ht => ?_, finished := fun n ⟨c, hc, ho⟩ => ⟨c, ?_, ho⟩ }
    · exact (List.mem_append.1 ht).resolve_right (by simp)
    · exact getElem?_append_cases.2 (.inl hc)
  · exact { Goes.refl s with finished := fun _ hn => hn }

theorem goes_startJobs (bound : ℕ) (s : PortScannerSession) : s.Goes (startJobs o bound s) := by
  induction bound generalizing s with
  | zero => exact .refl s
  | succ bound ih =>
    rw [startJobs]
    split_ifs
    · exact (goes_startJob s).trans (ih _)
    · exact .refl s

theorem goes_fill (s : PortScannerSession) : s.Goes (s.fill o) := by
  unfold fill
  split_ifs
  · exact goes_finish s
  · dsimp only
    split_ifs
    · exact (goes_startJobs _ s).trans (goes_finish _)
    · exact goes_startJobs _ s

/-- A connector that finishes has finished. -/
theorem goes_finishConnector (s : PortScannerSession) (n : ℕ) (isOpen : Bool) :
    s.Goes (s.finishConnector o n isOpen) ∧
      ((∃ c, s.connectors[n]? = some c) → (s.finishConnector o n isOpen).Finished n) := by
  rcases finishConnector_cases (o := o) s n isOpen with heq | ⟨c, hc, ho, heq⟩
  · rw [heq]
    refine ⟨.refl s, fun ⟨c, hc⟩ => ⟨c, hc, ?_⟩⟩
    by_contra hnone
    have hopen : c.outcome = none := by simpa using hnone
    have hfill := finishConnector_eq (o := o) hc hopen isOpen
    have hfinished := (goes_fill (o := o) (s.settled n c isOpen)).finished n
      ⟨_, List.getElem?_set_self (List.getElem?_eq_some_iff.1 hc).1, rfl⟩
    rw [← hfill, heq] at hfinished
    obtain ⟨c', hc', ho'⟩ := hfinished
    rw [hc, Option.some.injEq] at hc'
    exact hnone (hc' ▸ ho')
  · have hlt := (List.getElem?_eq_some_iff.1 hc).1
    have hsettled : s.Goes (s.settled n c isOpen) := by
      refine ⟨rfl, List.prefix_append _ _, rfl, rfl, rfl, id, fun m ⟨c', hc', ho'⟩ => ?_⟩
      by_cases hm : n = m
      · subst hm
        exact ⟨_, List.getElem?_set_self hlt, rfl⟩
      · exact ⟨c', (List.getElem?_set_ne hm).trans hc', ho'⟩
    rw [heq]
    have hgoes := goes_fill (o := o) (s.settled n c isOpen)
    exact ⟨hsettled.trans hgoes, fun _ =>
      hgoes.finished n ⟨_, List.getElem?_set_self hlt, rfl⟩⟩

theorem goes_stop (s : PortScannerSession) :
    ({ s with stopped := true } : PortScannerSession).Goes s.stop := by
  cases hs : s.stopped with
  | true =>
    rw [stop, if_pos hs]
    exact { Goes.refl s with stopped := hs }
  | false =>
    have hhalted : ({ s with stopped := true } : PortScannerSession).Goes s.halted :=
      { Goes.refl { s with stopped := true } with
        stops := fun ht => (List.mem_append.1 ht).resolve_right (by simp)
        finished := fun _ hn => hn }
    rw [stop_eq hs]
    split_ifs
    · exact hhalted.trans (goes_finish _)
    · exact hhalted

/-- Every connector that was dialed has its client, or has finished. -/
def Dialed (s : PortScannerSession) : Prop := ∀ n ∈ s.dials, n ∈ s.clients ∨ s.Finished n

theorem Dialed.goes (h : s.Dialed) (hg : s.Goes t) : t.Dialed := by
  intro n hn
  rw [hg.dials] at hn
  rw [hg.clients]
  exact (h n hn).imp_right (hg.finished n)

theorem Dialed.startInLoop (h : s.Dialed) (n : ℕ) (created : Bool) :
    (s.startInLoop o n created).Dialed := by
  unfold PortScannerSession.startInLoop
  split
  · exact h
  rename_i c hc
  split_ifs
  · exact h
  · intro m hm
    rcases List.mem_append.1 hm with hm | hm
    · exact (h m hm).imp_left (List.mem_append_left _)
    · exact .inl (List.mem_append_right _ hm)
  · obtain ⟨hg, hfinished⟩ :=
      goes_finishConnector (o := o) { s with dials := s.dials ++ [n] } n false
    intro m hm
    rw [hg.dials] at hm
    rw [hg.clients]
    rcases List.mem_append.1 hm with hm | hm
    · exact (h m hm).imp_right fun hf => hg.finished m hf
    · rw [List.mem_singleton.1 hm]
      exact .inr (hfinished ⟨c, hc⟩)

/-- One step keeps the log, and starts the session only if it is the start. -/
theorem step_goes (s : PortScannerSession) (e : Event) :
    s.log <+: (step o s e).log ∧ (e ≠ .start → (step o s e).begun = s.begun) := by
  cases e with
  | start => exact ⟨List.prefix_rfl, nofun⟩
  | requestStop => exact ⟨List.prefix_rfl, fun _ => rfl⟩
  | report n isOpen =>
    obtain ⟨hg, -⟩ := goes_finishConnector (o := o) s n isOpen
    exact ⟨hg.log, fun _ => hg.begun⟩
  | run created =>
    unfold step
    cases s.tasks with
    | nil => exact ⟨List.prefix_rfl, fun _ => rfl⟩
    | cons task tasks =>
      cases task with
      | fill =>
        have hg := goes_fill (o := o) { s with tasks }
        exact ⟨hg.log, fun _ => hg.begun⟩
      | stop =>
        have hg := goes_stop { s with tasks }
        exact ⟨hg.log, fun _ => hg.begun⟩
      | cancel n =>
        obtain ⟨hg, -⟩ := goes_finishConnector (o := o) { s with tasks } n false
        exact ⟨hg.log, fun _ => hg.begun⟩
      | startInLoop n =>
        dsimp only [runTask, startInLoop]
        split
        · exact ⟨List.prefix_rfl, fun _ => rfl⟩
        · split_ifs
          · exact ⟨List.prefix_rfl, fun _ => rfl⟩
          · exact ⟨List.prefix_rfl, fun _ => rfl⟩
          · obtain ⟨hg, -⟩ :=
              goes_finishConnector (o := o) { s with tasks, dials := s.dials ++ [n] } n false
            exact ⟨hg.log, fun _ => hg.begun⟩

/-- A session stops when it was asked to. -/
theorem step_stops (s : PortScannerSession) (e : Event) :
    ((step o s e).stopped = true → s.stopped = true ∨ .stop ∈ s.tasks) ∧
      (.stop ∈ (step o s e).tasks → .stop ∈ s.tasks ∨ e = .requestStop) := by
  have hgoes {t u : PortScannerSession} (hg : t.Goes u) (hs : t.stopped = s.stopped)
      (ht : .stop ∈ t.tasks → .stop ∈ s.tasks) :
      (u.stopped = true → s.stopped = true ∨ .stop ∈ s.tasks) ∧
        (.stop ∈ u.tasks → .stop ∈ s.tasks ∨ e = .requestStop) :=
    ⟨fun hu => .inl (hs.symm.trans (hg.stopped.symm.trans hu)), fun hu => .inl (ht (hg.stops hu))⟩
  cases e with
  | start => exact ⟨.inl, fun ht => .inl ((List.mem_append.1 ht).resolve_right (by simp))⟩
  | requestStop => exact ⟨.inl, fun _ => .inr rfl⟩
  | report n isOpen => exact hgoes (goes_finishConnector s n isOpen).1 rfl id
  | run created =>
    unfold step
    cases htasks : s.tasks with
    | nil => exact ⟨.inl, fun ht => .inl (htasks ▸ ht)⟩
    | cons task tasks =>
      have hrest : .stop ∈ tasks → .stop ∈ task :: tasks := List.mem_cons_of_mem _
      rw [htasks] at hgoes
      cases task with
      | fill => exact hgoes (goes_fill { s with tasks }) rfl hrest
      | stop =>
        have hg := goes_stop { s with tasks }
        exact ⟨fun _ => .inr List.mem_cons_self, fun ht => .inl (hrest (hg.stops ht))⟩
      | cancel n => exact hgoes (goes_finishConnector { s with tasks } n false).1 rfl hrest
      | startInLoop n =>
        dsimp only [runTask, startInLoop]
        split
        · exact ⟨.inl, fun ht => .inl (hrest ht)⟩
        · split_ifs
          · exact ⟨.inl, fun ht => .inl (hrest ht)⟩
          · exact ⟨.inl, fun ht => .inl (hrest ht)⟩
          · obtain ⟨hg, -⟩ :=
              goes_finishConnector (o := o) { s with tasks, dials := s.dials ++ [n] } n false
            exact ⟨fun hu => .inl (hg.stopped.symm.trans hu), fun hu => .inl (hrest (hg.stops hu))⟩

theorem machine_dialed : (machine o).Invariant Dialed where
  init s hs := by
    obtain rfl : s = {} := hs
    exact nofun
  next s e h _ := by
    cases e with
    | start => exact h
    | requestStop => exact h
    | report n isOpen => exact h.goes (goes_finishConnector s n isOpen).1
    | run created =>
      change Dialed (step o s (.run created))
      unfold step
      cases s.tasks with
      | nil => exact h
      | cons task tasks =>
        have hpop : Dialed { s with tasks } := h
        cases task with
        | fill => exact hpop.goes (goes_fill _)
        | stop =>
          exact Dialed.goes (s := { s with tasks, stopped := true }) hpop (goes_stop { s with tasks })
        | startInLoop n => exact hpop.startInLoop n created
        | cancel n => exact hpop.goes (goes_finishConnector _ n false).1

/-- A session that has begun, with nothing queued and no connection awaited, has
completed. -/
theorem completes (hs : (machine o).Reachable s) (hpos : 0 < o.maxConcurrency)
    (hb : s.begun = true) (ht : s.tasks = []) (hc : ∀ n ∈ s.clients, s.Finished n) :
    s.AllFinished ∧ s.completed = true := by
  obtain ⟨h, hd⟩ := machine_dialing.reachable hs
  have hdialed := machine_dialed.reachable hs
  have hdials : s.dials = List.range s.connectors.length := by
    have := hd.dials
    rwa [ht, pendingDials, List.filterMap_nil, List.append_nil] at this
  have hall : s.AllFinished := by
    intro c hmem
    obtain ⟨n, hn⟩ := List.mem_iff_getElem?.1 hmem
    have hlt := (List.getElem?_eq_some_iff.1 hn).1
    have hfinished : s.Finished n :=
      (hdialed n (hdials ▸ List.mem_range.2 hlt)).elim (hc n) id
    obtain ⟨c', hc', ho⟩ := hfinished
    rw [hn, Option.some.injEq] at hc'
    exact hc' ▸ ho
  refine ⟨hall, ?_⟩
  cases hstop : s.stopped with
  | true => exact h.stopped hstop hall
  | false =>
    have hactive := (h.allFinished_iff hstop).1 hall
    have hfill : .fill ∉ s.tasks := by simp [ht]
    refine h.finished hstop hb hfill hactive ((h.filled hstop hb hfill).resolve_left fun hle => ?_)
    rw [hactive] at hle
    exact absurd hle (Nat.not_le.2 hpos)

end Neubau.Common.PortScannerSession
