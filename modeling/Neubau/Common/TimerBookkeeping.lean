import Neubau.Common.Timer

/-! The bookkeeping of the timer. While it is not stopped, the map has a scheduler
for each configured interval and for no other, and each of these schedulers has
one timeout pending. A scheduler that left the map has at most timeouts that do
nothing, since no other is ever given its number. -/

namespace Neubau.Common.Timer

open Transition

def Channel.other : Channel → Channel
  | .discovery => .thing
  | .thing => .discovery

/-- The effect ends the channel. -/
def Effect.terminal (channel : Channel) : Effect → Bool
  | .onNext _ _ _ => false
  | .onError c _ => c = channel
  | .onCompleted c => c = channel

/-- The callback stops the timer. -/
def Task.Ends : Task → Prop
  | .setInterval _ interval => interval ≤ 0
  | .fail _ => True
  | .stop => True

namespace State

variable {s : State}

/-- What holds of the map and the timeouts at any moment. -/
structure Core (s : State) : Prop where
  nodup : (s.schedulers.map Prod.fst).Nodup
  fresh : ∀ e ∈ s.schedulers, e.2 < s.made
  timeouts : ∀ t ∈ s.timeouts, t.scheduler < s.made
  pending : ∀ e ∈ s.schedulers, ∃ t,
    s.timeouts.filter (·.scheduler = e.2) = [t] ∧ t.interval = e.1
  halted : s.stopped = true → s.schedulers = []
  terminals : ∀ channel, s.log.countP (Effect.terminal channel) = if s.stopped then 1 else 0

/-- What holds between the callbacks. -/
structure Sound (s : State) : Prop extends Core s where
  keys : s.stopped = false → ∀ interval, interval ∈ s.schedulers.map Prod.fst ↔ s.uses interval

theorem Sound.init (clock : ℤ) : Sound { clock } where
  nodup := .nil
  fresh := by simp
  timeouts := by simp
  pending := by simp
  halted _ := rfl
  terminals _ := rfl
  keys _ interval := by simp [uses]

theorem lookup_eq_some_iff_mem {α β : Type*} [BEq α] [LawfulBEq α] {l : List (α × β)}
    (h : (l.map Prod.fst).Nodup) {a : α} {b : β} : l.lookup a = some b ↔ (a, b) ∈ l := by
  induction l with
  | nil => simp
  | cons e l ih =>
    obtain ⟨a', b'⟩ := e
    rw [List.map_cons, List.nodup_cons] at h
    rw [List.lookup_cons, List.mem_cons, Prod.mk.injEq]
    by_cases ha : a = a'
    · subst ha
      have hnot : (a, b) ∉ l := fun hm => h.1 (List.mem_map.2 ⟨_, hm, rfl⟩)
      simp [hnot, eq_comm]
    · have hbeq : (a == a') = false := beq_eq_false_iff_ne.2 ha
      simp only [hbeq, ih h.2, ha, false_and, false_or]

theorem Core.isCurrent_iff (h : s.Core) {interval : Interval} {scheduler : ℕ} :
    s.isCurrent interval scheduler ↔ (interval, scheduler) ∈ s.schedulers := by
  rw [isCurrent, lookup_eq_some_iff_mem h.nodup, and_iff_right_iff_imp]
  intro hm
  cases hs : s.stopped with
  | false => rfl
  | true => simp [h.halted hs] at hm

/-- A timeout is current if its scheduler is in the map at all. -/
theorem Core.current_of_mem (h : s.Core) {t : Timeout} (ht : t ∈ s.timeouts)
    (hm : t.scheduler ∈ s.schedulers.map Prod.snd) : (t.interval, t.scheduler) ∈ s.schedulers := by
  obtain ⟨e, he, hn⟩ := List.mem_map.1 hm
  obtain ⟨t', hfilter, hinterval⟩ := h.pending e he
  have hmem : t ∈ s.timeouts.filter (·.scheduler = e.2) := by simp [ht, hn]
  rw [hfilter, List.mem_singleton] at hmem
  subst hmem
  rw [hinterval, ← hn]
  exact he

/-- Taking an element out of a list takes it out of what a filter lets through. -/
theorem filter_eraseIdx_perm {α : Type*} {l : List α} {k : ℕ} {a : α} (h : l[k]? = some a)
    (p : α → Bool) : (l.filter p).Perm
      (if p a then a :: (l.eraseIdx k).filter p else (l.eraseIdx k).filter p) := by
  obtain ⟨hk, rfl⟩ := List.getElem?_eq_some_iff.1 h
  have hperm := (List.getElem_cons_eraseIdx_perm hk).symm.filter p
  rw [List.filter_cons] at hperm
  exact hperm

/-- The ticks of a boundary, to the channels that are configured for it. -/
def ticks (s : State) (t : Timeout) : List Effect :=
  ([.discovery, .thing].filter fun channel => s.configured channel = some t.interval).map
    fun channel => .onNext channel t.scheduler t.scheduledAt

theorem emit_log (t : Timeout) :
    (s.emit t.scheduler t.interval t.scheduledAt).log = s.log ++ s.ticks t := by
  simp only [emit, ticks, List.filter_cons, configured, List.append_assoc]
  split_ifs <;> simp_all

/-- A current timeout is delivered and armed again. -/
theorem Core.fire_current (h : s.Core) {k : ℕ} {t : Timeout} {now : Readings}
    (ht : s.timeouts[k]? = some t) (hc : (t.interval, t.scheduler) ∈ s.schedulers) :
    step s (.fire k now) = { s with
      clock := now.second
      log := s.log ++ s.ticks t
      timeouts := s.timeouts.eraseIdx k ++ [.next t.scheduler t.interval now] } := by
  have hcurrent := h.isCurrent_iff.2 hc
  simp only [step, ht]
  rw [emitTimeout, if_pos (by exact hcurrent), schedule, if_pos (by exact hcurrent), ← emit_log]
  rfl

/-- Another timeout does nothing. -/
theorem Core.fire_stale (h : s.Core) {k : ℕ} {t : Timeout} {now : Readings}
    (ht : s.timeouts[k]? = some t) (hc : (t.interval, t.scheduler) ∉ s.schedulers) :
    step s (.fire k now) = { s with clock := now.second, timeouts := s.timeouts.eraseIdx k } := by
  have hstale : ¬s.isCurrent t.interval t.scheduler := fun hcurrent =>
    hc (h.isCurrent_iff.1 hcurrent)
  simp only [step, ht]
  rw [emitTimeout, if_neg (by exact hstale)]

theorem terminal_ticks (t : Timeout) (channel : Channel) :
    (s.ticks t).countP (Effect.terminal channel) = 0 := by
  rw [List.countP_eq_zero]
  intro e he
  obtain ⟨c, -, rfl⟩ := List.mem_map.1 he
  simp [Effect.terminal]

/-- The bookkeeping survives the firing of a timeout. -/
theorem Core.fire (h : s.Core) {k : ℕ} {t : Timeout} {now : Readings}
    (ht : s.timeouts[k]? = some t) : (step s (.fire k now)).Core := by
  have hmem : t ∈ s.timeouts := List.mem_of_getElem? ht
  by_cases hc : (t.interval, t.scheduler) ∈ s.schedulers
  · rw [h.fire_current ht hc]
    refine ⟨h.nodup, h.fresh, fun u hu => ?_, fun e he => ?_, h.halted, fun channel => ?_⟩
    · rcases List.mem_append.1 hu with hu | hu
      · exact h.timeouts u (List.mem_of_mem_eraseIdx hu)
      · rw [List.mem_singleton.1 hu]
        exact h.timeouts t hmem
    · obtain ⟨t', hfilter, hinterval⟩ := h.pending e he
      have hperm := filter_eraseIdx_perm ht (·.scheduler = e.2)
      rw [List.filter_append]
      by_cases hn : t.scheduler = e.2
      · -- the fired timeout was the one pending, and the next one takes its place
        rw [hfilter, if_pos (by simpa using hn)] at hperm
        obtain ⟨rfl, hnone⟩ := List.cons_eq_cons.1 (List.singleton_perm.1 hperm)
        refine ⟨.next t'.scheduler t'.interval now, ?_, hinterval⟩
        rw [← hnone]
        simp [Timeout.next, hn]
      · rw [hfilter, if_neg (by simpa using hn)] at hperm
        refine ⟨t', ?_, hinterval⟩
        rw [List.perm_singleton.1 hperm.symm]
        simp [Timeout.next, hn]
    · rw [List.countP_append, terminal_ticks, Nat.add_zero]
      exact h.terminals channel
  · rw [h.fire_stale ht hc]
    refine ⟨h.nodup, h.fresh, fun u hu => h.timeouts u (List.mem_of_mem_eraseIdx hu),
      fun e he => ?_, h.halted, h.terminals⟩
    obtain ⟨t', hfilter, hinterval⟩ := h.pending e he
    have hne : t.scheduler ≠ e.2 := fun hn =>
      hc (h.current_of_mem hmem (List.mem_map.2 ⟨e, he, hn.symm⟩))
    have hperm := filter_eraseIdx_perm ht (·.scheduler = e.2)
    rw [hfilter, if_neg (by simpa using hne)] at hperm
    exact ⟨t', List.perm_singleton.1 hperm.symm, hinterval⟩

/-- The map is cleared and each channel ends. -/
theorem Core.halt (h : s.Core) (hs : s.stopped = false) {l : List Effect}
    (hl : ∀ channel, l.countP (Effect.terminal channel) = 1) :
    Core { s with stopped := true, schedulers := [], log := s.log ++ l } :=
  { h with
    nodup := .nil
    fresh := by simp
    pending := by simp
    halted := fun _ => rfl
    terminals := fun channel => by
      have := h.terminals channel
      simp [List.countP_append, this, hs, hl channel] }

theorem Core.failInLoop (h : s.Core) (e : Exception) : (s.failInLoop e).Core := by
  unfold State.failInLoop
  split_ifs with hs
  · exact h
  · exact h.halt (by simpa using hs) fun channel => by cases channel <;> rfl

theorem Core.stop (h : s.Core) : s.stop.Core := by
  unfold State.stop
  split_ifs with hs
  · exact h
  · exact h.halt (by simpa using hs) fun channel => by cases channel <;> rfl

theorem Core.configure (h : s.Core) (interval : Interval) (channel : Channel) :
    (s.configure interval channel).Core := by
  cases channel <;> exact { h with }

theorem Core.dropPrevious (h : s.Core) (previous : Option Interval) (interval : Interval) :
    (s.dropPrevious previous interval).Core := by
  unfold State.dropPrevious
  cases previous with
  | none => exact h
  | some previous =>
    dsimp only
    split_ifs
    · exact { h with
        nodup := h.nodup.sublist (List.filter_sublist.map _)
        fresh := fun e he => h.fresh e (List.mem_of_mem_filter he)
        pending := fun e he => h.pending e (List.mem_of_mem_filter he)
        halted := fun hs => by simp [h.halted hs] }
    · exact h

/-- An interval has its scheduler already, or is given a new one, which is armed. -/
theorem Core.addScheduler_cases (h : s.Core) (hs : s.stopped = false) (interval : Interval)
    (now : Readings) :
    (interval ∈ s.schedulers.map Prod.fst ∧ s.addScheduler interval now = s) ∨
    (interval ∉ s.schedulers.map Prod.fst ∧ s.addScheduler interval now = { s with
      made := s.made + 1
      schedulers := s.schedulers ++ [(interval, s.made)]
      timeouts := s.timeouts ++ [.next s.made interval now] }) := by
  have hany : s.schedulers.any (·.1 = interval) = true ↔ interval ∈ s.schedulers.map Prod.fst := by
    simp [List.any_eq_true]
  by_cases hnew : interval ∈ s.schedulers.map Prod.fst
  · exact .inl ⟨hnew, by rw [addScheduler, if_pos (hany.2 hnew)]⟩
  · have hlookup : (s.schedulers ++ [(interval, s.made)]).lookup interval = some s.made := by
      rw [lookup_eq_some_iff_mem]
      · simp
      · rw [List.map_append]
        exact h.nodup.append (List.nodup_singleton _) (by simpa using hnew)
    refine .inr ⟨hnew, ?_⟩
    rw [addScheduler, if_neg fun ha => hnew (hany.1 ha), schedule, if_pos ⟨hs, hlookup⟩]

theorem Core.addScheduler (h : s.Core) (hs : s.stopped = false) (interval : Interval)
    (now : Readings) : (s.addScheduler interval now).Core := by
  rcases h.addScheduler_cases hs interval now with ⟨-, heq⟩ | ⟨hnew, heq⟩
  · rwa [heq]
  · rw [heq]
    refine ⟨?_, fun e he => ?_, fun t ht => ?_, fun e he => ?_, fun hstop => ?_, h.terminals⟩
    · rw [List.map_append]
      exact h.nodup.append (List.nodup_singleton _) (by simpa using hnew)
    · rcases List.mem_append.1 he with he | he
      · exact (h.fresh e he).trans (Nat.lt_succ_self _)
      · rw [List.mem_singleton.1 he]
        exact Nat.lt_succ_self _
    · rcases List.mem_append.1 ht with ht | ht
      · exact (h.timeouts t ht).trans (Nat.lt_succ_self _)
      · rw [List.mem_singleton.1 ht]
        exact Nat.lt_succ_self _
    · rcases List.mem_append.1 he with he | he
      · obtain ⟨t, hfilter, hinterval⟩ := h.pending e he
        have hne : s.made ≠ e.2 := (h.fresh e he).ne'
        exact ⟨t, by simp [hfilter, Timeout.next, hne], hinterval⟩
      · obtain rfl := List.mem_singleton.1 he
        have hnone : s.timeouts.filter (·.scheduler = s.made) = [] := by
          rw [List.filter_eq_nil_iff]
          intro t ht
          simpa using (h.timeouts t ht).ne
        exact ⟨.next s.made interval now, by simp [hnone, Timeout.next], rfl⟩
    · simp [hs] at hstop

theorem uses_iff (channel : Channel) (interval : Interval) : s.uses interval ↔
    s.configured channel = some interval ∨ s.configured channel.other = some interval := by
  cases channel with
  | discovery => rfl
  | thing => exact Or.comm

@[simp] theorem configured_configure (interval : Interval) (channel : Channel) :
    (s.configure interval channel).configured channel = some interval := by
  cases channel <;> rfl

@[simp] theorem configured_configure_other (interval : Interval) (channel : Channel) :
    (s.configure interval channel).configured channel.other = s.configured channel.other := by
  cases channel <;> rfl

theorem Core.mem_keys_addScheduler (h : s.Core) (hs : s.stopped = false) (interval : Interval)
    (now : Readings) (j : Interval) :
    j ∈ (s.addScheduler interval now).schedulers.map Prod.fst ↔
      j = interval ∨ j ∈ s.schedulers.map Prod.fst := by
  rcases h.addScheduler_cases hs interval now with ⟨hold, heq⟩ | ⟨-, heq⟩
  · rw [heq]
    exact ⟨.inr, fun hj => hj.elim (fun hj => hj ▸ hold) id⟩
  · rw [heq]
    simp only [List.map_append, List.map_cons, List.map_nil, List.mem_append, List.mem_singleton]
    exact Or.comm

/-- A scheduler that is dropped leaves the map and nothing else changes. -/
theorem dropPrevious_eq (s : State) (previous : Option Interval) (interval : Interval) :
    ∃ l, l.Sublist s.schedulers ∧ s.dropPrevious previous interval = { s with schedulers := l } := by
  unfold dropPrevious
  cases previous with
  | none => exact ⟨_, .refl _, rfl⟩
  | some previous =>
    dsimp only
    split_ifs
    · exact ⟨_, List.filter_sublist, rfl⟩
    · exact ⟨_, .refl _, rfl⟩

/-- Which intervals keep their schedulers. -/
theorem mem_keys_dropPrevious (s : State) (previous : Option Interval) (interval j : Interval) :
    j ∈ (s.dropPrevious previous interval).schedulers.map Prod.fst ↔
      j ∈ s.schedulers.map Prod.fst ∧
        ¬(previous = some j ∧ j ≠ interval ∧ ¬s.uses j) := by
  cases previous with
  | none => simp [dropPrevious]
  | some previous =>
    rw [dropPrevious]
    split_ifs with hdrop
    · simp only [List.mem_map, List.mem_filter, decide_eq_true_eq]
      constructor
      · rintro ⟨e, ⟨he, hne⟩, rfl⟩
        exact ⟨⟨e, he, rfl⟩, fun h => hne (Option.some.inj h.1).symm⟩
      · rintro ⟨⟨e, he, rfl⟩, hnot⟩
        refine ⟨e, ⟨he, ?_⟩, rfl⟩
        rintro rfl
        exact hnot ⟨rfl, hdrop⟩
    · refine ⟨fun hj => ⟨hj, ?_⟩, And.left⟩
      rintro ⟨hp, hj⟩
      obtain rfl := Option.some.inj hp
      exact hdrop hj

/-- A channel that is given an interval keeps the bookkeeping. -/
theorem Sound.setInterval (h : s.Sound) (hs : s.stopped = false) (channel : Channel)
    (interval : Interval) (now : Readings) :
    (((s.configure interval channel).dropPrevious (s.configured channel) interval).addScheduler
      interval now).Sound := by
  have hconfigure : (s.configure interval channel).schedulers = s.schedulers ∧
      (s.configure interval channel).stopped = false := by
    cases channel <;> exact ⟨rfl, hs⟩
  have hcore := (h.toCore.configure interval channel).dropPrevious (s.configured channel) interval
  obtain ⟨l, -, hdrop⟩ :=
    dropPrevious_eq (s.configure interval channel) (s.configured channel) interval
  have hstop : ((s.configure interval channel).dropPrevious (s.configured channel)
      interval).stopped = false := by rw [hdrop, ← hconfigure.2]
  have huses : ∀ j, ((s.configure interval channel).dropPrevious (s.configured channel)
      interval).uses j ↔ (s.configure interval channel).uses j := fun j => by rw [hdrop]; rfl
  have hadd : ∀ j, (((s.configure interval channel).dropPrevious (s.configured channel)
      interval).addScheduler interval now).uses j ↔ (s.configure interval channel).uses j := by
    intro j
    rw [← huses]
    rcases hcore.addScheduler_cases hstop interval now with ⟨-, heq⟩ | ⟨-, heq⟩
    · rw [heq]
    · rw [heq]
      rfl
  refine { hcore.addScheduler hstop interval now with keys := fun _ j => ?_ }
  rw [hcore.mem_keys_addScheduler hstop, hadd, mem_keys_dropPrevious, hconfigure.1, h.keys hs, uses_iff channel, uses_iff channel,
    configured_configure, configured_configure_other]
  simp only [Option.some.injEq]
  tauto

theorem Sound.failInLoop (h : s.Sound) (e : Exception) : (s.failInLoop e).Sound := by
  refine { h.toCore.failInLoop e with keys := fun hs => ?_ }
  unfold State.failInLoop at hs ⊢
  split_ifs at hs ⊢
  exact h.keys hs

theorem Sound.stop (h : s.Sound) : s.stop.Sound := by
  refine { h.toCore.stop with keys := fun hs => ?_ }
  unfold State.stop at hs ⊢
  split_ifs at hs ⊢
  exact h.keys hs

theorem Sound.setIntervalInLoop (h : s.Sound) (channel : Channel) (interval : ℤ) (now : Readings) :
    (s.setIntervalInLoop channel interval now).Sound := by
  unfold State.setIntervalInLoop
  split_ifs with hs
  · exact h
  · cases validateInterval interval with
    | error e => exact h.failInLoop e
    | ok interval => exact h.setInterval (by simpa using hs) channel interval now

theorem Sound.fire (h : s.Sound) {k : ℕ} {t : Timeout} {now : Readings}
    (ht : s.timeouts[k]? = some t) : (step s (.fire k now)).Sound := by
  refine { h.toCore.fire ht with keys := fun hs => ?_ }
  by_cases hc : (t.interval, t.scheduler) ∈ s.schedulers
  · rw [h.fire_current ht hc] at hs ⊢
    exact h.keys hs
  · rw [h.fire_stale ht hc] at hs ⊢
    exact h.keys hs

theorem machine_sound : machine.Invariant Sound where
  init := by
    intro s hs
    rw [show s = _ from hs]
    exact .init _
  next s e h he := by
    cases e with
    | post t => exact { h with }
    | run now =>
      change Sound (step s (.run now))
      unfold step
      cases ht : s.tasks with
      | nil => exact h
      | cons t tasks =>
        have hpop : Sound { s with tasks, clock := now.second } := { h with }
        cases t with
        | setInterval channel interval => exact hpop.setIntervalInLoop channel interval now
        | fail e => exact hpop.failInLoop e
        | stop => exact hpop.stop
    | fire k now =>
      obtain ⟨t, ht, -⟩ := (Option.any_eq_true _ _).1 he.1
      exact h.fire ht

/-- A stopped timer stays stopped and says nothing. -/
theorem Sound.step_stopped (h : s.Sound) (hs : s.stopped = true) (e : Event) :
    (step s e).stopped = true ∧ (step s e).log = s.log := by
  cases e with
  | post t => exact ⟨hs, rfl⟩
  | run now =>
    unfold step
    cases ht : s.tasks with
    | nil => exact ⟨hs, rfl⟩
    | cons t tasks =>
      cases t with
      | setInterval channel interval => simp [runTask, State.setIntervalInLoop, hs]
      | fail e => simp [runTask, State.failInLoop, hs]
      | stop => simp [runTask, State.stop, hs]
  | fire k now =>
    cases ht : s.timeouts[k]? with
    | none =>
      rw [step, ht]
      exact ⟨hs, rfl⟩
    | some t =>
      rw [h.fire_stale ht (by simp [h.halted hs])]
      exact ⟨hs, rfl⟩

theorem run_stopped {t : State} {es : List Event} (hr : machine.Run s es t) (h : s.Sound)
    (hs : s.stopped = true) : t.log = s.log := by
  induction hr with
  | nil => rfl
  | cons he _ ih =>
    obtain ⟨hstop, hlog⟩ := h.step_stopped hs _
    exact (ih (machine_sound.next _ _ h he) hstop).trans hlog

/-- A non-positive interval, an error and a stop stop the timer. -/
theorem stopped_of_ends (s : State) {t : Task} (ht : t.Ends) (now : Readings) :
    (s.runTask now t).stopped = true := by
  have hfail : ∀ e, (s.failInLoop e).stopped = true := by
    intro e
    unfold State.failInLoop
    split_ifs with hs
    · exact hs
    · rfl
  cases t with
  | setInterval channel interval =>
    have hinvalid : validateInterval interval = .error
        (.invalidArgument "epoch-aligned timer interval must be positive") :=
      dif_neg (not_lt.2 ht)
    simp only [runTask, setIntervalInLoop, hinvalid]
    split_ifs with hs
    · exact hs
    · exact hfail _
  | fail e => exact hfail e
  | stop =>
    simp only [runTask, State.stop]
    split_ifs with hs
    · exact hs
    · rfl

/-- In every state a run reaches: while the timer is not stopped, the map has the
configured intervals, each once, and each of its schedulers has one timeout
pending; a timeout of another scheduler emits nothing and arms nothing, and one of
a scheduler in the map is given, once, to the channels configured for its interval;
what ends the timer stops it, and a stopped timer has ended each channel once and
says nothing more. -/
theorem timer_bookkeeping {s : State} (hs : machine.Reachable s) :
    (s.stopped = false →
      (∀ interval, interval ∈ s.schedulers.map Prod.fst ↔ s.uses interval) ∧
      (s.schedulers.map Prod.fst).Nodup ∧
      (∀ e ∈ s.schedulers, ∃ t, s.timeouts.filter (·.scheduler = e.2) = [t] ∧ t.interval = e.1) ∧
      ∀ channel, s.log.countP (Effect.terminal channel) = 0) ∧
    (∀ k now t, machine.enabled s (.fire k now) → s.timeouts[k]? = some t →
      (t.scheduler ∉ s.schedulers.map Prod.snd →
        (machine.next s (.fire k now)).log = s.log ∧
        (machine.next s (.fire k now)).timeouts = s.timeouts.eraseIdx k) ∧
      (t.scheduler ∈ s.schedulers.map Prod.snd →
        (machine.next s (.fire k now)).log = s.log ++
          ([.discovery, .thing].filter fun channel => s.configured channel = some t.interval).map
            fun channel => .onNext channel t.scheduler t.scheduledAt)) ∧
    (∀ now t tasks, machine.enabled s (.run now) → s.tasks = t :: tasks → t.Ends →
      (machine.next s (.run now)).stopped = true) ∧
    (s.stopped = true → (∀ channel, s.log.countP (Effect.terminal channel) = 1) ∧
      ∀ es t, machine.Run s es t → t.log = s.log) := by
  have h : s.Sound := machine_sound.reachable hs
  refine ⟨fun hstop => ⟨h.keys hstop, h.nodup, h.pending, fun channel => ?_⟩,
    fun k now t he ht => ⟨fun hn => ?_, fun hn => ?_⟩, fun now t tasks he ht hends => ?_,
    fun hstop => ⟨fun channel => ?_, fun es t hr => run_stopped hr h hstop⟩⟩
  · rw [h.terminals, hstop]
    rfl
  · have hnot : (t.interval, t.scheduler) ∉ s.schedulers := fun hm => hn (List.mem_map.2 ⟨_, hm, rfl⟩)
    change (step s (.fire k now)).log = _ ∧ (step s (.fire k now)).timeouts = _
    rw [h.fire_stale ht hnot]
    exact ⟨rfl, rfl⟩
  · change (step s (.fire k now)).log = _
    rw [h.fire_current ht (h.current_of_mem (List.mem_of_getElem? ht) hn)]
    rfl
  · change (step s (.run now)).stopped = true
    rw [step, ht]
    exact stopped_of_ends _ hends now
  · rw [h.terminals, hstop]
    rfl

/-- Both channels share an interval of a second, and then one of two seconds. -/
def sharedIntervals : List Event :=
  [.post (.setInterval .discovery 1), .run ⟨0, 0⟩, .post (.setInterval .thing 1), .run ⟨0, 0⟩,
    .post (.setInterval .discovery 2), .run ⟨0, 0⟩, .post (.setInterval .thing 2), .run ⟨0, 0⟩]

/-- The timeout of the first scheduler is left and says nothing; the one of the second is
given to both channels. -/
theorem timer_bookkeeping_shared :
    let s := sharedIntervals.foldl step { clock := 0 }
    let stale := machine.next s (.fire 0 ⟨1000000000, 1000000000⟩)
    let current := machine.next s (.fire 1 ⟨2000000000, 2000000000⟩)
    stale.log = s.log ∧ stale.timeouts = s.timeouts.eraseIdx 0 ∧
      current.log = s.log ++
        [.onNext .discovery 1 2000000000, .onNext .thing 1 2000000000] := by
  intro s stale current
  have hinit : machine.init { clock := 0 } := rfl
  have hreach : machine.Reachable s := .run (.init hinit) (Machine.run_of_runs (by decide))
  obtain ⟨-, hfire, -⟩ := timer_bookkeeping hreach
  obtain ⟨hlog, htimeouts⟩ := (hfire 0 ⟨1000000000, 1000000000⟩ _ (by decide) rfl).1 (by decide)
  exact ⟨hlog, htimeouts, (hfire 1 ⟨2000000000, 2000000000⟩ _ (by decide) rfl).2 (by decide)⟩

end State

end Neubau.Common.Timer
