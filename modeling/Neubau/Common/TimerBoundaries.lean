import Neubau.Common.TimerBookkeeping

/-! The boundaries a scheduler emits. A scheduler that is armed again computes the
next boundary from a new reading of the clock; it is a later one exactly if the
reading is not before the boundary just emitted, where a time before the epoch
counts as if rounded up. The timeout may be short of its boundary by what the
milliseconds cut off, and then the same boundary is emitted again. -/

namespace Neubau.Common.Timer

open Transition

theorem perSecond_pos : 0 < perSecond := by decide

/-- The next boundary follows the multiple of the interval the time is rounded to,
toward the epoch. -/
theorem nextEpochAlignedTickAfter_eq (time : ℤ) (interval : Interval) :
    nextEpochAlignedTickAfter time interval =
      ((time.fdiv perSecond).tdiv interval + 1) * interval * perSecond := by
  have hdiv := Int.mul_tdiv_add_tmod (time.fdiv perSecond) interval
  simp only [nextEpochAlignedTickAfter]
  split_ifs with hr
  · rw [hr, add_zero] at hdiv
    conv_lhs => rw [← hdiv]
    ring
  · congr 1
    linear_combination -hdiv

/-- The reading is late enough for a new boundary: not before the one emitted, or
before the epoch and less than an interval before it. -/
def OnTime (t : Timeout) (now : ℤ) : Prop :=
  t.scheduledAt ≤ now ∨
    now < 0 ∧ t.scheduledAt < (now.fdiv perSecond + t.interval) * perSecond

/-- A boundary of its interval. -/
def Timeout.Aligned (t : Timeout) : Prop :=
  ∃ m : ℤ, t.scheduledAt = m * t.interval * perSecond

theorem aligned_next (scheduler : ℕ) (interval : Interval) (now : Readings) :
    (Timeout.next scheduler interval now).Aligned :=
  ⟨_, nextEpochAlignedTickAfter_eq now.first interval⟩

/-- A multiple is at most the quotient that is rounded toward zero. -/
theorem le_tdiv_iff (m e : ℤ) {i : ℤ} (hi : 0 < i) :
    m ≤ e.tdiv i ↔ m * i ≤ e ∨ e < 0 ∧ m * i < e + i := by
  rcases lt_or_ge e 0 with he | he
  · obtain ⟨d, rfl⟩ : ∃ d, e = -d := ⟨-e, by ring⟩
    have hd : 0 ≤ d := by omega
    rw [Int.neg_tdiv, Int.tdiv_eq_ediv_of_nonneg hd, le_neg, ← Int.lt_add_one_iff,
      Int.ediv_lt_iff_lt_mul hi]
    constructor
    · intro h
      refine .inr ⟨he, ?_⟩
      linarith [show (-m + 1) * i = -(m * i) + i by ring]
    · rintro (h | ⟨-, h⟩) <;> linarith [show (-m + 1) * i = -(m * i) + i by ring]
  · rw [Int.tdiv_eq_ediv_of_nonneg he, Int.le_ediv_iff_mul_le hi]
    exact ⟨.inl, fun h => h.resolve_right fun h' => absurd h'.1 (not_lt.2 he)⟩

/-- A scheduler that is armed again gets a later boundary exactly if the reading is
on time. -/
theorem lt_next_iff {t : Timeout} (ht : t.Aligned) (now : ℤ) :
    t.scheduledAt < nextEpochAlignedTickAfter now t.interval ↔ OnTime t now := by
  obtain ⟨m, hm⟩ := ht
  have hi := t.interval.2
  have hfloor : now.fdiv perSecond = now / perSecond :=
    Int.fdiv_eq_ediv_of_nonneg _ perSecond_pos.le
  have hneg : now < 0 ↔ now / perSecond < 0 := by
    rw [Int.ediv_lt_iff_lt_mul perSecond_pos, zero_mul]
  have hle : m * t.interval * perSecond ≤ now ↔ m * t.interval ≤ now / perSecond :=
    (Int.le_ediv_iff_mul_le perSecond_pos).symm
  rw [OnTime, nextEpochAlignedTickAfter_eq, hm, hfloor, hle, hneg,
    Int.mul_lt_mul_right perSecond_pos, Int.mul_lt_mul_right perSecond_pos,
    Int.mul_lt_mul_right hi, Int.lt_add_one_iff, le_tdiv_iff m _ hi]

/-- The time points a scheduler emitted on a channel. -/
def times (channel : Channel) (scheduler : ℕ) (log : List Effect) : List ℤ :=
  log.filterMap fun
    | .onNext c n time => if c = channel ∧ n = scheduler then some time else none
    | _ => none

theorem times_append (channel : Channel) (scheduler : ℕ) (l l' : List Effect) :
    times channel scheduler (l ++ l') = times channel scheduler l ++ times channel scheduler l' :=
  List.filterMap_append

namespace State

variable {s : State}

/-- What the ticks of a timeout tell about a channel and a scheduler. -/
theorem times_ticks (s : State) (t : Timeout) (channel : Channel) (scheduler : ℕ) :
    times channel scheduler (s.ticks t) =
      if s.configured channel = some t.interval ∧ t.scheduler = scheduler
      then [t.scheduledAt] else [] := by
  by_cases hd : s.configured .discovery = some t.interval <;>
    by_cases ht : s.configured .thing = some t.interval <;>
    cases channel <;> by_cases hn : t.scheduler = scheduler <;>
    simp [ticks, times, hd, ht, hn]

/-- The firing arms its scheduler again with a reading that is on time. -/
def Timely (s : State) : Event → Prop
  | .fire k now => ∀ t, s.timeouts[k]? = some t → (t.interval, t.scheduler) ∈ s.schedulers →
      OnTime t now.first
  | _ => True

/-- The boundaries emitted so far increase, and those pending are later. -/
structure Increasing (s : State) : Prop where
  ordered : ∀ channel n, (times channel n s.log).Pairwise (· < ·)
  below : ∀ t ∈ s.timeouts, (t.interval, t.scheduler) ∈ s.schedulers →
    ∀ channel, ∀ x ∈ times channel t.scheduler s.log, x < t.scheduledAt
  owned : ∀ channel n, times channel n s.log ≠ [] → n < s.made

theorem Increasing.init (clock : ℤ) : Increasing { clock } where
  ordered _ _ := .nil
  below := by simp
  owned := by simp [times]

/-- Fewer schedulers in the map, and effects that are no ticks. -/
theorem Increasing.frame (h : s.Increasing) {t : State} (hs : t.schedulers.Sublist s.schedulers)
    (ht : t.timeouts = s.timeouts) (hm : t.made = s.made)
    (hl : ∀ channel n, times channel n t.log = times channel n s.log) : t.Increasing where
  ordered channel n := hl channel n ▸ h.ordered channel n
  below u hu hc channel x hx :=
    h.below u (ht ▸ hu) (hs.subset hc) channel x (hl channel u.scheduler ▸ hx)
  owned channel n hn := hm ▸ h.owned channel n (hl channel n ▸ hn)

theorem Increasing.failInLoop (h : s.Increasing) (e : Exception) :
    (s.failInLoop e).Increasing := by
  unfold State.failInLoop
  split_ifs
  · exact h
  · exact h.frame (List.nil_sublist _) rfl rfl fun channel n => by simp [times]

theorem Increasing.stop (h : s.Increasing) : s.stop.Increasing := by
  unfold State.stop
  split_ifs
  · exact h
  · exact h.frame (List.nil_sublist _) rfl rfl fun channel n => by simp [times]

/-- A new scheduler has emitted nothing. -/
theorem Increasing.addScheduler (h : s.Increasing) (hcore : s.Core) (hs : s.stopped = false)
    (interval : Interval) (now : Readings) : (s.addScheduler interval now).Increasing := by
  rcases hcore.addScheduler_cases hs interval now with ⟨-, heq⟩ | ⟨-, heq⟩
  · rwa [heq]
  · rw [heq]
    refine ⟨h.ordered, fun t ht hc channel x hx => ?_, fun channel n hn =>
      (h.owned channel n hn).trans (Nat.lt_succ_self _)⟩
    rcases List.mem_append.1 ht with ht | ht
    · refine h.below t ht ?_ channel x hx
      rcases List.mem_append.1 hc with hc | hc
      · exact hc
      · have := hcore.timeouts t ht
        obtain ⟨-, hn⟩ := Prod.mk.inj (List.mem_singleton.1 hc)
        omega
    · obtain rfl := List.mem_singleton.1 ht
      exact absurd (h.owned channel s.made (List.ne_nil_of_mem hx)) (lt_irrefl _)

theorem Increasing.setIntervalInLoop (h : s.Increasing) (hsound : s.Sound) (channel : Channel)
    (interval : ℤ) (now : Readings) : (s.setIntervalInLoop channel interval now).Increasing := by
  unfold State.setIntervalInLoop
  split_ifs with hs
  · exact h
  · cases validateInterval interval with
    | error e => exact h.failInLoop e
    | ok interval =>
      have hcore := (hsound.toCore.configure interval channel).dropPrevious
        (s.configured channel) interval
      obtain ⟨l, hl, hdrop⟩ :=
        dropPrevious_eq (s.configure interval channel) (s.configured channel) interval
      dsimp only
      rw [hdrop] at hcore ⊢
      have hstop : s.stopped = false := by simpa using hs
      have hdropped : Increasing { s.configure interval channel with schedulers := l } := by
        cases channel <;> exact h.frame hl rfl rfl fun _ _ => rfl
      refine hdropped.addScheduler hcore ?_ interval now
      cases channel <;> exact hstop

/-- Whenever a firing comes, its boundary is a new one. -/
theorem Increasing.fire_ordered (h : s.Increasing) (hcore : s.Core) {k : ℕ} {t : Timeout}
    (ht : s.timeouts[k]? = some t) (now : Readings) (channel : Channel) (n : ℕ) :
    (times channel n (step s (.fire k now)).log).Pairwise (· < ·) := by
  by_cases hc : (t.interval, t.scheduler) ∈ s.schedulers
  · rw [hcore.fire_current ht hc, times_append, times_ticks]
    split_ifs with hif
    · obtain ⟨-, rfl⟩ := hif
      refine List.pairwise_append.2 ⟨h.ordered _ _, List.pairwise_singleton _ _, fun x hx y hy => ?_⟩
      rw [List.mem_singleton.1 hy]
      exact h.below t (List.mem_of_getElem? ht) hc channel x hx
    · rw [List.append_nil]
      exact h.ordered channel n
  · rw [hcore.fire_stale ht hc]
    exact h.ordered channel n

/-- A firing that is on time keeps the boundaries increasing. -/
theorem Increasing.fire (h : s.Increasing) (hcore : s.Core) {k : ℕ} {t : Timeout} {now : Readings}
    (ht : s.timeouts[k]? = some t) (ha : t.Aligned)
    (htime : (t.interval, t.scheduler) ∈ s.schedulers → OnTime t now.first) :
    (step s (.fire k now)).Increasing := by
  have hmem : t ∈ s.timeouts := List.mem_of_getElem? ht
  have hordered := h.fire_ordered hcore ht now
  by_cases hc : (t.interval, t.scheduler) ∈ s.schedulers
  · rw [hcore.fire_current ht hc] at hordered ⊢
    have hnext := (lt_next_iff ha now.first).2 (htime hc)
    have htimes : ∀ channel n x, x ∈ times channel n (s.log ++ s.ticks t) →
        x ∈ times channel n s.log ∨ (t.scheduler = n ∧ x = t.scheduledAt) := by
      intro channel n x hx
      rw [times_append, times_ticks, List.mem_append] at hx
      refine hx.imp_right fun hx => ?_
      split_ifs at hx with hif
      · exact ⟨hif.2, List.mem_singleton.1 hx⟩
      · cases hx
    refine ⟨hordered, fun u hu hcurrent channel x hx => ?_, fun channel n hn => ?_⟩
    · rcases List.mem_append.1 hu with hu | hu
      · -- no other timeout of the same scheduler is pending
        have hne : t.scheduler ≠ u.scheduler := by
          intro hn
          obtain ⟨t', hfilter, -⟩ := hcore.pending _ hc
          have hperm := filter_eraseIdx_perm ht (·.scheduler = t.scheduler)
          rw [hfilter, if_pos (by simp)] at hperm
          have hnone := (List.cons_eq_cons.1 (List.singleton_perm.1 hperm)).2
          have : u ∈ (s.timeouts.eraseIdx k).filter (·.scheduler = t.scheduler) := by
            simp [hu, hn]
          rw [← hnone] at this
          cases this
        refine h.below u (List.mem_of_mem_eraseIdx hu) hcurrent channel x ?_
        exact (htimes channel u.scheduler x hx).resolve_right fun hx => hne hx.1
      · obtain rfl := List.mem_singleton.1 hu
        rcases htimes channel _ x hx with hx | ⟨-, rfl⟩
        · exact (h.below t hmem hc channel x hx).trans hnext
        · exact hnext
    · obtain ⟨x, hx⟩ := List.exists_mem_of_ne_nil _ hn
      rcases htimes channel n x hx with hx | ⟨rfl, -⟩
      · exact h.owned channel n (List.ne_nil_of_mem hx)
      · exact hcore.timeouts t hmem
  · rw [hcore.fire_stale ht hc]
    exact ⟨h.ordered, fun u hu => h.below u (List.mem_of_mem_eraseIdx hu), h.owned⟩

/-- Every pending timeout is for a boundary. -/
def Aligned (s : State) : Prop := ∀ t ∈ s.timeouts, t.Aligned

theorem Aligned.schedule (h : s.Aligned) (n : ℕ) (interval : Interval) (now : Readings) :
    (s.schedule n interval now).Aligned := by
  unfold State.schedule
  split_ifs
  · intro t ht
    rcases List.mem_append.1 ht with ht | ht
    · exact h t ht
    · rw [List.mem_singleton.1 ht]
      exact aligned_next _ _ _
  · exact h

theorem Aligned.failInLoop (h : s.Aligned) (e : Exception) : (s.failInLoop e).Aligned := by
  unfold State.failInLoop
  split_ifs <;> exact h

theorem Aligned.setIntervalInLoop (h : s.Aligned) (channel : Channel) (interval : ℤ)
    (now : Readings) : (s.setIntervalInLoop channel interval now).Aligned := by
  unfold State.setIntervalInLoop
  split_ifs
  · exact h
  · cases validateInterval interval with
    | error e => exact h.failInLoop e
    | ok interval =>
      obtain ⟨l, -, hdrop⟩ :=
        dropPrevious_eq (s.configure interval channel) (s.configured channel) interval
      have hdropped : Aligned { s.configure interval channel with schedulers := l } := by
        cases channel <;> exact h
      dsimp only
      rw [hdrop, addScheduler]
      split_ifs
      · exact hdropped
      · refine Aligned.schedule ?_ _ interval now
        exact hdropped

/-- Every step keeps the pending timeouts aligned. -/
theorem Aligned.step (h : s.Aligned) (e : Event) : (step s e).Aligned := by
  cases e with
  | post t => exact h
  | run now =>
    unfold Timer.step
    cases ht : s.tasks with
    | nil => exact h
    | cons t tasks =>
      have hpop : Aligned { s with tasks, clock := now.second } := h
      cases t with
      | setInterval channel interval => exact hpop.setIntervalInLoop channel interval now
      | fail e => exact hpop.failInLoop e
      | stop =>
        dsimp only [runTask]
        unfold State.stop
        split_ifs <;> exact h
  | fire k now =>
    cases ht : s.timeouts[k]? with
    | none =>
      rw [Timer.step, ht]
      exact h
    | some t =>
      have herase : Aligned { s with timeouts := s.timeouts.eraseIdx k, clock := now.second } :=
        fun u hu => h u (List.mem_of_mem_eraseIdx hu)
      simp only [Timer.step, ht, emitTimeout]
      split_ifs
      · refine Aligned.schedule ?_ _ _ now
        exact herase
      · exact herase

theorem machine_aligned : machine.Invariant fun s => s.Sound ∧ s.Aligned where
  init s hs := ⟨machine_sound.init s hs, by rw [show s = _ from hs]; simp [Aligned]⟩
  next s e h he := ⟨machine_sound.next s e h.1 he, h.2.step e⟩

theorem Increasing.step (h : s.Increasing) (hsound : s.Sound) (ha : s.Aligned) {e : Event}
    (he : machine.enabled s e) (htimely : s.Timely e) : (step s e).Increasing := by
  cases e with
  | post t => exact { h with }
  | run now =>
    unfold Timer.step
    cases ht : s.tasks with
    | nil => exact h
    | cons t tasks =>
      have hpop : Sound { s with tasks, clock := now.second } := { hsound with }
      have hpop' : Increasing { s with tasks, clock := now.second } := { h with }
      cases t with
      | setInterval channel interval => exact hpop'.setIntervalInLoop hpop channel interval now
      | fail e => exact hpop'.failInLoop e
      | stop => exact hpop'.stop
  | fire k now =>
    obtain ⟨t, ht, -⟩ := (Option.any_eq_true _ _).1 he.1
    exact h.fire hsound.toCore ht (ha t (List.mem_of_getElem? ht)) (htimely t ht)

/-- Whatever comes next, timely or not, it tells of new boundaries only. -/
theorem Increasing.step_ordered (h : s.Increasing) (hsound : s.Sound) (ha : s.Aligned) {e : Event}
    (he : machine.enabled s e) (channel : Channel) (n : ℕ) :
    (times channel n (machine.next s e).log).Pairwise (· < ·) := by
  cases e with
  | post t => exact (h.step hsound ha he trivial).ordered channel n
  | run now => exact (h.step hsound ha he trivial).ordered channel n
  | fire k now =>
    obtain ⟨t, ht, -⟩ := (Option.any_eq_true _ _).1 he.1
    exact h.fire_ordered hsound.toCore ht now channel n

theorem timely_increasing : (machine.restrict Timely).Invariant fun s =>
    s.Sound ∧ s.Aligned ∧ s.Increasing where
  init s hs := by
    obtain ⟨hsound, ha⟩ := machine_aligned.init s hs
    refine ⟨hsound, ha, ?_⟩
    rw [show s = _ from hs]
    exact .init _
  next s e h he := by
    obtain ⟨hsound, ha, hincreasing⟩ := h
    obtain ⟨hsound', ha'⟩ := machine_aligned.next s e ⟨hsound, ha⟩ he.1
    exact ⟨hsound', ha', hincreasing.step hsound ha he.1 he.2⟩

/-- A firing that is not on time arms the scheduler for a boundary that is not later,
and when that fires, a channel is given both. -/
theorem Sound.late_repeats (h : s.Sound) (ha : s.Aligned) {k : ℕ} {now : Readings} {t : Timeout}
    (ht : s.timeouts[k]? = some t) (hc : (t.interval, t.scheduler) ∈ s.schedulers)
    (hlate : ¬OnTime t now.first) : ∃ e, machine.enabled (step s (.fire k now)) e ∧
      ∃ channel n, ¬(times channel n (step (step s (.fire k now)) e).log).Pairwise (· < ·) := by
  have hsound : (step s (.fire k now)).Sound := h.fire ht
  have hfire : step s (.fire k now) = _ := h.fire_current ht hc
  have hnext : nextEpochAlignedTickAfter now.first t.interval ≤ t.scheduledAt := by
    rw [← not_lt, lt_next_iff (ha t (List.mem_of_getElem? ht))]
    exact hlate
  have hstop : s.stopped = false := by
    cases hs : s.stopped with
    | false => rfl
    | true => simp [h.halted hs] at hc
  obtain ⟨channel, hchannel⟩ : ∃ channel, s.configured channel = some t.interval := by
    rcases (h.keys hstop t.interval).1 (List.mem_map.2 ⟨_, hc, rfl⟩) with hd | ht
    · exact ⟨.discovery, hd⟩
    · exact ⟨.thing, ht⟩
  rw [hfire] at hsound ⊢
  have hu : (s.timeouts.eraseIdx k ++ [Timeout.next t.scheduler t.interval now])[
      (s.timeouts.eraseIdx k).length]? = some (.next t.scheduler t.interval now) :=
    List.getElem?_concat_length
  refine ⟨.fire (s.timeouts.eraseIdx k).length
    ⟨max (Timeout.next t.scheduler t.interval now).due now.second,
      max (Timeout.next t.scheduler t.interval now).due now.second⟩, ⟨?_, ?_, le_rfl⟩,
    channel, t.scheduler, ?_⟩
  · rw [hu]
    simp
  · exact le_max_right _ _
  · rw [hsound.fire_current hu hc]
    intro hpairwise
    rw [times_append, times_append, times_ticks, times_ticks, if_pos ⟨hchannel, rfl⟩,
      if_pos ⟨hchannel, rfl⟩, List.append_assoc] at hpairwise
    have := (List.pairwise_append.1 (List.pairwise_append.1 hpairwise).2.1).2.2
      t.scheduledAt (by simp) _ (List.mem_singleton_self _)
    exact absurd this (not_lt.2 hnext)

/-- In every state of a run whose firings are on time, each scheduler has emitted
increasing boundaries on each channel; and the next event is on time exactly if, whatever
comes behind it, they still increase. -/
theorem boundaries_increase_iff_on_time (hs : (machine.restrict Timely).Reachable s) :
    (∀ channel n, (times channel n s.log).Pairwise (· < ·)) ∧
    ∀ e, machine.enabled s e → (s.Timely e ↔
      ∀ e', machine.enabled (machine.next s e) e' → ∀ channel n,
        (times channel n (machine.next (machine.next s e) e').log).Pairwise (· < ·)) := by
  obtain ⟨hsound, ha, hincreasing⟩ := timely_increasing.reachable hs
  refine ⟨hincreasing.ordered, fun e he => ⟨fun htimely e' he' => ?_, fun hall => ?_⟩⟩
  · obtain ⟨hsound', ha'⟩ := machine_aligned.next s e ⟨hsound, ha⟩ he
    exact (hincreasing.step hsound ha he htimely).step_ordered hsound' ha' he'
  · by_contra hlate
    cases e with
    | post t => exact hlate trivial
    | run now => exact hlate trivial
    | fire k now =>
      simp only [Timely, not_forall] at hlate
      obtain ⟨t, ht, hc, hlate⟩ := hlate
      obtain ⟨e', he', channel, n, hnot⟩ := hsound.late_repeats ha ht hc hlate
      exact hnot (hall e' he' channel n)

/-- A second and a bit: the timeout set at 20.0004 s for the boundary at 21 s fires
at 20.9994 s. -/
def earlySecond : List Event :=
  [.post (.setInterval .discovery 1), .run ⟨20000400000, 20000400000⟩,
    .fire 0 ⟨20999400000, 20999400000⟩, .fire 0 ⟨21000400000, 21000400000⟩]

/-- The timeout for the boundary at 21 s is armed; should it fire at 21.0001 s, all is well. -/
theorem boundaries_increase_iff_on_time_armed :
    let s := (earlySecond.take 2).foldl machine.next { clock := 0 }
    s.timeouts.map (·.scheduledAt) = [21000000000] ∧
      ∀ e', machine.enabled (machine.next s (.fire 0 ⟨21000100000, 21000100000⟩)) e' →
        ∀ channel n, (times channel n (machine.next
          (machine.next s (.fire 0 ⟨21000100000, 21000100000⟩)) e').log).Pairwise (· < ·) := by
  intro s
  have hpost : (machine.restrict Timely).enabled { clock := 0 }
      (.post (.setInterval .discovery 1)) := ⟨trivial, trivial⟩
  have hrun : (machine.restrict Timely).enabled
      (machine.next { clock := 0 } (.post (.setInterval .discovery 1)))
      (.run ⟨20000400000, 20000400000⟩) := ⟨by decide, trivial⟩
  have hreach : (machine.restrict Timely).Reachable s := .next (.next (.init rfl) hpost) hrun
  have harmed : s.timeouts.map (·.scheduledAt) = [21000000000] := by decide
  refine ⟨harmed, ((boundaries_increase_iff_on_time hreach).2 _ (by decide)).1 fun t ht _ => ?_⟩
  have hmem := List.mem_map_of_mem (f := (·.scheduledAt)) (List.mem_of_getElem? ht)
  rw [harmed] at hmem
  exact .inl (by rw [List.mem_singleton.1 hmem]; decide)

/-- The boundary at 21 s is emitted twice. -/
theorem boundary_emitted_twice : ∃ s, machine.Run { clock := 0 } earlySecond s ∧
    times .discovery 0 s.log = [21000000000, 21000000000] ∧
    ¬∀ s, machine.Reachable s → ∀ channel n, (times channel n s.log).Pairwise (· < ·) := by
  have hruns : machine.runs { clock := 0 } earlySecond = true := by decide
  have hinit : machine.init { clock := 0 } := rfl
  have htimes : times .discovery 0 (earlySecond.foldl machine.next { clock := 0 }).log =
      [21000000000, 21000000000] := by decide
  refine ⟨_, Machine.run_of_runs hruns, htimes, fun h => ?_⟩
  have := h _ (.run (.init hinit) (Machine.run_of_runs hruns)) .discovery 0
  rw [htimes] at this
  simp at this

end State

end Neubau.Common.Timer
