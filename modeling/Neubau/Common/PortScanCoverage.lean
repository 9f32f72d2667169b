import Neubau.Common.PortScannerSession

/-! The port scan covers the addresses and ports. The connectors are those of a
first part of the jobs, in their order; the active ones are those that have not
finished. The loop of `fill` starts as many as are missing, so that the scan can
only be complete when every job has finished, and is complete then. A stop takes
the active connectors away, and nothing but the completion follows. -/

namespace Neubau.Common

open Transition

variable {o : PortScannerOptions}

/-- The port a connector is for. -/
def Connector.target (c : Connector) : OpenPort := { address := c.address, port := c.port }

/-- A connector that was just made. -/
def Connector.new (p : OpenPort) : Connector := { address := p.address, port := p.port }

namespace PortScannerSession

/-- The jobs in row-major order, the addresses first. -/
def pairs (o : PortScannerOptions) : List OpenPort :=
  o.addresses.flatMap fun address => o.ports.map fun port => { address, port }

theorem length_pairs : (pairs o).length = jobCount o := by
  simp [pairs, jobCount, List.length_flatMap]

/-- The flat index of a job decodes to its address and its port. -/
theorem getElem?_pairs {job : ℕ} (h : job < jobCount o) : ∃ address port,
    o.addresses[job / o.ports.length]? = some address ∧
    o.ports[job % o.ports.length]? = some port ∧ (pairs o)[job]? = some { address, port } := by
  obtain ⟨addresses, ports, maxConcurrency⟩ := o
  simp only [jobCount, pairs] at h ⊢
  induction addresses generalizing job with
  | nil => simp at h
  | cons address addresses ih =>
    have hpos : 0 < ports.length := by
      rcases Nat.eq_zero_or_pos ports.length with hz | hz
      · rw [hz] at h
        omega
      · exact hz
    by_cases hlt : job < ports.length
    · refine ⟨address, ports[job], ?_, ?_, ?_⟩
      · rw [Nat.div_eq_of_lt hlt]
        rfl
      · rw [Nat.mod_eq_of_lt hlt, List.getElem?_eq_getElem hlt]
      · rw [List.flatMap_cons, List.getElem?_append_left (by simpa using hlt)]
        simp [hlt]
    · obtain ⟨k, rfl⟩ : ∃ k, job = k + ports.length := ⟨job - ports.length, by omega⟩
      have hk : k < addresses.length * ports.length := by
        rw [List.length_cons, Nat.succ_mul] at h
        omega
      obtain ⟨a, p, ha, hp, hpair⟩ := ih hk
      refine ⟨a, p, ?_, ?_, ?_⟩
      · rw [Nat.add_div_right k hpos, List.getElem?_cons_succ]
        exact ha
      · rw [Nat.add_mod_right]
        exact hp
      · rw [List.flatMap_cons, List.getElem?_append_right (by simp)]
        simpa using hpair

/-! ### The loop of `fill` -/

/-- The session with the next `k` jobs started. -/
def started (o : PortScannerOptions) (k : ℕ) (s : PortScannerSession) : PortScannerSession :=
  { s with
    connectors := s.connectors ++ (((pairs o).drop s.nextJob).take k).map Connector.new
    active := s.active ++ List.range' s.connectors.length k
    tasks := s.tasks ++ (List.range' s.connectors.length k).map .startInLoop
    nextJob := s.nextJob + k }

variable {s : PortScannerSession}

theorem started_zero : s.started o 0 = s := by simp [started]

theorem startJob_eq (h : s.nextJob < jobCount o) : s.startJob o = s.started o 1 := by
  obtain ⟨address, port, ha, hp, hpair⟩ := getElem?_pairs h
  have hdrop : ((pairs o).drop s.nextJob).take 1 = [{ address, port }] := by
    rw [List.take_one, List.head?_drop, hpair]
    rfl
  simp [startJob, ha, hp, started, hdrop, queueInLoop, Connector.new]

theorem started_succ {k : ℕ} (h : s.nextJob < jobCount o) :
    (s.started o 1).started o k = s.started o (k + 1) := by
  have hlt : s.nextJob < (pairs o).length := length_pairs ▸ h
  have htake : ((pairs o).drop s.nextJob).take (k + 1) =
      ((pairs o).drop s.nextJob).take 1 ++ ((pairs o).drop (s.nextJob + 1)).take k := by
    rw [Nat.add_comm k 1, List.take_add, List.drop_drop]
  have hone : (((pairs o).drop s.nextJob).take 1).length = 1 := by simp; omega
  have hrange : List.range' s.connectors.length (k + 1) =
      List.range' s.connectors.length 1 ++ List.range' (s.connectors.length + 1) k := by
    rw [Nat.add_comm k 1, ← List.range'_append_1]
  simp only [started, htake, hrange, List.map_append, List.append_assoc, List.length_append,
    List.length_map, hone, Nat.add_assoc, Nat.add_comm 1 k]

/-- The connectors of the jobs started are new ones for these jobs. -/
theorem started_eq {k : ℕ} (hj : s.nextJob + k ≤ jobCount o) : ∃ news : List Connector,
    news.length = k ∧ news.map Connector.target = ((pairs o).drop s.nextJob).take k ∧
    (∀ c ∈ news, c.outcome = none) ∧ s.started o k = { s with
      connectors := s.connectors ++ news
      active := s.active ++ List.range' s.connectors.length k
      tasks := s.tasks ++ (List.range' s.connectors.length k).map .startInLoop
      nextJob := s.nextJob + k } := by
  refine ⟨_, ?_, ?_, fun c hc => ?_, rfl⟩
  · simp [length_pairs]
    omega
  · rw [List.map_map]
    exact List.map_id _
  · obtain ⟨p, -, rfl⟩ := List.mem_map.1 hc
    rfl

/-- The loop starts as many jobs as there are places and jobs left. -/
theorem startJobs_eq {bound : ℕ} (h : s.nextJob + bound = jobCount o) :
    startJobs o bound s = s.started o (min (o.maxConcurrency - s.active.length) bound) := by
  induction bound generalizing s with
  | zero => simp [startJobs, started_zero]
  | succ bound ih =>
    have hjob : s.nextJob < jobCount o := by omega
    rw [startJobs]
    split_ifs with hc
    · have hnext : (s.started o 1).nextJob + bound = jobCount o := by simp [started]; omega
      rw [startJob_eq hjob, ih hnext, started_succ hjob]
      congr 1
      simp [started]
      omega
    · have : o.maxConcurrency - s.active.length = 0 := by omega
      rw [this, Nat.zero_min, started_zero]

/-! ### What holds between the callbacks -/

/-- The connectors whose success was handed on. -/
def emitted (log : List Emission) : List ℕ :=
  log.filterMap fun
    | .onNext n _ => some n
    | .onCompleted => none

/-- No connector is at work any more. -/
def AllFinished (s : PortScannerSession) : Prop := ∀ c ∈ s.connectors, c.outcome.isSome

instance (s : PortScannerSession) : Decidable s.AllFinished :=
  inferInstanceAs (Decidable (∀ c ∈ s.connectors, c.outcome.isSome))

/-- What holds at any moment, also while the places are being filled. -/
structure Core (o : PortScannerOptions) (s : PortScannerSession) : Prop where
  fault : s.fault = false
  next : s.nextJob = s.connectors.length
  targets : s.connectors.map Connector.target = (pairs o).take s.connectors.length
  bounded : s.connectors.length ≤ jobCount o
  nodup : s.active.Nodup
  active : s.stopped = false → ∀ n, n ∈ s.active ↔
    ∃ c, s.connectors[n]? = some c ∧ c.outcome = none
  halted : s.stopped = true → s.active = []
  inFlight : s.connectors.countP (·.outcome.isNone) ≤ o.maxConcurrency
  count : s.stopped = false → s.connectors.countP (·.outcome.isNone) = s.active.length
  values : ∀ n port, .onNext n port ∈ s.log →
    ∃ c, s.connectors[n]? = some c ∧ c.target = port ∧ c.outcome = some true
  once : (emitted s.log).Nodup
  all : s.stopped = false → ∀ n c, s.connectors[n]? = some c → c.outcome = some true →
    n ∈ emitted s.log
  ended : ∃ l, s.log = l ++ (if s.completed then [.onCompleted] else []) ∧ .onCompleted ∉ l
  complete : s.stopped = false → s.completed = true →
    s.connectors.length = jobCount o ∧ s.AllFinished

/-- What holds between the callbacks: the places are filled, and the scan has
completed if nothing is left. -/
structure Sound (o : PortScannerOptions) (s : PortScannerSession) : Prop extends Core o s where
  filled : s.stopped = false → s.begun = true → .fill ∉ s.tasks →
    o.maxConcurrency ≤ s.active.length ∨ s.nextJob = jobCount o
  finished : s.stopped = false → s.begun = true → .fill ∉ s.tasks →
    s.active = [] → s.nextJob = jobCount o → s.completed = true
  stopped : s.stopped = true → s.AllFinished → s.completed = true

theorem Sound.init : Sound o {} where
  fault := rfl
  next := rfl
  targets := rfl
  bounded := Nat.zero_le _
  nodup := .nil
  active _ := by simp
  halted _ := rfl
  inFlight := Nat.zero_le _
  count _ := rfl
  values := by simp
  once := .nil
  all _ := by simp
  ended := ⟨[], rfl, by simp⟩
  complete _ := nofun
  filled _ := nofun
  finished _ := nofun
  stopped := nofun

/-- The queue of the loop and what was dialed do not matter to the accounts. -/
theorem Core.frame (h : s.Core o) (tasks : List PortScannerTask) (begun : Bool)
    (dials clients : List ℕ) : Core o { s with tasks, begun, dials, clients } :=
  { h with }

theorem Sound.frame (h : s.Sound o) {tasks : List PortScannerTask} (dials clients : List ℕ)
    (ht : .fill ∈ s.tasks → .fill ∈ tasks) : Sound o { s with tasks, dials, clients } :=
  { h.toCore.frame tasks s.begun dials clients with
    filled := fun hs hb hf => h.filled hs hb fun hm => hf (ht hm)
    finished := fun hs hb hf => h.finished hs hb fun hm => hf (ht hm)
    stopped := h.stopped }

theorem Core.allFinished_iff (h : s.Core o) (hs : s.stopped = false) :
    s.AllFinished ↔ s.active = [] := by
  rw [← List.length_eq_zero_iff, ← h.count hs, List.countP_eq_zero]
  simp [AllFinished, Option.isSome_iff_ne_none]

theorem getElem?_append_cases {α : Type*} {l l' : List α} {n : ℕ} {a : α} :
    (l ++ l')[n]? = some a ↔ l[n]? = some a ∨ (l.length ≤ n ∧ l'[n - l.length]? = some a) := by
  rcases lt_or_ge n l.length with h | h
  · simp [List.getElem?_append_left h, h]
  · simp [List.getElem?_append_right h, h]

/-- Starting the next jobs keeps the accounts. -/
theorem Core.started (h : s.Core o) (hs : s.stopped = false) {k : ℕ}
    (hk : k ≤ o.maxConcurrency - s.active.length) (hj : s.nextJob + k ≤ jobCount o) :
    (s.started o k).Core o := by
  rcases Nat.eq_zero_or_pos k with rfl | hpos
  · rwa [started_zero]
  have hcompleted : s.completed = false := by
    by_contra hc
    have := (h.complete hs (by simpa using hc)).1
    have := h.next
    omega
  obtain ⟨news, hlength, htargets, hopen, heq⟩ := started_eq hj
  rw [heq]
  have hactive : ∀ n ∈ s.active, n < s.connectors.length := by
    intro n hn
    obtain ⟨c, hc, -⟩ := (h.active hs n).1 hn
    exact (List.getElem?_eq_some_iff.1 hc).1
  have hcount : news.countP (·.outcome.isNone) = k :=
    (List.countP_eq_length.2 fun c hc => by simp [hopen c hc]).trans hlength
  have htotal := h.count hs
  have hbound := h.inFlight
  refine ⟨h.fault, ?_, ?_, ?_, ?_, fun _ n => ?_, fun hstop => ?_, ?_, fun _ => ?_,
    fun n port hp => ?_, h.once, fun _ n c hc ho => ?_, h.ended, fun _ hc => ?_⟩
  · simp [h.next, hlength]
  · rw [List.map_append, h.targets, htargets, h.next, List.length_append, hlength, List.take_add]
  · have := h.next
    simp only [List.length_append]
    omega
  · refine List.nodup_append.2 ⟨h.nodup, List.nodup_range' .., fun a ha b hb => ?_⟩
    have := hactive a ha
    have := (List.mem_range'_1.1 hb).1
    omega
  · rw [List.mem_append, h.active hs, List.mem_range'_1]
    simp only [getElem?_append_cases]
    constructor
    · rintro (⟨c, hc, ho⟩ | ⟨hn, hlt⟩)
      · exact ⟨c, .inl hc, ho⟩
      · obtain ⟨c, hc⟩ : ∃ c, news[n - s.connectors.length]? = some c :=
          ⟨_, List.getElem?_eq_getElem (by omega)⟩
        exact ⟨c, .inr ⟨hn, hc⟩, hopen c (List.mem_of_getElem? hc)⟩
    · rintro ⟨c, hc | ⟨hn, hc⟩, ho⟩
      · exact .inl ⟨c, hc, ho⟩
      · have := (List.getElem?_eq_some_iff.1 hc).1
        exact .inr ⟨hn, by omega⟩
  · rw [hs] at hstop
    cases hstop
  · rw [List.countP_append, hcount]
    omega
  · rw [List.countP_append, hcount, htotal]
    simp
  · obtain ⟨c, hc, hrest⟩ := h.values n port hp
    exact ⟨c, getElem?_append_cases.2 (.inl hc), hrest⟩
  · rcases getElem?_append_cases.1 hc with hc | ⟨-, hc⟩
    · exact h.all hs n c hc ho
    · rw [hopen c (List.mem_of_getElem? hc)] at ho
      cases ho
  · rw [hcompleted] at hc
    cases hc

section Finish

@[simp] theorem finish_completed (s : PortScannerSession) : s.finish.completed = true := by
  unfold finish
  split_ifs with h
  · exact h
  · rfl

@[simp] theorem finish_active (s : PortScannerSession) : s.finish.active = s.active := by
  unfold finish
  split_ifs <;> rfl

@[simp] theorem finish_nextJob (s : PortScannerSession) : s.finish.nextJob = s.nextJob := by
  unfold finish
  split_ifs <;> rfl

@[simp] theorem finish_stopped (s : PortScannerSession) : s.finish.stopped = s.stopped := by
  unfold finish
  split_ifs <;> rfl

@[simp] theorem finish_connectors (s : PortScannerSession) :
    s.finish.connectors = s.connectors := by
  unfold finish
  split_ifs <;> rfl

theorem finish_log (s : PortScannerSession) :
    s.finish.log = s.log ++ if s.completed then [] else [.onCompleted] := by
  unfold finish
  split_ifs <;> simp

end Finish

@[simp] theorem emitted_completed (log : List Emission) :
    emitted (log ++ [Emission.onCompleted]) = emitted log := by
  simp [emitted]

theorem Core.finish (h : s.Core o) (hs : s.stopped = false →
    s.connectors.length = jobCount o ∧ s.AllFinished) : s.finish.Core o := by
  by_cases hc : s.completed = true
  · rwa [PortScannerSession.finish, if_pos hc]
  · obtain ⟨l, hl, hnot⟩ := h.ended
    rw [PortScannerSession.finish, if_neg hc]
    rw [if_neg hc, List.append_nil] at hl
    exact { h with
      values := fun n port hp => h.values n port (by simpa using hp)
      once := by simpa using h.once
      all := fun hstop n c => by simpa using h.all hstop n c
      ended := ⟨l, by simp [hl], hnot⟩
      complete := fun hstop _ => hs hstop }

/-- What `fill` does while the session is not stopped. -/
theorem Core.fill_eq (h : s.Core o) (hs : s.stopped = false) : ∃ k,
    k ≤ o.maxConcurrency - s.active.length ∧ s.nextJob + k ≤ jobCount o ∧
    (o.maxConcurrency - s.active.length ≤ k ∨ s.nextJob + k = jobCount o) ∧
    s.fill o = if (s.started o k).active = [] ∧ jobCount o ≤ (s.started o k).nextJob then
      (s.started o k).finish else s.started o k := by
  have hnext := h.next
  have hbounded := h.bounded
  refine ⟨min (o.maxConcurrency - s.active.length) (jobCount o - s.nextJob), by omega, by omega,
    by omega, ?_⟩
  rw [PortScannerSession.fill, hs, startJobs_eq (by omega)]
  rfl

/-- Filling the places settles the scan. -/
theorem Core.fill (h : s.Core o) : (s.fill o).Sound o := by
  cases hs : s.stopped with
  | true =>
    have hcore := h.finish fun hs' => by simp [hs] at hs'
    rw [PortScannerSession.fill, if_pos hs]
    exact { hcore with
      filled := fun hs' => by simp [hs] at hs'
      finished := fun hs' => by simp [hs] at hs'
      stopped := fun _ _ => finish_completed s }
  | false =>
    obtain ⟨k, hk, hj, hfull, heq⟩ := h.fill_eq hs
    have hcore := h.started hs hk hj
    have hlength : (s.started o k).active.length = s.active.length + k := by
      simp [PortScannerSession.started]
    have hnext : (s.started o k).nextJob = s.nextJob + k := rfl
    have hstop : (s.started o k).stopped = false := hs
    have hfilled : o.maxConcurrency ≤ (s.started o k).active.length ∨
        (s.started o k).nextJob = jobCount o := by omega
    rw [heq]
    split_ifs with hdone
    · have hall : (s.started o k).connectors.length = jobCount o := by
        rw [← hcore.next]
        exact le_antisymm hj hdone.2
      exact { hcore.finish fun _ => ⟨hall, (hcore.allFinished_iff hstop).2 hdone.1⟩ with
        filled := fun _ _ _ => by simpa using hfilled
        finished := fun _ _ _ _ _ => finish_completed _
        stopped := fun _ _ => finish_completed _ }
    · exact { hcore with
        filled := fun _ _ _ => hfilled
        finished := fun _ _ _ ha hn => absurd ⟨ha, hn.ge⟩ hdone
        stopped := fun hs' => by simp [hstop] at hs' }

theorem mem_emitted {log : List Emission} {n : ℕ} :
    n ∈ emitted log ↔ ∃ port, .onNext n port ∈ log := by
  simp only [emitted, List.mem_filterMap]
  constructor
  · rintro ⟨e, he, hn⟩
    cases e with
    | onNext m port =>
      obtain rfl := Option.some.inj hn
      exact ⟨port, he⟩
    | onCompleted => cases hn
  · rintro ⟨port, hp⟩
    exact ⟨_, hp, rfl⟩

/-- The connector has finished and left the active ones; its success was handed on
unless the session is stopped. -/
def settled (n : ℕ) (c : Connector) (isOpen : Bool) (s : PortScannerSession) :
    PortScannerSession :=
  { s with
    connectors := s.connectors.set n { c with outcome := some isOpen }
    active := s.active.erase n
    log := s.log ++ if (!s.stopped && isOpen) = true then [.onNext n c.target] else [] }

theorem finishConnector_eq {n : ℕ} {c : Connector} (hn : s.connectors[n]? = some c)
    (hc : c.outcome = none) (isOpen : Bool) :
    s.finishConnector o n isOpen = (s.settled n c isOpen).fill o := by
  simp only [finishConnector, hn, hc, Option.isSome_none, Bool.false_eq_true, ↓reduceIte, result,
    settled]
  congr 1
  split_ifs
  · rfl
  · rw [List.append_nil]

section Outcome

variable {n : ℕ} {c : Connector}

theorem getElem?_set_outcome (hn : s.connectors[n]? = some c) (isOpen : Bool) (m : ℕ)
    (c' : Connector) :
    (s.connectors.set n { c with outcome := some isOpen })[m]? = some c' ↔
      (m = n ∧ c' = { c with outcome := some isOpen }) ∨ (m ≠ n ∧ s.connectors[m]? = some c') := by
  have hlt : n < s.connectors.length := (List.getElem?_eq_some_iff.1 hn).1
  by_cases hm : m = n
  · subst hm
    simp [hlt, eq_comm]
  · simp [hm, Ne.symm hm]

theorem map_target_set_outcome (hn : s.connectors[n]? = some c) (isOpen : Bool) :
    (s.connectors.set n { c with outcome := some isOpen }).map Connector.target =
      s.connectors.map Connector.target := by
  obtain ⟨hlt, hget⟩ := List.getElem?_eq_some_iff.1 hn
  refine List.ext_getElem? fun m => ?_
  by_cases hm : m = n
  · subst hm
    simp [hlt, Connector.target, hget]
  · simp [Ne.symm hm]

/-- One connector less is at work. -/
theorem countP_set_outcome (hn : s.connectors[n]? = some c) (hc : c.outcome = none)
    (isOpen : Bool) :
    (s.connectors.set n { c with outcome := some isOpen }).countP (·.outcome.isNone) =
      s.connectors.countP (·.outcome.isNone) - 1 := by
  obtain ⟨hlt, hget⟩ := List.getElem?_eq_some_iff.1 hn
  rw [List.countP_set hlt, hget]
  simp [hc]

theorem Core.not_completed (h : s.Core o) (hn : s.connectors[n]? = some c) (hc : c.outcome = none)
    (hs : s.stopped = false) : s.completed = false := by
  by_contra hcompleted
  have hall := (h.complete hs (by simpa using hcompleted)).2 c (List.mem_of_getElem? hn)
  simp [hc] at hall

/-- Nothing was handed on of a connector at work. -/
theorem Core.not_emitted (h : s.Core o) (hn : s.connectors[n]? = some c)
    (hc : c.outcome = none) : n ∉ emitted s.log := by
  intro hm
  obtain ⟨port, hp⟩ := mem_emitted.1 hm
  obtain ⟨c', hc', -, ho⟩ := h.values n port hp
  rw [hn, Option.some.injEq] at hc'
  rw [← hc', hc] at ho
  cases ho

end Outcome

theorem Core.settled (h : s.Core o) {n : ℕ} {c : Connector} (hn : s.connectors[n]? = some c)
    (hc : c.outcome = none) (isOpen : Bool) : (s.settled n c isOpen).Core o := by
  unfold PortScannerSession.settled
  have hget := getElem?_set_outcome hn isOpen
  have hcount := countP_set_outcome hn hc isOpen
  refine ⟨h.fault, ?_, ?_, ?_, h.nodup.erase n, fun hs m => ?_, fun hs => ?_, ?_, fun hs => ?_,
    fun m port hp => ?_, ?_, fun hs m c' hm ho => ?_, ?_, fun hs hcomp => ?_⟩
  · simpa using h.next
  · rw [List.length_set, ← h.targets]
    exact map_target_set_outcome hn isOpen
  · simpa using h.bounded
  · rw [h.nodup.mem_erase_iff, h.active hs]
    simp only [hget]
    constructor
    · rintro ⟨hm, c', hc', ho⟩
      exact ⟨c', .inr ⟨hm, hc'⟩, ho⟩
    · rintro ⟨c', ⟨-, rfl⟩ | ⟨hm, hc'⟩, ho⟩
      · cases ho
      · exact ⟨hm, c', hc', ho⟩
  · rw [h.halted hs, List.erase_nil]
  · have := h.inFlight
    simp only [hcount]
    omega
  · have hmem : n ∈ s.active := (h.active hs n).2 ⟨c, hn, hc⟩
    rw [List.length_erase_of_mem hmem, ← h.count hs, hcount]
  · rcases List.mem_append.1 hp with hold | hp
    · obtain ⟨c', hc', ht, ho⟩ := h.values m port hold
      refine ⟨c', (hget m c').2 (.inr ⟨?_, hc'⟩), ht, ho⟩
      rintro rfl
      exact h.not_emitted hn hc (mem_emitted.2 ⟨port, hold⟩)
    · split_ifs at hp with hnext
      · obtain ⟨rfl, rfl⟩ := Emission.onNext.inj (List.mem_singleton.1 hp)
        refine ⟨_, (hget m _).2 (.inl ⟨rfl, rfl⟩), rfl, ?_⟩
        simp only [Bool.and_eq_true] at hnext
        rw [hnext.2]
      · cases hp
  · split_ifs
    · simp only [emitted, List.filterMap_append]
      refine List.nodup_append.2 ⟨h.once, List.nodup_singleton n, fun a ha b hb => ?_⟩
      rintro rfl
      rw [List.mem_singleton.1 hb] at ha
      exact h.not_emitted hn hc ha
    · rw [List.append_nil]
      exact h.once
  · rw [mem_emitted]
    rcases (hget m c').1 hm with ⟨rfl, rfl⟩ | ⟨hne, hm⟩
    · obtain rfl := Option.some.inj ho
      refine ⟨c.target, List.mem_append_right _ ?_⟩
      have hstop : s.stopped = false := hs
      simp [hstop]
    · obtain ⟨port, hp⟩ := mem_emitted.1 (h.all hs m c' hm ho)
      exact ⟨port, List.mem_append_left _ hp⟩
  · cases hs : s.stopped with
    | true => simpa [hs] using h.ended
    | false =>
      obtain ⟨l, hl, hnot⟩ := h.ended
      refine ⟨s.log ++ if (!s.stopped && isOpen) = true then [.onNext n c.target] else [], ?_, ?_⟩
      · simp [h.not_completed hn hc hs, hs]
      · rw [h.not_completed hn hc hs] at hl
        simp only [Bool.false_eq_true, ↓reduceIte, List.append_nil] at hl
        rw [hl, List.mem_append, not_or]
        refine ⟨hnot, ?_⟩
        split_ifs <;> simp
  · exact absurd ((h.not_completed hn hc hs).symm.trans hcomp) (by decide)

/-- A connector is none of the session's, has finished already, or is settled. -/
theorem finishConnector_cases (s : PortScannerSession) (n : ℕ) (isOpen : Bool) :
    s.finishConnector o n isOpen = s ∨ ∃ c, s.connectors[n]? = some c ∧ c.outcome = none ∧
      s.finishConnector o n isOpen = (s.settled n c isOpen).fill o := by
  cases hn : s.connectors[n]? with
  | none =>
    refine .inl ?_
    simp only [finishConnector, hn]
  | some c =>
    cases hc : c.outcome with
    | none => exact .inr ⟨c, rfl, hc, finishConnector_eq hn hc isOpen⟩
    | some outcome =>
      refine .inl ?_
      simp only [finishConnector, hn, hc, Option.isSome_some, ↓reduceIte]

theorem Sound.finishConnector (h : s.Sound o) (n : ℕ) (isOpen : Bool) :
    (s.finishConnector o n isOpen).Sound o := by
  rcases finishConnector_cases s n isOpen with heq | ⟨c, hn, hc, heq⟩
  · rwa [heq]
  · rw [heq]
    exact (h.toCore.settled hn hc isOpen).fill

theorem Sound.startInLoop (h : s.Sound o) (n : ℕ) (created : Bool) :
    (s.startInLoop o n created).Sound o := by
  unfold PortScannerSession.startInLoop
  cases hn : s.connectors[n]? with
  | none => exact h
  | some c =>
    dsimp only
    split_ifs
    · exact h
    · exact h.frame _ _ id
    · exact (h.frame (s.dials ++ [n]) s.clients id).finishConnector n false

theorem cancels_eq (operations : List ℕ) (s : PortScannerSession) :
    operations.foldl (fun s n => s.queueInLoop (.cancel n)) s =
      { s with tasks := s.tasks ++ operations.map .cancel } := by
  induction operations generalizing s with
  | nil => simp
  | cons n operations ih =>
    rw [List.foldl_cons, ih]
    simp [queueInLoop]

/-- The session with its active connectors taken away and cancelled. -/
def halted (s : PortScannerSession) : PortScannerSession :=
  { s with stopped := true, active := [], tasks := s.tasks ++ s.active.map .cancel }

theorem stop_eq (hs : s.stopped = false) :
    s.stop = if s.active = [] then s.halted.finish else s.halted := by
  rw [PortScannerSession.stop, hs]
  simp only [Bool.false_eq_true, ↓reduceIte, cancels_eq]
  rfl

/-- A stop leaves nothing active; it completes a scan that has nothing at work. -/
theorem Sound.stop (h : s.Sound o) : s.stop.Sound o := by
  cases hs : s.stopped with
  | true =>
    rw [PortScannerSession.stop, if_pos hs]
    exact h
  | false =>
    have hcore : s.halted.Core o := { h.toCore with
      nodup := .nil
      active := fun hs' => by cases hs'
      halted := fun _ => rfl
      count := fun hs' => by cases hs'
      all := fun hs' => by cases hs'
      complete := fun hs' => by cases hs' }
    rw [stop_eq hs]
    split_ifs with ha
    · have hfinish := hcore.finish fun hs' => by cases hs'
      exact { hfinish with
        filled := fun hs' => by simp [PortScannerSession.halted] at hs'
        finished := fun hs' => by simp [PortScannerSession.halted] at hs'
        stopped := fun _ _ => finish_completed _ }
    · exact { hcore with
        filled := fun hs' => by cases hs'
        finished := fun hs' => by cases hs'
        stopped := fun _ hall => absurd ((h.allFinished_iff hs).1 hall) ha }

theorem machine_sound : (machine o).Invariant (Sound o) where
  init := by
    rintro s rfl
    exact .init
  next s e h he := by
    cases e with
    | start =>
      have hcore := h.toCore.frame (s.tasks ++ [PortScannerTask.fill]) true s.dials s.clients
      exact { hcore with
        filled := fun _ _ hf => absurd (List.mem_append_right _ (List.mem_singleton_self _)) hf
        finished := fun _ _ hf => absurd (List.mem_append_right _ (List.mem_singleton_self _)) hf
        stopped := h.stopped }
    | requestStop => exact h.frame _ _ (List.mem_append_left _)
    | report n isOpen => exact h.finishConnector n isOpen
    | run created =>
      change Sound o (step o s (.run created))
      unfold step
      cases ht : s.tasks with
      | nil => exact h
      | cons t tasks =>
        have hpop : t ≠ .fill → Sound o { s with tasks } := fun hne =>
          h.frame s.dials s.clients fun hm => by simpa [ht, Ne.symm hne] using hm
        cases t with
        | fill => exact (h.toCore.frame tasks s.begun s.dials s.clients).fill
        | stop => exact (hpop (by simp)).stop
        | startInLoop n => exact (hpop (by simp)).startInLoop n created
        | cancel n => exact (hpop (by simp)).finishConnector n false

end PortScannerSession

end Neubau.Common
