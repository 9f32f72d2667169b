import Neubau.Modbus.Pool

/-! What passes between a session and the upstream. The work of the session, its jobs
and their exchanges, leaves the subscription alone and neither starts nor stops
anything: it adds callbacks of its exchanges to the loop and may end the session.
The first callback subscribes, and only then do reports arrive. -/

namespace Neubau.Modbus.Discovery

open Neubau.Common

variable {o : Options}

namespace Session

/-- From `s` to `t` the session has only worked. -/
structure Works (s t : Session) : Prop where
  arrived : t.arrived = s.arrived
  upstream : t.upstream = s.upstream
  begun : t.begun = s.begun
  tasks : ∃ new, t.tasks = s.tasks ++ new ∧ .begin ∉ new ∧ .stop ∉ new
  stopped : t.stopped = s.stopped
  stopAction : s.stopAction = false → t.stopAction = false
  completed : t.completed = true →
    s.completed = true ∨ t.stopAction = false ∧ t.upstreamCompleted = true
  upstreamCompleted : t.upstreamCompleted = s.upstreamCompleted
  failed : ∀ error, .onError error ∈ t.log → .onError error ∈ s.log

variable {s t u : Session}

theorem Works.refl (s : Session) : s.Works s where
  arrived := rfl
  upstream := rfl
  begun := rfl
  tasks := ⟨[], (List.append_nil _).symm, nofun, nofun⟩
  stopped := rfl
  stopAction h := h
  completed := .inl
  upstreamCompleted := rfl
  failed _ h := h

theorem Works.trans (h : s.Works t) (h' : t.Works u) : s.Works u where
  arrived := h'.arrived.trans h.arrived
  upstream := h'.upstream.trans h.upstream
  begun := h'.begun.trans h.begun
  tasks := by
    obtain ⟨new, ht, hb, hs⟩ := h.tasks
    obtain ⟨new', ht', hb', hs'⟩ := h'.tasks
    refine ⟨new ++ new', by rw [ht', ht, List.append_assoc], ?_, ?_⟩
    · exact List.not_mem_append hb hb'
    · exact List.not_mem_append hs hs'
  stopped := h'.stopped.trans h.stopped
  stopAction hs := h'.stopAction (h.stopAction hs)
  completed hc := by
    rcases h'.completed hc with hc | hc
    · exact (h.completed hc).imp_right fun ⟨ha, hu⟩ =>
        ⟨h'.stopAction ha, h'.upstreamCompleted.trans hu⟩
    · exact .inr hc
  upstreamCompleted := h'.upstreamCompleted.trans h.upstreamCompleted
  failed error he := h.failed error (h'.failed error he)

/-- Only these fields matter. -/
theorem Works.of_eq (ha : t.arrived = s.arrived) (hu : t.upstream = s.upstream)
    (hb : t.begun = s.begun) (ht : t.tasks = s.tasks) (hs : t.stopped = s.stopped)
    (hsa : t.stopAction = s.stopAction) (hc : t.completed = s.completed)
    (huc : t.upstreamCompleted = s.upstreamCompleted)
    (hl : ∀ error, .onError error ∈ t.log → .onError error ∈ s.log) : s.Works t where
  arrived := ha
  upstream := hu
  begun := hb
  tasks := ⟨[], by rw [ht, List.append_nil], nofun, nofun⟩
  stopped := hs
  stopAction := hsa.trans
  completed h := .inl (hc.symm.trans h)
  upstreamCompleted := huc
  failed := hl

/-- A session finishes when its upstream has completed. -/
theorem works_finish (hu : s.upstreamCompleted = true) : s.Works s.finish := by
  unfold Session.finish
  split_ifs
  · exact .refl s
  · exact { Works.refl s with
      stopAction := fun _ => rfl
      completed := fun _ => .inr ⟨rfl, hu⟩
      failed := fun error he => by simpa [emit] using he }

theorem works_maybeComplete (s : Session) : s.Works s.maybeComplete := by
  unfold Session.maybeComplete
  split_ifs with h
  · exact .refl s
  · simp only [not_or, Bool.not_eq_false] at h
    exact works_finish h.2.1

theorem works_startJob (s : Session) (job : Job) : s.Works (s.startJob job) where
  arrived := rfl
  upstream := rfl
  begun := rfl
  tasks := ⟨[.startInLoop s.identifiers.length], rfl, by simp, by simp⟩
  stopped := rfl
  stopAction h := h
  completed := .inl
  upstreamCompleted := rfl
  failed error he := by simpa [startJob, emit, queueInLoop] using he

theorem works_startJobs (pending : List Job) (s : Session) : s.Works (startJobs o pending s) := by
  induction pending generalizing s with
  | nil => exact Works.of_eq rfl rfl rfl rfl rfl rfl rfl rfl fun _ => id
  | cons job rest ih =>
    rw [startJobs]
    split_ifs
    · exact (works_startJob s job).trans (ih _)
    · exact Works.of_eq rfl rfl rfl rfl rfl rfl rfl rfl fun _ => id

theorem works_fill (s : Session) : s.Works (s.fill o) := by
  unfold Session.fill
  split_ifs
  · exact .refl s
  · exact (works_startJobs s.pending s).trans (works_maybeComplete _)

theorem works_enqueue (s : Session) (candidate : OpenPort) : s.Works (s.enqueue o candidate) := by
  unfold Session.enqueue
  split_ifs
  · exact .refl s
  · have hp : s.Works { s with pending := s.pending ++ jobs o candidate } :=
      .of_eq rfl rfl rfl rfl rfl rfl rfl rfl fun _ => id
    exact hp.trans (works_fill _)

theorem works_oneFinished (s : Session) (n : ℕ) (thing : Option ModbusThing) :
    s.Works (s.oneFinished o n thing) := by
  unfold Session.oneFinished
  refine Works.trans ?_ (works_fill _)
  cases thing with
  | none => exact Works.of_eq rfl rfl rfl rfl rfl rfl rfl rfl fun _ => id
  | some thing =>
    dsimp only
    split_ifs
    · exact .of_eq rfl rfl rfl rfl rfl rfl rfl rfl fun _ => id
    · exact .of_eq rfl rfl rfl rfl rfl rfl rfl rfl fun error he => by simpa [emit] using he

theorem works_exchangeFinished (s : Session) (n : ℕ) (response : Option Bytes) :
    s.Works (s.exchangeFinished o n response) := by
  unfold Session.exchangeFinished
  split
  · exact .refl s
  · dsimp only
    split
    · exact { Works.refl s with tasks := ⟨[.startInLoop n], rfl, by simp, by simp⟩ }
    · refine Works.trans ?_ (works_oneFinished _ n _)
      exact .of_eq rfl rfl rfl rfl rfl rfl rfl rfl fun error he => by simpa [emit] using he
    · exact Works.of_eq rfl rfl rfl rfl rfl rfl rfl rfl fun _ => id

theorem works_startInLoop (s : Session) (n : ℕ) (created : Bool) :
    s.Works (s.startInLoop o n created) := by
  unfold Session.startInLoop
  split
  · exact .refl s
  · split
    · exact .refl s
    · split_ifs
      · exact Works.of_eq rfl rfl rfl rfl rfl rfl rfl rfl fun _ => id
      · exact works_exchangeFinished s n none

/-- A stop is executed once; it ends the session or leaves that to the upstream. -/
theorem works_stop (s : Session) : ({ s with stopped := true } : Session).Works (s.stop o []) := by
  cases hs : s.stopped with
  | true =>
    rw [Session.stop, if_pos hs]
    exact .of_eq rfl rfl rfl rfl hs rfl rfl rfl fun _ => id
  | false =>
    have hb : ({ s with stopped := true } : Session).Works (s.breakOff .stopped) := by
      rw [Session.breakOff, cancelAll_eq]
      exact {
        arrived := rfl
        upstream := rfl
        begun := rfl
        tasks := ⟨s.active.map .cancelled, rfl, by simp, by simp⟩
        stopped := rfl
        stopAction := fun h => h
        completed := fun h => .inl (by simpa [Effect.terminal] using h)
        upstreamCompleted := rfl
        failed := fun error he => by simpa using he }
    rw [stop_eq hs, List.foldl_nil]
    split_ifs
    · exact hb.trans (works_maybeComplete _)
    · exact hb

/-- The first callback ends a session stopped before, and subscribes else. -/
theorem begin_eq (s : Session) : s.begin o [] =
    if s.stopped then { s with upstreamCompleted := true }.finish
    else { s with subscription := true, upstream := .active } := rfl

/-! ### The steps of a session whose upstream does not fail -/

/-- A callback of the loop other than the first one. -/
theorem run_works {task : Task} {rest : List Task} (ht : s.tasks = task :: rest)
    (hne : task ≠ .begin) (created : Bool) :
    ({ s with tasks := rest, stopped := s.stopped || decide (task = .stop) } : Session).Works
      (step o s (.run [] created)) := by
  unfold step
  rw [ht]
  cases task with
  | begin => exact absurd rfl hne
  | stop =>
    simp only [decide_true, Bool.or_true]
    exact works_stop (o := o) { s with tasks := rest }
  | startInLoop n =>
    simp only [reduceCtorEq, decide_false, Bool.or_false]
    exact works_startInLoop _ n created
  | cancelled n =>
    simp only [reduceCtorEq, decide_false, Bool.or_false]
    exact works_exchangeFinished _ n none

/-- The first callback of a session that is not stopped. -/
theorem run_begin {rest : List Task} (ht : s.tasks = .begin :: rest) (hs : s.stopped = false)
    (created : Bool) : step o s (.run [] created) =
      { s with tasks := rest, subscription := true, upstream := .active } := by
  unfold step
  rw [ht]
  dsimp only
  rw [begin_eq, if_neg (by simp [hs])]

/-- The first callback of a session that was stopped before. -/
theorem run_begin_stopped {rest : List Task} (ht : s.tasks = .begin :: rest)
    (hs : s.stopped = true) (created : Bool) :
    ({ s with tasks := rest, upstreamCompleted := true } : Session).Works
      (step o s (.run [] created)) := by
  unfold step
  rw [ht]
  dsimp only
  rw [begin_eq, if_pos hs]
  exact works_finish rfl

theorem exchange_works (s : Session) (n : ℕ) (response : Option Bytes) :
    s.Works (step o s (.exchangeFinished n response)) :=
  step_exchangeFinished_keeps (P := s.Works) (.refl s) (works_exchangeFinished s n response)

theorem next_works (hup : s.upstream = .active) (port : OpenPort) :
    ({ s with arrived := s.arrived ++ [port] } : Session).Works
      (step o s (.upstream (.next port))) := by
  have heq : step o s (.upstream (.next port)) =
      ({ s with arrived := s.arrived ++ [port] } : Session).enqueue o port := by
    rw [step, report, if_neg (by simp [hup])]
  rw [heq]
  exact works_enqueue _ port

theorem completed_works (hup : s.upstream = .active) :
    ({ s with upstream := .ended, upstreamCompleted := true } : Session).Works
      (step o s (.upstream .completed)) := by
  have heq : step o s (.upstream .completed) =
      ({ s with upstream := .ended, upstreamCompleted := true } : Session).maybeComplete := by
    rw [step, report, if_neg (by simp [hup])]
    rfl
  rw [heq]
  exact works_maybeComplete _

/-! ### What is left of a stop -/

/-- A callback of the loop, of whatever kind, after what it takes from the queue. -/
theorem run_pops {task : Task} {rest : List Task} (ht : s.tasks = task :: rest) (created : Bool) :
    ∃ u : Session, u.tasks = rest ∧ u.begun = s.begun ∧
      u.stopped = (s.stopped || decide (task = .stop)) ∧ u.stopAction = s.stopAction ∧
      u.completed = s.completed ∧ u.Works (step o s (.run [] created)) := by
  by_cases hbegin : task = .begin
  · subst hbegin
    cases hs : s.stopped with
    | false =>
      rw [run_begin ht hs]
      exact ⟨{ s with tasks := rest, subscription := true, upstream := .active },
        rfl, rfl, hs, rfl, rfl, .refl _⟩
    | true =>
      exact ⟨{ s with tasks := rest, upstreamCompleted := true }, rfl, rfl, hs, rfl, rfl,
        run_begin_stopped ht hs created⟩
  · exact ⟨{ s with tasks := rest, stopped := s.stopped || decide (task = .stop) },
      rfl, rfl, rfl, rfl, rfl, run_works ht hbegin created⟩

/-- The session was stopped, is about to, or takes no stop any more. -/
def Asked (s : Session) : Prop := s.stopped = true ∨ .stop ∈ s.tasks ∨ s.stopAction = false

/-- Behind its first `k` callbacks, the session neither starts nor stops its upstream. -/
structure Spent (s : Session) (k : ℕ) : Prop where
  begun : s.begun = true
  begins : .begin ∉ s.tasks.drop k
  stops : s.stopped = true ∨ .stop ∈ s.tasks.take k ∨
    s.stopAction = false ∧ .stop ∉ s.tasks.drop k

theorem Asked.works (h : s.Asked) (hw : s.Works t) : t.Asked := by
  obtain ⟨new, ht, -, -⟩ := hw.tasks
  rcases h with h | h | h
  · exact .inl (hw.stopped.trans h)
  · exact .inr (.inl (ht ▸ List.mem_append_left _ h))
  · exact .inr (.inr (hw.stopAction h))

theorem Asked.run (h : s.Asked) (ht : s.tasks ≠ []) (created : Bool) :
    (step o s (.run [] created)).Asked := by
  obtain ⟨task, rest, htasks⟩ := List.exists_cons_of_ne_nil ht
  obtain ⟨u, hrest, -, hstopped, haction, -, hw⟩ := run_pops (o := o) htasks created
  rcases h with h | h | h
  · exact .inl (hw.stopped.trans (by simp [hstopped, h]))
  · rw [htasks] at h
    rcases List.mem_cons.1 h with rfl | h
    · exact .inl (hw.stopped.trans (by simp [hstopped]))
    · exact Asked.works (.inr (.inl (hrest ▸ h))) hw
  · exact .inr (.inr (hw.stopAction (haction.trans h)))

/-- Once all its callbacks so far have run, a session asked to stop is spent. -/
theorem Asked.spent (h : s.Asked) (hb : s.begun = true) : s.Spent s.tasks.length where
  begun := hb
  begins := by simp
  stops := by simpa [Asked] using h

/-- Work adds neither a start nor a stop. -/
theorem Works.not_mem_drop (hw : s.Works t) {task : Task} (htask : task = .begin ∨ task = .stop)
    {k : ℕ} (hs : task ∉ s.tasks.drop k) : task ∉ t.tasks.drop k := by
  obtain ⟨new, ht, hbegin, hstop⟩ := hw.tasks
  rw [ht, List.drop_append]
  refine List.not_mem_append hs fun hm => ?_
  have hnew := List.mem_of_mem_drop hm
  rcases htask with rfl | rfl
  · exact hbegin hnew
  · exact hstop hnew

theorem Spent.works {k : ℕ} (h : s.Spent k) (hw : s.Works t) : t.Spent k := by
  refine ⟨hw.begun.trans h.begun, hw.not_mem_drop (.inl rfl) h.begins, ?_⟩
  rcases h.stops with h | h | ⟨h, hnot⟩
  · exact .inl (hw.stopped.trans h)
  · obtain ⟨new, ht, -, -⟩ := hw.tasks
    refine .inr (.inl ?_)
    rw [ht, List.take_append]
    exact List.mem_append_left _ h
  · exact .inr (.inr ⟨hw.stopAction h, hw.not_mem_drop (.inr rfl) hnot⟩)

/-- One of the callbacks runs. -/
theorem Spent.run {k : ℕ} (h : s.Spent k) (ht : s.tasks ≠ []) (created : Bool) :
    (step o s (.run [] created)).Spent k.pred := by
  obtain ⟨task, rest, htasks⟩ := List.exists_cons_of_ne_nil ht
  obtain ⟨u, hrest, hbegun, hstopped, haction, -, hw⟩ := run_pops (o := o) htasks created
  have hdrop {task' : Task} (hs : task' ∉ s.tasks.drop k) : task' ∉ u.tasks.drop k.pred := by
    rw [hrest]
    cases k with
    | zero =>
      rw [List.drop_zero, htasks] at hs
      exact fun hm => hs (List.mem_cons_of_mem _ hm)
    | succ k => rwa [htasks, List.drop_succ_cons] at hs
  have hu (hstops : u.stopped = true ∨ .stop ∈ u.tasks.take k.pred ∨
      u.stopAction = false ∧ .stop ∉ u.tasks.drop k.pred) : u.Spent k.pred :=
    ⟨hbegun.trans h.begun, hdrop h.begins, hstops⟩
  rcases h.stops with hs | hs | ⟨hs, hnot⟩
  · exact (hu (.inl (by simp [hstopped, hs]))).works hw
  · cases k with
    | zero => cases hs
    | succ k =>
      rw [htasks, List.take_succ_cons] at hs
      rcases List.mem_cons.1 hs with rfl | hs
      · exact ⟨hw.begun.trans (hbegun.trans h.begun),
          hw.not_mem_drop (.inl rfl) (hdrop h.begins), .inl (hw.stopped.trans (by simp [hstopped]))⟩
      · exact (hu (.inr (.inl (by rwa [hrest])))).works hw
  · exact (hu (.inr (.inr ⟨haction.trans hs, hdrop hnot⟩))).works hw

end Session

end Neubau.Modbus.Discovery
