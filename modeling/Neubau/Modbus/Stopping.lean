import Neubau.Modbus.Pool

/-! What a stop of the discovery does. A stop that finds the upstream still
running leaves its end to the upstream's completion; one that finds nothing
active ends the session itself. A stop that comes after the upstream has
completed and cancels identifications leaves nobody to end the session: the
cancelled identifiers call nobody, and the session hangs for good. -/

namespace Neubau.Modbus.Discovery

open Neubau.Common Neubau.Transition

variable {o : Options}

namespace Session

/-- `on_completed` was delivered and the session has let go of everything. -/
structure Ended (s : Session) : Prop where
  delivered : .onCompleted ∈ s.log
  running : s.running = false
  keepAlive : s.keepAlive = false

/-- Once a stop was executed, the upstream has completed and the loop has run
what was queued, the session has ended. -/
def StopEnds (s : Session) : Prop :=
  .stopped ∈ s.log → s.upstreamCompleted = true → s.tasks = [] → s.Ended

/-- A stop is not executed after the upstream has completed, as long as
identifications are active. -/
def StopsInTime (s : Session) : Event → Prop
  | .run _ _ => s.tasks.head? = some .stop → s.upstreamCompleted = true → s.active = []
  | _ => True

/-- The flags of a session that a stop cannot leave hanging. -/
structure Settled (s : Session) : Prop where
  quit : s.stopped = true → s.upstreamCompleted = true → s.completed = true
  released : s.completed = true → s.running = false ∧ s.keepAlive = false
  delivered : s.completed = true → s.upstreamCompleted = true → .onCompleted ∈ s.log

theorem Settled.finish {s : Session} (h : s.completed = true → s.Settled) : s.finish.Settled := by
  unfold Session.finish
  split_ifs with hc
  · exact h hc
  · exact ⟨fun _ _ => rfl, fun _ => ⟨rfl, rfl⟩, fun _ _ => by simp [emit]⟩

theorem Settled.maybeComplete {s : Session} (h : s.Settled) : s.maybeComplete.Settled := by
  unfold Session.maybeComplete
  split_ifs
  · exact h
  · exact .finish fun _ => h

/-- Starting jobs leaves the flags and only adds to the log. -/
theorem startJobs_frame (pending : List Job) (s : Session) :
    (startJobs o pending s).stopped = s.stopped ∧
      (startJobs o pending s).upstreamCompleted = s.upstreamCompleted ∧
      (startJobs o pending s).completed = s.completed ∧
      (startJobs o pending s).running = s.running ∧
      (startJobs o pending s).keepAlive = s.keepAlive ∧
      s.log ⊆ (startJobs o pending s).log := by
  induction pending generalizing s with
  | nil => simp [startJobs]
  | cons job rest ih =>
    rw [startJobs]
    split_ifs
    · obtain ⟨h₁, h₂, h₃, h₄, h₅, h₆⟩ := ih (s.startJob job)
      exact ⟨h₁, h₂, h₃, h₄, h₅, fun e he => h₆ (List.mem_append_left _ he)⟩
    · simp

theorem Settled.startJobs {s : Session} (h : s.Settled) (pending : List Job) :
    (startJobs o pending s).Settled := by
  obtain ⟨h₁, h₂, h₃, h₄, h₅, h₆⟩ := startJobs_frame (o := o) pending s
  refine ⟨?_, ?_, ?_⟩ <;> rw [h₃]
  · rw [h₁, h₂]
    exact h.quit
  · rw [h₄, h₅]
    exact h.released
  · rw [h₂]
    exact fun hc hu => h₆ (h.delivered hc hu)

theorem Settled.fill {s : Session} (h : s.Settled) : (s.fill o).Settled := by
  unfold Session.fill
  split_ifs
  · exact h
  · exact (h.startJobs _).maybeComplete

theorem Settled.emit {s : Session} (h : s.Settled) (e : Effect) : (s.emit e).Settled :=
  ⟨h.quit, h.released, fun hc hu => List.mem_append_left _ (h.delivered hc hu)⟩

theorem Settled.enqueue {s : Session} (h : s.Settled) (candidate : OpenPort) :
    (s.enqueue o candidate).Settled := by
  unfold Session.enqueue
  split_ifs
  · exact h
  · exact Settled.fill ⟨h.quit, h.released, h.delivered⟩

theorem Settled.oneFinished {s : Session} (h : s.Settled) (n : ℕ) (thing : Option ModbusThing) :
    (s.oneFinished o n thing).Settled := by
  have he : Settled { s with active := s.active.erase n } := ⟨h.quit, h.released, h.delivered⟩
  unfold Session.oneFinished
  apply Settled.fill
  cases thing with
  | none => exact he
  | some thing =>
    dsimp only
    split_ifs
    · exact he
    · exact he.emit _

/-- The last of the upstream: what is left to do belongs to a session not stopped. -/
theorem settled_onUpstreamCompleted {s : Session} (hs : s.Sound o)
    (hup : s.upstream = .active) :
    Settled { s with upstream := .ended }.onUpstreamCompleted := by
  have hc : s.completed = false := by
    cases hc : s.completed with
    | true => exact absurd hup (hs.closed hc).2.2
    | false => rfl
  by_cases hleft : s.pending = [] ∧ s.active = []
  · rw [Session.onUpstreamCompleted, Session.maybeComplete, if_neg (by simp [hc, hleft])]
    exact .finish fun hc' => absurd (hc.symm.trans hc') Bool.false_ne_true
  · rw [Session.onUpstreamCompleted, Session.maybeComplete,
      if_pos (by simpa [hc, Classical.or_iff_not_imp_left] using hleft)]
    exact ⟨fun hstop _ => absurd (hs.halted hstop) hleft,
      fun hc' => absurd (hc.symm.trans hc') Bool.false_ne_true,
      fun hc' => absurd (hc.symm.trans hc') Bool.false_ne_true⟩

theorem Settled.fail {s : Session} (h : s.Settled) (hup : s.upstreamCompleted = false)
    (error : Exception) : (s.fail error).Settled := by
  cases hc : s.completed with
  | true => rwa [Session.fail, if_pos hc]
  | false =>
    rw [fail_eq hc, Session.breakOff, cancelAll_eq]
    exact ⟨fun _ _ => by simp [Effect.terminal], fun _ => ⟨rfl, rfl⟩,
      fun _ hu => absurd (hup.symm.trans hu) Bool.false_ne_true⟩

theorem Settled.report {s : Session} (h : s.Settled) (hs : s.Sound o) (e : Upstream) :
    (s.report o e).Settled := by
  unfold Session.report
  split_ifs with hup
  · exact h
  · rw [ne_eq, not_not] at hup
    cases e with
    | next candidate =>
      exact Settled.enqueue (s := { s with arrived := s.arrived ++ [candidate] })
        ⟨h.quit, h.released, h.delivered⟩ candidate
    | failed error =>
      refine Settled.fail (s := { s with upstream := .ended })
        ⟨h.quit, h.released, h.delivered⟩ ?_ error
      cases hu : s.upstreamCompleted with
      | true => exact absurd hup (hs.upstreamEnded hu)
      | false => rfl
    | completed => exact settled_onUpstreamCompleted hs hup

theorem Settled.reports {s : Session} (h : s.Settled) (hs : s.Sound o) (es : List Upstream) :
    (es.foldl (Session.report o) s).Settled := by
  induction es generalizing s with
  | nil => exact h
  | cons e es ih => exact ih (h.report hs e) (hs.report e)

theorem report_inactive {s : Session} (hup : s.upstream ≠ .active) (e : Upstream) :
    s.report o e = s := if_pos hup

theorem reports_inactive {s : Session} (hup : s.upstream ≠ .active) (es : List Upstream) :
    es.foldl (Session.report o) s = s := by
  induction es with
  | nil => rfl
  | cons e es ih => rw [List.foldl_cons, report_inactive hup, ih]

theorem Settled.exchangeFinished {s : Session} (h : s.Settled) (n : ℕ)
    (response : Option Bytes) : (s.exchangeFinished o n response).Settled := by
  unfold Session.exchangeFinished
  split
  · exact h
  · dsimp only
    split
    · exact ⟨h.quit, h.released, h.delivered⟩
    · refine Settled.oneFinished (Settled.emit ?_ _) _ _
      exact ⟨h.quit, h.released, h.delivered⟩
    · exact ⟨h.quit, h.released, h.delivered⟩

theorem Settled.startInLoop {s : Session} (h : s.Settled) (n : ℕ) (created : Bool) :
    (s.startInLoop o n created).Settled := by
  unfold Session.startInLoop
  split
  · exact h
  · split
    · exact h
    · split_ifs
      · exact ⟨h.quit, h.released, h.delivered⟩
      · exact h.exchangeFinished n none

theorem Settled.begin {s : Session} {rest : List Task} (h : s.Settled) (hs : s.Sound o)
    (ht : s.tasks = .begin :: rest) (es : List Upstream) :
    (({ s with tasks := rest } : Session).begin o es).Settled := by
  obtain ⟨-, -, -, hc, -⟩ := hs.first ht
  unfold Session.begin
  dsimp only
  split_ifs
  · exact .finish fun hc' => absurd (hc.symm.trans hc') Bool.false_ne_true
  · exact Settled.reports (s := { s with tasks := rest, subscription := true, upstream := .active })
      ⟨h.quit, h.released, h.delivered⟩ (hs.subscribe ht) es

/-- What a stop does to a session that is not stopped. -/
theorem breakOff_stopped (s : Session) :
    (s.breakOff .stopped).stopped = true ∧ (s.breakOff .stopped).pending = [] ∧
      (s.breakOff .stopped).active = [] ∧ (s.breakOff .stopped).completed = s.completed ∧
      (s.breakOff .stopped).upstreamCompleted = s.upstreamCompleted ∧
      (s.breakOff .stopped).upstream = s.upstream ∧
      (s.breakOff .stopped).running = s.running ∧
      (s.breakOff .stopped).keepAlive = s.keepAlive ∧
      (s.breakOff .stopped).log = s.log ++ [.stopped] := by
  simp [breakOff, cancelAll_eq, Effect.terminal]

/-- A stop in time leaves a session that the end of the upstream will end. -/
theorem Settled.stop {s : Session} (h : s.Settled) (hs : s.Sound o)
    (hin : s.upstreamCompleted = true → s.active = []) (es : List Upstream) :
    (s.stop o es).Settled := by
  cases hstop : s.stopped with
  | true => rwa [Session.stop, if_pos hstop]
  | false =>
    have hsound := hs.breakOff_stopped
    obtain ⟨h₁, h₂, h₃, h₄, h₅, h₆, h₇, h₈, h₉⟩ := breakOff_stopped s
    rw [stop_eq hstop]
    cases hu : s.upstreamCompleted with
    | false =>
      have hb : (s.breakOff .stopped).Settled := by
        refine ⟨fun _ hu' => ?_, ?_, fun _ hu' => ?_⟩
        · simp [h₅, hu] at hu'
        · rw [h₄, h₇, h₈]
          exact h.released
        · simp [h₅, hu] at hu'
      split_ifs
      · exact (hb.reports hsound es).maybeComplete
      · exact hb.reports hsound es
    | true =>
      rw [if_pos (hin hu), reports_inactive (hsound.upstreamEnded (h₅.trans hu))]
      cases hc : s.completed with
      | true =>
        rw [Session.maybeComplete, if_pos (.inl (h₄.trans hc))]
        refine ⟨fun _ _ => h₄.trans hc, fun _ => ?_, fun _ _ => ?_⟩
        · rw [h₇, h₈]
          exact h.released hc
        · rw [h₉]
          exact List.mem_append_left _ (h.delivered hc hu)
      | false =>
        rw [Session.maybeComplete, if_neg (by simp [h₂, h₃, h₄, h₅, hc, hu])]
        exact .finish fun hc' => by simp [h₄, hc] at hc'

end Session

theorem step_settled {s : Session} (h : s.Settled) (hs : s.Sound o) {e : Event}
    (he : s.StopsInTime e) : (step o s e).Settled := by
  cases e with
  | start =>
    unfold step
    dsimp only
    split_ifs
    · exact h
    · exact ⟨h.quit, h.released, h.delivered⟩
  | requestStop =>
    unfold step
    dsimp only
    split_ifs
    · exact ⟨h.quit, h.released, h.delivered⟩
    · exact h
  | run reports created =>
    unfold step
    dsimp only
    split
    · exact h
    · rename_i task rest ht
      have hr : Session.Settled { s with tasks := rest } := ⟨h.quit, h.released, h.delivered⟩
      cases task with
      | begin => exact h.begin hs ht reports
      | stop =>
        exact hr.stop (hs.tasks (by rw [ht, List.count_cons]; omega)) (he (by rw [ht]; rfl)) reports
      | startInLoop n => exact hr.startInLoop n created
      | cancelled n => exact hr.exchangeFinished n none
  | upstream e => exact h.report hs e
  | exchangeFinished n response => exact step_exchangeFinished_keeps h (h.exchangeFinished n response)

/-- The scans in which every stop comes in time. -/
def timelyMachine (o : Options) : Machine Session Event := (machine o).restrict Session.StopsInTime

theorem timelyMachine_settled (o : Options) :
    (timelyMachine o).Invariant fun s => s.Settled ∧ s.Sound o where
  init s hs := by
    obtain rfl : s = {} := hs
    exact ⟨⟨nofun, nofun, nofun⟩, .init⟩
  next _ e h he := ⟨step_settled h.1 h.2 he.2, step_sound h.2 e⟩

theorem Session.Settled.stopEnds {s : Session} (h : s.Settled) (hs : s.Sound o) : s.StopEnds := by
  intro hstop hup _
  have hstopped : s.stopped = true := hs.broken.trans (List.any_eq_true.2 ⟨_, hstop, rfl⟩)
  have hc := h.quit hstopped hup
  exact ⟨h.delivered hc hup, (h.released hc).1, (h.released hc).2⟩

/-! ### A stop that comes late -/

/-- A session stopped after its upstream completed and not completed itself. -/
structure Session.Hung (o : Options) (s : Session) : Prop where
  sound : s.Sound o
  stopped : s.stopped = true
  upstreamCompleted : s.upstreamCompleted = true
  completed : s.completed = false

theorem Session.Hung.begun {s : Session} (h : s.Hung o) : .begin ∉ s.tasks ∧ s.begun = true :=
  h.sound.begun_of_upstreamCompleted h.upstreamCompleted

/-- Every identifier of a hung session is finished and calls nobody. -/
theorem Session.Hung.exchangeFinished {s : Session} (h : s.Hung o) (n : ℕ)
    (response : Option Bytes) :
    ∃ is, s.exchangeFinished o n response = { s with identifiers := is } := by
  unfold Session.exchangeFinished
  split
  · exact ⟨s.identifiers, rfl⟩
  · rename_i i hi
    have hn : n ∉ s.active := by simp [(h.sound.halted h.stopped).2]
    have hquiet := Identifier.exchangeFinished_of_finished (h.sound.finished n hn i hi) response
    dsimp only
    rw [hquiet.1]
    exact ⟨_, rfl⟩

theorem Session.Hung.startInLoop {s : Session} (h : s.Hung o) (n : ℕ) (created : Bool) :
    ∃ is, s.startInLoop o n created = { s with identifiers := is } := by
  unfold Session.startInLoop
  split
  · exact ⟨s.identifiers, rfl⟩
  · split
    · exact ⟨s.identifiers, rfl⟩
    · split_ifs
      · exact ⟨_, rfl⟩
      · exact h.exchangeFinished n none

/-- A task of the loop does nothing for a hung session. -/
theorem Session.Hung.run {s : Session} (h : s.Hung o) {task : Task} {rest : List Task}
    (ht : s.tasks = task :: rest) (reports : List Upstream) (created : Bool) :
    ∃ is, step o s (.run reports created) = { s with tasks := rest, identifiers := is } := by
  have hr : Session.Hung o { s with tasks := rest } :=
    ⟨h.sound.tasks (by rw [ht, List.count_cons]; omega), h.stopped, h.upstreamCompleted,
      h.completed⟩
  unfold step
  dsimp only
  rw [ht]
  cases task with
  | begin => exact absurd (by simp [ht]) h.begun.1
  | stop => exact ⟨s.identifiers, if_pos h.stopped⟩
  | startInLoop n => exact hr.startInLoop n created
  | cancelled n => exact hr.exchangeFinished n none

theorem Session.Hung.step {s : Session} (h : s.Hung o) (e : Event) : (step o s e).Hung o := by
  have hs := step_sound h.sound e
  have hup : s.upstream ≠ .active := h.sound.upstreamEnded h.upstreamCompleted
  cases e with
  | start =>
    rw [Discovery.step, if_pos h.begun.2]
    exact h
  | requestStop =>
    refine ⟨hs, ?_, ?_, ?_⟩ <;> unfold Discovery.step <;> dsimp only <;> split_ifs
    · exact h.stopped
    · exact h.stopped
    · exact h.upstreamCompleted
    · exact h.upstreamCompleted
    · exact h.completed
    · exact h.completed
  | run reports created =>
    cases ht : s.tasks with
    | nil =>
      rw [Discovery.step, ht]
      exact h
    | cons task rest =>
      obtain ⟨is, heq⟩ := h.run ht reports created
      rw [heq] at hs ⊢
      exact ⟨hs, h.stopped, h.upstreamCompleted, h.completed⟩
  | upstream e =>
    rw [Discovery.step, Session.report_inactive hup]
    exact h
  | exchangeFinished n response =>
    obtain ⟨is, heq⟩ := h.exchangeFinished n response
    have hfinished := h.sound.exchangeFinished n response
    refine step_exchangeFinished_keeps h ?_
    rw [heq] at hfinished ⊢
    exact ⟨hfinished, h.stopped, h.upstreamCompleted, h.completed⟩

/-- The loop runs what is queued, and the session still hangs. -/
theorem Session.Hung.drain {s : Session} (h : s.Hung o) :
    ∃ es t, (machine o).Run s es t ∧ t.Hung o ∧ t.tasks = [] := by
  induction ht : s.tasks generalizing s with
  | nil => exact ⟨[], s, .nil s, h, ht⟩
  | cons task rest ih =>
    obtain ⟨is, heq⟩ := h.run ht [] true
    have hnext := h.step (.run [] true)
    obtain ⟨es, t, hrun, htt⟩ := ih hnext (by rw [heq])
    exact ⟨Event.run [] true :: es, t, .cons trivial hrun, htt⟩

theorem Session.Hung.not_ended {s : Session} (h : s.Hung o) : .onCompleted ∉ s.log := by
  intro hm
  have hany := h.sound.ended.trans (List.any_eq_true.2 ⟨_, hm, rfl⟩)
  exact absurd (h.completed.symm.trans hany) Bool.false_ne_true

theorem Session.Hung.stopped_mem {s : Session} (h : s.Hung o) : .stopped ∈ s.log := by
  obtain ⟨e, he, hb⟩ := List.any_eq_true.1 (h.sound.broken.symm.trans h.stopped)
  cases e with
  | stopped => exact he
  | onError error =>
    have hany := h.sound.ended.trans (List.any_eq_true.2 ⟨_, he, rfl⟩)
    exact absurd (h.completed.symm.trans hany) Bool.false_ne_true
  | _ => cases hb

/-- A late stop hangs the session. -/
theorem hung_of_late {s : Session} (hs : s.Sound o) {e : Event} (he : ¬s.StopsInTime e) :
    (step o s e).Hung o := by
  cases e with
  | run reports created =>
    obtain ⟨ht, hu, ha⟩ : s.tasks.head? = some .stop ∧ s.upstreamCompleted = true ∧
        s.active ≠ [] := by simpa [Session.StopsInTime] using he
    obtain ⟨n, hn⟩ := List.exists_mem_of_ne_nil _ ha
    obtain ⟨hstop, hc⟩ := hs.running hn
    obtain ⟨rest, ht⟩ := List.head?_eq_some_iff.1 ht
    have hsound := step_sound hs (.run reports created)
    have heq : step o s (.run reports created) =
        ({ s with tasks := rest } : Session).stop o reports := by
      unfold step
      dsimp only
      rw [ht]
    obtain ⟨h₁, -, -, h₄, h₅, h₆, -⟩ := Session.breakOff_stopped { s with tasks := rest }
    rw [Session.stop_eq (by exact hstop), if_neg (by exact ha), Session.reports_inactive] at heq
    · rw [heq] at hsound ⊢
      exact ⟨hsound, h₁, h₅.trans hu, h₄.trans hc⟩
    · rw [h₆]
      exact hs.upstreamEnded hu
  | _ => exact absurd trivial he

/-- A stop ends the session as long as it comes in time; after a stop that
comes late the session never completes. -/
theorem stop_ends_iff_timely (o : Options) :
    (∀ s, (timelyMachine o).Reachable s → s.StopEnds) ∧
    ∀ s e, (machine o).Reachable s → ¬s.StopsInTime e →
      (∃ es t, (machine o).Run (step o s e) es t ∧ ¬t.StopEnds) ∧
      ∀ es t, (machine o).Run (step o s e) es t → .onCompleted ∉ t.log := by
  refine ⟨fun s hs => ?_, fun s e hs he => ?_⟩
  · have h := (timelyMachine_settled o).reachable hs
    exact h.1.stopEnds h.2
  · have h := hung_of_late ((machine_sound o).reachable hs) he
    refine ⟨?_, fun es t hrun => (hrun.keeps (fun _ e h _ => h.step e) h).not_ended⟩
    obtain ⟨es, t, hrun, ht, htasks⟩ := h.drain
    exact ⟨es, t, hrun, fun hends =>
      ht.not_ended (hends ht.stopped_mem ht.upstreamCompleted htasks).delivered⟩

/-- The port scan reports one port and completes, then the discovery is stopped
while the unit is being identified. -/
theorem late_stop_never_ends :
    let o : Options := ⟨[7], 1, by decide, by decide⟩
    let s := [Event.start, .run [.next ⟨ascii "10.0.0.2", 502⟩, .completed] true, .requestStop,
      .run [] true, .run [] true, .run [] true].foldl (step o) {}
    (machine o).Reachable s ∧ ¬s.StopEnds := by
  intro o s
  refine ⟨.foldl (fun _ _ => trivial) (.init rfl) _, fun h => ?_⟩
  exact absurd (h (by decide) (by decide) (by decide)).delivered (by decide)

end Neubau.Modbus.Discovery
