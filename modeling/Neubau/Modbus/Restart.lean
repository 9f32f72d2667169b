import Neubau.Modbus.Pool

/-! A discovery that is started again while its scan is in progress. The further
scan is rejected: its observer gets an error from a callback queued on the loop,
and `start` forwards the calls of every scan's observer into the one subject
behind `candidates()`. A subject is silent after its first terminal event. So a
rejection that runs before the scan has ended takes the scan's place for good. -/

namespace Neubau.Modbus.Discovery

open Neubau.Common Neubau.Transition

variable {o : Options}

/-! ### A session only adds to its log -/

namespace Session

variable {s : Session}

theorem finish_log (s : Session) : s.log <+: s.finish.log := by
  unfold finish
  split_ifs
  · exact List.prefix_rfl
  · exact List.prefix_append _ _

theorem maybeComplete_log (s : Session) : s.log <+: s.maybeComplete.log := by
  unfold maybeComplete
  split_ifs
  · exact List.prefix_rfl
  · exact s.finish_log

theorem startJobs_log (pending : List Job) (s : Session) :
    s.log <+: (startJobs o pending s).log := by
  induction pending generalizing s with
  | nil => exact List.prefix_rfl
  | cons job rest ih =>
    rw [startJobs]
    split_ifs
    · exact (List.prefix_append _ _).trans (ih (s.startJob job))
    · exact List.prefix_rfl

theorem fill_log (s : Session) : s.log <+: (s.fill o).log := by
  unfold fill
  split_ifs
  · exact List.prefix_rfl
  · exact (startJobs_log _ s).trans (maybeComplete_log _)

theorem enqueue_log (s : Session) (candidate : OpenPort) :
    s.log <+: (s.enqueue o candidate).log := by
  unfold enqueue
  split_ifs
  · exact List.prefix_rfl
  · exact fill_log { s with pending := s.pending ++ jobs o candidate }

theorem oneFinished_log (s : Session) (n : ℕ) (thing : Option ModbusThing) :
    s.log <+: (s.oneFinished o n thing).log := by
  unfold oneFinished
  refine List.IsPrefix.trans ?_ (fill_log _)
  cases thing with
  | none => exact List.prefix_rfl
  | some thing =>
    dsimp only
    split_ifs
    · exact List.prefix_rfl
    · exact List.prefix_append _ _

theorem fail_log (s : Session) (error : Exception) : s.log <+: (s.fail error).log := by
  cases hc : s.completed with
  | true => rw [fail, if_pos hc]
  | false =>
    rw [fail_eq hc, breakOff, cancelAll_eq]
    exact List.prefix_append _ _

theorem report_log (s : Session) (e : Upstream) : s.log <+: (s.report o e).log := by
  unfold report
  split_ifs
  · exact List.prefix_rfl
  · cases e with
    | next candidate => exact enqueue_log { s with arrived := s.arrived ++ [candidate] } candidate
    | failed error => exact fail_log { s with upstream := .ended } error
    | completed => exact maybeComplete_log { s with upstream := .ended, upstreamCompleted := true }

theorem reports_log (s : Session) (es : List Upstream) :
    s.log <+: (es.foldl (report o) s).log := by
  induction es generalizing s with
  | nil => exact List.prefix_rfl
  | cons e es ih => exact (s.report_log e).trans (ih _)

theorem begin_log (s : Session) (es : List Upstream) : s.log <+: (s.begin o es).log := by
  unfold begin
  split_ifs
  · exact finish_log { s with upstreamCompleted := true }
  · exact reports_log { s with subscription := true, upstream := .active } es

theorem stop_log (s : Session) (es : List Upstream) : s.log <+: (s.stop o es).log := by
  cases hs : s.stopped with
  | true => rw [stop, if_pos hs]
  | false =>
    have hb : s.log <+: (s.breakOff .stopped).log := by
      rw [breakOff, cancelAll_eq]
      exact List.prefix_append _ _
    rw [stop_eq hs]
    split_ifs
    · exact (hb.trans (reports_log _ es)).trans (maybeComplete_log _)
    · exact hb.trans (reports_log _ es)

theorem exchangeFinished_log (s : Session) (n : ℕ) (response : Option Bytes) :
    s.log <+: (s.exchangeFinished o n response).log := by
  unfold exchangeFinished
  split
  · exact List.prefix_rfl
  · dsimp only
    split
    · exact List.prefix_rfl
    · refine List.IsPrefix.trans ?_ (oneFinished_log _ _ _)
      exact List.prefix_append _ _
    · exact List.prefix_rfl

theorem startInLoop_log (s : Session) (n : ℕ) (created : Bool) :
    s.log <+: (s.startInLoop o n created).log := by
  unfold startInLoop
  split
  · exact List.prefix_rfl
  · split
    · exact List.prefix_rfl
    · split_ifs
      · exact List.prefix_rfl
      · exact s.exchangeFinished_log n none

end Session

theorem step_log (s : Session) (e : Event) : s.log <+: (step o s e).log := by
  cases e with
  | start => unfold step; dsimp only; split_ifs <;> exact List.prefix_rfl
  | requestStop => unfold step; dsimp only; split_ifs <;> exact List.prefix_rfl
  | upstream e => exact s.report_log e
  | run reports created =>
    unfold step
    dsimp only
    split
    · exact List.prefix_rfl
    · rename_i task rest _
      cases task with
      | begin => exact Session.begin_log { s with tasks := rest } reports
      | stop => exact Session.stop_log { s with tasks := rest } reports
      | startInLoop n => exact Session.startInLoop_log { s with tasks := rest } n created
      | cancelled n => exact Session.exchangeFinished_log { s with tasks := rest } n none
  | exchangeFinished n response =>
    exact step_exchangeFinished_keeps (P := fun t => s.log <+: t.log) List.prefix_rfl
      (s.exchangeFinished_log n response)

/-! ### The subject -/

/-- Whose observer forwards a call into the subject. -/
inductive Source
  | scan
  | rejected
  deriving DecidableEq, Repr

/-- What the session calls its observer with. -/
def Effect.observed : Effect → Bool
  | .onNext _ | .onCompleted | .onError _ => true
  | _ => false

/-- The `publish_subject` of the discovery, with what its subscribers got. -/
structure Subject where
  delivered : List (Source × Effect) := []
  terminated : Bool := false
  deriving DecidableEq

def Subject.publish (p : Subject) (source : Source) (e : Effect) : Subject :=
  if p.terminated then p
  else { delivered := p.delivered ++ [(source, e)], terminated := e.terminal }

/-- The calls of the observer of the scan. -/
def Subject.publishAll (p : Subject) (es : List Effect) : Subject :=
  (es.filter Effect.observed).foldl (·.publish .scan ·) p

theorem Subject.publish_of_terminated {p : Subject} (h : p.terminated = true) (source : Source)
    (e : Effect) : p.publish source e = p := if_pos h

theorem Subject.publish_open {p : Subject} (h : p.terminated = false) (source : Source)
    (e : Effect) : p.publish source e =
      { delivered := p.delivered ++ [(source, e)], terminated := e.terminal } :=
  if_neg (by simp [h])

/-- A subject never takes back what it delivered. -/
theorem Subject.publish_extends (p : Subject) (source : Source) (e : Effect) :
    p.delivered <+: (p.publish source e).delivered := by
  unfold publish
  split_ifs
  · exact List.prefix_rfl
  · exact List.prefix_append _ _

theorem Subject.publishAll_extends (p : Subject) (es : List Effect) :
    p.delivered <+: (p.publishAll es).delivered := by
  unfold publishAll
  induction es.filter Effect.observed generalizing p with
  | nil => exact List.prefix_rfl
  | cons e es ih => exact (p.publish_extends .scan e).trans (ih _)

/-- An open subject delivers every call of an observer that is called no more
after its terminal event. -/
theorem Subject.foldl_publish {es : List Effect}
    (h : es.Pairwise fun a _ => a.terminal = false) {p : Subject} (hp : p.terminated = false) :
    es.foldl (·.publish .scan ·) p =
      { delivered := p.delivered ++ es.map ((.scan, ·)), terminated := es.any Effect.terminal } := by
  induction es generalizing p with
  | nil => simp [← hp]
  | cons e es ih =>
    obtain ⟨he, hes⟩ := List.pairwise_cons.1 h
    rw [List.foldl_cons, publish_open hp]
    cases ht : e.terminal with
    | false =>
      rw [ih hes rfl]
      simp [ht]
    | true =>
      obtain rfl : es = [] := by
        refine List.eq_nil_iff_forall_not_mem.2 fun b hb => ?_
        exact absurd (ht.symm.trans (he b hb)) (by simp)
      simp [ht]

/-! ### The discovery -/

/-- A `ModbusDiscovery` whose first `start` made the session. `rejections` are
the rejections queued on the loop, each as the number of the session's tasks
ahead of it. -/
structure ModbusDiscovery where
  session : Session := {}
  rejections : List ℕ := []
  subject : Subject := {}
  deriving DecidableEq

namespace ModbusDiscovery

def alreadyRunning : Exception := .logicError "Modbus discovery is already running"

inductive Call
  /-- `start` once more. -/
  | start
  /-- The loop runs the rejection at the front of its queue. -/
  | reject
  | scan (e : Event)
  deriving DecidableEq

/-- A further `start` comes while the scan is in progress, and the loop runs its
queue in order. -/
def Enabled (d : ModbusDiscovery) : Call → Prop
  | .start => d.session.running = true
  | .reject => d.rejections.head? = some 0
  | .scan (.run _ _) => d.rejections.head? ≠ some 0
  | .scan _ => True

instance (d : ModbusDiscovery) (c : Call) : Decidable (d.Enabled c) := by
  unfold Enabled
  split <;> infer_instance

variable (o : Options)

def next (d : ModbusDiscovery) : Call → ModbusDiscovery
  | .start => { d with rejections := d.rejections ++ [d.session.tasks.length] }
  | .reject =>
    { d with
      rejections := d.rejections.tail
      subject := d.subject.publish .rejected (.onError alreadyRunning) }
  | .scan e =>
    let session := step o d.session e
    let told := session.log.drop d.session.log.length
    let rejections := match e with
      | .run _ _ => d.rejections.map (· - 1)
      | _ => d.rejections
    { session, rejections, subject := d.subject.publishAll told }

def machine : Machine ModbusDiscovery Call where
  init d := d = {}
  enabled := Enabled
  next := next o

/-- The subscribers got what the scan told its observer, and nothing else. -/
def Undisturbed (d : ModbusDiscovery) : Prop :=
  d.subject.delivered = (d.session.log.filter Effect.observed).map (.scan, ·)

/-- No rejection runs before the scan has told its terminal event. -/
def Late (d : ModbusDiscovery) : Call → Prop
  | .reject => d.session.completed = true
  | _ => True

/-- The subject is in step with the session. -/
structure InStep (o : Options) (d : ModbusDiscovery) : Prop where
  sound : d.session.Sound o
  undisturbed : d.Undisturbed
  terminated : d.subject.terminated = d.session.completed

theorem InStep.init (o : Options) : InStep o {} := ⟨.init, rfl, rfl⟩

end ModbusDiscovery

theorem Effect.observed_of_terminal {e : Effect} (h : e.terminal = true) : e.observed = true := by
  cases e <;> simp_all [Effect.terminal, Effect.observed]

/-- Nothing that is told comes behind the end. -/
theorem observed_after {log told : List Effect} (h : (log ++ told).Pairwise Follows)
    (hlog : log.any Effect.terminal = true) : told.filter Effect.observed = [] := by
  obtain ⟨a, ha, hterminal⟩ := List.any_eq_true.1 hlog
  refine List.filter_eq_nil_iff.2 fun b hb => ?_
  rw [((List.pairwise_append.1 h).2.2 a ha b hb).1 hterminal]
  exact Bool.false_ne_true

theorem pairwise_observed {told : List Effect} (h : told.Pairwise Follows) :
    (told.filter Effect.observed).Pairwise fun a _ => a.terminal = false := by
  refine (h.filter Effect.observed).imp_of_mem fun {a b} _ hb hab => ?_
  cases ha : a.terminal with
  | false => rfl
  | true =>
    rw [hab.1 ha] at hb
    exact absurd (List.mem_filter.1 hb).2 Bool.false_ne_true

theorem any_terminal_filter (told : List Effect) :
    (told.filter Effect.observed).any Effect.terminal = told.any Effect.terminal := by
  rw [List.any_filter]
  congr 1
  funext e
  cases h : e.terminal with
  | false => simp
  | true => simp [Effect.observed_of_terminal h]

namespace ModbusDiscovery

variable {d t : ModbusDiscovery}

theorem InStep.scan (h : d.InStep o) (e : Event) : (d.next o (.scan e)).InStep o := by
  have hsound := step_sound h.sound e
  obtain ⟨told, htold⟩ := step_log (o := o) d.session e
  have hlog : (d.next o (.scan e)).session.log = d.session.log ++ told := htold.symm
  have hsubject : (d.next o (.scan e)).subject = d.subject.publishAll told := by
    show d.subject.publishAll ((step o d.session e).log.drop d.session.log.length) = _
    rw [← htold, List.drop_left]
  have horder := hsound.order
  have hended := hsound.ended
  rw [← htold] at horder hended
  rw [List.any_append] at hended
  cases hc : d.session.completed with
  | true =>
    have hend : d.session.log.any Effect.terminal = true := h.sound.ended.symm.trans hc
    have hnone := observed_after horder hend
    have hsame : d.subject.publishAll told = d.subject := by
      rw [Subject.publishAll, hnone, List.foldl_nil]
    refine ⟨hsound, ?_, ?_⟩
    · rw [Undisturbed, hsubject, hsame, hlog, List.filter_append, hnone, List.append_nil]
      exact h.undisturbed
    · rw [hsubject, hsame, h.terminated, hc]
      exact (hended.trans (by rw [hend, Bool.true_or])).symm
  | false =>
    have hend : d.session.log.any Effect.terminal = false := h.sound.ended.symm.trans hc
    have hall := Subject.foldl_publish (pairwise_observed (List.pairwise_append.1 horder).2.1)
      (h.terminated.trans hc)
    refine ⟨hsound, ?_, ?_⟩
    · rw [Undisturbed, hsubject, Subject.publishAll, hall, hlog, List.filter_append,
        List.map_append, show d.subject.delivered = _ from h.undisturbed]
    · rw [hsubject, Subject.publishAll, hall, any_terminal_filter]
      exact (hended.trans (by rw [hend, Bool.false_or])).symm

/-- Every call but a rejection that comes too early keeps the subject in step. -/
theorem InStep.next (h : d.InStep o) {c : Call} (hc : d.Late c) : (d.next o c).InStep o := by
  cases c with
  | start => exact ⟨h.sound, h.undisturbed, h.terminated⟩
  | scan e => exact h.scan e
  | reject =>
    have hsilent := Subject.publish_of_terminated (h.terminated.trans hc) .rejected
      (.onError alreadyRunning)
    refine ⟨h.sound, ?_, ?_⟩
    · simp only [Undisturbed, ModbusDiscovery.next, hsilent]
      exact h.undisturbed
    · simp only [ModbusDiscovery.next, hsilent]
      exact h.terminated

theorem next_extends (d : ModbusDiscovery) (c : Call) :
    d.subject.delivered <+: (d.next o c).subject.delivered := by
  cases c with
  | start => exact List.prefix_rfl
  | reject => exact d.subject.publish_extends _ _
  | scan e => exact d.subject.publishAll_extends _

theorem run_extends {cs : List Call} (hr : (machine o).Run d cs t) :
    d.subject.delivered <+: t.subject.delivered := by
  induction hr with
  | nil => exact List.prefix_rfl
  | cons _ _ ih => exact (next_extends _ _).trans ih

/-- A rejection that comes too early takes the place of the scan for good. -/
theorem InStep.early (h : d.InStep o) {c : Call} (hc : ¬d.Late c) {cs : List Call}
    (hr : (machine o).Run (d.next o c) cs t) : ¬t.Undisturbed := by
  intro ht
  cases c with
  | reject =>
    have hopen : d.subject.terminated = false := by
      rw [h.terminated]
      simpa [Late] using hc
    have hmem : (.rejected, .onError alreadyRunning) ∈ t.subject.delivered := by
      refine (run_extends hr).subset ?_
      simp [ModbusDiscovery.next, Subject.publish_open hopen]
    rw [show t.subject.delivered = _ from ht] at hmem
    simp at hmem
  | _ => exact hc trivial

/-- In every run of a discovery that is started any number of further times while
its scan is in progress, the subscribers get exactly what the scan tells if and
only if no rejection runs before the scan has ended. -/
theorem scan_undisturbed_iff_late (o : Options) {cs : List Call} {d : ModbusDiscovery}
    (hr : (machine o).Run {} cs d) :
    d.Undisturbed ↔ ((machine o).restrict Late).Run {} cs d := by
  exact hr.restrict_iff (P := InStep o) (fun d c h _ hlate => h.next hlate)
    (fun d c cs t h _ hearly hrest => h.early hearly hrest) (fun d h => h.undisturbed) (.init o)

instance (d : ModbusDiscovery) : Decidable d.Undisturbed :=
  inferInstanceAs (Decidable (_ = _))

instance (d : ModbusDiscovery) (c : Call) : Decidable (d.Late c) := by
  unfold Late
  split <;> infer_instance

instance (o : Options) (d : ModbusDiscovery) (c : Call) : Decidable ((machine o).enabled d c) :=
  inferInstanceAs (Decidable (d.Enabled c))

instance (o : Options) (d : ModbusDiscovery) (c : Call) :
    Decidable (((machine o).restrict Late).enabled d c) :=
  inferInstanceAs (Decidable (d.Enabled c ∧ d.Late c))

/-- One unit, one identification at a time. -/
def oneUnit : Options := ⟨[7], 1, by decide, by decide⟩

/-- The port scan reports a port and completes, and its unit is being identified. -/
def identifying : List Call :=
  [.scan .start, .scan (.run [.next ⟨ascii "10.0.0.2", 502⟩, .completed] true),
    .scan (.run [] true)]

/-- The unit answers with a Modbus exception. -/
def answer : Call := .scan (.exchangeFinished 0 (some [0, 1, 0, 0, 0, 3, 7, 0xab, 1]))

/-- Here the rejection runs behind the end of the scan. -/
theorem scan_undisturbed_iff_late_once :
    ((identifying ++ [.start, answer, .reject]).foldl (next oneUnit) {}).Undisturbed :=
  (scan_undisturbed_iff_late oneUnit
    (Machine.run_of_runs (M := machine oneUnit) (by decide))).2
    (Machine.run_of_runs (M := (machine oneUnit).restrict Late) (by decide))

/-- Here it runs before: the scan hands over its thing and completes, but the
flow has ended with the error of the rejection. -/
theorem rejected_start_ends_the_flow :
    ∃ d, (machine oneUnit).Run {} (identifying ++ [.start, .reject, answer]) d ∧
      (observedThings d.session.log).length = 1 ∧ .onCompleted ∈ d.session.log ∧
      d.subject.delivered = [(.rejected, .onError alreadyRunning)] ∧ ¬d.Undisturbed :=
  ⟨(identifying ++ [.start, .reject, answer]).foldl (next oneUnit) {},
    Machine.run_of_runs (M := machine oneUnit) (by decide), by decide, by decide, by decide,
    by decide⟩

end ModbusDiscovery

end Neubau.Modbus.Discovery
