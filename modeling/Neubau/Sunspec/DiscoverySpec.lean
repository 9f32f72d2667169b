import Neubau.Sunspec.Discovery
import Neubau.Sunspec.Quiet
import Neubau.Transition.Contract

/-! What holds of a discovery between the calls, and what a call may change. A
discovery at rest is sound, the sessions of its completed endpoints are closed, and
it has ended if there is nothing to wait for. A call moves it forward: nothing that
was closed opens, what has failed is ended by the failure alone, and a run that is
stopped or failing creates nothing more. -/

namespace Neubau.Sunspec.Discovery

open Neubau.Common Neubau.Modbus Neubau.Transition
open Neubau.Modbus.Session (Registers)

variable {o : SunspecDiscoveryOptions}

/-! ### Scans -/

/-- The calls with which a scan reports its end. -/
inductive Report (i : ℕ) : List Action → Prop
  | completed : Report i [.scannerCompleted i]
  | failed (error : Exception) : Report i [.scannerFailed i error]
  | emitted (thing : SunspecThing) : Report i [.candidate i thing, .scannerCompleted i]

theorem told_busy {log : List Sunspec.Effect} (h : ∀ e ∈ log, e.Busy) (i : ℕ) :
    log.filterMap (tells i) = [] := by
  rw [List.filterMap_eq_nil_iff]
  intro e he
  have hb := h e he
  cases e <;> first | rfl | cases hb

theorem told_unfinished {c : Config} {s : ScanState} (h : ScanState.Phase c s)
    (hf : s.finished = false) (i : ℕ) : told i s = [] := by
  obtain ⟨before, ending, hlog, hbusy, hend⟩ := h.log
  rcases hend with ⟨-, rfl⟩ | ⟨ht, -⟩
  · rw [told, hlog, List.append_nil, told_busy hbusy]
  · simp [hf] at ht

theorem told_over {c : Config} {s : ScanState} (h : s.Over c) (i : ℕ) : Report i (told i s) := by
  obtain ⟨before, ending, hlog, hbusy, hend⟩ := h.log
  rw [told, hlog, List.filterMap_append, told_busy hbusy, List.nil_append]
  cases hend with
  | completed => exact .completed
  | failed error => exact .failed error
  | emitted _ => exact .emitted _

/-- A scan tells its observer nothing, or reports the end it has just come to. -/
theorem told_step {c : Config} {s : ScanState} (h : ScanState.Phase c s) (e : Sunspec.Event)
    (i : ℕ) : (told i (Sunspec.step c s e)).drop (told i s).length = [] ∨
      (s.finished = false ∧ (Sunspec.step c s e).Over c ∧
        Report i ((told i (Sunspec.step c s e)).drop (told i s).length)) := by
  have hstep := h.step e
  cases hf : s.finished with
  | true =>
    left
    rw [told, told, ((h.over hf).step e).2.1]
    exact List.drop_length
  | false =>
    rw [told_unfinished h hf, List.length_nil, List.drop_zero]
    cases ht : (Sunspec.step c s e).finished with
    | true => exact .inr ⟨rfl, hstep.over ht, told_over (hstep.over ht) i⟩
    | false => exact .inl (told_unfinished hstep ht i)

/-! ### What a call may change -/

/-- An endpoint goes on. -/
structure EndpointScan.Advances (o : SunspecDiscoveryOptions) (e f : EndpointScan) : Prop where
  endpoint : f.endpoint = e.endpoint
  unitId : f.unitId = e.unitId
  emitted : e.emitted = true → f.emitted = true
  completed : e.completed = true → f.completed = true
  scan : ScanState.Advances (e.config o) e.scan f.scan

theorem EndpointScan.Advances.config {e f : EndpointScan} (h : EndpointScan.Advances o e f) :
    f.config o = e.config o := by
  rw [EndpointScan.config, EndpointScan.config, h.endpoint, h.unitId]

theorem EndpointScan.Advances.refl (e : EndpointScan) : EndpointScan.Advances o e e :=
  ⟨rfl, rfl, id, id, .refl _⟩

theorem EndpointScan.Advances.trans {e f g : EndpointScan} (h₁ : EndpointScan.Advances o e f)
    (h₂ : EndpointScan.Advances o f g) : EndpointScan.Advances o e g where
  endpoint := h₂.endpoint.trans h₁.endpoint
  unitId := h₂.unitId.trans h₁.unitId
  emitted := h₂.emitted ∘ h₁.emitted
  completed := h₂.completed ∘ h₁.completed
  scan := h₁.scan.trans (h₁.config ▸ h₂.scan)

def EndpointScan.Over (o : SunspecDiscoveryOptions) (e : EndpointScan) : Prop :=
  e.scan.Over (e.config o)

def EndpointScan.Quiet (o : SunspecDiscoveryOptions) (e : EndpointScan) : Prop :=
  e.scan.Quiet (e.config o)

/-- What an endpoint is like at every moment, before and after the end of the run. -/
structure EndpointScan.Fits (o : SunspecDiscoveryOptions) (terminal : Bool)
    (e : EndpointScan) : Prop where
  phase : ScanState.Phase (e.config o) e.scan
  ended : e.completed = true → e.Over o
  control : e.control = false → terminal = true
  quiet : terminal = true → e.Quiet o

theorem EndpointScan.Advances.over {e f : EndpointScan} (h : EndpointScan.Advances o e f)
    (he : e.Over o) : f.Over o := by
  rw [EndpointScan.Over, h.config]
  exact h.scan.ended he

theorem EndpointScan.Advances.quiet {e f : EndpointScan} (h : EndpointScan.Advances o e f)
    (he : e.Quiet o) : f.Quiet o := by
  rw [EndpointScan.Quiet, h.config]
  exact h.scan.quiet he

namespace State

/-- What is set in `d` is set in `t`. -/
structure Lasting (d t : State) : Prop where
  runStopping : d.runStopping = true → t.runStopping = true
  failing : d.failing = true → t.failing = true
  terminal : d.terminal = true → t.terminal = true
  modbusCompleted : d.modbusCompleted = true → t.modbusCompleted = true

/-- From `d` to `t` the discovery went on. -/
structure Later (o : SunspecDiscoveryOptions) (d t : State) : Prop extends Lasting d t where
  endpoints : ∀ (i : ℕ) e, d.endpoints[i]? = some e →
    ∃ f, t.endpoints[i]? = some f ∧ EndpointScan.Advances o e f
  created : ∀ (j : ℕ) s, d.created[j]? = some s →
    ∃ s', t.created[j]? = some s' ∧ s'.owner = s.owner ∧ (s.closed = true → s'.closed = true)
  refused : d.refuses = true → t.endpoints.length = d.endpoints.length ∧
    t.created.length = d.created.length
  unowned : ∀ (i : ℕ) e, d.endpoints[i]? = some e → e.completed = true →
    ∀ (j : ℕ) s, t.created[j]? = some s → s.owner = i → j < d.created.length

/-- In a call that comes while another one fails, the failure stays as it is. -/
structure Grows (o : SunspecDiscoveryOptions) (d t : State) : Prop extends Later o d t where
  unended : d.failing = true → t.terminal = d.terminal

section

variable {d t u : State}

theorem refuses_eq_true : d.refuses = true ↔
    d.runStopping = true ∨ d.failing = true ∨ d.terminal = true := by
  simp [refuses, or_assoc]

theorem refuses_eq_false : d.refuses = false ↔
    d.runStopping = false ∧ d.failing = false ∧ d.terminal = false := by
  simp [refuses, and_assoc]

theorem Later.refuses (h : Later o d t) (hd : d.refuses = true) : t.refuses = true := by
  rw [refuses_eq_true] at hd ⊢
  rcases hd with hd | hd | hd
  · exact .inl (h.runStopping hd)
  · exact .inr (.inl (h.failing hd))
  · exact .inr (.inr (h.terminal hd))

theorem Later.refl (d : State) : Later o d d where
  endpoints _ e he := ⟨e, he, .refl e⟩
  created _ s hs := ⟨s, hs, rfl, id⟩
  refused _ := ⟨rfl, rfl⟩
  unowned _ _ _ _ _ _ hs _ := (List.getElem?_eq_some_iff.1 hs).1
  toLasting := ⟨id, id, id, id⟩

theorem Later.trans (h₁ : Later o d t) (h₂ : Later o t u) : Later o d u where
  endpoints i e he := by
    obtain ⟨f, hf, hef⟩ := h₁.endpoints i e he
    obtain ⟨g, hg, hfg⟩ := h₂.endpoints i f hf
    exact ⟨g, hg, hef.trans hfg⟩
  created j s hs := by
    obtain ⟨s₁, hs₁, howner₁, hclosed₁⟩ := h₁.created j s hs
    obtain ⟨s₂, hs₂, howner₂, hclosed₂⟩ := h₂.created j s₁ hs₁
    exact ⟨s₂, hs₂, howner₂.trans howner₁, hclosed₂ ∘ hclosed₁⟩
  refused hd := by
    obtain ⟨he₁, hc₁⟩ := h₁.refused hd
    obtain ⟨he₂, hc₂⟩ := h₂.refused (h₁.refuses hd)
    exact ⟨he₂.trans he₁, hc₂.trans hc₁⟩
  unowned i e he hcompleted j s hs howner := by
    obtain ⟨f, hf, hef⟩ := h₁.endpoints i e he
    have hlt := h₂.unowned i f hf (hef.completed hcompleted) j s hs howner
    obtain ⟨s₁, hs₁⟩ : ∃ s₁, t.created[j]? = some s₁ := ⟨_, List.getElem?_eq_getElem hlt⟩
    obtain ⟨s₂, hs₂, howner₂, -⟩ := h₂.created j s₁ hs₁
    obtain rfl : s₂ = s := Option.some_inj.1 (hs₂.symm.trans hs)
    exact h₁.unowned i e he hcompleted j s₁ hs₁ (howner₂.symm.trans howner)
  runStopping := h₂.runStopping ∘ h₁.runStopping
  failing := h₂.failing ∘ h₁.failing
  terminal := h₂.terminal ∘ h₁.terminal
  modbusCompleted := h₂.modbusCompleted ∘ h₁.modbusCompleted

theorem Grows.refl (d : State) : Grows o d d := ⟨.refl d, fun _ => rfl⟩

theorem Grows.trans (h₁ : Grows o d t) (h₂ : Grows o t u) : Grows o d u :=
  ⟨h₁.toLater.trans h₂.toLater,
    fun hd => (h₂.unended (h₁.failing hd)).trans (h₁.unended hd)⟩

end

end State

/-! ### What is told -/

def Effect.isNext : Effect → Bool
  | .onNext _ _ => true
  | _ => false

def Effect.isEnd : Effect → Bool
  | .onCompleted | .onError _ => true
  | _ => false

/-- A stop or the beginning of a failure. -/
def Effect.isStop : Effect → Bool
  | .stopped | .failing _ => true
  | _ => false

/-- `f` may come after `e`. -/
def Follows (e f : Effect) : Prop :=
  (e.isEnd = true → f.isNext = false ∧ f.isEnd = false) ∧ (e.isStop = true → f.isNext = false)

/-- The run was stopped before it entered the loop. -/
def Early (log : List Effect) : Prop :=
  ∃ before after, log = before ++ .entered :: after ∧ .stopped ∈ before

/-- How many candidates of an endpoint were told. -/
def candidates (i : ℕ) (log : List Effect) : ℕ :=
  log.countP fun | .onNext j _ => j == i | _ => false

namespace State

variable {d t u : State}

/-- The upstream completed, and every endpoint. -/
def Done (d : State) : Prop :=
  d.modbusCompleted = true ∧ ∀ e ∈ d.endpoints, e.completed = true

/-- What a discovery has told, against what it is. -/
structure Logged (d : State) : Prop where
  order : d.log.Pairwise Follows
  ended : ∀ e ∈ d.log, e.isEnd = true → d.terminal = true
  ends : d.terminal = true → ∃ e ∈ d.log, e.isEnd = true
  failed : ∀ error, .failing error ∈ d.log → d.failing = true
  stopped : .stopped ∈ d.log → d.stopping = true ∧ (d.refuses = true ∨ d.subscribed = false)
  stops : d.stopping = true → .stopped ∈ d.log
  once : ∀ i, candidates i d.log ≤ 1
  emitted : ∀ i thing, .onNext i thing ∈ d.log →
    ∃ e, d.endpoints[i]? = some e ∧ e.emitted = true
  completed : .onCompleted ∈ d.log → d.Done ∨ Early d.log

def AllClosed (d : State) : Prop := ∀ s ∈ d.created, s.closed = true

def AllQuiet (o : SunspecDiscoveryOptions) (d : State) : Prop := ∀ e ∈ d.endpoints, e.Quiet o

/-- The sessions of the endpoint `i` are closed. -/
def ClosedFor (d : State) (i : ℕ) : Prop := ∀ s ∈ d.created, s.owner = i → s.closed = true

/-- How the flags of a discovery agree. -/
structure Flagged (d : State) : Prop where
  failing : d.failing = true → d.runStopping = true
  queued : d.queued = true → d.started = true
  waiting : d.started = false ∨ d.queued = true ∨ d.loopEntered = false → d.subscribed = false

/-- What holds of a discovery at every moment. -/
structure Sound (o : SunspecDiscoveryOptions) (d : State) : Prop extends Flagged d where
  fits : ∀ e ∈ d.endpoints, e.Fits o d.terminal
  owner : ∀ s ∈ d.created, s.owner < d.endpoints.length
  held : ∀ (j : ℕ) s, d.created[j]? = some s → s.closed = false →
    ∃ e, d.endpoints[s.owner]? = some e ∧ j ∈ e.sessions
  closed : d.terminal = true → d.AllClosed
  unsubscribed : d.subscribed = false → d.endpoints = [] ∧ d.modbusCompleted = false
  logged : d.Logged

/-- The sessions of the endpoints that completed are closed. -/
def Sealed (d : State) : Prop :=
  ∀ (i : ℕ) e, d.endpoints[i]? = some e → e.completed = true → d.ClosedFor i

/-- What holds of a discovery while code outside has control. -/
structure Rest (o : SunspecDiscoveryOptions) (d : State) : Prop extends Sound o d where
  isSealed : d.Sealed
  waits : d.Done → d.failing = true ∨ d.terminal = true

/-! ### The log -/

/-- Where no endpoint is added, every endpoint was there before. -/
theorem Later.mem_endpoints (h : Later o d t)
    (hlength : t.endpoints.length = d.endpoints.length) {f : EndpointScan}
    (hf : f ∈ t.endpoints) : ∃ e ∈ d.endpoints, EndpointScan.Advances o e f := by
  obtain ⟨i, hi⟩ := List.mem_iff_getElem?.1 hf
  have hlt : i < d.endpoints.length := hlength ▸ (List.getElem?_eq_some_iff.1 hi).1
  obtain ⟨f', hf', hadvances⟩ := h.endpoints i _ (List.getElem?_eq_getElem hlt)
  obtain rfl : f' = f := Option.some_inj.1 (hf'.symm.trans hi)
  exact ⟨_, List.getElem_mem hlt, hadvances⟩

theorem Done.later (h : d.Done) (hl : Later o d t)
    (hlength : t.endpoints.length = d.endpoints.length) : t.Done := by
  refine ⟨hl.modbusCompleted h.1, fun f hf => ?_⟩
  obtain ⟨e, he, hadvances⟩ := hl.mem_endpoints hlength hf
  exact hadvances.completed (h.2 e he)

/-- A step that tells nothing keeps what is told in step. -/
theorem Logged.later (h : d.Logged) (hl : Later o d t) (hlog : t.log = d.log)
    (hterminal : t.terminal = d.terminal) (hstopping : t.stopping = d.stopping)
    (hsubscribed : t.subscribed = d.subscribed ∨ d.stopping = false) : t.Logged where
  order := hlog ▸ h.order
  ended e he hend := by
    rw [hlog] at he
    exact hterminal ▸ h.ended e he hend
  ends ht := hlog ▸ h.ends (hterminal ▸ ht)
  failed error he := by
    rw [hlog] at he
    exact hl.failing (h.failed error he)
  stopped he := by
    rw [hlog] at he
    obtain ⟨hs, hr⟩ := h.stopped he
    refine ⟨hstopping ▸ hs, ?_⟩
    rcases hr with hr | hr
    · exact .inl (hl.refuses hr)
    · rcases hsubscribed with heq | heq
      · exact .inr (heq ▸ hr)
      · simp [hs] at heq
  stops ht := hlog ▸ h.stops (hstopping ▸ ht)
  once := hlog ▸ h.once
  emitted i thing he := by
    rw [hlog] at he
    obtain ⟨e, hi, hemitted⟩ := h.emitted i thing he
    obtain ⟨f, hf, hadvances⟩ := hl.endpoints i e hi
    exact ⟨f, hf, hadvances.emitted hemitted⟩
  completed he := by
    rw [hlog] at he
    have hterm := h.ended _ he rfl
    rcases h.completed he with hd | hd
    · exact .inl (hd.later hl (hl.refused (refuses_eq_true.2 (.inr (.inr hterm)))).1)
    · exact .inr (hlog ▸ hd)

theorem order_append {log : List Effect} {f : Effect} (h : log.Pairwise Follows)
    (hf : ∀ e ∈ log, Follows e f) : (log ++ [f]).Pairwise Follows :=
  List.pairwise_append.2 ⟨h, List.pairwise_singleton _ _, fun e he g hg => by
    rw [List.mem_singleton.1 hg]
    exact hf e he⟩

theorem candidates_append (i : ℕ) (log : List Effect) (f : Effect) :
    candidates i (log ++ [f]) = candidates i log + candidates i [f] := List.countP_append

theorem Early.append {log : List Effect} (h : Early log) (f : Effect) : Early (log ++ [f]) := by
  obtain ⟨before, after, rfl, hmem⟩ := h
  exact ⟨before, after ++ [f], by simp, hmem⟩

/-- A scan that has emitted nothing yet may hand on its thing. -/
theorem Logged.once_append (h : d.Logged) {f : Effect}
    (hnext : ∀ i thing, f = .onNext i thing → ∃ e, d.endpoints[i]? = some e ∧ e.emitted = false)
    (i : ℕ) : candidates i d.log + candidates i [f] ≤ 1 := by
  by_cases hf : ∃ thing, f = .onNext i thing
  · obtain ⟨thing, rfl⟩ := hf
    obtain ⟨e, he, hemitted⟩ := hnext i thing rfl
    have hzero : candidates i d.log = 0 := by
      refine List.countP_eq_zero.2 fun g hg hcount => ?_
      cases g with
      | onNext j thing' =>
        obtain rfl : j = i := by simpa using hcount
        obtain ⟨e', he', hemitted'⟩ := h.emitted j thing' hg
        obtain rfl : e = e' := Option.some_inj.1 (he.symm.trans he')
        simp [hemitted] at hemitted'
      | _ => simp at hcount
    rw [hzero]
    simp [candidates]
  · have hzero : candidates i [f] = 0 := by
      cases f with
      | onNext j thing =>
        have hj : j ≠ i := by
          rintro rfl
          exact hf ⟨thing, rfl⟩
        simp [candidates, hj]
      | _ => rfl
    rw [hzero]
    exact h.once i

/-- An effect told on the way from `d` to `t`, in its place. -/
theorem Logged.append (h : d.Logged) (hl : Later o d t) {f : Effect} (hlog : t.log = d.log ++ [f])
    (hfollows : ∀ e ∈ d.log, Follows e f)
    (hterminal : t.terminal = (d.terminal || f.isEnd))
    (hfailing : ∀ error, f = .failing error → t.failing = true)
    (hstopped : f = .stopped → t.stopping = true ∧ (t.refuses = true ∨ t.subscribed = false))
    (hstopping : f = .stopped ∨ t.stopping = d.stopping ∧
      (t.subscribed = d.subscribed ∨ d.stopping = false))
    (hnext : ∀ i thing, f = .onNext i thing → ∃ e, d.endpoints[i]? = some e ∧
      e.emitted = false ∧ ∃ e', t.endpoints[i]? = some e' ∧ e'.emitted = true)
    (hcompleted : f = .onCompleted → t.Done ∨ Early t.log) : t.Logged := by
  have hmem : ∀ e, e ∈ t.log ↔ e ∈ d.log ∨ f = e := by
    intro e
    rw [hlog, List.mem_append, List.mem_singleton]
    exact or_congr Iff.rfl eq_comm
  refine ⟨hlog ▸ order_append h.order hfollows, fun e he hend => ?_, fun ht => ?_,
    fun error he => ?_, fun he => ?_, fun ht => ?_, fun i => ?_, fun i thing he => ?_,
    fun he => ?_⟩
  · rw [hterminal, Bool.or_eq_true]
    rcases (hmem e).1 he with he | rfl
    · exact .inl (h.ended e he hend)
    · exact .inr hend
  · rw [hterminal, Bool.or_eq_true] at ht
    rcases ht with ht | ht
    · obtain ⟨e, he, hend⟩ := h.ends ht
      exact ⟨e, (hmem e).2 (.inl he), hend⟩
    · exact ⟨f, (hmem f).2 (.inr rfl), ht⟩
  · rcases (hmem _).1 he with he | he
    · exact hl.failing (h.failed error he)
    · exact hfailing error he
  · rcases (hmem _).1 he with he | he
    · rcases hstopping with hf | ⟨heq, hsubscribed⟩
      · exact hstopped hf
      · obtain ⟨hs, hr⟩ := h.stopped he
        refine ⟨heq.trans hs, hr.imp hl.refuses fun hr => ?_⟩
        rcases hsubscribed with hsubscribed | hs'
        · exact hsubscribed.trans hr
        · simp [hs] at hs'
    · exact hstopped he
  · rcases hstopping with hf | ⟨heq, -⟩
    · exact (hmem _).2 (.inr hf)
    · exact (hmem _).2 (.inl (h.stops (heq.symm.trans ht)))
  · rw [hlog, candidates_append]
    refine h.once_append (fun i thing hf => ?_) i
    obtain ⟨e, he, hemitted, -⟩ := hnext i thing hf
    exact ⟨e, he, hemitted⟩
  · rcases (hmem _).1 he with he | he
    · obtain ⟨e, hi, hemitted⟩ := h.emitted i thing he
      obtain ⟨e', hi', hadvances⟩ := hl.endpoints i e hi
      exact ⟨e', hi', hadvances.emitted hemitted⟩
    · obtain ⟨-, -, -, he'⟩ := hnext i thing he
      exact he'
  · rcases (hmem _).1 he with he | he
    · have hterm := h.ended _ he rfl
      rcases h.completed he with hd | hd
      · exact .inl (hd.later hl (hl.refused (refuses_eq_true.2 (.inr (.inr hterm)))).1)
      · exact .inr (hlog ▸ Early.append hd f)
    · exact hcompleted he

/-- An effect that is neither a candidate nor an end. -/
theorem Logged.mark (h : d.Logged) (hl : Later o d t) {f : Effect} (hlog : t.log = d.log ++ [f])
    (hf : f.isNext = false ∧ f.isEnd = false) (hterminal : t.terminal = d.terminal)
    (hfailing : ∀ error, f = .failing error → t.failing = true)
    (hstopped : f = .stopped → t.stopping = true ∧ (t.refuses = true ∨ t.subscribed = false))
    (hstopping : f = .stopped ∨ t.stopping = d.stopping ∧ t.subscribed = d.subscribed) :
    t.Logged := by
  refine h.append hl hlog (fun e _ => ⟨fun _ => hf, fun _ => hf.1⟩) ?_ hfailing hstopped
    (hstopping.imp_right fun hs => ⟨hs.1, .inl hs.2⟩) ?_ ?_
  · rw [hterminal, hf.2, Bool.or_false]
  · rintro i thing rfl
    cases hf.1
  · rintro rfl
    cases hf.2

end State

end Neubau.Sunspec.Discovery
