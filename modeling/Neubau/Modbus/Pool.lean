import Neubau.Modbus.Discovery
import Neubau.Modbus.IdentifierSpec

/-! The pool of identifications is bounded and accounts for every job. The jobs
started, then those pending, are the jobs of the ports in the order of their
arrival; the identifications finished and those active are the ones started.
Only a stop or an error of the upstream breaks this off, and then nothing more
is reported. -/

namespace Neubau.Modbus.Discovery

open Neubau.Common

variable {o : Options}

/-! ### What the log tells -/

def startedJobs (log : List Effect) : List Job :=
  log.filterMap fun | .started job => some job | _ => none

/-- The identifications that called their result. -/
def identifiedNumbers (log : List Effect) : List ℕ :=
  log.filterMap fun | .identified n _ => some n | _ => none

/-- The things the identifications produced. -/
def identifiedThings (log : List Effect) : List ModbusThing :=
  log.filterMap fun | .identified _ thing => thing | _ => none

/-- The things handed to the observer. -/
def observedThings (log : List Effect) : List ModbusThing :=
  log.filterMap fun | .onNext thing => some thing | _ => none

def Effect.terminal : Effect → Bool
  | .onCompleted => true
  | .onError _ => true
  | _ => false

/-- What ends a session before its work is done. -/
def Effect.breaksOff : Effect → Bool
  | .stopped => true
  | .onError _ => true
  | _ => false

/-- `b` may come after `a`: only a stop after the end, no thing after a stop. -/
def Follows (a b : Effect) : Prop :=
  (a.terminal = true → b = .stopped) ∧ (a = .stopped → ∀ thing, b ≠ .onNext thing)

namespace Session

/-- The accounts of a session between two callbacks of the loop. -/
structure Sound (o : Options) (s : Session) : Prop where
  bounded : s.active.length ≤ o.maxConcurrency
  started : startedJobs s.log <+: s.arrived.flatMap (jobs o)
  waiting : s.stopped = false → startedJobs s.log ++ s.pending = s.arrived.flatMap (jobs o)
  count : (startedJobs s.log).length = s.identifiers.length
  opened : ∀ n ∈ s.active, ∃ i, s.identifiers[n]? = some i ∧ i.Open
  finished : ∀ n ∉ s.active, ∀ i, s.identifiers[n]? = some i → i.finished = true
  places : s.stopped = false →
    (identifiedNumbers s.log ++ s.active).Perm (List.range s.identifiers.length)
  things : s.stopped = false → observedThings s.log = identifiedThings s.log
  order : s.log.Pairwise Follows
  ended : s.completed = s.log.any Effect.terminal
  broken : s.stopped = s.log.any Effect.breaksOff
  halted : s.stopped = true → s.pending = [] ∧ s.active = []
  closed : s.completed = true → s.pending = [] ∧ s.active = [] ∧ s.upstream ≠ .active
  upstreamEnded : s.upstreamCompleted = true → s.upstream ≠ .active
  fresh : .begin ∈ s.tasks ∨ s.begun = false →
    s.upstream = .idle ∧ s.completed = false ∧ s.upstreamCompleted = false
  once : s.tasks.count .begin ≤ 1
  unbegun : s.begun = false → .begin ∉ s.tasks

theorem Sound.init : Sound o {} where
  bounded := Nat.zero_le _
  started := List.nil_prefix
  waiting _ := rfl
  count := rfl
  opened := by simp
  finished := by simp
  places _ := .refl _
  things _ := rfl
  order := .nil
  ended := rfl
  broken := rfl
  halted h := by cases h
  closed h := by cases h
  upstreamEnded h := by cases h
  fresh _ := ⟨rfl, rfl, rfl⟩
  once := Nat.zero_le _
  unbegun _ := by simp

theorem Sound.nodup {s : Session} (h : s.Sound o) : s.active.Nodup := by
  cases hs : s.stopped with
  | true => simp [(h.halted hs).2]
  | false =>
    have hp := (h.places hs).nodup_iff.2 List.nodup_range
    exact (List.nodup_append.1 hp).2.1

/-- Tasks other than the first callback may join and leave the loop. -/
theorem Sound.tasks {s : Session} (h : s.Sound o) {tasks : List Task}
    (ht : tasks.count .begin ≤ s.tasks.count .begin) : Sound o { s with tasks := tasks } where
  __ := h
  fresh hb := h.fresh (hb.imp_left fun hm =>
    List.count_pos_iff.1 ((List.count_pos_iff.2 hm).trans_le ht))
  once := ht.trans h.once
  unbegun hb hm := h.unbegun hb (List.count_pos_iff.1 ((List.count_pos_iff.2 hm).trans_le ht))

theorem Sound.queueInLoop {s : Session} (h : s.Sound o) {t : Task} (ht : t ≠ .begin) :
    (s.queueInLoop t).Sound o :=
  h.tasks (by simp [List.count_append, ht])

/-- What follows a log that has not ended. -/
theorem Sound.order_append {s : Session} (h : s.Sound o) (hc : s.completed = false) {e : Effect}
    (he : s.stopped = true → ∀ thing, e ≠ .onNext thing) : (s.log ++ [e]).Pairwise Follows := by
  refine List.pairwise_append.2 ⟨h.order, List.pairwise_singleton _ _, fun a ha b hb => ?_⟩
  obtain rfl := List.mem_singleton.1 hb
  refine ⟨fun ht => ?_, fun hs => he ?_⟩
  · have : s.completed = true := h.ended.trans (List.any_eq_true.2 ⟨a, ha, ht⟩)
    simp [hc] at this
  · exact h.broken.trans (List.any_eq_true.2 ⟨a, ha, by rw [hs]; rfl⟩)

theorem getElem?_set_eq_some {α : Type} {xs : List α} {x y : α} {n k : ℕ}
    (h : (xs.set n x)[k]? = some y) : (k = n ∧ x = y) ∨ (k ≠ n ∧ xs[k]? = some y) := by
  rw [List.getElem?_set] at h
  split_ifs at h with hnk hlt
  · exact .inl ⟨hnk.symm, Option.some.inj h⟩
  · exact .inr ⟨Ne.symm hnk, h⟩

theorem Sound.startJob {s : Session} {job : Job} {rest : List Job}
    (h : Sound o { s with pending := job :: rest }) (hs : s.stopped = false)
    (hroom : s.active.length < o.maxConcurrency) :
    Sound o { s.startJob job with pending := rest } := by
  have hc : s.completed = false := by
    cases hc : s.completed with
    | true => cases (h.closed hc).1
    | false => rfl
  have hjobs : startedJobs (s.log ++ [Effect.started job]) = startedJobs s.log ++ [job] := by
    simp [startedJobs]
  have hw : startedJobs (s.log ++ [Effect.started job]) ++ rest = s.arrived.flatMap (jobs o) := by
    rw [hjobs, List.append_assoc]
    exact h.waiting hs
  have hq := h.queueInLoop (t := .startInLoop s.identifiers.length) nofun
  exact {
    bounded := by
      simp only [Session.startJob, emit, Session.queueInLoop, List.length_append,
        List.length_singleton]
      exact hroom
    started := ⟨rest, hw⟩
    waiting _ := hw
    count := by
      have hcount := h.count
      dsimp only at hcount
      simp only [Session.startJob, emit, Session.queueInLoop, hjobs, List.length_append, hcount,
        List.length_singleton]
    opened n hn := by
      rcases List.mem_append.1 hn with hn | hn
      · obtain ⟨i, hi, ho⟩ := h.opened n hn
        exact ⟨i, getElem?_concat_eq_some.2 (.inl hi), ho⟩
      · exact ⟨_, getElem?_concat_eq_some.2 (.inr ⟨List.mem_singleton.1 hn, rfl⟩), rfl, rfl⟩
    finished n hn i hi := by
      rw [Session.startJob, emit, Session.queueInLoop, List.mem_append, not_or] at hn
      rcases getElem?_concat_eq_some.1 hi with hi | ⟨hlast, -⟩
      · exact h.finished n hn.1 i hi
      · exact absurd (List.mem_singleton.2 hlast) hn.2
    places _ := by
      have hp := (h.places hs).append_right [s.identifiers.length]
      simpa [Session.startJob, emit, Session.queueInLoop, identifiedNumbers, List.range_succ]
        using hp
    things _ := by
      have ht := h.things hs
      simpa [Session.startJob, emit, Session.queueInLoop, observedThings, identifiedThings] using ht
    order := h.order_append hc nofun
    ended := by
      have he := h.ended
      simpa [Session.startJob, emit, Session.queueInLoop, Effect.terminal] using he
    broken := by
      have hb := h.broken
      simpa [Session.startJob, emit, Session.queueInLoop, Effect.breaksOff] using hb
    halted hstop := absurd (hs.symm.trans hstop) Bool.false_ne_true
    closed hdone := absurd (hc.symm.trans hdone) Bool.false_ne_true
    upstreamEnded := h.upstreamEnded
    fresh := hq.fresh
    once := hq.once
    unbegun := hq.unbegun }

theorem Sound.startJobs {pending : List Job} {s : Session}
    (h : Sound o { s with pending := pending }) : (startJobs o pending s).Sound o := by
  induction pending generalizing s with
  | nil => exact h
  | cons job rest ih =>
    rw [Session.startJobs]
    split_ifs with hroom
    · exact ih (h.startJob hroom.1 hroom.2)
    · exact h

/-- A session ends when its upstream has and nothing is left to do. -/
theorem Sound.finish {s : Session} (h : s.Sound o) (hup : s.upstream ≠ .active)
    (hbegun : .begin ∉ s.tasks ∧ s.begun = true) (hp : s.pending = []) (ha : s.active = []) :
    s.finish.Sound o := by
  unfold Session.finish
  split_ifs with hc
  · exact h
  rw [Bool.not_eq_true] at hc
  exact {
    bounded := h.bounded
    started := by simpa [emit, startedJobs] using h.started
    waiting hs := by simpa [emit, startedJobs] using h.waiting hs
    count := by simpa [emit, startedJobs] using h.count
    opened := h.opened
    finished := h.finished
    places hs := by simpa [emit, identifiedNumbers] using h.places hs
    things hs := by simpa [emit, observedThings, identifiedThings] using h.things hs
    order := h.order_append hc nofun
    ended := by simp [emit, Effect.terminal]
    broken := by simpa [emit, Effect.breaksOff] using h.broken
    halted := h.halted
    closed _ := ⟨hp, ha, hup⟩
    upstreamEnded _ := hup
    fresh hb := by
      rcases hb with hb | hb
      · exact absurd hb hbegun.1
      · exact absurd (hbegun.2.symm.trans hb) Bool.false_ne_true.symm
    once := h.once
    unbegun := h.unbegun }

/-- An upstream that has completed was subscribed to by the first callback. -/
theorem Sound.begun_of_upstreamCompleted {s : Session} (h : s.Sound o)
    (hup : s.upstreamCompleted = true) : .begin ∉ s.tasks ∧ s.begun = true := by
  have hn : ¬(.begin ∈ s.tasks ∨ s.begun = false) := fun hb => by
    simp [(h.fresh hb).2.2] at hup
  rw [not_or, Bool.not_eq_false] at hn
  exact hn

theorem Sound.maybeComplete {s : Session} (h : s.Sound o) : s.maybeComplete.Sound o := by
  unfold Session.maybeComplete
  split_ifs with hn
  · exact h
  · simp only [not_or, Bool.not_eq_true, Bool.not_eq_false, not_not] at hn
    exact h.finish (h.upstreamEnded hn.2.1) (h.begun_of_upstreamCompleted hn.2.1) hn.2.2.1 hn.2.2.2

theorem Sound.fill {s : Session} (h : s.Sound o) : (s.fill o).Sound o := by
  unfold Session.fill
  split_ifs
  · exact h
  · exact (Sound.startJobs h).maybeComplete

/-- A port arrives: its jobs come last. -/
theorem Sound.enqueue {s : Session} (h : s.Sound o) (hup : s.upstream = .active)
    (candidate : OpenPort) :
    Sound o ({ s with arrived := s.arrived ++ [candidate] }.enqueue o candidate) := by
  have hstarted : startedJobs s.log <+: (s.arrived ++ [candidate]).flatMap (jobs o) := by
    rw [List.flatMap_append]
    exact h.started.trans (List.prefix_append _ _)
  unfold Session.enqueue
  dsimp only
  split_ifs with hs
  · exact { h with
      started := hstarted
      waiting := fun hs' => absurd (hs.symm.trans hs') Bool.false_ne_true.symm }
  · rw [Bool.not_eq_true] at hs
    refine Sound.fill { h with
      started := hstarted
      waiting := fun _ => ?_
      halted := fun hs' => absurd (hs.symm.trans hs') Bool.false_ne_true
      closed := fun hc => absurd hup (h.closed hc).2.2 }
    rw [List.flatMap_append, ← h.waiting hs, List.append_assoc]
    simp

/-- After the subscription the upstream may end. -/
theorem Sound.end_upstream {s : Session} (h : s.Sound o) (hup : s.upstream = .active) :
    Sound o { s with upstream := .ended } :=
  { h with
    closed := fun hc => absurd hup (h.closed hc).2.2
    upstreamEnded := fun _ => nofun
    fresh := fun hb => absurd (hup.symm.trans (h.fresh hb).1) nofun }

theorem Sound.onUpstreamCompleted {s : Session} (h : s.Sound o) (hup : s.upstream = .active) :
    Sound o { s with upstream := .ended }.onUpstreamCompleted :=
  Sound.maybeComplete { h.end_upstream hup with
    upstreamEnded := fun _ => nofun
    fresh := fun hb => absurd (hup.symm.trans (h.fresh hb).1) nofun }

theorem cancelAll_eq (operations : List ℕ) (s : Session) : s.cancelAll operations = { s with
    identifiers := operations.foldl (fun is n => is.modify n Identifier.cancel) s.identifiers
    tasks := s.tasks ++ operations.map .cancelled } := by
  induction operations generalizing s with
  | nil => simp [cancelAll]
  | cons n operations ih =>
    rw [cancelAll, List.foldl_cons, ← cancelAll, ih]
    simp [Session.queueInLoop]

theorem foldl_cancel_length (operations : List ℕ) (is : List Identifier) :
    (operations.foldl (fun is n => is.modify n Identifier.cancel) is).length = is.length := by
  induction operations generalizing is with
  | nil => rfl
  | cons n operations ih => rw [List.foldl_cons, ih, List.length_modify]

/-- Cancelling finishes the identifiers named and leaves those finished so. -/
theorem foldl_cancel_finished {operations : List ℕ} {is : List Identifier}
    (h : ∀ n ∉ operations, ∀ i, is[n]? = some i → i.finished = true) (n : ℕ) (i : Identifier)
    (hi : (operations.foldl (fun is n => is.modify n Identifier.cancel) is)[n]? = some i) :
    i.finished = true := by
  induction operations generalizing is with
  | nil => exact h n List.not_mem_nil i hi
  | cons m operations ih =>
    refine ih (fun k hk j hj => ?_) hi
    rw [List.getElem?_modify] at hj
    obtain ⟨j', hj', rfl⟩ := Option.map_eq_some_iff.1 hj
    split_ifs with hmk
    · rfl
    · exact h k (by simp [hk, Ne.symm hmk]) j' hj'

/-- A session broken off: nothing is pending, and what was active is cancelled. -/
def breakOff (s : Session) (e : Effect) : Session :=
  { s with
    completed := s.completed || e.terminal
    stopped := true
    pending := []
    active := []
    log := s.log ++ [e] }.cancelAll s.active

theorem Sound.breakOff {s : Session} (h : s.Sound o) {e : Effect} (he : e.breaksOff = true)
    (horder : (s.log ++ [e]).Pairwise Follows)
    (hup : e.terminal = true → s.upstream = .ended) : (s.breakOff e).Sound o := by
  have hlog : startedJobs (s.log ++ [e]) = startedJobs s.log := by
    cases e <;> simp_all [startedJobs, Effect.breaksOff]
  have hcancelled : (s.active.map Task.cancelled).count .begin = 0 := by
    simp [List.count_eq_zero]
  have hq : Sound o { s with tasks := s.tasks ++ s.active.map .cancelled } :=
    h.tasks (by rw [List.count_append, hcancelled, Nat.add_zero])
  rw [Session.breakOff, cancelAll_eq]
  exact {
    bounded := Nat.zero_le _
    started := hlog ▸ h.started
    waiting := nofun
    count := by
      dsimp only
      rw [hlog, h.count, foldl_cancel_length]
    opened := nofun
    finished := fun n _ i hi => foldl_cancel_finished h.finished n i hi
    places := nofun
    things := nofun
    order := horder
    ended := by simp [h.ended]
    broken := by simp [he]
    halted := fun _ => ⟨rfl, rfl⟩
    closed := fun hc => by
      refine ⟨rfl, rfl, ?_⟩
      rcases Bool.or_eq_true_iff.1 hc with hc | hc
      · exact (h.closed hc).2.2
      · exact fun hactive => absurd ((hup hc).symm.trans hactive) nofun
    upstreamEnded := h.upstreamEnded
    fresh := fun hb => by
      obtain ⟨hidle, hcompleted, hupstream⟩ := hq.fresh hb
      refine ⟨hidle, ?_, hupstream⟩
      have ht : e.terminal = false := by
        cases ht : e.terminal with
        | false => rfl
        | true => exact absurd ((hup ht).symm.trans hidle) nofun
      simpa [ht] using hcompleted
    once := hq.once
    unbegun := hq.unbegun }

theorem fail_eq {s : Session} (hc : s.completed = false) (error : Exception) :
    s.fail error = { s.breakOff (.onError error) with
      subscription := false, stopAction := false, running := false, keepAlive := false } := by
  simp [Session.fail, hc, Session.breakOff, cancelAll_eq, emit, Effect.terminal]

theorem Sound.fail {s : Session} (h : s.Sound o) (hup : s.upstream = .ended) (error : Exception) :
    (s.fail error).Sound o := by
  cases hc : s.completed with
  | true => rwa [Session.fail, if_pos hc]
  | false =>
    rw [fail_eq hc]
    exact { h.breakOff (e := .onError error) rfl (h.order_append hc nofun) fun _ => hup with }

theorem Sound.report {s : Session} (h : s.Sound o) (e : Upstream) : (s.report o e).Sound o := by
  unfold Session.report
  split_ifs with hup
  · exact h
  · rw [ne_eq, not_not] at hup
    cases e with
    | next candidate => exact h.enqueue hup candidate
    | failed error => exact (h.end_upstream hup).fail rfl error
    | completed => exact h.onUpstreamCompleted hup

theorem Sound.reports {s : Session} (h : s.Sound o) (es : List Upstream) :
    (es.foldl (Session.report o) s).Sound o := by
  induction es generalizing s with
  | nil => exact h
  | cons e es ih => exact ih (h.report e)

/-- The first callback runs once, before anything else has happened. -/
theorem Sound.first {s : Session} {rest : List Task} (h : s.Sound o)
    (ht : s.tasks = .begin :: rest) : .begin ∉ rest ∧ s.begun = true ∧ s.upstream = .idle ∧
      s.completed = false ∧ s.upstreamCompleted = false := by
  have hm : Task.begin ∈ s.tasks := by simp [ht]
  have hone := h.once
  rw [ht, List.count_cons_self] at hone
  refine ⟨List.count_eq_zero.1 (by omega), ?_, h.fresh (.inl hm)⟩
  cases hb : s.begun with
  | true => rfl
  | false => exact absurd hm (h.unbegun hb)

/-- The first callback subscribes to the upstream. -/
theorem Sound.subscribe {s : Session} {rest : List Task} (h : s.Sound o)
    (ht : s.tasks = .begin :: rest) :
    Sound o { s with tasks := rest, subscription := true, upstream := .active } := by
  obtain ⟨hrest, hbegun, -, hcompleted, hupstream⟩ := h.first ht
  have hr : Sound o { s with tasks := rest } := h.tasks (by rw [ht]; simp)
  exact { hr with
    closed := fun hc => absurd (hcompleted.symm.trans hc) Bool.false_ne_true
    upstreamEnded := fun hc => absurd (hupstream.symm.trans hc) Bool.false_ne_true
    fresh := fun hb => absurd hb (by simp [hrest, hbegun]) }

theorem Sound.begin {s : Session} {rest : List Task} (h : s.Sound o)
    (ht : s.tasks = .begin :: rest) (es : List Upstream) :
    (({ s with tasks := rest } : Session).begin o es).Sound o := by
  unfold Session.begin
  dsimp only
  split_ifs with hs
  · obtain ⟨hrest, hbegun, hidle, -, -⟩ := h.first ht
    have hr : Sound o { s with tasks := rest } := h.tasks (by rw [ht]; simp)
    refine Sound.finish (s := { s with tasks := rest, upstreamCompleted := true })
      { hr with
        upstreamEnded := fun _ => by simp [hidle]
        fresh := fun hb => absurd hb (by simp [hrest, hbegun]) }
      (by simp [hidle]) ⟨hrest, hbegun⟩ (h.halted hs).1 (h.halted hs).2
  · exact (h.subscribe ht).reports es

theorem stop_eq {s : Session} (hs : s.stopped = false) (es : List Upstream) :
    s.stop o es = if s.active = [] then (es.foldl (Session.report o) (s.breakOff .stopped)).maybeComplete
      else es.foldl (Session.report o) (s.breakOff .stopped) := by
  simp [Session.stop, hs, Session.breakOff, cancelAll_eq, emit, Effect.terminal]

theorem Sound.breakOff_stopped {s : Session} (h : s.Sound o) : (s.breakOff .stopped).Sound o := by
  refine h.breakOff rfl (List.pairwise_append.2
    ⟨h.order, List.pairwise_singleton _ _, fun a _ b hb => ?_⟩) nofun
  obtain rfl := List.mem_singleton.1 hb
  exact ⟨fun _ => rfl, fun _ => nofun⟩

theorem Sound.stop {s : Session} (h : s.Sound o) (es : List Upstream) : (s.stop o es).Sound o := by
  cases hs : s.stopped with
  | true => rwa [Session.stop, if_pos hs]
  | false =>
    rw [stop_eq hs]
    split_ifs
    · exact (h.breakOff_stopped.reports es).maybeComplete
    · exact h.breakOff_stopped.reports es

theorem Sound.running {s : Session} (h : s.Sound o) {n : ℕ} (hn : n ∈ s.active) :
    s.stopped = false ∧ s.completed = false := by
  constructor
  · cases hs : s.stopped with
    | true => simp [(h.halted hs).2] at hn
    | false => rfl
  · cases hc : s.completed with
    | true => simp [(h.closed hc).2.1] at hn
    | false => rfl

/-- An identifier may change as long as it stays open if it is active and
finished if it is not. -/
theorem Sound.setIdentifier {s : Session} (h : s.Sound o) {n : ℕ} {i : Identifier}
    (hopen : n ∈ s.active → i.Open) (hfinished : n ∉ s.active → i.finished = true) :
    Sound o { s with identifiers := s.identifiers.set n i } :=
  { h with
    count := h.count.trans (List.length_set).symm
    opened := fun k hk => by
      obtain ⟨j, hj, ho⟩ := h.opened k hk
      by_cases hkn : n = k
      · subst hkn
        have hlt := (List.getElem?_eq_some_iff.1 hj).1
        exact ⟨i, by simp [hlt], hopen hk⟩
      · exact ⟨j, by rw [List.getElem?_set_ne hkn, hj], ho⟩
    finished := fun k hk j hj => by
      rcases getElem?_set_eq_some hj with ⟨rfl, rfl⟩ | ⟨-, hj⟩
      · exact hfinished hk
      · exact h.finished k hk j hj
    places := fun hs => by
      rw [List.length_set]
      exact h.places hs }

/-- The identification `n` has called its result. -/
def identified (s : Session) (n : ℕ) (i : Identifier) (thing : Option ModbusThing) : Session :=
  { s with
    identifiers := s.identifiers.set n i
    active := s.active.erase n
    log := s.log ++ .identified n thing :: thing.toList.map .onNext }

theorem Sound.identified {s : Session} (h : s.Sound o) {n : ℕ} {i : Identifier}
    (hn : n ∈ s.active) (hi : i.finished = true) (thing : Option ModbusThing) :
    (s.identified n i thing).Sound o := by
  obtain ⟨hs, hc⟩ := h.running hn
  have hnodup := h.nodup
  have hstarted : startedJobs (s.identified n i thing).log = startedJobs s.log := by
    cases thing <;> simp [Session.identified, startedJobs]
  exact {
    bounded := (List.length_erase_le).trans h.bounded
    started := hstarted ▸ h.started
    waiting := fun hs => hstarted ▸ h.waiting hs
    count := hstarted ▸ h.count.trans (List.length_set).symm
    opened := fun k hk => by
      obtain ⟨hkn, hk⟩ := (List.Nodup.mem_erase_iff hnodup).1 hk
      obtain ⟨j, hj, ho⟩ := h.opened k hk
      exact ⟨j, by rw [Session.identified, List.getElem?_set_ne (Ne.symm hkn), hj], ho⟩
    finished := fun k hk j hj => by
      rcases getElem?_set_eq_some hj with ⟨rfl, rfl⟩ | ⟨hkn, hj⟩
      · exact hi
      · exact h.finished k (fun hm => hk ((List.Nodup.mem_erase_iff hnodup).2 ⟨hkn, hm⟩)) j hj
    places := fun hs => by
      have hnumbers : identifiedNumbers (s.identified n i thing).log =
          identifiedNumbers s.log ++ [n] := by
        cases thing <;> simp [Session.identified, identifiedNumbers]
      have hp := (List.perm_cons_erase hn).append_left (identifiedNumbers s.log)
      rw [hnumbers, List.append_assoc]
      simpa [Session.identified] using hp.symm.trans (h.places hs)
    things := fun hs => by
      have ht := h.things hs
      cases thing <;>
        simpa [Session.identified, observedThings, identifiedThings] using ht
    order := by
      refine List.pairwise_append.2 ⟨h.order, ?_, fun a ha b _ => ⟨fun ht => ?_, fun ha' => ?_⟩⟩
      · cases thing <;> simp [Follows, Effect.terminal]
      · have hany := h.ended.trans (List.any_eq_true.2 ⟨a, ha, ht⟩)
        exact absurd (hc.symm.trans hany) Bool.false_ne_true
      · have hany := h.broken.trans (List.any_eq_true.2 ⟨a, ha, by rw [ha']; rfl⟩)
        exact absurd (hs.symm.trans hany) Bool.false_ne_true
    ended := by
      have he := h.ended
      cases thing <;> simpa [Session.identified, Effect.terminal] using he
    broken := by
      have hb := h.broken
      cases thing <;> simpa [Session.identified, Effect.breaksOff] using hb
    halted := fun hs' => absurd (hs.symm.trans hs') Bool.false_ne_true
    closed := fun hc' => absurd (hc.symm.trans hc') Bool.false_ne_true
    upstreamEnded := h.upstreamEnded
    fresh := h.fresh
    once := h.once
    unbegun := h.unbegun }

theorem oneFinished_eq {s : Session} (hs : s.stopped = false) (n : ℕ) (i : Identifier)
    (thing : Option ModbusThing) :
    (({ s with identifiers := s.identifiers.set n i } : Session).emit
      (.identified n thing)).oneFinished o n thing = (s.identified n i thing).fill o := by
  cases thing <;> simp [Session.oneFinished, Session.identified, emit, hs]

theorem Sound.exchangeFinished {s : Session} (h : s.Sound o) (n : ℕ) (response : Option Bytes) :
    (s.exchangeFinished o n response).Sound o := by
  unfold Session.exchangeFinished
  split
  · exact h
  rename_i i hi
  by_cases hn : n ∈ s.active
  · obtain ⟨j, hj, ho⟩ := h.opened n hn
    obtain rfl : i = j := Option.some.inj (hi.symm.trans hj)
    dsimp only
    rcases Identifier.exchangeFinished_advances ho response with ⟨thing, hp, hf⟩ | ⟨hp, hop⟩
    · rw [hp]
      dsimp only
      rw [oneFinished_eq (h.running hn).1]
      exact (h.identified hn hf thing).fill
    · have hset := h.setIdentifier (n := n) (fun _ => hop) fun hm => absurd hn hm
      split
      · exact hset.queueInLoop nofun
      · rename_i thing hthing
        exact absurd hthing (hp thing)
      · exact hset
  · have hquiet := Identifier.exchangeFinished_of_finished (h.finished n hn i hi) response
    dsimp only
    rw [hquiet.1]
    exact h.setIdentifier (fun hm => absurd hm hn) fun _ => hquiet.2

theorem Sound.startInLoop {s : Session} (h : s.Sound o) (n : ℕ) (created : Bool) :
    (s.startInLoop o n created).Sound o := by
  unfold Session.startInLoop
  split
  · exact h
  rename_i i hi
  split
  · exact h
  · split_ifs
    · refine h.setIdentifier (fun hn => ?_) fun hn => h.finished n hn i hi
      obtain ⟨j, hj, ho⟩ := h.opened n hn
      obtain rfl : i = j := Option.some.inj (hi.symm.trans hj)
      exact ⟨ho.finished, ho.hasResult⟩
    · exact h.exchangeFinished n none

end Session

/-- What the end of an exchange keeps, its event keeps: only a started exchange ends. -/
theorem step_exchangeFinished_keeps {P : Session → Prop} {s : Session} {n : ℕ}
    {response : Option Bytes} (hs : P s) (hfinished : P (s.exchangeFinished o n response)) :
    P (step o s (.exchangeFinished n response)) := by
  unfold step
  dsimp only
  split
  · split_ifs
    · exact hfinished
    · exact hs
  · exact hs

theorem step_sound {s : Session} (h : s.Sound o) (e : Event) : (step o s e).Sound o := by
  cases e with
  | start =>
    unfold step
    dsimp only
    split_ifs with hb
    · exact h
    · rw [Bool.not_eq_true] at hb
      obtain ⟨hidle, hcompleted, hupstream⟩ := h.fresh (.inr hb)
      have hnone : s.tasks.count .begin = 0 := List.count_eq_zero.2 (h.unbegun hb)
      exact { h with
        fresh := fun _ => ⟨hidle, hcompleted, hupstream⟩
        once := by simp [Session.queueInLoop, hnone]
        unbegun := nofun }
  | requestStop =>
    unfold step
    dsimp only
    split_ifs
    · exact h.queueInLoop nofun
    · exact h
  | run reports created =>
    unfold step
    dsimp only
    split
    · exact h
    · rename_i task rest ht
      have hr : task ≠ .begin → Session.Sound o { s with tasks := rest } :=
        fun _ => h.tasks (by rw [ht, List.count_cons]; omega)
      cases task with
      | begin => exact h.begin ht reports
      | stop => exact (hr nofun).stop reports
      | startInLoop n => exact (hr nofun).startInLoop n created
      | cancelled n => exact (hr nofun).exchangeFinished n none
  | upstream e => exact h.report e
  | exchangeFinished n response => exact step_exchangeFinished_keeps h (h.exchangeFinished n response)

theorem machine_sound (o : Options) : (machine o).Invariant (Session.Sound o) where
  init s hs := by
    obtain rfl : s = {} := hs
    exact .init
  next _ e hs _ := step_sound hs e

/-! ### What the observer sees -/

theorem countP_terminal_le {log : List Effect} (h : log.Pairwise Follows) :
    log.countP Effect.terminal ≤ 1 := by
  induction h with
  | nil => exact Nat.zero_le _
  | @cons a log ha _ ih =>
    cases ht : a.terminal with
    | false => rwa [List.countP_cons_of_neg (by simp [ht])]
    | true =>
      have hz : log.countP Effect.terminal = 0 :=
        List.countP_eq_zero.2 fun b hb => by simp [(ha b hb).1 ht, Effect.terminal]
      rw [List.countP_cons_of_pos (by simp [ht]), hz]

/-- After the end or a stop the observer gets no thing. -/
theorem observedThings_after {l r : List Effect} {e : Effect}
    (h : (l ++ e :: r).Pairwise Follows) (he : e.terminal = true ∨ e = .stopped) :
    observedThings r = [] := by
  have hr := (List.pairwise_cons.1 (List.pairwise_append.1 h).2.1).1
  apply List.filterMap_eq_nil_iff.2
  intro b hb
  rcases he with he | he
  · rw [(hr b hb).1 he]
  · cases b with
    | onNext thing => exact absurd rfl ((hr _ hb).2 he thing)
    | _ => rfl

/-- After the end nothing is started and nothing finishes. -/
theorem after_completed {l r : List Effect} (h : (l ++ .onCompleted :: r).Pairwise Follows) :
    startedJobs r = [] ∧ identifiedNumbers r = [] := by
  have hr := (List.pairwise_cons.1 (List.pairwise_append.1 h).2.1).1
  constructor <;>
    exact List.filterMap_eq_nil_iff.2 fun b hb => by rw [(hr b hb).1 rfl]

/-- The pool is bounded, starts the jobs in order, ends once and is silent then;
undisturbed, it completes only when every job of every port has finished and
hands over exactly the things identified. -/
theorem pool_accounts_for_every_job (o : Options) {s : Session} (hs : (machine o).Reachable s) :
    s.active.length ≤ o.maxConcurrency ∧
    startedJobs s.log <+: s.arrived.flatMap (Session.jobs o) ∧
    s.log.countP Effect.terminal ≤ 1 ∧
    (∀ l e r, s.log = l ++ e :: r → e.terminal = true ∨ e = .stopped → observedThings r = []) ∧
    (s.log.any Effect.breaksOff = false →
      observedThings s.log = identifiedThings s.log ∧
      ∀ l r, s.log = l ++ .onCompleted :: r →
        startedJobs l = s.arrived.flatMap (Session.jobs o) ∧
        (identifiedNumbers l).Perm (List.range (startedJobs l).length)) := by
  have h : s.Sound o := (machine_sound o).reachable hs
  refine ⟨h.bounded, h.started, countP_terminal_le h.order,
    fun l e r hl he => observedThings_after (hl ▸ h.order) he, fun hb => ?_⟩
  have hstop : s.stopped = false := h.broken.trans hb
  refine ⟨h.things hstop, fun l r hl => ?_⟩
  have hc : s.completed = true := by
    rw [h.ended, hl]
    simp [Effect.terminal]
  obtain ⟨hp, ha, -⟩ := h.closed hc
  obtain ⟨hr, hn⟩ := after_completed (hl ▸ h.order)
  have hsl : startedJobs s.log = startedJobs l := by
    rw [hl, startedJobs, List.filterMap_append, List.filterMap_cons]
    simpa [startedJobs] using hr
  have hnl : identifiedNumbers s.log = identifiedNumbers l := by
    rw [hl, identifiedNumbers, List.filterMap_append, List.filterMap_cons]
    simpa [identifiedNumbers] using hn
  have hw := h.waiting hstop
  have hperm := h.places hstop
  rw [hp, List.append_nil, hsl] at hw
  rw [ha, List.append_nil, hnl, ← h.count, hsl] at hperm
  exact ⟨hw, hperm⟩

/-- Two ports with two units each. The second unit answers first, the first one neither
time, and the last one before the third. -/
def fourJobs : List Event :=
  [.start, .run [.next ⟨ascii "10.0.0.2", 502⟩, .next ⟨ascii "10.0.0.3", 502⟩, .completed] true,
    .run [] true, .run [] true, .exchangeFinished 1 (some [0, 1, 0, 0, 0, 3, 8, 0xab, 1]),
    .exchangeFinished 0 none, .run [] true, .run [] true, .exchangeFinished 0 none, .run [] true,
    .exchangeFinished 3 (some [0, 1, 0, 0, 0, 3, 8, 0xab, 2]),
    .exchangeFinished 2 (some [0, 1, 0, 0, 0, 3, 7, 0xab, 1])]

theorem pool_accounts_for_every_job_four :
    let o : Options := ⟨[7, 8], 2, by decide, by decide⟩
    let s := fourJobs.foldl (step o) {}
    s.completed = true ∧ s.log.countP Effect.terminal ≤ 1 ∧
      observedThings s.log = identifiedThings s.log ∧
      (observedThings s.log).map (·.unitId) = [8, 8, 7] ∧
      startedJobs s.log <+: s.arrived.flatMap (Session.jobs o) ∧
      identifiedNumbers s.log = [1, 0, 3, 2] := by
  intro o s
  have hs : (machine o).Reachable s := .foldl (fun _ _ => trivial) (.init rfl) fourJobs
  obtain ⟨-, hstarted, hterminal, -, hundisturbed⟩ := pool_accounts_for_every_job o hs
  exact ⟨by decide +kernel, hterminal, (hundisturbed (by decide +kernel)).1, by decide +kernel,
    hstarted, by decide +kernel⟩

end Neubau.Modbus.Discovery
