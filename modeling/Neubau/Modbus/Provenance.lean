import Neubau.Modbus.Pool

/-! Where the things of a scan come from. An identifier never changes whom it asks,
so each thing is of the unit its identification was started for. No identification
calls its result twice, so a scan whose jobs differ tells of no unit twice. -/

namespace Neubau.Modbus

open Neubau.Common

/-- The job whose unit a thing is of. -/
def ModbusThing.job (thing : ModbusThing) : Discovery.Job where
  address := thing.address
  port := thing.port
  unitId := thing.unitId

namespace Identifier

open Discovery (Job)

/-- The job an identifier was made for. -/
def job (i : Identifier) : Job where
  address := i.address
  port := i.port
  unitId := i.unitId

/-- The identifier works on the job, and so does the thing it fills. -/
structure WorksOn (job : Job) (i : Identifier) : Prop where
  own : i.job = job
  thing : i.thing.job = job

/-- A callback leaves the identifier on its job, and what it results in is of the job. -/
def StaysOn (job : Job) (p : Identifier × Next) : Prop :=
  p.1.WorksOn job ∧ ∀ thing, p.2 = .result (some thing) → thing.job = job

variable {i : Identifier} {job : Job}

theorem create_worksOn (job : Job) :
    (create job.address job.port job.unitId).start.1.WorksOn job := ⟨rfl, rfl⟩

theorem WorksOn.cancel (h : i.WorksOn job) : i.cancel.WorksOn job := ⟨h.own, h.thing⟩

theorem WorksOn.complete (h : i.WorksOn job) {thing : Option ModbusThing}
    (hthing : ∀ t, thing = some t → t.job = job) : StaysOn job (i.complete thing) := by
  unfold Identifier.complete
  split_ifs with hf hr
  · exact ⟨h, nofun⟩
  · refine ⟨⟨h.own, h.thing⟩, fun t ht => hthing t ?_⟩
    exact Next.result.inj ht
  · exact ⟨⟨h.own, h.thing⟩, nofun⟩

/-- What an identifier completes with may be its own thing. -/
theorem WorksOn.completeSome (h : i.WorksOn job) {thing : ModbusThing} (ht : thing.job = job) :
    StaysOn job (i.complete (some thing)) :=
  h.complete fun _ heq => Option.some.inj heq ▸ ht

theorem WorksOn.requestMei (h : i.WorksOn job) : StaysOn job i.requestMei :=
  ⟨⟨h.own, h.thing⟩, nofun⟩

theorem WorksOn.requestFallback (h : i.WorksOn job) : StaysOn job i.requestFallback :=
  ⟨⟨h.own, h.thing⟩, nofun⟩

theorem WorksOn.onMeiPdu (h : i.WorksOn job) (pdu : Bytes) :
    ∀ p ∈ i.onMeiPdu pdu, StaysOn job p := by
  unfold Identifier.onMeiPdu
  refine forall_mem_bind fun function => ?_
  split_ifs
  · exact forall_mem_pure (WorksOn.completeSome (by exact ⟨h.own, h.thing⟩) h.thing)
  · exact forall_mem_pure h.requestFallback
  · exact forall_mem_pure h.requestFallback
  refine forall_mem_bind fun request => ?_
  split_ifs
  · exact forall_mem_pure h.requestFallback
  refine forall_mem_bind fun more => forall_mem_bind fun next => forall_mem_bind fun count =>
    forall_mem_bind fun page => ?_
  obtain ⟨objects, whole⟩ := page
  dsimp only
  split_ifs
  · exact forall_mem_pure (WorksOn.requestFallback (by exact ⟨h.own, h.thing⟩))
  · exact forall_mem_pure (WorksOn.requestMei (by exact ⟨h.own, h.thing⟩))
  · exact forall_mem_pure (WorksOn.completeSome (by exact ⟨h.own, h.thing⟩) h.thing)

theorem WorksOn.onFallbackPdu (h : i.WorksOn job) (pdu : Bytes) :
    ∀ p ∈ i.onFallbackPdu pdu, StaysOn job p := by
  unfold Identifier.onFallbackPdu
  refine forall_mem_bind fun function => ?_
  split_ifs
  · exact forall_mem_pure (h.completeSome h.thing)
  · exact forall_mem_bind fun code =>
      forall_mem_pure (WorksOn.completeSome (by exact ⟨h.own, h.thing⟩) h.thing)
  · exact forall_mem_pure (h.complete nofun)

theorem WorksOn.getD (h : i.WorksOn job) {x : Option (Identifier × Next)}
    (hx : ∀ p ∈ x, StaysOn job p) : StaysOn job (x.getD (i, .nothing)) := by
  cases x with
  | none => exact ⟨h, nofun⟩
  | some p => exact hx p rfl

theorem WorksOn.onMei (h : i.WorksOn job) (response : Option Bytes) :
    StaysOn job (i.onMei response) := by
  have hrests : WorksOn job { i with exchange := none } := ⟨h.own, h.thing⟩
  unfold Identifier.onMei
  dsimp only
  split_ifs
  · exact ⟨hrests, nofun⟩
  cases response with
  | none => exact hrests.requestFallback
  | some response =>
    dsimp only
    split_ifs
    · exact hrests.requestFallback
    · exact hrests.getD (hrests.onMeiPdu _)

theorem WorksOn.onFallback (h : i.WorksOn job) (response : Option Bytes) :
    StaysOn job (i.onFallback response) := by
  have hrests : WorksOn job { i with exchange := none } := ⟨h.own, h.thing⟩
  unfold Identifier.onFallback
  dsimp only
  split_ifs
  · exact ⟨hrests, nofun⟩
  cases response with
  | none => exact hrests.complete nofun
  | some response =>
    dsimp only
    split_ifs
    · exact hrests.complete nofun
    · exact hrests.getD (hrests.onFallbackPdu _)

theorem WorksOn.exchangeFinished (h : i.WorksOn job) (response : Option Bytes) :
    StaysOn job (i.exchangeFinished response) := by
  unfold Identifier.exchangeFinished
  split
  · exact ⟨h, nofun⟩
  · split
    · exact h.onMei response
    · exact h.onFallback response

end Identifier

namespace Discovery

variable {o : Options}

/-- The identifications that produced a thing, and what they produced. -/
def products (log : List Effect) : List (ℕ × ModbusThing) :=
  log.filterMap fun | .identified n (some thing) => some (n, thing) | _ => none

theorem identifiedThings_eq (log : List Effect) :
    identifiedThings log = (products log).map Prod.snd := by
  rw [identifiedThings, products, List.map_filterMap]
  refine List.filterMap_congr fun e _ => ?_
  cases e with
  | identified n thing => cases thing <;> rfl
  | _ => rfl

theorem products_sublist (log : List Effect) :
    ((products log).map Prod.fst).Sublist (identifiedNumbers log) := by
  induction log with
  | nil => exact List.Sublist.slnil
  | cons e log ih =>
    cases e with
    | identified n thing =>
      cases thing with
      | none => exact ih.cons n
      | some thing => exact ih.cons_cons n
    | _ => exact ih

namespace Session

/-- Each identification is of the job started with its number, calls its result once
at most, and only what it produced is told of. -/
structure Traced (s : Session) : Prop where
  works : List.Forall₂ (fun job i => Identifier.WorksOn job i) (startedJobs s.log) s.identifiers
  once : (identifiedNumbers s.log ++ s.active).Nodup
  within : ∀ n ∈ identifiedNumbers s.log ++ s.active, n < s.identifiers.length
  products : ∀ n thing, (n, thing) ∈ products s.log → (startedJobs s.log)[n]? = some thing.job
  observed : (observedThings s.log).Sublist (identifiedThings s.log)

variable {s t : Session}

theorem Traced.init : Traced {} := ⟨.nil, List.nodup_nil, nofun, nofun, .slnil⟩

/-- Only the identifiers, those active and the log matter. -/
theorem Traced.frame (h : s.Traced) (hi : t.identifiers = s.identifiers)
    (ha : t.active = s.active) (hl : t.log = s.log) : t.Traced := by
  refine ⟨?_, ?_, ?_, ?_, ?_⟩
  · rw [hi, hl]
    exact h.works
  · rw [ha, hl]
    exact h.once
  · rw [hi, ha, hl]
    exact h.within
  · rw [hl]
    exact h.products
  · rw [hl]
    exact h.observed

/-- The end of a session is no news of an identification. -/
theorem Traced.mark (h : s.Traced) (hi : t.identifiers = s.identifiers)
    (ha : t.active = s.active) {e : Effect} (hl : t.log = s.log ++ [e])
    (he : e.terminal = true ∨ e = .stopped) : t.Traced := by
  have hs : startedJobs [e] = [] ∧ identifiedNumbers [e] = [] ∧ Discovery.products [e] = [] ∧
      observedThings [e] = [] ∧ identifiedThings [e] = [] := by
    cases e <;> first | exact ⟨rfl, rfl, rfl, rfl, rfl⟩ | simp [Effect.terminal] at he
  obtain ⟨h₁, h₂, h₃, h₄, h₅⟩ := hs
  refine ⟨?_, ?_, ?_, ?_, ?_⟩ <;> rw [hl] <;>
    simp only [startedJobs, identifiedNumbers, Discovery.products, observedThings,
      identifiedThings, List.filterMap_append] at h₁ h₂ h₃ h₄ h₅ ⊢
  · rw [h₁, List.append_nil, hi]
    exact h.works
  · rw [h₂, List.append_nil, ha]
    exact h.once
  · rw [h₂, List.append_nil, ha, hi]
    exact h.within
  · rw [h₁, h₃, List.append_nil, List.append_nil]
    exact h.products
  · rw [h₄, h₅, List.append_nil, List.append_nil]
    exact h.observed

theorem Traced.finish (h : s.Traced) : s.finish.Traced := by
  unfold Session.finish
  split_ifs
  · exact h
  · exact h.mark rfl rfl rfl (.inl rfl)

theorem Traced.maybeComplete (h : s.Traced) : s.maybeComplete.Traced := by
  unfold Session.maybeComplete
  split_ifs
  · exact h
  · exact h.finish

theorem Traced.startJob (h : s.Traced) (job : Job) : (s.startJob job).Traced := by
  have hlength : (startedJobs s.log).length = s.identifiers.length := h.works.length_eq
  have hjobs : startedJobs (s.log ++ [.started job]) = startedJobs s.log ++ [job] := by
    simp [startedJobs]
  have hnumbers : identifiedNumbers (s.log ++ [.started job]) = identifiedNumbers s.log := by
    simp [identifiedNumbers]
  have hproducts : Discovery.products (s.log ++ [.started job]) = Discovery.products s.log := by
    simp [Discovery.products]
  have hfresh : s.identifiers.length ∉ identifiedNumbers s.log ++ s.active := fun hm =>
    absurd (h.within _ hm) (Nat.lt_irrefl _)
  refine ⟨?_, ?_, ?_, ?_, ?_⟩ <;> simp only [Session.startJob, emit, queueInLoop]
  · rw [hjobs]
    exact List.rel_append h.works (.cons (Identifier.create_worksOn job) .nil)
  · rw [hnumbers, ← List.append_assoc]
    exact h.once.append (List.nodup_singleton _) (by simpa using hfresh)
  · rw [hnumbers, ← List.append_assoc, List.length_append]
    intro n hn
    rcases List.mem_append.1 hn with hn | hn
    · exact (h.within n hn).trans (Nat.lt_succ_self _)
    · rw [List.mem_singleton.1 hn]
      exact Nat.lt_succ_self _
  · rw [hjobs, hproducts]
    intro n thing hn
    have hsome := h.products n thing hn
    rwa [List.getElem?_append_left (List.getElem?_eq_some_iff.1 hsome).1]
  · simpa [observedThings, identifiedThings] using h.observed

theorem Traced.startJobs (h : s.Traced) (pending : List Job) :
    (startJobs o pending s).Traced := by
  induction pending generalizing s with
  | nil => exact h.frame rfl rfl rfl
  | cons job rest ih =>
    rw [Session.startJobs]
    split_ifs
    · exact ih (h.startJob job)
    · exact h.frame rfl rfl rfl

theorem Traced.fill (h : s.Traced) : (s.fill o).Traced := by
  unfold Session.fill
  split_ifs
  · exact h
  · exact (h.startJobs s.pending).maybeComplete

theorem Traced.enqueue (h : s.Traced) (candidate : OpenPort) :
    (s.enqueue o candidate).Traced := by
  unfold Session.enqueue
  split_ifs
  · exact h
  · exact Traced.fill (h.frame rfl rfl rfl)

/-- Cancelled identifiers work on what they worked on. -/
theorem forall₂_cancel {jobs : List Job} {is : List Identifier} (operations : List ℕ)
    (h : List.Forall₂ (fun job i => Identifier.WorksOn job i) jobs is) :
    List.Forall₂ (fun job i => Identifier.WorksOn job i) jobs
      (operations.foldl (fun is n => is.modify n Identifier.cancel) is) := by
  induction operations generalizing is with
  | nil => exact h
  | cons n operations ih =>
    refine ih ?_
    rw [List.forall₂_iff_get] at h ⊢
    refine ⟨by rw [List.length_modify]; exact h.1, fun k hk hk' => ?_⟩
    rw [List.length_modify] at hk'
    have hw := h.2 k hk hk'
    simp only [List.get_eq_getElem, List.getElem_modify] at hw ⊢
    split_ifs
    · exact hw.cancel
    · exact hw

theorem Traced.breakOff (h : s.Traced) {e : Effect} (he : e.terminal = true ∨ e = .stopped) :
    (s.breakOff e).Traced := by
  have hbare : Traced { s with active := [] } := by
    refine ⟨h.works, ?_, fun n hn => h.within n ?_, h.products, h.observed⟩
    · rw [List.append_nil]
      exact (List.nodup_append.1 h.once).1
    · rw [List.append_nil] at hn
      exact List.mem_append_left _ hn
  have hcancelled : Traced { s with
      active := []
      identifiers := s.active.foldl (fun is n => is.modify n Identifier.cancel) s.identifiers } :=
    { works := forall₂_cancel s.active hbare.works
      once := hbare.once
      within := fun n hn => by
        rw [foldl_cancel_length]
        exact hbare.within n hn
      products := hbare.products
      observed := hbare.observed }
  refine hcancelled.mark (e := e) ?_ ?_ ?_ he <;> rw [Session.breakOff, cancelAll_eq]

theorem Traced.fail (h : s.Traced) (error : Exception) : (s.fail error).Traced := by
  cases hc : s.completed with
  | true => rwa [Session.fail, if_pos hc]
  | false =>
    rw [fail_eq hc]
    exact (h.breakOff (.inl rfl)).frame rfl rfl rfl

theorem Traced.report (h : s.Traced) (e : Upstream) : (s.report o e).Traced := by
  unfold Session.report
  split_ifs
  · exact h
  · cases e with
    | next candidate =>
      have hr : Traced { s with arrived := s.arrived ++ [candidate] } := h.frame rfl rfl rfl
      exact hr.enqueue candidate
    | failed error =>
      have hr : Traced { s with upstream := .ended } := h.frame rfl rfl rfl
      exact hr.fail error
    | completed => exact Traced.maybeComplete (h.frame rfl rfl rfl)

theorem Traced.reports (h : s.Traced) (es : List Upstream) :
    (es.foldl (Session.report o) s).Traced := by
  induction es generalizing s with
  | nil => exact h
  | cons e es ih => exact ih (h.report e)

theorem Traced.begin (h : s.Traced) (es : List Upstream) : (s.begin o es).Traced := by
  unfold Session.begin
  split_ifs
  · exact Traced.finish (h.frame rfl rfl rfl)
  · have hb : Traced { s with subscription := true, upstream := .active } := h.frame rfl rfl rfl
    exact hb.reports es

theorem Traced.stop (h : s.Traced) (es : List Upstream) : (s.stop o es).Traced := by
  cases hs : s.stopped with
  | true => rwa [Session.stop, if_pos hs]
  | false =>
    have hb := (h.breakOff (.inr rfl)).reports (o := o) es
    rw [stop_eq hs]
    split_ifs
    · exact hb.maybeComplete
    · exact hb

/-- The identifier `n` goes on with its job. -/
theorem Traced.setIdentifier (h : s.Traced) {n : ℕ} {i : Identifier}
    (hi : ∀ job, (startedJobs s.log)[n]? = some job → i.WorksOn job) :
    Traced { s with identifiers := s.identifiers.set n i } := by
  refine { h with works := ?_, within := fun k hk => ?_ }
  · have hw := h.works
    rw [List.forall₂_iff_get] at hw ⊢
    refine ⟨by rw [List.length_set]; exact hw.1, fun k hk hk' => ?_⟩
    rw [List.length_set] at hk'
    have hold := hw.2 k hk hk'
    simp only [List.get_eq_getElem, List.getElem_set] at hold ⊢
    split_ifs with hnk
    · subst hnk
      exact hi _ (List.getElem?_eq_getElem hk)
    · exact hold
  · rw [List.length_set]
    exact h.within k hk

theorem Traced.identified (h : s.Traced) {n : ℕ} {i : Identifier} (hn : n ∈ s.active)
    (hi : ∀ job, (startedJobs s.log)[n]? = some job → i.WorksOn job) {thing : Option ModbusThing}
    (hthing : ∀ t job, thing = some t → (startedJobs s.log)[n]? = some job → t.job = job) :
    (s.identified n i thing).Traced := by
  have hset := h.setIdentifier hi
  have hnumbers : identifiedNumbers (s.identified n i thing).log =
      identifiedNumbers s.log ++ [n] := by
    cases thing <;> simp [Session.identified, identifiedNumbers]
  have hstarted : startedJobs (s.identified n i thing).log = startedJobs s.log := by
    cases thing <;> simp [Session.identified, startedJobs]
  have hplaces : (identifiedNumbers s.log ++ [n] ++ s.active.erase n).Perm
      (identifiedNumbers s.log ++ s.active) := by
    rw [List.append_assoc]
    exact (List.perm_cons_erase hn).symm.append_left (identifiedNumbers s.log)
  refine ⟨?_, ?_, ?_, ?_, ?_⟩
  · rw [hstarted]
    exact hset.works
  · rw [hnumbers]
    exact hplaces.nodup_iff.2 h.once
  · rw [hnumbers]
    intro k hk
    exact hset.within k (hplaces.mem_iff.1 hk)
  · rw [hstarted]
    intro k t hk
    have hproducts : Discovery.products (s.identified n i thing).log =
        Discovery.products s.log ++ (thing.map fun t => (n, t)).toList := by
      cases thing <;> simp [Session.identified, Discovery.products]
    rw [hproducts] at hk
    rcases List.mem_append.1 hk with hk | hk
    · exact h.products k t hk
    · obtain ⟨t', rfl, heq⟩ := Option.map_eq_some_iff.1 (Option.mem_toList.1 hk)
      obtain ⟨rfl, rfl⟩ := Prod.mk.inj heq
      have hlt : n < (startedJobs s.log).length := by
        rw [h.works.length_eq]
        exact h.within n (List.mem_append_right _ hn)
      have hjob := List.getElem?_eq_getElem hlt
      rw [hjob, hthing t' _ rfl hjob]
  · have hobserved := h.observed.append_right thing.toList
    cases thing <;>
      simpa [Session.identified, observedThings, identifiedThings] using hobserved

theorem Traced.exchangeFinished (h : s.Traced) (hs : s.Sound o) (n : ℕ)
    (response : Option Bytes) : (s.exchangeFinished o n response).Traced := by
  unfold Session.exchangeFinished
  split
  · exact h
  rename_i i hi
  have hworks : ∀ job, (startedJobs s.log)[n]? = some job → i.WorksOn job := by
    intro job hjob
    obtain ⟨hlt, rfl⟩ := List.getElem?_eq_some_iff.1 hjob
    obtain ⟨hlt', rfl⟩ := List.getElem?_eq_some_iff.1 hi
    exact (List.forall₂_iff_get.1 h.works).2 n hlt hlt'
  have hstays : ∀ job, (startedJobs s.log)[n]? = some job →
      Identifier.StaysOn job (i.exchangeFinished response) :=
    fun job hjob => (hworks job hjob).exchangeFinished response
  have hset := h.setIdentifier (n := n) fun job hjob => (hstays job hjob).1
  dsimp only
  split
  · exact hset.frame rfl rfl rfl
  · rename_i thing hthing
    have hn : n ∈ s.active := by
      by_contra hn
      have hquiet := Identifier.exchangeFinished_of_finished (hs.finished n hn i hi) response
      simp [hquiet.1] at hthing
    rw [oneFinished_eq (hs.running hn).1]
    refine (h.identified hn (fun job hjob => (hstays job hjob).1) fun t job ht hjob => ?_).fill
    exact (hstays job hjob).2 t (by rw [hthing, ht])
  · exact hset

theorem Traced.startInLoop (h : s.Traced) (hs : s.Sound o) (n : ℕ) (created : Bool) :
    (s.startInLoop o n created).Traced := by
  unfold Session.startInLoop
  split
  · exact h
  rename_i i hi
  split
  · exact h
  · split_ifs
    · refine h.setIdentifier fun job hjob => ?_
      obtain ⟨hlt, rfl⟩ := List.getElem?_eq_some_iff.1 hjob
      obtain ⟨hlt', rfl⟩ := List.getElem?_eq_some_iff.1 hi
      have hw := (List.forall₂_iff_get.1 h.works).2 n hlt hlt'
      exact ⟨hw.own, hw.thing⟩
    · exact h.exchangeFinished hs n none

end Session

theorem step_traced {s : Session} (h : s.Traced) (hs : s.Sound o) (e : Event) :
    (step o s e).Traced := by
  cases e with
  | start =>
    unfold step
    dsimp only
    split_ifs
    · exact h
    · exact h.frame rfl rfl rfl
  | requestStop =>
    unfold step
    dsimp only
    split_ifs
    · exact h.frame rfl rfl rfl
    · exact h
  | run reports created =>
    unfold step
    dsimp only
    split
    · exact h
    · rename_i task rest ht
      have hr : Session.Traced { s with tasks := rest } := h.frame rfl rfl rfl
      cases task with
      | begin => exact hr.begin reports
      | stop => exact hr.stop reports
      | startInLoop n =>
        exact hr.startInLoop (hs.tasks (by rw [ht, List.count_cons]; omega)) n created
      | cancelled n =>
        exact hr.exchangeFinished (hs.tasks (by rw [ht, List.count_cons]; omega)) n none
  | upstream e => exact h.report e
  | exchangeFinished n response =>
    exact step_exchangeFinished_keeps h (h.exchangeFinished hs n response)

theorem machine_traced (o : Options) :
    (machine o).Invariant fun s => s.Sound o ∧ s.Traced where
  init s hs := by
    obtain rfl : s = {} := hs
    exact ⟨.init, .init⟩
  next _ e h _ := ⟨step_sound h.1 e, step_traced h.2 h.1 e⟩

/-- Where the jobs of the ports differ, no unit is told of twice, and every thing is of
a port that arrived. -/
theorem Session.Traced.units {s : Session} (h : s.Traced) (hs : s.Sound o)
    (hn : (s.arrived.flatMap (Session.jobs o)).Nodup) :
    ((observedThings s.log).map ModbusThing.job).Nodup ∧
      ∀ thing ∈ observedThings s.log, thing.job ∈ s.arrived.flatMap (Session.jobs o) := by
  have hjobs : (startedJobs s.log).Nodup := hn.sublist hs.started.sublist
  have hsub := h.observed
  rw [identifiedThings_eq] at hsub
  have hnumbers : ((Discovery.products s.log).map Prod.fst).Nodup :=
    (List.nodup_append.1 h.once).1.sublist (products_sublist s.log)
  have hunits : ((Discovery.products s.log).map fun p => p.2.job).Nodup := by
    refine List.Nodup.map_on (fun p hp q hq heq => ?_) hnumbers.of_map
    have hp' := h.products p.1 p.2 hp
    have hq' := h.products q.1 q.2 hq
    rw [← heq] at hq'
    have hlt := (List.getElem?_eq_some_iff.1 hp').1
    have hfst : p.1 = q.1 := (List.getElem?_inj hlt hjobs).1 (hp'.trans hq'.symm)
    exact List.inj_on_of_nodup_map hnumbers hp hq hfst
  constructor
  · refine List.Nodup.sublist (hsub.map ModbusThing.job) ?_
    rw [List.map_map]
    exact hunits
  · intro thing hthing
    obtain ⟨p, hp, rfl⟩ := List.mem_map.1 (hsub.subset hthing)
    exact hs.started.subset (List.mem_of_getElem? (h.products p.1 p.2 hp))

end Discovery

end Neubau.Modbus
