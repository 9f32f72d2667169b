import Neubau.Sunspec.DiscoveryDuties
import Neubau.Sunspec.Issuing

/-! What a discovery tells its observer comes from its scans, and as long as it neither
stops nor fails nothing of it is lost: the thing a scan has found is the next to be told
of, or has been told of. -/

namespace Neubau.Sunspec.Discovery

open Neubau.Common Neubau.Modbus Neubau.Transition

variable {o : SunspecDiscoveryOptions} {p : Process} {c : Config}

/-! ### What a scan has found -/

theorem mem_told {scan : ScanState} {i : ℕ} {thing : SunspecThing} :
    .candidate i thing ∈ told i scan ↔ .onNext thing ∈ scan.log := by
  refine List.mem_filterMap.trans ⟨?_, fun h => ⟨_, h, rfl⟩⟩
  rintro ⟨e, he, heq⟩
  cases e <;> cases heq
  exact he

theorem index_of_told {scan : ScanState} {i j : ℕ} {thing : SunspecThing}
    (h : .candidate j thing ∈ told i scan) : j = i := by
  obtain ⟨e, -, heq⟩ := List.mem_filterMap.1 h
  cases e <;> cases heq
  rfl

/-- A scan that has found something is over. -/
theorem over_of_found {s : ScanState} (h : ScanState.Phase c s) {thing : SunspecThing}
    (hthing : .onNext thing ∈ s.log) : s.Over c := by
  refine h.over (Bool.of_not_eq_false fun hf => ?_)
  have htold := mem_told (i := 0).2 hthing
  rw [told_unfinished h hf] at htold
  cases htold

/-- It has found one thing, with the table that the code checks. -/
theorem found_unique {s : ScanState} (h : s.Over c) {thing : SunspecThing}
    (hthing : .onNext thing ∈ s.log) : Table c thing.modelLocations ∧
      ∀ thing', .onNext thing' ∈ s.log → thing' = thing := by
  obtain ⟨before, ending, hlog, hbusy, hend⟩ := h.log
  have hin {t : SunspecThing} (ht : .onNext t ∈ s.log) : .onNext t ∈ ending := by
    rw [hlog] at ht
    rcases List.mem_append.1 ht with ht | ht
    · exact absurd (hbusy _ ht) id
    · exact (List.mem_cons.1 ht).resolve_left (by simp)
  cases hend with
  | completed => simpa using hin hthing
  | failed error => simpa using hin hthing
  | @emitted thing₀ htable =>
    obtain rfl : thing = thing₀ := by simpa using hin hthing
    exact ⟨htable, fun thing' hthing' => by simpa using hin hthing'⟩

/-- What a scan tells in a callback comes behind what it had told. -/
theorem told_after {s : ScanState} (h : ScanState.Phase c s) (e : Sunspec.Event) (i : ℕ) :
    told i (Sunspec.step c s e) =
      told i s ++ (told i (Sunspec.step c s e)).drop (told i s).length := by
  cases hf : s.finished with
  | true =>
    rw [told, told, ((h.over hf).step e).2.1, List.drop_length, List.append_nil]
  | false => rw [told_unfinished h hf, List.nil_append, List.length_nil, List.drop_zero]

/-- A quiet scan finds nothing more. -/
theorem quiet_told {s : ScanState} (h : s.Quiet c) (e : Sunspec.Event) {i : ℕ}
    {thing : SunspecThing} :
    .candidate i thing ∉ (told i (Sunspec.step c s e)).drop (told i s).length := by
  rcases h with h | ⟨hidle, hc⟩
  · rw [told, told, (h.step e).2.1, List.drop_length]
    exact List.not_mem_nil
  · intro hmem
    have hfound := mem_told.1 (List.mem_of_mem_drop hmem)
    rcases hidle.step_cancelled (c := c) hc e with heq | ⟨_, -, -, hlog⟩
    · rw [heq, hidle.log_eq.1] at hfound
      cases hfound
    · rw [hlog] at hfound
      simp at hfound

/-! ### The functions that tell of nothing -/

/-- What of an endpoint the things told of are about. -/
def EndpointScan.source (e : EndpointScan) : ModbusEndpoint × UInt8 × ScanState × Bool :=
  (e.endpoint, e.unitId, e.scan, e.emitted)

namespace State

variable {d t : State} {r : Result}

/-- The scan of the endpoint `i` has found the thing. -/
def Finds (d : State) (i : ℕ) (thing : SunspecThing) : Prop :=
  ∃ e, d.endpoints[i]? = some e ∧ .onNext thing ∈ e.scan.log

/-- A function adds endpoints at most, and tells of no thing. -/
structure Mute (d : State) (r : Result) : Prop where
  sources : ∃ more, r.1.endpoints.map (·.source) = d.endpoints.map (·.source) ++ more ∧
    ∀ x ∈ more, x.2.2 = ({}, false)
  log : r.1.log.filter Effect.isNext = d.log.filter Effect.isNext
  asks : ∀ i thing, .candidate i thing ∉ r.2

theorem Mute.of_eq (hsources : r.1.endpoints.map (·.source) = d.endpoints.map (·.source))
    (hlog : r.1.log.filter Effect.isNext = d.log.filter Effect.isNext)
    (hasks : ∀ i thing, .candidate i thing ∉ r.2) : Mute d r :=
  ⟨⟨[], by rw [hsources, List.append_nil], fun _ hx => absurd hx List.not_mem_nil⟩, hlog, hasks⟩

theorem Mute.same (hasks : ∀ i thing, .candidate i thing ∉ r.2) (hr : r.1 = d) : Mute d r :=
  .of_eq (by rw [hr]) (by rw [hr]) hasks

theorem Mute.after (h : Mute d (t, [])) (h' : Mute t r) : Mute d r where
  sources := by
    obtain ⟨more, hmore, hblank⟩ := h.sources
    obtain ⟨more', hmore', hblank'⟩ := h'.sources
    refine ⟨more ++ more', by rw [hmore', hmore, List.append_assoc], fun x hx => ?_⟩
    exact (List.mem_append.1 hx).elim (hblank x) (hblank' x)
  log := h'.log.trans h.log
  asks := h'.asks

theorem update_sources {i : ℕ} {e f : EndpointScan} (he : d.endpoints[i]? = some e)
    (hf : f.source = e.source) :
    (d.update i f).endpoints.map (·.source) = d.endpoints.map (·.source) := by
  obtain ⟨hlt, rfl⟩ := List.getElem?_eq_some_iff.1 he
  rw [update, List.map_set, hf]
  have hself := List.set_getElem_self
    (show i < (d.endpoints.map (·.source)).length by simpa using hlt)
  rwa [List.getElem_map] at hself

/-- Where the sources are, the things found are. -/
theorem Mute.finds_iff (h : Mute d r) (i : ℕ) (thing : SunspecThing) :
    r.1.Finds i thing ↔ d.Finds i thing := by
  obtain ⟨more, hmore, hblank⟩ := h.sources
  have key (s : State) : s.Finds i thing ↔
      ∃ x, (s.endpoints.map (·.source))[i]? = some x ∧ .onNext thing ∈ x.2.2.1.log := by
    refine ⟨fun ⟨e, he, hmem⟩ => ⟨e.source, by rw [List.getElem?_map, he]; rfl, hmem⟩, ?_⟩
    rintro ⟨x, hx, hmem⟩
    rw [List.getElem?_map, Option.map_eq_some_iff] at hx
    obtain ⟨e, he, rfl⟩ := hx
    exact ⟨e, he, hmem⟩
  rw [key, key, hmore]
  refine ⟨fun ⟨x, hx, hmem⟩ => ?_, fun ⟨x, hx, hmem⟩ => ⟨x, ?_, hmem⟩⟩
  · rcases lt_or_ge i (d.endpoints.map (·.source)).length with hlt | hge
    · exact ⟨x, by rwa [List.getElem?_append_left hlt] at hx, hmem⟩
    · rw [List.getElem?_append_right hge] at hx
      rw [hblank x (List.mem_of_getElem? hx)] at hmem
      cases hmem
  · rw [List.getElem?_append_left (List.getElem?_eq_some_iff.1 hx).1, hx]

theorem complete_mute (d : State) : Mute d d.complete := by
  unfold complete
  split <;> exact .same (by simp) rfl

theorem maybeComplete_mute (d : State) : Mute d d.maybeComplete := by
  unfold maybeComplete
  split
  · exact .same (by simp) rfl
  split
  · exact complete_mute d
  · exact .same (by simp) rfl

theorem filter_tell {f : Effect} (hf : f.isNext = false) :
    (d.tell f).log.filter Effect.isNext = d.log.filter Effect.isNext := by
  simp [tell, hf]

theorem fail_mute (d : State) (error : Exception) : Mute d (d.fail error) := by
  unfold fail
  split
  · exact .same (by simp) rfl
  · exact .of_eq rfl (filter_tell rfl) (by simp [cancelAndCloseEndpoints])

theorem scannerCompleted_mute (d : State) (i : ℕ) : Mute d (d.scannerCompleted i) := by
  unfold scannerCompleted
  split
  · exact .same (by simp) rfl
  case h_2 e he =>
    split
    · exact .same (by simp) rfl
    · exact .of_eq (update_sources he rfl) rfl (by simp)

theorem scannerFailed_mute (d : State) (i : ℕ) (error : Exception) :
    Mute d (d.scannerFailed i error) := by
  unfold scannerFailed
  split
  · exact scannerCompleted_mute d i
  · exact fail_mute d error

theorem startInLoop_mute (d : State) : Mute d d.startInLoop := by
  have hentered : Mute d ({ d with loopEntered := true }.tell .entered, []) :=
    .of_eq rfl (filter_tell rfl) (by simp)
  unfold startInLoop
  dsimp only
  split
  · exact hentered.after (complete_mute _)
  · exact hentered.after (.of_eq rfl rfl (by simp))

theorem start_mute (d : State) : Mute d d.start := by
  unfold start
  split
  · exact .same (by simp) rfl
  have hstarted : Mute d ({ d with started := true }, []) := .of_eq rfl rfl (by simp)
  dsimp only
  split
  · exact hstarted.after (startInLoop_mute _)
  · exact .of_eq rfl rfl (by simp)

theorem stopInLoop_mute (d : State) : Mute d d.stopInLoop := by
  unfold stopInLoop
  split
  · exact .same (by simp) rfl
  · exact .of_eq rfl rfl (by simp [cancelAndCloseEndpoints])

theorem stop_mute (d : State) : Mute d d.stop := by
  have hstopped : Mute d ({ d with stopping := true }.tell .stopped, []) :=
    .of_eq rfl (filter_tell rfl) (by simp)
  unfold stop
  split_ifs
  · exact .same (by simp) rfl
  · exact hstopped
  · exact .same (by simp) rfl
  · exact hstopped.after (stopInLoop_mute _)

theorem openEndpoint_mute (d : State) (candidate : ModbusThing) :
    Mute d (d.openEndpoint candidate) := by
  unfold openEndpoint
  split
  · exact .same (by simp) rfl
  split
  · exact fail_mute d _
  · exact ⟨⟨_, List.map_append, by simp [EndpointScan.source]⟩, rfl, by simp⟩

/-- The calls of a scan and its candidates apart, every action tells of nothing. -/
theorem run_mute (d : State) (reads : List ℕ) (action : Action)
    (hcall : ∀ i, action ≠ .cancel i) (hfails : ∀ i read, action ≠ .readFails i read)
    (hcandidate : ∀ i thing, action ≠ .candidate i thing) : Mute d (d.run o reads action) := by
  cases action with
  | outside code => cases code <;> exact .same (by simp [run]) rfl
  | cancel i => exact absurd rfl (hcall i)
  | readFails i read => exact absurd rfl (hfails i read)
  | candidate i thing => exact absurd rfl (hcandidate i thing)
  | scannerFailed i error => exact scannerFailed_mute d i error
  | scannerCompleted i => exact scannerCompleted_mute d i
  | scannerClosed =>
    rw [run]
    split
    · exact .same (by simp) rfl
    · exact maybeComplete_mute d
  | closeSessions i sessions =>
    cases sessions with
    | nil => exact .same (by simp [run]) rfl
    | cons session sessions =>
      rw [run]
      split
      · exact .same (by simp) rfl
      · exact .of_eq rfl rfl (by simp)
  | cancelEndpoints i =>
    rw [run]
    split
    · exact .same (by simp) rfl
    · split <;> exact .same (by simp) rfl
  | closeEndpoints i =>
    rw [run]
    split <;> exact .same (by simp) rfl
  | startUpstream => exact .of_eq rfl (filter_tell rfl) (by simp [run])
  | stopUpstream => exact .of_eq rfl (filter_tell rfl) (by simp [run])
  | finishComplete => exact .of_eq rfl (filter_tell rfl) (by simp [run])
  | finishFail error => exact .of_eq rfl (filter_tell rfl) (by simp [run])
  | releaseResources =>
    refine .of_eq ?_ rfl (by simp [run])
    rw [run, releaseResources, List.map_map]
    rfl

end State

open State (Mute)

/-- What a discovery tells of, and is about to tell of. -/
structure Process.Emits (o : SunspecDiscoveryOptions) (p : Process) : Prop where
  truthful : ∀ e ∈ p.state.endpoints, e.scan.Truthful (e.config o)
  asked : ∀ i thing, .candidate i thing ∈ p.actions →
    p.state.terminal = false ∧ p.state.Finds i thing
  first : ∀ i thing, .candidate i thing ∉ p.actions.tail
  told : ∀ i thing, .onNext i thing ∈ p.state.log → p.state.Finds i thing
  emitted : ∀ (i : ℕ) e, p.state.endpoints[i]? = some e → e.emitted = true →
    ∃ thing, .onNext i thing ∈ p.state.log
  kept : p.state.runStopping = false → p.state.failing = false → ∀ i thing,
    p.state.Finds i thing → .candidate i thing ∈ p.actions ∨ .onNext i thing ∈ p.state.log

theorem mem_log_iff {log log' : List Effect} (h : log'.filter Effect.isNext =
    log.filter Effect.isNext) (i : ℕ) (thing : SunspecThing) :
    .onNext i thing ∈ log' ↔ .onNext i thing ∈ log := by
  have hmem (l : List Effect) : .onNext i thing ∈ l.filter Effect.isNext ↔ .onNext i thing ∈ l :=
    List.mem_filter.trans (and_iff_left rfl)
  rw [← hmem log, ← hmem log', h]

/-- Where a function tells of nothing, everything stays as it was. -/
theorem Process.Emits.mute (h : p.Emits o) (hnone : ∀ i thing, .candidate i thing ∉ p.actions)
    {r : State.Result} {rest : List Action} (hr : Mute p.state r)
    (hl : State.Lasting p.state r.1) (hrest : rest ⊆ p.actions) :
    Process.Emits o ⟨r.1, r.2 ++ rest⟩ := by
  have hasks : ∀ i thing, .candidate i thing ∉ r.2 ++ rest := fun i thing hmem =>
    (List.mem_append.1 hmem).elim (hr.asks i thing) fun hm => hnone i thing (hrest hm)
  obtain ⟨more, hmore, hblank⟩ := hr.sources
  have hsource {f : EndpointScan} {i : ℕ} (hf : r.1.endpoints[i]? = some f) :
      (∃ e, p.state.endpoints[i]? = some e ∧ f.source = e.source) ∨
        (f.scan, f.emitted) = ({}, false) := by
    have hi : (p.state.endpoints.map (·.source) ++ more)[i]? = some f.source := by
      rw [← hmore, List.getElem?_map, hf, Option.map_some]
    rcases lt_or_ge i (p.state.endpoints.map (·.source)).length with hlt | hge
    · rw [List.getElem?_append_left hlt, List.getElem?_map, Option.map_eq_some_iff] at hi
      obtain ⟨e, he, heq⟩ := hi
      exact .inl ⟨e, he, heq.symm⟩
    · rw [List.getElem?_append_right hge] at hi
      exact .inr (hblank _ (List.mem_of_getElem? hi))
  refine ⟨fun f hf => ?_, fun i thing hmem => absurd hmem (hasks i thing),
    fun i thing hmem => hasks i thing (List.mem_of_mem_tail hmem), fun i thing hmem => ?_,
    fun i f hf hemitted => ?_, fun hstop hfail i thing hfinds => .inr ?_⟩
  · obtain ⟨i, hi⟩ := List.mem_iff_getElem?.1 hf
    rcases hsource hi with ⟨e, he, heq⟩ | hblank
    · have htruthful := h.truthful e (List.mem_of_getElem? he)
      simp only [EndpointScan.source, Prod.mk.injEq] at heq
      rwa [EndpointScan.config, heq.1, heq.2.1, heq.2.2.1]
    · rw [(Prod.mk.inj hblank).1]
      exact (((machine_truthful (f.config o)).init {}) rfl).2
  · exact (hr.finds_iff i thing).2 (h.told i thing ((mem_log_iff hr.log i thing).1 hmem))
  · rcases hsource hf with ⟨e, he, heq⟩ | hblank
    · simp only [EndpointScan.source, Prod.mk.injEq] at heq
      obtain ⟨thing, hthing⟩ := h.emitted i e he (heq.2.2.2 ▸ hemitted)
      exact ⟨thing, (mem_log_iff hr.log i thing).2 hthing⟩
    · exact absurd (hemitted.symm.trans (Prod.mk.inj hblank).2) (by decide)
  · have hstop' : p.state.runStopping = false :=
      Bool.eq_false_iff.2 fun hs => Bool.eq_false_iff.1 hstop (hl.runStopping hs)
    have hfail' : p.state.failing = false :=
      Bool.eq_false_iff.2 fun hf => Bool.eq_false_iff.1 hfail (hl.failing hf)
    exact (mem_log_iff hr.log i thing).2
      ((h.kept hstop' hfail' i thing ((hr.finds_iff i thing).1 hfinds)).resolve_left
        (hnone i thing))

/-- A callback of a scan changes that scan, and perhaps the sessions. -/
theorem State.callScan_eq {d : State} {i : ℕ} {e : EndpointScan} (he : d.endpoints[i]? = some e)
    (call : ScanCall) : ∃ sessions, ∃ created,
      d.callScan o i call = ({ d.update i { e with scan := d.afterCall o e call, sessions } with
        created }, d.toldBy o i e call) := by
  rw [callScan_some he]
  split
  · exact ⟨_, _, rfl⟩
  · exact ⟨_, _, rfl⟩

theorem Process.Emits.callScan (h : p.Emits o) (hnone : ∀ i thing, .candidate i thing ∉ p.actions)
    (hs : p.state.Sound o) (i : ℕ) (call : ScanCall) {rest : List Action}
    (hrest : rest ⊆ p.actions) :
    Process.Emits o ⟨(p.state.callScan o i call).1, (p.state.callScan o i call).2 ++ rest⟩ := by
  have hquiet : ∀ j thing, .candidate j thing ∉ rest := fun j thing hm => hnone j thing (hrest hm)
  cases hi : p.state.endpoints[i]? with
  | none =>
    rw [State.callScan_none hi]
    exact h.mute (r := (p.state, [])) hnone (.same (by simp) rfl) ⟨id, id, id, id⟩ hrest
  | some e =>
  obtain ⟨sessions, created, heq⟩ := State.callScan_eq (o := o) hi call
  have hfits := hs.fits e (List.mem_of_getElem? hi)
  have htold := told_after hfits.phase (call.event (p.state.answers e)) i
  rw [heq]
  -- the endpoints behind the call
  have hget (j : ℕ) : (p.state.update i
      { e with scan := p.state.afterCall o e call, sessions }).endpoints[j]? =
        if i = j then some { e with scan := p.state.afterCall o e call, sessions }
        else p.state.endpoints[j]? := State.getElem?_update hi _ j
  have hfound (j : ℕ) (thing : SunspecThing) : State.Finds { p.state.update i
      { e with scan := p.state.afterCall o e call, sessions } with created } j thing ↔
        p.state.Finds j thing ∨ .candidate j thing ∈ p.state.toldBy o i e call := by
    rw [State.Finds, State.Finds]
    dsimp only
    rw [hget j]
    by_cases hj : i = j
    · subst hj
      rw [if_pos rfl, hi]
      have hboth : .candidate i thing ∈ Discovery.told i (p.state.afterCall o e call) ↔
          .candidate i thing ∈ Discovery.told i e.scan ∨
            .candidate i thing ∈ p.state.toldBy o i e call := by
        rw [State.afterCall, htold, List.mem_append]
        rfl
      simpa [mem_told] using hboth
    · rw [if_neg hj]
      exact ⟨.inl, fun hor => hor.resolve_right fun hmem =>
        hj (index_of_told (List.mem_of_mem_drop hmem)).symm⟩
  refine ⟨fun f hf => ?_, fun j thing hmem => ?_, fun j thing hmem => ?_, fun j thing hmem => ?_,
    fun j f hf hemitted => ?_, fun hstop hfail j thing hfinds => ?_⟩
  · obtain ⟨j, hj⟩ := List.mem_iff_getElem?.1 hf
    rw [hget j] at hj
    split_ifs at hj with hij
    · obtain rfl := Option.some.inj hj
      exact (h.truthful e (List.mem_of_getElem? hi)).step hfits.phase _
    · exact h.truthful f (List.mem_of_getElem? hj)
  · rcases List.mem_append.1 hmem with hnew | hold
    · refine ⟨Bool.eq_false_iff.2 fun ht => ?_, (hfound j thing).2 (.inr hnew)⟩
      have hquietScan := hfits.quiet ht
      obtain rfl := index_of_told (List.mem_of_mem_drop hnew)
      exact quiet_told hquietScan _ hnew
    · exact absurd hold (hquiet j thing)
  · rcases told_step hfits.phase (call.event (p.state.answers e)) i with hnil | ⟨-, -, hreport⟩
    · have hnew : p.state.toldBy o i e call = [] := hnil
      rw [hnew, List.nil_append] at hmem
      exact hquiet j thing (List.mem_of_mem_tail hmem)
    · have hnew : Report i (p.state.toldBy o i e call) := hreport
      generalize p.state.toldBy o i e call = new at hmem hnew
      cases hnew with
      | completed => exact hquiet j thing hmem
      | failed error => exact hquiet j thing hmem
      | emitted thing' =>
        exact hquiet j thing ((List.mem_cons.1 hmem).resolve_left (by simp))
  · exact (hfound j thing).2 (.inl (h.told j thing hmem))
  · rw [hget j] at hf
    split_ifs at hf with hij
    · subst hij
      obtain rfl := Option.some.inj hf
      exact h.emitted i e hi hemitted
    · exact h.emitted j f hf hemitted
  · rcases (hfound j thing).1 hfinds with hold | hnew
    · exact .inr ((h.kept hstop hfail j thing hold).resolve_left (hnone j thing))
    · exact .inl (List.mem_append_left _ hnew)

/-- The thing a scan has found is told of, unless the run stops or one was told of. -/
theorem Process.Emits.candidate (h : p.Emits o) (hs : p.state.Sound o) {i : ℕ}
    {thing : SunspecThing} {rest : List Action} (hactions : p.actions = .candidate i thing :: rest) :
    Process.Emits o
      ⟨(p.state.candidate i thing).1, (p.state.candidate i thing).2 ++ rest⟩ := by
  obtain ⟨hterminal, hfinds⟩ := h.asked i thing (by rw [hactions]; exact List.mem_cons_self)
  obtain ⟨e, he, hthing⟩ := id hfinds
  have hquiet : ∀ j t, .candidate j t ∉ rest := fun j t hm =>
    h.first j t (by rw [hactions, List.tail_cons]; exact hm)
  have hkept (hstop : p.state.runStopping = false) (hfail : p.state.failing = false) (j : ℕ)
      (t : SunspecThing) (hf : p.state.Finds j t) : (j = i ∧ t = thing) ∨
        .onNext j t ∈ p.state.log := by
    refine (h.kept hstop hfail j t hf).imp_left fun hm => ?_
    rw [hactions] at hm
    simpa using (List.mem_cons.1 hm).resolve_right (hquiet j t)
  rw [State.candidate, he]
  dsimp only
  split_ifs with hor
  · refine ⟨h.truthful, fun j t hm => absurd hm (hquiet j t),
      fun j t hm => hquiet j t (List.mem_of_mem_tail hm), h.told, h.emitted,
      fun hstop hfail j t hf => .inr ?_⟩
    rcases hkept hstop hfail j t hf with ⟨rfl, rfl⟩ | hmem
    · -- it was told of before
      have hrefuses : p.state.refuses = false := State.refuses_eq_false.2 ⟨hstop, hfail, hterminal⟩
      rw [hrefuses, Bool.false_or] at hor
      obtain ⟨t', ht'⟩ := h.emitted j e he hor
      obtain ⟨e', he', hfound⟩ := h.told j t' ht'
      obtain rfl := Option.some.inj (he.symm.trans he')
      have hover := over_of_found (hs.fits e (List.mem_of_getElem? he)).phase hthing
      exact (found_unique hover hthing).2 t' hfound ▸ ht'
    · exact hmem
  · have hget (j : ℕ) : (p.state.update i { e with emitted := true }).endpoints[j]? =
        if i = j then some { e with emitted := true } else p.state.endpoints[j]? :=
      State.getElem?_update he _ j
    have hsame (j : ℕ) (t : SunspecThing) : State.Finds
        ((p.state.update i { e with emitted := true }).tell (.onNext i thing)) j t ↔
          p.state.Finds j t := by
      rw [State.Finds, State.Finds]
      show (∃ f, (p.state.update i _).endpoints[j]? = some f ∧ _) ↔ _
      rw [hget j]
      by_cases hj : i = j
      · subst hj
        simp [he]
      · rw [if_neg hj]
    have hlog (j : ℕ) (t : SunspecThing) : .onNext j t ∈
        ((p.state.update i { e with emitted := true }).tell (.onNext i thing)).log ↔
          .onNext j t ∈ p.state.log ∨ (j = i ∧ t = thing) := by
      simp [State.tell, State.update]
    refine ⟨fun f hf => ?_, fun j t hm => ?_, fun j t hm => hquiet j t (by simpa using hm),
      fun j t hm => (hsame j t).2 ?_, fun j f hf hemitted => ?_, fun hstop hfail j t hf => .inr ?_⟩
    · obtain ⟨j, hj⟩ := List.mem_iff_getElem?.1 hf
      have hj' : (p.state.update i { e with emitted := true }).endpoints[j]? = some f := hj
      rw [hget j] at hj'
      split_ifs at hj' with hij
      · obtain rfl := Option.some.inj hj'
        exact h.truthful e (List.mem_of_getElem? he)
      · exact h.truthful f (List.mem_of_getElem? hj')
    · exact absurd ((List.mem_cons.1 hm).resolve_left (by simp)) (hquiet j t)
    · rcases (hlog j t).1 hm with hm | ⟨rfl, rfl⟩
      · exact h.told j t hm
      · exact hfinds
    · by_cases hij : j = i
      · exact ⟨thing, (hlog j thing).2 (.inr ⟨hij, rfl⟩)⟩
      · have hf' : (p.state.update i { e with emitted := true }).endpoints[j]? = some f := hf
        rw [hget j, if_neg (Ne.symm hij)] at hf'
        obtain ⟨t, ht⟩ := h.emitted j f hf' hemitted
        exact ⟨t, (hlog j t).2 (.inl ht)⟩
    · exact (hlog j t).2 ((hkept hstop hfail j t ((hsame j t).1 hf)).symm)

/-- What happens to a discovery keeps what it tells of. -/
theorem step_emits (hs : p.Settles o) (h : p.Emits o) {e : Event} (he : p.Enabled e) :
    (step o p e).Emits o := by
  have hl := (step_settles hs he).2.toLasting
  have hatRest (hrest : p.AtRest) (i : ℕ) (thing : SunspecThing) :
      .candidate i thing ∉ p.actions := by
    rcases hrest with hactions | ⟨code, rest, hactions⟩
    · rw [hactions]
      exact List.not_mem_nil
    · intro hm
      refine h.first i thing ?_
      rw [hactions] at hm ⊢
      exact (List.mem_cons.1 hm).resolve_left (by simp)
  have henter (hrest : p.AtRest) {r : State.Result} (hr : Mute p.state r)
      (hl : State.Lasting p.state r.1) : (p.enter r).Emits o :=
    h.mute (hatRest hrest) hr hl (List.Subset.refl _)
  cases e with
  | run reads =>
    obtain ⟨action, rest, hactions⟩ := List.exists_cons_of_ne_nil he
    rw [step_run hactions] at hl ⊢
    have hrest : rest ⊆ p.actions := by
      rw [hactions]
      exact List.subset_cons_self _ _
    by_cases hcandidate : ∃ i thing, action = .candidate i thing
    · obtain ⟨i, thing, rfl⟩ := hcandidate
      exact h.candidate hs.sound hactions
    have hnone (i : ℕ) (thing : SunspecThing) : .candidate i thing ∉ p.actions := by
      intro hm
      rw [hactions] at hm
      rcases List.mem_cons.1 hm with heq | hm
      · exact hcandidate ⟨i, thing, heq.symm⟩
      · exact h.first i thing (by rw [hactions, List.tail_cons]; exact hm)
    by_cases hcall : ∃ i, action = .cancel i
    · obtain ⟨i, rfl⟩ := hcall
      exact h.callScan hnone hs.sound i .cancel hrest
    by_cases hfails : ∃ i read, action = .readFails i read
    · obtain ⟨i, read, rfl⟩ := hfails
      exact h.callScan hnone hs.sound i (.failure read) hrest
    exact h.mute hnone (State.run_mute _ reads action (fun i heq => hcall ⟨i, heq⟩)
      (fun i read heq => hfails ⟨i, read, heq⟩) fun i t heq => hcandidate ⟨i, t, heq⟩) hl hrest
  | throws error =>
    obtain ⟨rest, hactions⟩ := he
    have hrest : p.AtRest := hactions.elim (fun h => .inr ⟨_, _, h⟩) fun h => .inr ⟨_, _, h⟩
    exact h.mute (hatRest hrest) (State.fail_mute _ error) hl (List.tail_subset _)
  | start => exact henter he (State.start_mute _) hl
  | stop => exact henter he (State.stop_mute _) hl
  | loopRuns => exact ⟨h.truthful, h.asked, h.first, h.told, h.emitted, h.kept⟩
  | startInLoop =>
    have hqueued : Mute p.state ({ p.state with queued := false }, []) := .of_eq rfl rfl (by simp)
    exact henter (.inl he.1) (hqueued.after (State.startInLoop_mute _)) hl
  | upstreamCandidate candidate => exact henter he.1 (State.openEndpoint_mute _ candidate) hl
  | upstreamFailed error => exact henter he.1 (State.fail_mute _ error) hl
  | upstreamCompleted =>
    have hnoted : Mute p.state ({ p.state with modbusCompleted := true }, []) :=
      .of_eq rfl rfl (by simp)
    exact henter he.1 (hnoted.after (State.maybeComplete_mute _)) hl
  | scan i call => exact h.callScan (hatRest he.1) hs.sound i call (List.Subset.refl _)
  | sessionClosed session =>
    exact henter he (r := (p.state.close session, [])) (.of_eq rfl rfl (by simp)) hl

theorem machine_emits (o : SunspecDiscoveryOptions) :
    (machine o).Invariant fun p => p.Settles o ∧ p.Emits o where
  init p hp := by
    refine ⟨(machine_settles o).init p hp, ?_⟩
    obtain rfl : p = {} := hp
    exact ⟨fun e he => absurd he List.not_mem_nil, fun i t hm => absurd hm List.not_mem_nil,
      fun i t => List.not_mem_nil, fun i t hm => absurd hm List.not_mem_nil,
      fun i e he => absurd he (by simp), fun _ _ i t ⟨e, he, _⟩ => absurd he (by simp)⟩
  next _ e h he := ⟨(machine_settles o).next _ e h.1 he, step_emits h.1 h.2 he⟩

/-! ### The units scanned -/

namespace State

/-- The units that scans were opened for. -/
def units (d : State) : List (ModbusEndpoint × UInt8) :=
  d.endpoints.map fun e => (e.endpoint, e.unitId)

theorem Later.units_eq {d t : State} (h : Later o d t)
    (hlength : t.endpoints.length = d.endpoints.length) : t.units = d.units := by
  refine List.ext_getElem (by simp [units, hlength]) fun i hi hi' => ?_
  rw [units, List.length_map] at hi'
  obtain ⟨f, hf, hadvances⟩ := h.endpoints i _ (List.getElem?_eq_getElem hi')
  obtain ⟨hlt, rfl⟩ := List.getElem?_eq_some_iff.1 hf
  simp [units, hadvances.endpoint, hadvances.unitId]

/-- The unit a thing of the upstream is of. -/
def unit (candidate : ModbusThing) : ModbusEndpoint × UInt8 :=
  (target candidate, candidate.unitId)

end State

/-- Only a candidate of the upstream has a unit scanned. -/
theorem step_units (h : p.Settles o) {e : Event} (he : p.Enabled e) :
    (step o p e).state.units = p.state.units ∨
      ∃ candidate, e = .upstreamCandidate candidate ∧
        (step o p e).state.units = p.state.units ++ [State.unit candidate] := by
  rcases step_opened h he with ⟨heq, -⟩ | ⟨candidate, rfl, ⟨hr, hcheck⟩, -⟩
  · have hlength := congrArg List.length heq
    rw [State.opened, State.opened, List.length_map, List.length_map] at hlength
    exact .inl ((step_settles h he).2.units_eq hlength)
  · refine .inr ⟨candidate, rfl, ?_⟩
    rw [step, Process.enter, State.openEndpoint, if_neg (by simp [hr]), hcheck, State.units,
      State.units]
    simp [State.unit]

/-- Each thing told of is of the unit that was scanned, with a table that was checked. -/
theorem Process.Emits.sound (h : p.Emits o) (hs : p.state.Sound o) {i : ℕ} {thing : SunspecThing}
    (hthing : .onNext i thing ∈ p.state.log) :
    p.state.units[i]? = some (thing.endpoint, thing.unitId) ∧
      Table ⟨o, some thing.unitId, fun _ => thing.endpoint⟩ thing.modelLocations := by
  obtain ⟨e, he, hfound⟩ := h.told i thing hthing
  have hmem := List.mem_of_getElem? he
  obtain ⟨⟨k, hendpoint⟩, hunit⟩ := (h.truthful e hmem).told thing hfound
  have hend : thing.endpoint = e.endpoint := hendpoint
  have hid : thing.unitId = e.unitId := hunit e.unitId rfl
  have hover := over_of_found (hs.fits e hmem).phase hfound
  refine ⟨by rw [State.units, List.getElem?_map, he, hend, hid]; rfl, ?_⟩
  have htable := (found_unique hover hfound).1
  rw [EndpointScan.config] at htable
  rwa [hend, hid]

end Neubau.Sunspec.Discovery
