import Neubau.Sunspec.Sweeping

/-! What a callback of a scan does to the outside. Every function of the scan leaves the
reads that are pending alone and asks for some more, each of which is pending then; the
session changes to one that a factory has made, if at all; and what is told to the
observer is a thing of the unit that was selected. Within the phases of a scan it follows
that a callback asks for one read, or the scan is over. -/

namespace Neubau.Sunspec

open Neubau.Common
open Neubau.Modbus.Session (Registers)

variable {c : Config} {a : Answers}

/-- The thing is of the unit that the scan has selected. -/
def OfUnit (c : Config) (header : Option SelectedHeader) (thing : SunspecThing) : Prop :=
  ∃ k unit, header = some unit ∧ thing.endpoint = c.endpoint k ∧ thing.unitId = unit.unitId

namespace ScanState

variable {s t u : ScanState}

/-- What a callback changes with the outside, the log apart. -/
def face (s : ScanState) : List ReadCall × List ℕ × Option ℕ × Bool × Option SelectedHeader :=
  (s.reads, s.pending, s.session, s.started, s.selectedHeader)

/-- `t` is `s` with some more reads, which are pending, perhaps a new session, and things
of the selected unit told of. -/
structure Issues (c : Config) (a : Answers) (s t : ScanState) : Prop where
  calls : ∃ l, t.reads = s.reads ++ l ∧
    t.pending = s.pending ++ List.range' s.reads.length l.length
  session : t.session = s.session ∨ ∃ k, t.session = some k ∧
    (a.subscription = .session k ∨ a.replacement = .session k)
  started : t.started = s.started
  header : t.selectedHeader = s.selectedHeader
  told : ∀ thing, .onNext thing ∈ t.log → .onNext thing ∈ s.log ∨ OfUnit c s.selectedHeader thing

theorem Issues.none (hface : t.face = s.face)
    (hlog : ∀ thing, .onNext thing ∈ t.log → .onNext thing ∈ s.log) : Issues c a s t := by
  obtain ⟨hreads, hpending, hsession, hstarted, hheader⟩ := by simpa [face] using hface
  exact ⟨⟨[], by simp [hreads], by simp [hpending]⟩, .inl hsession, hstarted, hheader,
    fun thing hthing => .inl (hlog thing hthing)⟩

theorem Issues.refl (s : ScanState) : Issues c a s s := .none rfl fun _ => id

theorem Issues.trans (h₁ : Issues c a s t) (h₂ : Issues c a t u) : Issues c a s u := by
  obtain ⟨⟨l₁, hreads₁, hpending₁⟩, hsession₁, hstarted₁, hheader₁, htold₁⟩ := h₁
  obtain ⟨⟨l₂, hreads₂, hpending₂⟩, hsession₂, hstarted₂, hheader₂, htold₂⟩ := h₂
  refine ⟨⟨l₁ ++ l₂, by rw [hreads₂, hreads₁, List.append_assoc], ?_⟩, ?_,
    hstarted₂.trans hstarted₁, hheader₂.trans hheader₁, fun thing hthing => ?_⟩
  · rw [hpending₂, hpending₁, hreads₁, List.append_assoc, List.length_append, List.length_append,
      ← List.range'_append_1]
  · rcases hsession₂ with hsession₂ | hsession₂
    · rwa [hsession₂]
    · exact .inr hsession₂
  · rcases htold₂ thing hthing with htold | htold
    · exact htold₁ thing htold
    · exact .inr (hheader₁ ▸ htold)

/-- What other fields say does not matter. -/
theorem Issues.of (h : Issues c a t u) (hface : t.face = s.face) (hlog : t.log = s.log) :
    Issues c a s u :=
  .trans (.none hface fun _ hthing => hlog ▸ hthing) h

/-- Nor what comes after, if it tells of no thing. -/
theorem Issues.to (h : Issues c a s t) (hface : u.face = t.face)
    (hlog : ∀ thing, .onNext thing ∈ u.log → .onNext thing ∈ t.log) : Issues c a s u :=
  h.trans (.none hface hlog)

theorem Issues.ite {p : Prop} [Decidable p] (ht : Issues c a s t) (hu : Issues c a s u) :
    Issues c a s (if p then t else u) := by
  split_ifs
  · exact ht
  · exact hu

theorem Issues.tell (h : Issues c a s t) {e : Effect} (he : ∀ thing, e ≠ .onNext thing) :
    Issues c a s (t.tell e) := by
  refine h.to rfl fun thing hthing => ?_
  rcases List.mem_append.1 hthing with hthing | hthing
  · exact hthing
  · exact absurd (List.mem_singleton.1 hthing).symm (he thing)

/-- The observers are taken away. -/
theorem Issues.closing (h : Issues c a s t) : Issues c a s { t with
    completeObserver := false
    nextObserver := false
    errorObserver := false } :=
  h.to rfl fun _ => id

/-! ### The end of a scan -/

theorem issues_release (s : ScanState) : Issues c a s s.releaseResources := by
  unfold releaseResources
  dsimp only
  cases s.activeReader with
  | none => split_ifs <;> exact .none rfl fun _ => id
  | some n => dsimp only; split_ifs <;> exact .none rfl fun _ => id

theorem issues_finished (s : ScanState) :
    Issues c a s ({ s with finished := true }.tell .finished) := by
  have h : Issues c a s { s with finished := true } := .none rfl fun _ => id
  exact h.tell fun _ => nofun

theorem issues_complete (s : ScanState) : Issues c a s s.complete := by
  have h := (issues_finished (c := c) (a := a) s).trans (issues_release _)
  unfold complete
  split_ifs
  · exact .refl s
  · dsimp only
    exact .ite (h.closing.tell fun _ => nofun) h.closing

theorem issues_fail (s : ScanState) (error : Exception) : Issues c a s (s.fail error) := by
  have h := (issues_finished (c := c) (a := a) s).trans (issues_release _)
  unfold fail
  split_ifs
  · exact .refl s
  · dsimp only
    exact .ite (h.closing.tell fun _ => nofun) h.closing

theorem issues_cancel (s : ScanState) : Issues c a s s.cancel := by
  unfold cancel
  refine .ite (.refl s) ?_
  dsimp only
  exact .ite ((issues_complete _).of rfl rfl) (.none rfl fun _ => id)

theorem issues_bind (s : ScanState) : Issues c a s s.bind := by
  unfold bind
  dsimp only
  exact .ite ((issues_complete _).of rfl rfl) (.none rfl fun _ => id)

theorem issues_emit (s : ScanState) : Issues c a s (s.emit c a) := by
  by_cases hf : s.finished = true
  · rw [emit, if_pos hf]
    exact .refl s
  rw [emit, if_neg hf]
  split
  · rename_i k header hk hheader
    dsimp only
    generalize hr : releaseResources _ = r
    have h : Issues c a s r := by
      rw [← hr]
      refine .trans ?_ (issues_release _)
      exact (issues_finished s).to rfl fun _ => id
    -- the one thing that is told of
    have htold {thing : SunspecThing} (hendpoint : thing.endpoint = c.endpoint k)
        (hunit : thing.unitId = header.unitId) : Issues c a s ({ r with
          completeObserver := false
          nextObserver := false
          errorObserver := false }.tell (.onNext thing)) := by
      refine ⟨h.calls, h.session, h.started, h.header, fun thing' hthing => ?_⟩
      rcases List.mem_append.1 hthing with hthing | hthing
      · exact h.told thing' hthing
      · cases List.mem_singleton.1 hthing
        exact .inr ⟨k, header, hheader, hendpoint, hunit⟩
    refine .ite (.tell ?_ fun _ => nofun) ?_ <;>
      exact .ite (.ite ((htold rfl rfl).trans (issues_cancel _)) (htold rfl rfl)) h.closing
  · exact .refl s

/-! ### Reads -/

theorem issues_readHoldingRegisters (s : ScanState) (call : ReadCall) :
    Issues c a s (s.readHoldingRegisters call) :=
  ⟨⟨[call], rfl, rfl⟩, .inl rfl, rfl, rfl,
    fun _ h => .inl (by simpa [readHoldingRegisters, tell] using h)⟩

/-- What a reader does, where its success callback asks for reads alone. -/
theorem issues_act {onSuccess : ScanState → ReadSuccess → Registers → ScanState}
    (h : ∀ s callback registers, Issues c a s (onSuccess s callback registers)) (s : ScanState)
    (n : ℕ) (p : LogicalRegisterReader × ReaderAction) : Issues c a s (s.act onSuccess n p) := by
  have hset : Issues c a s { s with readers := s.readers.set n p.1 } :=
    .none rfl fun _ => id
  unfold act
  dsimp only
  split
  · exact hset
  · split
    · exact hset.trans (issues_readHoldingRegisters _ _)
    · exact hset
  · exact hset.trans (h _ _ _)
  · exact hset.trans (issues_complete _)

theorem issues_read (s : ScanState) (address count : ℕ) (success : ReadSuccess) :
    Issues c a s (s.read address count success) := by
  unfold read
  split
  · dsimp only
    exact (issues_act (fun s _ _ => .refl s) _ _ _).of rfl rfl
  · exact .refl s

theorem issues_readCommonModel (s : ScanState) : Issues c a s (s.readCommonModel c) := by
  unfold readCommonModel
  split
  · exact .refl s
  · exact .ite (issues_complete s) (issues_read s _ _ _)

theorem issues_readModelHeader (s : ScanState) : Issues c a s (s.readModelHeader c) :=
  .ite (issues_complete s) (issues_read s _ _ _)

theorem issues_onCommonModel (s : ScanState) (registers : Registers) (commonLength : ℕ) :
    Issues c a s (s.onCommonModel c registers commonLength) := by
  refine .ite (issues_complete s) ?_
  dsimp only
  exact (issues_readModelHeader _).of rfl rfl

theorem issues_onModelHeader (s : ScanState) (header : Registers) :
    Issues c a s (s.onModelHeader c a header) := by
  refine .ite (issues_complete s) ?_
  split
  · refine .ite (.ite (issues_emit s) (issues_complete s)) (.ite (issues_complete s) ?_)
    split
    · exact issues_complete s
    · refine .ite (issues_complete s) ?_
      dsimp only
      exact .ite ((issues_readModelHeader _).of rfl rfl)
        ((issues_read _ _ _ _).of rfl rfl)
  · exact issues_complete s

theorem issues_onModelPayload (s : ScanState) (registers : Registers)
    (nextHeaderAddress modelLength : ℕ) :
    Issues c a s (s.onModelPayload c registers nextHeaderAddress modelLength) :=
  .ite (issues_complete s) ((issues_readModelHeader _).of rfl rfl)

theorem issues_succeed (s : ScanState) (callback : ReadSuccess) (registers : Registers) :
    Issues c a s (s.succeed c a callback registers) := by
  cases callback with
  | onCommonModel commonLength => exact issues_onCommonModel s registers commonLength
  | onModelHeader => exact issues_onModelHeader s registers
  | onModelPayload next length => exact issues_onModelPayload s registers next length

/-! ### Probes -/

theorem issues_probeNextUnit (s : ScanState) : Issues c a s (s.probeNextUnit c) := by
  refine .ite (.refl s) (.ite (issues_complete s) ?_)
  split
  · exact issues_readHoldingRegisters s _
  · exact .refl s

theorem issues_advanceUnit (s : ScanState) (retry : Bool) :
    Issues c a s (s.advanceUnit c retry) :=
  (issues_probeNextUnit _).of rfl rfl

theorem issues_replaceClosedSession (s : ScanState) :
    Issues c a s (s.replaceClosedSession a).1 := by
  unfold replaceClosedSession
  dsimp only
  split
  · rename_i k hk
    exact ⟨⟨[], (List.append_nil _).symm, (List.append_nil _).symm⟩, .inr ⟨k, rfl, .inr hk⟩, rfl, rfl,
      fun _ h => .inl (by simpa [tell] using h)⟩
  · exact ((Issues.refl s).tell (e := .replacementFactory) fun _ => (by simp)).trans (issues_fail _ _)
  · exact ((Issues.refl s).tell (e := .replacementFactory) fun _ => (by simp)).trans (issues_fail _ _)

theorem issues_acquireSession (s : ScanState) : Issues c a s (s.acquireSession a).1 := by
  unfold acquireSession
  dsimp only
  split
  · rename_i k hk
    exact ⟨⟨[], (List.append_nil _).symm, (List.append_nil _).symm⟩, .inr ⟨k, rfl, .inl hk⟩, rfl, rfl,
      fun _ h => .inl (by simpa [tell] using h)⟩
  · exact ((Issues.refl s).tell (e := .subscriptionFactory) fun _ => (by simp)).trans (issues_fail _ _)
  · exact ((Issues.refl s).tell (e := .subscriptionFactory) fun _ => (by simp)).trans (issues_fail _ _)

/-- The scan selects the unit it has probed, or none. -/
theorem issues_onProbeResponse (s : ScanState) (unitId : UInt8) (registers : Registers) :
    ∃ header, (header = s.selectedHeader ∨ header = some { unitId, registers }) ∧
      Issues c a { s with selectedHeader := header } (s.onProbeResponse c a unitId registers) := by
  have hsame (h : Issues c a s (s.onProbeResponse c a unitId registers)) :
      ∃ header, (header = s.selectedHeader ∨ header = some { unitId, registers }) ∧
        Issues c a { s with selectedHeader := header }
          (s.onProbeResponse c a unitId registers) := ⟨s.selectedHeader, .inl rfl, h⟩
  have hreplace := issues_replaceClosedSession (c := c) (a := a) s
  unfold onProbeResponse at hsame ⊢
  split_ifs at hsame ⊢ with hf hheader hfixed hclosed
  · exact hsame (.refl s)
  · exact hsame (issues_complete s)
  · refine hsame ?_
    split
    · rename_i t heq
      rw [heq] at hreplace
      exact hreplace
    · rename_i t heq
      rw [heq] at hreplace
      exact hreplace.trans (issues_advanceUnit t false)
  · exact hsame (issues_advanceUnit s true)
  · split
    · refine ⟨some { unitId, registers }, .inr rfl, ?_⟩
      dsimp only
      refine .trans ?_ (issues_readCommonModel _)
      exact (Issues.refl _).tell fun _ => nofun
    · exact ⟨s.selectedHeader, .inl rfl, .refl s⟩

theorem issues_onProbeFailure (s : ScanState) : Issues c a s (s.onProbeFailure c a) := by
  refine .ite (.refl s) (.ite (issues_complete s) (.ite ?_ (issues_advanceUnit s false)))
  have h := issues_replaceClosedSession (c := c) (a := a) s
  split
  · rename_i t heq
    rw [heq] at h
    exact h
  · rename_i t heq
    rw [heq] at h
    refine h.trans (.ite ?_ (issues_advanceUnit t false))
    exact (issues_probeNextUnit _).of rfl rfl

theorem issues_startInLoop (s : ScanState) : Issues c a s (s.startInLoop c a) := by
  have hbind := issues_bind (c := c) (a := a) s
  refine .ite hbind ?_
  have hacquire := hbind.trans (issues_acquireSession (c := c) (a := a) s.bind)
  split
  · rename_i t heq
    rw [heq] at hacquire
    exact hacquire
  · rename_i t heq
    rw [heq] at hacquire
    refine .ite ?_ (hacquire.trans (issues_probeNextUnit t))
    have hreplace := hacquire.trans (issues_replaceClosedSession (c := c) (a := a) t)
    split
    · rename_i u heq
      rw [heq] at hreplace
      exact hreplace
    · rename_i u heq
      rw [heq] at hreplace
      exact hreplace.trans (issues_probeNextUnit u)

/-! ### Answers -/

theorem issues_onChunk (s : ScanState) (n count : ℕ) (registers : Registers) :
    Issues c a s (s.onChunk c a n count registers) := by
  unfold onChunk
  split
  · exact .refl s
  · rename_i reader _
    have h := issues_act (issues_succeed (c := c) (a := a)) s n (reader.onNext count registers)
    dsimp only
    split
    · exact h
    · exact h.trans (issues_act issues_succeed _ _ _)

/-- The header that is selected when the read `n` is replied to. -/
def Selects (s : ScanState) (call : ReadCall) (header : Option SelectedHeader) : Prop :=
  header = s.selectedHeader ∨
    call.callback = .probe ∧ ∃ registers, header = some { unitId := call.unitId, registers }

theorem issues_onReply {n : ℕ} {call : ReadCall} (hn : n ∈ s.pending)
    (hcall : s.reads[n]? = some call) (registers : Registers) :
    ∃ header, s.Selects call header ∧
      Issues c a { s with pending := s.pending.erase n, selectedHeader := header }
        (s.onReply c a n registers) := by
  rw [onReply, if_pos hn, hcall]
  dsimp only
  split
  · rename_i hprobe
    obtain ⟨header, hheader, h⟩ := issues_onProbeResponse (c := c) (a := a)
      { s with pending := s.pending.erase n } call.unitId registers
    exact ⟨header, hheader.imp_right fun heq => ⟨hprobe, _, heq⟩, h⟩
  · exact ⟨s.selectedHeader, .inl rfl, issues_onChunk _ _ _ _⟩

theorem issues_onReadFailure {n : ℕ} {call : ReadCall} (hn : n ∈ s.pending)
    (hcall : s.reads[n]? = some call) :
    Issues c a { s with pending := s.pending.erase n } (s.onReadFailure c a n) := by
  rw [onReadFailure, if_pos hn, hcall]
  dsimp only
  split
  · exact issues_onProbeFailure _
  · split
    · exact .refl _
    · exact issues_act issues_succeed _ _ _

/-! ### One read at a time -/

/-- The scan goes on and waits for the read `n`, which it asked of its session `k`. -/
structure Expects (s : ScanState) (k n : ℕ) : Prop where
  started : s.started = true
  unfinished : s.finished = false
  pending : s.pending = [n]
  holds : s.session = some k
  call : ∃ call, s.reads[n]? = some call ∧ call.session = k

/-- A scan that has started and is not over waits for one read. -/
theorem Phase.expects (h : Phase c s) (hs : s.started = true) :
    s.Over c ∨ ∃ k n, s.Expects k n := by
  cases h with
  | idle h =>
    rw [h] at hs
    cases hs
  | sweeping h => exact .inr ⟨_, _, hs, h.finished, h.pending, h.holds, _, h.call, rfl⟩
  | walking h => exact .inr ⟨_, _, hs, h.finished, h.pending, h.holds, _, h.call, rfl⟩
  | ended h => exact .inl h

/-- The scan is over, or asks for one read more: of the session it had, or of one that a
factory has made. -/
def Proceeds (c : Config) (a : Answers) (s t : ScanState) : Prop :=
  t.Over c ∨ ∃ k, t.Expects k s.reads.length ∧ s.reads <+: t.reads ∧
    t.reads.length = s.reads.length + 1 ∧
    (s.session = some k ∨ a.subscription = .session k ∨ a.replacement = .session k)

/-- A callback that leaves the scan within its phases asks for one read. -/
theorem Issues.proceeds (h : Issues c a s t) (hs : s.started = true) (hpending : s.pending = [])
    (hphase : Phase c t) : Proceeds c a s t := by
  obtain ⟨⟨l, hreads, hl⟩, hsession, hstarted, -, -⟩ := h
  rcases hphase.expects (hstarted.trans hs) with hover | ⟨k, n, hexpects⟩
  · exact .inl hover
  rw [hpending, List.nil_append, hexpects.pending] at hl
  obtain ⟨hn, hlength⟩ : n = s.reads.length ∧ l.length = 1 := by
    have hlength : l.length = 1 := by
      have := congrArg List.length hl
      rw [List.length_range'] at this
      exact this.symm
    rw [hlength] at hl
    exact ⟨List.cons.inj hl |>.1, hlength⟩
  refine .inr ⟨k, hn ▸ hexpects, hreads ▸ List.prefix_append _ _,
    by rw [hreads, List.length_append, hlength], ?_⟩
  rcases hsession with hsession | ⟨k', hk', hmade⟩
  · exact .inl (hsession.symm.trans hexpects.holds)
  · rw [hexpects.holds] at hk'
    obtain rfl := Option.some.inj hk'
    exact .inr hmade

variable {k n : ℕ}

theorem Expects.onReply (h : s.Expects k n) (hphase : Phase c s) (registers : Registers) :
    Proceeds c a s (s.onReply c a n registers) := by
  obtain ⟨call, hcall, -⟩ := h.call
  obtain ⟨header, -, hissues⟩ := issues_onReply (c := c) (a := a)
    (h.pending ▸ List.mem_singleton_self n) hcall registers
  refine hissues.proceeds h.started ?_ (hphase.step (.reply n registers a))
  show s.pending.erase n = []
  rw [h.pending, List.erase_cons_head]

theorem Expects.onReadFailure (h : s.Expects k n) (hphase : Phase c s) :
    Proceeds c a s (s.onReadFailure c a n) := by
  obtain ⟨call, hcall, -⟩ := h.call
  have hissues := issues_onReadFailure (c := c) (a := a)
    (h.pending ▸ List.mem_singleton_self n) hcall
  refine hissues.proceeds h.started ?_ (hphase.step (.failure n a))
  show s.pending.erase n = []
  rw [h.pending, List.erase_cons_head]

/-! ### The things told of -/

/-- The header selected is of the unit that is asked for, where one is. -/
def OwnUnit (c : Config) (s : ScanState) : Prop :=
  ∀ header unitId, s.selectedHeader = some header → c.fixedUnitId = some unitId →
    header.unitId = unitId

/-- The things a scan has told of are of its endpoint, and of the unit asked for. -/
structure Truthful (c : Config) (s : ScanState) : Prop where
  unit : s.Over c ∨ s.OwnUnit c
  told : ∀ thing, .onNext thing ∈ s.log → (∃ k, thing.endpoint = c.endpoint k) ∧
    ∀ unitId, c.fixedUnitId = some unitId → thing.unitId = unitId

theorem Issues.truthful (h : Issues c a s t) (hunit : s.OwnUnit c)
    (htold : ∀ thing, .onNext thing ∈ s.log → (∃ k, thing.endpoint = c.endpoint k) ∧
      ∀ unitId, c.fixedUnitId = some unitId → thing.unitId = unitId) : t.Truthful c where
  unit := .inr fun header unitId hheader => hunit header unitId (h.header ▸ hheader)
  told thing hthing := by
    rcases h.told thing hthing with hthing | ⟨k, header, hheader, hendpoint, hthing⟩
    · exact htold thing hthing
    · exact ⟨⟨k, hendpoint⟩, fun unitId hfixed => hthing.trans (hunit header unitId hheader hfixed)⟩

theorem Truthful.step (h : s.Truthful c) (hphase : Phase c s) (e : Event) :
    (Sunspec.step c s e).Truthful c := by
  by_cases hover : s.Over c
  · obtain ⟨hover', hlog, -⟩ := hover.step e
    exact ⟨.inl hover', fun thing hthing => h.told thing (hlog ▸ hthing)⟩
  have hunit := h.unit.resolve_left hover
  cases e with
  | startInLoop a =>
    simp only [Sunspec.step]
    split
    · exact h
    · exact (issues_startInLoop (a := a) { s with started := true }).truthful hunit h.told
  | cancel => exact (issues_cancel (a := ⟨false, .null, .null, false⟩) s).truthful hunit h.told
  | failure n a =>
    simp only [Sunspec.step]
    by_cases hn : n ∈ s.pending
    · cases hcall : s.reads[n]? with
      | none =>
        rw [onReadFailure, if_pos hn, hcall]
        exact h
      | some call => exact (issues_onReadFailure hn hcall).truthful hunit h.told
    · rw [onReadFailure, if_neg hn]
      exact h
  | reply n registers a =>
    simp only [Sunspec.step]
    by_cases hn : n ∈ s.pending
    · cases hcall : s.reads[n]? with
      | none =>
        rw [onReply, if_pos hn, hcall]
        exact h
      | some call =>
        obtain ⟨header, hheader, hissues⟩ := issues_onReply (c := c) (a := a) hn hcall registers
        refine hissues.truthful (fun header' unitId heq hfixed => ?_) h.told
        rcases hheader with rfl | ⟨hprobe, registers', rfl⟩
        · exact hunit header' unitId heq hfixed
        -- the probe was of the unit asked for
        · obtain rfl := Option.some.inj heq
          cases hphase with
          | idle hidle =>
            rw [hidle] at hn
            cases hn
          | sweeping hs =>
            rw [hs.pending, List.mem_singleton] at hn
            rw [hn, hs.call] at hcall
            obtain rfl := Option.some.inj hcall
            have hcurrent := hs.unit
            rw [currentUnit, hfixed] at hcurrent
            exact (Option.some.inj hcurrent).symm
          | walking hw =>
            rw [hw.pending, List.mem_singleton] at hn
            rw [hn, hw.call] at hcall
            obtain rfl := Option.some.inj hcall
            cases hprobe
          | ended hended => exact absurd hended hover
    · rw [onReply, if_neg hn]
      exact h

end ScanState

theorem machine_truthful (c : Config) :
    (machine c).Invariant fun s => s.Phase c ∧ s.Truthful c where
  init s hs := by
    obtain rfl : s = {} := hs
    refine ⟨.idle rfl, .inr fun header unitId h => ?_, fun _ h => absurd h List.not_mem_nil⟩
    cases h
  next _ e h _ := ⟨h.1.step e, h.2.step h.1 e⟩

end Neubau.Sunspec
