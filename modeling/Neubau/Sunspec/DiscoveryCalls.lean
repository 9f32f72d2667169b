import Neubau.Sunspec.DiscoverySteps

/-! What each function of a discovery needs, and what it and all it brings about do.
A callback of a scan moves the discovery forward, and is followed by the calls with
which the scan reports its end. Closing sessions is silent where the scans are
quiet. -/

namespace Neubau.Sunspec.Discovery

open Neubau.Common Neubau.Modbus Neubau.Transition

variable {o : SunspecDiscoveryOptions}

namespace State

variable {d t u : State} {i : ℕ} {e : EndpointScan}

/-- There is an endpoint `i`, and `P` holds of it. -/
def At (d : State) (i : ℕ) (P : EndpointScan → Prop) : Prop :=
  ∃ e, d.endpoints[i]? = some e ∧ P e

theorem Later.atOver (h : Later o d t) (hd : d.At i (·.Over o)) : t.At i (·.Over o) := by
  obtain ⟨e, he, hover⟩ := hd
  obtain ⟨f, hf, hadvances⟩ := h.endpoints i e he
  exact ⟨f, hf, hadvances.over hover⟩

theorem Later.atQuiet (h : Later o d t) (hd : d.At i (·.Quiet o)) : t.At i (·.Quiet o) := by
  obtain ⟨e, he, hquiet⟩ := hd
  obtain ⟨f, hf, hadvances⟩ := h.endpoints i e he
  exact ⟨f, hf, hadvances.quiet hquiet⟩

/-- The sessions are closed. -/
def Shut (d : State) (sessions : List ℕ) : Prop :=
  ∀ j ∈ sessions, ∀ s, d.created[j]? = some s → s.closed = true

theorem Later.shut (h : Later o d t) {sessions : List ℕ} (hd : d.Shut sessions)
    (hlt : t.created.length = d.created.length) : t.Shut sessions := by
  intro j hj s hs
  have hlt' : j < d.created.length := hlt ▸ (List.getElem?_eq_some_iff.1 hs).1
  obtain ⟨s', hs', -, hclosed⟩ := h.created j _ (List.getElem?_eq_getElem hlt')
  obtain rfl : s' = s := Option.some_inj.1 (hs'.symm.trans hs)
  exact hclosed (hd j hj _ (List.getElem?_eq_getElem hlt'))

theorem Later.allQuiet (h : Later o d t) (hlength : t.endpoints.length = d.endpoints.length)
    (hd : d.AllQuiet o) : t.AllQuiet o := by
  intro f hf
  obtain ⟨e, he, hadvances⟩ := h.mem_endpoints hlength hf
  exact hadvances.quiet (hd e he)

theorem Later.allClosed (h : Later o d t) (hlength : t.created.length = d.created.length)
    (hd : d.AllClosed) : t.AllClosed := by
  intro s hs
  obtain ⟨j, hj⟩ := List.mem_iff_getElem?.1 hs
  have hlt : j < d.created.length := hlength ▸ (List.getElem?_eq_some_iff.1 hj).1
  obtain ⟨s', hs', -, hclosed⟩ := h.created j _ (List.getElem?_eq_getElem hlt)
  obtain rfl : s' = s := Option.some_inj.1 (hs'.symm.trans hj)
  exact hclosed (hd _ (List.getElem_mem hlt))

/-- What is open of the sessions of completed endpoints is of the endpoint `i` and
among `sessions`. -/
def SealedBut (d : State) (i : ℕ) (sessions : List ℕ) : Prop :=
  ∀ (k : ℕ) e, d.endpoints[k]? = some e → e.completed = true → ∀ (j : ℕ) s,
    d.created[j]? = some s → s.owner = k → s.closed = true ∨ k = i ∧ j ∈ sessions

theorem Sealed.but (h : d.Sealed) (i : ℕ) (sessions : List ℕ) : d.SealedBut i sessions :=
  fun k e he hcompleted _ s hs howner =>
    .inl (h k e he hcompleted s (List.mem_of_getElem? hs) howner)

theorem SealedBut.isSealed (h : d.SealedBut i []) : d.Sealed := by
  intro k e he hcompleted s hs howner
  obtain ⟨j, hj⟩ := List.mem_iff_getElem?.1 hs
  rcases h k e he hcompleted j s hj howner with hclosed | ⟨-, hmem⟩
  · exact hclosed
  · cases hmem

/-! ### The contract -/

/-- The discovery went on, and is at rest. -/
structure Moves (o : SunspecDiscoveryOptions) (d t : State) : Prop extends Grows o d t where
  rest : Rest o t

theorem Moves.refl (h : Rest o d) : Moves o d d := ⟨.refl d, h⟩

theorem Grows.moves (h₁ : Grows o d t) (h₂ : Moves o t u) : Moves o d u :=
  ⟨h₁.trans h₂.toGrows, h₂.rest⟩

/-- Sessions were closed and quiet scans called, and nothing came of it. -/
structure Silent (o : SunspecDiscoveryOptions) (d t : State) : Prop extends Grows o d t where
  still : Still d t
  sound : Sound o t
  length : t.endpoints.length = d.endpoints.length
  created_length : t.created.length = d.created.length
  sessions : ∀ (i : ℕ) f, t.endpoints[i]? = some f →
    ∃ e, d.endpoints[i]? = some e ∧ f.sessions = e.sessions
  failing_eq : t.failing = d.failing
  terminal_eq : t.terminal = d.terminal
  log : t.log = d.log

theorem Silent.refl (h : Sound o d) : Silent o d d where
  toGrows := .refl d
  still := .same rfl rfl
  sound := h
  length := rfl
  created_length := rfl
  sessions _ f hf := ⟨f, hf, rfl⟩
  failing_eq := rfl
  terminal_eq := rfl
  log := rfl

theorem Silent.trans (h₁ : Silent o d t) (h₂ : Silent o t u) : Silent o d u where
  toGrows := h₁.toGrows.trans h₂.toGrows
  still := h₁.still.trans h₂.still
  sound := h₂.sound
  length := h₂.length.trans h₁.length
  created_length := h₂.created_length.trans h₁.created_length
  sessions i g hg := by
    obtain ⟨f, hf, hsessions⟩ := h₂.sessions i g hg
    obtain ⟨e, he, hsessions'⟩ := h₁.sessions i f hf
    exact ⟨e, he, hsessions.trans hsessions'⟩
  failing_eq := h₂.failing_eq.trans h₁.failing_eq
  terminal_eq := h₂.terminal_eq.trans h₁.terminal_eq
  log := h₂.log.trans h₁.log

/-- Those that were closed on the way are open no more. -/
theorem Silent.sealedBut {before after : List ℕ} (h : Silent o d t)
    (hd : d.SealedBut i (before ++ after)) (hshut : t.Shut before) : t.SealedBut i after := by
  intro k f hf hcompleted j s hs howner
  obtain ⟨e, he, hcompleted'⟩ := h.still.finished k f hf hcompleted
  have hlt : j < d.created.length := h.created_length ▸ (List.getElem?_eq_some_iff.1 hs).1
  have hj := List.getElem?_eq_getElem hlt
  obtain ⟨s', hs', howner', hclosed⟩ := h.created j _ hj
  obtain rfl : s' = s := Option.some_inj.1 (hs'.symm.trans hs)
  rcases hd k e he hcompleted' j _ hj (howner'.symm.trans howner) with hd | ⟨rfl, hmem⟩
  · exact .inl (hclosed hd)
  · rcases List.mem_append.1 hmem with hmem | hmem
    · exact .inl (hshut j hmem s' hs)
    · exact .inr ⟨rfl, hmem⟩

theorem Silent.moves (h : Rest o d) (hs : Silent o d t) : Moves o d t :=
  ⟨hs.toGrows, h.later hs.toLater hs.still hs.sound⟩

/-- What each action needs, and what it does with all that it brings. -/
def contract (o : SunspecDiscoveryOptions) : Contract State Action where
  pre
    | .cancel i, d => Rest o d ∧ d.At i fun _ => True
    | .readFails i _, d => Sound o d ∧ d.At i (·.Quiet o)
    | .scannerFailed i _, d => Rest o d ∧ d.At i (·.Over o)
    | .scannerCompleted i, d => Rest o d ∧ d.At i (·.Over o)
    | .scannerClosed, d => Sound o d ∧ d.Sealed
    | .closeSessions i sessions, d =>
      Sound o d ∧ d.At i (·.Quiet o) ∧ d.SealedBut i sessions
    | .cancelEndpoints i, d => Rest o d ∧ ∀ k < i, d.At k (·.Quiet o)
    | .closeEndpoints _, d => Sound o d ∧ d.AllQuiet o ∧ d.Sealed
    | .finishComplete, d => Sound o d ∧ d.failing = false ∧ d.terminal = false ∧ d.AllClosed ∧
      d.AllQuiet o ∧ (d.Done ∨ Early d.log)
    | .finishFail _, d =>
      Sound o d ∧ d.failing = true ∧ d.terminal = false ∧ d.AllClosed ∧ d.AllQuiet o
    | .releaseResources, d => Rest o d ∧ d.terminal = true
    | _, d => Rest o d
  post
    | .cancel i, d, t => Moves o d t ∧ t.At i (·.Quiet o)
    | .cancelEndpoints _, d, t => Moves o d t ∧ t.AllQuiet o
    | .readFails _ _, d, t => Silent o d t
    | .closeSessions _ sessions, d, t => Silent o d t ∧ t.Shut sessions
    | .closeEndpoints i, d, t => Silent o d t ∧
      ∀ (k : ℕ) e, i ≤ k → d.endpoints[k]? = some e → t.Shut e.sessions
    | .finishFail _, d, t => Later o d t ∧ Rest o t
    | _, d, t => Moves o d t

/-- A function that got to `r` from `d` went on, and leaves what ensures `Q`. -/
def Meets (o : SunspecDiscoveryOptions) (d : State) (r : Result) (Q : State → Prop) : Prop :=
  Later o d r.1 ∧ (contract o).Ensures r.1 r.2 Q

/-- A function that is at its end. -/
theorem Meets.done (h : Rest o d) : Meets o d (d, []) (Moves o d) := ⟨.refl d, .refl h⟩

/-- A function whose first part moves the discovery forward. -/
theorem Grows.meets {r : Result} (h : Grows o d r.1)
    (hr : (contract o).Ensures r.1 r.2 (Moves o r.1)) : Meets o d r (Moves o d) :=
  ⟨h.toLater, hr.imp fun _ hu => h.moves hu⟩

/-- A function that goes on as another one. -/
theorem Grows.andMeets {r : Result} (h : Grows o d t) (hr : Meets o t r (Moves o t)) :
    Meets o d r (Moves o d) :=
  ⟨h.toLater.trans hr.1, hr.2.imp fun _ hu => h.moves hu⟩

/-! ### A callback of a scan -/

theorem callScan_none (hi : d.endpoints[i]? = none) (call : ScanCall) :
    d.callScan o i call = (d, []) := by rw [callScan, hi]

/-- The scan of an endpoint behind a callback. -/
def afterCall (o : SunspecDiscoveryOptions) (d : State) (e : EndpointScan) (call : ScanCall) :
    ScanState :=
  Sunspec.step (e.config o) e.scan (call.event (d.answers e))

/-- What the scan of the endpoint `i` tells its observer in a callback. -/
def toldBy (o : SunspecDiscoveryOptions) (d : State) (i : ℕ) (e : EndpointScan)
    (call : ScanCall) : List Action :=
  (told i (d.afterCall o e call)).drop (told i e.scan).length

theorem callScan_some (he : d.endpoints[i]? = some e) (call : ScanCall) :
    d.callScan o i call =
      if replacements e.scan < replacements (d.afterCall o e call) ∧ d.refuses = false then
        ((d.createSession i).update i { e with
          scan := d.afterCall o e call, sessions := e.sessions ++ [d.created.length] },
          d.toldBy o i e call)
      else (d.update i { e with scan := d.afterCall o e call }, d.toldBy o i e call) := by
  rw [callScan, he]
  rfl

theorem afterCall_advances (d : State) (e : EndpointScan) (call : ScanCall) (sessions : List ℕ) :
    EndpointScan.Advances o e { e with scan := d.afterCall o e call, sessions } :=
  ⟨rfl, rfl, id, id, ScanState.step_advances _ _⟩

/-- A scan that asks for another session is not over. -/
theorem incomplete_of_replacements (h : e.Fits o d.terminal) (call : ScanCall)
    (hlt : replacements e.scan < replacements (d.afterCall o e call)) :
    e.completed = false := by
  by_contra hcompleted
  have hover := h.ended (by simpa using hcompleted)
  have hquiet : e.scan.Quiet (e.config o) := .inl hover
  rw [replacements, replacements, afterCall, hquiet.step_replacements] at hlt
  exact lt_irrefl _ hlt

/-- An endpoint that goes on with one session more. -/
theorem replace_spec {f : EndpointScan} (h : Sound o d) (hr : d.refuses = false)
    (he : d.endpoints[i]? = some e) (hf : EndpointScan.Advances o e f)
    (hcontrol : f.control = e.control) (hsessions : f.sessions = e.sessions ++ [d.created.length])
    (hcompleted : f.completed = false) :
    Grows o d ((d.createSession i).update i f) ∧ Still d ((d.createSession i).update i f) ∧
      Sound o ((d.createSession i).update i f) := by
  have hi : (d.update i f).endpoints[i]? = some f := (getElem?_update he f i).trans (if_pos rfl)
  have hupdate : Sound o (d.update i f) :=
    h.update he hf hcontrol (fun j hj => hsessions ▸ List.mem_append_left _ hj)
      (fun hc => by simp [hcompleted] at hc)
  have hmade : Grows o (d.update i f) ((d.update i f).createSession i) := by
    refine Grows.createSession hr fun f' hf' => ?_
    obtain rfl := Option.some_inj.1 (hi.symm.trans hf')
    exact hcompleted
  have hstill : Still d (d.update i f) := .update he fun hc => by simp [hcompleted] at hc
  refine ⟨(Grows.update he hf).trans hmade, ⟨hstill.finished, hstill.upstream⟩, ?_⟩
  refine hupdate.createSession hr hi hcompleted ?_
  rw [hsessions]
  exact List.mem_append_right _ (List.mem_singleton_self _)

theorem callScan_spec (h : Sound o d) (he : d.endpoints[i]? = some e) (call : ScanCall) :
    Grows o d (d.callScan o i call).1 ∧ Still d (d.callScan o i call).1 ∧
      Sound o (d.callScan o i call).1 ∧ (∃ sessions, (d.callScan o i call).1.endpoints[i]? =
        some { e with scan := d.afterCall o e call, sessions }) ∧
      (d.callScan o i call).2 = d.toldBy o i e call := by
  have hfits := h.fits e (List.mem_of_getElem? he)
  rw [callScan_some he]
  split
  case isTrue hnew =>
    have hcompleted := incomplete_of_replacements hfits call hnew.1
    obtain ⟨hgrows, hstill, hsound⟩ := replace_spec h hnew.2 he
      (afterCall_advances d e call _) rfl rfl hcompleted
    exact ⟨hgrows, hstill, hsound, ⟨_, (getElem?_update he _ i).trans (if_pos rfl)⟩, rfl⟩
  case isFalse =>
    have hadvances := afterCall_advances (o := o) d e call e.sessions
    exact ⟨Grows.update he hadvances, Still.update he id,
      h.update he hadvances rfl (fun _ => id) (fun hc => hadvances.over (hfits.ended hc)),
      ⟨_, (getElem?_update he _ i).trans (if_pos rfl)⟩, rfl⟩

/-- The failure of a read does nothing to a quiet scan. -/
theorem callScan_failure (h : Sound o d) (he : d.endpoints[i]? = some e) (hq : e.Quiet o)
    (read : ℕ) : Silent o d (d.callScan o i (.failure read)).1 ∧
      (d.callScan o i (.failure read)).2 = [] := by
  have hlog : (d.afterCall o e (.failure read)).log = e.scan.log :=
    ScanState.Quiet.failure_log hq read (d.answers e)
  have heq : d.callScan o i (.failure read) =
      (d.update i { e with scan := d.afterCall o e (.failure read) }, []) := by
    have htold : d.toldBy o i e (.failure read) = [] := by
      rw [toldBy, told, told, hlog, List.drop_length]
    rw [callScan_some he, htold]
    refine if_neg fun hnew => ?_
    rw [replacements, replacements, hlog] at hnew
    exact lt_irrefl _ hnew.1
  obtain ⟨hgrows, hstill, hsound, -, -⟩ := callScan_spec h he (.failure read)
  rw [heq] at hgrows hstill hsound ⊢
  refine ⟨⟨hgrows, hstill, hsound, List.length_set, rfl, fun j f hf => ?_, rfl, rfl, rfl⟩, rfl⟩
  rw [getElem?_update he] at hf
  split at hf
  case isTrue hj =>
    obtain rfl := Option.some_inj.1 hf
    exact ⟨e, hj ▸ he, rfl⟩
  case isFalse => exact ⟨f, hf, rfl⟩

end State

end Neubau.Sunspec.Discovery
