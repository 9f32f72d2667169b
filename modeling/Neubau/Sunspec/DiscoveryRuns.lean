import Neubau.Sunspec.DiscoveryCalls

/-! Every function of a discovery keeps its contract, whatever calls come in between
from outside. So what is left to be done always ensures that the discovery comes to
rest, and it goes on with every event. -/

namespace Neubau.Sunspec.Discovery

open Neubau.Common Neubau.Modbus Neubau.Transition

variable {o : SunspecDiscoveryOptions}

namespace State

variable {d t u : State} {i : ℕ} {e : EndpointScan} {Q : State → Prop}

/-! ### The calls of a scan -/

/-- A scan reports its end. -/
theorem Report.ensures {calls : List Action} (hr : Report i calls) (h : Rest o d)
    (hover : d.At i (·.Over o)) : (contract o).Ensures d calls (Moves o d) := by
  cases hr with
  | completed => exact ⟨⟨h, hover⟩, fun t ht => ht⟩
  | failed error => exact ⟨⟨h, hover⟩, fun t ht => ht⟩
  | emitted thing =>
    refine ⟨h, fun t ht => ⟨⟨ht.rest, ht.toLater.atOver hover⟩, fun u hu => ?_⟩⟩
    exact ht.toGrows.moves hu

theorem callScan_grows (h : Sound o d) (i : ℕ) (call : ScanCall) :
    Grows o d (d.callScan o i call).1 := by
  cases hi : d.endpoints[i]? with
  | none =>
    rw [callScan_none hi]
    exact .refl d
  | some e => exact (callScan_spec h hi call).1

/-- What the scan reports in a callback. -/
theorem callScan_ensures (h : Rest o d) (i : ℕ) (call : ScanCall) :
    (contract o).Ensures (d.callScan o i call).1 (d.callScan o i call).2
      (Moves o (d.callScan o i call).1) := by
  cases hi : d.endpoints[i]? with
  | none =>
    rw [callScan_none hi]
    exact .refl h
  | some e =>
    obtain ⟨hgrows, hstill, hsound, ⟨sessions, hi'⟩, htold⟩ := callScan_spec h.toSound hi call
    have hrest := h.later hgrows.toLater hstill hsound
    have hphase := (h.fits e (List.mem_of_getElem? hi)).phase
    rw [htold]
    rcases told_step hphase (call.event (d.answers e)) i with hnil | ⟨-, hover, hreport⟩
    · rw [toldBy, afterCall, hnil]
      exact .refl hrest
    · exact Report.ensures hreport hrest ⟨_, hi', hover⟩

theorem callScan_meets (h : Rest o d) (i : ℕ) (call : ScanCall) :
    Meets o d (d.callScan o i call) (Moves o d) :=
  (callScan_grows h.toSound i call).meets (callScan_ensures h i call)

/-- A scan that is cancelled is quiet. -/
theorem cancel_meets (h : Rest o d) (hi : d.At i fun _ => True) :
    Meets o d (d.callScan o i .cancel) fun t => Moves o d t ∧ t.At i (·.Quiet o) := by
  obtain ⟨e, he, -⟩ := hi
  obtain ⟨hgrows, -, -, ⟨sessions, hi'⟩, -⟩ := callScan_spec h.toSound he .cancel
  have hquiet : (d.afterCall o e .cancel).Quiet (e.config o) :=
    (h.fits e (List.mem_of_getElem? he)).phase.cancel_quiet
  refine ⟨hgrows.toLater, (callScan_ensures h i .cancel).imp fun t ht => ?_⟩
  exact ⟨hgrows.moves ht, ht.toLater.atQuiet ⟨_, hi', hquiet⟩⟩

/-! ### Sessions are closed -/

theorem close_silent (h : Sound o d) (session : ℕ) : Silent o d (d.close session) where
  toGrows := .close d session
  still := .same rfl rfl
  sound := h.close session
  length := rfl
  created_length := List.length_modify ..
  sessions _ f hf := ⟨f, hf, rfl⟩
  failing_eq := rfl
  terminal_eq := rfl
  log := rfl

theorem readFails_ensures (h : Sound o d) (hi : d.At i (·.Quiet o)) (reads : List ℕ) :
    (contract o).Ensures d (reads.map (.readFails i)) (Silent o d) := by
  induction reads generalizing d with
  | nil => exact .refl h
  | cons read reads ih =>
    refine ⟨⟨h, hi⟩, fun t ht => ?_⟩
    have ht : Silent o d t := ht
    exact (ih ht.sound (ht.toLater.atQuiet hi)).imp fun u hu => ht.trans hu

theorem closeSession_meets (h : Sound o d) (hi : d.At i (·.Quiet o)) (session : ℕ)
    (sessions reads : List ℕ) (hbut : d.SealedBut i (session :: sessions)) :
    Meets o d (d.run o reads (.closeSessions i (session :: sessions))) fun t =>
      Silent o d t ∧ t.Shut (session :: sessions) := by
  have hrest : ∀ {t}, Silent o d t → t.Shut [session] →
      (contract o).Ensures t [.closeSessions i sessions] fun u =>
        Silent o d u ∧ u.Shut (session :: sessions) := by
    intro t ht hshut
    have hbut : d.SealedBut i ([session] ++ sessions) := hbut
    refine ⟨⟨ht.sound, ht.toLater.atQuiet hi, ht.sealedBut hbut hshut⟩, fun u hu =>
      ⟨ht.trans hu.1, fun j hj s hs => ?_⟩⟩
    rcases List.mem_cons.1 hj with rfl | hj
    · exact hu.1.toLater.shut hshut hu.1.created_length j (List.mem_singleton_self j) s hs
    · exact hu.2 j hj s hs
  rw [run]
  split
  case isTrue hclosed =>
    refine ⟨.refl d, hrest (.refl h) fun j hj s hs => ?_⟩
    rw [isClosed, ← List.mem_singleton.1 hj, hs] at hclosed
    exact hclosed
  case isFalse =>
    have hclose := close_silent h session
    refine ⟨hclose.toLater, Contract.Ensures.append ?_⟩
    refine (readFails_ensures hclose.sound (hclose.toLater.atQuiet hi) _).imp fun t ht => ?_
    refine hrest (hclose.trans ht) (ht.toLater.shut ?_ ht.created_length)
    intro j hj s hs
    rw [List.mem_singleton.1 hj, getElem?_close, Option.map_eq_some_iff] at hs
    obtain ⟨s', -, rfl⟩ := hs
    rw [if_pos rfl]

theorem closeEndpoints_meets (h : Sound o d) (hq : d.AllQuiet o) (hsealed : d.Sealed) (i : ℕ)
    (reads : List ℕ) :
    Meets o d (d.run o reads (.closeEndpoints i)) fun t => Silent o d t ∧
      ∀ (k : ℕ) e, i ≤ k → d.endpoints[k]? = some e → t.Shut e.sessions := by
  rw [run]
  cases hi : d.endpoints[i]? with
  | none =>
    refine ⟨.refl d, .refl h, fun k e hk he => ?_⟩
    have hlt := (List.getElem?_eq_some_iff.1 he).1
    have hge := List.getElem?_eq_none_iff.1 hi
    omega
  | some e =>
    refine ⟨.refl d, ⟨h, ⟨e, hi, hq e (List.mem_of_getElem? hi)⟩, hsealed.but i e.sessions⟩,
      fun t ht => ?_⟩
    obtain ⟨ht, hshut⟩ : Silent o d t ∧ t.Shut e.sessions := ht
    refine ⟨⟨ht.sound, ht.toLater.allQuiet ht.length hq, ht.toLater.isSealed ht.still hsealed⟩,
      fun u hu => ?_⟩
    obtain ⟨hu, hshuts⟩ : Silent o t u ∧
      ∀ (k : ℕ) e, i + 1 ≤ k → t.endpoints[k]? = some e → u.Shut e.sessions := hu
    refine ⟨ht.trans hu, fun k e' hk he' => ?_⟩
    rcases Nat.eq_or_lt_of_le hk with rfl | hlt
    · obtain rfl : e = e' := Option.some_inj.1 (hi.symm.trans he')
      exact hu.toLater.shut hshut hu.created_length
    · obtain ⟨f, hf, -⟩ := ht.endpoints k e' he'
      obtain ⟨e'', he'', hsessions⟩ := ht.sessions k f hf
      obtain rfl : e' = e'' := Option.some_inj.1 (he'.symm.trans he'')
      exact hsessions ▸ hshuts k f hlt hf

/-- When the sessions of every endpoint are closed, all are. -/
theorem Silent.allClosed (h : Silent o d t)
    (hshut : ∀ (k : ℕ) e, 0 ≤ k → d.endpoints[k]? = some e → t.Shut e.sessions) :
    t.AllClosed := by
  intro s hs
  by_contra hclosed
  obtain ⟨j, hj⟩ := List.mem_iff_getElem?.1 hs
  obtain ⟨f, hf, hmem⟩ := h.sound.held j s hj (by simpa using hclosed)
  obtain ⟨e, he, hsessions⟩ := h.sessions _ f hf
  exact hclosed (hshut _ e (Nat.zero_le _) he j (hsessions ▸ hmem) s hj)

/-! ### The end of the run -/

/-- The run ends. -/
theorem Sound.finish (h : Sound o d) (ht : d.terminal = false) (hclosed : d.AllClosed)
    (hq : d.AllQuiet o) {f : Effect} (hend : f.isEnd = true)
    (hdone : f = .onCompleted → d.Done ∨ Early d.log) :
    Later o d ({ d with terminal := true }.tell f) ∧
      Rest o ({ d with terminal := true }.tell f) := by
  set t := { d with terminal := true }.tell f
  have hl : Later o d t := .same rfl rfl id id (fun _ => rfl) id
  have hlogged : t.Logged := by
    refine h.logged.append hl rfl (fun g hg => ⟨fun hend' => ?_, fun _ => ?_⟩) ?_ ?_ ?_ ?_ ?_ ?_
    · have hterm := h.logged.ended g hg hend'
      simp [ht] at hterm
    · cases f <;> first | rfl | cases hend
    · rw [ht, hend]
      rfl
    · rintro error rfl
      cases hend
    · rintro rfl
      cases hend
    · exact .inr ⟨rfl, .inl rfl⟩
    · rintro i thing rfl
      cases hend
    · exact fun hf => (hdone hf).imp id fun he => Early.append he f
  have hfits : ∀ e ∈ d.endpoints, e.Fits o true := fun e he =>
    ⟨(h.fits e he).phase, (h.fits e he).ended, fun _ => rfl, fun _ => hq e he⟩
  have hsound : Sound o t := ⟨⟨h.failing, h.queued, h.waiting⟩, hfits, h.owner, h.held,
    fun _ => hclosed, h.unsubscribed, hlogged⟩
  exact ⟨hl, hsound, fun _ _ _ _ s hs _ => hclosed s hs, fun _ => .inr rfl⟩

/-- What follows the end: its observer, and the release. -/
theorem finish_ensures (h : Rest o d) (ht : d.terminal = true) :
    (contract o).Ensures d [.outside .observer, .releaseResources] (Moves o d) := by
  refine ⟨h, fun t hmoves => ?_⟩
  have hmoves : Moves o d t := hmoves
  refine ⟨⟨hmoves.rest, hmoves.terminal ht⟩, fun u hu => hmoves.toGrows.moves hu⟩

theorem finishComplete_meets (h : Sound o d) (hf : d.failing = false) (ht : d.terminal = false)
    (hclosed : d.AllClosed) (hq : d.AllQuiet o) (hdone : d.Done ∨ Early d.log) (reads : List ℕ) :
    Meets o d (d.run o reads .finishComplete) (Moves o d) := by
  obtain ⟨hl, hrest⟩ := h.finish ht hclosed hq (f := .onCompleted) rfl fun _ => hdone
  refine Grows.meets ⟨hl, fun hfail => ?_⟩ (finish_ensures hrest rfl)
  simp [hf] at hfail

theorem finishFail_meets (h : Sound o d) (ht : d.terminal = false) (hclosed : d.AllClosed)
    (hq : d.AllQuiet o) (error : Exception) (reads : List ℕ) :
    Meets o d (d.run o reads (.finishFail error)) fun t => Later o d t ∧ Rest o t := by
  obtain ⟨hl, hrest⟩ := h.finish ht hclosed hq (f := .onError error) rfl (fun hf => by cases hf)
  exact ⟨hl, (finish_ensures hrest rfl).imp fun u hu => ⟨hl.trans hu.toLater, hu.rest⟩⟩

/-- `complete`, with every scan quiet. -/
theorem complete_meets (h : Sound o d) (hf : d.failing = false) (ht : d.terminal = false)
    (hq : d.AllQuiet o) (hsealed : d.Sealed) (hdone : d.Done ∨ Early d.log) :
    Meets o d d.complete (Moves o d) := by
  rw [complete, hf, ht]
  refine ⟨.refl d, ⟨h, hq, hsealed⟩, fun t ht' => ?_⟩
  obtain ⟨hs, hshut⟩ : Silent o d t ∧
    ∀ (k : ℕ) e, 0 ≤ k → d.endpoints[k]? = some e → t.Shut e.sessions := ht'
  refine ⟨⟨hs.sound, hs.failing_eq.trans hf, hs.terminal_eq.trans ht, hs.allClosed hshut,
    hs.toLater.allQuiet hs.length hq, ?_⟩, fun u hu => hs.toGrows.moves hu⟩
  exact hdone.imp (fun hd => hd.later hs.toLater hs.length) fun he => hs.log ▸ he

/-- `maybeComplete`, once the sessions of what completed are closed. -/
theorem maybeComplete_meets (h : Sound o d) (hsealed : d.Sealed) :
    Meets o d d.maybeComplete (Moves o d) := by
  rw [maybeComplete]
  split
  case isTrue hflag =>
    refine .done ⟨h, hsealed, fun hdone => ?_⟩
    simpa [hdone.1, or_assoc] using hflag
  case isFalse hflag =>
    simp only [Bool.not_eq_true, Bool.or_eq_false_iff, Bool.not_eq_false'] at hflag
    obtain ⟨⟨hf, ht⟩, hmodbus⟩ := hflag
    split
    case isTrue hall =>
      have hdone : d.Done := ⟨hmodbus, by simpa using hall⟩
      exact complete_meets h hf ht (fun e he => .inl ((h.fits e he).ended (hdone.2 e he)))
        hsealed (.inl hdone)
    case isFalse hall =>
      refine .done ⟨h, hsealed, fun hdone => ?_⟩
      exact absurd (by simpa using hdone.2) hall

/-! ### The run is stopped, or fails -/

theorem cancelEndpoints_meets (h : Rest o d) (hq : ∀ k < i, d.At k (·.Quiet o))
    (reads : List ℕ) :
    Meets o d (d.run o reads (.cancelEndpoints i)) fun t => Moves o d t ∧ t.AllQuiet o := by
  rw [run]
  cases hi : d.endpoints[i]? with
  | none =>
    refine ⟨.refl d, .refl h, fun e he => ?_⟩
    obtain ⟨k, hk⟩ := List.mem_iff_getElem?.1 he
    have hlt : k < d.endpoints.length := (List.getElem?_eq_some_iff.1 hk).1
    have hge := List.getElem?_eq_none_iff.1 hi
    obtain ⟨e', he', hquiet⟩ := hq k (by omega)
    obtain rfl : e = e' := Option.some_inj.1 (hk.symm.trans he')
    exact hquiet
  | some e =>
    refine ⟨.refl d, ?_⟩
    have hnext : ∀ {t}, Moves o d t → t.At i (·.Quiet o) →
        (contract o).Ensures t [.cancelEndpoints (i + 1)] fun u => Moves o d u ∧ u.AllQuiet o := by
      intro t ht hti
      refine ⟨⟨ht.rest, fun k hk => ?_⟩, fun u hu => ⟨ht.toGrows.moves hu.1, hu.2⟩⟩
      rcases Nat.lt_succ_iff_lt_or_eq.1 hk with hlt | rfl
      · exact ht.toLater.atQuiet (hq k hlt)
      · exact hti
    simp only
    split
    case isTrue hc => exact ⟨⟨h, e, hi, trivial⟩, fun t ht => hnext ht.1 ht.2⟩
    case isFalse hc =>
      have hfits := h.fits e (List.mem_of_getElem? hi)
      exact hnext (.refl h) ⟨e, hi, hfits.quiet (hfits.control (by simpa using hc))⟩

theorem cancelAndClose_ensures (h : Rest o d) {rest : List Action}
    (hrest : ∀ t, Moves o d t → t.AllQuiet o → t.AllClosed → (contract o).Ensures t rest Q) :
    (contract o).Ensures d (cancelAndCloseEndpoints ++ rest) Q := by
  refine ⟨⟨h, fun k hk => absurd hk (Nat.not_lt_zero k)⟩, fun t ht => ?_⟩
  obtain ⟨ht, hq⟩ : Moves o d t ∧ t.AllQuiet o := ht
  refine ⟨⟨ht.rest.toSound, hq, ht.rest.isSealed⟩, fun u hu => ?_⟩
  obtain ⟨hu, hshut⟩ : Silent o t u ∧
    ∀ (k : ℕ) e, 0 ≤ k → t.endpoints[k]? = some e → u.Shut e.sessions := hu
  exact hrest u (ht.toGrows.moves (hu.moves ht.rest)) (hu.toLater.allQuiet hu.length hq)
    (hu.allClosed hshut)

theorem fail_meets (h : Rest o d) (error : Exception) :
    Meets o d (d.fail error) (Moves o d) := by
  rw [fail]
  split
  case isTrue => exact .done h
  case isFalse hflag =>
    simp only [Bool.not_eq_true, Bool.or_eq_false_iff] at hflag
    set t := { d with failing := true, runStopping := true }.tell (.failing error)
    have hl : Later o d t := .same rfl rfl (fun _ => rfl) (fun _ => rfl) id id
    have hlogged : t.Logged := h.logged.mark hl rfl ⟨rfl, rfl⟩ rfl (fun _ _ => rfl)
      (fun hf => by cases hf) (.inr ⟨rfl, rfl⟩)
    have ht : Sound o t := h.same rfl rfl rfl ⟨fun _ => rfl, h.queued, h.waiting⟩ h.unsubscribed
      hlogged
    have hrest : Rest o t := h.later hl (.same rfl rfl) ht
    refine ⟨hl, cancelAndClose_ensures hrest fun u hu hq hclosed => ?_⟩
    have hterm : u.terminal = false := (hu.unended rfl).trans hflag.2
    have hfail : u.failing = true := hu.failing rfl
    refine ⟨hu.rest, fun v hv => ?_⟩
    have hv : Moves o u v := hv
    obtain ⟨hendpoints, hcreated⟩ := hv.refused (refuses_eq_true.2 (.inr (.inl hfail)))
    refine ⟨⟨hv.rest.toSound, hv.failing hfail, (hv.unended hfail).trans hterm,
      hv.toLater.allClosed hcreated hclosed, hv.toLater.allQuiet hendpoints hq⟩, fun w hw => ?_⟩
    obtain ⟨hw, hrest'⟩ : Later o v w ∧ Rest o w := hw
    refine ⟨⟨(hl.trans hu.toLater).trans (hv.toLater.trans hw), fun hd => ?_⟩, hrest'⟩
    simp [hflag.1] at hd

/-! ### The functions of the run -/

theorem scannerCompleted_meets (h : Rest o d) (hi : d.At i (·.Over o)) :
    Meets o d (d.scannerCompleted i) (Moves o d) := by
  obtain ⟨e, he, hover⟩ := hi
  rw [scannerCompleted, he]
  simp only
  split
  case isTrue => exact .done h
  case isFalse hcompleted =>
    set f := { e with completed := true }
    have hf : EndpointScan.Advances o e f := ⟨rfl, rfl, id, fun _ => rfl, .refl _⟩
    have hg : Grows o d (d.update i f) := .update he hf
    have hs : Sound o (d.update i f) := h.update he hf rfl (fun _ => id) (fun _ => hover)
    have hi : (d.update i f).endpoints[i]? = some f := (getElem?_update he f i).trans (if_pos rfl)
    have hbut : (d.update i f).SealedBut i e.sessions := by
      intro k g hk hcompleted' j s hj howner
      by_cases hki : k = i
      · subst hki
        refine or_iff_not_imp_left.2 fun hclosed => ⟨rfl, ?_⟩
        obtain ⟨g', hg', hmem⟩ := hs.held j s hj (by simpa using hclosed)
        rw [howner, hi] at hg'
        obtain rfl := Option.some_inj.1 hg'
        exact hmem
      · rw [getElem?_update he, if_neg (Ne.symm hki)] at hk
        exact .inl (h.isSealed k g hk hcompleted' s (List.mem_of_getElem? hj) howner)
    refine hg.meets ⟨⟨hs, ⟨f, hi, .inl hover⟩, hbut⟩, fun t ht => ?_⟩
    obtain ⟨ht, hshut⟩ : Silent o (d.update i f) t ∧ t.Shut e.sessions := ht
    have hnone : t.SealedBut i [] := ht.sealedBut ((List.append_nil _).symm ▸ hbut) hshut
    exact ⟨⟨ht.sound, hnone.isSealed⟩, fun u hu => ht.toGrows.moves hu⟩

theorem scannerFailed_meets (h : Rest o d) (hi : d.At i (·.Over o)) (error : Exception) :
    Meets o d (d.scannerFailed i error) (Moves o d) := by
  rw [scannerFailed]
  split
  · exact scannerCompleted_meets h hi
  · exact fail_meets h error

theorem scannerClosed_meets (h : Sound o d) (hsealed : d.Sealed) (reads : List ℕ) :
    Meets o d (d.run o reads .scannerClosed) (Moves o d) := by
  rw [run]
  split
  case isTrue hf => exact .done ⟨h, hsealed, fun _ => .inl hf⟩
  case isFalse => exact maybeComplete_meets h hsealed

theorem candidate_meets (h : Rest o d) (i : ℕ) (thing : SunspecThing) :
    Meets o d (d.candidate i thing) (Moves o d) := by
  rw [candidate]
  cases he : d.endpoints[i]? with
  | none => exact .done h
  | some e =>
    simp only
    split
    case isTrue => exact .done h
    case isFalse hflag =>
      simp only [Bool.not_eq_true, Bool.or_eq_false_iff] at hflag
      obtain ⟨hr, hemitted⟩ := hflag
      set f := { e with emitted := true }
      have hf : EndpointScan.Advances o e f := ⟨rfl, rfl, fun _ => rfl, id, .refl _⟩
      set t := (d.update i f).tell (.onNext i thing)
      have hg : Grows o d t := (Grows.update he hf).trans (.tell _ _)
      have hsub : d.subscribed = true := by
        by_contra hsub
        have hnil := (h.unsubscribed (by simpa using hsub)).1
        simp [hnil] at he
      have hlogged : t.Logged := by
        refine h.logged.append hg.toLater rfl (fun g hg' => ⟨fun hend => ?_, fun hstop => ?_⟩)
          (Bool.or_false _).symm ?_ ?_ (.inr ⟨rfl, .inl rfl⟩) ?_ ?_
        · have hterm := h.logged.ended g hg' hend
          rw [refuses_eq_false] at hr
          simp [hr.2.2] at hterm
        · cases g with
          | stopped =>
            obtain ⟨-, hr' | hs⟩ := h.logged.stopped hg'
            · simp [hr] at hr'
            · simp [hsub] at hs
          | failing error =>
            have hfail := h.logged.failed error hg'
            rw [refuses_eq_false] at hr
            simp [hr.2.1] at hfail
          | _ => cases hstop
        · exact fun _ hf => by cases hf
        · exact fun hf => by cases hf
        · rintro j thing' hf
          cases hf
          exact ⟨e, he, hemitted, f, (getElem?_update he f i).trans (if_pos rfl), rfl⟩
        · exact fun hf => by cases hf
      have hs : Sound o (d.update i f) := h.update he hf rfl (fun _ => id)
        (h.fits e (List.mem_of_getElem? he)).ended
      have ht : Sound o t := hs.same rfl rfl rfl ⟨hs.failing, hs.queued, hs.waiting⟩
        hs.unsubscribed hlogged
      have hstill : Still d (d.update i f) := .update he id
      have hrest : Rest o t := h.later hg.toLater ⟨hstill.finished, hstill.upstream⟩ ht
      exact hg.meets ⟨hrest, fun u hu => hu⟩

/-! ### What comes from outside -/

theorem upstreamCompleted_meets (h : Rest o d) (hsub : d.subscribed = true) :
    Meets o d d.upstreamCompleted (Moves o d) := by
  set t : State := { d with modbusCompleted := true }
  have hl : Later o d t := .same rfl rfl id id id (fun _ => rfl)
  have ht : Sound o t := h.same rfl rfl rfl ⟨h.failing, h.queued, h.waiting⟩
    (fun hs => absurd (hsub.symm.trans hs) Bool.noConfusion)
    (h.logged.later hl rfl rfl rfl (.inl rfl))
  exact Grows.andMeets ⟨hl, fun _ => rfl⟩ (maybeComplete_meets ht h.isSealed)

theorem openEndpoint_meets (h : Rest o d) (hsub : d.subscribed = true) (candidate : ModbusThing) :
    Meets o d (d.openEndpoint candidate) (Moves o d) := by
  rw [openEndpoint]
  split
  · exact .done h
  rename_i hr
  split
  · exact fail_meets h _
  · have hr : d.refuses = false := by simpa using hr
    set f : EndpointScan := {
      endpoint := target candidate
      unitId := candidate.unitId
      initial := d.created.length
      sessions := [d.created.length] }
    have hfits : f.Fits o d.terminal := by
      refine ⟨.idle rfl, fun hc => (by cases hc), fun hc => (by cases hc), fun ht => ?_⟩
      rw [refuses_eq_false] at hr
      simp [hr.2.2] at ht
    have hi : (d.addEndpoint f).endpoints[d.endpoints.length]? = some f := by simp [addEndpoint]
    have hg : Grows o d (d.addEndpoint f) := .addEndpoint hr
    have hstill : Still d (d.addEndpoint f) := .addEndpoint rfl
    have hmade : Grows o (d.addEndpoint f)
        ((d.addEndpoint f).createSession d.endpoints.length) := by
      refine Grows.createSession hr fun f' hf' => ?_
      obtain rfl := Option.some_inj.1 (hi.symm.trans hf')
      rfl
    have hs := (h.addEndpoint hr hsub hfits).createSession hr hi rfl (List.mem_singleton_self _)
    have hall := hg.trans hmade
    exact hall.meets (.refl (h.later hall.toLater ⟨hstill.finished, hstill.upstream⟩ hs))

theorem startInLoop_meets (h : Rest o d) (hstarted : d.started = true) (hqueued : d.queued = false)
    (hsub : d.subscribed = false) : Meets o d d.startInLoop (Moves o d) := by
  obtain ⟨hnil, hmodbus⟩ := h.unsubscribed hsub
  set t := { d with loopEntered := true }.tell .entered
  have hl : Later o d t := .same rfl rfl id id id id
  have hg : Grows o d t := ⟨hl, fun _ => rfl⟩
  have hlogged : t.Logged := h.logged.mark hl rfl ⟨rfl, rfl⟩ rfl (fun _ hf => by cases hf)
    (fun hf => by cases hf) (.inr ⟨rfl, rfl⟩)
  have ht : Sound o t := h.same rfl rfl rfl ⟨h.failing, h.queued, fun _ => hsub⟩ h.unsubscribed
    hlogged
  have hrest : Rest o t := h.later hl (.same rfl rfl) ht
  show Meets o d (if t.terminal || t.stopping then t.complete
    else ({ t with subscribed := true }, [.outside .subscribing])) (Moves o d)
  split
  case isTrue hflag =>
    apply hg.andMeets
    by_cases hover : (t.failing || t.terminal) = true
    · rw [complete, if_pos hover]
      exact .done hrest
    · simp only [Bool.not_eq_true, Bool.or_eq_false_iff] at hover
      have hstopping : t.stopping = true := by
        rw [hover.2] at hflag
        exact hflag
      refine complete_meets ht hover.1 hover.2 (fun e he => ?_) hrest.isSealed (.inr ?_)
      · rw [show t.endpoints = [] from hnil] at he
        cases he
      · exact ⟨d.log, [], rfl, h.logged.stops hstopping⟩
  case isFalse hflag =>
    simp only [Bool.not_eq_true, Bool.or_eq_false_iff] at hflag
    have hl' : Later o t { t with subscribed := true } := .same rfl rfl id id id id
    have hs : Sound o { t with subscribed := true } := by
      refine ht.same rfl rfl rfl ⟨ht.failing, ht.queued, ?_⟩ (fun hf => by cases hf)
        (hlogged.later hl' rfl rfl rfl (.inr hflag.2))
      rintro (hf | hf | hf)
      · exact absurd (hstarted.symm.trans hf) Bool.noConfusion
      · exact absurd (hqueued.symm.trans hf) Bool.noConfusion
      · cases hf
    exact (hg.trans ⟨hl', fun _ => rfl⟩).meets ⟨hrest.later hl' (.same rfl rfl) hs, fun u hu => hu⟩

theorem start_meets (h : Rest o d) : Meets o d d.start (Moves o d) := by
  rw [start]
  split
  case isTrue => exact .done h
  case isFalse hflag =>
    simp only [Bool.not_eq_true, Bool.or_eq_false_iff] at hflag
    have hsub := h.waiting (.inl hflag.1)
    have hqueued : d.queued = false := by
      by_contra hq
      have hstarted := h.queued (by simpa using hq)
      simp [hflag.1] at hstarted
    simp only
    split
    case isTrue =>
      set t : State := { d with started := true }
      have hl : Later o d t := .same rfl rfl id id id id
      have ht : Sound o t := h.same rfl rfl rfl ⟨h.failing, fun _ => rfl, fun _ => hsub⟩
        h.unsubscribed (h.logged.later hl rfl rfl rfl (.inl rfl))
      exact Grows.andMeets ⟨hl, fun _ => rfl⟩
        (startInLoop_meets (h.later hl (.same rfl rfl) ht) rfl hqueued hsub)
    case isFalse =>
      set t : State := { d with started := true, queued := true }
      have hl : Later o d t := .same rfl rfl id id id id
      have ht : Sound o t := h.same rfl rfl rfl ⟨h.failing, fun _ => rfl, fun _ => hsub⟩
        h.unsubscribed (h.logged.later hl rfl rfl rfl (.inl rfl))
      exact Grows.meets ⟨hl, fun _ => rfl⟩ (.refl (h.later hl (.same rfl rfl) ht))

/-- A stop that takes effect leaves the run stopped or over, or never to listen. -/
theorem Rest.stopped (h : Rest o d) {b : Bool} (hb : d.runStopping = true → b = true)
    (hr : ({ d with stopping := true, runStopping := b } : State).refuses = true ∨
      d.subscribed = false) :
    Grows o d ({ d with stopping := true, runStopping := b }.tell .stopped) ∧
      Rest o ({ d with stopping := true, runStopping := b }.tell .stopped) := by
  set t := { d with stopping := true, runStopping := b }.tell .stopped
  have hl : Later o d t := .same rfl rfl hb id id id
  have hlogged : t.Logged := h.logged.mark hl rfl ⟨rfl, rfl⟩ rfl (fun _ hf => by cases hf)
    (fun _ => ⟨rfl, hr⟩) (.inl rfl)
  have ht : Sound o t := h.same rfl rfl rfl ⟨fun hf => hb (h.failing hf), h.queued, h.waiting⟩
    h.unsubscribed hlogged
  exact ⟨⟨hl, fun _ => rfl⟩, h.later hl (.same rfl rfl) ht⟩

theorem stop_meets (h : Rest o d) : Meets o d d.stop (Moves o d) := by
  rw [stop]
  split
  case isTrue => exact .done h
  case isFalse =>
    split
    case isTrue =>
      split
      case isTrue hentered =>
        have hsub := h.waiting (.inr (.inr (by simpa using hentered)))
        obtain ⟨hg, hrest⟩ := h.stopped (b := d.runStopping) id (.inr hsub)
        exact hg.meets (.refl hrest)
      case isFalse => exact .done h
    case isFalse =>
      rw [stopInLoop]
      split
      case isTrue hr =>
        obtain ⟨hg, hrest⟩ := h.stopped (b := d.runStopping) id (.inl hr)
        exact hg.meets (.refl hrest)
      case isFalse =>
        obtain ⟨hg, hrest⟩ := h.stopped (b := true) (fun _ => rfl)
          (.inl (refuses_eq_true.2 (.inl rfl)))
        refine hg.meets (cancelAndClose_ensures hrest fun u hu _ _ => ⟨hu.rest, fun v hv => ?_⟩)
        exact hu.toGrows.moves hv

theorem close_meets (h : Rest o d) (session : ℕ) :
    Meets o d (d.close session, []) (Moves o d) :=
  Grows.meets (.close d session)
    (.refl (h.later (Grows.close d session).toLater (.same rfl rfl) (h.toSound.close session)))

theorem tell_meets (h : Rest o d) {f : Effect} (hf : f = .upstreamStart ∨ f = .upstreamStop)
    (code : Outside) : Meets o d (d.tell f, [.outside code]) (Moves o d) := by
  have hg : Grows o d (d.tell f) := .tell d f
  have hlogged : (d.tell f).Logged := by
    rcases hf with rfl | rfl <;>
    exact h.logged.mark hg.toLater rfl ⟨rfl, rfl⟩ rfl (fun _ hf => by cases hf)
      (fun hf => by cases hf) (.inr ⟨rfl, rfl⟩)
  have ht : Sound o (d.tell f) := h.same rfl rfl rfl ⟨h.failing, h.queued, h.waiting⟩
    h.unsubscribed hlogged
  exact hg.meets ⟨h.later hg.toLater (.same rfl rfl) ht, fun u hu => hu⟩

/-! ### Every action keeps its contract -/

theorem run_meets {action : Action} (h : (contract o).pre action d) (reads : List ℕ) :
    Meets o d (d.run o reads action) ((contract o).post action d) := by
  cases action with
  | outside code =>
    cases code with
    | subscribing => exact ⟨.refl d, h, fun t ht => ht⟩
    | _ => exact .done h
  | cancel i => exact cancel_meets h.1 h.2
  | readFails i read =>
    obtain ⟨hs, e, he, hq⟩ := h
    obtain ⟨hsilent, hnil⟩ := callScan_failure hs he hq read
    refine ⟨hsilent.toLater, ?_⟩
    rw [run, hnil]
    exact hsilent
  | candidate i thing => exact candidate_meets h i thing
  | scannerFailed i error => exact scannerFailed_meets h.1 h.2 error
  | scannerCompleted i => exact scannerCompleted_meets h.1 h.2
  | scannerClosed => exact scannerClosed_meets h.1 h.2 reads
  | closeSessions i sessions =>
    cases sessions with
    | nil => exact ⟨.refl d, .refl h.1, fun j hj => by cases hj⟩
    | cons session sessions => exact closeSession_meets h.1 h.2.1 session sessions reads h.2.2
  | cancelEndpoints i => exact cancelEndpoints_meets h.1 h.2 reads
  | closeEndpoints i => exact closeEndpoints_meets h.1 h.2.1 h.2.2 i reads
  | startUpstream => exact tell_meets h (.inl rfl) .starting
  | stopUpstream => exact tell_meets h (.inr rfl) .stopping
  | finishComplete =>
    obtain ⟨hs, hf, ht, hclosed, hq, hdone⟩ := h
    exact finishComplete_meets hs hf ht hclosed hq hdone reads
  | finishFail error =>
    obtain ⟨hs, -, ht, hclosed, hq⟩ := h
    exact finishFail_meets hs ht hclosed hq error reads
  | releaseResources =>
    obtain ⟨hrest, ht⟩ := h
    have hg := Grows.releaseResources (o := o) d
    exact hg.meets (.refl (hrest.later hg.toLater (.releaseResources d)
      (hrest.toSound.releaseResources ht)))

theorem pre_sound {action : Action} (h : (contract o).pre action d) : Sound o d := by
  cases action with
  | outside code => exact Rest.toSound h
  | candidate i thing => exact Rest.toSound h
  | startUpstream => exact Rest.toSound h
  | stopUpstream => exact Rest.toSound h
  | cancel i => exact h.1.toSound
  | scannerFailed i error => exact h.1.toSound
  | scannerCompleted i => exact h.1.toSound
  | cancelEndpoints i => exact h.1.toSound
  | releaseResources => exact h.1.toSound
  | _ => exact h.1

end State

/-! ### The machine -/

open State (Rest Sound Later Meets Moves contract)

variable {p : Process}

/-- What is left to be done leaves the discovery at rest. -/
def Process.Settles (o : SunspecDiscoveryOptions) (p : Process) : Prop :=
  (contract o).Ensures p.state p.actions (Rest o)

theorem Process.Settles.sound (h : p.Settles o) : Sound o p.state := by
  obtain ⟨d, actions⟩ := p
  cases actions with
  | nil => exact Rest.toSound h
  | cons action rest => exact State.pre_sound h.1

theorem Process.Settles.rest (h : p.Settles o) (hrest : p.AtRest) : Rest o p.state := by
  obtain ⟨d, actions⟩ := p
  rcases hrest with rfl | ⟨code, rest, rfl⟩
  · exact h
  · exact h.1

/-- A function called from outside. -/
theorem Process.Settles.enter (h : p.Settles o) (hrest : p.AtRest) {r : State.Result}
    (hr : Meets o p.state r (Moves o p.state)) :
    (p.enter r).Settles o ∧ Later o p.state (p.enter r).state := by
  refine ⟨?_, hr.1⟩
  obtain ⟨d, actions⟩ := p
  rcases hrest with rfl | ⟨code, rest, rfl⟩
  · exact Contract.Ensures.append (hr.2.imp fun u hu => hu.rest)
  · exact Contract.Ensures.enter h (hr.2.imp fun u hu => ⟨hu.rest, fun v hv => hu.toGrows.moves hv⟩)

/-- A function that takes the place of the first action. -/
theorem Process.Settles.resume (h : p.Settles o) {action : Action} {rest : List Action}
    (hactions : p.actions = action :: rest) {r : State.Result}
    (hr : Meets o p.state r ((contract o).post action p.state)) :
    (p.resume r).Settles o ∧ Later o p.state (p.resume r).state := by
  refine ⟨?_, hr.1⟩
  obtain ⟨d, actions⟩ := p
  subst hactions
  exact Contract.Ensures.run h hr.2

theorem step_settles (h : p.Settles o) {e : Event} (he : p.Enabled e) :
    (step o p e).Settles o ∧ Later o p.state (step o p e).state := by
  cases e with
  | run reads =>
    obtain ⟨action, rest, hactions⟩ := List.exists_cons_of_ne_nil he
    have hpre : (contract o).pre action p.state := by
      rw [Process.Settles, hactions] at h
      exact h.1
    have hresume := h.resume hactions (State.run_meets hpre reads)
    rw [step, hactions]
    exact hresume
  | throws error =>
    obtain ⟨rest, hactions | hactions⟩ := he
    · exact h.resume hactions (State.fail_meets (h.rest (.inr ⟨_, _, hactions⟩)) error)
    · exact h.resume hactions (State.fail_meets (h.rest (.inr ⟨_, _, hactions⟩)) error)
  | start => exact h.enter he (State.start_meets (h.rest he))
  | stop => exact h.enter he (State.stop_meets (h.rest he))
  | loopRuns =>
    obtain ⟨hactions, -⟩ := he
    have hrest := h.rest (.inl hactions)
    have hl : Later o p.state { p.state with looping := true } := .same rfl rfl id id id id
    have hs : Sound o { p.state with looping := true } := hrest.same rfl rfl rfl
      ⟨hrest.failing, hrest.queued, hrest.waiting⟩ hrest.unsubscribed
      (hrest.logged.later hl rfl rfl rfl (.inl rfl))
    refine ⟨?_, hl⟩
    rw [Process.Settles, step, hactions]
    exact hrest.later hl (.same rfl rfl) hs
  | startInLoop =>
    obtain ⟨hactions, -, hqueued⟩ := he
    have hrest := h.rest (.inl hactions)
    have hsub := hrest.waiting (.inr (.inl hqueued))
    have hl : Later o p.state { p.state with queued := false } := .same rfl rfl id id id id
    have hs : Sound o { p.state with queued := false } := hrest.same rfl rfl rfl
      ⟨hrest.failing, (fun hf => by cases hf), fun _ => hsub⟩ hrest.unsubscribed
      (hrest.logged.later hl rfl rfl rfl (.inl rfl))
    exact h.enter (.inl hactions) (State.Grows.andMeets ⟨hl, fun _ => rfl⟩
      (State.startInLoop_meets (hrest.later hl (.same rfl rfl) hs) (hrest.queued hqueued) rfl hsub))
  | upstreamCandidate candidate =>
    exact h.enter he.1 (State.openEndpoint_meets (h.rest he.1) he.2 candidate)
  | upstreamFailed error => exact h.enter he.1 (State.fail_meets (h.rest he.1) error)
  | upstreamCompleted =>
    exact h.enter he.1 (State.upstreamCompleted_meets (h.rest he.1) he.2)
  | scan i call => exact h.enter he.1 (State.callScan_meets (h.rest he.1) i call)
  | sessionClosed session => exact h.enter he (State.close_meets (h.rest he) session)

theorem machine_settles (o : SunspecDiscoveryOptions) :
    (machine o).Invariant (Process.Settles o) where
  init p hp := by
    obtain rfl : p = {} := hp
    have hlogged : ({} : State).Logged := by
      refine ⟨.nil, ?_, ?_, ?_, ?_, ?_, fun i => Nat.zero_le 1, ?_, ?_⟩ <;> simp
    have hsound : Sound o {} := by
      refine ⟨⟨?_, ?_, ?_⟩, ?_, ?_, ?_, ?_, ?_, hlogged⟩ <;> simp
    exact ⟨hsound, fun i e he => by simp at he, fun hdone => absurd hdone.1 Bool.noConfusion⟩
  next p e h he := (step_settles h he).1

/-- A run of the discovery goes forward. -/
theorem run_later {q : Process} {es : List Event} (hp : (machine o).Reachable p)
    (hr : (machine o).Run p es q) : Later o p.state q.state := by
  induction hr with
  | nil p => exact .refl p.state
  | cons he _ ih =>
    have hsettles := (machine_settles o).reachable hp
    exact (step_settles hsettles he).2.trans (ih (hp.next he))

end Neubau.Sunspec.Discovery
