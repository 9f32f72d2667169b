import Neubau.Sunspec.Probing

/-! Whether a sweep skips a unit. The scan moves past a unit when its probe is
replied to, when the probe fails on an open session, and when it fails on a
closed one without the mark that it is to be repeated. The last case skips the
unit if the session closed before the probe was transmitted. A run in which no
session closes then probes every unit it moves past. -/

namespace Neubau.Sunspec

open Neubau.Common Neubau.Transition
open Neubau.Modbus.Session (Core Load Registers Turn Turned)

namespace System

variable {c : Config} {N : Network} {o : Outside} {sys : System} {channel : Channel} {k n : ℕ}
  {unitId : UInt8} {l l' : Load} {new : List Modbus.Session.Effect}

/-! ### What the run is asked for -/

/-- Every session transmits its first request before it closes. -/
def Transmits (sys : System) : Prop :=
  ∀ channel ∈ sys.channels, channel.state.core.closed = true → HasSent channel.state.core

instance (sys : System) : Decidable sys.Transmits :=
  inferInstanceAs (Decidable (∀ channel ∈ sys.channels,
    channel.state.core.closed = true → HasSent channel.state.core))

/-- The scan sweeps and would not repeat the probe that is pending. -/
def Exposed (sys : System) : Prop :=
  sys.scan.finished = false ∧ sys.scan.selectedHeader = none ∧
    sys.scan.retryCurrentUnitOnClosed = false

instance (sys : System) : Decidable sys.Exposed :=
  inferInstanceAs (Decidable (sys.scan.finished = false ∧ sys.scan.selectedHeader = none ∧
    sys.scan.retryCurrentUnitOnClosed = false))

/-- While a probe that would not be repeated is not transmitted yet, the session
of the scan, if it has transmitted before, is not closed by the step. -/
def Timely (c : Config) (N : Network) (sys : System) (e : Event) : Prop :=
  ∀ k ∈ sys.scan.session, ∀ channel ∈ sys.channels[k]?,
    ∀ channel' ∈ (step c N sys e).channels[k]?, sys.Exposed →
      Untransmitted channel.state.core → HasSent channel.state.core →
        channel.state.core.closed = false → channel'.state.core.closed = false

instance (c : Config) (N : Network) (sys : System) (e : Event) : Decidable (Timely c N sys e) :=
  inferInstanceAs (Decidable (∀ k ∈ sys.scan.session, ∀ channel ∈ sys.channels[k]?,
    ∀ channel' ∈ (step c N sys e).channels[k]?, sys.Exposed →
      Untransmitted channel.state.core → HasSent channel.state.core →
        channel.state.core.closed = false → channel'.state.core.closed = false))

/-- The sessions of the factory can transmit their first request. -/
def transmittingMachine (c : Config) (N : Network) : Machine System Event :=
  (machine c N).restrict fun sys e => (step c N sys e).Transmits

instance (c : Config) (N : Network) (sys : System) (e : Event) :
    Decidable ((transmittingMachine c N).enabled sys e) :=
  inferInstanceAs (Decidable (sys.Enabled e ∧ (step c N sys e).Transmits))

/-- The steps that skip no unit. -/
def timelyMachine (c : Config) (N : Network) : Machine System Event :=
  (transmittingMachine c N).restrict (Timely c N)

instance (c : Config) (N : Network) (sys : System) (e : Event) :
    Decidable ((timelyMachine c N).enabled sys e) :=
  inferInstanceAs (Decidable ((sys.Enabled e ∧ (step c N sys e).Transmits) ∧ Timely c N sys e))

/-- A turn that closes the session of a probe not transmitted transmits nothing. -/
theorem turn_unsent {closed : Bool} (h : Turn closed l l' new) (hl : ¬Transmitted l)
    (hclosed : closed = true) : ∀ e ∈ new, isSent e = false := by
  cases h with
  | stay _ => nofun
  | transmit hopen => exact absurd (hopen.symm.trans hclosed) Bool.false_ne_true
  | lose _ _ => simp [isSent]
  | reply _ => exact absurd trivial hl
  | refuse _ => exact absurd trivial hl
  | deliver => exact absurd trivial hl

/-- The session of a probe that is not transmitted and would not be repeated stays open. -/
theorem kept_open {e : Event} {channel' : Channel} (hs : sys.scan.Sweeping c k n unitId)
    (hk : sys.channels[k]? = some channel) (hopen : channel.state.core.closed = false)
    (huntransmitted : Untransmitted channel.state.core)
    (hk' : (step c N sys e).channels[k]? = some channel')
    (hlog : channel'.state.core.log = channel.state.core.log ++ new)
    (hturn : Turn channel'.state.core.closed l l' new) (hl : ¬Transmitted l)
    (hretry : sys.scan.retryCurrentUnitOnClosed = false)
    (htransmits : (step c N sys e).Transmits) (htimely : Timely c N sys e) :
    channel'.state.core.closed = false := by
  by_contra hclosed
  rw [Bool.not_eq_false] at hclosed
  have hfresh : ¬HasSent channel.state.core := fun hsent => Bool.false_ne_true
    ((htimely k hs.holds channel hk channel' hk' ⟨hs.finished, hs.selectedHeader, hretry⟩
      huntransmitted hsent hopen).symm.trans hclosed)
  obtain ⟨e, he, hsent⟩ := htransmits channel' (List.mem_of_getElem? hk') hclosed
  rw [hlog] at he
  rcases List.mem_append.1 he with he | he
  · exact hfresh ⟨e, he, hsent⟩
  · exact Bool.false_ne_true ((turn_unsent hturn hl hclosed e he).symm.trans hsent)

/-! ### Every step -/

theorem untransmitted {s : Core} (hlive : s.Live) (hopen : s.closed = false)
    (hcarries : s.Carries l) (hl : ¬Transmitted l) : Untransmitted s := by
  cases l with
  | none => exact ⟨(hlive.rests hopen hcarries.1).awaiting, hcarries.2⟩
  | waiting r => exact ⟨hcarries.2.1.awaiting, hcarries.2.2.2⟩
  | sent r => exact absurd trivial hl
  | replied r registers => exact absurd trivial hl

theorem alone_set {channels : List Channel} {j : ℕ} (h : Alone channels k)
    (hchannel : j ≠ k → channel.state.core.Carries .none) :
    Alone (channels.set j channel) k := by
  intro i ch hi hne
  rw [List.getElem?_set] at hi
  split_ifs at hi with heq hlt
  · obtain rfl := Option.some_inj.1 hi
    exact hchannel (heq ▸ hne)
  · exact h i ch hi hne

/-- A session that carries nothing is told of nothing. -/
theorem turn_none {closed : Bool} (h : Turn closed .none l' new) : l' = .none ∧ new = [] := by
  cases h with
  | stay _ => exact ⟨rfl, rfl⟩
  | lose _ hheld => exact absurd hheld id

/-- The session of the probe took a turn, and its observers are still to be told. -/
theorem Careful.afterTurn (h : Careful c sys) (hs : sys.scan.Sweeping c k n unitId)
    (hk : sys.channels[k]? = some channel) (halone : Alone sys.channels k) {channel' : Channel}
    (hchannel : Wired channel')
    (hlog : channel'.state.core.log = channel.state.core.log ++ new)
    (hturn : Turn channel'.state.core.closed l l' new)
    (hcarries : channel'.state.core.Carries l') {tasks : List ℕ} (htasks : tasks = [])
    (hprobes : Probes channel'.reads n unitId l)
    (hprobed : Transmitted l → ProbedIn sys.channels unitId)
    (hkept : ¬Transmitted l → sys.scan.retryCurrentUnitOnClosed = false →
      channel'.state.core.closed = false) :
    AfterTurn c { sys with tasks, channels := sys.channels.set k channel' } channel' k n unitId
      l l' new where
  sweeping := hs
  tasks := htasks
  wired := set_wired (others_wired h.wired) hchannel
  alone := alone_set halone fun hne => absurd rfl hne
  found := List.getElem?_set_self (List.getElem?_eq_some_iff.1 hk).1
  past := Past.set h.past hk hlog
  turn := hturn
  carries := hcarries
  logged e he := by
    rw [hlog]
    exact List.mem_append_right _ he
  probes := hprobes
  probed hl := (hprobed hl).set hk hlog
  kept := hkept

/-- An event of the session the sweep probes on. -/
theorem Careful.advance (h : Careful c sys) (hfixed : c.fixedUnitId = none)
    {e : Modbus.Session.Event} (hs : sys.scan.Sweeping c k n unitId)
    (hk : sys.channels[k]? = some channel) (halone : Alone sys.channels k)
    (hplaced : Placed sys channel n unitId) (he : Modbus.Session.libhv channel.state e)
    (hread : e.isEnqueue = false) (htransmits : (step c N sys (.session k e o)).Transmits)
    (htimely : Timely c N sys (.session k e o)) : Careful c (sys.advance c N o k e) := by
  have hlt := (List.getElem?_eq_some_iff.1 hk).1
  have hw := h.wired channel (List.mem_of_getElem? hk)
  have hchannel := hw.step (W := N.world k) he hread
  have hturns {l : Load} (hcarries : channel.state.core.Carries l) :
      Modbus.Session.Turns channel.state.core
        (Modbus.Session.step (N.world k) channel.state e).core l :=
    Modbus.Session.step_turns (fun _ _ => rfl) hw.live hcarries he hread
  have hfinal {new : List Modbus.Session.Effect}
      (hlog : (Modbus.Session.step (N.world k) channel.state e).core.log =
        channel.state.core.log ++ new) : (step c N sys (.session k e o)).channels[k]? =
          some { channel with state := Modbus.Session.step (N.world k) channel.state e } := by
    change (sys.advance c N o k e).channels[k]? = _
    rw [advance_eq hk hlog]
    exact foldl_hear_channel (List.getElem?_set_self hlt) k new
  rcases hplaced with ⟨htasks, hcarries, hopen⟩ | ⟨htasks, l, hcarries, hprobes, hprobed⟩
  · obtain ⟨l', new, ht⟩ := hturns hcarries
    obtain ⟨rfl, rfl⟩ := turn_none ht.turn
    rw [advance_eq hk ht.log]
    refine careful_of_placed hs (set_wired (others_wired h.wired) hchannel)
      (Past.set h.past hk ht.log) (List.getElem?_set_self hlt)
      (alone_set halone fun hne => absurd rfl hne) (.inl ⟨htasks, ht.carries, fun hretry => ?_⟩)
    exact kept_open hs hk (hopen hretry) (untransmitted hw.live (hopen hretry) hcarries id)
      (hfinal ht.log) ht.log ht.turn id hretry htransmits htimely
  · obtain ⟨l', new, ht⟩ := hturns hcarries
    rw [advance_eq hk ht.log]
    refine (h.afterTurn hs hk halone hchannel ht.log ht.turn ht.carries htasks hprobes hprobed
      fun hl hretry => ?_).careful hfixed
    have hopen : channel.state.core.closed = false := by
      cases l with
      | waiting r => exact hcarries.1
      | none => exact absurd hprobes id
      | sent r => exact absurd trivial hl
      | replied r registers => exact absurd trivial hl
    exact kept_open hs hk hopen (untransmitted hw.live hopen hcarries hl) (hfinal ht.log) ht.log
      ht.turn hl hretry htransmits htimely

/-- An event of another session. -/
theorem Careful.advance_other (h : Careful c sys) {e : Modbus.Session.Event} {k' : ℕ}
    {channel' : Channel} (hs : sys.scan.Sweeping c k n unitId)
    (hk : sys.channels[k]? = some channel) (halone : Alone sys.channels k)
    (hplaced : Placed sys channel n unitId) (hk' : sys.channels[k']? = some channel')
    (hne : k' ≠ k) (he : Modbus.Session.libhv channel'.state e) (hread : e.isEnqueue = false) :
    Careful c (sys.advance c N o k' e) := by
  have hw := h.wired channel' (List.mem_of_getElem? hk')
  have hchannel := hw.step (W := N.world k') he hread
  obtain ⟨l', new, ht⟩ := Modbus.Session.step_turns (W := N.world k') (fun _ _ => rfl) hw.live
    (halone k' channel' hk' hne) he hread
  obtain ⟨rfl, rfl⟩ := turn_none ht.turn
  rw [advance_eq hk' ht.log]
  refine careful_of_placed hs (set_wired (others_wired h.wired) hchannel)
    (Past.set h.past hk' ht.log) ((List.getElem?_set_ne hne).trans hk)
    (alone_set halone fun _ => ht.carries) ?_
  rcases hplaced with hplaced | ⟨htasks, l, hcarries, hprobes, hprobed⟩
  · exact .inl hplaced
  · exact .inr ⟨htasks, l, hcarries, hprobes, fun hl => (hprobed hl).set hk' ht.log⟩

theorem Careful.session (h : Careful c sys) (hfixed : c.fixedUnitId = none)
    {e : Modbus.Session.Event} (hk : sys.channels[k]? = some channel)
    (he : Modbus.Session.libhv channel.state e) (hread : e.isEnqueue = false)
    (htransmits : (step c N sys (.session k e o)).Transmits)
    (htimely : Timely c N sys (.session k e o)) : Careful c (sys.advance c N o k e) := by
  have hw := h.wired channel (List.mem_of_getElem? hk)
  have hsettled (hs : sys.scan.Settled c) : Careful c (sys.advance c N o k e) :=
    (resting_advance hs (others_wired h.wired) h.past hk (hw.step he hread)).careful
  cases h.phase with
  | idle hidle =>
    have hnil := (h.idle (by rw [hidle])).1
    rw [hnil] at hk
    cases hk
  | @sweeping k₀ n unitId hs =>
    obtain ⟨channel₀, hk₀, halone, hplaced⟩ := h.sweep _ _ _ hs
    by_cases hkk : k = k₀
    · subst hkk
      obtain rfl := Option.some_inj.1 (hk.symm.trans hk₀)
      exact h.advance hfixed hs hk halone hplaced he hread htransmits htimely
    · exact h.advance_other hs hk₀ halone hplaced hk hkk he hread
  | walking hw => exact hsettled (.inr ⟨_, hw⟩)
  | ended hover => exact hsettled (.inl hover)

/-- The loop runs the request of the pending probe. -/
theorem Careful.enqueue_probe (h : Careful c sys) (hfixed : c.fixedUnitId = none)
    (hs : sys.scan.Sweeping c k n unitId) (hk : sys.channels[k]? = some channel)
    (halone : Alone sys.channels k) (htasks : sys.tasks = [n])
    (hcarries : channel.state.core.Carries .none)
    (hopen : sys.scan.retryCurrentUnitOnClosed = false → channel.state.core.closed = false)
    (htransmits : (step c N sys (.enqueue o)).Transmits)
    (htimely : Timely c N sys (.enqueue o)) : Careful c (sys.enqueue c N o) := by
  have hlt := (List.getElem?_eq_some_iff.1 hk).1
  have hw := h.wired channel (List.mem_of_getElem? hk)
  let request : Channel := { channel with reads := channel.reads ++ [n] }
  let sys₁ : System := { sys with tasks := [], channels := sys.channels.set k request }
  have hk₁ : sys₁.channels[k]? = some request := List.getElem?_set_self hlt
  have heq : sys.enqueue c N o = sys₁.advance c N o k (.enqueue unitId 40000 4) := by
    simp only [System.enqueue, htasks, hs.call, ScanState.probeCall, hk]
    rfl
  obtain ⟨r, hunit, haddress, hcount, hobserver, l', new, ht⟩ :=
    Modbus.Session.enqueueInLoop_turns (W := N.world k) hw.live hcarries unitId 40000 4
  let channel' : Channel := { request with
    state := Modbus.Session.step (N.world k) channel.state (.enqueue unitId 40000 4) }
  have hlog : channel'.state.core.log = channel.state.core.log ++ new := ht.log
  have hadvance : sys₁.advance c N o k (.enqueue unitId 40000 4) =
      new.foldl (hear c o k) { sys with tasks := [], channels := sys.channels.set k channel' } := by
    rw [advance_eq hk₁ hlog]
    simp only [sys₁, List.set_set]
    rfl
  have hchannel : Wired channel' := hw.enqueue (N.world k) n unitId 40000 4
  have hprobes : Probes channel'.reads n unitId (.waiting r) := by
    refine ⟨?_, hunit, haddress, hcount⟩
    rw [hobserver, ← hw.reads]
    exact List.getElem?_concat_length
  have hfinal : (step c N sys (.enqueue o)).channels[k]? = some channel' := by
    change (sys.enqueue c N o).channels[k]? = _
    rw [heq, hadvance]
    exact foldl_hear_channel (List.getElem?_set_self hlt) k new
  rw [heq, hadvance]
  refine (h.afterTurn hs hk halone hchannel hlog ht.turn ht.carries rfl hprobes
    (fun hl => absurd hl id) fun hl hretry => ?_).careful hfixed
  exact kept_open hs hk (hopen hretry) (untransmitted hw.live (hopen hretry) hcarries id)
    hfinal hlog ht.turn hl hretry htransmits htimely

/-- A request of a scan that probes no unit any more. -/
theorem Resting.enqueue (h : Resting c sys) : Resting c (sys.enqueue c N o) := by
  have htasks (tasks : List ℕ) : Resting c { sys with tasks } := ⟨h.1, h.2, h.3⟩
  unfold System.enqueue
  split
  · exact h
  · rename_i m tasks _
    split
    · exact htasks tasks
    · rename_i call _
      split
      · exact htasks tasks
      · rename_i channel hk
        have hlt := (List.getElem?_eq_some_iff.1 hk).1
        have hw := h.wired channel (List.mem_of_getElem? hk)
        have hset : (sys.channels.set call.session
            { channel with reads := channel.reads ++ [m] })[call.session]? =
              some { channel with reads := channel.reads ++ [m] } :=
          List.getElem?_set_self hlt
        refine resting_advance h.settled (fun j ch hj hne => ?_) ?_ hset ?_
        · have hj' : (sys.channels.set call.session
              { channel with reads := channel.reads ++ [m] })[j]? = some ch := hj
          rw [List.getElem?_set_ne (Ne.symm hne)] at hj'
          exact h.wired ch (List.mem_of_getElem? hj')
        · exact Past.set h.past hk (List.append_nil _).symm
        · exact hw.enqueue _ m _ _ _

theorem Careful.enqueue (h : Careful c sys) (hfixed : c.fixedUnitId = none)
    (htransmits : (step c N sys (.enqueue o)).Transmits)
    (htimely : Timely c N sys (.enqueue o)) : Careful c (sys.enqueue c N o) := by
  cases hphase : h.phase with
  | idle hidle => simpa [System.enqueue, (h.idle (by rw [hidle])).2] using h
  | @sweeping k n unitId hs =>
    obtain ⟨channel, hk, halone, ⟨htasks, hcarries, hopen⟩ | ⟨htasks, -⟩⟩ := h.sweep _ _ _ hs
    · exact h.enqueue_probe hfixed hs hk halone htasks hcarries hopen htransmits htimely
    · simpa [System.enqueue, htasks] using h
  | walking hw => exact (h.resting (.inr ⟨_, hw⟩)).enqueue.careful
  | ended hover => exact (h.resting (.inl hover)).enqueue.careful

/-- A callback that does nothing. -/
theorem Careful.call_self (h : Careful c sys) {k n : ℕ} {unitId : UInt8}
    (hs : sys.scan.Sweeping c k n unitId) {f : ScanState → ScanState}
    (hf : f sys.scan = sys.scan) : sys.call f = sys := by
  obtain ⟨channel, hk, -⟩ := h.sweep _ _ _ hs
  have hlt := (List.getElem?_eq_some_iff.1 hk).1
  have hne : sys.scan.session ≠ some sys.channels.length := by
    rw [hs.holds]
    simp
    omega
  simp [call, hf, hne]

theorem careful_idle (hscan : sys.scan.Idle) (hchannels : sys.channels = [])
    (htasks : sys.tasks = []) : Careful c sys where
  phase := .idle hscan
  wired := by simp [hchannels]
  idle _ := ⟨hchannels, htasks⟩
  past j _ hj _ := by
    rw [hscan] at hj
    exact absurd hj (Nat.not_lt_zero j)
  sweep _ _ _ hs := by
    have hstarted := hs.started
    rw [hscan] at hstarted
    cases hstarted

theorem Careful.cancel (h : Careful c sys) : Careful c (sys.call ScanState.cancel) := by
  cases h.phase with
  | idle hidle =>
    obtain ⟨hchannels, htasks⟩ := h.idle (by rw [hidle])
    have hcancel : sys.scan.cancel = { cancelled := true } := by
      rw [hidle]
      cases sys.scan.cancelled <;> rfl
    apply careful_idle
    · change sys.scan.cancel.Idle
      rw [hcancel]
      rfl
    · simp [call, hcancel, hchannels]
    · simp [call, hcancel, htasks]
  | sweeping hs =>
    refine call_settled (.inl ?_) ?_ h.wired h.past
    · rw [ScanState.cancel_open hs.toOpen hs.cancelled]
      exact (hs.over .completed).withCancelled true
    · rw [ScanState.cancel_open hs.toOpen hs.cancelled]
      rfl
  | walking hw => exact ((h.resting (.inr ⟨_, hw⟩)).call .cancel).careful
  | ended hover => exact ((h.resting (.inl hover)).call .cancel).careful

/-- The callback that `start` queued, before anything else happened. -/
theorem Careful.start_idle (h : Careful c sys) (hfixed : c.fixedUnitId = none)
    (hidle : sys.scan.Idle) : Careful c (step c N sys (.start o)) := by
  obtain ⟨hchannels, htasks⟩ := h.idle (by rw [hidle])
  have hindex : sys.scan.unitIndex = 0 := by rw [hidle]
  change Careful c (sys.call fun s => Sunspec.step c s (.startInLoop (sys.answers o false)))
  cases hcancelled : sys.scan.cancelled with
  | true =>
    have hstep : Sunspec.step c sys.scan (.startInLoop (sys.answers o false)) =
        ScanState.startInLoop c (sys.answers o false) { cancelled := true, started := true } := by
      rw [hidle, hcancelled]
      rfl
    refine call_settled (.inl ?_) ?_ h.wired h.past
    · rw [hstep]
      exact ScanState.idle_cancelled_over
    · rw [hstep, hindex]
      rfl
  | false =>
    have hstep : Sunspec.step c sys.scan (.startInLoop (sys.answers o false)) =
        ScanState.startInLoop c (sys.answers o false) { started := true } := by
      rw [hidle, hcancelled]
      rfl
    by_cases hmade : ∃ session, (sys.answers o false).subscription = .session session
    · obtain ⟨session, hmade⟩ := hmade
      have hnew : session = sys.channels.length := by
        cases hsub : o.subscription <;> simp_all [answers, Factory.made]
      exact call_probes (ScanState.acquired_unselected session) rfl
        (hstep.trans (ScanState.start_open hmade rfl)) (by rw [hidle]; rfl) htasks hfixed h.wired
        (by simp [hchannels]) (.inl hnew) (fun j _ hj _ => absurd hj (Nat.not_lt_zero j))
    · obtain ⟨hover, hzero⟩ := ScanState.start_unacquired (c := c) (not_exists.1 hmade)
      refine call_settled (.inl ?_) ?_ h.wired h.past
      · rw [hstep]
        exact hover
      · rw [hstep, hzero, hindex]

theorem Careful.start (h : Careful c sys) (hfixed : c.fixedUnitId = none) :
    Careful c (step c N sys (.start o)) := by
  cases h.phase with
  | idle hidle => exact h.start_idle hfixed hidle
  | sweeping hs =>
    have hself := h.call_self hs (f := fun s =>
      Sunspec.step c s (.startInLoop (sys.answers o false))) (by simp [Sunspec.step, hs.started])
    change Careful c (sys.call fun s => Sunspec.step c s (.startInLoop (sys.answers o false)))
    rw [hself]
    exact h
  | walking hw =>
    exact ((h.resting (.inr ⟨_, hw⟩)).call (.startInLoop (sys.answers o false))).careful
  | ended hover =>
    exact ((h.resting (.inl hover)).call (.startInLoop (sys.answers o false))).careful

/-- A timely step of a sweep knows afterwards where its probe is. -/
theorem Careful.step (h : Careful c sys) (hfixed : c.fixedUnitId = none) {e : Event}
    (he : sys.Enabled e) (htransmits : (step c N sys e).Transmits)
    (htimely : Timely c N sys e) : Careful c (step c N sys e) := by
  cases e with
  | start o => exact h.start hfixed
  | enqueue o => exact h.enqueue hfixed htransmits htimely
  | session k e o =>
    obtain ⟨channel, hk, he, hread⟩ := he
    exact h.session hfixed hk he hread htransmits htimely
  | cancel => exact h.cancel

theorem timelyMachine_careful (hfixed : c.fixedUnitId = none) :
    (timelyMachine c N).Invariant (Careful c) where
  init sys hsys := by
    obtain rfl : sys = {} := hsys
    exact careful_idle rfl rfl rfl
  next _ _ h he := h.step hfixed he.1.1 he.1.2 he.2

end System

/-- A sweep whose sessions do not close between a probe that failed and the
transmission of the next one skips no unit. -/
theorem timely_sweep_skips_no_unit {c : Config} {N : Network} (hfixed : c.fixedUnitId = none)
    {sys : System} (hs : (System.timelyMachine c N).Reachable sys) :
    (∀ j unitId, j < sys.scan.unitIndex → unitIds[j]? = some unitId →
      ProbedIn sys.channels unitId) ∧
    (sys.scan.unitIndex = unitIds.length →
      ∀ unitId : UInt8, 1 ≤ unitId → unitId ≤ 247 → ProbedIn sys.channels unitId) := by
  have hcareful := (System.timelyMachine_careful hfixed).reachable hs
  refine ⟨hcareful.past, fun hall unitId hlo hhi => ?_⟩
  obtain ⟨j, hj⟩ := List.mem_iff_getElem?.1 (mem_unitIds hlo hhi)
  have hlt := (List.getElem?_eq_some_iff.1 hj).1
  exact hcareful.past j unitId (by rw [hall]; exact hlt) hj

/-- A sweep of one host, and a network on which every call succeeds. -/
def Config.sweep : Config where
  options := .narrow
  fixedUnitId := none
  endpoint _ := { address := ascii "10.0.0.2", port := 502 }

def Network.obliging : Network := ⟨fun _ _ => true, fun _ _ => true⟩

def Outside.obliging : Outside := ⟨.makes, .makes, false⟩

/-- Unit 1 answers its probe with an exception. -/
def refusedRun : List System.Event :=
  [.start .obliging, .enqueue .obliging, .session 0 (.connection true) .obliging,
    .session 0 (.data [0, 1, 0, 0, 0, 3, 1, 0x83, 2]) .obliging]

theorem timely_sweep_skips_no_unit_refused :
    ProbedIn (refusedRun.foldl (System.step .sweep .obliging) {}).channels 1 := by
  have hrun : (System.timelyMachine .sweep .obliging).Reachable
      (refusedRun.foldl (System.step .sweep .obliging) {}) :=
    (Machine.Reachable.init rfl).run (Machine.run_of_runs (by decide +kernel))
  exact (timely_sweep_skips_no_unit rfl hrun).1 0 1 (by decide +kernel) rfl

/-- Unit 1 answers its probe with an exception, and closes the connection before
the probe of unit 240 is sent: the scan goes on to unit 126. -/
theorem sweep_skips_unit_240 : ∃ sys : System,
    (System.transmittingMachine .sweep .obliging).Reachable sys ∧ sys.scan.unitIndex = 2 ∧
      unitIds[1]? = some 240 ∧ ¬ProbedIn sys.channels 240 := by
  let events := refusedRun ++
    [.session 0 (.connection false) .obliging, .enqueue .obliging]
  refine ⟨events.foldl (System.step .sweep .obliging) {}, ?_, ?_, rfl, ?_⟩
  · exact (Machine.Reachable.init rfl).run (Machine.run_of_runs (by decide +kernel))
  · decide +kernel
  · decide +kernel

end Neubau.Sunspec
