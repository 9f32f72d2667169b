import Neubau.Sunspec.Settled
import Neubau.Sunspec.System

/-! Where the probe of a sweep is. While it is pending it is in exactly one
place: queued on the loop, waiting for a connection, sent, or replied to; and it
was transmitted in the two latter. What a session tells of it moves the scan to
the next unit, repeats the unit on a new session, or ends the sweep; a scan that
probes no unit any more stays so. -/

namespace Neubau.Sunspec

open Neubau.Common Neubau.Transition
open Neubau.Modbus.Session (Core Load Registers Turn Turned)

/-! ### Probes on the wire -/

/-- The probe of a unit was transmitted. -/
def isProbe (unitId : UInt8) : Modbus.Session.Effect → Bool
  | .sent request bytes =>
    request.unitId == unitId && request.address == 40000 && request.count == 4 &&
      bytes == request.bytes
  | _ => false

def isSent : Modbus.Session.Effect → Bool
  | .sent _ _ => true
  | _ => false

/-- The session has transmitted a request. -/
def HasSent (s : Core) : Prop := ∃ e ∈ s.log, isSent e = true

instance (s : Core) : Decidable (HasSent s) :=
  inferInstanceAs (Decidable (∃ e ∈ s.log, isSent e = true))

/-- The session awaits no response and has none to deliver. -/
def Untransmitted (s : Core) : Prop := s.awaitingResponse = false ∧ s.posted = []

instance (s : Core) : Decidable (Untransmitted s) :=
  inferInstanceAs (Decidable (s.awaitingResponse = false ∧ s.posted = []))

def ProbedIn (channels : List Channel) (unitId : UInt8) : Prop :=
  ∃ channel ∈ channels, ∃ e ∈ channel.state.core.log, isProbe unitId e = true

instance (channels : List Channel) (unitId : UInt8) : Decidable (ProbedIn channels unitId) :=
  inferInstanceAs (Decidable (∃ channel ∈ channels, ∃ e ∈ channel.state.core.log,
    isProbe unitId e = true))

/-- The log of a session only grows. -/
theorem ProbedIn.set {channels : List Channel} {unitId : UInt8} (h : ProbedIn channels unitId)
    {k : ℕ} {channel channel' : Channel} (hk : channels[k]? = some channel)
    {new : List Modbus.Session.Effect}
    (hlog : channel'.state.core.log = channel.state.core.log ++ new) :
    ProbedIn (channels.set k channel') unitId := by
  obtain ⟨ch, hmem, e, he, hprobe⟩ := h
  obtain ⟨j, hj⟩ := List.mem_iff_getElem?.1 hmem
  by_cases hjk : k = j
  · subst hjk
    obtain rfl : ch = channel := Option.some_inj.1 (hj.symm.trans hk)
    have hlt := (List.getElem?_eq_some_iff.1 hk).1
    exact ⟨channel', List.mem_of_getElem? (List.getElem?_set_self hlt), e,
      by rw [hlog]; exact List.mem_append_left _ he, hprobe⟩
  · refine ⟨ch, List.mem_of_getElem? (i := j) ?_, e, he, hprobe⟩
    rw [List.getElem?_set_ne hjk]
    exact hj

theorem ProbedIn.append {channels : List Channel} {unitId : UInt8} (h : ProbedIn channels unitId)
    (more : List Channel) : ProbedIn (channels ++ more) unitId := by
  obtain ⟨ch, hmem, h⟩ := h
  exact ⟨ch, List.mem_append_left _ hmem, h⟩

/-! ### Where the pending probe is -/

/-- A load that is the probe `n` of the unit. -/
def Probes (reads : List ℕ) (n : ℕ) (unitId : UInt8) : Load → Prop
  | .none => False
  | .waiting r | .sent r | .replied r _ =>
    reads[r.observer]? = some n ∧ r.unitId = unitId ∧ r.address = 40000 ∧ r.count = 4

def Transmitted : Load → Prop
  | .sent _ | .replied _ _ => True
  | _ => False

/-- The session keeps to its phases and numbers the reads it gets. -/
structure Wired (channel : Channel) : Prop where
  live : channel.state.core.Live
  reads : channel.reads.length = channel.state.core.enqueued

theorem wired_new : Wired {} :=
  ⟨.inr (.inr ⟨.inl ⟨⟨rfl, rfl, rfl, rfl, rfl⟩, rfl⟩, fun h => by cases h⟩), rfl⟩

theorem Wired.step {channel : Channel} (h : Wired channel) {W : Modbus.Session.World}
    {e : Modbus.Session.Event} (he : Modbus.Session.libhv channel.state e)
    (hread : e.isEnqueue = false) :
    Wired { channel with state := Modbus.Session.step W channel.state e } :=
  ⟨Modbus.Session.step_live h.live he,
    h.reads.trans (Modbus.Session.step_enqueued hread).symm⟩

/-- The session gets the read `n`. -/
theorem Wired.enqueue {channel : Channel} (h : Wired channel) (W : Modbus.Session.World) (n : ℕ)
    (unitId : UInt8) (address count : UInt16) :
    Wired { channel with
      reads := channel.reads ++ [n]
      state := Modbus.Session.step W channel.state (.enqueue unitId address count) } := by
  refine ⟨Modbus.Session.enqueueInLoop_live h.live unitId address count, ?_⟩
  change (channel.reads ++ [n]).length =
    (Modbus.Session.enqueueInLoop W channel.state.core unitId address count).enqueued
  rw [Modbus.Session.enqueueInLoop_enqueued, List.length_append, h.reads]
  rfl

theorem set_wired {channels : List Channel} {k : ℕ} {channel : Channel}
    (h : ∀ j ch, channels[j]? = some ch → j ≠ k → Wired ch) (hchannel : Wired channel) :
    ∀ ch ∈ channels.set k channel, Wired ch := by
  intro ch hmem
  obtain ⟨j, hj⟩ := List.mem_iff_getElem?.1 hmem
  rw [List.getElem?_set] at hj
  split_ifs at hj with heq hlt
  · obtain rfl := Option.some_inj.1 hj
    exact hchannel
  · exact h j ch hj (Ne.symm heq)

theorem others_wired {channels : List Channel} {k : ℕ}
    (h : ∀ channel ∈ channels, Wired channel) :
    ∀ j ch, channels[j]? = some ch → j ≠ k → Wired ch :=
  fun _ ch hj _ => h ch (List.mem_of_getElem? hj)

/-- The probe `n` of the unit is queued on the loop, or its session carries it. -/
def Placed (sys : System) (channel : Channel) (n : ℕ) (unitId : UInt8) : Prop :=
  (sys.tasks = [n] ∧ channel.state.core.Carries .none ∧
    (sys.scan.retryCurrentUnitOnClosed = false → channel.state.core.closed = false)) ∨
  (sys.tasks = [] ∧ ∃ l, channel.state.core.Carries l ∧ Probes channel.reads n unitId l ∧
    (Transmitted l → ProbedIn sys.channels unitId))

/-- The sessions other than `k` carry nothing. -/
def Alone (channels : List Channel) (k : ℕ) : Prop :=
  ∀ j channel, channels[j]? = some channel → j ≠ k → channel.state.core.Carries .none

/-- Every unit before this one was probed. -/
def Past (channels : List Channel) (unitIndex : ℕ) : Prop :=
  ∀ j unitId, j < unitIndex → unitIds[j]? = some unitId → ProbedIn channels unitId

theorem Past.append {channels : List Channel} {i : ℕ} (h : Past channels i)
    (more : List Channel) : Past (channels ++ more) i :=
  fun j unitId hj hu => (h j unitId hj hu).append more

theorem Past.set {channels : List Channel} {i k : ℕ} (h : Past channels i)
    {channel channel' : Channel} (hk : channels[k]? = some channel)
    {new : List Modbus.Session.Effect}
    (hlog : channel'.state.core.log = channel.state.core.log ++ new) :
    Past (channels.set k channel') i :=
  fun j unitId hj hu => (h j unitId hj hu).set hk hlog

/-- The unit the sweep is at was probed too. -/
theorem Past.succ {channels : List Channel} {i : ℕ} {unitId : UInt8} (h : Past channels i)
    (hunit : unitIds[i]? = some unitId) (hprobed : ProbedIn channels unitId) :
    Past channels (i + 1) := by
  intro j u hj hu
  rcases Nat.lt_succ_iff_lt_or_eq.1 hj with hj | rfl
  · exact h j u hj hu
  · obtain rfl := Option.some_inj.1 (hunit.symm.trans hu)
    exact hprobed

structure System.Careful (c : Config) (sys : System) : Prop where
  phase : sys.scan.Phase c
  wired : ∀ channel ∈ sys.channels, Wired channel
  idle : sys.scan.started = false → sys.channels = [] ∧ sys.tasks = []
  past : Past sys.channels sys.scan.unitIndex
  sweep : ∀ k n unitId, sys.scan.Sweeping c k n unitId →
    ∃ channel, sys.channels[k]? = some channel ∧ Alone sys.channels k ∧
      Placed sys channel n unitId

namespace System

variable {c : Config} {N : Network} {o : Outside} {sys : System} {f : ScanState → ScanState}

variable {channel : Channel} {k n : ℕ} {unitId : UInt8}

/-- A system whose scan probes no unit any more. -/
structure Resting (c : Config) (sys : System) : Prop where
  settled : sys.scan.Settled c
  wired : ∀ channel ∈ sys.channels, Wired channel
  past : Past sys.channels sys.scan.unitIndex

theorem Resting.careful (h : Resting c sys) : Careful c sys where
  phase := by
    rcases h.settled with h | ⟨w, h⟩
    · exact .ended h
    · exact .walking h
  wired := h.wired
  idle hs := absurd (hs.symm.trans h.settled.started) Bool.false_ne_true
  past := h.past
  sweep _ _ _ hs := absurd hs h.settled.not_sweeping

theorem Careful.resting (h : Careful c sys) (hs : sys.scan.Settled c) : Resting c sys :=
  ⟨hs, h.wired, h.past⟩

/-- A system that sweeps and knows where its probe is. -/
theorem careful_of_placed (hs : sys.scan.Sweeping c k n unitId)
    (hwired : ∀ channel ∈ sys.channels, Wired channel)
    (hpast : Past sys.channels sys.scan.unitIndex) (hk : sys.channels[k]? = some channel)
    (halone : Alone sys.channels k) (hplaced : Placed sys channel n unitId) : Careful c sys where
  phase := .sweeping hs
  wired := hwired
  idle h := absurd (h.symm.trans hs.started) Bool.false_ne_true
  past := hpast
  sweep k' n' u h := by
    obtain rfl : k = k' := Option.some_inj.1 (hs.holds.symm.trans h.holds)
    obtain rfl : n = n' := by simpa using hs.pending.symm.trans h.pending
    obtain rfl : unitId = u := Option.some_inj.1 (hs.unit.symm.trans h.unit)
    exact ⟨channel, hk, halone, hplaced⟩

/-! ### Callbacks of the scan -/

/-- A callback adds a new session at most. -/
theorem call_channels (sys : System) (f : ScanState → ScanState) :
    (sys.call f).channels = sys.channels ∨ (sys.call f).channels = sys.channels ++ [({} : Channel)] := by
  unfold call
  dsimp only
  split_ifs
  · exact .inr rfl
  · exact .inl rfl

theorem call_wired (h : ∀ channel ∈ sys.channels, Wired channel) :
    ∀ channel ∈ (sys.call f).channels, Wired channel := by
  intro channel hmem
  rcases call_channels sys f with heq | heq
  · exact h channel (heq ▸ hmem)
  · rw [heq, List.mem_append, List.mem_singleton] at hmem
    rcases hmem with hmem | rfl
    · exact h channel hmem
    · exact wired_new

theorem call_past (h : Past sys.channels (f sys.scan).unitIndex) :
    Past (sys.call f).channels (sys.call f).scan.unitIndex := by
  change Past (sys.call f).channels (f sys.scan).unitIndex
  rcases call_channels sys f with heq | heq
  · exact heq ▸ h
  · exact heq ▸ h.append _

/-- A callback after which no unit is probed. -/
theorem call_resting (hs : (f sys.scan).Settled c)
    (hwired : ∀ channel ∈ sys.channels, Wired channel)
    (hpast : Past sys.channels (f sys.scan).unitIndex) : Resting c (sys.call f) :=
  ⟨hs, call_wired hwired, call_past hpast⟩

/-- A callback that leaves the sweep where it is. -/
theorem call_settled (hs : (f sys.scan).Settled c)
    (hunit : (f sys.scan).unitIndex = sys.scan.unitIndex)
    (hwired : ∀ channel ∈ sys.channels, Wired channel)
    (hpast : Past sys.channels sys.scan.unitIndex) : Careful c (sys.call f) :=
  (call_resting hs hwired (hunit.symm ▸ hpast)).careful

/-- The session a new probe goes to: the one there is, or a new one. -/
def Target (sys : System) (retryCurrentUnitOnClosed : Bool) (k : ℕ) : Prop :=
  k = sys.channels.length ∨ ∃ channel, sys.channels[k]? = some channel ∧
    (retryCurrentUnitOnClosed = false → channel.state.core.closed = false)

/-- After the callback the target is there, and every other session carries nothing. -/
theorem call_target {k : ℕ} {retry : Bool} (hk : (f sys.scan).session = some k)
    (hnone : ∀ channel ∈ sys.channels, channel.state.core.Carries .none)
    (h : sys.Target retry k) :
    ∃ channel, (sys.call f).channels[k]? = some channel ∧ Alone (sys.call f).channels k ∧
      channel.state.core.Carries .none ∧ (retry = false → channel.state.core.closed = false) := by
  rcases h with rfl | ⟨channel, hchannel, hopen⟩
  · have heq : (sys.call f).channels = sys.channels ++ [({} : Channel)] := if_pos hk
    rw [heq]
    refine ⟨{}, List.getElem?_concat_length, fun j channel hj hne => ?_, ⟨rfl, rfl⟩, fun _ => rfl⟩
    rcases getElem?_concat_eq_some.1 hj with hj | ⟨hj, -⟩
    · exact hnone channel (List.mem_of_getElem? hj)
    · exact absurd hj hne
  · have hlt := (List.getElem?_eq_some_iff.1 hchannel).1
    have heq : (sys.call f).channels = sys.channels := if_neg (by rw [hk]; simp; omega)
    rw [heq]
    have hmem := List.mem_of_getElem? hchannel
    exact ⟨channel, hchannel, fun j channel hj _ => hnone channel (List.mem_of_getElem? hj),
      hnone channel hmem, hopen⟩

/-- A callback that probes the next unit. -/
theorem call_probes {t : ScanState} {k : ℕ} (ht : t.Unselected k) (hpending : t.pending = [])
    (hf : f sys.scan = t.probeNextUnit c) (hreads : t.reads = sys.scan.reads)
    (htasks : sys.tasks = []) (hfixed : c.fixedUnitId = none)
    (hwired : ∀ channel ∈ sys.channels, Wired channel)
    (hnone : ∀ channel ∈ sys.channels, channel.state.core.Carries .none)
    (hsession : sys.Target t.retryCurrentUnitOnClosed k) (hpast : Past sys.channels t.unitIndex) :
    Careful c (sys.call f) := by
  cases hunit : t.currentUnit c with
  | none =>
    obtain ⟨-, hlast⟩ := ScanState.currentUnit_eq_none hunit ht.index
    rw [ht.probeNextUnit_last hfixed hlast] at hf
    have hover : (f sys.scan).Over c := hf ▸ ht.over .completed
    have hindex : (f sys.scan).unitIndex = t.unitIndex := by
      rw [hf]
      rfl
    exact (call_resting (.inl hover) hwired (hindex ▸ hpast)).careful
  | some unitId =>
    have hs : (f sys.scan).Sweeping c k t.reads.length unitId := hf ▸ ht.sweeping hpending hunit
    rw [ht.probeNextUnit_next hunit] at hf
    have hindex : (f sys.scan).unitIndex = t.unitIndex := by
      rw [hf]
      rfl
    have hretry : (sys.call f).scan.retryCurrentUnitOnClosed = t.retryCurrentUnitOnClosed := by
      change (f sys.scan).retryCurrentUnitOnClosed = _
      rw [hf]
      rfl
    have htask : (sys.call f).tasks = [t.reads.length] := by
      simp [call, hf, htasks, hreads, ScanState.readHoldingRegisters, ScanState.tell]
    obtain ⟨channel, hk, halone, hchannel, hopen⟩ := call_target hs.holds hnone hsession
    exact careful_of_placed hs (call_wired hwired) (call_past (hindex ▸ hpast)) hk halone
      (.inl ⟨htask, hchannel, fun h => hopen (hretry ▸ h)⟩)

/-- A factory makes the session with the next number, or none. -/
theorem answers_replacement (sys : System) (o : Outside) (isClosed : Bool) :
    (sys.answers o isClosed).replacement = .session sys.channels.length ∨
      ∀ session, (sys.answers o isClosed).replacement ≠ .session session := by
  cases h : o.replacement <;> simp [answers, Factory.made, h]

/-- A system that sweeps, whose pending probe has just been resolved. -/
structure Resolved (c : Config) (sys : System) (channel : Channel) (k n : ℕ) (unitId : UInt8) :
    Prop where
  sweeping : sys.scan.Sweeping c k n unitId
  tasks : sys.tasks = []
  wired : ∀ channel ∈ sys.channels, Wired channel
  unloaded : ∀ channel ∈ sys.channels, channel.state.core.Carries .none
  found : sys.channels[k]? = some channel
  past : Past sys.channels sys.scan.unitIndex

/-- A probe that failed, on the session as it is then. -/
theorem Resolved.failed (h : Resolved c sys channel k n unitId) (hfixed : c.fixedUnitId = none)
    (hprobed : channel.state.core.closed = false ∨ sys.scan.retryCurrentUnitOnClosed = false →
      ProbedIn sys.channels unitId) :
    Careful c (sys.call fun s =>
      s.onReadFailure c (sys.answers o channel.state.core.closed) n) := by
  have hs := h.sweeping
  obtain ⟨hunit, hlt⟩ := hs.index_lt hfixed
  cases hclosed : channel.state.core.closed with
  | false =>
    exact call_probes (t := ScanState.advanced { sys.scan with pending := [] } false) (k := k)
      (hs.idle.advanced hlt false) rfl (hs.onReadFailure_open hfixed rfl) rfl h.tasks hfixed
      h.wired h.unloaded (.inr ⟨channel, h.found, fun _ => hclosed⟩)
      (h.past.succ hunit (hprobed (.inl hclosed)))
  | true =>
    rcases answers_replacement sys o true with hmade | hmade
    · have hu := hs.idle.replaced sys.channels.length
      have heq := hs.onReadFailure_closed hfixed rfl hmade
      cases hretry : sys.scan.retryCurrentUnitOnClosed with
      | true =>
        rw [if_pos hretry] at heq
        have hu' : ScanState.Unselected
            { ScanState.replaced { sys.scan with pending := [] } sys.channels.length with
              retryCurrentUnitOnClosed := false } sys.channels.length := { hu with }
        exact call_probes hu' rfl heq rfl h.tasks hfixed h.wired h.unloaded (.inl rfl) h.past
      | false =>
        rw [if_neg (by simp [hretry])] at heq
        exact call_probes (hu.advanced hlt false) rfl heq rfl h.tasks hfixed h.wired h.unloaded
          (.inl rfl) (h.past.succ hunit (hprobed (.inr hretry)))
    · obtain ⟨hover, hindex⟩ := (hs.unreplaced hfixed rfl hmade).2
      exact call_settled (.inl hover) hindex h.wired h.past

/-- A probe that was replied to. -/
theorem Resolved.replied (h : Resolved c sys channel k n unitId) (hfixed : c.fixedUnitId = none)
    (hprobed : ProbedIn sys.channels unitId) (registers : Registers) :
    Careful c (sys.call fun s =>
      s.onReply c (sys.answers o channel.state.core.closed) n registers) := by
  have hs := h.sweeping
  obtain ⟨hunit, hlt⟩ := hs.index_lt hfixed
  have hpast := h.past.succ hunit hprobed
  cases hr : isSunspecHeader registers with
  | true =>
    obtain ⟨commonLength, hL, rfl⟩ := isSunspecHeader_iff.1 hr
    obtain ⟨hsettled, hindex⟩ := hs.header_settled (a := sys.answers o _) hL
    exact call_settled hsettled hindex h.wired h.past
  | false =>
    cases hclosed : channel.state.core.closed with
    | false =>
      exact call_probes (hs.idle.advanced hlt true) rfl (hs.onReply_open hr hfixed rfl) rfl
        h.tasks hfixed h.wired h.unloaded (.inr ⟨channel, h.found, fun _ => hclosed⟩) hpast
    | true =>
      rcases answers_replacement sys o true with hmade | hmade
      · exact call_probes ((hs.idle.replaced sys.channels.length).advanced hlt false) rfl
          (hs.onReply_closed hr hfixed rfl hmade) rfl h.tasks hfixed h.wired h.unloaded (.inl rfl)
          hpast
      · obtain ⟨hover, hindex⟩ := (hs.unreplaced hfixed rfl hmade).1 registers hr
        exact call_settled (.inl hover) hindex h.wired h.past

/-- A system that sweeps, after a turn of the session its probe is on. -/
structure AfterTurn (c : Config) (sys : System) (channel : Channel) (k n : ℕ) (unitId : UInt8)
    (l l' : Load) (new : List Modbus.Session.Effect) : Prop where
  sweeping : sys.scan.Sweeping c k n unitId
  tasks : sys.tasks = []
  wired : ∀ channel ∈ sys.channels, Wired channel
  alone : Alone sys.channels k
  found : sys.channels[k]? = some channel
  past : Past sys.channels sys.scan.unitIndex
  turn : Turn channel.state.core.closed l l' new
  carries : channel.state.core.Carries l'
  logged : ∀ e ∈ new, e ∈ channel.state.core.log
  probes : Probes channel.reads n unitId l
  probed : Transmitted l → ProbedIn sys.channels unitId
  kept : ¬Transmitted l → sys.scan.retryCurrentUnitOnClosed = false →
    channel.state.core.closed = false

variable {l l' : Load} {new : List Modbus.Session.Effect}

theorem AfterTurn.placed (h : AfterTurn c sys channel k n unitId l l' new) {l₁ : Load}
    (hcarries : channel.state.core.Carries l₁) (hprobes : Probes channel.reads n unitId l₁)
    (hprobed : Transmitted l₁ → ProbedIn sys.channels unitId) : Careful c sys :=
  careful_of_placed h.sweeping h.wired h.past h.found h.alone
    (.inr ⟨h.tasks, l₁, hcarries, hprobes, hprobed⟩)

theorem AfterTurn.resolved (h : AfterTurn c sys channel k n unitId l l' new)
    (hcarries : channel.state.core.Carries .none) : Resolved c sys channel k n unitId where
  sweeping := h.sweeping
  tasks := h.tasks
  wired := h.wired
  unloaded ch hmem := by
    obtain ⟨j, hj⟩ := List.mem_iff_getElem?.1 hmem
    by_cases hjk : j = k
    · subst hjk
      obtain rfl := Option.some_inj.1 (h.found.symm.trans hj)
      exact hcarries
    · exact h.alone j ch hj hjk
  found := h.found
  past := h.past

/-- What the observers of a session hear of a probe that failed. -/
theorem AfterTurn.hear_failed (h : AfterTurn c sys channel k n unitId l l' new)
    {r : Modbus.Session.Request} {error : Exception} {closed : Bool}
    (hr : channel.reads[r.observer]? = some n) :
    [Modbus.Session.Effect.failed r error closed].foldl (hear c o k) sys =
      sys.call fun s => s.onReadFailure c (sys.answers o closed) n := by
  simp [hear, h.found, hr]

theorem AfterTurn.careful (h : AfterTurn c sys channel k n unitId l l' new)
    (hfixed : c.fixedUnitId = none) : Careful c (new.foldl (hear c o k) sys) := by
  obtain ⟨hs, htasks, hwired, halone, hk, hpast, hturn, hcarries, hnew, hprobes, hprobed, hkept⟩ :=
    id h
  cases hturn with
  | stay _ => exact h.placed hcarries hprobes hprobed
  | @transmit r hopen =>
    have hsame : [Modbus.Session.Effect.sent r r.bytes].foldl (hear c o k) sys = sys := by
      simp [hear, hk]
    rw [hsame]
    refine h.placed hcarries hprobes fun _ => ⟨channel, List.mem_of_getElem? hk, _,
      hnew _ (List.mem_singleton_self _), ?_⟩
    simp [isProbe, hprobes.2.1, hprobes.2.2.1, hprobes.2.2.2]
  | @reply r registers hopen =>
    have hsame : [Modbus.Session.Effect.posted r registers].foldl (hear c o k) sys = sys := by
      simp [hear, hk]
    rw [hsame]
    exact h.placed hcarries hprobes fun _ => hprobed trivial
  | @refuse r error hopen =>
    rw [h.hear_failed hprobes.1, ← hopen]
    exact (h.resolved hcarries).failed hfixed fun _ => hprobed trivial
  | @lose _ r error hclosed hheld =>
    have hr : channel.reads[r.observer]? = some n := by
      cases l with
      | waiting r' => exact (show r' = r from hheld) ▸ hprobes.1
      | sent r' => exact (show r' = r from hheld) ▸ hprobes.1
      | _ => exact absurd hheld id
    rw [h.hear_failed hr, ← hclosed]
    refine (h.resolved hcarries).failed hfixed fun hor => ?_
    by_cases htransmitted : Transmitted l
    · exact hprobed htransmitted
    · rcases hor with hopen | hretry
      · exact absurd (hopen.symm.trans hclosed) Bool.false_ne_true
      · exact absurd ((hkept htransmitted hretry).symm.trans hclosed) Bool.false_ne_true
  | @deliver r registers =>
    have heq : [Modbus.Session.Effect.delivered r registers].foldl (hear c o k) sys =
        sys.call fun s =>
          s.onReply c (sys.answers o channel.state.core.closed) n registers := by
      simp [hear, hk, hprobes.1]
    rw [heq]
    exact (h.resolved hcarries).replied hfixed (hprobed trivial) registers

/-! ### Events of the sessions -/

theorem hear_channel (h : sys.channels[k]? = some channel) (j : ℕ)
    (e : Modbus.Session.Effect) : (hear c o j sys e).channels[k]? = some channel := by
  have hcall (f : ScanState → ScanState) : (sys.call f).channels[k]? = some channel := by
    rcases call_channels sys f with heq | heq
    · rw [heq, h]
    · rw [heq, List.getElem?_append_left (List.getElem?_eq_some_iff.1 h).1, h]
  unfold hear
  split
  · exact h
  · split
    · split
      · exact hcall _
      · exact h
    · split
      · exact hcall _
      · exact h
    · exact h

theorem foldl_hear_channel (h : sys.channels[k]? = some channel) (j : ℕ)
    (new : List Modbus.Session.Effect) :
    (new.foldl (hear c o j) sys).channels[k]? = some channel := by
  induction new generalizing sys with
  | nil => exact h
  | cons e new ih => exact ih (hear_channel h j e)

/-- A session's event, by the effects it has. -/
theorem advance_eq {e : Modbus.Session.Event} (hk : sys.channels[k]? = some channel)
    (hlog : (Modbus.Session.step (N.world k) channel.state e).core.log =
      channel.state.core.log ++ new) :
    sys.advance c N o k e = new.foldl (hear c o k)
      { sys with
        channels := sys.channels.set k
          { channel with state := Modbus.Session.step (N.world k) channel.state e } } := by
  simp [advance, hk, hlog]

theorem Resting.call (h : Resting c sys) (e : Sunspec.Event) :
    Resting c (sys.call fun s => Sunspec.step c s e) := by
  obtain ⟨hs, hindex⟩ := h.settled.step e
  exact call_resting hs h.wired (hindex.symm ▸ h.past)

theorem Resting.hear (h : Resting c sys) (k : ℕ) (e : Modbus.Session.Effect) :
    Resting c (hear c o k sys e) := by
  unfold System.hear
  split
  · exact h
  · rename_i channel _
    split
    · split
      · rename_i closed _ n _
        exact h.call (.failure n (sys.answers o closed))
      · exact h
    · split
      · rename_i registers _ n _
        exact h.call (.reply n registers (sys.answers o channel.state.core.closed))
      · exact h
    · exact h

theorem Resting.foldl (h : Resting c sys) (k : ℕ) (new : List Modbus.Session.Effect) :
    Resting c (new.foldl (System.hear c o k) sys) := by
  induction new generalizing sys with
  | nil => exact h
  | cons e new ih => exact ih (h.hear k e)

/-- An event of a session of a scan that probes no unit any more. -/
theorem resting_advance {e : Modbus.Session.Event} (hsettled : sys.scan.Settled c)
    (hwired : ∀ j ch, sys.channels[j]? = some ch → j ≠ k → Wired ch)
    (hpast : Past sys.channels sys.scan.unitIndex) (hk : sys.channels[k]? = some channel)
    (hchannel :
      Wired { channel with state := Modbus.Session.step (N.world k) channel.state e }) :
    Resting c (sys.advance c N o k e) := by
  obtain ⟨new, hnew⟩ := Modbus.Session.step_extends (W := N.world k) channel.state e
  have hrest : Resting c { sys with
      channels := sys.channels.set k
        { channel with state := Modbus.Session.step (N.world k) channel.state e } } :=
    { settled := hsettled
      wired := set_wired hwired hchannel
      past := hpast.set hk hnew.symm }
  rw [advance_eq hk hnew.symm]
  exact hrest.foldl k new

end System

end Neubau.Sunspec
