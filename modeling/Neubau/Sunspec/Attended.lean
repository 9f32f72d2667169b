import Neubau.Sunspec.Issuing
import Neubau.Sunspec.NoSkip

/-! A scan over its sessions never hangs. While it goes on, the one read it waits for is
in exactly one place: queued on the loop, or carried by the session it was asked of,
behind a timer or with its reply queued; the other sessions carry nothing. What a session
tells of the read moves the scan to its next read or ends it. So where nothing is queued
and no timer is armed, the scan is over. -/

namespace Neubau.Sunspec

open Neubau.Common Neubau.Transition
open Neubau.Modbus.Session (Core Load Registers Request Turn Turned)

/-- A request is the read `n`, as the scan asked for it. -/
structure IsRead (reads : List ℕ) (n : ℕ) (call : ReadCall) (r : Request) : Prop where
  number : reads[r.observer]? = some n
  unitId : r.unitId = call.unitId
  address : r.address = call.address
  count : r.count = call.count

def Serves (reads : List ℕ) (n : ℕ) (call : ReadCall) : Load → Prop
  | .none => False
  | .waiting r | .sent r | .replied r _ => IsRead reads n call r

/-- The read `n` is queued on the loop, or its session carries it. -/
def Attends (sys : System) (channel : Channel) (n : ℕ) (call : ReadCall) : Prop :=
  (sys.tasks = [n] ∧ channel.state.core.Carries .none) ∨
    (sys.tasks = [] ∧ ∃ l, channel.state.core.Carries l ∧ Serves channel.reads n call l)

/-- What the session `k` has transmitted are reads that the scan asked of it. -/
def OwnReads (reads : List ReadCall) (k : ℕ) (channel : Channel) : Prop :=
  ∀ r bytes, .sent r bytes ∈ channel.state.core.log →
    ∃ n call, reads[n]? = some call ∧ call.session = k ∧ IsRead channel.reads n call r

structure System.Attended (c : Config) (sys : System) : Prop where
  phase : sys.scan.Phase c
  wired : ∀ channel ∈ sys.channels, Wired channel
  idle : sys.scan.started = false → sys.channels = [] ∧ sys.tasks = []
  own : sys.scan.finished = false → ∀ k channel, sys.channels[k]? = some channel →
    OwnReads sys.scan.reads k channel
  attended : ∀ k n, sys.scan.Expects k n → ∃ call channel, sys.scan.reads[n]? = some call ∧
    call.session = k ∧ sys.channels[k]? = some channel ∧ Alone sys.channels k ∧
    Attends sys channel n call

/-- A scan that asks for more reads keeps those it has asked for. -/
theorem OwnReads.mono {reads reads' : List ReadCall} {k : ℕ} {channel : Channel}
    (h : OwnReads reads k channel) (hreads : reads <+: reads') : OwnReads reads' k channel := by
  intro r bytes hsent
  obtain ⟨more, rfl⟩ := hreads
  obtain ⟨n, call, hcall, hown⟩ := h r bytes hsent
  refine ⟨n, call, ?_, hown⟩
  rwa [List.getElem?_append_left (List.getElem?_eq_some_iff.1 hcall).1]

namespace System

variable {c : Config} {N : Network} {o : Outside} {sys : System} {f : ScanState → ScanState}
  {channel : Channel} {k n : ℕ} {call : ReadCall} {l l' : Load}
  {new : List Modbus.Session.Effect}

/-- A scan that is over waits for nothing. -/
theorem attended_over (hover : sys.scan.Over c) (hwired : ∀ channel ∈ sys.channels, Wired channel) :
    Attended c sys where
  phase := .ended hover
  wired := hwired
  idle h := absurd (h.symm.trans hover.started) Bool.false_ne_true
  own h := absurd (h.symm.trans hover.finished) Bool.false_ne_true
  attended _ _ h := absurd (h.unfinished.symm.trans hover.finished) Bool.false_ne_true

/-- A factory makes the session with the next number. -/
theorem answers_made {isClosed : Bool}
    (h : (sys.answers o isClosed).subscription = .session k ∨
      (sys.answers o isClosed).replacement = .session k) : k = sys.channels.length := by
  rcases h with h | h
  · cases hmade : o.subscription <;> simp_all [answers, Factory.made]
  · cases hmade : o.replacement <;> simp_all [answers, Factory.made]

/-- A callback of the scan, when no read is under way. -/
theorem call_attended {isClosed : Bool}
    (h : ScanState.Proceeds c (sys.answers o isClosed) sys.scan (f sys.scan))
    (htasks : sys.tasks = []) (hwired : ∀ channel ∈ sys.channels, Wired channel)
    (hnone : ∀ channel ∈ sys.channels, channel.state.core.Carries .none)
    (hsession : ∀ k, sys.scan.session = some k → k < sys.channels.length)
    (hown : ∀ k channel, sys.channels[k]? = some channel → OwnReads sys.scan.reads k channel)
    (hphase : (f sys.scan).Phase c) :
    Attended c (sys.call f) := by
  rcases h with hover | ⟨k, hexpects, hprefix, hlength, hmade⟩
  · exact attended_over hover (call_wired hwired)
  have htarget : sys.Target true k := by
    rcases hmade with hmade | hmade
    · exact .inr ⟨_, List.getElem?_eq_getElem (hsession k hmade), nofun⟩
    · exact .inl (answers_made hmade)
  obtain ⟨channel, hk, halone, hcarries, -⟩ := call_target hexpects.holds hnone htarget
  refine ⟨hphase, call_wired hwired, fun hs => ?_, fun _ j ch hj => ?_, fun k' n' h => ?_⟩
  · exact absurd (hs.symm.trans hexpects.started) Bool.false_ne_true
  · rcases call_channels sys f with heq | heq
    · exact (hown j ch (heq ▸ hj)).mono hprefix
    · rw [heq] at hj
      rcases getElem?_concat_eq_some.1 hj with hj | ⟨-, rfl⟩
      · exact (hown j ch hj).mono hprefix
      · exact fun r bytes hsent => absurd hsent List.not_mem_nil
  · obtain rfl : k = k' := Option.some.inj (hexpects.holds.symm.trans h.holds)
    obtain rfl : sys.scan.reads.length = n' := by simpa using hexpects.pending.symm.trans h.pending
    obtain ⟨call, hcall, hk'⟩ := hexpects.call
    refine ⟨call, channel, hcall, hk', hk, halone, .inl ⟨?_, hcarries⟩⟩
    show sys.tasks ++ List.range' sys.scan.reads.length
      ((f sys.scan).reads.length - sys.scan.reads.length) = _
    rw [htasks, hlength, Nat.add_sub_cancel_left]
    rfl

/-- A system that waits for the read `n`, after a turn of its session. -/
structure Turning (c : Config) (sys : System) (channel : Channel) (k n : ℕ) (call : ReadCall)
    (l l' : Load) (new : List Modbus.Session.Effect) : Prop where
  phase : sys.scan.Phase c
  expects : sys.scan.Expects k n
  asked : sys.scan.reads[n]? = some call
  session : call.session = k
  tasks : sys.tasks = []
  wired : ∀ channel ∈ sys.channels, Wired channel
  alone : Alone sys.channels k
  found : sys.channels[k]? = some channel
  own : ∀ j ch, sys.channels[j]? = some ch → OwnReads sys.scan.reads j ch
  turn : Turn channel.state.core.closed l l' new
  carries : channel.state.core.Carries l'
  serves : Serves channel.reads n call l

/-- The read is still under way. -/
theorem Turning.under (h : Turning c sys channel k n call l l' new)
    (hserves : Serves channel.reads n call l') : Attended c sys where
  phase := h.phase
  wired := h.wired
  idle hs := absurd (hs.symm.trans h.expects.started) Bool.false_ne_true
  own _ := h.own
  attended k' n' h' := by
    obtain rfl : k = k' := Option.some.inj (h.expects.holds.symm.trans h'.holds)
    obtain rfl : n = n' := by simpa using h.expects.pending.symm.trans h'.pending
    exact ⟨call, channel, h.asked, h.session, h.found, h.alone,
      .inr ⟨h.tasks, l', h.carries, hserves⟩⟩

/-- The read is resolved, and the scan is told. -/
theorem Turning.resolved (h : Turning c sys channel k n call l .none new) {isClosed : Bool}
    (hf : ScanState.Proceeds c (sys.answers o isClosed) sys.scan (f sys.scan))
    (hphase : (f sys.scan).Phase c) : Attended c (sys.call f) := by
  refine call_attended hf h.tasks h.wired (fun ch hmem => ?_) (fun k' hk' => ?_) h.own hphase
  · obtain ⟨j, hj⟩ := List.mem_iff_getElem?.1 hmem
    by_cases hjk : j = k
    · subst hjk
      obtain rfl := Option.some.inj (h.found.symm.trans hj)
      exact h.carries
    · exact h.alone j ch hj hjk
  · obtain rfl := Option.some.inj (hk'.symm.trans h.expects.holds)
    exact (List.getElem?_eq_some_iff.1 h.found).1

/-- A read that has failed, on a session that is closed by then or not. -/
theorem Turning.failed (h : Turning c sys channel k n call l .none new) {r : Request}
    {error : Exception} {closed : Bool} (hr : IsRead channel.reads n call r) :
    Attended c ([Modbus.Session.Effect.failed r error closed].foldl (hear c o k) sys) := by
  have heq : [Modbus.Session.Effect.failed r error closed].foldl (hear c o k) sys =
      sys.call fun s => s.onReadFailure c (sys.answers o closed) n := by
    simp [hear, h.found, hr.number]
  rw [heq]
  exact h.resolved (h.expects.onReadFailure h.phase) (h.phase.step (.failure n _))

theorem Turning.attended (h : Turning c sys channel k n call l l' new) :
    Attended c (new.foldl (hear c o k) sys) := by
  have hserves := h.serves
  cases h.turn with
  | stay _ => exact h.under hserves
  | @transmit r _ =>
    have hsame : [Modbus.Session.Effect.sent r r.bytes].foldl (hear c o k) sys = sys := by
      simp [hear, h.found]
    rw [hsame]
    exact h.under hserves
  | @reply r registers _ =>
    have hsame : [Modbus.Session.Effect.posted r registers].foldl (hear c o k) sys = sys := by
      simp [hear, h.found]
    rw [hsame]
    exact h.under hserves
  | refuse _ => exact h.failed hserves
  | lose _ hheld =>
    cases l with
    | waiting r' =>
      obtain rfl : r' = _ := hheld
      exact h.failed hserves
    | sent r' =>
      obtain rfl : r' = _ := hheld
      exact h.failed hserves
    | _ => exact absurd hheld id
  | @deliver r registers =>
    have heq : [Modbus.Session.Effect.delivered r registers].foldl (hear c o k) sys =
        sys.call fun s => s.onReply c (sys.answers o channel.state.core.closed) n registers := by
      simp [hear, h.found, hserves.number]
    rw [heq]
    exact h.resolved (h.expects.onReply h.phase registers) (h.phase.step (.reply n registers _))

/-! ### The events of a system -/

/-- A scan that is over hears of nothing any more. -/
theorem hear_over (hover : sys.scan.Over c) (hwired : ∀ channel ∈ sys.channels, Wired channel)
    (k : ℕ) (e : Modbus.Session.Effect) :
    (hear c o k sys e).scan.Over c ∧ ∀ channel ∈ (hear c o k sys e).channels, Wired channel := by
  have hcall (e : Sunspec.Event) : (sys.call fun s => Sunspec.step c s e).scan.Over c ∧
      ∀ channel ∈ (sys.call fun s => Sunspec.step c s e).channels, Wired channel :=
    ⟨(hover.step e).1, call_wired hwired⟩
  unfold hear
  split
  · exact ⟨hover, hwired⟩
  · rename_i channel _
    split
    · split
      · rename_i closed _ n _
        exact hcall (.failure n (sys.answers o closed))
      · exact ⟨hover, hwired⟩
    · split
      · rename_i registers _ n _
        exact hcall (.reply n registers (sys.answers o channel.state.core.closed))
      · exact ⟨hover, hwired⟩
    · exact ⟨hover, hwired⟩

theorem foldl_hear_over (hover : sys.scan.Over c)
    (hwired : ∀ channel ∈ sys.channels, Wired channel) (k : ℕ)
    (new : List Modbus.Session.Effect) : Attended c (new.foldl (hear c o k) sys) := by
  induction new generalizing sys with
  | nil => exact attended_over hover hwired
  | cons e new ih =>
    obtain ⟨hover, hwired⟩ := hear_over (o := o) hover hwired k e
    exact ih hover hwired

theorem advance_over {e : Modbus.Session.Event} (hover : sys.scan.Over c)
    (hwired : ∀ j ch, sys.channels[j]? = some ch → j ≠ k → Wired ch)
    (hk : sys.channels[k]? = some channel)
    (hchannel : Wired { channel with state := Modbus.Session.step (N.world k) channel.state e }) :
    Attended c (sys.advance c N o k e) := by
  obtain ⟨new, hnew⟩ := Modbus.Session.step_extends (W := N.world k) channel.state e
  rw [advance_eq hk hnew.symm]
  exact foldl_hear_over (by exact hover) (set_wired hwired hchannel) k new

/-- What a session has transmitted after a turn of it. -/
theorem ownReads_turn {reads : List ReadCall} {channel' : Channel} (h : OwnReads reads k channel)
    (hasked : reads[n]? = some call) (hsession : call.session = k)
    (hlog : channel'.state.core.log = channel.state.core.log ++ new)
    (hreads : channel.reads <+: channel'.reads)
    (hturn : Turn channel'.state.core.closed l l' new) (hserves : Serves channel'.reads n call l) :
    OwnReads reads k channel' := by
  intro r bytes hsent
  rw [hlog, List.mem_append] at hsent
  rcases hsent with hsent | hsent
  · obtain ⟨m, call', hcall', hk', hown⟩ := h r bytes hsent
    obtain ⟨more, hmore⟩ := hreads
    refine ⟨m, call', hcall', hk', ?_, hown.2, hown.3, hown.4⟩
    rw [← hmore, List.getElem?_append_left (List.getElem?_eq_some_iff.1 hown.1).1]
    exact hown.1
  · cases hturn with
    | stay _ => exact absurd hsent List.not_mem_nil
    | transmit _ =>
      cases List.mem_singleton.1 hsent
      exact ⟨n, call, hasked, hsession, hserves⟩
    | _ => cases List.mem_singleton.1 hsent

/-- The session `k` has taken a turn, and the scan is still to be told. -/
theorem Attended.turning (h : Attended c sys) {channel' : Channel} {tasks : List ℕ}
    (hexpects : sys.scan.Expects k n) (hasked : sys.scan.reads[n]? = some call)
    (hsession : call.session = k) (hk : sys.channels[k]? = some channel)
    (halone : Alone sys.channels k) (hchannel : Wired channel')
    (hlog : channel'.state.core.log = channel.state.core.log ++ new)
    (hreads : channel.reads <+: channel'.reads)
    (hturn : Turn channel'.state.core.closed l l' new)
    (hcarries : channel'.state.core.Carries l') (htasks : tasks = [])
    (hserves : Serves channel'.reads n call l) :
    Turning c { sys with tasks, channels := sys.channels.set k channel' } channel' k n call
      l l' new where
  phase := h.phase
  expects := hexpects
  asked := hasked
  session := hsession
  tasks := htasks
  wired := set_wired (others_wired h.wired) hchannel
  alone := alone_set halone fun hne => absurd rfl hne
  found := List.getElem?_set_self (List.getElem?_eq_some_iff.1 hk).1
  own j ch hj := by
    have hown := h.own hexpects.unfinished
    by_cases hjk : k = j
    · subst hjk
      rw [List.getElem?_set_self (List.getElem?_eq_some_iff.1 hk).1] at hj
      obtain rfl := Option.some.inj hj
      exact ownReads_turn (hown k channel hk) hasked hsession hlog hreads hturn hserves
    · exact hown j ch (by rwa [List.getElem?_set_ne hjk] at hj)
  turn := hturn
  carries := hcarries
  serves := hserves

/-- A session has taken a turn of which the scan is not told. -/
theorem Attended.silent (h : Attended c sys) {j : ℕ} {channel₁ channel₂ : Channel}
    (hexpects : sys.scan.Expects k n) (hasked : sys.scan.reads[n]? = some call)
    (hsession : call.session = k) (hk : sys.channels[k]? = some channel)
    (halone : Alone sys.channels k) (hattends : Attends sys channel n call)
    (hj : sys.channels[j]? = some channel₁) (hwired : Wired channel₂)
    (hlog : channel₂.state.core.log = channel₁.state.core.log)
    (hreads : channel₂.reads = channel₁.reads)
    (hother : j ≠ k → channel₂.state.core.Carries .none)
    (hsame : j = k → Attends sys channel₂ n call) :
    Attended c { sys with channels := sys.channels.set j channel₂ } := by
  have hlt := (List.getElem?_eq_some_iff.1 hj).1
  refine ⟨h.phase, set_wired (others_wired h.wired) hwired, fun hs => ?_, fun _ i ch hi => ?_,
    fun k' n' h' => ?_⟩
  · exact absurd (hs.symm.trans hexpects.started) Bool.false_ne_true
  · have hown := h.own hexpects.unfinished
    change (sys.channels.set j channel₂)[i]? = some ch at hi
    by_cases hji : j = i
    · subst hji
      rw [List.getElem?_set_self hlt] at hi
      obtain rfl := Option.some.inj hi
      intro r bytes hsent
      rw [hreads]
      exact hown j channel₁ hj r bytes (hlog ▸ hsent)
    · exact hown i ch (by rwa [List.getElem?_set_ne hji] at hi)
  · obtain rfl : k = k' := Option.some.inj (hexpects.holds.symm.trans h'.holds)
    obtain rfl : n = n' := by simpa using hexpects.pending.symm.trans h'.pending
    by_cases hjk : j = k
    · subst hjk
      exact ⟨call, channel₂, hasked, hsession, List.getElem?_set_self hlt,
        alone_set halone fun hne => absurd rfl hne, hsame rfl⟩
    · exact ⟨call, channel, hasked, hsession, (List.getElem?_set_ne hjk).trans hk,
        alone_set halone hother, hattends⟩

/-- An event of a session while the scan waits for a read. -/
theorem Attended.advance (h : Attended c sys) {e : Modbus.Session.Event} {j : ℕ}
    {channel' : Channel} (hexpects : sys.scan.Expects k n)
    (hj : sys.channels[j]? = some channel') (he : Modbus.Session.libhv channel'.state e)
    (hread : e.isEnqueue = false) : Attended c (sys.advance c N o j e) := by
  obtain ⟨call, channel, hasked, hsession, hk, halone, hattends⟩ := h.attended k n hexpects
  have hw := h.wired channel' (List.mem_of_getElem? hj)
  have hchannel := hw.step (W := N.world j) he hread
  have hturns {l : Load} (hcarries : channel'.state.core.Carries l) :
      Modbus.Session.Turns channel'.state.core
        (Modbus.Session.step (N.world j) channel'.state e).core l :=
    Modbus.Session.step_turns (fun _ _ => rfl) hw.live hcarries he hread
  -- a session that carries nothing tells of nothing
  have hsilent (hcarries : channel'.state.core.Carries .none)
      (hqueued : j = k → sys.tasks = [n]) : Attended c (sys.advance c N o j e) := by
    obtain ⟨l', new, ht⟩ := hturns hcarries
    obtain ⟨rfl, rfl⟩ := turn_none ht.turn
    rw [advance_eq hj ht.log]
    exact h.silent hexpects hasked hsession hk halone hattends hj hchannel
      (ht.log.trans (List.append_nil _)) rfl (fun _ => ht.carries)
      fun hjk => .inl ⟨hqueued hjk, ht.carries⟩
  by_cases hjk : j = k
  · subst hjk
    obtain rfl := Option.some.inj (hj.symm.trans hk)
    rcases hattends with ⟨htasks, hcarries⟩ | ⟨htasks, l, hcarries, hserves⟩
    · exact hsilent hcarries fun _ => htasks
    · obtain ⟨l', new, ht⟩ := hturns hcarries
      rw [advance_eq hj ht.log]
      exact (h.turning hexpects hasked hsession hk halone hchannel ht.log List.prefix_rfl ht.turn
        ht.carries htasks hserves).attended
  · exact hsilent (halone j channel' hj hjk) fun heq => absurd heq hjk

/-- The loop runs the request of the read. -/
theorem Attended.enqueue (h : Attended c sys) (hexpects : sys.scan.Expects k n) :
    Attended c (sys.enqueue c N o) := by
  obtain ⟨call, channel, hasked, hsession, hk, halone, ⟨htasks, hcarries⟩ | ⟨htasks, -⟩⟩ :=
    h.attended k n hexpects
  · have hlt := (List.getElem?_eq_some_iff.1 hk).1
    have hw := h.wired channel (List.mem_of_getElem? hk)
    let request : Channel := { channel with reads := channel.reads ++ [n] }
    let sys₁ : System := { sys with tasks := [], channels := sys.channels.set k request }
    have hk₁ : sys₁.channels[k]? = some request := List.getElem?_set_self hlt
    obtain ⟨r, hunit, haddress, hcount, hobserver, l', new, ht⟩ :=
      Modbus.Session.enqueueInLoop_turns (W := N.world k) hw.live hcarries call.unitId
        call.address call.count
    let channel' : Channel := { request with
      state := Modbus.Session.step (N.world k) channel.state
        (.enqueue call.unitId call.address call.count) }
    have hlog : channel'.state.core.log = channel.state.core.log ++ new := ht.log
    have heq : sys.enqueue c N o =
        sys₁.advance c N o k (.enqueue call.unitId call.address call.count) := by
      simp only [System.enqueue, htasks, hasked, hsession, hk]
      rfl
    have hadvance : sys₁.advance c N o k (.enqueue call.unitId call.address call.count) =
        new.foldl (hear c o k) { sys with tasks := [], channels := sys.channels.set k channel' } := by
      rw [advance_eq hk₁ hlog]
      simp only [sys₁, List.set_set]
      rfl
    have hserves : Serves channel'.reads n call (.waiting r) := by
      refine ⟨?_, hunit, haddress, hcount⟩
      rw [hobserver, ← hw.reads]
      exact List.getElem?_concat_length
    rw [heq, hadvance]
    exact (h.turning hexpects hasked hsession hk halone (hw.enqueue _ n _ _ _) hlog
      (List.prefix_append _ _) ht.turn ht.carries rfl hserves).attended
  · rw [System.enqueue, htasks]
    exact h

/-- A callback of the scan that changes nothing. -/
theorem Attended.call_self (h : Attended c sys) (hexpects : sys.scan.Expects k n)
    (hf : f sys.scan = sys.scan) : sys.call f = sys := by
  obtain ⟨-, channel, -, -, hk, -⟩ := h.attended k n hexpects
  have hlt := (List.getElem?_eq_some_iff.1 hk).1
  have hne : sys.scan.session ≠ some sys.channels.length := by
    rw [hexpects.holds]
    simp
    omega
  simp [System.call, hf, hne]

theorem attended_idle (hscan : sys.scan.Idle) (hchannels : sys.channels = [])
    (htasks : sys.tasks = []) : Attended c sys where
  phase := .idle hscan
  wired := by simp [hchannels]
  idle _ := ⟨hchannels, htasks⟩
  own _ := by simp [hchannels]
  attended k n h := by
    have hstarted := h.started
    rw [hscan] at hstarted
    cases hstarted

/-- The callback that `start` queued. -/
theorem Attended.start (h : Attended c sys) : Attended c (step c N sys (.start o)) := by
  change Attended c (sys.call fun s => Sunspec.step c s (.startInLoop (sys.answers o false)))
  have hphase := h.phase.step (.startInLoop (sys.answers o false))
  cases hstarted : sys.scan.started with
  | false =>
    obtain ⟨hchannels, htasks⟩ := h.idle hstarted
    have hidle : sys.scan.Idle := by
      cases h.phase with
      | idle hidle => exact hidle
      | sweeping hs => exact absurd (hs.started.symm.trans hstarted) (by decide)
      | walking hw => exact absurd (hw.started.symm.trans hstarted) (by decide)
      | ended hover => exact absurd (hover.started.symm.trans hstarted) (by decide)
    have hissues := ScanState.issues_startInLoop (c := c) (a := sys.answers o false)
      { sys.scan with started := true }
    have hstep : Sunspec.step c sys.scan (.startInLoop (sys.answers o false)) =
        ScanState.startInLoop c (sys.answers o false) { sys.scan with started := true } := by
      rw [Sunspec.step, hstarted]
      rfl
    have hproceeds : ScanState.Proceeds c (sys.answers o false) sys.scan
        (Sunspec.step c sys.scan (.startInLoop (sys.answers o false))) := by
      rw [hstep]
      exact hissues.proceeds rfl (by rw [hidle]) (hstep ▸ hphase)
    refine call_attended hproceeds htasks h.wired (by simp [hchannels]) ?_ (by simp [hchannels])
      hphase
    rw [hidle]
    simp
  | true =>
    rcases h.phase.expects hstarted with hover | ⟨k, n, hexpects⟩
    · exact attended_over (hover.step (.startInLoop (sys.answers o false))).1 (call_wired h.wired)
    · rw [h.call_self hexpects (by simp [Sunspec.step, hstarted])]
      exact h

theorem Attended.cancel (h : Attended c sys) : Attended c (sys.call ScanState.cancel) := by
  cases h.phase with
  | idle hidle =>
    obtain ⟨hchannels, htasks⟩ := h.idle (by rw [hidle])
    have hcancel : sys.scan.cancel = { cancelled := true } := by
      rw [hidle]
      cases sys.scan.cancelled <;> rfl
    apply attended_idle
    · change sys.scan.cancel.Idle
      rw [hcancel]
      rfl
    · simp [System.call, hcancel, hchannels]
    · simp [System.call, hcancel, htasks]
  | sweeping hs =>
    refine attended_over ?_ (call_wired h.wired)
    rw [System.call, ScanState.cancel_open hs.toOpen hs.cancelled]
    exact (hs.over .completed).withCancelled true
  | walking hw =>
    refine attended_over ?_ (call_wired h.wired)
    rw [System.call, ScanState.cancel_open hw.toOpen hw.cancelled]
    exact (hw.over .completed).withCancelled true
  | ended hover => exact attended_over (hover.step .cancel).1 (call_wired h.wired)

/-- A request of a scan that is over. -/
theorem enqueue_over (hover : sys.scan.Over c) (hwired : ∀ channel ∈ sys.channels, Wired channel) :
    Attended c (sys.enqueue c N o) := by
  unfold System.enqueue
  split
  · exact attended_over hover hwired
  · rename_i m tasks _
    split
    · exact attended_over hover hwired
    · rename_i call _
      split
      · exact attended_over hover hwired
      · rename_i channel hk
        refine advance_over (by exact hover) (fun j ch hj hne => ?_)
          (List.getElem?_set_self (List.getElem?_eq_some_iff.1 hk).1)
          ((hwired channel (List.mem_of_getElem? hk)).enqueue _ m _ _ _)
        have hj' : (sys.channels.set call.session
            { channel with reads := channel.reads ++ [m] })[j]? = some ch := hj
        rw [List.getElem?_set_ne (Ne.symm hne)] at hj'
        exact hwired ch (List.mem_of_getElem? hj')

/-- Every event of a system leaves the read of its scan attended to. -/
theorem Attended.step (h : Attended c sys) {e : Event} (he : sys.Enabled e) :
    Attended c (step c N sys e) := by
  cases e with
  | start o => exact h.start
  | cancel => exact h.cancel
  | enqueue o =>
    change Attended c (sys.enqueue c N o)
    cases hstarted : sys.scan.started with
    | false =>
      rw [System.enqueue, (h.idle hstarted).2]
      exact h
    | true =>
      rcases h.phase.expects hstarted with hover | ⟨k, n, hexpects⟩
      · exact enqueue_over hover h.wired
      · exact h.enqueue hexpects
  | session k e o =>
    obtain ⟨channel, hk, he, hread⟩ := he
    change Attended c (sys.advance c N o k e)
    have hstarted : sys.scan.started = true := by
      by_contra hs
      rw [(h.idle (by simpa using hs)).1] at hk
      cases hk
    rcases h.phase.expects hstarted with hover | ⟨k', n, hexpects⟩
    · exact advance_over hover (others_wired h.wired) hk
        ((h.wired channel (List.mem_of_getElem? hk)).step he hread)
    · exact h.advance hexpects hk he hread

instance (c : Config) (N : Network) (sys : System) (e : Event) :
    Decidable ((machine c N).enabled sys e) :=
  inferInstanceAs (Decidable (sys.Enabled e))

theorem machine_attended (c : Config) (N : Network) :
    (machine c N).Invariant (Attended c) where
  init sys hsys := by
    obtain rfl : sys = {} := hsys
    exact attended_idle rfl rfl rfl
  next _ _ h he := h.step he

/-- Where the one read of a scan is: queued on the loop, or with its session alone,
behind a timer or with its reply queued on the loop. -/
structure Waits (sys : System) (n : ℕ) (call : ReadCall) (channel : Channel) : Prop where
  pending : sys.scan.pending = [n]
  asked : sys.scan.reads[n]? = some call
  holds : sys.scan.session = some call.session
  found : sys.channels[call.session]? = some channel
  alone : ∀ j ch, sys.channels[j]? = some ch → j ≠ call.session →
    ch.state.core.held = [] ∧ ch.state.core.posted = []
  place : (sys.tasks = [n] ∧ channel.state.core.held = [] ∧ channel.state.core.posted = []) ∨
    (sys.tasks = [] ∧ ∃ r, IsRead channel.reads n call r ∧
      ((channel.state.core.closed = false ∧ channel.state.core.held = [r] ∧
          channel.state.core.posted = [] ∧ channel.state.core.armed.isSome) ∨
        channel.state.core.held = [] ∧ ∃ registers, channel.state.core.posted = [(r, registers)]))

/-- Nothing is left that could happen by itself: no request is queued, no timer is armed
and no reply is to be delivered. -/
def Quiet (sys : System) : Prop :=
  sys.tasks = [] ∧ ∀ channel ∈ sys.channels,
    channel.state.core.armed = none ∧ channel.state.core.posted = []

instance (sys : System) : Decidable sys.Quiet :=
  inferInstanceAs (Decidable (_ ∧ ∀ channel ∈ sys.channels, _ ∧ _))

theorem Waits.not_quiet (h : Waits sys n call channel) : ¬sys.Quiet := by
  rintro ⟨htasks, hquiet⟩
  obtain ⟨harmed, hposted⟩ := hquiet channel (List.mem_of_getElem? h.found)
  rcases h.place with ⟨hqueued, -⟩ | ⟨-, r, -, ⟨-, -, -, htimer⟩ | ⟨-, registers, hreply⟩⟩
  · exact absurd (htasks.symm.trans hqueued) nofun
  · rw [harmed] at htimer
    cases htimer
  · exact absurd (hposted.symm.trans hreply) nofun

/-- While the scan goes on, the one read it waits for is where something is about to
happen to it, and every request on the wire so far was a read that the scan had asked of
that session. So a scan that has started is over as soon as nothing is left to happen. -/
theorem scan_never_hangs {c : Config} {N : Network} (hs : (machine c N).Reachable sys)
    (hstarted : sys.scan.started = true) :
    (sys.scan.finished = false → (∃ n call channel, sys.Waits n call channel) ∧
      ∀ k channel, sys.channels[k]? = some channel → OwnReads sys.scan.reads k channel) ∧
    (sys.Quiet → sys.scan.finished = true) := by
  have h := (machine_attended c N).reachable hs
  have hwaits (hunfinished : sys.scan.finished = false) :
      ∃ n call channel, sys.Waits n call channel := by
    rcases h.phase.expects hstarted with hover | ⟨k, n, hexpects⟩
    · exact absurd (hunfinished.symm.trans hover.finished) Bool.false_ne_true
    obtain ⟨call, channel, hasked, rfl, hk, halone, hattends⟩ := h.attended k n hexpects
    refine ⟨n, call, channel, hexpects.pending, hasked, hexpects.holds, hk, halone, ?_⟩
    rcases hattends with ⟨htasks, hcarries⟩ | ⟨htasks, l, hcarries, hserves⟩
    · exact .inl ⟨htasks, hcarries⟩
    · refine .inr ⟨htasks, ?_⟩
      cases l with
      | none => exact absurd hserves id
      | waiting r =>
        obtain ⟨hopen, hphase, hheld, hposted⟩ := hcarries
        exact ⟨r, hserves, .inl ⟨hopen, hheld, hposted, by rw [hphase.armed]; rfl⟩⟩
      | sent r =>
        obtain ⟨hopen, hphase, hheld, hposted⟩ := hcarries
        exact ⟨r, hserves, .inl ⟨hopen, hheld, hposted, by rw [hphase.armed]; rfl⟩⟩
      | replied r registers => exact ⟨r, hserves, .inr ⟨hcarries.1, registers, hcarries.2⟩⟩
  refine ⟨fun hunfinished => ⟨hwaits hunfinished, h.own hunfinished⟩, fun hquiet => ?_⟩
  by_contra hunfinished
  obtain ⟨n, call, channel, hwaiting⟩ := hwaits (by simpa using hunfinished)
  exact hwaiting.not_quiet hquiet

/-- The first session is lost while unit 1 is probed, and no other can be made. -/
def lostRun : List Event :=
  [.start .obliging, .enqueue .obliging, .session 0 (.connection true) .obliging,
    .session 0 (.connection false) ⟨.makes, .null, false⟩]

def lost : System := lostRun.foldl (step .sweep .obliging) {}

theorem scan_never_hangs_lost : lost.scan.finished = true := by
  have hrun : (machine .sweep .obliging).Reachable lost :=
    (Machine.Reachable.init rfl).run (Machine.run_of_runs (by decide +kernel))
  exact (scan_never_hangs hrun (by decide +kernel)).2 (by decide +kernel)

end System

end Neubau.Sunspec
