import Neubau.Bootstrap.ChainStages
import Neubau.Common.PortScanProgress
import Neubau.Modbus.Progress
import Neubau.Modbus.Restart
import Neubau.Sunspec.DiscoveryDuties

/-! What passes between the stages of a chain. The Modbus discovery subscribes as it
starts the port scanner, and the ports that arrived are those of the emissions it has
heard; the SunSpec discovery starts the Modbus discovery, hears of the end of it when it
has ended, and opens endpoints only for things it was told of. -/

namespace Neubau.Bootstrap.Chain

open Neubau.Common Neubau.Modbus Neubau.Sunspec Neubau.Transition

variable {o : StageOptions} {c t : Chain}

/-- What was heard of a log stays what it is while the log grows. -/
theorem take_eq_of_isPrefix {α : Type*} {l l' : List α} (h : l <+: l') {n : ℕ} (hn : n ≤ l.length) :
    l'.take n = l.take n := by
  obtain ⟨more, rfl⟩ := h
  exact List.take_append_of_le_length hn

theorem take_succ_of_getElem? {α : Type*} {l : List α} {n : ℕ} {a : α} (h : l[n]? = some a) :
    l.take (n + 1) = l.take n ++ [a] := by
  rw [List.take_add_one, h, Option.toList_some]

/-! ### From the port scanner to the Modbus discovery -/

/-- The ports that emissions tell of. -/
def ports (log : List Emission) : List OpenPort :=
  log.filterMap fun | .onNext _ port => some port | .onCompleted => none

structure PortLink (c : Chain) : Prop where
  reported : c.reported ≤ c.scanner.log.length
  unbegun : c.scanner.begun = false → c.scanner = {}
  idle : c.modbus.upstream = .idle ↔ c.scanner.begun = false
  arrived : c.modbus.arrived = ports (c.scanner.log.take c.reported)
  ended : c.modbus.upstream = .ended ↔ .onCompleted ∈ c.scanner.log.take c.reported
  completed : c.modbus.upstream = .ended → c.modbus.upstreamCompleted = true

/-- The port scanner goes on, and the Modbus discovery hears nothing of it. -/
theorem PortLink.go (h : c.PortLink) (hlog : c.scanner.log <+: t.scanner.log)
    (hbegun : t.scanner.begun = c.scanner.begun)
    (hunbegun : t.scanner.begun = false → t.scanner = {})
    (harrived : t.modbus.arrived = c.modbus.arrived)
    (hupstream : t.modbus.upstream = c.modbus.upstream)
    (hcompleted : c.modbus.upstreamCompleted = true → t.modbus.upstreamCompleted = true)
    (hreported : t.reported = c.reported) : t.PortLink where
  reported := hreported ▸ h.reported.trans hlog.length_le
  unbegun := hunbegun
  idle := by rw [hupstream, hbegun, h.idle]
  arrived := by rw [harrived, h.arrived, hreported, take_eq_of_isPrefix hlog h.reported]
  ended := by rw [hupstream, h.ended, hreported, take_eq_of_isPrefix hlog h.reported]
  completed hu := hcompleted (h.completed (hupstream ▸ hu))

/-- Only the Modbus discovery goes on. -/
theorem PortLink.modbus (h : c.PortLink) (hscanner : t.scanner = c.scanner)
    (harrived : t.modbus.arrived = c.modbus.arrived)
    (hupstream : t.modbus.upstream = c.modbus.upstream)
    (hcompleted : c.modbus.upstreamCompleted = true → t.modbus.upstreamCompleted = true)
    (hreported : t.reported = c.reported) : t.PortLink :=
  h.go (by rw [hscanner]) (by rw [hscanner]) (by rw [hscanner]; exact h.unbegun) harrived hupstream
    hcompleted hreported

theorem stopScanner_keeps (s : PortScannerSession) :
    s.log <+: (stopScanner o s).log ∧ (stopScanner o s).begun = s.begun ∧
      ((stopScanner o s).begun = false → stopScanner o s = s) := by
  unfold stopScanner
  split_ifs with h
  · rw [Bool.and_eq_true] at h
    refine ⟨List.prefix_rfl, rfl, fun hb => ?_⟩
    exact absurd (h.1.symm.trans hb) (by decide)
  · exact ⟨List.prefix_rfl, rfl, fun _ => rfl⟩

theorem stopModbus_keeps (s : Modbus.Discovery.Session) :
    (stopModbus o s).arrived = s.arrived ∧ (stopModbus o s).upstream = s.upstream ∧
      (stopModbus o s).upstreamCompleted = s.upstreamCompleted ∧
      (stopModbus o s).begun = s.begun ∧ (stopModbus o s).log = s.log := by
  unfold stopModbus Modbus.Discovery.step
  dsimp only
  split_ifs <;> exact ⟨rfl, rfl, rfl, rfl, rfl⟩

/-- A session that is told of the next port, or of the end, is listening. -/
theorem PortLink.active (h : c.PortLink) (hs : c.scanner.Sound o.scanner) {e : Emission}
    (he : c.scanner.log[c.reported]? = some e) : c.modbus.upstream = .active := by
  have hne : c.modbus.upstream ≠ .idle := by
    intro hidle
    rw [h.unbegun (h.idle.1 hidle)] at he
    cases he
  have hnot : .onCompleted ∉ c.scanner.log.take c.reported := by
    intro hmem
    -- the completion is the last of the log
    obtain ⟨l, hl, hno⟩ := hs.ended
    have hlt := (List.getElem?_eq_some_iff.1 he).1
    have hle : c.reported ≤ l.length := by
      rw [hl, List.length_append] at hlt
      split_ifs at hlt
      · rw [List.length_singleton] at hlt
        omega
      · rw [List.length_nil] at hlt
        omega
    rw [hl, List.take_append_of_le_length hle] at hmem
    exact hno (List.mem_of_mem_take hmem)
  cases hu : c.modbus.upstream with
  | idle => exact absurd hu hne
  | active => rfl
  | ended => exact absurd (h.ended.1 hu) hnot

/-- The Modbus discovery subscribes to the port scanner and starts it. -/
theorem PortLink.subscribes (h : c.PortLink) (hs : c.modbus.Sound o.modbus)
    {rest : List Modbus.Discovery.Task} (htasks : c.modbus.tasks = .begin :: rest)
    (hstop : c.modbus.stopped = false) (created : Bool) :
    (c.next o (.runModbus created)).PortLink := by
  obtain ⟨-, -, hidle, -, -⟩ := hs.first htasks
  have hscanner := h.unbegun (h.idle.1 hidle)
  have hreported : c.reported = 0 := by
    have := h.reported
    rw [hscanner] at this
    exact Nat.le_zero.1 this
  have hstep : (c.next o (.runModbus created)).modbus =
      Modbus.Discovery.step o.modbus c.modbus (.run [] created) := rfl
  rw [Modbus.Discovery.Session.run_begin htasks hstop] at hstep
  have hstarted : (c.next o (.runModbus created)).scanner =
      startScanner o c.scanner := by
    show (c.callScanner o).scanner = _
    simp [callScanner, scannerCall, hstop, htasks]
  rw [hscanner] at hstarted
  have harrived := h.arrived
  rw [hscanner, hreported] at harrived
  have htold : (c.next o (.runModbus created)).reported = 0 := hreported
  refine ⟨?_, ?_, ?_, ?_, ?_, ?_⟩
  · rw [htold]
    exact Nat.zero_le _
  · rw [hstarted]
    exact fun h => by cases h
  · rw [hstep, hstarted]
    exact ⟨by rintro ⟨⟩, by rintro ⟨⟩⟩
  · rw [hstep, htold]
    exact harrived
  · rw [hstep, htold]
    exact ⟨by rintro ⟨⟩, fun hm => absurd hm (by simp)⟩
  · rw [hstep]
    exact fun h => by cases h

theorem PortLink.runModbus (h : c.PortLink) (hs : c.modbus.Sound o.modbus)
    (ht : c.modbus.tasks ≠ []) (created : Bool) : (c.next o (.runModbus created)).PortLink := by
  obtain ⟨task, rest, htasks⟩ := List.exists_cons_of_ne_nil ht
  have hstep : (c.next o (.runModbus created)).modbus =
      Modbus.Discovery.step o.modbus c.modbus (.run [] created) := rfl
  have hcall : (c.next o (.runModbus created)).scanner = (c.callScanner o).scanner := rfl
  by_cases hbegin : task = .begin
  · subst hbegin
    cases hstop : c.modbus.stopped with
    | false => exact h.subscribes hs htasks hstop created
    | true =>
      have hnone : (c.next o (.runModbus created)).scanner = c.scanner := by
        simp [hcall, callScanner, scannerCall, hstop]
      have hw := Modbus.Discovery.Session.run_begin_stopped (o := o.modbus) htasks hstop created
      refine h.modbus hnone ?_ ?_ (fun _ => ?_) rfl
      · rw [hstep]
        exact hw.arrived
      · rw [hstep]
        exact hw.upstream
      · rw [hstep]
        exact hw.upstreamCompleted
  · have hw := Modbus.Discovery.Session.run_works (o := o.modbus) htasks hbegin created
    have hscanner : (c.next o (.runModbus created)).scanner = c.scanner ∨
        (c.next o (.runModbus created)).scanner = stopScanner o c.scanner := by
      rw [hcall]
      cases task with
      | begin => exact absurd rfl hbegin
      | stop =>
        cases hstop : c.modbus.stopped with
        | true => exact .inl (by simp [callScanner, scannerCall, hstop])
        | false => exact .inr (by simp [callScanner, scannerCall, hstop, htasks])
      | startInLoop n => exact .inl (by simp [callScanner, scannerCall, htasks])
      | cancelled n => exact .inl (by simp [callScanner, scannerCall, htasks])
    rcases hscanner with hscanner | hscanner
    · exact h.modbus hscanner hw.arrived hw.upstream (fun hu => hw.upstreamCompleted.trans hu) rfl
    · obtain ⟨hlog, hbegun, hsame⟩ := stopScanner_keeps (o := o) c.scanner
      rw [← hscanner] at hlog hbegun hsame
      exact h.go hlog hbegun (fun hb => (hsame hb).trans (h.unbegun (hbegun ▸ hb))) hw.arrived
        hw.upstream (fun hu => hw.upstreamCompleted.trans hu) rfl

/-- The port scanner goes on in the loop, or a connection of it ends. -/
theorem PortLink.scans (h : c.PortLink) {e : PortScannerSession.Event} (hne : e ≠ .start)
    (hscanner : t.scanner = PortScannerSession.step o.scanner c.scanner e)
    (hbegun : c.scanner.begun = true) (hmodbus : t.modbus = c.modbus)
    (hreported : t.reported = c.reported) : t.PortLink := by
  obtain ⟨hlog, hkeep⟩ := PortScannerSession.step_goes (o := o.scanner) c.scanner e
  rw [← hscanner] at hlog hkeep
  refine h.go hlog (hkeep hne) (fun hb => ?_) (by rw [hmodbus]) (by rw [hmodbus])
    (by rw [hmodbus]; exact id) hreported
  exact absurd ((hkeep hne).trans hbegun |>.symm.trans hb) (by decide)

/-- The next emission has reached the Modbus discovery, which was listening. -/
theorem PortLink.reached (h : c.PortLink) (hactive : c.modbus.upstream = .active) {e : Emission}
    (he : c.scanner.log[c.reported]? = some e) (hscanner : t.scanner = c.scanner)
    (hreported : t.reported = c.reported + 1)
    (harrived : t.modbus.arrived = c.modbus.arrived ++ ports [e])
    (hlistens : t.modbus.upstream ≠ .idle) (hended : t.modbus.upstream = .ended ↔ e = .onCompleted)
    (hcompleted : t.modbus.upstream = .ended → t.modbus.upstreamCompleted = true) :
    t.PortLink := by
  have hbegun : c.scanner.begun ≠ false := fun hb => by
    rw [h.idle.2 hb] at hactive
    cases hactive
  have hnot : .onCompleted ∉ c.scanner.log.take c.reported := fun hm => by
    rw [h.ended.2 hm] at hactive
    cases hactive
  have htake : t.scanner.log.take t.reported = c.scanner.log.take c.reported ++ [e] := by
    rw [hscanner, hreported, take_succ_of_getElem? he]
  refine ⟨?_, ?_, ?_, ?_, ?_, hcompleted⟩
  · rw [hreported, hscanner]
    exact (List.getElem?_eq_some_iff.1 he).1
  · rw [hscanner]
    exact h.unbegun
  · rw [hscanner]
    exact ⟨fun hu => absurd hu hlistens, fun hb => absurd hb hbegun⟩
  · rw [harrived, htake, h.arrived]
    exact List.filterMap_append.symm
  · rw [hended, htake, List.mem_append, List.mem_singleton]
    exact ⟨fun heq => .inr heq.symm, fun hm => (hm.resolve_left hnot).symm⟩

theorem PortLink.hear (h : c.PortLink) (hs : c.scanner.Sound o.scanner) :
    (c.next o .hearScanner).PortLink := by
  cases he : c.scanner.log[c.reported]? with
  | none =>
    have hnext : c.next o .hearScanner = c := by simp only [next, he]
    rw [hnext]
    exact h
  | some e =>
    have hactive := h.active hs he
    cases e with
    | onNext n port =>
      have hw := Modbus.Discovery.Session.next_works (o := o.modbus) hactive port
      have hnext : c.next o .hearScanner =
          { c.forward (.openPort port) with
            reported := c.reported + 1
            modbus := Modbus.Discovery.step o.modbus c.modbus (.upstream (.next port)) } := by
        simp only [next, he, hearEmission, forward]
      have hupstream := hw.upstream.trans hactive
      rw [hnext]
      refine h.reached hactive he rfl rfl hw.arrived ?_ ?_ fun hu => ?_
      · exact fun hu => by cases hupstream.symm.trans hu
      · exact iff_of_false (fun hu => by cases hupstream.symm.trans hu) (by simp)
      · cases hupstream.symm.trans hu
    | onCompleted =>
      have hw := Modbus.Discovery.Session.completed_works (o := o.modbus) hactive
      have hnext : c.next o .hearScanner =
          { c with
            reported := c.reported + 1
            modbus := Modbus.Discovery.step o.modbus c.modbus (.upstream .completed) } := by
        simp only [next, he, hearEmission]
      rw [hnext]
      refine h.reached hactive he rfl rfl ?_ ?_ ?_ fun _ => hw.upstreamCompleted
      · exact hw.arrived.trans (List.append_nil _).symm
      · exact fun hu => by cases hw.upstream.symm.trans hu
      · exact iff_of_true hw.upstream rfl

theorem reachable_portLink (hc : (machine o).Reachable c) : c.PortLink := by
  refine hc.keeps (P := PortLink) (fun c hc => ?_) fun c e hc h he => ?_
  · obtain rfl : c = create o := hc
    exact ⟨le_rfl, fun _ => rfl, ⟨fun _ => rfl, fun _ => rfl⟩, rfl,
      ⟨nofun, fun hm => absurd hm (by simp [create])⟩, nofun⟩
  have hbegun (hne : c.scanner ≠ {}) : c.scanner.begun = true := by
    by_contra hb
    exact hne (h.unbegun (by simpa using hb))
  have hmodbus := (sees_modbus o).invariant (Modbus.Discovery.machine_sound o.modbus) hc
  have hscanner := ((sees_scanner o).invariant PortScannerSession.machine_sound hc)
  cases e with
  | sunspec e => exact h.modbus rfl rfl rfl id rfl
  | runModbus created => exact h.runModbus hmodbus he.2 created
  | exchangeFinished n response =>
    have hw := Modbus.Discovery.Session.exchange_works (o := o.modbus) c.modbus n response
    exact h.modbus rfl hw.arrived hw.upstream (fun hu => hw.upstreamCompleted.trans hu) rfl
  | runScanner created =>
    refine h.scans (e := .run created) nofun rfl (hbegun fun heq => ?_) rfl rfl
    exact he.2 (by rw [heq])
  | connection n isOpen =>
    refine h.scans (e := .report n isOpen) nofun rfl (hbegun fun heq => ?_) rfl rfl
    have hmem : n ∈ c.scanner.clients := he.2
    rw [heq] at hmem
    cases hmem
  | hearScanner => exact h.hear hscanner
  | hearModbus =>
    show (c.next o .hearModbus).PortLink
    obtain ⟨_, _, _, heq⟩ := hearModbus_frame (o := o) c
    rw [heq]
    exact h.modbus rfl rfl rfl id rfl
  | hearSunspec =>
    show (c.next o .hearSunspec).PortLink
    simp only [next]
    split
    · exact h
    · rename_i e _
      cases e with
      | upstreamStart =>
        simp only [obey, Modbus.Discovery.step]
        split_ifs <;> exact h.modbus rfl rfl rfl id rfl
      | upstreamStop =>
        obtain ⟨ha, hu, hcompleted, -, -⟩ := stopModbus_keeps (o := o) c.modbus
        exact h.modbus rfl ha hu (fun h' => hcompleted.trans h') rfl
      | _ => exact h.modbus rfl rfl rfl id rfl
  | stopSunspecChain => exact h.modbus rfl rfl rfl id rfl
  | queueInLoop => exact h.modbus rfl rfl rfl id rfl
  | destroy =>
    obtain ⟨hlog, hbegun', hsame⟩ := stopScanner_keeps (o := o) c.scanner
    obtain ⟨ha, hu, hcompleted, -, -⟩ := stopModbus_keeps (o := o) c.modbus
    exact h.go hlog hbegun' (fun hb => (hsame hb).trans (h.unbegun (hbegun' ▸ hb))) ha hu
      (fun h' => hcompleted.trans h') rfl

/-! ### Between the Modbus and the SunSpec discovery -/

open Sunspec.Discovery (Process)
open Sunspec.Discovery.State (target)
open Modbus.Discovery (observedThings)

theorem observedThings_append (log more : List Modbus.Discovery.Effect) :
    observedThings (log ++ more) = observedThings log ++ observedThings more :=
  List.filterMap_append

theorem observedThings_take_succ {log : List Modbus.Discovery.Effect} {n : ℕ}
    {e : Modbus.Discovery.Effect} (h : log[n]? = some e) :
    observedThings (log.take (n + 1)) = observedThings (log.take n) ++ observedThings [e] := by
  rw [take_succ_of_getElem? h, observedThings_append]

structure UpstreamLink (c : Chain) : Prop where
  told : c.told ≤ c.modbus.log.length
  called : c.called ≤ c.sunspec.state.log.length
  started : c.sunspec.state.started = true
  looping : c.sunspec.state.looping = true
  subscribed : c.sunspec.state.subscribed = true
  unbegun : c.modbus.begun = false → c.modbus = {}
  begun : .upstreamStart ∈ c.sunspec.state.log.take c.called → c.modbus.begun = true
  unfailed : ∀ error, .onError error ∉ c.modbus.log
  heard : c.sunspec.state.modbusCompleted = true → .onCompleted ∈ c.modbus.log.take c.told
  noted : c.destroyed = false → .onCompleted ∈ c.modbus.log.take c.told →
    c.sunspec.state.modbusCompleted = true
  opened : c.sunspec.state.opened.Sublist ((observedThings (c.modbus.log.take c.told)).map target)

/-- What the Modbus discovery keeps in every step of a chain. -/
structure ModbusKeeps (s t : Modbus.Discovery.Session) : Prop where
  log : s.log <+: t.log
  begun : s.begun = true → t.begun = true
  failed : ∀ error, .onError error ∈ t.log → .onError error ∈ s.log

theorem ModbusKeeps.refl (s : Modbus.Discovery.Session) : ModbusKeeps s s :=
  ⟨List.prefix_rfl, id, fun _ => id⟩

theorem stopModbus_modbusKeeps (s : Modbus.Discovery.Session) :
    ModbusKeeps s (stopModbus o s) := by
  obtain ⟨-, -, -, hbegun, hlog⟩ := stopModbus_keeps (o := o) s
  exact ⟨by rw [hlog], fun hb => hbegun.trans hb, fun error he => hlog ▸ he⟩

theorem next_modbusKeeps (hc : (machine o).Reachable c) {e : Event} (he : c.Enabled e) :
    ModbusKeeps c.modbus (c.next o e).modbus := by
  have hlink := reachable_portLink hc
  have hlog : c.modbus.log <+: (c.next o e).modbus.log := by
    rcases next_modbus (o := o) c e with heq | ⟨d, -, heq⟩
    · rw [heq]
    · rw [heq]
      exact Modbus.Discovery.step_log c.modbus d
  cases e with
  | runModbus created =>
    obtain ⟨task, rest, htasks⟩ := List.exists_cons_of_ne_nil he.2
    show ModbusKeeps c.modbus (Modbus.Discovery.step o.modbus c.modbus (.run [] created))
    by_cases hbegin : task = .begin
    · subst hbegin
      cases hstop : c.modbus.stopped with
      | false =>
        have heq := Modbus.Discovery.Session.run_begin (o := o.modbus) htasks hstop created
        exact ⟨hlog, fun hb => by rw [heq]; exact hb, fun error hmem => by rwa [heq] at hmem⟩
      | true =>
        have hw := Modbus.Discovery.Session.run_begin_stopped (o := o.modbus) htasks hstop created
        exact ⟨hlog, fun hb => hw.begun.trans hb, hw.failed⟩
    · have hw := Modbus.Discovery.Session.run_works (o := o.modbus) htasks hbegin created
      exact ⟨hlog, fun hb => hw.begun.trans hb, hw.failed⟩
  | exchangeFinished n response =>
    have hw := Modbus.Discovery.Session.exchange_works (o := o.modbus) c.modbus n response
    exact ⟨hlog, fun hb => hw.begun.trans hb, hw.failed⟩
  | hearScanner =>
    simp only [next] at hlog ⊢
    split
    · exact .refl _
    · rename_i e hget
      rw [hget] at hlog
      have hscanner := (sees_scanner o).invariant PortScannerSession.machine_sound hc
      have hactive := hlink.active hscanner hget
      cases e with
      | onNext n port =>
        have hw := Modbus.Discovery.Session.next_works (o := o.modbus) hactive port
        exact ⟨hlog, fun hb => hw.begun.trans hb, hw.failed⟩
      | onCompleted =>
        have hw := Modbus.Discovery.Session.completed_works (o := o.modbus) hactive
        exact ⟨hlog, fun hb => hw.begun.trans hb, hw.failed⟩
  | hearModbus =>
    obtain ⟨_, _, _, heq⟩ := hearModbus_frame (o := o) c
    rw [heq]
    exact .refl _
  | hearSunspec =>
    simp only [next]
    split
    · exact .refl _
    · rename_i e _
      cases e with
      | upstreamStart =>
        simp only [obey, Modbus.Discovery.step]
        split_ifs
        · exact .refl _
        · exact ⟨List.prefix_rfl, fun _ => rfl, fun _ => id⟩
      | upstreamStop => exact stopModbus_modbusKeeps c.modbus
      | _ => exact .refl _
  | destroy => exact stopModbus_modbusKeeps c.modbus
  | _ => exact .refl _

/-- The Modbus discovery goes on, and the SunSpec discovery hears nothing of it. -/
theorem UpstreamLink.modbus (h : c.UpstreamLink) (hk : ModbusKeeps c.modbus t.modbus)
    (hunbegun : t.modbus.begun = false → t.modbus = {}) (hsunspec : t.sunspec = c.sunspec)
    (htold : t.told = c.told) (hcalled : t.called = c.called)
    (hdestroyed : t.destroyed = false → c.destroyed = false) : t.UpstreamLink := by
  have htake : t.modbus.log.take t.told = c.modbus.log.take c.told := by
    rw [htold, take_eq_of_isPrefix hk.log h.told]
  refine ⟨?_, ?_, ?_, ?_, ?_, hunbegun, ?_, ?_, ?_, ?_, ?_⟩
  · rw [htold]
    exact h.told.trans hk.log.length_le
  · rw [hsunspec, hcalled]
    exact h.called
  · rw [hsunspec]
    exact h.started
  · rw [hsunspec]
    exact h.looping
  · rw [hsunspec]
    exact h.subscribed
  · rw [hsunspec, hcalled]
    exact fun hm => hk.begun (h.begun hm)
  · exact fun error hm => h.unfailed error (hk.failed error hm)
  · rw [hsunspec, htake]
    exact h.heard
  · rw [hsunspec, htake]
    exact fun hd => h.noted (hdestroyed hd)
  · rw [hsunspec, htake]
    exact h.opened

/-- The SunSpec discovery goes on, not told anything by its upstream. -/
theorem UpstreamLink.sunspec (h : c.UpstreamLink) (hs : c.sunspec.Settles o.sunspec)
    (hd : c.sunspec.Duties) {d : Sunspec.Discovery.Event} (he : c.sunspec.Enabled d)
    (hown : d ≠ .upstreamCompleted ∧ ∀ candidate, d ≠ .upstreamCandidate candidate)
    (hstep : t.sunspec = Sunspec.Discovery.step o.sunspec c.sunspec d)
    (hmodbus : t.modbus = c.modbus) (htold : t.told = c.told) (hcalled : t.called = c.called)
    (hdestroyed : t.destroyed = c.destroyed) : t.UpstreamLink := by
  obtain ⟨hext, hcompleted⟩ := Sunspec.Discovery.step_extends hs hd d
  have hlater := (Sunspec.Discovery.step_settles hs he).2
  have hopened : t.sunspec.state.opened = c.sunspec.state.opened := by
    rw [hstep]
    rcases Sunspec.Discovery.step_opened hs he with ⟨heq, -⟩ | ⟨candidate, rfl, -, -⟩
    · exact heq
    · exact absurd rfl (hown.2 candidate)
  rw [← hstep] at hext hcompleted hlater
  refine ⟨?_, ?_, hext.started h.started, hext.looping h.looping, hext.subscribed h.subscribed,
    ?_, ?_, ?_, fun hm => ?_, fun hd hm => ?_, ?_⟩
  · rw [htold, hmodbus]
    exact h.told
  · rw [hcalled]
    exact h.called.trans hext.log.length_le
  · rw [hmodbus]
    exact h.unbegun
  · rw [hcalled, take_eq_of_isPrefix hext.log h.called, hmodbus]
    exact h.begun
  · rw [hmodbus]
    exact h.unfailed
  · rw [hmodbus, htold]
    exact h.heard ((hcompleted hm).resolve_right hown.1)
  · rw [hmodbus, htold] at hm
    exact hlater.modbusCompleted (h.noted (hdestroyed ▸ hd) hm)
  · rw [hopened, hmodbus, htold]
    exact h.opened

/-- What the Modbus discovery still logs after the chain is gone meets nobody. -/
theorem hearEffect_destroyed (hd : c.destroyed = true) (e : Modbus.Discovery.Effect) :
    (c.hearEffect o e).modbus = c.modbus ∧ (c.hearEffect o e).told = c.told ∧
      (c.hearEffect o e).called = c.called ∧ (c.hearEffect o e).sunspec = c.sunspec ∧
      (c.hearEffect o e).destroyed = c.destroyed := by
  have hdeaf {t : Chain} (ht : t.destroyed = true) (d : Sunspec.Discovery.Event) :
      (t.hearUpstream o d).sunspec = t.sunspec := by
    simp [hearUpstream, ht]
  cases e with
  | onNext thing => exact ⟨rfl, rfl, rfl, hdeaf (t := c.forward _) hd _, rfl⟩
  | onCompleted => exact ⟨rfl, rfl, rfl, hdeaf hd _, rfl⟩
  | onError error => exact ⟨rfl, rfl, rfl, hdeaf hd _, rfl⟩
  | _ => exact ⟨rfl, rfl, rfl, rfl, rfl⟩

/-- Before that the SunSpec discovery hears of every thing, and of the end. -/
theorem hearEffect_thing (hdes : c.destroyed = false)
    (hsubscribed : c.sunspec.state.subscribed = true) (thing : ModbusThing) :
    (c.hearEffect o (.onNext thing)).sunspec =
      Sunspec.Discovery.step o.sunspec c.sunspec (.upstreamCandidate thing) := by
  simp [hearEffect, hearUpstream, forward, hdes, hsubscribed]

theorem hearEffect_end (hdes : c.destroyed = false)
    (hsubscribed : c.sunspec.state.subscribed = true) :
    (c.hearEffect o .onCompleted).sunspec =
      Sunspec.Discovery.step o.sunspec c.sunspec .upstreamCompleted := by
  simp [hearEffect, hearUpstream, hdes, hsubscribed]

/-- The next effect of the Modbus discovery has reached the SunSpec discovery, and it notes
what the effect tells of. -/
theorem UpstreamLink.reached (h : c.UpstreamLink) {e : Modbus.Discovery.Effect}
    (hget : c.modbus.log[c.told]? = some e) (hmodbus : t.modbus = c.modbus)
    (htold : t.told = c.told + 1) (hcalled : t.called = c.called)
    (hext : c.sunspec.Extends t.sunspec)
    (hheard : t.sunspec.state.modbusCompleted = true →
      .onCompleted ∈ c.modbus.log.take c.told ∨ e = .onCompleted)
    (hnoted : t.destroyed = false → .onCompleted ∈ c.modbus.log.take c.told ∨ e = .onCompleted →
      t.sunspec.state.modbusCompleted = true)
    (hopened : t.sunspec.state.opened.Sublist
      ((observedThings (c.modbus.log.take c.told)).map target ++ (observedThings [e]).map target)) :
    t.UpstreamLink := by
  have htake : t.modbus.log.take t.told = c.modbus.log.take c.told ++ [e] := by
    rw [hmodbus, htold, take_succ_of_getElem? hget]
  have hmem : .onCompleted ∈ t.modbus.log.take t.told ↔
      .onCompleted ∈ c.modbus.log.take c.told ∨ e = .onCompleted := by
    rw [htake, List.mem_append, List.mem_singleton, eq_comm (a := e)]
  refine ⟨?_, ?_, hext.started h.started, hext.looping h.looping, hext.subscribed h.subscribed,
    ?_, ?_, ?_, fun hm => hmem.2 (hheard hm), fun hd hm => hnoted hd (hmem.1 hm), ?_⟩
  · rw [htold, hmodbus]
    exact (List.getElem?_eq_some_iff.1 hget).1
  · rw [hcalled]
    exact h.called.trans hext.log.length_le
  · rw [hmodbus]
    exact h.unbegun
  · rw [hcalled, take_eq_of_isPrefix hext.log h.called, hmodbus]
    exact h.begun
  · rw [hmodbus]
    exact h.unfailed
  · rw [htake, observedThings_append, List.map_append]
    exact hopened

/-- An effect that the run does not hear of is not the end, while the chain is there. -/
theorem UpstreamLink.unheard (h : c.UpstreamLink) {e : Modbus.Discovery.Effect}
    (hget : c.modbus.log[c.told]? = some e) (hmodbus : t.modbus = c.modbus)
    (htold : t.told = c.told + 1) (hcalled : t.called = c.called)
    (hsunspec : t.sunspec = c.sunspec) (hdestroyed : t.destroyed = c.destroyed)
    (hend : c.destroyed = false → e ≠ .onCompleted) : t.UpstreamLink := by
  refine h.reached hget hmodbus htold hcalled (hsunspec ▸ .refl _) ?_ ?_ ?_
  · rw [hsunspec]
    exact fun hm => .inl (h.heard hm)
  · rw [hsunspec, hdestroyed]
    exact fun hd hm => h.noted hd (hm.resolve_right (hend hd))
  · rw [hsunspec]
    exact h.opened.trans (List.sublist_append_left _ _)

theorem UpstreamLink.hearThing (h : c.UpstreamLink) (hs : c.sunspec.Settles o.sunspec)
    (hd : c.sunspec.Duties) (hrest : c.sunspec.AtRest) (hdes : c.destroyed = false)
    {thing : ModbusThing} (hget : c.modbus.log[c.told]? = some (.onNext thing)) :
    ({ c with told := c.told + 1 }.hearEffect o (.onNext thing)).UpstreamLink := by
  have he : c.sunspec.Enabled (.upstreamCandidate thing) := ⟨hrest, h.subscribed⟩
  obtain ⟨hext, hcompleted⟩ := Sunspec.Discovery.step_extends hs hd (.upstreamCandidate thing)
  have hlater := (Sunspec.Discovery.step_settles hs he).2
  have hopened := Sunspec.Discovery.step_opened hs he
  have heq : ({ c with told := c.told + 1 }.hearEffect o (.onNext thing)).sunspec =
      Sunspec.Discovery.step o.sunspec c.sunspec (.upstreamCandidate thing) :=
    hearEffect_thing hdes h.subscribed thing
  rw [← heq] at hext hcompleted hlater hopened
  refine h.reached hget rfl rfl rfl hext (fun hm => ?_) (fun _ hm => ?_) ?_
  · exact .inl (h.heard ((hcompleted hm).resolve_right (by simp)))
  · exact hlater.modbusCompleted (h.noted hdes (hm.resolve_right (by simp)))
  · rcases hopened with ⟨hsame, -⟩ | ⟨candidate, hcandidate, -, hmore⟩
    · rw [hsame]
      exact h.opened.trans (List.sublist_append_left _ _)
    · rw [hmore, ← Sunspec.Discovery.Event.upstreamCandidate.inj hcandidate]
      exact h.opened.append_right _

theorem UpstreamLink.hearEnd (h : c.UpstreamLink) (hs : c.sunspec.Settles o.sunspec)
    (hd : c.sunspec.Duties) (hrest : c.sunspec.AtRest) (hdes : c.destroyed = false)
    (hget : c.modbus.log[c.told]? = some .onCompleted) :
    ({ c with told := c.told + 1 }.hearEffect o .onCompleted).UpstreamLink := by
  have he : c.sunspec.Enabled .upstreamCompleted := ⟨hrest, h.subscribed⟩
  obtain ⟨hext, -⟩ := Sunspec.Discovery.step_extends hs hd .upstreamCompleted
  have hopened := Sunspec.Discovery.step_opened hs he
  have hstate : (Sunspec.Discovery.step o.sunspec c.sunspec .upstreamCompleted).state =
      { c.sunspec.state with modbusCompleted := true } :=
    Sunspec.Discovery.State.maybeComplete_state _
  have heq : ({ c with told := c.told + 1 }.hearEffect o .onCompleted).sunspec =
      Sunspec.Discovery.step o.sunspec c.sunspec .upstreamCompleted :=
    hearEffect_end hdes h.subscribed
  rw [← heq] at hext hopened hstate
  refine h.reached hget rfl rfl rfl hext (fun _ => .inr rfl) (fun _ _ => by rw [hstate]) ?_
  rcases hopened with ⟨hsame, -⟩ | ⟨candidate, hcandidate, -, -⟩
  · rw [hsame]
    exact h.opened.trans (List.sublist_append_left _ _)
  · cases hcandidate

/-- The SunSpec discovery hears the next effect of the Modbus discovery. -/
theorem UpstreamLink.hear (h : c.UpstreamLink) (hs : c.sunspec.Settles o.sunspec)
    (hd : c.sunspec.Duties) (ha : c.sunspec.actions = []) :
    (c.next o .hearModbus).UpstreamLink := by
  cases hget : c.modbus.log[c.told]? with
  | none =>
    have hnext : c.next o .hearModbus = c := by simp only [next, hget]
    rw [hnext]
    exact h
  | some e =>
    have hnext : c.next o .hearModbus = { c with told := c.told + 1 }.hearEffect o e := by
      simp only [next, hget]
    rw [hnext]
    rcases Bool.eq_false_or_eq_true c.destroyed with hdes | hdes
    · obtain ⟨hm, ht, hc, hsun, hsame⟩ := hearEffect_destroyed (o := o)
        (c := { c with told := c.told + 1 }) hdes e
      exact h.unheard hget hm ht hc hsun hsame (by simp [hdes])
    · cases e with
      | onNext thing => exact h.hearThing hs hd (.inl ha) hdes hget
      | onCompleted => exact h.hearEnd hs hd (.inl ha) hdes hget
      | onError error => exact absurd (List.mem_of_getElem? hget) (h.unfailed error)
      | _ => exact h.unheard hget rfl rfl rfl rfl rfl (by simp)

/-- The SunSpec discovery calls its upstream or its observer. -/
theorem UpstreamLink.obeys (h : c.UpstreamLink) (hk : ModbusKeeps c.modbus t.modbus)
    (hunbegun : t.modbus.begun = false → t.modbus = {}) (hsunspec : t.sunspec = c.sunspec)
    (htold : t.told = c.told) {e : Sunspec.Discovery.Effect}
    (he : c.sunspec.state.log[c.called]? = some e) (hcalled : t.called = c.called + 1)
    (hstart : e = .upstreamStart → t.modbus.begun = true)
    (hdestroyed : t.destroyed = c.destroyed) : t.UpstreamLink := by
  have ht := h.modbus (t := { t with called := c.called }) hk hunbegun hsunspec htold rfl
    fun hd => hdestroyed ▸ hd
  refine { ht with called := ?_, begun := fun hm => ?_ }
  · rw [hcalled, hsunspec]
    exact (List.getElem?_eq_some_iff.1 he).1
  · rw [hcalled, hsunspec, take_succ_of_getElem? he] at hm
    rcases List.mem_append.1 hm with hm | hm
    · exact hk.begun (h.begun hm)
    · exact hstart (List.mem_singleton.1 hm).symm

/-- A call of the SunSpec discovery reaches the Modbus discovery or the service. -/
theorem UpstreamLink.hearSunspec (h : c.UpstreamLink)
    (hk : ModbusKeeps c.modbus (c.next o .hearSunspec).modbus)
    (hunbegun : c.modbus ≠ {} →
      (c.next o .hearSunspec).modbus.begun = false → (c.next o .hearSunspec).modbus = {})
    (hlt : c.called < c.sunspec.state.log.length) : (c.next o .hearSunspec).UpstreamLink := by
  cases hget : c.sunspec.state.log[c.called]? with
  | none => exact absurd hlt (not_lt.2 (List.getElem?_eq_none_iff.1 hget))
  | some effect =>
    have hnext : c.next o .hearSunspec = { c with called := c.called + 1 }.obey o effect := by
      simp only [next, hget]
    have hb (hne : effect ≠ .upstreamStart) :
        (c.next o .hearSunspec).modbus.begun = false → (c.next o .hearSunspec).modbus = {} := by
      by_cases hempty : c.modbus = {}
      · intro _
        rw [hnext]
        cases effect with
        | upstreamStart => exact absurd rfl hne
        | upstreamStop =>
          show stopModbus o c.modbus = {}
          rw [hempty]
          rfl
        | _ => exact hempty
      · exact hunbegun hempty
    rw [hnext] at hk hb ⊢
    cases effect with
    | upstreamStart =>
      have hstarted : (Modbus.Discovery.step o.modbus c.modbus .start).begun = true := by
        simp only [Modbus.Discovery.step]
        split_ifs with hbegun
        · exact hbegun
        · rfl
      refine h.obeys hk (fun hn => ?_) rfl rfl hget rfl (fun _ => hstarted) rfl
      exact absurd (hstarted.symm.trans hn) (by decide)
    | upstreamStop => exact h.obeys hk (hb (by simp)) rfl rfl hget rfl (by simp) rfl
    | _ => exact h.obeys hk (hb (by simp)) rfl rfl hget rfl (by simp) rfl

theorem reachable_upstreamLink (hc : (machine o).Reachable c) : c.UpstreamLink := by
  refine hc.keeps (P := UpstreamLink) (fun c hc => ?_) fun c e hc h he => ?_
  · obtain rfl : c = create o := hc
    exact ⟨le_rfl, Nat.zero_le _, rfl, rfl, rfl, fun _ => rfl, by rintro ⟨⟩,
      fun _ => List.not_mem_nil, by rintro ⟨⟩, fun _ hm => absurd hm List.not_mem_nil,
      List.nil_sublist _⟩
  have hport := reachable_portLink hc
  obtain ⟨hs, hd⟩ := (sees_sunspec o).invariant (Sunspec.Discovery.machine_duties o.sunspec) hc
  have hk := next_modbusKeeps hc he
  have hunbegun (hne : c.modbus ≠ {}) :
      (c.next o e).modbus.begun = false → (c.next o e).modbus = {} := by
    intro hb
    have hbegun : c.modbus.begun = true := by
      by_contra hn
      exact hne (h.unbegun (by simpa using hn))
    exact absurd ((hk.begun hbegun).symm.trans hb) (by decide)
  cases e with
  | sunspec e =>
    refine h.sunspec hs hd he.2.2.1 ?_ rfl rfl rfl rfl rfl
    have hown := he.2.1
    exact ⟨fun heq => by rwa [heq] at hown, fun _ heq => by rwa [heq] at hown⟩
  | runModbus created =>
    exact h.modbus hk (hunbegun fun heq => he.2 (by rw [heq])) rfl rfl rfl id
  | exchangeFinished n response =>
    by_cases hne : c.modbus = {}
    · refine h.modbus hk (fun _ => ?_) rfl rfl rfl id
      show Modbus.Discovery.step o.modbus c.modbus (.exchangeFinished n response) = {}
      rw [hne]
      rfl
    · exact h.modbus hk (hunbegun hne) rfl rfl rfl id
  | runScanner created => exact h.modbus hk h.unbegun rfl rfl rfl id
  | connection n isOpen => exact h.modbus hk h.unbegun rfl rfl rfl id
  | hearScanner =>
    have hne : c.modbus ≠ {} := fun heq => by
      have hlt := he.2.2.2
      rw [hport.unbegun (hport.idle.1 (by rw [heq]))] at hlt
      exact Nat.not_lt_zero _ hlt
    obtain ⟨_, _, _, heq⟩ := hearScanner_frame (o := o) c
    show (c.next o .hearScanner).UpstreamLink
    rw [heq] at hk hunbegun ⊢
    exact h.modbus hk (hunbegun hne) rfl rfl rfl id
  | hearModbus => exact h.hear hs hd he.1
  | hearSunspec => exact h.hearSunspec hk hunbegun he
  | stopSunspecChain =>
    exact h.sunspec hs hd (d := .stop) (.inl he.1.actions) ⟨by simp, by simp⟩ rfl rfl rfl rfl rfl
  | queueInLoop => exact h.modbus hk h.unbegun rfl rfl rfl id
  | destroy =>
    refine h.modbus hk (fun hb => ?_) rfl rfl rfl (fun h => by cases h)
    show stopModbus o c.modbus = {}
    have hempty := h.unbegun ((stopModbus_keeps (o := o) c.modbus).2.2.2.1.symm.trans hb)
    rw [hempty]
    rfl

end Neubau.Bootstrap.Chain
