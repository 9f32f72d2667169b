import Neubau.Bootstrap.Chain
import Neubau.Common.PortScanOrder
import Neubau.Modbus.Progress
import Neubau.Modbus.Provenance
import Neubau.Sunspec.DiscoveryEndpoints
import Neubau.Transition.Projection

/-! The stages of a chain are the machines they are on their own. So each keeps in the
chain what it keeps alone, and what is left to show is what passes between them. -/

namespace Neubau.Bootstrap.Chain

open Neubau.Common Neubau.Modbus Neubau.Sunspec Neubau.Transition

variable {o : StageOptions} {c : Chain}

theorem startScanner_cases (s : PortScannerSession) : startScanner o s = s ∨
    ∃ d, s.Enabled d ∧ startScanner o s = PortScannerSession.step o.scanner s d := by
  unfold startScanner
  split_ifs with h
  · exact .inl rfl
  · exact .inr ⟨.start, Bool.eq_false_iff.2 h, rfl⟩

theorem stopScanner_cases (s : PortScannerSession) : stopScanner o s = s ∨
    ∃ d, s.Enabled d ∧ stopScanner o s = PortScannerSession.step o.scanner s d := by
  unfold stopScanner
  split_ifs with h
  · rw [Bool.and_eq_true] at h
    exact .inr ⟨.requestStop, h.2, rfl⟩
  · exact .inl rfl

theorem stopModbus_cases (s : Modbus.Discovery.Session) : stopModbus o s = s ∨
    stopModbus o s = Modbus.Discovery.step o.modbus s .requestStop := by
  unfold stopModbus
  split_ifs
  · exact .inr rfl
  · exact .inl rfl

/-! ### What hearing leaves alone -/

/-- An emission of the port scanner reaches the Modbus discovery and the service. -/
theorem hearScanner_frame (c : Chain) : ∃ reported modbus forwarded,
    c.next o .hearScanner = { c with reported, modbus, forwarded } := by
  cases hget : c.scanner.log[c.reported]? with
  | none =>
    simp only [next, hget]
    exact ⟨_, _, _, rfl⟩
  | some e =>
    simp only [next, hget]
    cases e <;> exact ⟨_, _, _, rfl⟩

/-- An effect of the Modbus discovery reaches the SunSpec discovery and the service. -/
theorem hearModbus_frame (c : Chain) : ∃ told sunspec forwarded,
    c.next o .hearModbus = { c with told, sunspec, forwarded } := by
  cases hget : c.modbus.log[c.told]? with
  | none =>
    simp only [next, hget]
    exact ⟨_, _, _, rfl⟩
  | some e =>
    simp only [next, hget]
    cases e <;> exact ⟨_, _, _, rfl⟩

/-- An effect of the SunSpec discovery reaches the Modbus discovery or the service. -/
theorem hearSunspec_frame (c : Chain) : ∃ called modbus forwarded,
    c.next o .hearSunspec = { c with called, modbus, forwarded } := by
  cases hget : c.sunspec.state.log[c.called]? with
  | none =>
    simp only [next, hget]
    exact ⟨_, _, _, rfl⟩
  | some e =>
    simp only [next, hget]
    cases e <;> exact ⟨_, _, _, rfl⟩

/-! ### One step, as a stage sees it -/

theorem next_scanner {e : Event} (he : c.Enabled e) : (c.next o e).scanner = c.scanner ∨
    ∃ d, c.scanner.Enabled d ∧
      (c.next o e).scanner = PortScannerSession.step o.scanner c.scanner d := by
  cases e with
  | runModbus created =>
    simp only [next, callScanner]
    split
    · exact .inl rfl
    · exact startScanner_cases c.scanner
    · exact stopScanner_cases c.scanner
  | runScanner created => exact .inr ⟨_, he.2, rfl⟩
  | connection n isOpen => exact .inr ⟨_, he.2, rfl⟩
  | destroy => exact stopScanner_cases c.scanner
  | hearScanner =>
    obtain ⟨_, _, _, heq⟩ := hearScanner_frame (o := o) c
    exact .inl (by rw [heq])
  | hearModbus =>
    obtain ⟨_, _, _, heq⟩ := hearModbus_frame (o := o) c
    exact .inl (by rw [heq])
  | hearSunspec =>
    obtain ⟨_, _, _, heq⟩ := hearSunspec_frame (o := o) c
    exact .inl (by rw [heq])
  | _ => exact .inl rfl

/-- The port scanner never fails, and reports nothing while it is started or stopped. -/
theorem next_modbus (c : Chain) (e : Event) : (c.next o e).modbus = c.modbus ∨
    ∃ d, Modbus.Discovery.Session.Orderly d ∧
      (c.next o e).modbus = Modbus.Discovery.step o.modbus c.modbus d := by
  cases e with
  | runModbus created => exact .inr ⟨.run [] created, rfl, rfl⟩
  | exchangeFinished n response => exact .inr ⟨.exchangeFinished n response, trivial, rfl⟩
  | destroy => exact (stopModbus_cases c.modbus).imp_right fun h => ⟨.requestStop, trivial, h⟩
  | hearScanner =>
    simp only [next]
    split
    · exact .inl rfl
    · rename_i e _
      cases e with
      | onNext n port => exact .inr ⟨.upstream (.next port), trivial, rfl⟩
      | onCompleted => exact .inr ⟨.upstream .completed, trivial, rfl⟩
  | hearModbus =>
    obtain ⟨_, _, _, heq⟩ := hearModbus_frame (o := o) c
    exact .inl (by rw [heq])
  | hearSunspec =>
    simp only [next]
    split
    · exact .inl rfl
    · rename_i e _
      cases e with
      | upstreamStart => exact .inr ⟨.start, trivial, rfl⟩
      | upstreamStop =>
        exact (stopModbus_cases c.modbus).imp_right fun h => ⟨.requestStop, trivial, h⟩
      | _ => exact .inl rfl
  | _ => exact .inl rfl

theorem hearUpstream_cases {e : Sunspec.Discovery.Event} (ha : c.sunspec.actions = [])
    (he : c.sunspec.AtRest → c.sunspec.state.subscribed = true → c.sunspec.Enabled e) :
    (c.hearUpstream o e).sunspec = c.sunspec ∨ ∃ d, c.sunspec.Enabled d ∧
      (c.hearUpstream o e).sunspec = Sunspec.Discovery.step o.sunspec c.sunspec d := by
  unfold hearUpstream
  dsimp only
  split_ifs with h
  · exact .inl rfl
  · rw [Bool.or_eq_true, not_or, Bool.not_eq_true'] at h
    refine .inr ⟨e, he (.inl ha) (by simpa using h.2), rfl⟩

theorem next_sunspec {e : Event} (he : c.Enabled e) : (c.next o e).sunspec = c.sunspec ∨
    ∃ d, c.sunspec.Enabled d ∧
      (c.next o e).sunspec = Sunspec.Discovery.step o.sunspec c.sunspec d := by
  cases e with
  | sunspec e => exact .inr ⟨e, he.2.2.1, rfl⟩
  | stopSunspecChain => exact .inr ⟨.stop, .inl he.1.actions, rfl⟩
  | hearScanner =>
    obtain ⟨_, _, _, heq⟩ := hearScanner_frame (o := o) c
    exact .inl (by rw [heq])
  | hearModbus =>
    simp only [next]
    split
    · exact .inl rfl
    · rename_i e _
      cases e with
      | onNext thing => exact hearUpstream_cases he.1 fun hr hs => ⟨hr, hs⟩
      | onCompleted => exact hearUpstream_cases he.1 fun hr hs => ⟨hr, hs⟩
      | onError error => exact hearUpstream_cases he.1 fun hr hs => ⟨hr, hs⟩
      | _ => exact .inl rfl
  | hearSunspec =>
    obtain ⟨_, _, _, heq⟩ := hearSunspec_frame (o := o) c
    exact .inl (by rw [heq])
  | _ => exact .inl rfl

theorem sees_scanner (o : StageOptions) :
    (machine o).Sees (PortScannerSession.machine o.scanner) Chain.scanner where
  init c hc := by
    obtain rfl : c = create o := hc
    exact .init rfl
  next _ _ _ he := next_scanner he

theorem sees_modbus (o : StageOptions) :
    (machine o).Sees (Modbus.Discovery.machine o.modbus) Chain.modbus where
  init c hc := by
    obtain rfl : c = create o := hc
    exact .init rfl
  next c e _ _ := (next_modbus c e).imp_right fun ⟨d, _, hd⟩ => ⟨d, trivial, hd⟩

theorem sees_sunspec (o : StageOptions) :
    (machine o).Sees (Sunspec.Discovery.machine o.sunspec) Chain.sunspec where
  init c hc := by
    obtain rfl : c = create o := hc
    -- the loop runs when the chain is built
    have hnew : (Sunspec.Discovery.machine o.sunspec).Reachable {} := .init rfl
    have hruns := hnew.next (e := Sunspec.Discovery.Event.loopRuns) ⟨rfl, rfl⟩
    exact hruns.next (e := Sunspec.Discovery.Event.start) (.inl rfl)
  next _ _ _ he := next_sunspec he

/-- A chain that was let go of stays so. -/
theorem held_of_next {e : Event} (h : (c.next o e).held = true) : c.held = true := by
  cases e with
  | hearScanner =>
    obtain ⟨_, _, _, heq⟩ := hearScanner_frame (o := o) c
    rw [heq] at h
    exact h
  | hearModbus =>
    obtain ⟨_, _, _, heq⟩ := hearModbus_frame (o := o) c
    rw [heq] at h
    exact h
  | hearSunspec =>
    obtain ⟨_, _, _, heq⟩ := hearSunspec_frame (o := o) c
    rw [heq] at h
    exact h
  | stopSunspecChain => exact absurd h Bool.false_ne_true
  | _ => exact h

end Neubau.Bootstrap.Chain
