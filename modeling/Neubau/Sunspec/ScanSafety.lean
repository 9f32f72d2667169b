import Neubau.Sunspec.Sweeping

/-! What holds of every scan, whatever its device, its sessions and its observer
do: it ends once and is then silent, and behind an accepted header it keeps to
one unit of one session and to the register span. -/

namespace Neubau.Sunspec

open Neubau.Common Neubau.Modbus
open Neubau.Modbus.Session (Registers)

variable {c : Config} {s : ScanState}

namespace ScanState

theorem Bound.cancel_log {k : ℕ} (h : s.Bound k) :
    s.cancel.finished = true ∧ s.cancel.log = s.log ++ [Effect.finished, .onCompleted] := by
  rw [cancel_open h.toOpen h.cancelled]
  exact ⟨rfl, rfl⟩

theorem Idle.log_eq (h : s.Idle) : s.log = [] ∧ s.finished = false ∧ s.cancellation = false := by
  rw [h]
  exact ⟨rfl, rfl, rfl⟩

/-- The log of a scan: what it did while it went on, and how it ended. -/
theorem Phase.log (h : Phase c s) : ∃ before ending, s.log = before ++ ending ∧
    (∀ e ∈ before, e.Busy) ∧
    ((s.finished = false ∧ ending = []) ∨
      (s.finished = true ∧ ∃ told, ending = .finished :: told ∧ Ending c told)) := by
  cases h with
  | idle h =>
    obtain ⟨hlog, hf, -⟩ := h.log_eq
    exact ⟨[], [], hlog, nofun, .inl ⟨hf, rfl⟩⟩
  | sweeping h =>
    exact ⟨s.log, [], (List.append_nil _).symm, h.log.busy, .inl ⟨h.finished, rfl⟩⟩
  | walking h =>
    exact ⟨s.log, [], (List.append_nil _).symm, h.log.busy, .inl ⟨h.finished, rfl⟩⟩
  | ended h =>
    obtain ⟨before, told, hlog, hbusy, hend⟩ := h.log
    exact ⟨before, _, hlog, hbusy, .inr ⟨h.finished, told, rfl, hend⟩⟩

theorem Phase.over (h : Phase c s) (hf : s.finished = true) : s.Over c := by
  cases h with
  | idle h => exact absurd (h.log_eq.2.1.symm.trans hf) Bool.false_ne_true
  | sweeping h => exact absurd (h.finished.symm.trans hf) Bool.false_ne_true
  | walking h => exact absurd (h.finished.symm.trans hf) Bool.false_ne_true
  | ended h => exact h

/-- Bound to its control and not finished, a scan has a session. -/
theorem Phase.bound (h : Phase c s) (hb : s.cancellation = true) (hf : s.finished = false) :
    ∃ k, s.Bound k := by
  cases h with
  | idle h => exact absurd (h.log_eq.2.2.symm.trans hb) Bool.false_ne_true
  | sweeping h => exact ⟨_, h.toBound⟩
  | walking h => exact ⟨_, h.toBound⟩
  | ended h => exact absurd (hf.symm.trans h.finished) Bool.false_ne_true

theorem Phase.pairwise (h : Phase c s) : s.log.Pairwise (After c) := by
  cases h with
  | idle h => rw [h.log_eq.1]; exact List.Pairwise.nil
  | sweeping h => exact h.log.pairwise
  | walking h => exact h.log.pairwise
  | ended h => exact h.pairwise

theorem Phase.table (h : Phase c s) {thing : SunspecThing} (hmem : .onNext thing ∈ s.log) :
    Table c thing.modelLocations := by
  obtain ⟨before, ending, hlog, hbusy, hend⟩ := h.log
  rw [hlog] at hmem
  rcases List.mem_append.1 hmem with hmem | hmem
  · exact absurd (hbusy _ hmem) id
  · rcases hend with ⟨-, rfl⟩ | ⟨-, told, rfl, hend⟩
    · cases hmem
    · cases hend with
      | completed => simp at hmem
      | failed error => simp at hmem
      | emitted htable =>
        obtain rfl : thing = _ := by simpa using hmem
        exact htable

end ScanState

/-- A scan tells its observer of at most one candidate and of one end, and is
silent from then on; cancelling it while it is bound ends it at once. -/
theorem scan_ends_once (hs : (machine c).Reachable s) :
    (∃ before ending, s.log = before ++ ending ∧ (∀ e ∈ before, e.Busy) ∧
      ((s.finished = false ∧ ending = []) ∨
        (s.finished = true ∧ (ending = [.finished, .onCompleted] ∨
          (∃ error, ending = [.finished, .onError error]) ∨
          ∃ thing, ending = [.finished, .onNext thing, .onCompleted])))) ∧
    (s.finished = true → ∀ es t, (machine c).Run s es t →
      t.finished = true ∧ t.log = s.log) ∧
    (s.cancellation = true → s.finished = false →
      s.cancel.finished = true ∧ s.cancel.log = s.log ++ [.finished, .onCompleted]) := by
  have hphase := (machine_phase c).reachable hs
  refine ⟨?_, fun hf es t hr => ?_, fun hb hf => ?_⟩
  · obtain ⟨before, ending, hlog, hbusy, hend⟩ := hphase.log
    refine ⟨before, ending, hlog, hbusy, ?_⟩
    rcases hend with hend | ⟨hf, told, rfl, hend⟩
    · exact .inl hend
    · refine .inr ⟨hf, ?_⟩
      cases hend with
      | completed => exact .inl rfl
      | failed error => exact .inr (.inl ⟨error, rfl⟩)
      | emitted _ => exact .inr (.inr ⟨_, rfl⟩)
  · obtain ⟨hover, hlog⟩ := (hphase.over hf).run hr
    exact ⟨hover.finished, hlog⟩
  · obtain ⟨k, hbound⟩ := hphase.bound hb hf
    exact hbound.cancel_log

/-- A scan of unit 7 alone, of four models at most. -/
def Config.single : Config where
  options := {
    maxModels := 4
    maxRegisterSpan := 400
    maxModels_pos := by decide
    maxRegisterSpan_ge := by decide }
  fixedUnitId := some 7
  endpoint _ := { address := ascii "10.0.0.2", port := 502 }

/-- One open session, and an observer that cancels. -/
def Answers.single : Answers where
  isClosed := false
  subscription := .session 0
  replacement := .null
  cancels := true

/-- A scan cancelled while it probes. -/
theorem scan_ends_once_probing :
    let s := step .single {} (.startInLoop .single)
    s.log = [.subscriptionFactory, .read (ScanState.probeCall 0 7)] ∧
      s.cancel.log = s.log ++ [.finished, .onCompleted] :=
  ⟨by decide, ((scan_ends_once ((Transition.Machine.Reachable.init rfl).next trivial)).2.2
    (by decide) (by decide)).2⟩

/-- Behind an accepted header every read of a scan goes to the unit and the
session it was accepted on, as a chunk within the register span; there is no
probe and no new session. What is emitted has the shape of a model table. -/
theorem hostile_device_confined (hs : (machine c).Reachable s) :
    (∀ before after session unitId commonLength,
      s.log = before ++ .accepted session unitId commonLength :: after →
        ∀ e ∈ after, e.Confined c session unitId) ∧
    ∀ thing, .onNext thing ∈ s.log →
      thing.modelLocations ≠ [] ∧ Table c thing.modelLocations := by
  have hphase := (machine_phase c).reachable hs
  refine ⟨fun before after k u L hlog e he => ?_, fun thing hmem => ?_⟩
  · have hpairwise := hphase.pairwise
    rw [hlog] at hpairwise
    have hafter := (List.pairwise_cons.1 (List.pairwise_append.1 hpairwise).2.1).1
    exact hafter e he k u L rfl
  · have htable := hphase.table hmem
    exact ⟨htable.ne_nil, htable⟩

/-- The Common Model of a device: its manufacturer, its model and its serial number. -/
def commonModel : Registers :=
  0x4142 :: .replicate 15 0 ++ 0x4344 :: .replicate 31 0 ++ 0x3037 :: .replicate 16 0

/-- The replies of a device with three models behind the Common Model: the second has no
registers, and the third has the id of the first and is read in two chunks. -/
def chainReplies : List Registers :=
  [[0x5375, 0x6e53, 1, 65], commonModel, [103, 2], [0, 0], [701, 0], [103, 130],
    .replicate 125 0, .replicate 5 0, [0xffff, 0]]

def chainRun : List Event :=
  .startInLoop .single :: chainReplies.mapIdx fun n registers => .reply n registers .single

def chainThing : SunspecThing where
  endpoint := { address := ascii "10.0.0.2", port := 502 }
  unitId := 7
  baseAddress := 40000
  modelLocations := [commonLocation 65,
    { id := 103, instance_ := 0, address := 40071, length := 2 },
    { id := 701, instance_ := 0, address := 40075, length := 0 },
    { id := 103, instance_ := 1, address := 40077, length := 130 }]
  manufacturer := ascii "AB"
  model := ascii "CD"
  options := []
  version := []
  serialNumber := ascii "07"

theorem hostile_device_confined_chain :
    let s := chainRun.foldl (step .single) {}
    (∀ e ∈ s.log.drop 3, e.Confined .single 0 7) ∧
      .onNext chainThing ∈ s.log ∧ Table .single chainThing.modelLocations := by
  intro s
  have hs : (machine .single).Reachable s :=
    Transition.Machine.Reachable.foldl (fun _ _ => trivial) (.init rfl) chainRun
  have h := hostile_device_confined hs
  have hmem : .onNext chainThing ∈ s.log := by decide +kernel
  exact ⟨h.1 (s.log.take 2) (s.log.drop 3) 0 7 65 (by decide +kernel), hmem,
    (h.2 chainThing hmem).2⟩

end Neubau.Sunspec
