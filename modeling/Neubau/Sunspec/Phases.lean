import Neubau.Sunspec.Chain
import Neubau.Sunspec.ScannerSpec

/-! The phases of a scan. It is idle until its callback runs; then it sweeps the
units, with one probe pending and nothing selected; an accepted header starts
the walk, with one chunk of one reader pending and a chain that ends where the
reader reads; and it is over. Every event moves a scan within these phases. -/

namespace Neubau.Sunspec

open Neubau.Common
open Neubau.Modbus.Session (Registers)

variable {c : Config} {a : Answers}

/-! ### The log -/

/-- What a scan does before it ends. -/
def Effect.Busy : Effect → Prop
  | .subscriptionFactory | .replacementFactory | .read _ | .accepted .. => True
  | _ => False

/-- What a scan may do after it has accepted the header of a unit on a session. -/
def Effect.Confined (c : Config) (session : ℕ) (unitId : UInt8) : Effect → Prop
  | .read call =>
    call.session = session ∧ call.unitId = unitId ∧ call.callback ≠ .probe ∧
      1 ≤ call.count.toNat ∧ call.count.toNat ≤ 125 ∧
      40004 ≤ call.address.toNat ∧ call.address.toNat + call.count.toNat ≤ c.limit
  | .subscriptionFactory | .replacementFactory | .accepted .. => False
  | _ => True

/-- `f` may come after `e`. -/
def After (c : Config) (e f : Effect) : Prop :=
  ∀ session unitId commonLength, e = .accepted session unitId commonLength →
    f.Confined c session unitId

/-- How a log ends. -/
inductive Ending (c : Config) : List Effect → Prop
  | completed : Ending c [.onCompleted]
  | failed (error : Exception) : Ending c [.onError error]
  | emitted {thing : SunspecThing} :
      Table c thing.modelLocations → Ending c [.onNext thing, .onCompleted]

theorem Ending.confined {ending : List Effect} (h : Ending c ending) (session : ℕ)
    (unitId : UInt8) : ∀ e ∈ Effect.finished :: ending, e.Confined c session unitId := by
  cases h <;> simp [Effect.Confined]

theorem busy_append {log : List Effect} (h : ∀ e ∈ log, e.Busy) {e : Effect} (he : e.Busy) :
    ∀ f ∈ log ++ [e], f.Busy := by
  intro f hf
  rcases List.mem_append.1 hf with hf | hf
  · exact h f hf
  · obtain rfl := List.mem_singleton.1 hf
    exact he

/-- A log without an accepted header. -/
structure Plain (log : List Effect) : Prop where
  busy : ∀ e ∈ log, e.Busy
  unaccepted : ∀ session unitId commonLength, Effect.accepted session unitId commonLength ∉ log

theorem Plain.append {log : List Effect} (h : Plain log) {e : Effect} (hb : e.Busy)
    (he : ∀ session unitId commonLength, e ≠ .accepted session unitId commonLength) :
    Plain (log ++ [e]) where
  busy := busy_append h.busy hb
  unaccepted session unitId commonLength hf := by
    rcases List.mem_append.1 hf with hf | hf
    · exact h.unaccepted _ _ _ hf
    · exact he _ _ _ (List.mem_singleton.1 hf).symm

theorem Plain.pairwise {log : List Effect} (h : Plain log) : log.Pairwise (After c) :=
  List.Pairwise.imp_of_mem (R := fun _ _ => True)
    (fun he _ _ _ _ _ heq => absurd (heq ▸ he) (h.unaccepted _ _ _))
    (List.pairwise_of_forall fun _ _ => trivial)

/-- A log in which a header was accepted, of one unit on one session. -/
structure Logged (c : Config) (session : ℕ) (unitId : UInt8) (log : List Effect) : Prop where
  busy : ∀ e ∈ log, e.Busy
  pairwise : log.Pairwise (After c)
  accepted : ∀ k u commonLength, Effect.accepted k u commonLength ∈ log →
    k = session ∧ u = unitId

theorem Plain.accept {log : List Effect} (h : Plain log) (session : ℕ) (unitId : UInt8)
    (commonLength : UInt16) :
    Logged c session unitId (log ++ [.accepted session unitId commonLength]) where
  busy := busy_append h.busy trivial
  pairwise := by
    refine List.pairwise_append.2 ⟨h.pairwise, List.pairwise_singleton _ _, ?_⟩
    intro e he f _ k u l heq
    exact absurd (heq ▸ he) (h.unaccepted _ _ _)
  accepted k u l hf := by
    rcases List.mem_append.1 hf with hf | hf
    · exact absurd hf (h.unaccepted _ _ _)
    · cases List.mem_singleton.1 hf
      exact ⟨rfl, rfl⟩

theorem pairwise_of_confined {ending : List Effect} {session : ℕ} {unitId : UInt8}
    (h : ∀ e ∈ ending, e.Confined c session unitId) : ending.Pairwise (After c) :=
  List.Pairwise.imp_of_mem (R := fun _ _ => True)
    (fun he _ _ _ _ _ heq => absurd (h _ (heq ▸ he)) id)
    (List.pairwise_of_forall fun _ _ => trivial)

theorem Logged.pairwise_append {session : ℕ} {unitId : UInt8} {log ending : List Effect}
    (h : Logged c session unitId log) (he : ∀ e ∈ ending, e.Confined c session unitId) :
    (log ++ ending).Pairwise (After c) := by
  refine List.pairwise_append.2 ⟨h.pairwise, pairwise_of_confined he, ?_⟩
  intro e hmem f hf k u l heq
  obtain ⟨rfl, rfl⟩ := h.accepted k u l (heq ▸ hmem)
  exact he f hf

theorem Logged.append {session : ℕ} {unitId : UInt8} {log : List Effect}
    (h : Logged c session unitId log) {e : Effect} (hb : e.Busy)
    (he : e.Confined c session unitId) : Logged c session unitId (log ++ [e]) where
  busy := busy_append h.busy hb
  pairwise := h.pairwise_append fun f hf => List.mem_singleton.1 hf ▸ he
  accepted k u l hf := by
    rcases List.mem_append.1 hf with hf | hf
    · exact h.accepted k u l hf
    · obtain rfl := List.mem_singleton.1 hf
      exact absurd he id

namespace ScanState

/-! ### The phases -/

/-- A scan that has not started, cancelled or not. -/
def Idle (s : ScanState) : Prop := s = { cancelled := s.cancelled }

/-- A scan bound to its control and not cancelled, with a session. -/
structure Bound (s : ScanState) (session : ℕ) : Prop extends s.Open where
  started : s.started = true
  cancelled : s.cancelled = false
  holds : s.session = some session

/-- A scan that has accepted no header. -/
structure Unselected (s : ScanState) (session : ℕ) : Prop extends s.Bound session where
  selectedHeader : s.selectedHeader = none
  locations : s.locations = []
  instances : s.instances = ∅
  activeReader : s.activeReader = none
  readers : s.readers = []
  index : s.unitIndex ≤ unitIds.length
  log : Plain s.log

def probeCall (session : ℕ) (unitId : UInt8) : ReadCall where
  session := session
  unitId := unitId
  address := 40000
  count := 4
  callback := .probe

/-- The unit a scan probes. -/
def currentUnit (c : Config) (s : ScanState) : Option UInt8 :=
  c.fixedUnitId <|> unitIds[s.unitIndex]?

/-- The probe of a unit is pending. -/
structure Sweeping (c : Config) (s : ScanState) (session read : ℕ) (unitId : UInt8) : Prop
    extends s.Unselected session where
  pending : s.pending = [read]
  call : s.reads[read]? = some (probeCall session unitId)
  unit : s.currentUnit c = some unitId

/-- A scan that has accepted the header of a unit. -/
structure Selected (c : Config) (s : ScanState) (session : ℕ) (unitId : UInt8)
    (commonLength : UInt16) : Prop extends s.Bound session where
  selectedHeader : s.selectedHeader =
    some { unitId, registers := [0x5375, 0x6e53, 1, commonLength] }
  commonLength : commonLength = 65 ∨ commonLength = 66
  log : Logged c session unitId s.log

/-- A selected scan that waits for no chunk: one of its callbacks is running. -/
structure Paused (c : Config) (s : ScanState) (session : ℕ) (unitId : UInt8)
    (commonLength : UInt16) : Prop extends s.Selected c session unitId commonLength where
  pending : s.pending = []
  readers : ∀ r ∈ s.readers, r.finished = true

/-- The instances count the locations. -/
def Counted (s : ScanState) : Prop :=
  ∀ id, (s.instances.lookup id).getD 0 = occurrences s.locations id

/-- What a reader reads: the Common Model, a header behind the chain, or the
payload of the chain's last model. -/
inductive Stage (c : Config) (s : ScanState) (commonLength : UInt16) :
    ReadSuccess → ℕ → ℕ → Prop
  | common : s.locations = [] → s.instances = ∅ →
      Stage c s commonLength (.onCommonModel commonLength.toNat) 40004 commonLength.toNat
  | header : Chain c s.locations s.currentAddress → s.Counted →
      Stage c s commonLength .onModelHeader s.currentAddress 2
  | payload {start count : ℕ} : Chain c s.locations (start + count) → s.Counted →
      Stage c s commonLength (.onModelPayload (start + count) count) start count

theorem Counted.congr {s t : ScanState} (h : s.Counted) (hloc : t.locations = s.locations)
    (hinst : t.instances = s.instances) : t.Counted := by
  intro id
  rw [hloc, hinst]
  exact h id

theorem Stage.congr {s t : ScanState} {commonLength : UInt16} {success : ReadSuccess}
    {start count : ℕ} (h : s.Stage c commonLength success start count)
    (hloc : t.locations = s.locations) (hinst : t.instances = s.instances)
    (haddress : t.currentAddress = s.currentAddress) :
    t.Stage c commonLength success start count := by
  cases h with
  | common h₁ h₂ => exact .common (hloc.trans h₁) (hinst.trans h₂)
  | header h₁ h₂ =>
    rw [← haddress] at h₁ ⊢
    exact .header (hloc ▸ h₁) (h₂.congr hloc hinst)
  | payload h₁ h₂ => exact .payload (hloc ▸ h₁) (h₂.congr hloc hinst)

end ScanState

/-- Where a walk is: the pending read, its reader, what the reader reads and
what it has collected. -/
structure Walk where
  session : ℕ
  unitId : UInt8
  commonLength : UInt16
  read : ℕ
  reader : ℕ
  success : ReadSuccess
  start : ℕ
  count : ℕ
  registers : Registers
  deriving DecidableEq, Repr

/-- The reader of a walk. -/
def Walk.current (w : Walk) : LogicalRegisterReader where
  session := some w.session
  unitId := w.unitId
  nextAddress := w.start + w.registers.length
  remaining := w.count - w.registers.length
  registers := w.registers
  success := some w.success

/-- The walk with one more chunk, and the next one pending. -/
def Walk.collect (w : Walk) (read : ℕ) (registers : Registers) : Walk :=
  { w with read, registers := w.registers ++ registers }

namespace ScanState

/-- A chunk is pending. -/
structure Walking (c : Config) (s : ScanState) (w : Walk) : Prop
    extends s.Selected c w.session w.unitId w.commonLength where
  activeReader : s.activeReader = some w.reader
  pending : s.pending = [w.read]
  call : s.reads[w.read]? = some (w.current.call w.session w.reader)
  reader : s.readers[w.reader]? = some w.current
  others : ∀ i r, s.readers[i]? = some r → i ≠ w.reader → r.finished = true
  collected : w.registers.length < w.count
  lower : 40004 ≤ w.start
  upper : w.start + w.count ≤ c.limit
  stage : s.Stage c w.commonLength w.success w.start w.count

/-- A scan that has ended. -/
structure Over (c : Config) (s : ScanState) : Prop where
  started : s.started = true
  finished : s.finished = true
  cancellation : s.cancellation = false
  readers : ∀ r ∈ s.readers, r.finished = true
  log : ∃ before ending, s.log = before ++ .finished :: ending ∧ (∀ e ∈ before, e.Busy) ∧
    Ending c ending
  pairwise : s.log.Pairwise (After c)

inductive Phase (c : Config) (s : ScanState) : Prop
  | idle : s.Idle → Phase c s
  | sweeping {session read : ℕ} {unitId : UInt8} : s.Sweeping c session read unitId → Phase c s
  | walking {w : Walk} : s.Walking c w → Phase c s
  | ended : s.Over c → Phase c s

end ScanState

end Neubau.Sunspec
