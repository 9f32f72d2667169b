import Neubau.Sunspec.ScanSafety

/-! How many reads a scan asks for. Beside the scan a tally counts its reads: the
probes, the headers of models, and the chunks of the Common Model and of payloads.
Every unit is probed twice at most. The address of the header grows with every
model, also with one of length zero, and a chain has so many models and registers
only, so that every scan ends. -/

namespace Neubau.Sunspec

open Neubau.Common Neubau.Transition
open Neubau.Modbus.Session (Registers)

/-- The reads a log asks for. -/
def calls (log : List Effect) : List ReadCall :=
  log.filterMap fun
    | .read call => some call
    | _ => none

/-- The reads asked for so far: the units probed, the addresses of the headers, and
the number of the other chunks. -/
structure Tally where
  probes : List UInt8 := []
  headers : List ℕ := []
  chunks : ℕ := 0
  deriving DecidableEq, Repr

/-- A read is a header if its reader is to hand it to `onModelHeader`. -/
def Tally.add (readers : List LogicalRegisterReader) (t : Tally) (call : ReadCall) : Tally :=
  match call.callback with
  | .probe => { t with probes := t.probes ++ [call.unitId] }
  | .reader n =>
    match readers[n]?.bind (·.success) with
    | some .onModelHeader => { t with headers := t.headers ++ [call.address.toNat] }
    | _ => { t with chunks := t.chunks + 1 }

def Tally.total (t : Tally) : ℕ := t.probes.length + t.headers.length + t.chunks

/-- A scan and its tally; `answered` counts the reads that were answered while it went on. -/
structure Metered where
  scan : ScanState := {}
  tally : Tally := {}
  answered : ℕ := 0

/-- An event that answers a read of a scan that goes on. -/
def ScanState.Heeds (s : ScanState) : Event → Bool
  | .reply n _ _ | .failure n _ => !s.finished && n ∈ s.pending
  | _ => false

/-- The tally with the reads that `s` asks for beyond the ones asked for before. -/
def Tally.charge (before : List ReadCall) (s : ScanState) (t : Tally) : Tally :=
  ((calls s.log).drop before.length).foldl (Tally.add s.readers) t

def Metered.next (c : Config) (m : Metered) (e : Event) : Metered :=
  let scan := step c m.scan e
  { scan
    tally := m.tally.charge (calls m.scan.log) scan
    answered := m.answered + (m.scan.Heeds e).toNat }

/-- A scan under any order of replies, failures, closures and cancellations. -/
def meteredMachine (c : Config) : Machine Metered Event where
  init m := m = {}
  enabled _ _ := True
  next := Metered.next c

/-- No unit is probed more often than twice, and the only unit is probed once. -/
structure Probed (c : Config) (probes : List UInt8) : Prop where
  sweep : c.fixedUnitId = none →
    probes.length ≤ 2 * 247 ∧ ∀ unitId, probes.count unitId ≤ 2
  fixed : c.fixedUnitId.isSome → probes.length ≤ 1

/-- The bounds on the reads of a scan. -/
structure Bounded (c : Config) (t : Tally) : Prop where
  probes : Probed c t.probes
  growing : t.headers.Pairwise (· + 2 ≤ ·)
  headers : t.headers.length ≤ c.options.maxModels
  chunks : t.chunks ≤ c.options.maxModels + c.options.maxRegisterSpan / 125

/-! ### Chunks of a chain -/

/-- The chunks a payload takes. -/
def chunksOf (length : ℕ) : ℕ := (length + 124) / 125

def totalChunks (locations : List ModelLocation) : ℕ :=
  (locations.map fun l => chunksOf l.length.toNat).sum

/-- The registers of all payloads. -/
def payload (locations : List ModelLocation) : ℕ := (locations.map (·.length.toNat)).sum

theorem totalChunks_le (locations : List ModelLocation) :
    totalChunks locations ≤ locations.length + payload locations / 125 := by
  induction locations with
  | nil => simp [totalChunks]
  | cons l rest ih =>
    simp only [totalChunks, payload, List.map_cons, List.sum_cons, List.length_cons] at ih ⊢
    unfold chunksOf at ih ⊢
    omega

theorem totalChunks_concat (locations : List ModelLocation) (l : ModelLocation) :
    totalChunks (locations ++ [l]) = totalChunks locations + chunksOf l.length.toNat := by
  simp [totalChunks]

variable {c : Config}

/-- A chain takes the room of its payloads and headers. -/
theorem Chain.payload_le {locations : List ModelLocation} {address : ℕ}
    (h : Chain c locations address) : 40000 + payload locations ≤ address := by
  induction h with
  | common _ _ =>
    simp only [payload, commonLocation, List.map_cons, List.map_nil, List.sum_cons, List.sum_nil]
    omega
  | model _ _ _ _ _ ih =>
    simp only [payload, locationAt, List.map_append, List.map_cons, List.map_nil, List.sum_append,
      List.sum_cons, List.sum_nil] at ih ⊢
    omega

theorem Chain.totalChunks_le {locations : List ModelLocation} {address : ℕ}
    (h : Chain c locations address) :
    totalChunks locations ≤ c.options.maxModels + c.options.maxRegisterSpan / 125 := by
  have hpayload := h.payload_le
  have hlimit : address ≤ 40000 + c.options.maxRegisterSpan :=
    h.le_limit.trans (Nat.min_le_right _ _)
  have hlength := h.length_le
  have hchunks := Sunspec.totalChunks_le locations
  have hspan : payload locations / 125 ≤ c.options.maxRegisterSpan / 125 :=
    Nat.div_le_div_right (by omega)
  omega

/-! ### What is charged -/

section

variable {s : ScanState} {t : Tally} {before : List ReadCall}

@[simp] theorem calls_append (log more : List Effect) :
    calls (log ++ more) = calls log ++ calls more := List.filterMap_append

theorem charge_none (h : calls s.log = before) : t.charge before s = t := by
  simp [Tally.charge, h]

theorem charge_one {call : ReadCall} (h : calls s.log = before ++ [call]) :
    t.charge before s = t.add s.readers call := by
  simp [Tally.charge, h]

/-- The tally with a read from an address on, made for a success callback. -/
def Tally.read (t : Tally) (address : ℕ) : ReadSuccess → Tally
  | .onModelHeader => { t with headers := t.headers ++ [address] }
  | _ => { t with chunks := t.chunks + 1 }

theorem add_reader {readers : List LogicalRegisterReader} {n : ℕ} {r : LogicalRegisterReader}
    {success : ReadSuccess} (hr : readers[n]? = some r) (hs : r.success = some success)
    (call : ReadCall) (hcall : call.callback = .reader n) :
    t.add readers call = t.read call.address.toNat success := by
  simp only [Tally.add, hcall, hr, Option.bind_some, hs]
  cases success <;> rfl

theorem total_read (t : Tally) (address : ℕ) (success : ReadSuccess) :
    (t.read address success).total = t.total + 1 := by
  cases success <;> simp [Tally.read, Tally.total] <;> omega

theorem probes_read (t : Tally) (address : ℕ) (success : ReadSuccess) :
    (t.read address success).probes = t.probes := by
  cases success <;> rfl

theorem calls_ended (s : ScanState) {ending : List Effect} (h : Ending c ending) :
    calls (s.ended ending).log = calls s.log := by
  have hnone : calls (.finished :: ending) = [] := by cases h <;> rfl
  exact (calls_append _ _).trans (by rw [hnone, List.append_nil])

end

/-! ### Probes -/

/-- The first units, each twice. -/
def twice (i : ℕ) : List UInt8 := (unitIds.take i).flatMap fun unitId => [unitId, unitId]

theorem twice_succ {i : ℕ} {unitId : UInt8} (h : unitIds[i]? = some unitId) :
    twice (i + 1) = twice i ++ [unitId, unitId] := by
  simp [twice, List.take_add_one, h]

theorem count_doubled {units : List UInt8} (h : units.Nodup) (unitId : UInt8) :
    (units.flatMap fun u => [u, u]).count unitId ≤ 2 := by
  have hcount : (units.flatMap fun u => [u, u]).count unitId = 2 * units.count unitId := by
    clear h
    induction units with
    | nil => rfl
    | cons u rest ih =>
      rw [List.flatMap_cons, List.count_append, ih, List.count_cons]
      by_cases hu : u = unitId
      · simp [hu]
        omega
      · simp [hu]
  have hle := List.nodup_iff_count_le_one.1 h unitId
  omega

theorem sublist_twice {probes : List UInt8} {i : ℕ} (h : probes.Sublist (twice i)) :
    probes.length ≤ 2 * 247 ∧ ∀ unitId, probes.count unitId ≤ 2 := by
  have hunits := length_unitIds
  have hlen : (twice i).length = 2 * (unitIds.take i).length := by
    unfold twice
    induction unitIds.take i with
    | nil => rfl
    | cons u rest ih =>
      rw [List.flatMap_cons, List.length_append, ih, List.length_cons]
      simp only [List.length_cons, List.length_nil]
      omega
  refine ⟨?_, fun unitId => ?_⟩
  · have hle := h.length_le
    rw [hlen, List.length_take] at hle
    omega
  · exact (h.count_le unitId).trans
      (count_doubled (unitIds_nodup.sublist (List.take_sublist _ _)) unitId)

namespace ScanState

variable {a : Answers} {s : ScanState} {k n : ℕ} {unitId : UInt8} {t : Tally}

/-- The probes of a sweep that is about to probe: units before the current one were
probed twice at most, and the current one not at all, or once where that leaves no
second attempt. -/
structure Ready (c : Config) (s : ScanState) (probes : List UInt8) : Prop where
  sweep : c.fixedUnitId = none → probes.Sublist (twice s.unitIndex) ∨
    s.retryCurrentUnitOnClosed = false ∧ ∃ unitId, unitIds[s.unitIndex]? = some unitId ∧
      probes.Sublist (twice s.unitIndex ++ [unitId])
  fixed : c.fixedUnitId.isSome → probes = []

/-- The probes of a sweep with a probe pending. -/
structure Swept (c : Config) (s : ScanState) (unitId : UInt8) (probes : List UInt8) : Prop where
  sweep : c.fixedUnitId = none → probes.Sublist (twice s.unitIndex ++ [unitId, unitId]) ∧
    (s.retryCurrentUnitOnClosed = true → probes.Sublist (twice s.unitIndex ++ [unitId]))
  fixed : c.fixedUnitId.isSome → probes.length = 1

theorem currentUnit_sweep (hunit : s.currentUnit c = some unitId) (hfixed : c.fixedUnitId = none) :
    unitIds[s.unitIndex]? = some unitId := by
  rwa [currentUnit, hfixed] at hunit

theorem Ready.probe {probes : List UInt8} (h : s.Ready c probes)
    (hunit : s.currentUnit c = some unitId) : s.Swept c unitId (probes ++ [unitId]) := by
  refine ⟨fun hfixed => ?_, fun hfixed => by simp [h.fixed hfixed]⟩
  rcases h.sweep hfixed with hsub | ⟨hretry, unitId', hunit', hsub⟩
  · exact ⟨hsub.append (.cons _ (List.Sublist.refl _)), fun _ => hsub.append (List.Sublist.refl _)⟩
  · obtain rfl : unitId = unitId' := by
      simpa [currentUnit_sweep hunit hfixed] using hunit'
    have hsub' := hsub.append (List.Sublist.refl [unitId])
    rw [List.append_assoc] at hsub'
    exact ⟨hsub', fun hretry' => absurd (hretry'.symm.trans hretry) (by simp)⟩

theorem Ready.probed {probes : List UInt8} (h : s.Ready c probes) : Probed c probes := by
  refine ⟨fun hfixed => ?_, fun hfixed => by simp [h.fixed hfixed]⟩
  rcases h.sweep hfixed with hsub | ⟨-, unitId, hunit, hsub⟩
  · exact sublist_twice hsub
  · refine sublist_twice (i := s.unitIndex + 1) (hsub.trans ?_)
    rw [twice_succ hunit]
    exact (List.Sublist.refl _).append (.cons _ (List.Sublist.refl _))

theorem Swept.probed {probes : List UInt8} (h : s.Swept c unitId probes)
    (hunit : s.currentUnit c = some unitId) : Probed c probes := by
  refine ⟨fun hfixed => ?_, fun hfixed => (h.fixed hfixed).le⟩
  refine sublist_twice (i := s.unitIndex + 1) ?_
  rw [twice_succ (currentUnit_sweep hunit hfixed)]
  exact (h.sweep hfixed).1

/-- The sweep goes on with the next unit. -/
theorem Swept.advanced {probes : List UInt8} (h : s.Swept c unitId probes)
    (hunit : s.currentUnit c = some unitId) (hfixed : c.fixedUnitId = none) {s' : ScanState}
    (hindex : s'.unitIndex = s.unitIndex + 1) : s'.Ready c probes := by
  refine ⟨fun _ => .inl ?_, fun hfixed' => by simp [hfixed] at hfixed'⟩
  rw [hindex, twice_succ (currentUnit_sweep hunit hfixed)]
  exact (h.sweep hfixed).1

/-- The only second attempt at a unit. -/
theorem Swept.repeated {probes : List UInt8} (h : s.Swept c unitId probes)
    (hunit : s.currentUnit c = some unitId) (hfixed : c.fixedUnitId = none)
    (hretry : s.retryCurrentUnitOnClosed = true) {s' : ScanState}
    (hindex : s'.unitIndex = s.unitIndex) (hretry' : s'.retryCurrentUnitOnClosed = false) :
    s'.Ready c probes := by
  refine ⟨fun _ => .inr ⟨hretry', unitId, ?_, ?_⟩, fun hfixed' => by simp [hfixed] at hfixed'⟩
  · rw [hindex]
    exact currentUnit_sweep hunit hfixed
  · rw [hindex]
    exact (h.sweep hfixed).2 hretry

/-! ### Walks -/

/-- A walk about to read the header at an address: every model but the first had a
header, and the chunks are those of the models. -/
structure Spent (t : Tally) (locations : List ModelLocation) (address : ℕ) : Prop where
  count : t.headers.length + 1 = locations.length
  growing : t.headers.Pairwise (· + 2 ≤ ·)
  last : ∀ header ∈ t.headers, header + 2 ≤ address
  chunks : t.chunks ≤ totalChunks locations

/-- A walk with a chunk pending, `left` registers of its reader to come. -/
def Spending (t : Tally) (locations : List ModelLocation) (start left : ℕ) : ReadSuccess → Prop
  | .onCommonModel _ => t.headers = [] ∧ t.chunks + chunksOf left ≤ 2
  | .onModelHeader => ∃ earlier, t.headers = earlier ++ [start] ∧ left ≤ 2 ∧
      Spent { t with headers := earlier } locations start
  | .onModelPayload _ _ => t.headers.length + 1 = locations.length ∧
      t.headers.Pairwise (· + 2 ≤ ·) ∧ (∀ header ∈ t.headers, header + 2 ≤ start) ∧
      t.chunks + chunksOf left ≤ totalChunks locations + 1

theorem Spent.bounded {locations : List ModelLocation} {address address' : ℕ}
    (h : Spent t locations address) (hchain : Chain c locations address')
    (hprobes : Probed c t.probes) : Bounded c t where
  probes := hprobes
  growing := h.growing
  headers := by
    have h₁ := h.count
    have h₂ := hchain.length_le
    omega
  chunks := h.chunks.trans hchain.totalChunks_le

/-- Whatever a walk reads, it is within its bounds. -/
theorem Walking.bounded {w : Walk} (h : s.Walking c w) {left : ℕ} (hleft : 0 < left)
    (hspending : Spending t s.locations w.start left w.success) (hprobes : Probed c t.probes) :
    Bounded c t := by
  have hstage := h.stage
  have hone : 1 ≤ chunksOf left := by
    unfold chunksOf
    omega
  generalize w.success = success at hspending hstage
  generalize w.start = start at hspending hstage
  generalize w.count = count at hstage
  cases hstage with
  | common _ _ =>
    obtain ⟨hheaders, hchunks⟩ := hspending
    have hmax := c.options.maxModels_pos
    exact ⟨hprobes, by simp [hheaders], by simp [hheaders], by omega⟩
  | header hchain _ =>
    obtain ⟨earlier, hheaders, -, hspent⟩ := hspending
    refine ⟨hprobes, ?_, ?_, hspent.chunks.trans hchain.totalChunks_le⟩
    · rw [hheaders, List.pairwise_append]
      exact ⟨hspent.growing, List.pairwise_singleton _ _, fun header hheader next hnext =>
        List.mem_singleton.1 hnext ▸ hspent.last header hheader⟩
    · have hcount := hspent.count
      have hlen := hchain.length_le
      rw [hheaders, List.length_append, List.length_singleton]
      exact hcount.trans_le hlen
  | payload hchain _ =>
    obtain ⟨hcount, hgrowing, hlast, hchunks⟩ := hspending
    have hspent : Spent t s.locations start := ⟨hcount, hgrowing, hlast, by omega⟩
    exact hspent.bounded hchain hprobes

/-- What a scan that sweeps has asked for. -/
structure Sweeps (c : Config) (s : ScanState) (unitId : UInt8) (t : Tally) : Prop where
  swept : s.Swept c unitId t.probes
  headers : t.headers = []
  chunks : t.chunks = 0

/-- A scan whose tally is within the bounds, in each of its phases. -/
inductive Within (c : Config) (s : ScanState) (t : Tally) (answered : ℕ) : Prop
  | idle : s.Idle → t = {} → answered = 0 → Within c s t answered
  | sweeping {session read : ℕ} {unitId : UInt8} : s.Sweeping c session read unitId →
      s.Sweeps c unitId t → answered + 1 = t.total → Within c s t answered
  | walking {w : Walk} : s.Walking c w → Probed c t.probes →
      Spending t s.locations w.start (w.count - w.registers.length) w.success →
      answered + 1 = t.total → Within c s t answered
  | ended : s.Over c → Bounded c t → answered ≤ t.total → Within c s t answered

variable {before : List ReadCall} {answered : ℕ}

theorem Within.over (h : s.Over c) (hcalls : calls s.log = before) (hb : Bounded c t)
    (hanswered : answered ≤ t.total) : Within c s (t.charge before s) answered := by
  rw [charge_none hcalls]
  exact .ended h hb hanswered

/-- A sweep probes its next unit, or there is none. -/
theorem Unselected.within (h : s.Unselected k) (hpending : s.pending = [])
    (hcalls : calls s.log = before) (hready : s.Ready c t.probes) (hheaders : t.headers = [])
    (hchunks : t.chunks = 0) (hanswered : answered = t.total) :
    Within c (s.probeNextUnit c) (t.charge before (s.probeNextUnit c)) answered := by
  cases hunit : s.currentUnit c with
  | some unitId =>
    have hs := h.sweeping hpending hunit
    have hcall : calls (s.probeNextUnit c).log = before ++ [probeCall k unitId] := by
      rw [h.probeNextUnit_next hunit, ← hcalls]
      exact calls_append _ _
    have hadd : t.add (s.probeNextUnit c).readers (probeCall k unitId) =
        { t with probes := t.probes ++ [unitId] } := rfl
    rw [charge_one hcall, hadd]
    refine .sweeping hs ⟨?_, hheaders, hchunks⟩ ?_
    · rw [h.probeNextUnit_next hunit]
      exact ⟨(hready.probe hunit).sweep, (hready.probe hunit).fixed⟩
    · simp only [Tally.total, List.length_append, List.length_singleton] at hanswered ⊢
      omega
  | none =>
    obtain ⟨hfixed, hlast⟩ := currentUnit_eq_none hunit h.index
    rw [h.probeNextUnit_last hfixed hlast]
    refine .over (h.over .completed) ?_ ?_ hanswered.le
    · rw [calls_ended (c := c) _ .completed, hcalls]
    · exact ⟨hready.probed, by simp [hheaders], by simp [hheaders], by omega⟩

variable {commonLength : UInt16} {success : ReadSuccess} {start count : ℕ}

/-- A walk starts a new reader. -/
theorem Paused.read_within (h : s.Paused c k unitId commonLength)
    (hstage : s.Stage c commonLength success start count) (hpos : 0 < count)
    (hlo : 40004 ≤ start) (hhi : start + count ≤ c.limit) (hcalls : calls s.log = before)
    (hprobes : Probed c t.probes) (hanswered : answered = t.total)
    (hspending : Spending (t.read start success) s.locations start count success) :
    Within c (s.read start count success) (t.charge before (s.read start count success))
      answered := by
  have hlimit := c.limit_le
  have hwalking := h.read hstage hpos hlo hhi
  have heq := read_eq h.holds h.selectedHeader hpos (show start + count ≤ 65536 by omega) success
  have hcall := hwalking.call
  have hadd := add_reader (t := t) hwalking.reader rfl
    ((s.beginning k unitId commonLength success start count).current.call k s.readers.length) rfl
  have haddress : ((s.beginning k unitId commonLength success start count).current.call k
      s.readers.length).address.toNat = start := by
    have hlt : start < UInt16.size := show start < 65536 by omega
    exact UInt16.toNat_ofNat_of_lt' hlt
  rw [haddress] at hadd
  have hnew : calls (s.read start count success).log = before ++
      [(s.beginning k unitId commonLength success start count).current.call k
        s.readers.length] := by
    rw [heq, ← hcalls]
    exact calls_append _ _
  rw [charge_one hnew, hadd]
  refine .walking hwalking ?_ ?_ ?_
  · rwa [probes_read]
  · have hloc : (s.read start count success).locations = s.locations := by rw [heq]; rfl
    rw [hloc]
    exact hspending
  · rw [total_read, hanswered]

/-- Behind a chain the walk reads the next header or ends. -/
theorem Paused.readModelHeader_within (h : s.Paused c k unitId commonLength)
    (hchain : Chain c s.locations s.currentAddress) (hcounted : s.Counted)
    (hcalls : calls s.log = before) (hprobes : Probed c t.probes)
    (hspent : Spent t s.locations s.currentAddress) (hanswered : answered = t.total) :
    Within c (s.readModelHeader c) (t.charge before (s.readModelHeader c)) answered := by
  have hroom := hchain.room
  rw [h.readModelHeader_eq (by omega)]
  split_ifs with hin
  · exact h.read_within (.header hchain hcounted) (by omega) (by omega) hin hcalls hprobes
      hanswered ⟨t.headers, rfl, le_rfl, hspent⟩
  · refine .over (h.over .completed) ?_ (hspent.bounded hchain hprobes) hanswered.le
    rw [calls_ended (c := c) _ .completed, hcalls]

/-- The header of a model: its payload is read, or the next header, or the scan ends. -/
theorem Paused.onModelHeader_within (h : s.Paused c k unitId commonLength)
    (hchain : Chain c s.locations s.currentAddress) (hcounted : s.Counted)
    (hcalls : calls s.log = before) (hprobes : Probed c t.probes)
    {earlier : List ℕ} (hheaders : t.headers = earlier ++ [s.currentAddress])
    (hspent : Spent { t with headers := earlier } s.locations s.currentAddress)
    (hbounded : Bounded c t) (hanswered : answered = t.total) (id length : UInt16) :
    Within c (s.onModelHeader c a [id, length])
      (t.charge before (s.onModelHeader c a [id, length])) answered := by
  have hroom := hchain.room
  obtain ⟨hemit, hstray, hunfit, hempty, hpayload⟩ :=
    h.onModelHeader_eq (a := a) hchain hcounted id length
  have hcompletes : Within c (s.ended [.onCompleted]) (t.charge before (s.ended [.onCompleted]))
      answered :=
    .over (h.over .completed) (by rw [calls_ended (c := c) _ .completed, hcalls]) hbounded
      hanswered.le
  by_cases hid : id = 0xffff
  · by_cases hz : length = 0
    · rw [hemit hid hz]
      have hp : Paused c (s.emptied false) k unitId commonLength := { h with cancelled := rfl }
      have hend : Ending c [.onNext (s.thing c k unitId), .onCompleted] :=
        .emitted hchain.table
      exact .over ((hp.over hend).withCancelled a.cancels)
        ((calls_ended _ hend).trans hcalls) hbounded hanswered.le
    · rwa [hstray hid hz]
  by_cases hfits : s.Fits c length
  · have hnext : Chain c (s.withModel id length).locations
        (s.currentAddress + 2 + length.toNat) := .model hchain hid hfits.1 hfits.2.1 hfits.2.2
    have hcount : (s.withModel id length).Counted := hcounted.withModel id length
    have hmodels : t.headers.length + 1 = (s.withModel id length).locations.length := by
      have hlen := hspent.count
      show t.headers.length + 1 = (s.locations ++ [_]).length
      rw [hheaders, List.length_append, List.length_append]
      exact congrArg (· + 1) hlen
    have hlast : ∀ header ∈ t.headers, header + 2 ≤ s.currentAddress + 2 := by
      intro header hheader
      rw [hheaders] at hheader
      rcases List.mem_append.1 hheader with hheader | hheader
      · have hle := hspent.last header hheader
        omega
      · rw [List.mem_singleton.1 hheader]
    have htotal : totalChunks (s.withModel id length).locations =
        totalChunks s.locations + chunksOf length.toNat := totalChunks_concat _ _
    have hchunks : t.chunks ≤ totalChunks s.locations := hspent.chunks
    by_cases hz : length = 0
    · rw [hempty hid hfits hz]
      have hp : Paused c { s.withModel id length with
        currentAddress := s.currentAddress + 2 + length.toNat } k unitId commonLength :=
          { h with }
      refine hp.readModelHeader_within hnext hcount hcalls hprobes ?_ hanswered
      refine ⟨hmodels, hbounded.growing, fun header hheader => ?_, ?_⟩
      · exact (hlast header hheader).trans (Nat.le_add_right _ _)
      · show t.chunks ≤ totalChunks (s.withModel id length).locations
        omega
    · rw [hpayload hid hfits hz]
      have hp : Paused c (s.withModel id length) k unitId commonLength := { h with }
      have hpos : 0 < length.toNat := Nat.pos_of_ne_zero fun h0 => hz (UInt16.toNat_inj.1 h0)
      refine hp.read_within (.payload hnext hcount) hpos (by omega) hfits.2.2 hcalls hprobes
        hanswered ⟨hmodels, hbounded.growing, hlast, ?_⟩
      show t.chunks + 1 + chunksOf length.toNat ≤ totalChunks (s.withModel id length).locations + 1
      omega
  · rwa [hunfit hid hfits]

/-- The last chunk of a reader: its success callback goes on. -/
theorem Paused.succeed_within (h : s.Paused c k unitId commonLength)
    (hstage : s.Stage c commonLength success start count) (hend : start + count ≤ c.limit)
    (hcalls : calls s.log = before) (hprobes : Probed c t.probes) (hbounded : Bounded c t)
    {left : ℕ} (hpos : 0 < left) (hspending : Spending t s.locations start left success)
    (hanswered : answered = t.total) {registers : Registers} (hlen : registers.length = count) :
    Within c (s.succeed c a success registers)
      (t.charge before (s.succeed c a success registers)) answered := by
  have hone : 1 ≤ chunksOf left := by
    unfold chunksOf
    omega
  cases hstage with
  | common hloc hinst =>
    obtain ⟨hheaders, hchunks⟩ := hspending
    have hp : Paused c (s.withCommonModel commonLength registers) k unitId commonLength :=
      { h with }
    change Within c (s.onCommonModel c registers commonLength.toNat)
      (t.charge before (s.onCommonModel c registers commonLength.toNat)) answered
    rw [h.onCommonModel_eq hloc hinst hlen]
    refine hp.readModelHeader_within (.common h.commonLength hend)
      (withCommonModel_counted s commonLength registers) hcalls hprobes ?_ hanswered
    refine ⟨by rw [hheaders]; rfl, by simp [hheaders], by simp [hheaders], ?_⟩
    have hcommon : totalChunks [commonLocation commonLength] = 1 := by
      rcases h.commonLength with rfl | rfl <;> rfl
    show t.chunks ≤ totalChunks [commonLocation commonLength]
    omega
  | header hchain hcounted =>
    obtain ⟨earlier, hheaders, -, hspent⟩ := hspending
    obtain ⟨id, length, rfl⟩ := List.length_eq_two.1 hlen
    exact h.onModelHeader_within hchain hcounted hcalls hprobes hheaders hspent hbounded hanswered
      id length
  | payload hchain hcounted =>
    obtain ⟨hcount, hgrowing, hlast, hchunks⟩ := hspending
    have hp : Paused c { s with currentAddress := start + count } k unitId commonLength :=
      { h with }
    change Within c (s.onModelPayload c registers (start + count) count)
      (t.charge before (s.onModelPayload c registers (start + count) count)) answered
    rw [onModelPayload, if_neg (by simp [hlen])]
    refine hp.readModelHeader_within hchain hcounted hcalls hprobes ?_ hanswered
    refine ⟨hcount, hgrowing, fun header hheader => ?_, ?_⟩
    · exact (hlast header hheader).trans (Nat.le_add_right _ _)
    · show t.chunks ≤ totalChunks s.locations
      omega

/-! ### Every event -/

/-- Another chunk of the same reader. -/
theorem Spending.more {locations : List ModelLocation} {left : ℕ}
    (h : Spending t locations start left success) (hmore : 125 < left) (address : ℕ) :
    Spending (t.read address success) locations start (left - 125) success := by
  have hchunks : chunksOf left = chunksOf (left - 125) + 1 := by
    unfold chunksOf
    omega
  cases success with
  | onCommonModel commonLength =>
    obtain ⟨hheaders, hle⟩ := h
    exact ⟨hheaders, show t.chunks + 1 + _ ≤ 2 by omega⟩
  | onModelHeader =>
    obtain ⟨-, -, hle, -⟩ := h
    omega
  | onModelPayload next length =>
    obtain ⟨hcount, hgrowing, hlast, hle⟩ := h
    exact ⟨hcount, hgrowing, hlast, show t.chunks + 1 + _ ≤ _ + 1 by omega⟩

/-- A reply to a walk. -/
theorem Walking.reply_within {w : Walk} (h : s.Walking c w) (hcalls : calls s.log = before)
    (hprobes : Probed c t.probes)
    (hspending : Spending t s.locations w.start (w.count - w.registers.length) w.success)
    (hanswered : answered = t.total) (registers : Registers) :
    Within c (s.onReply c a w.read registers) (t.charge before (s.onReply c a w.read registers))
      answered := by
  have hchunk := h.chunk_eq
  have hcollected := h.collected
  have hbounded := h.bounded (by omega) hspending hprobes
  by_cases hlen : registers.length = w.current.chunk
  · rcases Nat.lt_or_eq_of_le (show w.current.chunk ≤ w.count - w.registers.length by omega) with
      hmore | hlast
    · have hwalking := h.reply_more (a := a) hlen hmore
      have heq := h.waits.onReply_more (c := c) (a := a) hlen hmore
      have hnew : calls (s.onReply c a w.read registers).log = before ++
          [(w.current.collect registers).call w.session w.reader] := by
        rw [heq, ← hcalls]
        exact calls_append _ _
      have hadd := add_reader (t := t) hwalking.reader rfl
        ((w.current.collect registers).call w.session w.reader) rfl
      rw [charge_one hnew]
      change Within c _ (t.add _ _) _
      rw [hadd]
      refine .walking hwalking (by rwa [probes_read]) ?_ (by rw [total_read, hanswered])
      have hloc : (s.onReply c a w.read registers).locations = s.locations := by rw [heq]; rfl
      have hleft : w.count - (w.registers ++ registers).length =
          w.count - w.registers.length - 125 := by
        rw [List.length_append]
        omega
      rw [hloc]
      show Spending _ s.locations w.start (w.count - (w.registers ++ registers).length) w.success
      rw [hleft]
      exact hspending.more (by omega) _
    · rw [h.reply_last hlen hlast]
      have hp := h.pause (r := (w.current.collect registers).close) rfl
      exact hp.succeed_within (h.stage.congr rfl rfl rfl) h.upper hcalls hprobes hbounded (by omega)
        hspending hanswered (by rw [List.length_append]; omega)
  · have hover := h.reply_bad (a := a) hlen
    refine .over hover ?_ hbounded hanswered.le
    rw [h.waits.onReply_bad h.toOpen h.activeReader hlen, calls_ended (c := c) _ .completed]
    exact hcalls

theorem Walking.failure_within {w : Walk} (h : s.Walking c w) (hcalls : calls s.log = before)
    (hbounded : Bounded c t) (hanswered : answered ≤ t.total) :
    Within c (s.onReadFailure c a w.read) (t.charge before (s.onReadFailure c a w.read))
      answered := by
  refine .over h.failure ?_ hbounded hanswered
  rw [h.waits.onReadFailure h.toOpen, calls_ended (c := c) _ .completed]
  exact hcalls

theorem Sweeps.bounded (h : s.Sweeps c unitId t) (hunit : s.currentUnit c = some unitId) :
    Bounded c t where
  probes := h.swept.probed hunit
  growing := by simp [h.headers]
  headers := by simp [h.headers]
  chunks := by simp [h.chunks]

/-- A reply to a probe. -/
theorem Sweeping.reply_within (h : s.Sweeping c k n unitId) (hcalls : calls s.log = before)
    (hsweeps : s.Sweeps c unitId t) (hanswered : answered = t.total) (registers : Registers) :
    Within c (s.onReply c a n registers) (t.charge before (s.onReply c a n registers))
      answered := by
  have hbounded := hsweeps.bounded h.unit
  cases hr : isSunspecHeader registers with
  | true =>
    obtain ⟨commonLength, hL, rfl⟩ := isSunspecHeader_iff.1 hr
    have hp := h.paused hL
    have hpos : 0 < commonLength.toNat := by rcases hL with rfl | rfl <;> decide
    have hcalls' : calls (s.accepts k unitId commonLength).log = before := by
      rw [← hcalls]
      exact (calls_append _ _).trans (List.append_nil _)
    rw [h.onReply_header hL, hp.readCommonModel_eq]
    split_ifs with hin
    · refine hp.read_within (.common h.locations h.instances) hpos le_rfl hin hcalls'
        hbounded.probes hanswered ⟨hsweeps.headers, ?_⟩
      show t.chunks + 1 + chunksOf commonLength.toNat ≤ 2
      rw [hsweeps.chunks]
      rcases hL with rfl | rfl <;> decide
    · refine .over (hp.over .completed) ?_ hbounded hanswered.le
      rw [calls_ended (c := c) _ .completed, hcalls']
  | false =>
    cases hfixed : c.fixedUnitId with
    | some u =>
      rw [h.onReply_fixed hr (by simp [hfixed])]
      refine .over (h.idle.over .completed) ?_ hbounded hanswered.le
      rw [calls_ended (c := c) _ .completed]
      exact hcalls
    | none =>
      have hlt := (h.index_lt hfixed).2
      cases hclosed : a.isClosed with
      | false =>
        rw [h.onReply_open hr hfixed hclosed]
        exact (h.idle.advanced hlt true).within rfl hcalls
          (hsweeps.swept.advanced h.unit hfixed rfl) hsweeps.headers hsweeps.chunks hanswered
      | true =>
        by_cases hmade : ∃ session, a.replacement = .session session
        · obtain ⟨session, hmade⟩ := hmade
          rw [h.onReply_closed hr hfixed hclosed hmade]
          exact ((h.idle.replaced session).advanced hlt false).within rfl
            ((calls_append _ _).trans ((List.append_nil _).trans hcalls))
            (hsweeps.swept.advanced h.unit hfixed rfl) hsweeps.headers hsweeps.chunks hanswered
        · obtain ⟨error, hreply, -⟩ := h.unreplaced_eq hfixed hclosed (not_exists.1 hmade)
          rw [hreply registers hr]
          refine .over (h.idle.tell.over (.failed error)) ?_ hbounded hanswered.le
          rw [calls_ended (c := c) _ (.failed error)]
          exact (calls_append _ _).trans ((List.append_nil _).trans hcalls)

/-- A probe that fails. -/
theorem Sweeping.failure_within (h : s.Sweeping c k n unitId) (hcalls : calls s.log = before)
    (hsweeps : s.Sweeps c unitId t) (hanswered : answered = t.total) :
    Within c (s.onReadFailure c a n) (t.charge before (s.onReadFailure c a n)) answered := by
  have hbounded := hsweeps.bounded h.unit
  cases hfixed : c.fixedUnitId with
  | some u =>
    rw [h.onReadFailure_fixed (by simp [hfixed])]
    refine .over (h.idle.over .completed) ?_ hbounded hanswered.le
    rw [calls_ended (c := c) _ .completed]
    exact hcalls
  | none =>
    have hlt := (h.index_lt hfixed).2
    cases hclosed : a.isClosed with
    | false =>
      rw [h.onReadFailure_open hfixed hclosed]
      exact (h.idle.advanced hlt false).within rfl hcalls
        (hsweeps.swept.advanced h.unit hfixed rfl) hsweeps.headers hsweeps.chunks hanswered
    | true =>
      by_cases hmade : ∃ session, a.replacement = .session session
      · obtain ⟨session, hmade⟩ := hmade
        have hcalls' : calls (replaced { s with pending := [] } session).log = before :=
          (calls_append _ _).trans ((List.append_nil _).trans hcalls)
        have hu := h.idle.replaced session
        rw [h.onReadFailure_closed hfixed hclosed hmade]
        split_ifs with hretry
        · exact Unselected.within { hu with } rfl hcalls'
            (hsweeps.swept.repeated h.unit hfixed hretry rfl rfl) hsweeps.headers hsweeps.chunks
            hanswered
        · exact (hu.advanced hlt false).within rfl hcalls'
            (hsweeps.swept.advanced h.unit hfixed rfl) hsweeps.headers hsweeps.chunks hanswered
      · obtain ⟨error, -, hfailure⟩ := h.unreplaced_eq hfixed hclosed (not_exists.1 hmade)
        rw [hfailure]
        refine .over (h.idle.tell.over (.failed error)) ?_ hbounded hanswered.le
        rw [calls_ended (c := c) _ (.failed error)]
        exact (calls_append _ _).trans ((List.append_nil _).trans hcalls)

theorem bounded_nothing (c : Config) : Bounded c {} :=
  ⟨⟨fun _ => ⟨Nat.zero_le _, by simp⟩, fun _ => Nat.zero_le _⟩, .nil, Nat.zero_le _,
    Nat.zero_le _⟩

/-- The scan starts. -/
theorem start_within (c : Config) (a : Answers) :
    Within c (ScanState.startInLoop c a { started := true })
      (Tally.charge [] (ScanState.startInLoop c a { started := true }) {}) 0 := by
  have hready (s' : ScanState) : s'.Ready c [] :=
    ⟨fun _ => .inl (List.nil_sublist _), fun _ => rfl⟩
  by_cases hmade : ∃ session, a.subscription = .session session
  · obtain ⟨k, hmade⟩ := hmade
    have hu := acquired_unselected k
    cases hclosed : a.isClosed with
    | false =>
      rw [start_open hmade hclosed]
      exact hu.within rfl rfl (hready _) rfl rfl rfl
    | true =>
      rw [start_closed hmade hclosed]
      obtain ⟨session, -, heq⟩ | ⟨-, error, heq⟩ := replaceClosedSession_eq (a := a) hu.toOpen
      · rw [heq]
        exact (hu.replaced session).within rfl rfl (hready _) rfl rfl rfl
      · rw [heq]
        exact .over (hu.tell.over (.failed error)) (calls_ended (c := c) _ (.failed error))
          (bounded_nothing c) le_rfl
  · have hover := (start_unacquired (c := c) (not_exists.1 hmade)).1
    obtain ⟨error, heq⟩ := start_unacquired_eq (c := c) (not_exists.1 hmade)
    refine .over hover ?_ (bounded_nothing c) le_rfl
    rw [heq, calls_ended (c := c) _ (.failed error)]
    rfl

theorem Within.bounded (h : Within c s t answered) : Bounded c t := by
  cases h with
  | idle _ ht _ => rw [ht]; exact bounded_nothing c
  | sweeping hs hsweeps _ => exact hsweeps.bounded hs.unit
  | walking hw hprobes hspending _ =>
    have hcollected := hw.collected
    exact hw.bounded (by omega) hspending hprobes
  | ended _ hbounded _ => exact hbounded

/-- A scan that has no read to wait for has not started or is over. -/
theorem Within.finished (h : Within c s t answered) (hstarted : s.started = true)
    (hpending : s.pending = []) : s.finished = true := by
  cases h with
  | idle hidle _ _ => rw [hidle] at hstarted; cases hstarted
  | sweeping hs _ _ => exact absurd (hs.pending.symm.trans hpending) (by simp)
  | walking hw _ _ _ => exact absurd (hw.pending.symm.trans hpending) (by simp)
  | ended hover _ _ => exact hover.finished

theorem Within.answered_le (h : Within c s t answered) : answered ≤ t.total := by
  cases h with
  | idle _ _ ha => omega
  | sweeping _ _ ha => omega
  | walking _ _ _ ha => omega
  | ended _ _ ha => exact ha

/-- An event that is not for the scan leaves it as it is. -/
theorem Within.unheeded (h : Within c s t answered) {s' : ScanState} (hs : s' = s) :
    Within c s' (t.charge (calls s.log) s') answered := by
  rw [hs, charge_none rfl]
  exact h

theorem Bound.heeds_reply (h : s.Bound k) (hn : n ∈ s.pending) (registers : Registers)
    (a : Answers) : s.Heeds (.reply n registers a) = true := by
  simp [Heeds, h.finished, hn]

theorem Bound.heeds_failure (h : s.Bound k) (hn : n ∈ s.pending) (a : Answers) :
    s.Heeds (.failure n a) = true := by
  simp [Heeds, h.finished, hn]

/-- Every event keeps the bounds. -/
theorem Within.step (h : Within c s t answered) (e : Event) :
    Within c (Sunspec.step c s e) (t.charge (calls s.log) (Sunspec.step c s e))
      (answered + (s.Heeds e).toNat) := by
  cases h with
  | idle hidle ht hanswered =>
    have hopen : s.Heeds e = false := by
      rw [hidle]
      cases e <;> rfl
    rw [hopen, hanswered, ht]
    rw [Idle] at hidle
    rw [hidle]
    cases e with
    | startInLoop a =>
      cases s.cancelled with
      | false => exact start_within c a
      | true => exact .over (idle_cancelled_over (a := a)) rfl (bounded_nothing c) le_rfl
    | reply n registers a => exact .idle rfl rfl rfl
    | failure n a => exact .idle rfl rfl rfl
    | cancel => cases s.cancelled <;> exact .idle rfl rfl rfl
  | ended hover hbounded hanswered =>
    obtain ⟨hover', hlog, -⟩ := hover.step e
    have hheeds : s.Heeds e = false := by cases e <;> simp [Heeds, hover.finished]
    rw [hheeds]
    exact .over hover' (by rw [hlog]) hbounded hanswered
  | sweeping hs hsweeps hanswered =>
    have h := Within.sweeping hs hsweeps hanswered
    cases e with
    | startInLoop a => exact h.unheeded (by simp [Sunspec.step, hs.started])
    | reply n registers a =>
      by_cases hn : n ∈ s.pending
      · rw [hs.toBound.heeds_reply hn]
        rw [hs.pending, List.mem_singleton] at hn
        exact hn ▸ hs.reply_within rfl hsweeps hanswered registers
      · rw [show s.Heeds (.reply n registers a) = false by simp [Heeds, hn]]
        exact h.unheeded (if_neg hn)
    | failure n a =>
      by_cases hn : n ∈ s.pending
      · rw [hs.toBound.heeds_failure hn]
        rw [hs.pending, List.mem_singleton] at hn
        exact hn ▸ hs.failure_within rfl hsweeps hanswered
      · rw [show s.Heeds (.failure n a) = false by simp [Heeds, hn]]
        exact h.unheeded (if_neg hn)
    | cancel =>
      change Within c s.cancel (t.charge _ s.cancel) answered
      rw [cancel_open hs.toOpen hs.cancelled]
      exact .over ((hs.over .completed).withCancelled true) (calls_ended (c := c) _ .completed)
        h.bounded h.answered_le
  | walking hw hprobes hspending hanswered =>
    have h := Within.walking hw hprobes hspending hanswered
    cases e with
    | startInLoop a => exact h.unheeded (by simp [Sunspec.step, hw.started])
    | reply n registers a =>
      by_cases hn : n ∈ s.pending
      · rw [hw.toBound.heeds_reply hn]
        rw [hw.pending, List.mem_singleton] at hn
        exact hn ▸ hw.reply_within rfl hprobes hspending hanswered registers
      · rw [show s.Heeds (.reply n registers a) = false by simp [Heeds, hn]]
        exact h.unheeded (if_neg hn)
    | failure n a =>
      by_cases hn : n ∈ s.pending
      · rw [hw.toBound.heeds_failure hn]
        rw [hw.pending, List.mem_singleton] at hn
        exact hn ▸ hw.failure_within rfl h.bounded hanswered.le
      · rw [show s.Heeds (.failure n a) = false by simp [Heeds, hn]]
        exact h.unheeded (if_neg hn)
    | cancel =>
      change Within c s.cancel (t.charge _ s.cancel) answered
      rw [cancel_open hw.toOpen hw.cancelled]
      exact .over ((hw.over .completed).withCancelled true) (calls_ended (c := c) _ .completed)
        h.bounded h.answered_le

end ScanState

/-- The most reads a scan asks for. -/
def Config.maxReads (c : Config) : ℕ :=
  (if c.fixedUnitId = none then 2 * 247 else 1) + 2 * c.options.maxModels +
    c.options.maxRegisterSpan / 125

theorem Bounded.total_le {t : Tally} (h : Bounded c t) : t.total ≤ c.maxReads := by
  have hheaders := h.headers
  have hchunks := h.chunks
  unfold Tally.total Config.maxReads
  split_ifs with hfixed
  · have hprobes := (h.probes.sweep hfixed).1
    omega
  · have hprobes := h.probes.fixed (Option.isSome_iff_ne_none.2 hfixed)
    omega

/-- In every run a scan keeps to its bounds: of the probes of each unit, of the headers,
whose addresses grow, and of the other chunks. It goes on over so many answers only,
and where it waits for none, it has finished. -/
theorem scans_terminate {m : Metered} (hm : (meteredMachine c).Reachable m) :
    Bounded c m.tally ∧ m.answered ≤ m.tally.total ∧ m.tally.total ≤ c.maxReads ∧
      (m.scan.started = true → m.scan.pending = [] → m.scan.finished = true) := by
  have hinvariant : (meteredMachine c).Invariant
      fun m => ScanState.Within c m.scan m.tally m.answered := by
    constructor
    · rintro m rfl
      exact .idle rfl rfl rfl
    · intro m e h _
      exact h.step e
  have h := hinvariant.reachable hm
  exact ⟨h.bounded, h.answered_le, h.bounded.total_le, h.finished⟩

theorem scans_terminate_chain :
    let m := chainRun.foldl (Metered.next .single) {}
    m.tally = { probes := [7], headers := [40069, 40073, 40075, 40207], chunks := 4 } ∧
      m.answered = 9 ∧ Bounded .single m.tally ∧ m.scan.finished = true := by
  intro m
  have hm : (meteredMachine .single).Reachable m :=
    Machine.Reachable.foldl (fun _ _ => trivial) (.init rfl) chainRun
  obtain ⟨hbounded, -, -, hfinished⟩ := scans_terminate hm
  exact ⟨by decide +kernel, by decide +kernel, hbounded,
    hfinished (by decide +kernel) (by decide +kernel)⟩

end Neubau.Sunspec
