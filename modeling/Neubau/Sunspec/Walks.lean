import Neubau.Sunspec.Phases

/-! What a walk does at each of its callbacks. A chunk that is not the last one
extends what the reader collected; the last one pauses the walk and runs the
reader's success callback, which starts the next reader or ends the scan.
Anything else ends the scan. -/

namespace Neubau.Sunspec

open Neubau.Common
open Neubau.Modbus.Session (Registers)

variable {c : Config} {a : Answers}

namespace ScanState

variable {s : ScanState} {k : ℕ} {unitId : UInt8} {commonLength : UInt16}

/-! ### Ends -/

/-- The end of the scan cancels the active reader. -/
theorem released_finished
    (h : ∀ i r, s.readers[i]? = some r → s.activeReader ≠ some i → r.finished = true) :
    ∀ r ∈ s.releasedReaders, r.finished = true := by
  intro r hr
  obtain ⟨i, hi⟩ := List.mem_iff_getElem?.1 hr
  unfold releasedReaders at hi
  cases ha : s.activeReader with
  | none => exact h i r (by simpa [ha] using hi) (by simp [ha])
  | some n =>
    simp only [ha, List.getElem?_modify, Option.map_eq_map, Option.map_eq_some_iff] at hi
    obtain ⟨r', hr', rfl⟩ := hi
    by_cases hn : n = i
    · simp [hn]
    · simp only [hn, ↓reduceIte]
      exact h i r' hr' (by simpa [ha] using hn)

theorem over_of_ended (hstarted : s.started = true)
    (hreaders : ∀ r ∈ s.releasedReaders, r.finished = true) (hbusy : ∀ e ∈ s.log, e.Busy)
    {ending : List Effect} (hend : Ending c ending)
    (hlog : (s.log ++ .finished :: ending).Pairwise (After c)) : (s.ended ending).Over c where
  started := hstarted
  finished := rfl
  cancellation := rfl
  readers := hreaders
  log := ⟨s.log, ending, rfl, hbusy, hend⟩
  pairwise := hlog

theorem Over.withCancelled (h : s.Over c) (b : Bool) : Over c { s with cancelled := b } :=
  ⟨h.1, h.2, h.3, h.4, h.5, h.6⟩

theorem Unselected.over (h : s.Unselected k) {ending : List Effect} (hend : Ending c ending) :
    (s.ended ending).Over c := by
  refine over_of_ended h.started ?_ h.log.busy hend ?_
  · simp [releasedReaders, h.activeReader, h.readers]
  · refine List.pairwise_append.2 ⟨h.log.pairwise,
      pairwise_of_confined (hend.confined 0 0), ?_⟩
    intro e he f _ session unitId commonLength heq
    exact absurd (heq ▸ he) (h.log.unaccepted _ _ _)

theorem Selected.over (h : s.Selected c k unitId commonLength)
    (hreaders : ∀ r ∈ s.releasedReaders, r.finished = true) {ending : List Effect}
    (hend : Ending c ending) : (s.ended ending).Over c :=
  over_of_ended h.started hreaders h.log.busy hend (h.log.pairwise_append (hend.confined _ _))

theorem Paused.over (h : s.Paused c k unitId commonLength) {ending : List Effect}
    (hend : Ending c ending) : (s.ended ending).Over c :=
  h.toSelected.over
    (released_finished fun _ r hi _ => h.readers r (List.mem_of_getElem? hi)) hend

theorem Walking.over {w : Walk} (h : s.Walking c w) {ending : List Effect}
    (hend : Ending c ending) : (s.ended ending).Over c := by
  refine h.toSelected.over (released_finished fun i r hi hne => h.others i r hi ?_) hend
  rintro rfl
  exact hne h.activeReader

/-! ### Callbacks of a paused walk -/

/-- The walk of a new reader. -/
def beginning (s : ScanState) (session : ℕ) (unitId : UInt8) (commonLength : UInt16)
    (success : ReadSuccess) (start count : ℕ) : Walk where
  session := session
  unitId := unitId
  commonLength := commonLength
  read := s.reads.length
  reader := s.readers.length
  success := success
  start := start
  count := count
  registers := []

theorem chunk_confined {w : Walk} (hc : w.registers.length < w.count) (hlo : 40004 ≤ w.start)
    (hhi : w.start + w.count ≤ c.limit) (n : ℕ) :
    (Effect.read (w.current.call w.session n)).Confined c w.session w.unitId := by
  have hlimit := c.limit_le
  have hchunk : w.current.chunk = min 125 (w.count - w.registers.length) := rfl
  have haddress : (w.current.call w.session n).address.toNat = w.start + w.registers.length := by
    simp only [LogicalRegisterReader.call, Walk.current, UInt16.toNat_ofNat']
    exact Nat.mod_eq_of_lt (by omega)
  have hcount := w.current.call_count w.session n
  refine ⟨rfl, rfl, by simp [LogicalRegisterReader.call], ?_⟩
  rw [haddress, hcount, hchunk]
  omega

/-- A new reader asks for its first chunk. -/
theorem Paused.read (h : s.Paused c k unitId commonLength) {success : ReadSuccess}
    {start count : ℕ} (hstage : s.Stage c commonLength success start count) (hpos : 0 < count)
    (hlo : 40004 ≤ start) (hhi : start + count ≤ c.limit) :
    (s.read start count success).Walking c
      (s.beginning k unitId commonLength success start count) := by
  have hlimit := c.limit_le
  have hconfined := chunk_confined (c := c)
    (w := s.beginning k unitId commonLength success start count) hpos hlo hhi s.readers.length
  rw [read_eq h.holds h.selectedHeader hpos (by omega)]
  refine
    { h.toBound with
      selectedHeader := h.selectedHeader
      commonLength := h.commonLength
      log := h.log.append trivial hconfined
      activeReader := rfl
      pending := by simp [readHoldingRegisters, tell, h.pending, beginning]
      call := ?_
      reader := ?_
      others := ?_
      collected := hpos
      lower := hlo
      upper := hhi
      stage := hstage.congr rfl rfl rfl }
  · exact List.getElem?_concat_length
  · exact List.getElem?_concat_length
  · intro i r hi hne
    rcases getElem?_concat_eq_some.1 hi with hi | ⟨rfl, -⟩
    · exact h.readers r (List.mem_of_getElem? hi)
    · exact absurd rfl hne

theorem Paused.readModelHeader_eq (h : s.Paused c k unitId commonLength)
    (hlo : 40000 ≤ s.currentAddress) :
    s.readModelHeader c =
      if s.currentAddress + 2 ≤ c.limit then s.read s.currentAddress 2 .onModelHeader
      else s.ended [.onCompleted] := by
  have hlimit := c.limit_le
  have hspan : isInRegisterSpan c s.currentAddress 2 = true ↔ s.currentAddress + 2 ≤ c.limit := by
    rw [isInRegisterSpan_iff]
    omega
  unfold ScanState.readModelHeader
  by_cases hin : s.currentAddress + 2 ≤ c.limit
  · rw [if_neg (by simp [h.finished, hspan.2 hin]), if_pos hin]
  · rw [if_pos (.inr (by simpa using mt hspan.1 hin)), if_neg hin, complete_open h.toOpen]

theorem Paused.readCommonModel_eq (h : s.Paused c k unitId commonLength) :
    s.readCommonModel c =
      if 40004 + commonLength.toNat ≤ c.limit then
        s.read 40004 commonLength.toNat (.onCommonModel commonLength.toNat)
      else s.ended [.onCompleted] := by
  have hspan : isInRegisterSpan c 40004 commonLength.toNat = true ↔
      40004 + commonLength.toNat ≤ c.limit := by
    rw [isInRegisterSpan_iff]
    omega
  unfold ScanState.readCommonModel
  simp only [h.selectedHeader, Option.bind_some, List.getElem?_cons_succ, List.getElem?_cons_zero]
  by_cases hin : 40004 + commonLength.toNat ≤ c.limit
  · rw [if_neg (by simp [hspan.2 hin]), if_pos hin]
  · rw [if_pos (by simpa using mt hspan.1 hin), if_neg hin, complete_open h.toOpen]

/-- The scan with the Common Model's strings and its location. -/
def withCommonModel (s : ScanState) (commonLength : UInt16) (registers : Registers) : ScanState :=
  { s with
    manufacturer := decodeSunSpecString ((registers.drop 0).take 16)
    model := decodeSunSpecString ((registers.drop 16).take 16)
    optionsValue := decodeSunSpecString ((registers.drop 32).take 8)
    version := decodeSunSpecString ((registers.drop 40).take 8)
    serialNumber := decodeSunSpecString ((registers.drop 48).take 16)
    locations := [commonLocation commonLength]
    instances := (∅ : Finmap fun _ : UInt16 => ℕ).insert 1 1
    currentAddress := 40004 + commonLength.toNat }

theorem Paused.onCommonModel_eq (h : s.Paused c k unitId commonLength) (hloc : s.locations = [])
    (hinst : s.instances = ∅) {registers : Registers}
    (hlen : registers.length = commonLength.toNat) :
    s.onCommonModel c registers commonLength.toNat =
      (s.withCommonModel commonLength registers).readModelHeader c := by
  have haddress : (40004 + commonLength.toNat) % 2 ^ 32 = 40004 + commonLength.toNat :=
    Nat.mod_eq_of_lt (by have := commonLength.toNat_lt; omega)
  have hmax := c.options.maxModels_pos
  unfold ScanState.onCommonModel
  rw [if_neg (by simp [h.finished, hlen, hloc]; omega)]
  dsimp only
  rw [hloc, hinst, if_neg Finmap.notMem_empty, haddress, UInt16.ofNat_toNat]
  rfl

/-- The scan with one more location. -/
def withModel (s : ScanState) (id length : UInt16) : ScanState :=
  { s with
    instances := s.instances.insert id (occurrences s.locations id + 1)
    locations := s.locations ++ [locationAt s.locations s.currentAddress id length] }

/-- A model may follow the chain. -/
def Fits (c : Config) (s : ScanState) (length : UInt16) : Prop :=
  s.locations.length < c.options.maxModels ∧ s.currentAddress + 2 < 65536 ∧
    s.currentAddress + 2 + length.toNat ≤ c.limit

theorem modelAddresses_eq (hlo : 40000 ≤ s.currentAddress) (hhi : s.currentAddress ≤ c.limit)
    (length : UInt16) :
    s.modelAddresses c length.toNat =
      if s.currentAddress + 2 < 65536 ∧ s.currentAddress + 2 + length.toNat ≤ c.limit then
        some (s.currentAddress + 2, s.currentAddress + 2 + length.toNat)
      else none := by
  have hlimit := c.limit_le
  have hlength := length.toNat_lt
  unfold ScanState.modelAddresses
  rw [if_neg (by omega)]
  simp only [isInRegisterSpan_iff]
  refine if_congr ?_ rfl rfl
  omega

theorem Counted.instances_le (h : s.Counted) {address : ℕ} (hchain : Chain c s.locations address)
    (id : UInt16) : (s.instances.lookup id).getD 0 ≤ 65535 := by
  have h₁ := occurrences_le s.locations id
  have h₂ := hchain.length_lt
  rw [h id]
  omega

/-- The header of a model: the end of the chain, one more model, or the end of the scan. -/
theorem Paused.onModelHeader_eq (h : s.Paused c k unitId commonLength)
    (hchain : Chain c s.locations s.currentAddress) (hcounted : s.Counted) (id length : UInt16) :
    (id = 0xffff → length = 0 → s.onModelHeader c a [id, length] =
      (s.emptied a.cancels).ended [.onNext (s.thing c k unitId), .onCompleted]) ∧
    (id = 0xffff → length ≠ 0 → s.onModelHeader c a [id, length] = s.ended [.onCompleted]) ∧
    (id ≠ 0xffff → ¬s.Fits c length → s.onModelHeader c a [id, length] =
      s.ended [.onCompleted]) ∧
    (id ≠ 0xffff → s.Fits c length → length = 0 → s.onModelHeader c a [id, length] =
      readModelHeader c { s.withModel id length with
        currentAddress := s.currentAddress + 2 + length.toNat }) ∧
    (id ≠ 0xffff → s.Fits c length → length ≠ 0 → s.onModelHeader c a [id, length] =
      (s.withModel id length).read (s.currentAddress + 2) length.toNat
        (.onModelPayload (s.currentAddress + 2 + length.toNat) length.toNat)) := by
  have hroom := hchain.room
  have haddresses := modelAddresses_eq (c := c) (s := s) (by omega) hchain.le_limit length
  have hinst : (s.instances.lookup id).getD 0 = occurrences s.locations id := hcounted id
  have hsmall := hcounted.instances_le hchain id
  have hcount : (occurrences s.locations id + 1) % 2 ^ 32 = occurrences s.locations id + 1 :=
    Nat.mod_eq_of_lt (by omega)
  have hopen := complete_open h.toOpen
  have hfinished : ¬s.finished = true := by simp [h.finished]
  unfold ScanState.onModelHeader
  rw [if_neg hfinished]
  dsimp only
  refine ⟨fun hid hz => ?_, fun hid hz => ?_, fun hid hfits => ?_, fun hid hfits hz => ?_,
    fun hid hfits hz => ?_⟩
  · rw [if_pos hid, if_pos hz, emit_open h.toOpen h.cancelled h.holds h.selectedHeader]
  · rw [if_pos hid, if_neg hz, hopen]
  · rw [if_neg hid]
    by_cases hmax : s.locations.length ≥ c.options.maxModels
    · rw [if_pos hmax, hopen]
    · rw [if_neg hmax, haddresses,
        if_neg (fun hin => hfits ⟨by omega, hin.1, hin.2⟩)]
      exact hopen
  · rw [if_neg hid, if_neg (by have := hfits.1; omega), haddresses, if_pos hfits.2]
    dsimp only
    rw [if_neg (by omega), if_pos hz, hinst, hcount]
    rfl
  · rw [if_neg hid, if_neg (by have := hfits.1; omega), haddresses, if_pos hfits.2]
    dsimp only
    rw [if_neg (by omega), if_neg hz, hinst, hcount]
    rfl

theorem Counted.withModel (h : s.Counted) (id length : UInt16) :
    (s.withModel id length).Counted := by
  intro id'
  simp only [ScanState.withModel, occurrences, List.map_append, List.count_append]
  by_cases hid : id' = id
  · subst hid
    simp [locationAt, Finmap.lookup_insert, occurrences]
  · rw [Finmap.lookup_insert_of_ne _ hid, h id']
    simp [occurrences, locationAt, List.count_cons_of_ne (Ne.symm hid)]

theorem withCommonModel_counted (s : ScanState) (commonLength : UInt16) (registers : Registers) :
    (s.withCommonModel commonLength registers).Counted := by
  intro id
  by_cases hid : id = 1
  · subst hid
    simp [withCommonModel, commonLocation, occurrences, Finmap.lookup_insert]
  · simp only [withCommonModel, Finmap.lookup_insert_of_ne _ hid, Finmap.lookup_empty]
    simp [occurrences, commonLocation, List.count_cons_of_ne (Ne.symm hid)]

/-- Behind a chain the walk reads the next header or ends. -/
theorem Paused.readModelHeader_phase (h : s.Paused c k unitId commonLength)
    (hchain : Chain c s.locations s.currentAddress) (hcounted : s.Counted) :
    Phase c (s.readModelHeader c) := by
  have hroom := hchain.room
  rw [h.readModelHeader_eq (by omega)]
  split_ifs with hin
  · exact .walking (h.read (.header hchain hcounted) (by omega) (by omega) hin)
  · exact .ended (h.over .completed)

theorem Paused.onModelHeader_phase (h : s.Paused c k unitId commonLength)
    (hchain : Chain c s.locations s.currentAddress) (hcounted : s.Counted) (id length : UInt16) :
    Phase c (s.onModelHeader c a [id, length]) := by
  have hroom := hchain.room
  obtain ⟨hemit, hstray, hunfit, hempty, hpayload⟩ :=
    h.onModelHeader_eq (a := a) hchain hcounted id length
  by_cases hid : id = 0xffff
  · by_cases hz : length = 0
    · rw [hemit hid hz]
      have hp : Paused c (s.emptied false) k unitId commonLength :=
        { h with cancelled := rfl }
      exact .ended ((hp.over (.emitted hchain.table)).withCancelled a.cancels)
    · rw [hstray hid hz]
      exact .ended (h.over .completed)
  by_cases hfits : s.Fits c length
  · have hnext : Chain c (s.withModel id length).locations
        (s.currentAddress + 2 + length.toNat) := .model hchain hid hfits.1 hfits.2.1 hfits.2.2
    have hcount : (s.withModel id length).Counted := hcounted.withModel id length
    by_cases hz : length = 0
    · rw [hempty hid hfits hz]
      have hp : Paused c { s.withModel id length with
        currentAddress := s.currentAddress + 2 + length.toNat } k unitId commonLength :=
          { h with }
      exact hp.readModelHeader_phase hnext hcount
    · rw [hpayload hid hfits hz]
      have hp : Paused c (s.withModel id length) k unitId commonLength := { h with }
      have hpos : 0 < length.toNat := Nat.pos_of_ne_zero fun h0 => hz (UInt16.toNat_inj.1 h0)
      exact .walking (hp.read (.payload hnext hcount) hpos (by omega) hfits.2.2)
  · rw [hunfit hid hfits]
    exact .ended (h.over .completed)

/-- What a reader hands over continues the walk or ends it. -/
theorem Paused.succeed_phase (h : s.Paused c k unitId commonLength) {success : ReadSuccess}
    {start count : ℕ} (hstage : s.Stage c commonLength success start count)
    (hend : start + count ≤ c.limit) {registers : Registers} (hlen : registers.length = count) :
    Phase c (s.succeed c a success registers) := by
  cases hstage with
  | common hloc hinst =>
    have hp : Paused c (s.withCommonModel commonLength registers) k unitId commonLength :=
      { h with }
    change Phase c (s.onCommonModel c registers commonLength.toNat)
    rw [h.onCommonModel_eq hloc hinst hlen]
    exact hp.readModelHeader_phase (.common h.commonLength hend)
      (withCommonModel_counted s commonLength registers)
  | header hchain hcounted =>
    obtain ⟨id, length, rfl⟩ := List.length_eq_two.1 hlen
    exact h.onModelHeader_phase hchain hcounted id length
  | payload hchain hcounted =>
    have hp : Paused c { s with currentAddress := start + count } k unitId commonLength :=
      { h with }
    change Phase c (s.onModelPayload c registers (start + count) count)
    rw [onModelPayload, if_neg (by simp [hlen])]
    exact hp.readModelHeader_phase hchain hcounted

/-! ### Callbacks of a pending chunk -/

theorem Walking.waits {w : Walk} (h : s.Walking c w) :
    s.Waits w.session w.read w.reader w.current w.success where
  pending := h.pending
  call := h.call
  reader := h.reader
  session := rfl
  finished := rfl
  success := rfl
  failure := rfl
  remaining := Nat.sub_pos_of_lt h.collected
  range := by
    have h₁ := h.collected
    have h₂ := h.upper
    have h₃ := c.limit_le
    simp only [Walk.current]
    omega

theorem Walking.chunk_eq {w : Walk} (_ : s.Walking c w) :
    w.current.chunk = min 125 (w.count - w.registers.length) := rfl

/-- Without its reader a walk pauses. -/
theorem Walking.pause {w : Walk} (h : s.Walking c w) {r : LogicalRegisterReader}
    (hr : r.finished = true) :
    Paused c { s with pending := [], readers := s.readers.set w.reader r }
      w.session w.unitId w.commonLength where
  toSelected := { h with }
  pending := rfl
  readers r' hmem := by
    obtain ⟨i, hi⟩ := List.mem_iff_getElem?.1 hmem
    rw [List.getElem?_set] at hi
    split_ifs at hi with heq hlt
    · obtain rfl := Option.some_inj.1 hi
      exact hr
    · exact h.others i r' hi (Ne.symm heq)

theorem Walking.reply_bad {w : Walk} (h : s.Walking c w) {registers : Registers}
    (hlen : registers.length ≠ w.current.chunk) : (s.onReply c a w.read registers).Over c := by
  rw [h.waits.onReply_bad h.toOpen h.activeReader hlen]
  exact (h.pause rfl).over .completed

theorem Walking.failure {w : Walk} (h : s.Walking c w) :
    (s.onReadFailure c a w.read).Over c := by
  rw [h.waits.onReadFailure h.toOpen]
  exact (h.pause rfl).over .completed

/-- The last chunk: the success callback runs. -/
theorem Walking.reply_last {w : Walk} (h : s.Walking c w) {registers : Registers}
    (hlen : registers.length = w.current.chunk)
    (hlast : w.current.chunk = w.count - w.registers.length) :
    s.onReply c a w.read registers =
      succeed c a { s with
        pending := []
        readers := s.readers.set w.reader (w.current.collect registers).close } w.success
          (w.registers ++ registers) :=
  h.waits.onReply_last hlen hlast

theorem Walk.collect_current (w : Walk) (read : ℕ) (registers : Registers) :
    (w.collect read registers).current = w.current.collect registers := by
  simp only [Walk.collect, Walk.current, LogicalRegisterReader.collect, List.length_append]
  congr 1 <;> omega

/-- Another chunk follows. -/
theorem Walking.reply_more {w : Walk} (h : s.Walking c w) {registers : Registers}
    (hlen : registers.length = w.current.chunk)
    (hmore : w.current.chunk < w.count - w.registers.length) :
    (s.onReply c a w.read registers).Walking c (w.collect s.reads.length registers) := by
  have hcurrent := Walk.collect_current w s.reads.length registers
  have hcollected : (w.collect s.reads.length registers).registers.length < w.count := by
    simp only [Walk.collect, List.length_append]
    omega
  have hconfined := chunk_confined (c := c) (w := w.collect s.reads.length registers)
    hcollected h.lower h.upper w.reader
  rw [h.waits.onReply_more hlen hmore, ← hcurrent]
  refine
    { h.toBound with
      selectedHeader := h.selectedHeader
      commonLength := h.commonLength
      log := h.log.append trivial hconfined
      activeReader := h.activeReader
      pending := rfl
      call := List.getElem?_concat_length
      reader := List.getElem?_set_self h.waits.lt
      others := fun i r hi (hne : i ≠ w.reader) => ?_
      collected := hcollected
      lower := h.lower
      upper := h.upper
      stage := h.stage.congr rfl rfl rfl }
  have hi' : (s.readers.set w.reader (w.collect s.reads.length registers).current)[i]? =
      some r := hi
  rw [List.getElem?_set_ne (Ne.symm hne)] at hi'
  exact h.others i r hi' hne

/-- A reply to a walk leaves a phase. -/
theorem Walking.reply_phase {w : Walk} (h : s.Walking c w) (registers : Registers) :
    Phase c (s.onReply c a w.read registers) := by
  have hchunk := h.chunk_eq
  by_cases hlen : registers.length = w.current.chunk
  · rcases Nat.lt_or_eq_of_le (show w.current.chunk ≤ w.count - w.registers.length by omega) with
      hmore | hlast
    · exact .walking (h.reply_more hlen hmore)
    · have hcollected := h.collected
      rw [h.reply_last hlen hlast]
      have hp := h.pause (r := (w.current.collect registers).close) rfl
      exact hp.succeed_phase (h.stage.congr rfl rfl rfl) h.upper (by rw [List.length_append]; omega)
  · exact .ended (h.reply_bad hlen)

end ScanState

end Neubau.Sunspec
