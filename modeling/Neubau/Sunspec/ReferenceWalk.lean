import Neubau.Sunspec.ScanSafety

/-! The result of a scan of faithful devices. The reference reads a device's
memory directly: the first unit with an accepted header, then the models of its
chain one after the other. A scan over a session that stays open, whose reads
are answered from the same memories, ends after a bounded number of callbacks
and tells the observer what the reference finds. -/

namespace Neubau.Sunspec

open Neubau.Common Neubau.Transition
open Neubau.Modbus.Session (Registers)

/-- The registers of a unit, by address. -/
abbrev Memory := ℕ → UInt16

def block (memory : Memory) (start count : ℕ) : Registers :=
  (List.range' start count).map memory

/-! ### The reference -/

/-- The models from the header at `address` on, behind those already known. -/
def referenceWalk (limit : ℕ) (memory : Memory) :
    ℕ → ℕ → List ModelLocation → Option (List ModelLocation)
  | budget, address, locations =>
    let id := memory address
    let length := memory (address + 1)
    if limit < address + 2 then none
    else if id = 0xffff then
      if length = 0 then some locations else none
    else
      match budget with
      | 0 => none
      | budget + 1 =>
        if limit < address + 2 + length.toNat then none
        else referenceWalk limit memory budget (address + 2 + length.toNat)
          (locations ++ [locationAt locations address id length])

/-- The length in an accepted header. -/
def headerLength (memory : Memory) : Option UInt16 :=
  if memory 40000 = 0x5375 ∧ memory 40001 = 0x6e53 ∧ memory 40002 = 1 ∧
      (memory 40003 = 65 ∨ memory 40003 = 66) then some (memory 40003)
  else none

/-- The candidate with these models; the strings are in the Common Model. -/
def describe (c : Config) (session : ℕ) (unitId : UInt8) (memory : Memory)
    (locations : List ModelLocation) : SunspecThing where
  endpoint := c.endpoint session
  unitId := unitId
  baseAddress := 40000
  modelLocations := locations
  manufacturer := decodeSunSpecString (block memory 40004 16)
  model := decodeSunSpecString (block memory 40020 16)
  options := decodeSunSpecString (block memory 40036 8)
  version := decodeSunSpecString (block memory 40044 8)
  serialNumber := decodeSunSpecString (block memory 40052 16)

/-- The candidate of a unit whose header was accepted. -/
def referenceThing (c : Config) (session : ℕ) (unitId : UInt8) (memory : Memory)
    (commonLength : UInt16) : Option SunspecThing :=
  (referenceWalk c.limit memory (c.options.maxModels - 1) (40004 + commonLength.toNat)
    [commonLocation commonLength]).map (describe c session unitId memory)

/-- The units that answer, with their memories. -/
abbrev Devices := UInt8 → Option Memory

/-- What the reference finds on the units, in their order: only the first
accepted header counts. -/
def referenceOf (c : Config) (session : ℕ) (devices : Devices) : List UInt8 → Option SunspecThing
  | [] => none
  | unitId :: units =>
    match devices unitId with
    | none => referenceOf c session devices units
    | some memory =>
      match headerLength memory with
      | none => referenceOf c session devices units
      | some commonLength => referenceThing c session unitId memory commonLength

/-- What the reference finds. -/
def reference (c : Config) (session : ℕ) (devices : Devices) : Option SunspecThing :=
  match c.fixedUnitId with
  | some unitId => referenceOf c session devices [unitId]
  | none => referenceOf c session devices unitIds

/-! ### The faithful run -/

/-- The session stays open and answers from the memories; the other units
answer with an exception. -/
def Faithful (session : ℕ) (devices : Devices) (s : ScanState) : Event → Prop
  | .startInLoop a =>
    s.started = false ∧ a.isClosed = false ∧ a.subscription = .session session
  | .reply n registers a =>
    n ∈ s.pending ∧ a.isClosed = false ∧ ∃ call memory, s.reads[n]? = some call ∧
      devices call.unitId = some memory ∧
      registers = block memory call.address.toNat call.count.toNat
  | .failure n a =>
    n ∈ s.pending ∧ a.isClosed = false ∧ ∃ call, s.reads[n]? = some call ∧
      devices call.unitId = none
  | .cancel => False

def faithfulMachine (c : Config) (session : ℕ) (devices : Devices) :
    Machine ScanState Event := (machine c).restrict (Faithful session devices)

/-- What the observer was told. -/
def observed (log : List Effect) : List Effect :=
  log.filter fun
    | .onNext _ | .onCompleted | .onError _ => true
    | _ => false

/-- What the observer of a scan with this result is told. -/
def told : Option SunspecThing → List Effect
  | some thing => [.onNext thing, .onCompleted]
  | none => [.onCompleted]

/-! ### Blocks -/

variable {memory : Memory} {start count : ℕ}

@[simp] theorem length_block (memory : Memory) (start count : ℕ) :
    (block memory start count).length = count := by
  simp [block]

theorem block_append (memory : Memory) (start m n : ℕ) :
    block memory start m ++ block memory (start + m) n = block memory start (m + n) := by
  simp only [block, ← List.map_append]
  rw [List.range'_append_1]

theorem block_drop_take {i j : ℕ} (h : i + j ≤ count) :
    ((block memory start count).drop i).take j = block memory (start + i) j := by
  have hsplit : block memory start count =
      block memory start i ++ (block memory (start + i) j ++
        block memory (start + i + j) (count - i - j)) := by
    rw [block_append, block_append]
    congr 1
    omega
  rw [hsplit, List.drop_left' (length_block _ _ _), List.take_left' (length_block _ _ _)]

theorem block_two (memory : Memory) (start : ℕ) :
    block memory start 2 = [memory start, memory (start + 1)] := rfl

theorem header_of_some {commonLength : UInt16} (h : headerLength memory = some commonLength) :
    (commonLength = 65 ∨ commonLength = 66) ∧
      block memory 40000 4 = [0x5375, 0x6e53, 1, commonLength] := by
  unfold headerLength at h
  split_ifs at h with hheader
  obtain rfl := Option.some_inj.1 h
  obtain ⟨h₀, h₁, h₂, hL⟩ := hheader
  refine ⟨hL, ?_⟩
  change [memory 40000, memory 40001, memory 40002, memory 40003] = _
  rw [h₀, h₁, h₂]

theorem header_of_none (h : headerLength memory = none) :
    isSunspecHeader (block memory 40000 4) = false := by
  rw [← Bool.not_eq_true, isSunspecHeader_iff]
  rintro ⟨commonLength, hL, heq⟩
  have heq' : [memory 40000, memory 40001, memory 40002, memory 40003] =
      [0x5375, 0x6e53, 1, commonLength] := heq
  simp only [List.cons.injEq, and_true] at heq'
  obtain ⟨h₀, h₁, h₂, rfl⟩ := heq'
  rw [headerLength, if_pos ⟨h₀, h₁, h₂, hL⟩] at h
  cases h

/-! ### The reference, step by step -/

variable {limit budget address : ℕ} {locations : List ModelLocation}

theorem referenceWalk_beyond (h : limit < address + 2) :
    referenceWalk limit memory budget address locations = none := by
  rw [referenceWalk.eq_def]
  exact if_pos h

theorem referenceWalk_end (h : address + 2 ≤ limit) (hid : memory address = 0xffff) :
    referenceWalk limit memory budget address locations =
      if memory (address + 1) = 0 then some locations else none := by
  rw [referenceWalk.eq_def]
  dsimp only
  rw [if_neg (by omega), if_pos hid]

theorem referenceWalk_model (h : address + 2 ≤ limit) (hid : memory address ≠ 0xffff)
    (hbudget : 0 < budget) (hend : address + 2 + (memory (address + 1)).toNat ≤ limit) :
    referenceWalk limit memory budget address locations =
      referenceWalk limit memory (budget - 1) (address + 2 + (memory (address + 1)).toNat)
        (locations ++
          [locationAt locations address (memory address) (memory (address + 1))]) := by
  obtain ⟨budget, rfl⟩ := Nat.exists_eq_add_of_lt hbudget
  rw [referenceWalk.eq_def]
  dsimp only
  rw [if_neg (by omega), if_neg hid]
  simp only [Nat.zero_add, Nat.add_sub_cancel]
  rw [if_neg (by omega)]

theorem referenceWalk_unfit (hid : memory address ≠ 0xffff)
    (h : budget = 0 ∨ limit < address + 2 + (memory (address + 1)).toNat + 2) :
    referenceWalk limit memory budget address locations = none := by
  by_cases hin : limit < address + 2
  · exact referenceWalk_beyond hin
  cases budget with
  | zero =>
    rw [referenceWalk.eq_def]
    dsimp only
    rw [if_neg hin, if_neg hid]
  | succ budget =>
    by_cases hend : address + 2 + (memory (address + 1)).toNat ≤ limit
    · rw [referenceWalk_model (by omega) hid (by omega) hend]
      exact referenceWalk_beyond (by omega)
    · rw [referenceWalk.eq_def]
      dsimp only
      rw [if_neg hin, if_neg hid, if_pos (by omega)]

namespace ScanState

variable {c : Config} {k : ℕ} {devices : Devices} {s : ScanState}

/-! ### The prospect of a run -/

/-- The units not probed yet, and the one that is. -/
def remaining (c : Config) (s : ScanState) : List UInt8 :=
  match c.fixedUnitId with
  | some unitId => [unitId]
  | none => unitIds.drop s.unitIndex

/-- What the reference finds from where a walk is. -/
def prospect (c : Config) (s : ScanState) (memory : Memory) (w : Walk) : Option SunspecThing :=
  match w.success with
  | .onCommonModel _ => referenceThing c w.session w.unitId memory w.commonLength
  | .onModelHeader =>
    (referenceWalk c.limit memory (c.options.maxModels - s.locations.length) s.currentAddress
      s.locations).map (describe c w.session w.unitId memory)
  | .onModelPayload nextHeaderAddress _ =>
    (referenceWalk c.limit memory (c.options.maxModels - s.locations.length) nextHeaderAddress
      s.locations).map (describe c w.session w.unitId memory)

/-- The strings of the Common Model were read. -/
def Described (c : Config) (s : ScanState) (k : ℕ) (unitId : UInt8) (memory : Memory) : Prop :=
  s.thing c k unitId = describe c k unitId memory s.locations

/-- A scan of faithful devices that will find `found`, in at most so many callbacks. -/
inductive Prospect (c : Config) (k : ℕ) (devices : Devices) (found : Option SunspecThing) :
    ScanState → ℕ → Prop
  | idle : reference c k devices = found → Prospect c k devices found {} 65785
  | sweeping {s : ScanState} {n : ℕ} {unitId : UInt8} :
      s.Sweeping c k n unitId → referenceOf c k devices (s.remaining c) = found →
      Prospect c k devices found s (65784 - s.unitIndex)
  | walking {s : ScanState} {w : Walk} {memory : Memory} :
      s.Walking c w → w.session = k → devices w.unitId = some memory →
      w.registers = block memory w.start w.registers.length →
      ((∀ commonLength, w.success ≠ .onCommonModel commonLength) →
        s.Described c w.session w.unitId memory) →
      s.prospect c memory w = found →
      Prospect c k devices found s (65536 - (w.start + w.registers.length))
  | ended {s : ScanState} :
      s.Over c → s.pending = [] → observed s.log = told found →
      Prospect c k devices found s 0

theorem observed_ended {before ending : List Effect} (hbusy : ∀ e ∈ before, e.Busy)
    (hend : Ending c ending) : observed (before ++ .finished :: ending) = ending := by
  have hnil : observed before = [] := by
    rw [observed, List.filter_eq_nil_iff]
    intro e he
    cases e with
    | onNext thing => exact absurd (hbusy _ he) id
    | onCompleted => exact absurd (hbusy _ he) id
    | onError error => exact absurd (hbusy _ he) id
    | _ => simp
  have hself : observed (.finished :: ending) = ending := by cases hend <;> rfl
  rw [observed, List.filter_append]
  change observed before ++ observed (.finished :: ending) = ending
  rw [hnil, hself, List.nil_append]

variable {unitId : UInt8} {commonLength : UInt16} {found : Option SunspecThing}

theorem Paused.prospect_ended (h : s.Paused c k unitId commonLength) (hfound : none = found) :
    Prospect c k devices found (s.ended [.onCompleted]) 0 := by
  subst hfound
  exact .ended (h.over .completed) h.pending (observed_ended (c := c) h.log.busy .completed)

/-- Behind a chain the walk finds what the reference finds there. -/
theorem Paused.readModelHeader_prospect (h : s.Paused c k unitId commonLength)
    (hchain : Chain c s.locations s.currentAddress) (hcounted : s.Counted)
    (hdevice : devices unitId = some memory) (hdescribed : s.Described c k unitId memory)
    (hfound : (referenceWalk c.limit memory (c.options.maxModels - s.locations.length)
      s.currentAddress s.locations).map (describe c k unitId memory) = found) :
    ∃ m ≤ 65536 - s.currentAddress, Prospect c k devices found (s.readModelHeader c) m := by
  have hroom := hchain.room
  rw [h.readModelHeader_eq (by omega)]
  split_ifs with hin
  · have hw := h.read (.header hchain hcounted) (by omega) (by omega) hin
    rw [read_eq h.holds h.selectedHeader (by omega) (by have := c.limit_le; omega)] at hw ⊢
    exact ⟨_, le_rfl, .walking hw rfl hdevice rfl (fun _ => hdescribed) hfound⟩
  · rw [referenceWalk_beyond (by omega)] at hfound
    exact ⟨0, Nat.zero_le _, h.prospect_ended hfound⟩

theorem withCommonModel_described (h : s.Paused c k unitId commonLength) :
    (s.withCommonModel commonLength (block memory 40004 commonLength.toNat)).Described
      c k unitId memory := by
  have hL : 64 ≤ commonLength.toNat := by rcases h.commonLength with rfl | rfl <;> decide
  simp only [Described, thing, withCommonModel, describe]
  rw [block_drop_take (by omega), block_drop_take (by omega), block_drop_take (by omega),
    block_drop_take (by omega), block_drop_take (by omega)]

theorem Described.withModel (h : s.Described c k unitId memory) (id length : UInt16) :
    (s.withModel id length).Described c k unitId memory := by
  simpa [Described, thing, describe, ScanState.withModel] using h

/-- One more model, as the reference sees it. -/
theorem Paused.withModel_prospect (h : s.Paused c k unitId commonLength) {id length : UInt16}
    (hnext : Chain c (s.withModel id length).locations
      (s.currentAddress + 2 + length.toNat))
    (hcounted : s.Counted) (hlo : 40004 ≤ s.currentAddress)
    (hdevice : devices unitId = some memory) (hdescribed : s.Described c k unitId memory)
    (hfound : (referenceWalk c.limit memory
      (c.options.maxModels - (s.withModel id length).locations.length)
      (s.currentAddress + 2 + length.toNat) (s.withModel id length).locations).map
        (describe c k unitId memory) = found) :
    (length = 0 → ∃ m ≤ 65536 - (s.currentAddress + 2), Prospect c k devices found
      (readModelHeader c { s.withModel id length with
        currentAddress := s.currentAddress + 2 + length.toNat }) m) ∧
    (length ≠ 0 → ∃ m ≤ 65536 - (s.currentAddress + 2), Prospect c k devices found
      ((s.withModel id length).read (s.currentAddress + 2) length.toNat
        (.onModelPayload (s.currentAddress + 2 + length.toNat) length.toNat)) m) := by
  have hcount := hcounted.withModel id length
  have hdesc := hdescribed.withModel id length
  constructor
  · intro hz
    have hp : Paused c { s.withModel id length with
        currentAddress := s.currentAddress + 2 + length.toNat } k unitId commonLength :=
      { h with }
    obtain ⟨m, hm, hp⟩ := hp.readModelHeader_prospect hnext hcount hdevice hdesc hfound
    exact ⟨m, hm.trans (Nat.sub_le_sub_left (Nat.le_add_right _ _) _), hp⟩
  · intro hz
    have hp : Paused c (s.withModel id length) k unitId commonLength := { h with }
    have hpos : 0 < length.toNat := Nat.pos_of_ne_zero fun h0 => hz (UInt16.toNat_inj.1 h0)
    have hend := hnext.le_limit
    have hlimit := c.limit_le
    have hw := hp.read (.payload hnext hcount) hpos (by omega) hend
    rw [read_eq hp.holds hp.selectedHeader hpos (by omega)] at hw ⊢
    exact ⟨_, le_rfl, .walking hw rfl hdevice rfl (fun _ => hdesc) hfound⟩

/-- A header behind the chain is treated as the reference treats it. -/
theorem Paused.onModelHeader_prospect {a : Answers} (h : s.Paused c k unitId commonLength)
    (hchain : Chain c s.locations s.currentAddress) (hcounted : s.Counted)
    (hin : s.currentAddress + 2 ≤ c.limit)
    (hdevice : devices unitId = some memory) (hdescribed : s.Described c k unitId memory)
    (hfound : (referenceWalk c.limit memory (c.options.maxModels - s.locations.length)
      s.currentAddress s.locations).map (describe c k unitId memory) = found) :
    ∃ m ≤ 65536 - (s.currentAddress + 2), Prospect c k devices found
      (s.onModelHeader c a (block memory s.currentAddress 2)) m := by
  have hroom := hchain.room
  have hlimit := c.limit_le
  obtain ⟨hemit, hstray, hunfit, hempty, hpayload⟩ := h.onModelHeader_eq (a := a) hchain hcounted
    (memory s.currentAddress) (memory (s.currentAddress + 1))
  rw [block_two]
  by_cases hid : memory s.currentAddress = 0xffff
  · rw [referenceWalk_end hin hid] at hfound
    by_cases hz : memory (s.currentAddress + 1) = 0
    · rw [if_pos hz] at hfound
      have hp : Paused c (s.emptied false) k unitId commonLength := { h with cancelled := rfl }
      have htable : Table c (s.thing c k unitId).modelLocations := hchain.table
      have hover := (hp.over (.emitted htable)).withCancelled a.cancels
      rw [hemit hid hz, ← hfound]
      refine ⟨0, Nat.zero_le _, .ended hover h.pending ?_⟩
      rw [Option.map_some, told, ← hdescribed]
      exact observed_ended (c := c) h.log.busy (.emitted htable)
    · rw [if_neg hz] at hfound
      rw [hstray hid hz]
      exact ⟨0, Nat.zero_le _, h.prospect_ended hfound⟩
  by_cases hfits : s.Fits c (memory (s.currentAddress + 1))
  · obtain ⟨hmax, hpay, hend⟩ := hfits
    rw [referenceWalk_model hin hid (by omega) hend, Nat.sub_sub] at hfound
    obtain ⟨hskip, hread⟩ := h.withModel_prospect (.model hchain hid hmax hpay hend) hcounted
      (by omega) hdevice hdescribed
      (by simpa only [ScanState.withModel, List.length_append, List.length_singleton] using hfound)
    by_cases hz : memory (s.currentAddress + 1) = 0
    · rw [hempty hid ⟨hmax, hpay, hend⟩ hz]
      exact hskip hz
    · rw [hpayload hid ⟨hmax, hpay, hend⟩ hz]
      exact hread hz
  · have hnone : referenceWalk c.limit memory (c.options.maxModels - s.locations.length)
        s.currentAddress s.locations = none := by
      refine referenceWalk_unfit hid ?_
      unfold Fits at hfits
      omega
    rw [hnone] at hfound
    rw [hunfit hid hfits]
    exact ⟨0, Nat.zero_le _, h.prospect_ended hfound⟩

/-- What the reader of a walk hands over. -/
theorem Paused.succeed_prospect {a : Answers} {w : Walk}
    (h : s.Paused c w.session w.unitId w.commonLength)
    (hstage : s.Stage c w.commonLength w.success w.start w.count)
    (hlo : 40004 ≤ w.start) (hin : w.start + w.count ≤ c.limit) (hk : w.session = k)
    (hdevice : devices w.unitId = some memory)
    (hdescribed : (∀ commonLength, w.success ≠ .onCommonModel commonLength) →
      s.Described c w.session w.unitId memory)
    (hfound : s.prospect c memory w = found) :
    ∃ m ≤ 65536 - (w.start + w.count), Prospect c k devices found
      (s.succeed c a w.success (block memory w.start w.count)) m := by
  subst hk
  obtain ⟨session, unitId, commonLength, read, reader, success, start, count, registers⟩ := w
  dsimp only at *
  cases hstage with
  | common hloc hinst =>
    have hp : Paused c (s.withCommonModel commonLength
        (block memory 40004 commonLength.toNat)) session unitId commonLength := { h with }
    change ∃ m ≤ _, Prospect c session devices found
      (s.onCommonModel c (block memory 40004 commonLength.toNat) commonLength.toNat) m
    rw [h.onCommonModel_eq hloc hinst (length_block _ _ _)]
    exact hp.readModelHeader_prospect (.common h.commonLength hin)
      (withCommonModel_counted _ _ _) hdevice (withCommonModel_described h) hfound
  | header hchain hcounted =>
    exact h.onModelHeader_prospect hchain hcounted hin hdevice (hdescribed (by simp)) hfound
  | payload hchain hcounted =>
    have hp : Paused c { s with currentAddress := start + count } session unitId commonLength :=
      { h with }
    change ∃ m ≤ _, Prospect c session devices found
      (s.onModelPayload c (block memory start count) (start + count) count) m
    rw [onModelPayload, if_neg (by simp)]
    exact hp.readModelHeader_prospect hchain hcounted hdevice (hdescribed (by simp)) hfound

/-- A walk gets its next chunk from the memory. -/
theorem Walking.reply_prospect {a : Answers} {w : Walk} (h : s.Walking c w) (hk : w.session = k)
    (hdevice : devices w.unitId = some memory)
    (hregisters : w.registers = block memory w.start w.registers.length)
    (hdescribed : (∀ commonLength, w.success ≠ .onCommonModel commonLength) →
      s.Described c w.session w.unitId memory)
    (hfound : s.prospect c memory w = found) {registers : Registers}
    (hreply : registers = block memory (w.start + w.registers.length) w.current.chunk) :
    ∃ m < 65536 - (w.start + w.registers.length), Prospect c k devices found
      (s.onReply c a w.read registers) m := by
  have hcollected := h.collected
  have hupper := h.upper
  have hlimit := c.limit_le
  have hchunk := h.chunk_eq
  have hlen : registers.length = w.current.chunk := by rw [hreply, length_block]
  have hjoin : w.registers ++ registers =
      block memory w.start (w.registers.length + w.current.chunk) := by
    rw [hreply, ← block_append, ← hregisters]
  rcases Nat.lt_or_eq_of_le (show w.current.chunk ≤ w.count - w.registers.length by omega) with
    hmore | hlast
  · have hw := h.reply_more (a := a) hlen hmore
    have hlen' : (w.collect s.reads.length registers).registers.length =
        w.registers.length + w.current.chunk := by
      simp [Walk.collect, hlen]
    refine ⟨_, ?_, .walking hw hk hdevice ?_ ?_ ?_⟩
    · rw [hlen']
      simp only [Walk.collect]
      omega
    · rw [hlen']
      exact hjoin
    · rw [h.waits.onReply_more hlen hmore]
      exact hdescribed
    · rw [h.waits.onReply_more hlen hmore]
      exact hfound
  · rw [h.reply_last hlen hlast, hjoin,
      show w.registers.length + w.current.chunk = w.count by omega]
    have hp := h.pause (r := (w.current.collect registers).close) rfl
    obtain ⟨m, hm, hp⟩ := hp.succeed_prospect (a := a) (h.stage.congr rfl rfl rfl)
      h.lower hupper hk hdevice hdescribed hfound
    exact ⟨m, by omega, hp⟩

/-! ### The sweep -/

theorem Unselected.prospect_ended (h : s.Unselected k) (hpending : s.pending = [])
    (hfound : none = found) : Prospect c k devices found (s.ended [.onCompleted]) 0 := by
  subst hfound
  exact .ended (h.over .completed) hpending (observed_ended (c := c) h.log.busy .completed)

theorem Sweeping.remaining_eq {n : ℕ} (h : s.Sweeping c k n unitId) :
    (c.fixedUnitId.isSome ∧ s.remaining c = [unitId]) ∨
    (c.fixedUnitId = none ∧ s.unitIndex < unitIds.length ∧
      s.remaining c = unitId :: unitIds.drop (s.unitIndex + 1)) := by
  cases hfixed : c.fixedUnitId with
  | some u =>
    have hunit : u = unitId := by
      have := h.unit
      rw [currentUnit, hfixed] at this
      exact Option.some_inj.1 this
    exact .inl ⟨rfl, by simp [remaining, hfixed, hunit]⟩
  | none =>
    obtain ⟨hunit, hlt⟩ := h.index_lt hfixed
    refine .inr ⟨rfl, hlt, ?_⟩
    simp only [remaining, hfixed]
    rw [List.drop_eq_getElem_cons hlt]
    congr 1
    exact Option.some_inj.1 ((List.getElem?_eq_getElem hlt).symm.trans hunit)

/-- The sweep goes on behind a unit without an accepted header. -/
theorem Unselected.advanced_prospect (h : s.Unselected k) (hpending : s.pending = [])
    (hfixed : c.fixedUnitId = none) (hlt : s.unitIndex < unitIds.length)
    (hfound : referenceOf c k devices (unitIds.drop (s.unitIndex + 1)) = found) (b : Bool) :
    ∃ m < 65784 - s.unitIndex, Prospect c k devices found
      ((s.advanced b).probeNextUnit c) m := by
  have hu := h.advanced hlt b
  have hlength := length_unitIds
  cases hunit : (s.advanced b).currentUnit c with
  | some unitId =>
    have hs := hu.sweeping hpending hunit
    rw [hu.probeNextUnit_next hunit] at hs ⊢
    refine ⟨_, ?_, .sweeping hs ?_⟩
    · change 65784 - (s.unitIndex + 1) < _
      omega
    · simp only [remaining, hfixed]
      exact hfound
  | none =>
    obtain ⟨-, hlast⟩ := currentUnit_eq_none hunit hu.index
    have hlast' : s.unitIndex + 1 = unitIds.length := hlast
    rw [hlast', List.drop_length] at hfound
    rw [hu.probeNextUnit_last hfixed hlast]
    exact ⟨0, by omega, hu.prospect_ended hpending hfound⟩

theorem Sweeping.reply_prospect {a : Answers} {n : ℕ} (h : s.Sweeping c k n unitId)
    (hopen : a.isClosed = false) (hdevice : devices unitId = some memory)
    (hfound : referenceOf c k devices (s.remaining c) = found) :
    ∃ m < 65784 - s.unitIndex, Prospect c k devices found
      (s.onReply c a n (block memory 40000 4)) m := by
  have hlength := length_unitIds
  have hindex := h.index
  cases hheader : headerLength memory with
  | some commonLength =>
    obtain ⟨hL, hblock⟩ := header_of_some hheader
    have hp := h.paused hL
    have hpos : 0 < commonLength.toNat := by rcases hL with rfl | rfl <;> decide
    have hthing : referenceThing c k unitId memory commonLength = found := by
      rcases h.remaining_eq with ⟨-, hr⟩ | ⟨-, -, hr⟩ <;>
        simpa only [hr, referenceOf, hdevice, hheader] using hfound
    rw [hblock, h.onReply_header hL, hp.readCommonModel_eq]
    split_ifs with hin
    · have hw := hp.read (.common h.locations h.instances) hpos le_rfl hin
      exact ⟨_, by simp only [beginning]; omega,
        .walking hw rfl hdevice rfl (fun hne => absurd rfl (hne _)) hthing⟩
    · rw [referenceThing, referenceWalk_beyond (by omega)] at hthing
      exact ⟨0, by omega, hp.prospect_ended hthing⟩
  | none =>
    have hr := header_of_none hheader
    rcases h.remaining_eq with ⟨hfixed, hrest⟩ | ⟨hfixed, hlt, hrest⟩
    · rw [hrest] at hfound
      simp only [referenceOf, hdevice, hheader] at hfound
      rw [h.onReply_fixed hr hfixed]
      exact ⟨0, by omega, h.idle.prospect_ended rfl hfound⟩
    · rw [hrest] at hfound
      simp only [referenceOf, hdevice, hheader] at hfound
      rw [h.onReply_open hr hfixed hopen]
      exact h.idle.advanced_prospect rfl hfixed hlt hfound true

theorem Sweeping.failure_prospect {a : Answers} {n : ℕ} (h : s.Sweeping c k n unitId)
    (hopen : a.isClosed = false) (hdevice : devices unitId = none)
    (hfound : referenceOf c k devices (s.remaining c) = found) :
    ∃ m < 65784 - s.unitIndex, Prospect c k devices found (s.onReadFailure c a n) m := by
  have hlength := length_unitIds
  have hindex := h.index
  rcases h.remaining_eq with ⟨hfixed, hrest⟩ | ⟨hfixed, hlt, hrest⟩
  · rw [hrest] at hfound
    simp only [referenceOf, hdevice] at hfound
    rw [h.onReadFailure_fixed hfixed]
    exact ⟨0, by omega, h.idle.prospect_ended rfl hfound⟩
  · rw [hrest] at hfound
    simp only [referenceOf, hdevice] at hfound
    rw [h.onReadFailure_open hfixed hopen]
    exact h.idle.advanced_prospect rfl hfixed hlt hfound false

/-! ### The run -/

theorem start_prospect {a : Answers} (hopen : a.isClosed = false)
    (hmade : a.subscription = .session k) (hfound : reference c k devices = found) :
    Prospect c k devices found (ScanState.startInLoop c a { started := true }) 65784 := by
  have hu := acquired_unselected k
  rw [start_open hmade hopen]
  cases hunit : (acquired k).currentUnit c with
  | none =>
    exact absurd (currentUnit_eq_none hunit hu.index).2 (by rw [length_unitIds]; nofun)
  | some unitId =>
    have hs := hu.sweeping rfl hunit
    rw [hu.probeNextUnit_next hunit] at hs ⊢
    change Prospect c k devices found _
      (65784 - ((acquired k).readHoldingRegisters (probeCall k unitId)).unitIndex)
    refine .sweeping hs ?_
    rw [← hfound]
    unfold remaining reference
    cases c.fixedUnitId <;> rfl

theorem call_block {w : Walk} (h : s.Walking c w) :
    block memory (w.current.call w.session w.reader).address.toNat
      (w.current.call w.session w.reader).count.toNat =
        block memory (w.start + w.registers.length) w.current.chunk := by
  have h₁ := h.collected
  have h₂ := h.upper
  have h₃ := c.limit_le
  rw [w.current.call_count]
  congr 1
  simp only [LogicalRegisterReader.call, Walk.current, UInt16.toNat_ofNat']
  exact Nat.mod_eq_of_lt (by omega)

/-- Every callback of a faithful run brings the scan closer to what the reference finds. -/
theorem Prospect.step {m : ℕ} (h : Prospect c k devices found s m) {e : Event}
    (he : Faithful k devices s e) :
    ∃ m' < m, Prospect c k devices found (step c s e) m' := by
  cases e with
  | cancel => exact absurd he id
  | startInLoop a =>
    obtain ⟨hstarted, hopen, hmade⟩ := he
    cases h with
    | idle hfound => exact ⟨65784, by omega, start_prospect hopen hmade hfound⟩
    | sweeping h _ => exact absurd (hstarted.symm.trans h.started) Bool.false_ne_true
    | walking h => exact absurd (hstarted.symm.trans h.started) Bool.false_ne_true
    | ended h _ _ => exact absurd (hstarted.symm.trans h.started) Bool.false_ne_true
  | reply n registers a =>
    obtain ⟨hn, hopen, call, memory, hcall, hdevice, rfl⟩ := he
    cases h with
    | idle _ => cases hn
    | sweeping h hfound =>
      obtain rfl : n = _ := by simpa [h.pending] using hn
      obtain rfl : call = _ := Option.some_inj.1 (hcall.symm.trans h.call)
      exact h.reply_prospect hopen hdevice hfound
    | walking h hk hmemory hregisters hdescribed hfound =>
      obtain rfl : n = _ := by simpa [h.pending] using hn
      obtain rfl : call = _ := Option.some_inj.1 (hcall.symm.trans h.call)
      obtain rfl : memory = _ := Option.some_inj.1 (hdevice.symm.trans hmemory)
      exact h.reply_prospect hk hmemory hregisters hdescribed hfound (call_block h)
    | ended _ hpending _ => simp [hpending] at hn
  | failure n a =>
    obtain ⟨hn, hopen, call, hcall, hdevice⟩ := he
    cases h with
    | idle _ => cases hn
    | sweeping h hfound =>
      obtain rfl : n = _ := by simpa [h.pending] using hn
      obtain rfl : call = _ := Option.some_inj.1 (hcall.symm.trans h.call)
      exact h.failure_prospect hopen hdevice hfound
    | walking h hk hmemory hregisters hdescribed hfound =>
      obtain rfl : n = _ := by simpa [h.pending] using hn
      obtain rfl : call = _ := Option.some_inj.1 (hcall.symm.trans h.call)
      exact absurd (hdevice.symm.trans hmemory) (by simp)
    | ended _ hpending _ => simp [hpending] at hn

/-- Until it has ended, something can happen to a faithful scan. -/
theorem Prospect.stuck {m : ℕ} (h : Prospect c k devices found s m)
    (hstuck : ∀ e, ¬Faithful k devices s e) : s.finished = true := by
  let a : Answers :=
    { isClosed := false, subscription := .session k, replacement := .null, cancels := false }
  cases h with
  | idle _ => exact absurd ⟨rfl, rfl, rfl⟩ (hstuck (.startInLoop a))
  | @sweeping _ n unitId h _ =>
    have hn : n ∈ s.pending := by simp [h.pending]
    cases hdevice : devices unitId with
    | none => exact absurd ⟨hn, rfl, _, h.call, hdevice⟩ (hstuck (.failure n a))
    | some memory =>
      exact absurd ⟨hn, rfl, _, memory, h.call, hdevice, rfl⟩ (hstuck (.reply n _ a))
  | @walking _ w memory h _ hmemory _ _ _ =>
    have hn : w.read ∈ s.pending := by simp [h.pending]
    exact absurd ⟨hn, rfl, _, memory, h.call, hmemory, rfl⟩ (hstuck (.reply w.read _ a))
  | ended h _ _ => exact h.finished

theorem Prospect.observed {m : ℕ} (h : Prospect c k devices found s m)
    (hf : s.finished = true) : observed s.log = told found := by
  cases h with
  | idle _ => cases hf
  | sweeping h _ => exact absurd (h.finished.symm.trans hf) Bool.false_ne_true
  | walking h => exact absurd (h.finished.symm.trans hf) Bool.false_ne_true
  | ended _ _ hobserved => exact hobserved

end ScanState

/-- A scan of faithful devices ends, whatever the order of its callbacks, and
tells the observer exactly what the reference finds. -/
theorem scan_is_reference_walk (c : Config) (session : ℕ) (devices : Devices) :
    ∃ bound, ∀ es s, (faithfulMachine c session devices).Run {} es s →
      es.length ≤ bound ∧
      ((∀ e, ¬(faithfulMachine c session devices).enabled s e) → s.finished = true) ∧
      (s.finished = true → observed s.log = told (reference c session devices)) := by
  refine ⟨65785, fun es s hr => ?_⟩
  have hidle : ScanState.Prospect c session devices (reference c session devices) {} 65785 :=
    .idle rfl
  obtain ⟨m, hm, hle⟩ := hr.ranked (fun _ _ _ h he => h.step he.2) hidle
  exact ⟨by omega, fun hstuck => hm.stuck fun e he => hstuck e ⟨trivial, he⟩, hm.observed⟩

instance (session : ℕ) (devices : Devices) (s : ScanState) :
    (e : Event) → Decidable (Faithful session devices s e)
  | .startInLoop _ => inferInstanceAs (Decidable (_ ∧ _ ∧ _))
  | .reply n registers a =>
    decidable_of_iff (n ∈ s.pending ∧ a.isClosed = false ∧ (s.reads[n]?).any fun call =>
      (devices call.unitId).any fun memory =>
        registers == block memory call.address.toNat call.count.toNat)
      (by simp [Faithful, Option.any_eq_true])
  | .failure n a =>
    decidable_of_iff (n ∈ s.pending ∧ a.isClosed = false ∧ (s.reads[n]?).any fun call =>
      (devices call.unitId).isNone)
      (by simp [Faithful, Option.any_eq_true])
  | .cancel => inferInstanceAs (Decidable False)

instance (c : Config) (session : ℕ) (devices : Devices) (s : ScanState) (e : Event) :
    Decidable ((faithfulMachine c session devices).enabled s e) :=
  inferInstanceAs (Decidable (True ∧ Faithful session devices s e))

/-- Unit 7 has the registers that it replies with, one behind the other. -/
def chainDevices : Devices := fun unitId =>
  if unitId = 7 then some fun address => chainReplies.flatten.getD (address - 40000) 0 else none

theorem scan_is_reference_walk_chain :
    reference .single 0 chainDevices = some chainThing ∧
      observed (chainRun.foldl (step .single) {}).log = told (some chainThing) := by
  have href : reference .single 0 chainDevices = some chainThing := by decide +kernel
  have hrun : (faithfulMachine .single 0 chainDevices).Run {} chainRun
      (chainRun.foldl (step .single) {}) := Machine.run_of_runs (by decide +kernel)
  obtain ⟨bound, h⟩ := scan_is_reference_walk .single 0 chainDevices
  exact ⟨href, href ▸ (h chainRun _ hrun).2.2 (by decide +kernel)⟩

end Neubau.Sunspec
