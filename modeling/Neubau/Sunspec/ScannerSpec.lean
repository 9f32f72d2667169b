import Neubau.Sunspec.Scanner

/-! What the functions of the scan do, as equations. An open scan has all its
observers and is bound to its control; ending it is one assignment. A reader
that waits for a chunk asks for the next one, hands over what it collected, or
ends the scan. -/

namespace Neubau.Sunspec

open Neubau.Common
open Neubau.Modbus.Session (Registers)

variable {c : Config} {a : Answers}

namespace LogicalRegisterReader

@[simp] theorem cancel_finished (r : LogicalRegisterReader) : r.cancel.finished = true := by
  unfold cancel
  split_ifs with h
  · exact h
  · rfl

theorem fail_ne_success (r : LogicalRegisterReader) (callback : ReadSuccess)
    (registers : Registers) : r.fail.2 ≠ .success callback registers := by
  unfold fail
  cases r.finished <;> cases r.failure <;> simp

/-- A reader of a positive count asks for a chunk or fails. -/
theorem next_ne_success {r : LogicalRegisterReader} (h : 0 < r.remaining)
    (callback : ReadSuccess) (registers : Registers) :
    r.next.2 ≠ .success callback registers := by
  unfold next
  split_ifs with hf hz
  · nofun
  · omega
  · dsimp only
    split_ifs
    · exact fail_ne_success r callback registers
    · nofun

theorem next_of_finished {r : LogicalRegisterReader} (h : r.finished = true) :
    r.next = (r, .nothing) := if_pos h

theorem fail_of_finished {r : LogicalRegisterReader} (h : r.finished = true) :
    r.fail = (r, .nothing) := if_pos h

/-- The size of the chunk a reader asks for. -/
def chunk (r : LogicalRegisterReader) : ℕ := min 125 r.remaining

theorem next_read {r : LogicalRegisterReader} (hf : r.finished = false) (hr : 0 < r.remaining)
    (hend : r.nextAddress + r.chunk ≤ 65536) :
    r.next = (r, .read (UInt16.ofNat r.nextAddress) (UInt16.ofNat r.chunk)) := by
  have hc : 0 < r.chunk := by unfold chunk; omega
  unfold next
  rw [if_neg (by simp [hf]), if_neg (by omega)]
  exact if_neg (by change ¬(_ ∨ r.nextAddress + r.chunk > 65536); omega)

/-- A reader without its callbacks. -/
def close (r : LogicalRegisterReader) : LogicalRegisterReader :=
  { r with finished := true, success := none, failure := false }

/-- A reader with one more chunk. -/
def collect (r : LogicalRegisterReader) (registers : Registers) : LogicalRegisterReader :=
  { r with
    registers := r.registers ++ registers
    nextAddress := r.nextAddress + registers.length
    remaining := r.remaining - registers.length }

/-- The read a reader asks for. -/
def call (r : LogicalRegisterReader) (session number : ℕ) : ReadCall where
  session := session
  unitId := r.unitId
  address := UInt16.ofNat r.nextAddress
  count := UInt16.ofNat r.chunk
  callback := .reader number

theorem call_count (r : LogicalRegisterReader) (session number : ℕ) :
    (r.call session number).count.toNat = r.chunk := by
  have hc : r.chunk < 65536 := by unfold chunk; omega
  simp [call, Nat.mod_eq_of_lt hc]

/-- A chunk of the size asked for; nothing wraps around. -/
theorem onNext_collect {r : LogicalRegisterReader} {registers : Registers}
    (hlen : registers.length = r.chunk) (hend : r.nextAddress + r.chunk < 2 ^ 32)
    (hremaining : r.remaining < 2 ^ 32) :
    r.onNext r.chunk registers = (r.collect registers, .nothing) := by
  have hc : r.chunk ≤ r.remaining := by unfold chunk; omega
  have h₁ : (r.nextAddress + r.chunk) % 2 ^ 32 = r.nextAddress + r.chunk :=
    Nat.mod_eq_of_lt hend
  have h₂ : (r.remaining + 2 ^ 32 - r.chunk) % 2 ^ 32 = r.remaining - r.chunk := by
    rw [show r.remaining + 2 ^ 32 - r.chunk = r.remaining - r.chunk + 2 ^ 32 by omega,
      Nat.add_mod_right]
    exact Nat.mod_eq_of_lt (by omega)
  rw [onNext, if_neg (by simp [hlen]), h₁, h₂, collect, hlen]

theorem onNext_chunk {r : LogicalRegisterReader} {registers : Registers}
    (hlen : registers.length = r.chunk) (hend : r.nextAddress + r.remaining ≤ 65536) :
    r.onNext r.chunk registers = (r.collect registers, .nothing) := by
  have hc : r.chunk ≤ r.remaining := by unfold chunk; omega
  exact onNext_collect hlen (by omega) (by omega)

/-- A chunk that would end beyond the registers. -/
theorem next_beyond {r : LogicalRegisterReader} (hf : r.finished = false) (hr : 0 < r.remaining)
    (hend : 65536 < r.nextAddress + r.chunk) : r.next = r.fail := by
  unfold next
  rw [if_neg (by simp [hf]), if_neg (by omega)]
  exact if_pos (.inr hend)

theorem next_done {r : LogicalRegisterReader} {callback : ReadSuccess} (hf : r.finished = false)
    (hr : r.remaining = 0) (hs : r.success = some callback) :
    r.next = (r.close, .success callback r.registers) := by
  simp [next, hf, hr, hs, close]

theorem fail_open {r : LogicalRegisterReader} (hf : r.finished = false) (h : r.failure = true) :
    r.fail = (r.close, .failure) := by
  simp [fail, hf, h, close]

end LogicalRegisterReader

namespace ScanState

/-! ### The end of a scan -/

/-- Not ended: every callback is in place, and the control is bound. -/
structure Open (s : ScanState) : Prop where
  finished : s.finished = false
  nextObserver : s.nextObserver = true
  completeObserver : s.completeObserver = true
  errorObserver : s.errorObserver = true
  bindCancellation : s.bindCancellation = true
  cancellation : s.cancellation = true

/-- The readers after `releaseResources`. -/
def releasedReaders (s : ScanState) : List LogicalRegisterReader :=
  match s.activeReader with
  | some n => s.readers.modify n LogicalRegisterReader.cancel
  | none => s.readers

/-- The scan after its end, which told the observer `ending`. -/
def ended (s : ScanState) (ending : List Effect) : ScanState :=
  { s with
    finished := true
    nextObserver := false
    completeObserver := false
    errorObserver := false
    bindCancellation := false
    cancellation := false
    activeReader := none
    readers := s.releasedReaders
    log := s.log ++ .finished :: ending }

theorem releaseResources_eq {s : ScanState} (h : s.bindCancellation = true) :
    s.releaseResources = { s with
      bindCancellation := false
      cancellation := false
      activeReader := none
      readers := s.releasedReaders } := by
  unfold releaseResources releasedReaders
  cases ha : s.activeReader <;> simp [h, ha]

theorem complete_open {s : ScanState} (h : s.Open) : s.complete = s.ended [.onCompleted] := by
  unfold complete
  rw [if_neg (by simp [h.finished])]
  dsimp only
  rw [releaseResources_eq (by exact h.bindCancellation)]
  simp [tell, ended, h.completeObserver, releasedReaders]

theorem fail_open {s : ScanState} (h : s.Open) (error : Exception) :
    s.fail error = s.ended [.onError error] := by
  unfold fail
  rw [if_neg (by simp [h.finished])]
  dsimp only
  rw [releaseResources_eq (by exact h.bindCancellation)]
  simp [tell, ended, h.errorObserver, releasedReaders]

theorem cancel_open {s : ScanState} (h : s.Open) (hc : s.cancelled = false) :
    s.cancel = ended { s with cancelled := true } [.onCompleted] := by
  unfold cancel
  rw [if_neg (by simp [hc])]
  dsimp only
  rw [if_pos h.cancellation]
  exact complete_open ⟨h.1, h.2, h.3, h.4, h.5, h.6⟩

/-- The candidate of a scan. -/
def thing (c : Config) (s : ScanState) (session : ℕ) (unitId : UInt8) : SunspecThing where
  endpoint := c.endpoint session
  unitId := unitId
  baseAddress := 40000
  modelLocations := s.locations
  manufacturer := s.manufacturer
  model := s.model
  options := s.optionsValue
  version := s.version
  serialNumber := s.serialNumber

/-- The scan with its results moved out; an observer that cancels leaves its mark. -/
def emptied (s : ScanState) (cancelled : Bool) : ScanState :=
  { s with
    locations := []
    manufacturer := []
    model := []
    optionsValue := []
    version := []
    serialNumber := []
    cancelled := cancelled }

theorem emit_open {s : ScanState} (h : s.Open) (hcancelled : s.cancelled = false) {k : ℕ}
    {header : SelectedHeader} (hk : s.session = some k) (hh : s.selectedHeader = some header) :
    s.emit c a = (s.emptied a.cancels).ended
      [.onNext (s.thing c k header.unitId), .onCompleted] := by
  unfold emit
  rw [if_neg (by simp [h.finished]), hk, hh]
  dsimp only
  rw [releaseResources_eq (by exact h.bindCancellation)]
  cases hc : a.cancels <;>
    simp [tell, ended, emptied, h.completeObserver, h.nextObserver, releasedReaders, cancel,
      hcancelled, thing, hk, hh]

/-! ### Readers of a scan -/

/-- A new reader asks for its first chunk. -/
theorem read_eq {s : ScanState} {k : ℕ} {header : SelectedHeader} (hk : s.session = some k)
    (hh : s.selectedHeader = some header) {address count : ℕ} (hc : 0 < count)
    (hend : address + count ≤ 65536) (success : ReadSuccess) :
    let reader : LogicalRegisterReader := {
      session := some k
      unitId := header.unitId
      nextAddress := address
      remaining := count
      success := some success }
    s.read address count success =
      { s with
        readers := s.readers ++ [reader]
        activeReader := some s.readers.length }.readHoldingRegisters
          (reader.call k s.readers.length) := by
  intro reader
  have hnext : reader.next = (reader, .read (UInt16.ofNat address) (UInt16.ofNat reader.chunk)) :=
    LogicalRegisterReader.next_read rfl hc (by
      have : reader.chunk ≤ count := Nat.min_le_right _ _
      change address + reader.chunk ≤ 65536
      omega)
  unfold read
  rw [hk, hh]
  change act _ _ _ reader.next = _
  rw [hnext]
  simp [act, reader, LogicalRegisterReader.call]

/-- The reader `m` waits for the read `n`, the only one the scan waits for. -/
structure Waits (s : ScanState) (k n m : ℕ) (r : LogicalRegisterReader) (success : ReadSuccess) :
    Prop where
  pending : s.pending = [n]
  call : s.reads[n]? = some (r.call k m)
  reader : s.readers[m]? = some r
  session : r.session = some k
  finished : r.finished = false
  success : r.success = some success
  failure : r.failure = true
  remaining : 0 < r.remaining
  range : r.nextAddress + r.remaining ≤ 65536

theorem act_nothing (f : ScanState → ReadSuccess → Registers → ScanState) (s : ScanState) (n : ℕ)
    (r : LogicalRegisterReader) :
    s.act f n (r, .nothing) = { s with readers := s.readers.set n r } := rfl

variable {s : ScanState} {k n m : ℕ} {r : LogicalRegisterReader} {success : ReadSuccess}

theorem Waits.lt (h : s.Waits k n m r success) : m < s.readers.length :=
  (List.getElem?_eq_some_iff.1 h.reader).1

theorem Waits.onReply (h : s.Waits k n m r success) (registers : Registers) :
    s.onReply c a n registers = { s with pending := [] }.onChunk c a m r.chunk registers := by
  unfold ScanState.onReply
  rw [if_pos (by simp [h.pending]), h.call]
  dsimp only
  rw [LogicalRegisterReader.call_count]
  simp [h.pending, LogicalRegisterReader.call]

/-- A chunk of the size asked for, but not the last. -/
theorem Waits.onReply_more (h : s.Waits k n m r success) {registers : Registers}
    (hlen : registers.length = r.chunk) (hmore : r.chunk < r.remaining) :
    s.onReply c a n registers =
      { s with
        pending := []
        readers := s.readers.set m (r.collect registers) }.readHoldingRegisters
          ((r.collect registers).call k m) := by
  have hnext : (r.collect registers).next = (r.collect registers,
      .read (UInt16.ofNat (r.collect registers).nextAddress)
        (UInt16.ofNat (r.collect registers).chunk)) := by
    have hr := h.range
    refine LogicalRegisterReader.next_read h.finished ?_ ?_
    · simp only [LogicalRegisterReader.collect]
      omega
    · have : (r.collect registers).chunk ≤ (r.collect registers).remaining := Nat.min_le_right _ _
      simp only [LogicalRegisterReader.collect] at this ⊢
      omega
  have hsession : (r.collect registers).session = some k := h.session
  rw [h.onReply, onChunk]
  simp only [h.reader, LogicalRegisterReader.onNext_chunk hlen h.range, act_nothing]
  simp [h.lt, hnext, act, hsession, LogicalRegisterReader.call]

/-- The last chunk: the reader hands over what it collected. -/
theorem Waits.onReply_last (h : s.Waits k n m r success) {registers : Registers}
    (hlen : registers.length = r.chunk) (hlast : r.chunk = r.remaining) :
    s.onReply c a n registers =
      succeed c a { s with
        pending := []
        readers := s.readers.set m (r.collect registers).close } success
          (r.registers ++ registers) := by
  have hnext : (r.collect registers).next = ((r.collect registers).close,
      .success success (r.registers ++ registers)) := by
    refine LogicalRegisterReader.next_done h.finished ?_ h.success
    simp only [LogicalRegisterReader.collect]
    omega
  rw [h.onReply, onChunk]
  simp only [h.reader, LogicalRegisterReader.onNext_chunk hlen h.range, act_nothing]
  simp [h.lt, hnext, act]

/-- The end of the scan cancels a reader that has finished, which changes nothing. -/
theorem Waits.released (h : s.Waits k n m r success) (ha : s.activeReader = some m) :
    releasedReaders { s with pending := [], readers := s.readers.set m r.close } =
      s.readers.set m r.close := by
  have hcancel : r.close.cancel = r.close := if_pos rfl
  simp only [releasedReaders, ha]
  rw [List.modify_eq_set_getElem?, List.getElem?_set_self h.lt]
  simp [hcancel]

/-- A chunk of another size ends the scan. -/
theorem Waits.onReply_bad (h : s.Waits k n m r success) (ho : s.Open)
    (ha : s.activeReader = some m) {registers : Registers} (hlen : registers.length ≠ r.chunk) :
    s.onReply c a n registers =
      { s with pending := [], readers := s.readers.set m r.close }.ended [.onCompleted] := by
  have hfail : r.onNext r.chunk registers = (r.close, .failure) := by
    rw [LogicalRegisterReader.onNext, if_pos hlen,
      LogicalRegisterReader.fail_open h.finished h.failure]
  have hnext : r.close.next = (r.close, .nothing) := LogicalRegisterReader.next_of_finished rfl
  have hopen : Open { s with pending := [], readers := s.readers.set m r.close } :=
    ⟨ho.1, ho.2, ho.3, ho.4, ho.5, ho.6⟩
  rw [h.onReply, onChunk]
  simp only [h.reader, hfail, act]
  rw [complete_open (by exact hopen)]
  simp [ended, h.released ha, h.lt, hnext]

/-- So does a chunk that fails. -/
theorem Waits.onReadFailure (h : s.Waits k n m r success) (ho : s.Open) :
    s.onReadFailure c a n =
      { s with pending := [], readers := s.readers.set m r.close }.ended [.onCompleted] := by
  have hopen : Open { s with pending := [], readers := s.readers.set m r.close } :=
    ⟨ho.1, ho.2, ho.3, ho.4, ho.5, ho.6⟩
  unfold ScanState.onReadFailure
  rw [if_pos (by simp [h.pending]), h.call]
  simp only [LogicalRegisterReader.call, h.reader,
    LogicalRegisterReader.fail_open h.finished h.failure, act]
  rw [complete_open (by simpa [h.pending] using hopen)]
  simp [h.pending]

end ScanState

end Neubau.Sunspec
