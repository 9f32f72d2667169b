import Neubau.Sunspec.ScannerSpec
import Neubau.Transition.History

/-! One logical read on its own. A reader is started once, the flow of each chunk
read it asks for brings registers and then completes, or fails, and `cancel()` comes
at any moment. However that goes, one of its two callbacks is called at most,
and success only with what all chunks brought. Answered from a memory, the reader
brings what one plain read of the memory would. -/

namespace Neubau.Sunspec

open Neubau.Common Neubau.Transition
open Neubau.Modbus.Session (Registers)

namespace ChunkedRead

/-- What a reader does, and what it hears. -/
inductive Entry
  | read (address count : UInt16)
  | reply (registers : Registers)
  | refused
  | cancelled
  | success (registers : Registers)
  | failure
  deriving DecidableEq, Repr

/-- The flow a reader collects. Between `on_next` and `on_completed` it has delivered. -/
inductive Chunk
  | none
  | subscribed (address count : UInt16)
  | delivered
  deriving DecidableEq, Repr

structure Reading where
  reader : LogicalRegisterReader
  started : Bool := false
  chunk : Chunk := .none
  log : List Entry := []
  deriving DecidableEq, Repr

inductive Event
  | start
  | onNext (registers : Registers)
  | onCompleted
  | onError
  | cancel
  deriving DecidableEq, Repr

namespace Reading

/-- A reader of `count` registers from `address`; its success callback is `callback`. -/
def create (callback : ReadSuccess) (unitId : UInt8) (address count : UInt32) : Reading where
  reader :=
    { session := some 0, unitId, nextAddress := address.toNat, remaining := count.toNat,
      success := some callback }

/-- What the reader does after a callback. -/
def act (s : Reading) : LogicalRegisterReader × ReaderAction → Reading
  | (reader, .nothing) => { s with reader }
  | (reader, .read address count) =>
    { s with
      reader
      chunk := .subscribed address count
      log := s.log ++ [.read address count] }
  | (reader, .success _ registers) => { s with reader, log := s.log ++ [.success registers] }
  | (reader, .failure) => { s with reader, log := s.log ++ [.failure] }

def Enabled (s : Reading) : Event → Prop
  | .start => s.started = false
  | .onNext _ | .onError => ∃ address count, s.chunk = .subscribed address count
  | .onCompleted => s.chunk = .delivered
  | .cancel => True

/-- A `cancel()` from inside a callback of the reader is one right behind it: the
reader has nothing left to do there. -/
def next (s : Reading) : Event → Reading
  | .start => { s with started := true }.act s.reader.next
  | .onNext registers =>
    match s.chunk with
    | .subscribed _ count =>
      { s with chunk := .delivered, log := s.log ++ [Entry.reply registers] }.act
        (s.reader.onNext count.toNat registers)
    | _ => s
  | .onCompleted => { s with chunk := .none }.act s.reader.next
  | .onError => { s with chunk := .none, log := s.log ++ [Entry.refused] }.act s.reader.fail
  | .cancel => { s with reader := s.reader.cancel, log := s.log ++ [.cancelled] }

end Reading

def machine (callback : ReadSuccess) (unitId : UInt8) (address count : UInt32) :
    Machine Reading Event where
  init s := s = .create callback unitId address count
  enabled := Reading.Enabled
  next := Reading.next

/-! ### Logs -/

/-- The ranges of registers read. -/
def reads (log : List Entry) : List (ℕ × ℕ) :=
  log.filterMap fun
    | .read address count => some (address.toNat, count.toNat)
    | _ => none

def replies (log : List Entry) : List Registers :=
  log.filterMap fun
    | .reply registers => some registers
    | _ => none

/-- A call of one of the two callbacks. -/
def Entry.isCall : Entry → Bool
  | .success _ | .failure => true
  | _ => false

def Entry.isTraffic : Entry → Bool
  | .read _ _ | .reply _ => true
  | _ => false

/-- Nothing happened but reads and their replies. -/
def Busy (log : List Entry) : Prop := ∀ e ∈ log, e.isTraffic = true

/-- The reads of `got` registers from `a` on, one behind the other. -/
structure Covers (a got : ℕ) (reads : List (ℕ × ℕ)) : Prop where
  count : reads.length = (got + 124) / 125
  sizes : ∀ r ∈ reads, 1 ≤ r.2 ∧ r.2 ≤ 125
  bounds : ∀ r ∈ reads, r.1 + r.2 ≤ 65536
  ranges : reads.flatMap (fun r => List.range' r.1 r.2) = List.range' a got

/-- Every reply has the size its read asked for. -/
def Sized (reads : List (ℕ × ℕ)) (replies : List Registers) : Prop :=
  List.Forall₂ (fun r registers => registers.length = r.2) reads replies

/-- What the reader of `n` registers from `a` on may do after a history. -/
def Allowed (a n : ℕ) (before : List Entry) : Entry → Prop
  | .read address count => address.toNat + count.toNat ≤ 65536
  | .success registers =>
    Busy before ∧ Covers a n (reads before) ∧ Sized (reads before) (replies before) ∧
      registers = (replies before).flatten
  | .failure => ∀ e ∈ before, e.isCall = false ∧ e ≠ .cancelled
  | _ => True

section

variable {log : List Entry} {a n got : ℕ} {address count : UInt16} {registers : Registers}

@[simp] theorem reads_read : reads (log ++ [Entry.read address count]) =
    reads log ++ [(address.toNat, count.toNat)] := by simp [reads]

@[simp] theorem reads_reply : reads (log ++ [Entry.reply registers]) = reads log := by simp [reads]

@[simp] theorem replies_read : replies (log ++ [Entry.read address count]) = replies log := by
  simp [replies]

@[simp] theorem replies_reply :
    replies (log ++ [Entry.reply registers]) = replies log ++ [registers] := by
  simp [replies]

theorem Busy.snoc (h : Busy log) {e : Entry} (he : e.isTraffic = true) : Busy (log ++ [e]) := by
  intro e' he'
  rcases List.mem_append.1 he' with he' | he'
  · exact h e' he'
  · rwa [List.mem_singleton.1 he']

/-- What is busy has called nothing and was not cancelled. -/
theorem Busy.pending (h : Busy log) : ∀ e ∈ log, e.isCall = false ∧ e ≠ .cancelled := by
  intro e he
  have := h e he
  cases e <;> simp_all [Entry.isTraffic, Entry.isCall]

theorem Covers.nil : Covers a 0 [] := ⟨rfl, by simp, by simp, rfl⟩

/-- The next chunk, behind chunks that were all full. -/
theorem Covers.snoc {rs : List (ℕ × ℕ)} {c : ℕ} (h : Covers a got rs) (hfull : 125 ∣ got)
    (hlow : 1 ≤ c) (hhigh : c ≤ 125) (hend : a + got + c ≤ 65536) :
    Covers a (got + c) (rs ++ [(a + got, c)]) := by
  obtain ⟨k, rfl⟩ := hfull
  constructor
  · rw [List.length_append, h.count, List.length_singleton]
    omega
  · intro r hr
    rcases List.mem_append.1 hr with hr | hr
    · exact h.sizes r hr
    · rw [List.mem_singleton.1 hr]
      exact ⟨hlow, hhigh⟩
  · intro r hr
    rcases List.mem_append.1 hr with hr | hr
    · exact h.bounds r hr
    · rwa [List.mem_singleton.1 hr]
  · rw [List.flatMap_append, h.ranges, List.flatMap_singleton, List.range'_append_1]

/-- A range covered by reads ends with the registers. -/
theorem Covers.end_le {rs : List (ℕ × ℕ)} (h : Covers a n rs) (hn : 1 ≤ n) : a + n ≤ 65536 := by
  have hlast : a + (n - 1) ∈ rs.flatMap (fun r => List.range' r.1 r.2) := by
    rw [h.ranges, List.mem_range'_1]
    omega
  obtain ⟨r, hr, hmem⟩ := List.mem_flatMap.1 hlast
  have hbound := h.bounds r hr
  rw [List.mem_range'_1] at hmem
  omega

end

/-! ### Every run -/

/-- A reader that is not finished has collected what its reads brought so far. -/
structure Collecting (a n : ℕ) (r : LogicalRegisterReader) (rs : List (ℕ × ℕ))
    (found : List Registers) : Prop where
  finished : r.finished = false
  success : ∃ callback, r.success = some callback
  failure : r.failure = true
  covers : Covers a r.registers.length rs
  sized : Sized rs found
  registers : r.registers = found.flatten
  nextAddress : r.nextAddress = a + r.registers.length
  remaining : r.remaining + r.registers.length = n
  full : r.remaining = 0 ∨ 125 ∣ r.registers.length

inductive Phase (a n : ℕ) (s : Reading) : Prop
  | collecting : Busy s.log → Collecting a n s.reader (reads s.log) (replies s.log) →
      s.chunk = (if s.started then .delivered else .none) → Phase a n s
  | waiting {address count : UInt16} {rs : List (ℕ × ℕ)} :
      s.started = true → s.chunk = .subscribed address count → Busy s.log →
      reads s.log = rs ++ [(address.toNat, count.toNat)] →
      Collecting a n s.reader rs (replies s.log) → address.toNat = s.reader.nextAddress →
      count.toNat = s.reader.chunk → 0 < s.reader.remaining →
      s.reader.nextAddress + s.reader.chunk ≤ 65536 → Phase a n s
  | closed : s.reader.finished = true → Phase a n s

structure Sound (a n : ℕ) (s : Reading) : Prop where
  history : History (Allowed a n) s.log
  phase : Phase a n s

section

variable {a n : ℕ} {s : Reading} {r : LogicalRegisterReader} {rs : List (ℕ × ℕ)}
  {found : List Registers} {registers : Registers}

/-- What a collecting reader does next. -/
theorem Collecting.next_cases (h : Collecting a n r rs found) :
    (r.remaining = 0 ∧ ∃ callback, r.next = (r.close, .success callback r.registers)) ∨
    (0 < r.remaining ∧ r.nextAddress + r.chunk ≤ 65536 ∧
      r.next = (r, .read (UInt16.ofNat r.nextAddress) (UInt16.ofNat r.chunk))) ∨
    (0 < r.remaining ∧ 65536 < r.nextAddress + r.chunk ∧ r.next = (r.close, .failure)) := by
  obtain ⟨callback, hsuccess⟩ := h.success
  rcases Nat.eq_zero_or_pos r.remaining with hzero | hpos
  · exact .inl ⟨hzero, callback, LogicalRegisterReader.next_done h.finished hzero hsuccess⟩
  · by_cases hend : r.nextAddress + r.chunk ≤ 65536
    · exact .inr (.inl ⟨hpos, hend, LogicalRegisterReader.next_read h.finished hpos hend⟩)
    · refine .inr (.inr ⟨hpos, by omega, ?_⟩)
      rw [LogicalRegisterReader.next_beyond h.finished hpos (by omega),
        LogicalRegisterReader.fail_open h.finished h.failure]

/-- One more chunk of the right size. -/
theorem Collecting.collect (h : Collecting a n r rs found) (hpos : 0 < r.remaining)
    (hend : r.nextAddress + r.chunk ≤ 65536) (hlen : registers.length = r.chunk) :
    Collecting a n (r.collect registers) (rs ++ [(r.nextAddress, r.chunk)])
      (found ++ [registers]) := by
  have hchunk : r.chunk = min 125 r.remaining := rfl
  have hdvd : 125 ∣ r.registers.length := h.full.resolve_left (by omega)
  have haddress := h.nextAddress
  have hremaining := h.remaining
  have hcollected : (r.collect registers).registers.length = r.registers.length + r.chunk := by
    simp [LogicalRegisterReader.collect, hlen]
  refine ⟨h.finished, h.success, h.failure, ?_, ?_, ?_, ?_, ?_, ?_⟩
  · rw [hcollected, haddress]
    exact h.covers.snoc hdvd (by omega) (by omega) (by omega)
  · exact List.rel_append h.sized (.cons hlen .nil)
  · simp [LogicalRegisterReader.collect, h.registers]
  · rw [hcollected]
    show r.nextAddress + registers.length = _
    omega
  · rw [hcollected]
    show r.remaining - registers.length + _ = _
    omega
  · rw [hcollected]
    show r.remaining - registers.length = 0 ∨ _
    by_cases hlast : r.remaining ≤ 125
    · exact .inl (by omega)
    · exact .inr (by omega)

/-- A collecting reader goes on: with its next chunk, or with its one call. -/
theorem Sound.advance (hstarted : s.started = true) (hhistory : History (Allowed a n) s.log)
    (hbusy : Busy s.log)
    (h : Collecting a n s.reader (reads s.log) (replies s.log)) : Sound a n (s.act s.reader.next) := by
  rcases h.next_cases with ⟨hzero, callback, hnext⟩ | ⟨hpos, hend, hnext⟩ | ⟨-, -, hnext⟩
  · rw [hnext]
    refine ⟨hhistory.snoc ⟨hbusy, ?_, h.sized, h.registers⟩, .closed rfl⟩
    have hall := h.remaining
    rw [hzero, Nat.zero_add] at hall
    exact hall ▸ h.covers
  · have haddress : (UInt16.ofNat s.reader.nextAddress).toNat = s.reader.nextAddress := by
      have hchunk : 0 < s.reader.chunk := by
        unfold LogicalRegisterReader.chunk
        omega
      exact UInt16.toNat_ofNat_of_lt' (show _ < 65536 by omega)
    have hcount : (UInt16.ofNat s.reader.chunk).toNat = s.reader.chunk := by
      unfold LogicalRegisterReader.chunk
      exact UInt16.toNat_ofNat_of_lt' (show _ < 65536 by omega)
    rw [hnext]
    refine ⟨hhistory.snoc ?_, .waiting hstarted rfl (hbusy.snoc rfl) reads_read ?_ haddress hcount hpos
      hend⟩
    · show _ + _ ≤ 65536
      rwa [haddress, hcount]
    · show Collecting a n s.reader _ (replies (s.log ++ _))
      rwa [replies_read]
  · rw [hnext]
    exact ⟨hhistory.snoc hbusy.pending, .closed rfl⟩

/-- A reader that fails is over. -/
theorem Sound.fails (hhistory : History (Allowed a n) s.log)
    (hpending : ∀ e ∈ s.log, e.isCall = false ∧ e ≠ .cancelled)
    (hopen : s.reader.finished = false) (hfailure : s.reader.failure = true) :
    Sound a n (s.act s.reader.fail) := by
  rw [LogicalRegisterReader.fail_open hopen hfailure]
  exact ⟨hhistory.snoc hpending, .closed rfl⟩

/-- A finished reader does nothing more. -/
theorem Sound.idle (hhistory : History (Allowed a n) s.log) (hclosed : s.reader.finished = true) :
    Sound a n (s.act (s.reader, .nothing)) := ⟨hhistory, .closed hclosed⟩

variable {callback : ReadSuccess} {unitId : UInt8} {address count : UInt32}

theorem Sound.create : Sound address.toNat count.toNat (.create callback unitId address count) := by
  refine ⟨.nil, .collecting (by simp [Busy, Reading.create]) ?_ rfl⟩
  exact ⟨rfl, ⟨callback, rfl⟩, rfl, .nil, .nil, rfl, rfl, rfl, .inr (dvd_zero _)⟩

theorem Sound.next (h : Sound a n s) (hn : n < 2 ^ 32) {e : Event} (he : s.Enabled e) :
    Sound a n (s.next e) := by
  obtain ⟨hhistory, hphase⟩ := h
  cases e with
  | start =>
    cases hphase with
    | collecting hbusy h _ => exact .advance (s := { s with started := true }) rfl hhistory hbusy h
    | waiting hstarted _ => exact absurd (hstarted.symm.trans he) (by simp)
    | closed hclosed =>
      show Sound a n (Reading.act _ s.reader.next)
      rw [LogicalRegisterReader.next_of_finished hclosed]
      exact .idle (s := { s with started := true }) hhistory hclosed
  | onNext registers =>
    obtain ⟨address, count, hchunk⟩ := he
    simp only [Reading.next, hchunk]
    have hreplied : History (Allowed a n) (s.log ++ [Entry.reply registers]) :=
      hhistory.snoc trivial
    cases hphase with
    | collecting _ _ hnone =>
      rw [hchunk] at hnone
      split_ifs at hnone
    | @waiting address' count' rs hstarted hchunk' hbusy hreads h haddress hcount hpos hend =>
      obtain ⟨rfl, rfl⟩ := Chunk.subscribed.inj (hchunk.symm.trans hchunk')
      have hbusy' : Busy (s.log ++ [Entry.reply registers]) := hbusy.snoc rfl
      by_cases hlen : registers.length = s.reader.chunk
      · rw [hcount, LogicalRegisterReader.onNext_collect hlen (by omega)
          (by have := h.remaining; omega)]
        refine ⟨hreplied, .collecting hbusy' ?_ (by simp [Reading.act, hstarted])⟩
        show Collecting a n _ (reads (s.log ++ _)) (replies (s.log ++ _))
        rw [reads_reply, replies_reply, hreads, haddress, hcount]
        exact h.collect hpos hend hlen
      · rw [LogicalRegisterReader.onNext, if_pos (by rwa [hcount])]
        exact .fails (s := { s with chunk := .delivered, log := s.log ++ [Entry.reply registers] })
          hreplied hbusy'.pending h.finished h.failure
    | closed hclosed =>
      unfold LogicalRegisterReader.onNext
      split_ifs
      · rw [LogicalRegisterReader.fail_of_finished hclosed]
        exact .idle (s := { s with chunk := .delivered, log := s.log ++ [Entry.reply registers] })
          hreplied hclosed
      · exact ⟨hreplied, .closed hclosed⟩
  | onCompleted =>
    cases hphase with
    | collecting hbusy h hchunk =>
      have hstarted : s.started = true := by
        by_contra hfresh
        exact absurd (hchunk.symm.trans he) (by simp [hfresh])
      exact .advance (s := { s with chunk := .none }) hstarted hhistory hbusy h
    | waiting _ hchunk _ => exact absurd (hchunk.symm.trans he) (by simp)
    | closed hclosed =>
      show Sound a n (Reading.act _ s.reader.next)
      rw [LogicalRegisterReader.next_of_finished hclosed]
      exact .idle (s := { s with chunk := .none }) hhistory hclosed
  | onError =>
    obtain ⟨address, count, hchunk⟩ := he
    have hrefused : History (Allowed a n) (s.log ++ [Entry.refused]) := hhistory.snoc trivial
    cases hphase with
    | collecting _ _ hnone =>
      rw [hchunk] at hnone
      split_ifs at hnone
    | waiting hstarted _ hbusy _ h =>
      refine .fails (s := { s with chunk := .none, log := s.log ++ [Entry.refused] }) hrefused ?_
        h.finished h.failure
      intro e he
      rcases List.mem_append.1 he with he | he
      · exact hbusy.pending e he
      · rw [List.mem_singleton.1 he]
        exact ⟨rfl, by simp⟩
    | closed hclosed =>
      show Sound a n (Reading.act _ s.reader.fail)
      rw [LogicalRegisterReader.fail_of_finished hclosed]
      exact .idle (s := { s with chunk := .none, log := s.log ++ [Entry.refused] }) hrefused hclosed
  | cancel =>
    exact ⟨hhistory.snoc trivial, .closed (LogicalRegisterReader.cancel_finished _)⟩

theorem Sound.reachable (hs : (machine callback unitId address count).Reachable s) :
    Sound address.toNat count.toNat s := by
  have h : (machine callback unitId address count).Invariant (Sound address.toNat count.toNat) := by
    refine ⟨?_, fun t e ht he => ht.next count.toNat_lt he⟩
    rintro t rfl
    exact .create
  exact h.reachable hs

/-- What every run of a reader of `n` registers from `a` on has in common. -/
structure Orderly (a n : ℕ) (log : List Entry) : Prop where
  once : log.countP Entry.isCall ≤ 1
  cancelled : ∀ before after, log = before ++ .cancelled :: after →
    ∀ e ∈ after, e.isCall = false
  answered : ∀ before registers after, log = before ++ .success registers :: after →
    .refused ∉ before ∧ Sized (reads before) (replies before)
  beyond : 1 ≤ n → 65536 < a + n → ∀ registers, .success registers ∉ log
  bounds : ∀ address count, .read address count ∈ log → address.toNat + count.toNat ≤ 65536

/-- A call finds neither a call nor a `cancel()` before it. -/
theorem Allowed.pending {before : List Entry} {e : Entry} (he : e.isCall = true)
    (h : Allowed a n before e) : ∀ e' ∈ before, e'.isCall = false ∧ e' ≠ .cancelled := by
  cases e with
  | success registers => exact h.1.pending
  | failure => exact h
  | _ => cases he

theorem Sound.orderly (h : Sound a n s) : Orderly a n s.log where
  once := h.history.once fun before e he hok e' he' => (hok.pending he e' he').1
  cancelled before after hsplit := h.history.never_after
    (fun before e he hok hmem => (hok.pending he _ hmem).2 rfl) hsplit
  answered before registers after hsplit := by
    obtain ⟨hbusy, -, hsized, -⟩ := h.history.entry hsplit
    exact ⟨fun hmem => absurd (hbusy _ hmem) (by simp [Entry.isTraffic]), hsized⟩
  beyond hn hend registers hmem := by
    obtain ⟨before, after, hsplit⟩ := List.append_of_mem hmem
    obtain ⟨-, hcovers, -, -⟩ := h.history.entry hsplit
    have hle := hcovers.end_le hn
    omega
  bounds address count hmem := by
    obtain ⟨before, after, hsplit⟩ := List.append_of_mem hmem
    exact h.history.entry hsplit

end

/-! ### Answers from a memory -/

/-- One plain read of `n` registers from `a` on. -/
def plain (memory : UInt16 → UInt16) (a n : ℕ) : Registers :=
  (List.range n).map fun i => memory (UInt16.ofNat (a + i))

/-- The chunk reads are all answered from the memory. -/
def Answered (memory : UInt16 → UInt16) (s : Reading) : Event → Prop
  | .onNext registers => ∃ address count, s.chunk = .subscribed address count ∧
      registers = plain memory address.toNat count.toNat
  | .onError | .cancel => False
  | _ => True

/-- The log of a chunked read that did what a plain read does. -/
structure Plain (memory : UInt16 → UInt16) (a n : ℕ) (log : List Entry) : Prop where
  covers : Covers a n (reads log)
  calls : log.filter Entry.isCall = [.success (plain memory a n)]
  last : log.getLast? = some (.success (plain memory a n))

/-- A reader that holds what the memory has, or has delivered all of it. -/
inductive Remembers (memory : UInt16 → UInt16) (a n : ℕ) (s : Reading) : Prop
  | pending : s.reader.finished = false →
      s.reader.registers = plain memory a s.reader.registers.length → Busy s.log →
      Remembers memory a n s
  | done : s.reader.finished = true → s.started = true → s.chunk = .none →
      Plain memory a n s.log → Remembers memory a n s

/-- Twice the chunks to come, and one more event while none is asked for. -/
def Reading.rank (s : Reading) : ℕ :=
  if s.reader.finished then 0
  else 2 * ((s.reader.remaining + 124) / 125) +
    match s.chunk with
    | .subscribed _ _ => 0
    | _ => 1

section

variable {memory : UInt16 → UInt16} {a n : ℕ} {s : Reading}

theorem length_plain (memory : UInt16 → UInt16) (a n : ℕ) : (plain memory a n).length = n := by
  simp [plain]

theorem plain_append (memory : UInt16 → UInt16) (a n m : ℕ) :
    plain memory a n ++ plain memory (a + n) m = plain memory a (n + m) := by
  simp [plain, List.range_add, Nat.add_assoc]

theorem Busy.no_calls {log : List Entry} (h : Busy log) : log.filter Entry.isCall = [] := by
  rw [List.filter_eq_nil_iff]
  intro e he
  simp [(h.pending e he).1]

/-- A reader within the registers goes on to its next chunk or to its success. -/
theorem Remembers.advance (hend : a + n ≤ 65536) (hstarted : s.started = true)
    (hchunk : s.chunk = .none) (hbusy : Busy s.log)
    (h : Collecting a n s.reader (reads s.log) (replies s.log))
    (hplain : s.reader.registers = plain memory a s.reader.registers.length) :
    Remembers memory a n (s.act s.reader.next) ∧
      (s.act s.reader.next).rank < 2 * ((s.reader.remaining + 124) / 125) + 1 := by
  have hall := h.remaining
  rcases h.next_cases with ⟨hzero, callback, hnext⟩ | ⟨hpos, -, hnext⟩ | ⟨hpos, hbeyond, -⟩
  · rw [hnext]
    have hlen : s.reader.registers.length = n := by omega
    rw [hlen] at hplain
    refine ⟨.done rfl hstarted hchunk ⟨?_, ?_, ?_⟩, ?_⟩
    · have hreads : reads (s.log ++ [Entry.success s.reader.registers]) = reads s.log := by
        simp [reads]
      show Covers a n (reads (s.log ++ _))
      rw [hreads]
      exact hlen ▸ h.covers
    · show (s.log ++ [Entry.success s.reader.registers]).filter Entry.isCall = _
      rw [List.filter_append, hbusy.no_calls, hplain]
      rfl
    · show (s.log ++ [Entry.success s.reader.registers]).getLast? = _
      rw [List.getLast?_concat, hplain]
    · simp [Reading.rank, Reading.act, LogicalRegisterReader.close]
  · rw [hnext]
    refine ⟨.pending h.finished hplain (hbusy.snoc rfl), ?_⟩
    simp [Reading.rank, Reading.act, h.finished]
  · have haddress := h.nextAddress
    have hchunk : s.reader.chunk ≤ s.reader.remaining := Nat.min_le_right _ _
    omega

theorem Remembers.next (hend : a + n ≤ 65536) (hsound : Sound a n s) (h : Remembers memory a n s)
    {e : Event} (he : s.Enabled e) (ha : Answered memory s e) :
    Remembers memory a n (s.next e) ∧ (s.next e).rank < s.rank := by
  cases h with
  | done hfinished hstarted hchunk hplain =>
    cases e with
    | start => exact absurd (hstarted.symm.trans he) (by simp)
    | onNext registers => exact absurd he (by simp [Reading.Enabled, hchunk])
    | onCompleted => exact absurd (hchunk.symm.trans he) (by simp)
    | onError => exact ha.elim
    | cancel => exact ha.elim
  | pending hopen hplain hbusy =>
    cases hsound.phase with
    | closed hclosed => exact absurd (hopen.symm.trans hclosed) (by simp)
    | collecting _ hcollecting hchunk =>
      have hrank : s.rank = 2 * ((s.reader.remaining + 124) / 125) + 1 := by
        simp only [Reading.rank, hopen, hchunk]
        cases s.started <;> simp
      rw [hrank]
      cases e with
      | start =>
        rw [if_neg (by simp [show s.started = false from he])] at hchunk
        exact advance (s := { s with started := true }) hend rfl hchunk hbusy hcollecting hplain
      | onNext registers =>
        obtain ⟨address, count, hsubscribed⟩ := he
        rw [hsubscribed] at hchunk
        split_ifs at hchunk
      | onCompleted =>
        have hstarted : s.started = true := by
          by_contra hfresh
          exact absurd (hchunk.symm.trans he) (by simp [hfresh])
        exact advance (s := { s with chunk := .none }) hend hstarted rfl hbusy hcollecting hplain
      | onError => exact ha.elim
      | cancel => exact ha.elim
    | @waiting address count rs hstarted hchunk _ _ hcollecting haddress hcount hpos hbound =>
      cases e with
      | start => exact absurd (hstarted.symm.trans he) (by simp)
      | onNext registers =>
        obtain ⟨address', count', hchunk', rfl⟩ := ha
        obtain ⟨rfl, rfl⟩ := Chunk.subscribed.inj (hchunk.symm.trans hchunk')
        have hlen : (plain memory address.toNat count.toNat).length = s.reader.chunk := by
          rw [length_plain, hcount]
        have hall := hcollecting.remaining
        have hlast := hcollecting.nextAddress
        have hremaining : s.reader.remaining < 2 ^ 32 := by omega
        have hcollect := LogicalRegisterReader.onNext_collect hlen (by omega) hremaining
        rw [← hcount] at hcollect
        simp only [Reading.next, hchunk]
        rw [hcollect]
        refine ⟨.pending hopen ?_ (hbusy.snoc rfl), ?_⟩
        · show s.reader.registers ++ plain memory address.toNat count.toNat =
            plain memory a (s.reader.registers ++ plain memory address.toNat count.toNat).length
          rw [List.length_append, length_plain, ← plain_append, ← hplain, haddress, hlast]
        · simp only [Reading.rank, Reading.act, LogicalRegisterReader.collect, hopen, hchunk,
            Bool.false_eq_true, ↓reduceIte, length_plain, hcount, LogicalRegisterReader.chunk]
          omega
      | onCompleted => exact absurd (hchunk.symm.trans he) (by simp)
      | onError => exact ha.elim
      | cancel => exact ha.elim

/-- A reader whose read is not over waits for something the memory answers. -/
theorem Remembers.goes_on (hsound : Sound a n s) (h : Remembers memory a n s) :
    Plain memory a n s.log ∨ ∃ e, s.Enabled e ∧ Answered memory s e := by
  cases h with
  | done _ _ _ hplain => exact .inl hplain
  | pending hopen _ _ =>
    cases hsound.phase with
    | closed hclosed => exact absurd (hopen.symm.trans hclosed) (by simp)
    | @waiting address count _ _ hchunk =>
      exact .inr ⟨.onNext (plain memory address.toNat count.toNat), ⟨address, count, hchunk⟩,
        address, count, hchunk, rfl⟩
    | collecting _ _ hchunk =>
      cases hstarted : s.started with
      | false => exact .inr ⟨.start, hstarted, trivial⟩
      | true => exact .inr ⟨.onCompleted, hchunk.trans (if_pos hstarted), trivial⟩

theorem Remembers.calls (h : Remembers memory a n s) :
    s.log.filter Entry.isCall <+: [.success (plain memory a n)] := by
  cases h with
  | pending _ _ hbusy => simp [hbusy.no_calls]
  | done _ _ _ hplain => rw [hplain.calls]

variable (callback : ReadSuccess) (unitId : UInt8)

/-- Answered from a memory, a chunked read ends, and it did what the plain read of the
memory does; and whatever its chunk reads bring, a read is orderly. -/
theorem chunked_read_is_plain_read (memory : UInt16 → UInt16) (a n : UInt32) :
    (a.toNat + n.toNat ≤ 65536 → ∀ es s,
      ((machine callback unitId a n).restrict (Answered memory)).Run
        (.create callback unitId a n) es s →
      es.length ≤ 2 * ((n.toNat + 124) / 125) + 1 ∧
      s.log.filter Entry.isCall <+: [.success (plain memory a.toNat n.toNat)] ∧
      (Plain memory a.toNat n.toNat s.log ∨ ∃ e, s.Enabled e ∧ Answered memory s e)) ∧
    ∀ s, (machine callback unitId a n).Reachable s → Orderly a.toNat n.toNat s.log := by
  refine ⟨fun hend es s hrun => ?_, fun s hs => (Sound.reachable hs).orderly⟩
  obtain ⟨m, ⟨⟨hsound, hremembers⟩, -⟩, hle⟩ := hrun.ranked
    (R := fun s m => (Sound a.toNat n.toNat s ∧ Remembers memory a.toNat n.toNat s) ∧ s.rank = m)
    (fun s e m ⟨⟨hsound, h⟩, hm⟩ he => by
      obtain ⟨hnext, hrank⟩ := h.next hend hsound he.1 he.2
      exact ⟨_, hm ▸ hrank, ⟨hsound.next n.toNat_lt he.1, hnext⟩, rfl⟩)
    ⟨⟨.create, .pending rfl rfl (by simp [Busy, Reading.create])⟩, rfl⟩
  have hrank : (Reading.create callback unitId a n).rank = 2 * ((n.toNat + 124) / 125) + 1 := rfl
  exact ⟨by omega, hremembers.calls, hremembers.goes_on hsound⟩

end

end ChunkedRead

end Neubau.Sunspec
