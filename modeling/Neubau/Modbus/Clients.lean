import Neubau.Modbus.OneShot
import Neubau.Modbus.Segmentation

/-! Two clients for one read: the one-shot client and the first request of a fresh
session. They send the same bytes, and one frame, however it arrives, ends both reads
alike. Where the frame has no valid length, or less than the seven bytes that either looks
at, both report an error, the latter when their response times out. -/

namespace Neubau.Modbus

open Neubau.Common Neubau.Stream
open Neubau.Modbus.Session (Registers readU16 writeU16 error Core Effect Event Request State World)

/-- The unit, the address and the count of a request, with its transaction. -/
def decodeRequest (bytes : Bytes) : Option (UInt16 × UInt8 × UInt16 × UInt16) := do
  if bytes.length ≠ 12 ∨ readU16 bytes 2 ≠ some 0 ∨ readU16 bytes 4 ≠ some 6 ∨
      bytes[7]? ≠ some 0x03 then none
  else return (← readU16 bytes 0, ← bytes[6]?, ← readU16 bytes 8, ← readU16 bytes 10)

/-- Both reads bring the same registers, or both fail. -/
def Agree (told told' : List ReadEvent) : Prop :=
  (∃ registers, told = [.onNext registers, .onCompleted] ∧ told' = told) ∨
  (∃ failure failure', told = [.onError failure] ∧ told' = [.onError failure'])

namespace Exchange

/-- Nothing more arrives: the response timeout runs if it is armed. -/
def expire (x : Exchange) : Exchange := if x.timer then x.onTimeout else x

end Exchange

namespace Session

/-- `ModbusSession::readHoldingRegisters`: what a subscription enqueues. -/
def readHoldingRegisters (unitId : UInt8) (address count : UInt16) : Except Exception Event :=
  if count = 0 ∨ count > 125 then
    .error (.invalidArgument "Modbus reads require between 1 and 125 registers")
  else .ok (.enqueue unitId address count)

/-- What the observer of a read has been told. -/
def observed (observer : ℕ) (log : List Effect) : List ReadEvent :=
  log.flatMap fun
    | .delivered request registers =>
      if request.observer = observer then [.onNext registers, .onCompleted] else []
    | .failed request failure _ => if request.observer = observer then [.onError failure] else []
    | _ => []

/-- Nothing more arrives: the response timeout runs if it is armed, then the callback that
is queued. -/
def State.expire (W : World) (s : State) : State :=
  step W (if s.core.armed = some .response then step W s .responseTimeout else s) .deliver

/-- A session whose one request is on the wire. -/
structure Reading (s : Core) (r : Request) : Prop where
  active : s.active = some r
  queue : s.queue = []
  posted : s.posted = []
  closed : s.closed = false
  awaitingResponse : s.awaitingResponse = true
  timer : s.timer = some .response
  armed : s.armed = some .response

variable {W : World} {s : Core} {r : Request}

theorem deliver_nothing (h : s.posted = []) : s.deliver = s := by
  rw [Core.deliver, h]

theorem expire_unarmed (h : s.armed ≠ some .response) (buffer : Bytes) :
    (State.expire W ⟨s, buffer⟩).core = s.deliver := by
  rw [State.expire, if_neg h]
  rfl

theorem Reading.timedOut (h : Reading s r) (buffer : Bytes) :
    (State.expire W ⟨s, buffer⟩).core.log =
      s.log ++ [Effect.failed r (error "Modbus response timed out") true] := by
  have hfire : s.fire .response = { s with armed := none } := if_pos h.armed
  have htimeout : onResponseTimeout W (s.fire .response) =
      Core.failed { s with armed := none } (error "Modbus response timed out") := by
    rw [hfire, onResponseTimeout, if_pos (by simp [h.closed, h.active, h.awaitingResponse])]
    exact failAll_open (s := { s with armed := none }) h.closed _
  have hexpire : (State.expire W ⟨s, buffer⟩).core =
      (onResponseTimeout W (s.fire .response)).deliver := by
    rw [State.expire, if_pos h.armed]
    rfl
  have hposted : (Core.failed { s with armed := none } (error "Modbus response timed out")).posted
      = [] := by
    simp [Core.failed, Core.disarmTimeout, h.timer, h.posted]
  rw [hexpire, htimeout, deliver_nothing hposted]
  simp [Core.failed, Core.held, h.active, h.queue]

/-- The core with its one request resolved, if its observer does not close the session. -/
def settled (s : Core) (posted : List (Request × Registers)) (e : Effect) : Core :=
  { s with
    timer := none
    armed := none
    awaitingResponse := false
    active := none
    posted
    log := s.log ++ [e] }

theorem Reading.finishActiveSuccess_eq (h : Reading s r) (registers : Registers) :
    finishActiveSuccess W s registers = settled s [(r, registers)] (.posted r registers) := by
  simp [finishActiveSuccess, h.active, Core.disarmTimeout, h.timer, h.closed, h.posted, startNext,
    h.queue, settled]

theorem Reading.finishActiveError_eq (h : Reading s r) (failure : Exception) :
    ∃ t, finishActiveError W s failure = t ∧ t.active = none ∧ t.armed = none ∧ t.posted = [] ∧
      t.log = s.log ++ [Effect.failed r failure false] := by
  refine ⟨_, rfl, ?_⟩
  cases hcloses : W.closes r.observer failure with
  | false =>
    simp [finishActiveError, h.active, Core.disarmTimeout, h.timer, h.closed, h.posted, callFailure,
      hcloses, startNext, h.queue]
  | true =>
    simp [finishActiveError, h.active, Core.disarmTimeout, h.timer, h.closed, h.posted, callFailure,
      hcloses, closeInLoop, failAll_open, Core.failed, Core.held, h.queue]

theorem Reading.succeeds (h : Reading s r) (registers : Registers) :
    (finishActiveSuccess W s registers).active = none ∧
    ∀ buffer, (State.expire W ⟨finishActiveSuccess W s registers, buffer⟩).core.log =
      s.log ++ [Effect.posted r registers, .delivered r registers] := by
  rw [h.finishActiveSuccess_eq]
  refine ⟨rfl, fun buffer => ?_⟩
  rw [expire_unarmed (by simp [settled])]
  simp [settled, Core.deliver]

theorem Reading.fails (h : Reading s r) (failure : Exception) :
    (finishActiveError W s failure).active = none ∧
    ∀ buffer, (State.expire W ⟨finishActiveError W s failure, buffer⟩).core.log =
      s.log ++ [Effect.failed r failure false] := by
  obtain ⟨t, heq, hactive, harmed, hposted, hlog⟩ := h.finishActiveError_eq (W := W) failure
  rw [heq]
  refine ⟨hactive, fun buffer => ?_⟩
  rw [expire_unarmed (by simp [harmed]), deliver_nothing hposted, hlog]

/-- A session that reads nothing ignores what arrives. -/
theorem foldl_onData_idle (hactive : s.active = none) (buffer : Bytes) (chunks : List Bytes) :
    (chunks.foldl (onData W) ⟨s, buffer⟩).core = s := by
  have hkeeps : ∀ {t : State}, t.core = s → ∀ bytes, (onData W t bytes).core = s := by
    intro t ht bytes
    refine onData_keeps (P := (· = s)) ?_ ?_ ht bytes
    · rintro c f - rfl
      exact handleFrame_idle hactive f
    · rintro c - rfl
      exact finishActiveError_idle hactive _
  have hfold : ∀ {t : State}, t.core = s → (chunks.foldl (onData W) t).core = s := by
    induction chunks with
    | nil => exact fun ht => ht
    | cons c cs ih => exact fun ht => ih (hkeeps ht c)
  exact hfold rfl

theorem cut_oneFrame {frame : Bytes} {bodyLength : UInt16}
    (hframe : Exchange.OneFrame frame bodyLength) : framer.cut frame =
      if frame.length < 7 then .wait
      else if bodyLength < 3 ∨ bodyLength > 254 then .bad
      else .frame frame [] := by
  obtain ⟨hread, hlen⟩ := hframe
  show cut frame = _
  simp only [cut, hread]
  rw [if_neg (show ¬frame.length < 6 + bodyLength.toNat by omega),
    List.take_of_length_le (by omega), List.drop_of_length_le (by omega)]

/-- What a session makes of one frame, however it arrives. -/
theorem foldl_onData_oneFrame (hopen : s.closed = false) {frame : Bytes} {bodyLength : UInt16}
    (hframe : Exchange.OneFrame frame bodyLength)
    (hbad : (finishActiveError W s (error "invalid Modbus response length")).active = none)
    {chunks : List Bytes} (hchunks : chunks.flatten = frame) :
    (chunks.foldl (onData W) ⟨s, []⟩).core =
      if frame.length < 7 then s
      else if bodyLength < 3 ∨ bodyLength > 254 then
        finishActiveError W s (error "invalid Modbus response length")
      else handleFrame W s frame := by
  have hpair (t : State) (cs : List Bytes) : (cs.foldl (onData W) t).core =
      (cs.foldl (feed framer (handler W)) t.pair).1 := congrArg Prod.fst (foldl_onData cs t)
  have hrun : (handler W).stopped s = false := hopen
  have hwhole : framer.Clean frame → (chunks.foldl (onData W) ⟨s, []⟩).core =
      (drain framer (handler W) (frame.length + 1) (s, frame)).1 := by
    intro hclean
    subst hchunks
    have hagree := foldl_feed (H := handler W) (p := (s, [])) chunks rfl hclean
    rw [hpair]
    refine hagree.1.trans ?_
    rw [feed_eq hrun (Nat.le_succ _)]
    rfl
  have hcut := cut_oneFrame hframe
  split_ifs at hcut ⊢ with h7 hlimits
  · rw [hwhole (.wait hcut), drain_wait hcut]
  · obtain ⟨after, hafter⟩ := foldl_feed_bad (H := handler W) (p := (s, [])) chunks hrun rfl
      (hchunks ▸ hcut)
    rw [hpair]
    refine (congrArg Prod.fst hafter).trans ?_
    exact (hpair ⟨finishActiveError W s (error "invalid Modbus response length"), []⟩ after).symm.trans
      (foldl_onData_idle hbad [] after)
  · rw [hwhole (.frame hcut (.wait rfl))]
    cases hstop : (handler W).stopped (handleFrame W s frame) with
    | true => rw [drain_frame_stopped hcut hstop]; rfl
    | false =>
      rw [drain_frame_running hcut hstop, drain_wait rfl]
      rfl

end Session

namespace Exchange

/-- What a connected exchange makes of one frame, however it arrives. -/
theorem outcomes_oneFrame {x : Exchange} (hopen : x.finished = false) (hresponse : x.response = [])
    (htimer : x.timer = true) (houtcomes : x.outcomes = []) {frame : Bytes} {bodyLength : UInt16}
    (hframe : OneFrame frame bodyLength) {chunks : List Bytes} (hchunks : chunks.flatten = frame) :
    (chunks.foldl onData x).expire.outcomes =
      [if frame.length < 7 then .error (error "Modbus response timed out")
      else verdict bodyLength frame] := by
  rcases foldl_onData hframe chunks hopen (by rw [hresponse]; exact hchunks)
    (.inl (by simp [hresponse])) with ⟨hshort, heq⟩ | ⟨hlong, hfinished, hlog⟩
  · rw [heq, if_pos hshort, expire, if_pos (by exact htimer), onTimeout,
      outcomes_finish (by exact hopen)]
    exact congrArg (· ++ _) houtcomes
  · have hexpire : (chunks.foldl onData x).expire = chunks.foldl onData x := by
      simp [expire, onTimeout, finish, hfinished]
    rw [hexpire, if_neg (by omega), outcomes, hlog, List.filterMap_append]
    exact congrArg (· ++ _) houtcomes

end Exchange

/-! ### Both clients -/

section

variable {f : OneShot} {frame : Bytes} {bodyLength : UInt16}

/-- A response that both look at is accepted by both, with the same registers, or by none. -/
theorem OneShot.check_agrees (f : OneShot) (hhigh : f.registerCount.toNat ≤ 125)
    (h : 9 ≤ frame.length) :
    (∃ registers, f.check frame = some (.ok registers) ∧
      Session.checkReply f.asRequest frame = some (.ok registers)) ∨
    (∃ failure failure', f.check frame = some (.error failure) ∧
      Session.checkReply f.asRequest frame = some (.error failure')) := by
  have hreply (registers : Registers) : f.check frame = some (.ok registers) ↔
      Session.checkReply f.asRequest frame = some (.ok registers) :=
    (check_ok_iff h).trans (Session.checkReply_ok_iff hhigh h).symm
  obtain ⟨failure | registers, hcheck⟩ := Option.isSome_iff_exists.1 (f.check_isSome h)
  · obtain ⟨failure' | registers, hcheck'⟩ :=
      Option.isSome_iff_exists.1 (Session.checkReply_isSome f.asRequest h)
    · exact .inr ⟨failure, failure', hcheck, hcheck'⟩
    · exact absurd (hcheck.symm.trans ((hreply registers).2 hcheck')) (by simp)
  · exact .inl ⟨registers, hcheck, (hreply registers).1 hcheck⟩

theorem OneShot.onResult_error {failure : Exception} (h : f.check frame = some (.error failure)) :
    f.onResult (.ok frame) = [.onError failure] := by
  rw [onResult, h]

theorem OneShot.onResult_ok {registers : Registers} (h : f.check frame = some (.ok registers)) :
    f.onResult (.ok frame) = [.onNext registers, .onCompleted] := by
  rw [onResult, h]

/-- What a read on the wire tells its observer of one frame, as the one-shot client. -/
theorem agrees_reading {W : World} {s : Core} (hhigh : f.registerCount.toNat ≤ 125)
    (hs : Session.Reading s f.asRequest) (hlog : Session.observed 0 s.log = [])
    (hframe : Exchange.OneFrame frame bodyLength) {chunks : List Bytes}
    (hchunks : chunks.flatten = frame) :
    Agree
      (f.onResult (if frame.length < 7 then .error (error "Modbus response timed out")
        else Exchange.verdict bodyLength frame))
      (Session.observed 0
        (Session.State.expire W (chunks.foldl (Session.onData W) ⟨s, []⟩)).core.log) := by
  have hobserved (more : List Effect) : Session.observed 0 (s.log ++ more) =
      Session.observed 0 more := by
    rw [Session.observed, List.flatMap_append]
    exact congrArg (· ++ _) hlog
  have hcore := Session.foldl_onData_oneFrame (W := W) hs.closed hframe (hs.fails _).1 hchunks
  generalize chunks.foldl (Session.onData W) ⟨s, []⟩ = t at hcore ⊢
  obtain ⟨core, buffer⟩ := t
  obtain ⟨-, hlen⟩ := hframe
  change core = _ at hcore
  by_cases h7 : frame.length < 7
  · rw [if_pos h7] at hcore ⊢
    rw [hcore, hs.timedOut, hobserved]
    exact .inr ⟨_, _, rfl, rfl⟩
  rw [if_neg h7] at hcore ⊢
  by_cases hlimits : bodyLength < 3 ∨ bodyLength > 254
  · rw [if_pos hlimits] at hcore
    rw [hcore, (hs.fails _).2, hobserved]
    by_cases hverdict : bodyLength < 2 ∨ 254 < bodyLength
    · rw [Exchange.verdict, if_pos hverdict]
      exact .inr ⟨_, _, rfl, rfl⟩
    · -- a frame of one PDU byte, which only the one-shot client takes for a response
      have hshort : frame.length = 8 := by
        simp only [gt_iff_lt, UInt16.lt_iff_toNat_lt, UInt16.reduceToNat] at hlimits hverdict
        omega
      obtain ⟨failure, hcheck⟩ := f.check_short hshort
      rw [Exchange.verdict, if_neg hverdict, OneShot.onResult_error hcheck]
      exact .inr ⟨_, _, rfl, rfl⟩
  · rw [if_neg hlimits] at hcore
    simp only [gt_iff_lt, UInt16.lt_iff_toNat_lt, UInt16.reduceToNat] at hlimits
    have hverdict : ¬(bodyLength < 2 ∨ 254 < bodyLength) := by
      simp only [UInt16.lt_iff_toNat_lt, UInt16.reduceToNat]
      omega
    have hlong : 9 ≤ frame.length := by omega
    rw [Exchange.verdict, if_neg hverdict, hcore]
    rcases f.check_agrees hhigh hlong with ⟨registers, hcheck, hreply⟩ |
      ⟨failure, failure', hcheck, hreply⟩
    · have hhandle : Session.handleFrame W s frame =
          Session.finishActiveSuccess W s registers := by
        simp only [Session.handleFrame, hs.active, hreply]
      rw [hhandle, (hs.succeeds _).2, hobserved, OneShot.onResult_ok hcheck]
      exact .inl ⟨registers, rfl, rfl⟩
    · have hhandle : Session.handleFrame W s frame =
          Session.finishActiveError W s failure' := by
        simp only [Session.handleFrame, hs.active, hreply]
      rw [hhandle, (hs.fails _).2, hobserved, OneShot.onResult_error hcheck]
      exact .inr ⟨_, _, rfl, rfl⟩

theorem count_valid {count : UInt16} (hlow : 1 ≤ count.toNat) (hhigh : count.toNat ≤ 125) :
    ¬(count = 0 ∨ count > 125) := by
  rintro (rfl | hlarge)
  · exact absurd hlow (by decide)
  · have hnat : 125 < count.toNat := UInt16.lt_iff_toNat_lt.1 hlarge
    omega

/-- A connected session has sent its first request. -/
theorem Session.opened {W : World} (hsocket : W.createsocket 0 = true) (hsend : W.send 0 = true)
    (unitId : UInt8) (address count : UInt16) :
    let r : Request := { unitId, address, count, transactionId := 1, observer := 0 }
    ∃ s : Core, step W (step W {} (.enqueue unitId address count)) (.connection true) = ⟨s, []⟩ ∧
      Reading s r ∧ s.log = [.sent r r.bytes] := by
  intro r
  refine ⟨_, rfl, ⟨?_, ?_, ?_, ?_, ?_, ?_, ?_⟩, ?_⟩ <;>
    simp [step, State.map, enqueueInLoop, startNext, startConnection, Core.armTimeout,
      Core.disarmTimeout, hsocket, onConnection, sendActive, Core.isConnected, hsend, r]

/-- A request says what it asks for. -/
theorem decodeRequest_bytes (r : Request) :
    decodeRequest r.bytes = some (r.transactionId, r.unitId, r.address, r.count) := by
  have hread {n : ℕ} {v : UInt16} (hsplit : r.bytes = r.bytes.take n ++ writeU16 v ++
      r.bytes.drop (n + 2)) (hn : (r.bytes.take n).length = n) : readU16 r.bytes n = some v := by
    have h := Session.readU16_writeU16 (r.bytes.take n) v (r.bytes.drop (n + 2))
    rwa [← hsplit, hn] at h
  have htransaction : readU16 r.bytes 0 = some r.transactionId := hread rfl rfl
  have hprotocol : readU16 r.bytes 2 = some 0 := hread rfl rfl
  have hlength : readU16 r.bytes 4 = some 6 := hread rfl rfl
  have haddress : readU16 r.bytes 8 = some r.address := hread rfl rfl
  have hcount : readU16 r.bytes 10 = some r.count := hread rfl rfl
  have hunit : r.bytes[6]? = some r.unitId := rfl
  have hfunction : r.bytes[7]? = some 0x03 := rfl
  have hsize : r.bytes.length = 12 := rfl
  rw [decodeRequest, if_neg (by simp only [hsize, hprotocol, hlength, hfunction, ne_eq,
    not_true_eq_false, or_self, not_false_eq_true]), htransaction, hunit, haddress, hcount]
  rfl

/-- The one-shot client and the first request of a fresh session send the same bytes, which
say what is read; and one frame for a response, in whatever pieces it comes to either,
brings both the same registers, or fails both. -/
theorem clients_agree (W : World) (hsocket : W.createsocket 0 = true) (hsend : W.send 0 = true)
    (thing : ModbusThing) (startAddress : UInt16) {registerCount : UInt16}
    (hlow : 1 ≤ registerCount.toNat) (hhigh : registerCount.toNat ≤ 125)
    {connectTimeout responseTimeout : ℤ} (hconnect : 0 < connectTimeout)
    (hresponse : 0 < responseTimeout) :
    ∃ f e, readHoldingRegisters thing startAddress registerCount connectTimeout responseTimeout =
        .ok f ∧
      Session.readHoldingRegisters thing.unitId startAddress registerCount = .ok e ∧
      let x := (f.exchange.startInLoop true).onConnection true true
      let s := Session.step W (Session.step W {} e) (.connection true)
      (∃ bytes, x.log = [.sent bytes] ∧ (∃ r, s.core.log = [.sent r bytes]) ∧ bytes.length = 12 ∧
        decodeRequest bytes = some (1, thing.unitId, startAddress, registerCount)) ∧
      ∀ (frame : Bytes) (bodyLength : UInt16), Exchange.OneFrame frame bodyLength →
        ∀ chunks chunks' : List Bytes, chunks.flatten = frame → chunks'.flatten = frame →
          Agree (f.observed (chunks.foldl Exchange.onData x).expire)
            (Session.observed 0
              (Session.State.expire W (chunks'.foldl (Session.onData W) s)).core.log) := by
  have hvalid := count_valid hlow hhigh
  let f : OneShot := { thing, startAddress, registerCount, connectTimeout, responseTimeout }
  obtain ⟨s, hs, hreading, hlog⟩ :=
    Session.opened hsocket hsend thing.unitId startAddress registerCount
  refine ⟨f, .enqueue thing.unitId startAddress registerCount, ?_, if_neg hvalid, ?_, ?_⟩
  · rw [readHoldingRegisters, if_neg hvalid, if_neg (by omega)]
  · refine ⟨f.asRequest.bytes, rfl, ⟨f.asRequest, ?_⟩, rfl, decodeRequest_bytes f.asRequest⟩
    rw [hs]
    exact hlog
  · intro frame bodyLength hframe chunks chunks' hchunks hchunks'
    rw [hs, OneShot.observed, Exchange.outcomes_oneFrame rfl rfl rfl rfl hframe hchunks,
      List.flatMap_singleton]
    exact agrees_reading (f := f) hhigh hreading (by rw [hlog]; rfl) hframe hchunks'

/-- A reply of one register, cut in two for the one-shot client. -/
theorem clients_agree_one :
    let thing : ModbusThing := { address := ascii "10.0.0.7", port := 502, unitId := 7 }
    let frame : Bytes := [0, 1, 0, 0, 0, 5, 7, 3, 2, 0x12, 0x34]
    ∃ f e, readHoldingRegisters thing 100 1 10 10 = .ok f ∧
      Session.readHoldingRegisters 7 100 1 = .ok e ∧
      let x := (f.exchange.startInLoop true).onConnection true true
      let s := Session.step .obliging (Session.step .obliging {} e) (.connection true)
      Agree (f.observed ([frame.take 5, frame.drop 5].foldl Exchange.onData x).expire)
        (Session.observed 0
          (Session.State.expire .obliging (Session.onData .obliging s frame)).core.log) := by
  intro thing frame
  have hten : (0 : ℤ) < 10 := by decide
  obtain ⟨f, e, hf, he, -, hagree⟩ := clients_agree .obliging rfl rfl thing 100
    (show 1 ≤ (1 : UInt16).toNat by decide) (by decide) hten hten
  exact ⟨f, e, hf, he, hagree frame 5 ⟨rfl, rfl⟩ _ [frame] rfl rfl⟩

end

end Neubau.Modbus
