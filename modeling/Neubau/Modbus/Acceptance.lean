import Neubau.Modbus.Replies

/-! Which frames a read succeeds on. A frame that `onData` hands over is as long as
its length field says, so that every access of `handleFrame` stays inside it. It
is accepted in one shape only: the request's transaction and unit, protocol 0,
function 3 and the registers asked for. Every other frame fails the request. -/

namespace Neubau.Modbus.Session

open Neubau.Common Neubau.Stream

variable {W : World} {r : Request} {frame : Bytes} {registers : Registers}

/-- A frame as long as its length field says, which lies within the limits. -/
def Complete (frame : Bytes) : Prop :=
  ∃ length : UInt16, readU16 frame 4 = some length ∧ 3 ≤ length.toNat ∧ length.toNat ≤ 254 ∧
    frame.length = 6 + length.toNat

/-- These are the frames that `onData` cuts off its buffer. -/
theorem cut_frame_iff (frame : Bytes) :
    (∃ buffer rest, framer.cut buffer = .frame frame rest) ↔ Complete frame := by
  constructor
  · rintro ⟨buffer, rest, hcut⟩
    obtain ⟨length, h7, hread, hlimits, henough, rfl, -⟩ := cut_eq_frame hcut
    simp only [gt_iff_lt, UInt16.lt_iff_toNat_lt, UInt16.reduceToNat, not_or, not_lt] at hlimits
    have hlen : (buffer.take (6 + length.toNat)).length = 6 + length.toNat := by
      rw [List.length_take]
      omega
    refine ⟨length, ?_, hlimits.1, hlimits.2, hlen⟩
    have happend : readU16 (buffer.take (6 + length.toNat) ++ buffer.drop (6 + length.toNat)) 4 =
        readU16 (buffer.take (6 + length.toNat)) 4 := readU16_append (by omega) _
    rw [List.take_append_drop] at happend
    rw [← happend, hread]
  · rintro ⟨length, hread, hlow, hhigh, hlen⟩
    refine ⟨frame, [], ?_⟩
    show cut frame = _
    have hvalid : ¬ (length < 3 ∨ length > 254) := by
      simp only [gt_iff_lt, UInt16.lt_iff_toNat_lt, UInt16.reduceToNat]
      omega
    rw [cut_of_readU16 (by omega) hread, if_neg hvalid, if_neg (by omega),
      List.take_of_length_le (by omega), List.drop_of_length_le (by omega)]

theorem Complete.nine_le (h : Complete frame) : 9 ≤ frame.length := by
  obtain ⟨length, -, hlow, -, hlen⟩ := h
  omega

/-- The one shape of a reply that brings a request these registers. -/
structure IsReply (r : Request) (frame : Bytes) (registers : Registers) : Prop where
  transactionId : readU16 frame 0 = some r.transactionId
  protocolId : readU16 frame 2 = some 0
  unitId : frame[6]? = some r.unitId
  function : frame[7]? = some 0x03
  byteCount : frame[8]?.map UInt8.toNat = some (2 * r.count.toNat)
  payload : frame.length = 9 + 2 * r.count.toNat
  count : registers.length = r.count.toNat
  registers : ∀ i < r.count.toNat, readU16 frame (9 + 2 * i) = registers[i]?

/-! ### Reading the payload -/

theorem mapM_range_eq_some {α : Type} {f : ℕ → Option α} {n : ℕ} {xs : List α} :
    (List.range n).mapM f = some xs ↔ xs.length = n ∧ ∀ i < n, f i = xs[i]? := by
  induction n generalizing f xs with
  | zero =>
    simp [eq_comm]
  | succ n ih =>
    rw [List.range_succ_eq_map, List.mapM_cons, List.mapM_map]
    cases hfirst : f 0 with
    | none =>
      refine ⟨fun h => (by cases h), fun ⟨hlen, h⟩ => ?_⟩
      rw [h 0 (by omega), List.getElem?_eq_none_iff] at hfirst
      omega
    | some x =>
      have hrest (ys : List α) := @ih (f ∘ Nat.succ) ys
      simp only [Option.bind_eq_bind, Option.bind_some]
      constructor
      · intro h
        obtain ⟨ys, hys, heq⟩ := Option.bind_eq_some_iff.1 h
        obtain ⟨hlen, hall⟩ := (hrest ys).1 hys
        cases heq
        refine ⟨by rw [List.length_cons, hlen], fun i hi => ?_⟩
        cases i with
        | zero => exact hfirst
        | succ i => exact hall i (by omega)
      · rintro ⟨hlen, hall⟩
        cases xs with
        | nil => simp at hlen
        | cons y ys =>
          have hx := hall 0 (by omega)
          rw [hfirst, List.getElem?_cons_zero, Option.some_inj] at hx
          have hys : (List.range n).mapM (f ∘ Nat.succ) = some ys :=
            (hrest ys).2 ⟨by simpa using hlen, fun i hi => hall (i + 1) (by omega)⟩
          simp [hys, hx]

/-- No register is read outside its data. -/
theorem mapM_readU16_isSome (data : Bytes) {start n : ℕ} (h : start + 2 * n ≤ data.length) :
    ∃ registers, (List.range n).mapM (fun i => readU16 data (start + 2 * i)) = some registers := by
  have hread : ∀ i < n, ∃ v, readU16 data (start + 2 * i) = some v := fun i hi =>
    readU16_isSome (by omega)
  choose! f hf using hread
  refine ⟨(List.range n).map f, mapM_range_eq_some.2 ⟨by simp, fun i hi => ?_⟩⟩
  rw [hf i hi, List.getElem?_map, List.getElem?_range hi]
  rfl

/-! ### The check of a frame -/

/-- The fields of a frame before its payload, each read inside the frame. -/
structure Header (frame : Bytes) where
  transactionId : UInt16
  protocolId : UInt16
  unitId : UInt8
  function : UInt8
  byteCount : UInt8
  transactionId_eq : readU16 frame 0 = some transactionId
  protocolId_eq : readU16 frame 2 = some protocolId
  unitId_eq : frame[6]? = some unitId
  function_eq : frame[7]? = some function
  byteCount_eq : frame[8]? = some byteCount

theorem header_of_length (h : 9 ≤ frame.length) : Nonempty (Header frame) := by
  obtain ⟨t, ht⟩ : ∃ t, readU16 frame 0 = some t := readU16_isSome (by omega)
  obtain ⟨p, hp⟩ : ∃ p, readU16 frame 2 = some p := readU16_isSome (by omega)
  exact ⟨⟨t, p, frame[6], frame[7], frame[8], ht, hp, List.getElem?_eq_getElem _,
    List.getElem?_eq_getElem _, List.getElem?_eq_getElem _⟩⟩

/-- The checks of `handleFrame`, with the fields read. -/
theorem checkReply_eq (x : Header frame) : checkReply r frame =
    if x.transactionId ≠ r.transactionId then
      some (.error (error "unexpected Modbus transaction ID"))
    else if x.protocolId ≠ 0 then some (.error (error "unexpected Modbus protocol ID"))
    else if x.unitId ≠ r.unitId then some (.error (error "unexpected Modbus unit ID"))
    else if x.function = 0x83 then
      if frame.length - 7 ≠ 2 then some (.error (error "invalid Modbus exception response"))
      else some (.error (error
        ("Modbus holding-register exception " ++ toString x.byteCount.toNat)))
    else if x.function ≠ 0x03 then some (.error (error "unexpected Modbus function"))
    else if frame.length - 7 < 2 then some (.error (error "unexpected Modbus byte count"))
    else if x.byteCount ≠ UInt8.ofNat (r.count.toNat * 2) then
      some (.error (error "unexpected Modbus byte count"))
    else if frame.length - 7 ≠ x.byteCount.toNat + 2 then
      some (.error (error "invalid Modbus response payload length"))
    else ((List.range ((frame.length - 7 - 1) / 2)).mapM fun i =>
      readU16 frame (7 + 2 + 2 * i)).bind fun registers => some (.ok registers) := by
  simp only [checkReply, x.transactionId_eq, x.protocolId_eq, x.unitId_eq, x.function_eq,
    x.byteCount_eq, Option.bind_eq_bind, Option.bind_some]
  rfl

/-- The byte count of a request's reply is even, also where eight bits cut it off. -/
theorem even_byteCount (count : UInt16) : (UInt8.ofNat (count.toNat * 2)).toNat % 2 = 0 := by
  rw [UInt8.toNat_ofNat']
  omega

/-- The fields of a frame are those of a reply to the request. -/
structure Fits (r : Request) (x : Header frame) : Prop where
  transactionId : x.transactionId = r.transactionId
  protocolId : x.protocolId = 0
  unitId : x.unitId = r.unitId
  function : x.function = 0x03
  byteCount : x.byteCount = UInt8.ofNat (r.count.toNat * 2)
  payload : frame.length = 9 + x.byteCount.toNat

theorem checkReply_of_fits {x : Header frame} (h : Fits r x) : checkReply r frame =
    ((List.range (x.byteCount.toNat / 2)).mapM fun i => readU16 frame (9 + 2 * i)).bind
      fun registers => some (.ok registers) := by
  have hpayload := h.payload
  have heven := even_byteCount r.count
  rw [← h.byteCount] at heven
  rw [checkReply_eq x, if_neg (not_not.2 h.transactionId), if_neg (not_not.2 h.protocolId),
    if_neg (not_not.2 h.unitId), if_neg (by rw [h.function]; decide),
    if_neg (not_not.2 h.function), if_neg (by omega), if_neg (not_not.2 h.byteCount),
    if_neg (by omega), show (frame.length - 7 - 1) / 2 = x.byteCount.toNat / 2 by omega]

theorem checkReply_of_not_fits (hlen : 9 ≤ frame.length) {x : Header frame} (h : ¬Fits r x) :
    ∃ f, checkReply r frame = some (.error f) := by
  rw [checkReply_eq x]
  by_cases h₁ : x.transactionId ≠ r.transactionId
  · exact ⟨_, if_pos h₁⟩
  rw [if_neg h₁]
  by_cases h₂ : x.protocolId ≠ 0
  · exact ⟨_, if_pos h₂⟩
  rw [if_neg h₂]
  by_cases h₃ : x.unitId ≠ r.unitId
  · exact ⟨_, if_pos h₃⟩
  rw [if_neg h₃]
  by_cases h₄ : x.function = 0x83
  · rw [if_pos h₄]
    by_cases hsize : frame.length - 7 ≠ 2
    · exact ⟨_, if_pos hsize⟩
    · exact ⟨_, if_neg hsize⟩
  rw [if_neg h₄]
  by_cases h₅ : x.function ≠ 0x03
  · exact ⟨_, if_pos h₅⟩
  rw [if_neg h₅, if_neg (by omega)]
  by_cases h₆ : x.byteCount ≠ UInt8.ofNat (r.count.toNat * 2)
  · exact ⟨_, if_pos h₆⟩
  rw [if_neg h₆]
  by_cases h₇ : frame.length - 7 ≠ x.byteCount.toNat + 2
  · exact ⟨_, if_pos h₇⟩
  · exact absurd ⟨not_not.1 h₁, not_not.1 h₂, not_not.1 h₃, not_not.1 h₅, not_not.1 h₆,
      by omega⟩ h

/-- Whatever the frame, its check reads nothing outside of it. -/
theorem checkReply_isSome (r : Request) (h : 9 ≤ frame.length) : (checkReply r frame).isSome := by
  obtain ⟨x⟩ := header_of_length h
  by_cases hfits : Fits r x
  · have hread : 9 + 2 * (x.byteCount.toNat / 2) ≤ frame.length := by
      rw [hfits.payload]
      omega
    obtain ⟨registers, hr⟩ := mapM_readU16_isSome frame hread
    rw [checkReply_of_fits hfits, hr]
    rfl
  · obtain ⟨f, hf⟩ := checkReply_of_not_fits h hfits
    rw [hf]
    rfl

/-- The count of bytes a request may ask for fits its eight bits. -/
theorem byteCount_toNat {count : UInt16} (h : count.toNat ≤ 125) :
    (UInt8.ofNat (count.toNat * 2)).toNat = count.toNat * 2 := by
  rw [UInt8.toNat_ofNat']
  omega

/-- A frame is accepted exactly if it carries the registers asked for. -/
theorem checkReply_ok_iff (hcount : r.count.toNat ≤ 125) (h : 9 ≤ frame.length) :
    checkReply r frame = some (.ok registers) ↔ IsReply r frame registers := by
  obtain ⟨x⟩ := header_of_length h
  have hbytes := byteCount_toNat hcount
  constructor
  · intro hok
    by_cases hfits : Fits r x
    · rw [checkReply_of_fits hfits] at hok
      obtain ⟨found, hread, heq⟩ := Option.bind_eq_some_iff.1 hok
      obtain rfl : found = registers := by simpa using heq
      rw [hfits.byteCount, hbytes, Nat.mul_div_cancel _ (Nat.succ_pos 1)] at hread
      obtain ⟨hcount', hregisters⟩ := mapM_range_eq_some.1 hread
      refine ⟨x.transactionId_eq.trans (congrArg some hfits.transactionId),
        x.protocolId_eq.trans (congrArg some hfits.protocolId),
        x.unitId_eq.trans (congrArg some hfits.unitId),
        x.function_eq.trans (congrArg some hfits.function), ?_, ?_, hcount', hregisters⟩
      · rw [x.byteCount_eq, Option.map_some, hfits.byteCount, hbytes, Nat.mul_comm]
      · rw [hfits.payload, hfits.byteCount, hbytes, Nat.mul_comm]
    · obtain ⟨f, hf⟩ := checkReply_of_not_fits h hfits
      exact absurd (hf.symm.trans hok) (by simp)
  · intro hc
    have hb := hc.byteCount
    rw [x.byteCount_eq, Option.map_some, Option.some_inj] at hb
    have hbyte : x.byteCount = UInt8.ofNat (r.count.toNat * 2) := by
      rw [← UInt8.toNat_inj, hbytes, hb, Nat.mul_comm]
    have hfits : Fits r x :=
      { transactionId := Option.some_inj.1 (x.transactionId_eq.symm.trans hc.transactionId)
        protocolId := Option.some_inj.1 (x.protocolId_eq.symm.trans hc.protocolId)
        unitId := Option.some_inj.1 (x.unitId_eq.symm.trans hc.unitId)
        function := Option.some_inj.1 (x.function_eq.symm.trans hc.function)
        byteCount := hbyte
        payload := by rw [hc.payload, hb] }
    have hread : (List.range r.count.toNat).mapM (fun i => readU16 frame (9 + 2 * i)) =
        some registers := mapM_range_eq_some.2 ⟨hc.count, hc.registers⟩
    rw [checkReply_of_fits hfits, hb, Nat.mul_div_cancel_left _ (Nat.succ_pos 1), hread]
    rfl

/-! ### What becomes of the active request -/

theorem finishActiveSuccess_posts {s : Core} (hr : s.active = some r) (registers : Registers) :
    s.log ++ [Effect.posted r registers] <+: (finishActiveSuccess W s registers).log := by
  rw [finishActiveSuccess_active hr]
  exact (startNext_conserves (s.answered r registers)).log

theorem finishActiveError_fails {s : Core} (hr : s.active = some r) (f : Exception) :
    s.log ++ [Effect.failed r f s.closed] <+: (finishActiveError W s f).log := by
  have hcall : s.log ++ [Effect.failed r f s.closed] <+:
      (callFailure W (closeInLoop W) s.released r f).log := by
    unfold callFailure
    split_ifs
    · refine List.IsPrefix.trans ?_ (closeInLoop_conserves _).log
      simp [Core.released]
    · simp [Core.released]
  rw [finishActiveError_active hr]
  exact hcall.trans (startNext_conserves _).log

/-- The effect that follows a log is the next one. -/
theorem next_effect_inj {before after : List Effect} {e e' : Effect}
    (h : before ++ [e] <+: after) (h' : before ++ [e'] <+: after) : e = e' := by
  have hnext : ∀ {x}, before ++ [x] <+: after → after[before.length]? = some x := by
    rintro x ⟨rest, rfl⟩
    simp
  exact Option.some.inj ((hnext h).symm.trans (hnext h'))

theorem handleFrame_ok {s : Core} (hr : s.active = some r)
    (h : checkReply r frame = some (.ok registers)) :
    s.log ++ [Effect.posted r registers] <+: (handleFrame W s frame).log := by
  simp only [handleFrame, hr, h]
  exact finishActiveSuccess_posts hr registers

theorem handleFrame_error {s : Core} {f : Exception} (hr : s.active = some r)
    (h : checkReply r frame = some (.error f)) :
    s.log ++ [Effect.failed r f s.closed] <+: (handleFrame W s frame).log := by
  simp only [handleFrame, hr, h]
  exact finishActiveError_fails hr f

/-- On a frame that is handed over, the active request succeeds exactly if the frame
is its reply, with the registers of the reply; otherwise it fails. The frame is
read inside its bounds, and the count of bytes fits the byte it is compared as. -/
theorem read_succeeds_iff_reply (W : World) {s : Core} (hr : s.active = some r)
    (hhigh : r.count.toNat ≤ 125) (h : Complete frame) :
    (∀ registers, s.log ++ [.posted r registers] <+: (handleFrame W s frame).log ↔
      IsReply r frame registers) ∧
    ((¬∃ registers, IsReply r frame registers) →
      ∃ f, s.log ++ [.failed r f s.closed] <+: (handleFrame W s frame).log) ∧
    (checkReply r frame).isSome ∧
    (UInt8.ofNat (r.count.toNat * 2)).toNat = 2 * r.count.toNat := by
  have hinside := checkReply_isSome r h.nine_le
  have haccepted (registers : Registers) : checkReply r frame = some (.ok registers) ↔
      IsReply r frame registers := checkReply_ok_iff hhigh h.nine_le
  refine ⟨fun registers => ?_, fun hnone => ?_, hinside, ?_⟩
  · rw [← haccepted]
    obtain ⟨failure | values, hfound⟩ := Option.isSome_iff_exists.1 hinside
    · have hfailed := handleFrame_error (W := W) hr hfound
      refine ⟨fun hposted => ?_, fun heq => ?_⟩
      · exact absurd (next_effect_inj hposted hfailed) (by simp)
      · exact absurd (hfound.symm.trans heq) (by simp)
    · have hposted := handleFrame_ok (W := W) hr hfound
      refine ⟨fun hposted' => ?_, fun heq => ?_⟩
      · obtain ⟨-, rfl⟩ := Effect.posted.inj (next_effect_inj hposted hposted')
        exact hfound
      · obtain rfl : values = registers := by simpa using hfound.symm.trans heq
        exact hposted
  · obtain ⟨failure | values, hfound⟩ := Option.isSome_iff_exists.1 hinside
    · exact ⟨failure, handleFrame_error hr hfound⟩
    · exact absurd ⟨values, (haccepted values).1 hfound⟩ hnone
  · rw [byteCount_toNat hhigh, Nat.mul_comm]

/-- A read of one register and its reply. -/
theorem read_succeeds_iff_reply_one :
    let r : Request := { unitId := 1, address := 0, count := 1, transactionId := 1, observer := 0 }
    let s : Core := { active := some r, enqueued := 1 }
    s.log ++ [.posted r [7]] <+: (handleFrame .obliging s (holdingReply r [7])).log := by
  intro r s
  have hcomplete : Complete (holdingReply r [7]) :=
    (cut_frame_iff _).1 ⟨_, _, cut_holdingReply (by decide)⟩
  have hreply : IsReply r (holdingReply r [7]) [7] :=
    (checkReply_ok_iff (by decide) hcomplete.nine_le).1
      (checkReply_holdingReply (by decide) (by decide))
  exact ((read_succeeds_iff_reply .obliging rfl (by decide) hcomplete).1 [7]).2 hreply

end Neubau.Modbus.Session
