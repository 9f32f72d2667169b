import Neubau.Modbus.Server

/-! The replies on the wire. A holding reply of at most 125 registers is one frame
of the framer, it is accepted for its own request and brings its registers, and
with a length field that no frame has it is rejected, whatever follows it. -/

namespace Neubau.Modbus.Session

open Neubau.Common Neubau.Stream

variable {r : Request} {registers : Registers}

theorem join_split (v : UInt16) :
    (v >>> 8).toUInt8.toUInt16 <<< 8 ||| (v &&& 0xff).toUInt8.toUInt16 = v := by
  have hv : v.toNat < 65536 := v.toNat_lt
  have hhigh : v.toNat >>> 8 = v.toNat / 256 := Nat.shiftRight_eq_div_pow _ 8
  have hlow : v.toNat &&& 255 = v.toNat % 256 := Nat.and_two_pow_sub_one_eq_mod _ 8
  apply UInt16.toNat_inj.1
  simp only [UInt16.toNat_or, UInt16.toNat_shiftLeft, UInt8.toNat_toUInt16, UInt16.toNat_toUInt8,
    UInt16.toNat_shiftRight, UInt16.toNat_and, UInt16.reduceToNat, Nat.reduceMod, Nat.reducePow,
    hhigh, hlow]
  have hsmall : v.toNat % 256 % 256 < 2 ^ 8 := by omega
  rw [Nat.shiftLeft_eq, Nat.mod_eq_of_lt (by omega), ← Nat.shiftLeft_eq,
    ← Nat.shiftLeft_add_eq_or_of_lt hsmall, Nat.shiftLeft_eq]
  omega

@[simp] theorem length_writeU16 (v : UInt16) : (writeU16 v).length = 2 := rfl

/-- `readU16` reads what `writeU16` wrote. -/
theorem readU16_writeU16 (front : Bytes) (v : UInt16) (back : Bytes) :
    readU16 (front ++ writeU16 v ++ back) front.length = some v := by
  have h₀ : (front ++ writeU16 v ++ back)[front.length]? = some (v >>> 8).toUInt8 := by
    simp [writeU16]
  have h₁ : (front ++ writeU16 v ++ back)[front.length + 1]? = some (v &&& 0xff).toUInt8 := by
    simp [writeU16]
  simp only [readU16, h₀, h₁]
  exact congrArg some (join_split v)

/-- The loop of `handleFrame` over the registers of a frame. -/
theorem mapM_readU16 (front : Bytes) (registers : Registers) :
    (List.range registers.length).mapM
      (fun i => readU16 (front ++ registers.flatMap writeU16) (front.length + 2 * i)) =
      some registers := by
  induction registers generalizing front with
  | nil => rfl
  | cons v rest ih =>
    have hfirst := readU16_writeU16 front v (rest.flatMap writeU16)
    have hrest := ih (front ++ writeU16 v)
    have hindex : ∀ i, (front ++ writeU16 v).length + 2 * i = front.length + 2 * (i + 1) := by
      intro i
      rw [List.length_append, length_writeU16]
      omega
    simp only [hindex] at hrest
    rw [List.flatMap_cons, ← List.append_assoc, List.length_cons, List.range_succ_eq_map,
      List.mapM_cons, List.mapM_map]
    simp only [Function.comp_def, Nat.mul_zero, Nat.add_zero, hfirst, Nat.succ_eq_add_one, hrest]
    rfl

theorem length_flatMap_writeU16 (registers : Registers) :
    (registers.flatMap writeU16).length = registers.length * 2 := by
  induction registers with
  | nil => rfl
  | cons v rest ih =>
    rw [List.flatMap_cons, List.length_append, ih, List.length_cons, length_writeU16]
    omega

theorem length_holdingReply (r : Request) (registers : Registers) :
    (holdingReply r registers).length = 9 + registers.length * 2 := by
  have h := length_flatMap_writeU16 registers
  simp only [holdingReply, List.length_append, length_writeU16, List.length_cons,
    List.length_nil, h]

/-- The reply, its length field set apart. -/
theorem holdingReply_eq (r : Request) (registers : Registers) : holdingReply r registers =
    (writeU16 r.transactionId ++ writeU16 0) ++
      writeU16 (3 + (UInt8.ofNat (registers.length * 2)).toUInt16) ++
      ([r.unitId, 0x03, UInt8.ofNat (registers.length * 2)] ++ registers.flatMap writeU16) := by
  simp [holdingReply]

theorem readU16_length (r : Request) (registers : Registers) :
    readU16 (holdingReply r registers) 4 =
      some (3 + (UInt8.ofNat (registers.length * 2)).toUInt16) := by
  rw [holdingReply_eq]
  exact readU16_writeU16 (writeU16 r.transactionId ++ writeU16 0) _ _

theorem toNat_byteCount (h : registers.length ≤ 125) :
    (UInt8.ofNat (registers.length * 2)).toNat = registers.length * 2 := by
  rw [UInt8.toNat_ofNat']
  omega

theorem toNat_length (h : registers.length ≤ 125) :
    (3 + (UInt8.ofNat (registers.length * 2)).toUInt16).toNat = 3 + registers.length * 2 := by
  simp only [UInt16.toNat_add, UInt8.toNat_toUInt16, toNat_byteCount h, UInt16.reduceToNat]
  omega

/-- The reply is one frame. -/
theorem cut_holdingReply (h : registers.length ≤ 125) :
    framer.cut (holdingReply r registers) = .frame (holdingReply r registers) [] := by
  have hlen := length_holdingReply r registers
  have hnat := toNat_length h
  show cut (holdingReply r registers) = _
  have hvalid : ¬(3 + (UInt8.ofNat (registers.length * 2)).toUInt16 < 3 ∨
      3 + (UInt8.ofNat (registers.length * 2)).toUInt16 > 254) := by
    rw [gt_iff_lt, UInt16.lt_iff_toNat_lt, UInt16.lt_iff_toNat_lt, hnat]
    simp only [UInt16.reduceToNat]
    omega
  rw [cut_of_readU16 (by omega) (readU16_length r registers), if_neg hvalid, hnat,
    if_neg (by omega), List.take_of_length_le (by omega), List.drop_of_length_le (by omega)]

/-- A length field that no frame has is rejected. -/
theorem cut_bad {xs : Bytes} {v : UInt16} (h7 : 7 ≤ xs.length) (hread : readU16 xs 4 = some v)
    (hv : v < 3 ∨ v > 254) : framer.cut xs = .bad := by
  show cut xs = _
  rw [cut_of_readU16 (by omega) hread, if_pos hv]

theorem length_setLength (r : Request) (registers : Registers) (v : UInt16) :
    (setLength (holdingReply r registers) v).length = 9 + registers.length * 2 := by
  have hlen := length_holdingReply r registers
  simp only [setLength, List.length_append, List.length_take, List.length_drop, length_writeU16]
  omega

theorem readU16_setLength (r : Request) (registers : Registers) (v : UInt16) :
    readU16 (setLength (holdingReply r registers) v) 4 = some v := by
  have hlen := length_holdingReply r registers
  have h := readU16_writeU16 ((holdingReply r registers).take 4) v
    ((holdingReply r registers).drop 6)
  rwa [List.length_take, Nat.min_eq_left (by omega)] at h

/-- Behind one stray byte the length field of a reply is not where it is looked for. -/
theorem readU16_shifted (h : registers.length ≤ 125) (b : UInt8) (more : Bytes) :
    readU16 (b :: (holdingReply r registers ++ more)) 4 = some 0 := by
  have hlen := length_holdingReply r registers
  have hnat := toNat_length h
  have hhigh : ((3 + (UInt8.ofNat (registers.length * 2)).toUInt16) >>> 8).toUInt8 = 0 := by
    apply UInt8.toNat_inj.1
    rw [UInt16.toNat_toUInt8, UInt16.toNat_shiftRight, hnat]
    simp only [UInt16.reduceToNat, Nat.reduceMod, Nat.shiftRight_eq_div_pow]
    show (3 + registers.length * 2) / 256 % 256 = 0
    omega
  have h₄ : (b :: holdingReply r registers)[4]? = some 0 := rfl
  have h₅ : (b :: holdingReply r registers)[5]? = some 0 := by
    show some ((3 + (UInt8.ofNat (registers.length * 2)).toUInt16) >>> 8).toUInt8 = some 0
    rw [hhigh]
  rw [← List.cons_append, readU16_append (by rw [List.length_cons]; omega)]
  simp only [readU16, h₄, h₅]
  rfl

/-- A request accepts its own reply. -/
theorem checkReply_holdingReply (hr : registers.length = r.count.toNat)
    (h : registers.length ≤ 125) :
    checkReply r (holdingReply r registers) = some (.ok registers) := by
  have hlen := length_holdingReply r registers
  have hbytes := toNat_byteCount h
  have htransaction : readU16 (holdingReply r registers) 0 = some r.transactionId :=
    congrArg some (join_split r.transactionId)
  have hprotocol : readU16 (holdingReply r registers) 2 = some 0 := rfl
  have h6 : (holdingReply r registers)[6]? = some r.unitId := rfl
  have h7 : (holdingReply r registers)[7]? = some 3 := rfl
  have h8 : (holdingReply r registers)[8]? = some (UInt8.ofNat (registers.length * 2)) := rfl
  have hpdu : (holdingReply r registers).length - 7 = registers.length * 2 + 2 := by omega
  have hloop : (registers.length * 2 + 2 - 1) / 2 = registers.length := by omega
  have hread := mapM_readU16 (writeU16 r.transactionId ++ writeU16 0 ++
    writeU16 (3 + (UInt8.ofNat (registers.length * 2)).toUInt16) ++
      [r.unitId, 0x03, UInt8.ofNat (registers.length * 2)]) registers
  have hcount : UInt8.ofNat (registers.length * 2) = UInt8.ofNat (r.count.toNat * 2) := by
    rw [hr]
  change (List.range registers.length).mapM
    (fun i => readU16 (holdingReply r registers) (7 + 2 + 2 * i)) = some registers at hread
  simp only [checkReply, htransaction, hprotocol, h6, h7, h8, hpdu, hloop, hread,
    Option.bind_eq_bind, Option.bind_some, ← hcount, hbytes]
  simp

/-- A frame for another transaction is an error of the active request. -/
theorem checkReply_foreign {frame : Bytes} {t : UInt16} (hlen : 9 ≤ frame.length)
    (hread : readU16 frame 0 = some t) (ht : t ≠ r.transactionId) :
    checkReply r frame = some (.error (error "unexpected Modbus transaction ID")) := by
  obtain ⟨p, hp⟩ : ∃ p, readU16 frame 2 = some p := readU16_isSome (by omega)
  have h6 : frame[6]? = some frame[6] := List.getElem?_eq_getElem (by omega)
  simp [checkReply, hread, hp, h6, ht]

end Neubau.Modbus.Session
