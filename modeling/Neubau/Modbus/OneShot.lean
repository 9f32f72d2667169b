import Neubau.Modbus.Acceptance
import Neubau.Modbus.Exchange

/-! A read of holding registers with a connection of its own. It asks once and checks the
one response of its exchange, in another order than a session checks its frames, and with
the byte count compared as a number of any size. It accepts the same responses. -/

namespace Neubau.Modbus

open Neubau.Common
open Neubau.Modbus.Session (Registers readU16 writeU16 error IsReply Request Header)

/-- What a read tells its observer. -/
inductive ReadEvent
  | onNext (registers : Registers)
  | onError (failure : Exception)
  | onCompleted
  deriving DecidableEq, Repr

/-- The flow of `modbus::readHoldingRegisters`. -/
structure OneShot where
  thing : ModbusThing
  startAddress : UInt16
  registerCount : UInt16
  connectTimeout : ℤ
  responseTimeout : ℤ

def readHoldingRegisters (thing : ModbusThing) (startAddress registerCount : UInt16)
    (connectTimeout responseTimeout : ℤ) : Except Exception OneShot :=
  if registerCount = 0 ∨ registerCount > 125 then
    .error (.invalidArgument "Modbus reads require between 1 and 125 registers")
  else if connectTimeout ≤ 0 ∨ responseTimeout ≤ 0 then
    .error (.invalidArgument "Modbus read timeouts must be positive")
  else .ok { thing, startAddress, registerCount, connectTimeout, responseTimeout }

namespace OneShot

/-- The exchange that a subscription starts. -/
def exchange (f : OneShot) : Exchange :=
  { request := holdingRegisterRequest 1 f.thing.unitId f.startAddress f.registerCount }

/-- What the callback of the exchange finds in a response; `none` would be an access
outside of it. -/
def check (f : OneShot) (response : Bytes) : Option (Except Exception Registers) := do
  if !Identifier.validEnvelope response 1 f.thing.unitId then
    return .error (error "invalid Modbus response envelope")
  let pdu := response.drop 7
  let function ← pdu[0]?
  if function = readHoldingRegistersFunction ||| 0x80 ∧ pdu.length ≥ 2 then
    let code ← pdu[1]?
    return .error (error ("Modbus holding-register exception " ++ toString code.toNat))
  if pdu.length < 2 then return .error (error "invalid holding-register response")
  if function ≠ readHoldingRegistersFunction then
    return .error (error "invalid holding-register response")
  let byteCount ← pdu[1]?
  if byteCount.toNat ≠ f.registerCount.toNat * 2 then
    return .error (error "invalid holding-register response")
  if pdu.length ≠ byteCount.toNat + 2 then
    return .error (error "invalid holding-register response")
  -- the loop over `offset`, from 2 while below `pdu.size()`, in steps of 2
  let registers ← (List.range ((pdu.length - 1) / 2)).mapM fun i => readU16 pdu (2 + 2 * i)
  return .ok registers

/-- The callback of the exchange. -/
def onResult (f : OneShot) : Except Exception Bytes → List ReadEvent
  | .error failure => [.onError failure]
  | .ok response =>
    match f.check response with
    | none => []
    | some (.error failure) => [.onError failure]
    | some (.ok registers) => [.onNext registers, .onCompleted]

/-- What the observer has been told. -/
def observed (f : OneShot) (x : Exchange) : List ReadEvent := x.outcomes.flatMap f.onResult

/-- The request as a session has it. -/
def asRequest (f : OneShot) : Request where
  unitId := f.thing.unitId
  address := f.startAddress
  count := f.registerCount
  transactionId := 1
  observer := 0

variable {f : OneShot} {response : Bytes} {registers : Registers}

theorem validEnvelope_iff (x : Header response) (h : 9 ≤ response.length) (unitId : UInt8) :
    Identifier.validEnvelope response 1 unitId = true ↔
      x.transactionId = 1 ∧ x.protocolId = 0 ∧ x.unitId = unitId := by
  simp only [Identifier.validEnvelope, x.transactionId_eq, x.protocolId_eq, x.unitId_eq,
    Bool.and_eq_true, decide_eq_true_eq, beq_iff_eq, Option.some_inj]
  exact ⟨fun ⟨⟨⟨_, ht⟩, hp⟩, hu⟩ => ⟨ht, hp, hu⟩, fun ⟨ht, hp, hu⟩ => ⟨⟨⟨by omega, ht⟩, hp⟩, hu⟩⟩

theorem readU16_drop (data : Bytes) (n i : ℕ) : readU16 (data.drop n) i = readU16 data (n + i) := by
  simp only [readU16, List.getElem?_drop, Nat.add_assoc]

/-- The checks of the callback, with the fields read. -/
theorem check_eq (f : OneShot) (x : Header response) (h : 9 ≤ response.length) :
    f.check response =
    if ¬(x.transactionId = 1 ∧ x.protocolId = 0 ∧ x.unitId = f.thing.unitId) then
      some (.error (error "invalid Modbus response envelope"))
    else if x.function = 0x83 then
      some (.error (error ("Modbus holding-register exception " ++ toString x.byteCount.toNat)))
    else if x.function ≠ 0x03 then some (.error (error "invalid holding-register response"))
    else if x.byteCount.toNat ≠ f.registerCount.toNat * 2 then
      some (.error (error "invalid holding-register response"))
    else if response.length ≠ x.byteCount.toNat + 9 then
      some (.error (error "invalid holding-register response"))
    else ((List.range f.registerCount.toNat).mapM fun i => readU16 response (9 + 2 * i)).bind
      fun registers => some (.ok registers) := by
  have hfunction : (response.drop 7)[0]? = some x.function := by
    rw [List.getElem?_drop]
    exact x.function_eq
  have hbyteCount : (response.drop 7)[1]? = some x.byteCount := by
    rw [List.getElem?_drop]
    exact x.byteCount_eq
  have hlength : (response.drop 7).length = response.length - 7 := List.length_drop
  have hread (i : ℕ) : readU16 (response.drop 7) (2 + 2 * i) = readU16 response (9 + 2 * i) := by
    rw [readU16_drop]
    congr 1
    omega
  have hexception : x.function = readHoldingRegistersFunction ||| 0x80 ∧
      response.length - 7 ≥ 2 ↔ x.function = 0x83 := by
    refine ⟨fun h => h.1, fun h => ⟨h, ?_⟩⟩
    omega
  simp only [check, hfunction, hbyteCount, hlength, hread, hexception, Option.bind_eq_bind,
    Option.bind_some]
  by_cases hvalid : Identifier.validEnvelope response 1 f.thing.unitId = true
  · rw [if_neg (by simp [hvalid]), if_neg (not_not.2 ((validEnvelope_iff x h _).1 hvalid))]
    by_cases h83 : x.function = 0x83
    · rw [if_pos h83, if_pos h83]
      rfl
    rw [if_neg h83, if_neg h83, if_neg (show ¬response.length - 7 < 2 by omega)]
    by_cases h03 : x.function = readHoldingRegistersFunction
    · rw [if_neg (not_not.2 h03), if_neg (show ¬x.function ≠ 0x03 from not_not.2 h03)]
      by_cases hcount : x.byteCount.toNat = f.registerCount.toNat * 2
      · rw [if_neg (not_not.2 hcount), if_neg (not_not.2 hcount)]
        by_cases hsize : response.length = x.byteCount.toNat + 9
        · rw [if_neg (by omega), if_neg (not_not.2 hsize),
            show (response.length - 7 - 1) / 2 = f.registerCount.toNat by omega]
          rfl
        · rw [if_pos (by omega), if_pos hsize]
          rfl
      · rw [if_pos hcount, if_pos hcount]
        rfl
    · rw [if_pos h03, if_pos (show x.function ≠ 0x03 from h03)]
      rfl
  · rw [if_pos (by simp [hvalid]), if_pos fun hall => hvalid ((validEnvelope_iff x h _).2 hall)]
    rfl

/-- The same responses are accepted as by a session. -/
theorem check_ok_iff (h : 9 ≤ response.length) :
    f.check response = some (.ok registers) ↔ IsReply f.asRequest response registers := by
  obtain ⟨x⟩ := Session.header_of_length h
  rw [check_eq f x h]
  constructor
  · intro hok
    split_ifs at hok with h₁ h₂ h₃ h₄ h₅
    any_goals exact absurd (Option.some.inj hok) (by simp)
    simp only [ne_eq, not_not] at h₁ h₃ h₄ h₅
    obtain ⟨ht, hp, hu⟩ := h₁
    obtain ⟨found, hread, heq⟩ := Option.bind_eq_some_iff.1 hok
    obtain rfl : found = registers := by simpa using heq
    obtain ⟨hcount, hregisters⟩ := Session.mapM_range_eq_some.1 hread
    refine ⟨x.transactionId_eq.trans (congrArg some ht), x.protocolId_eq.trans (congrArg some hp),
      x.unitId_eq.trans (congrArg some hu), x.function_eq.trans (congrArg some h₃), ?_, ?_, hcount,
      hregisters⟩
    · rw [x.byteCount_eq, Option.map_some, h₄, Nat.mul_comm]
      rfl
    · show response.length = 9 + 2 * f.registerCount.toNat
      omega
  · intro hc
    have ht := x.transactionId_eq.symm.trans hc.transactionId
    have hp := x.protocolId_eq.symm.trans hc.protocolId
    have hu := x.unitId_eq.symm.trans hc.unitId
    have hf := x.function_eq.symm.trans hc.function
    have hb := hc.byteCount
    have hsize : response.length = 9 + 2 * f.registerCount.toNat := hc.payload
    rw [Option.some_inj] at ht hp hu hf
    rw [x.byteCount_eq, Option.map_some, Option.some_inj] at hb
    have hbytes : x.byteCount.toNat = 2 * f.registerCount.toNat := hb
    have hread : (List.range f.registerCount.toNat).mapM (fun i => readU16 response (9 + 2 * i)) =
        some registers := Session.mapM_range_eq_some.2 ⟨hc.count, hc.registers⟩
    rw [if_neg (not_not.2 ⟨ht, hp, hu⟩), if_neg (by rw [hf]; decide), if_neg (not_not.2 hf),
      if_neg (by omega), if_neg (by omega), hread]
    rfl

/-- Whatever the response, its check reads nothing outside of it. -/
theorem check_isSome (f : OneShot) (h : 9 ≤ response.length) : (f.check response).isSome := by
  obtain ⟨x⟩ := Session.header_of_length h
  rw [check_eq f x h]
  split_ifs with h₁ h₂ h₃ h₄ h₅
  all_goals try rfl
  have hfits : 9 + 2 * f.registerCount.toNat ≤ response.length := by omega
  obtain ⟨registers, hr⟩ := Session.mapM_readU16_isSome response hfits
  rw [hr]
  rfl

/-- A response without a byte count is not accepted. -/
theorem check_short (f : OneShot) (h : response.length = 8) :
    ∃ failure, f.check response = some (.error failure) := by
  have hfunction : (response.drop 7)[0]? = some response[7] := by
    rw [List.getElem?_drop]
    exact List.getElem?_eq_getElem _
  have hlength : (response.drop 7).length = 1 := by
    rw [List.length_drop, h]
  unfold check
  simp only [hfunction, hlength, Option.bind_eq_bind, Option.bind_some]
  by_cases hvalid : Identifier.validEnvelope response 1 f.thing.unitId = true
  · rw [if_neg (by simp [hvalid]), if_neg (by omega), if_pos (by omega)]
    exact ⟨_, rfl⟩
  · rw [if_pos (by simp [hvalid])]
    exact ⟨_, rfl⟩

end OneShot

end Neubau.Modbus
