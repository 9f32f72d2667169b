import Neubau.Modbus.IdentifierSpec
import Neubau.Stream.Records

/-! The pages of Device Identification. The loop over the objects of a page stores the
records that are whole, and reads nothing outside the page. What `onMei` makes of a
response is one of four: an exception, a malformed response, a truncated page, or a
whole page that another one follows or that completes the thing. -/

namespace Neubau.Modbus

open Neubau.Common Neubau.Stream
open Neubau.Modbus.Session (readU16)

/-- The objects with more of them read, the later ones over the earlier ones. -/
def store (objects : Objects) (rs : List Record) : Objects :=
  rs.foldl (fun objects r => objects.insert r.1 r.2) objects

/-- The thing with its names taken from its objects. -/
def ModbusThing.named (thing : ModbusThing) : ModbusThing :=
  { thing with
    vendorName := (thing.objects.lookup 0).getD thing.vendorName
    productCode := (thing.objects.lookup 1).getD thing.productCode
    revision := (thing.objects.lookup 2).getD thing.revision }

namespace Identifier

variable {i : Identifier} {pdu : Bytes}

/-! ### The loop over the objects -/

theorem drop_two {n : ℕ} {key length : UInt8} (hkey : pdu[n]? = some key)
    (hlength : pdu[n + 1]? = some length) : pdu.drop n = key :: length :: pdu.drop (n + 2) := by
  obtain ⟨hn, rfl⟩ := List.getElem?_eq_some_iff.1 hkey
  obtain ⟨hn', rfl⟩ := List.getElem?_eq_some_iff.1 hlength
  rw [List.drop_eq_getElem_cons hn, List.drop_eq_getElem_cons hn']

/-- The loop reads inside the page, and stores the records that are whole. -/
theorem readObjects_eq (count offset : ℕ) (objects : Objects) :
    readObjects pdu count offset objects =
      some (store objects (Record.parse count (pdu.drop offset)).1,
        (Record.parse count (pdu.drop offset)).2) := by
  induction count generalizing offset objects with
  | zero => rfl
  | succ count ih =>
    rw [readObjects]
    by_cases hshort : offset + 2 > pdu.length
    · rw [if_pos hshort, Record.parse_short (by rw [List.length_drop]; omega)]
      rfl
    · have hkey : pdu[offset]? = some pdu[offset] := List.getElem?_eq_getElem (by omega)
      have hlength : pdu[offset + 1]? = some pdu[offset + 1] := List.getElem?_eq_getElem (by omega)
      rw [if_neg hshort, drop_two hkey hlength]
      simp only [hkey, hlength, Option.bind_eq_bind, Option.bind_some]
      by_cases hcut : offset + 2 + pdu[offset + 1].toNat > pdu.length
      · rw [if_pos hcut, Record.parse_cut (by rw [List.length_drop]; omega)]
        rfl
      · rw [if_neg hcut, Record.parse_cons (by rw [List.length_drop]; omega), ih, List.drop_drop]
        rfl

/-- The loop as the source has it, over an index of eight bits. -/
def readObjectsFrom (pdu : Bytes) (index objectCount : UInt8) (offset : ℕ) (objects : Objects) :
    Option (Objects × Bool) :=
  if index < objectCount then
    if offset + 2 > pdu.length then some (objects, false)
    else do
      let currentObjectId ← pdu[offset]?
      let objectLength := (← pdu[offset + 1]?).toNat
      let offset := offset + 2
      if offset + objectLength > pdu.length then return (objects, false)
      let value := (pdu.drop offset).take objectLength
      readObjectsFrom pdu (index + 1) objectCount (offset + objectLength)
        (objects.insert currentObjectId value)
  else some (objects, true)
termination_by objectCount.toNat - index.toNat
decreasing_by
  have hlt : index.toNat < objectCount.toNat := UInt8.lt_iff_toNat_lt.1 ‹index < objectCount›
  have hcount := objectCount.toNat_lt
  rw [UInt8.toNat_add]
  simp only [UInt8.reduceToNat]
  omega

/-- The index does not wrap around before it reaches the count. -/
theorem readObjectsFrom_eq (n : ℕ) {index objectCount : UInt8}
    (hn : index.toNat + n = objectCount.toNat) (offset : ℕ) (objects : Objects) :
    readObjectsFrom pdu index objectCount offset objects = readObjects pdu n offset objects := by
  induction n generalizing index offset objects with
  | zero =>
    rw [readObjectsFrom, readObjects, if_neg (by rw [UInt8.lt_iff_toNat_lt]; omega)]
  | succ n ih =>
    have hnext : (index + 1).toNat + n = objectCount.toNat := by
      have hcount := objectCount.toNat_lt
      rw [UInt8.toNat_add]
      simp only [UInt8.reduceToNat]
      omega
    rw [readObjectsFrom, readObjects, if_pos (by rw [UInt8.lt_iff_toNat_lt]; omega)]
    simp only [ih hnext]

/-! ### A response -/

/-- A page of Device Identification, whole or not. -/
structure IsPage (pdu : Bytes) : Prop where
  length : 7 ≤ pdu.length
  function : pdu[0]? = some encapsulatedInterfaceTransport
  type : pdu[1]? = some readDeviceIdentification

instance (pdu : Bytes) : Decidable (IsPage pdu) :=
  decidable_of_iff (7 ≤ pdu.length ∧ pdu[0]? = some encapsulatedInterfaceTransport ∧
    pdu[1]? = some readDeviceIdentification) ⟨fun ⟨h₁, h₂, h₃⟩ => ⟨h₁, h₂, h₃⟩, fun h => ⟨h.1, h.2, h.3⟩⟩

/-- The objects of a page, as far as they are whole, and whether all of them are. -/
def pageObjects (pdu : Bytes) : List Record × Bool :=
  Record.parse ((pdu[6]?.getD 0).toNat) (pdu.drop 7)

/-- A page has another one behind it. -/
def Continues (i : Identifier) (pdu : Bytes) : Prop :=
  pdu[4]? ≠ some 0 ∧ pdu[5]? ≠ some i.objectId ∧ i.page < 7

instance (i : Identifier) (pdu : Bytes) : Decidable (i.Continues pdu) :=
  inferInstanceAs (Decidable (_ ∧ _ ∧ _))

def withPage (i : Identifier) (pdu : Bytes) : Identifier :=
  { i with thing := { i.thing with
      hasDeviceIdentification := true
      objects := store i.thing.objects (pageObjects pdu).1 } }

/-- The identifier that asks for the page behind this one. -/
def turned (i : Identifier) (pdu : Bytes) : Identifier :=
  { i.withPage pdu with
    objectId := pdu[5]?.getD 0
    transactionId := i.transactionId + 1
    page := i.page + 1 }

def withException (i : Identifier) (exceptionCode : Option UInt8) : Identifier :=
  { i with thing := { i.thing with exceptionCode } }

/-- What an identifier does with a page. -/
def onPage (i : Identifier) (pdu : Bytes) : Identifier × Next :=
  if (pageObjects pdu).2 = false then (i.withPage pdu).requestFallback
  else if i.Continues pdu then (i.turned pdu).requestMei
  else
    let thing := (i.withPage pdu).thing.named
    { i.withPage pdu with thing }.complete (some thing)

theorem onMeiPdu_exception (h : pdu[0]? = some 0xab) : i.onMeiPdu pdu =
    some ((i.withException pdu[1]?).complete (some (i.withException pdu[1]?).thing)) := by
  unfold onMeiPdu
  rw [h]
  rfl

theorem onMeiPdu_malformed (hne : pdu ≠ []) (h : pdu[0]? ≠ some 0xab) (hpage : ¬IsPage pdu) :
    i.onMeiPdu pdu = some i.requestFallback := by
  have hlen : 0 < pdu.length := List.length_pos_iff.2 hne
  have hfirst : pdu[0]? = some pdu[0] := List.getElem?_eq_getElem hlen
  have hexception : ¬pdu[0] = encapsulatedInterfaceTransport ||| 0x80 := by
    intro heq
    exact h (hfirst.trans (congrArg some heq))
  unfold onMeiPdu
  simp only [hfirst, Option.bind_eq_bind, Option.bind_some, if_neg hexception]
  by_cases h7 : pdu.length < 7
  · rw [if_pos h7]
    rfl
  by_cases hfunction : pdu[0] = encapsulatedInterfaceTransport
  · have hsecond : pdu[1]? = some pdu[1] := List.getElem?_eq_getElem (by omega)
    have htype : pdu[1] ≠ readDeviceIdentification := by
      intro heq
      exact hpage ⟨by omega, hfirst.trans (congrArg some hfunction),
        hsecond.trans (congrArg some heq)⟩
    rw [if_neg h7, if_neg (by simp [hfunction]), hsecond]
    exact if_pos htype
  · rw [if_neg h7, if_pos hfunction]
    rfl

theorem onMeiPdu_page (h : IsPage pdu) : i.onMeiPdu pdu = some (i.onPage pdu) := by
  have h7 := h.length
  have h4 : pdu[4]? = some pdu[4] := List.getElem?_eq_getElem (by omega)
  have h5 : pdu[5]? = some pdu[5] := List.getElem?_eq_getElem (by omega)
  have h6 : pdu[6]? = some pdu[6] := List.getElem?_eq_getElem (by omega)
  have hparse : Record.parse pdu[6].toNat (pdu.drop 7) = pageObjects pdu := by
    rw [pageObjects, h6]
    rfl
  have hnext : pdu[5]?.getD 0 = pdu[5] := by rw [h5]; rfl
  have hcontinues : i.Continues pdu ↔ pdu[4] ≠ 0 ∧ pdu[5] ≠ i.objectId ∧ i.page < 7 := by
    simp only [Continues, h4, h5, ne_eq, Option.some_inj]
  unfold onMeiPdu
  simp only [h.function, h.type, h4, h5, h6, Option.bind_eq_bind, Option.bind_some, readObjects_eq]
  rw [if_neg (by decide), if_neg (by omega), if_neg (by simp), if_neg (by simp)]
  simp only [hparse]
  unfold onPage
  cases hwhole : (pageObjects pdu).2 with
  | false => rfl
  | true =>
    simp only [Bool.not_true, Bool.false_eq_true, ↓reduceIte, Bool.true_eq_false]
    by_cases hc : i.Continues pdu
    · rw [if_pos hc, if_pos (hcontinues.1 hc), turned, hnext]
      rfl
    · rw [if_neg hc, if_neg fun h => hc (hcontinues.2 h)]
      rfl

/-! ### The end of an exchange -/

/-- The identifier without the exchange that has just ended. -/
def rested (i : Identifier) : Identifier := { i with exchange := none }

theorem Open.rested (h : i.Open) : i.rested.Open := ⟨h.finished, h.hasResult⟩

theorem Open.withException (h : i.Open) (code : Option UInt8) : (i.withException code).Open :=
  ⟨h.finished, h.hasResult⟩

theorem Open.withPage (h : i.Open) (pdu : Bytes) : (i.withPage pdu).Open :=
  ⟨h.finished, h.hasResult⟩

/-- The content of a response of the right envelope. -/
def content (transactionId : UInt16) (unitId : UInt8) (response : Option Bytes) : Option Bytes :=
  response.bind fun bytes =>
    if validEnvelope bytes transactionId unitId then some (bytes.drop 7) else none

theorem validEnvelope_length {bytes : Bytes} {transactionId : UInt16} {unitId : UInt8}
    (h : validEnvelope bytes transactionId unitId = true) : 8 ≤ bytes.length := by
  simp only [validEnvelope, Bool.and_eq_true, decide_eq_true_eq] at h
  exact h.1.1.1

theorem drop_ne_nil {bytes : Bytes} {transactionId : UInt16} {unitId : UInt8}
    (h : validEnvelope bytes transactionId unitId = true) : bytes.drop 7 ≠ [] := by
  have hlen := validEnvelope_length h
  rw [← List.length_pos_iff, List.length_drop]
  omega

/-- What an exchange brings to the pages: nothing of use, an exception, or a page. -/
theorem onMei_cases (hopen : i.finished = false) (response : Option Bytes) :
    ((∀ pdu, content i.transactionId i.unitId response = some pdu → ¬IsPage pdu) ∧
      i.onMei response = i.rested.requestFallback) ∨
    (∃ pdu, content i.transactionId i.unitId response = some pdu ∧ pdu[0]? = some 0xab ∧
      i.onMei response = (i.rested.withException pdu[1]?).complete
        (some (i.withException pdu[1]?).thing)) ∨
    (∃ pdu, content i.transactionId i.unitId response = some pdu ∧ IsPage pdu ∧
      i.onMei response = i.rested.onPage pdu) := by
  cases response with
  | none =>
    refine .inl ⟨fun pdu hpdu => (by cases hpdu), ?_⟩
    simp [onMei, hopen, rested]
  | some bytes =>
    cases hvalid : validEnvelope bytes i.transactionId i.unitId with
    | false =>
      refine .inl ⟨fun pdu hpdu => ?_, ?_⟩
      · simp [content, hvalid] at hpdu
      · simp [onMei, hopen, hvalid, rested]
    | true =>
      have hcontent : content i.transactionId i.unitId (some bytes) = some (bytes.drop 7) := by
        simp [content, hvalid]
      have heq : i.onMei (some bytes) =
          (i.rested.onMeiPdu (bytes.drop 7)).getD (i.rested, .nothing) := by
        simp [onMei, hopen, hvalid, rested]
      by_cases hexception : (bytes.drop 7)[0]? = some 0xab
      · refine .inr (.inl ⟨_, hcontent, hexception, ?_⟩)
        rw [heq, onMeiPdu_exception hexception]
        rfl
      · by_cases hpage : IsPage (bytes.drop 7)
        · refine .inr (.inr ⟨_, hcontent, hpage, ?_⟩)
          rw [heq, onMeiPdu_page hpage]
          rfl
        · refine .inl ⟨fun pdu hpdu => ?_, ?_⟩
          · rwa [← Option.some_inj.1 (hcontent.symm.trans hpdu)]
          · rw [heq, onMeiPdu_malformed (drop_ne_nil hvalid) hexception hpage]
            rfl

/-- An exception is not a page. -/
theorem not_isPage (h : pdu[0]? = some 0xab) : ¬IsPage pdu := by
  intro hpage
  have heq := h.symm.trans hpage.function
  exact absurd (Option.some_inj.1 heq) (by decide)

theorem onMei_page (hopen : i.finished = false) {response : Option Bytes}
    (hcontent : content i.transactionId i.unitId response = some pdu) (hpage : IsPage pdu) :
    i.onMei response = i.rested.onPage pdu := by
  rcases i.onMei_cases hopen response with ⟨hno, -⟩ | ⟨pdu', hpdu', hexception, -⟩ |
    ⟨pdu', hpdu', -, hnext⟩
  · exact absurd hpage (hno pdu hcontent)
  · rw [hcontent, Option.some_inj] at hpdu'
    exact absurd (hpdu' ▸ hpage) (not_isPage hexception)
  · rw [hcontent, Option.some_inj] at hpdu'
    rw [hnext, hpdu']

/-- The fallback reads inside its response. -/
theorem onFallbackPdu_cases (hne : pdu ≠ []) :
    i.onFallbackPdu pdu = some (i.complete none) ∨
    i.onFallbackPdu pdu = some (i.complete (some i.thing)) ∨
    ∃ code, i.onFallbackPdu pdu = some ((i.withException (some code)).complete
      (some (i.withException (some code)).thing)) := by
  have hlen : 0 < pdu.length := List.length_pos_iff.2 hne
  have hfirst : pdu[0]? = some pdu[0] := List.getElem?_eq_getElem hlen
  unfold onFallbackPdu
  simp only [hfirst, Option.bind_eq_bind, Option.bind_some]
  by_cases hread : pdu[0] = readHoldingRegistersFunction
  · rw [if_pos hread]
    exact .inr (.inl rfl)
  by_cases hexception : pdu[0] = readHoldingRegistersFunction ||| 0x80 ∧ pdu.length ≥ 2
  · have hsecond : pdu[1]? = some pdu[1] := List.getElem?_eq_getElem (by omega)
    rw [if_neg hread, if_pos hexception, hsecond]
    exact .inr (.inr ⟨pdu[1], rfl⟩)
  · rw [if_neg hread, if_neg hexception]
    exact .inl rfl

/-- What an exchange brings to the fallback: nothing, or the thing, perhaps with an
exception. -/
theorem onFallback_cases (hopen : i.finished = false) (response : Option Bytes) :
    i.onFallback response = i.rested.complete none ∨
    i.onFallback response = i.rested.complete (some i.thing) ∨
    ∃ code, i.onFallback response = (i.rested.withException (some code)).complete
      (some (i.withException (some code)).thing) := by
  cases response with
  | none => exact .inl (by simp [onFallback, hopen, rested])
  | some bytes =>
    cases hvalid : validEnvelope bytes 1 i.unitId with
    | false => exact .inl (by simp [onFallback, hopen, hvalid, rested])
    | true =>
      have heq : i.onFallback (some bytes) =
          (i.rested.onFallbackPdu (bytes.drop 7)).getD (i.rested, .nothing) := by
        simp [onFallback, hopen, hvalid, rested]
      rw [heq]
      rcases i.rested.onFallbackPdu_cases (drop_ne_nil hvalid) with h | h | ⟨code, h⟩
      · exact .inl (by rw [h]; rfl)
      · exact .inr (.inl (by rw [h]; rfl))
      · exact .inr (.inr ⟨code, by rw [h]; rfl⟩)

end Identifier

end Neubau.Modbus
