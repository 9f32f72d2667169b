import Neubau.Modbus.Identification

/-! Whether an identified thing is coherent: its names are those of its objects, or it
has neither, and what it has comes from whole pages. The names are taken from the
objects when the last page is complete. An identifier that leaves the pages before, for
an exception or for the fallback, keeps the objects it has read, those of a truncated
page included, so that its thing is coherent only if none of them is a name and the
truncated page brought nothing new. -/

namespace Neubau.Modbus

open Neubau.Common Neubau.Transition

/-- The thing has its Device Identification with the names it gives, or nothing of it. -/
def ModbusThing.Coherent (thing : ModbusThing) : Prop :=
  (thing.hasDeviceIdentification = true ∧
    thing.vendorName = (thing.objects.lookup 0).getD [] ∧
    thing.productCode = (thing.objects.lookup 1).getD [] ∧
    thing.revision = (thing.objects.lookup 2).getD []) ∨
  (thing.hasDeviceIdentification = false ∧ thing.objects = ∅ ∧ thing.vendorName = [] ∧
    thing.productCode = [] ∧ thing.revision = [])

instance (thing : ModbusThing) : Decidable thing.Coherent :=
  inferInstanceAs (Decidable (_ ∨ _))

/-- None of the objects is a name that is not empty. -/
def Unnamed (objects : Objects) : Prop :=
  (objects.lookup 0).getD [] = [] ∧ (objects.lookup 1).getD [] = [] ∧
    (objects.lookup 2).getD [] = []

instance (objects : Objects) : Decidable (Unnamed objects) :=
  inferInstanceAs (Decidable (_ ∧ _ ∧ _))

/-- What a thing has of the pages of Device Identification. -/
def ModbusThing.identified (thing : ModbusThing) : Option Objects :=
  if thing.hasDeviceIdentification then some thing.objects else none

/-- A thing without names, and without objects unless it has read a page. -/
structure ModbusThing.Blank (thing : ModbusThing) : Prop where
  vendorName : thing.vendorName = []
  productCode : thing.productCode = []
  revision : thing.revision = []
  objects : thing.hasDeviceIdentification = false → thing.objects = ∅

theorem ModbusThing.Blank.coherent_iff {thing : ModbusThing} (h : thing.Blank) :
    thing.Coherent ↔ Unnamed thing.objects := by
  unfold Coherent Unnamed
  rw [h.vendorName, h.productCode, h.revision]
  cases hd : thing.hasDeviceIdentification with
  | true =>
    constructor
    · rintro (⟨-, h₀, h₁, h₂⟩ | ⟨hno, -⟩)
      · exact ⟨h₀.symm, h₁.symm, h₂.symm⟩
      · cases hno
    · rintro ⟨h₀, h₁, h₂⟩
      exact .inl ⟨rfl, h₀.symm, h₁.symm, h₂.symm⟩
  | false => simp [h.objects hd]

/-- A page completes a thing without names. -/
theorem ModbusThing.Blank.named_coherent {thing : ModbusThing} (h : thing.Blank)
    (hd : thing.hasDeviceIdentification = true) : thing.named.Coherent := by
  refine .inl ⟨hd, ?_, ?_, ?_⟩
  · exact congrArg (thing.objects.lookup 0).getD h.vendorName
  · exact congrArg (thing.objects.lookup 1).getD h.productCode
  · exact congrArg (thing.objects.lookup 2).getD h.revision

theorem ModbusThing.Blank.withException {i : Identifier} (h : i.thing.Blank) (code : Option UInt8) :
    (i.withException code).thing.Blank :=
  ⟨h.vendorName, h.productCode, h.revision, h.objects⟩

theorem ModbusThing.Blank.withPage {i : Identifier} (h : i.thing.Blank) (pdu : Bytes) :
    (i.withPage pdu).thing.Blank :=
  ⟨h.vendorName, h.productCode, h.revision, fun hno => by cases hno⟩

theorem ModbusThing.Blank.identified_getD {thing : ModbusThing} (h : thing.Blank) :
    thing.identified.getD ∅ = thing.objects := by
  unfold identified
  cases hd : thing.hasDeviceIdentification with
  | true => rfl
  | false => exact (h.objects hd).symm

namespace Identifier

/-- The page of Device Identification in a response, whole or not. -/
def page? (transactionId : UInt16) (unitId : UInt8) (response : Option Bytes) : Option Bytes :=
  (content transactionId unitId response).filter fun pdu => decide (IsPage pdu)

/-- The page of Device Identification in a response, if all of its objects are whole. -/
def wholePage? (transactionId : UInt16) (unitId : UInt8) (response : Option Bytes) : Option Bytes :=
  (page? transactionId unitId response).filter fun pdu => (pageObjects pdu).2

/-- The objects of the pages that came, up to the first response that brings no whole page. -/
def pagesRead (unitId : UInt8) (transactionId : UInt16) (objects : Option Objects) :
    List (Option Bytes) → Option Objects
  | [] => objects
  | response :: rest =>
    match wholePage? transactionId unitId response with
    | some pdu => pagesRead unitId (transactionId + 1)
        (some (store (objects.getD ∅) (pageObjects pdu).1)) rest
    | none => objects

/-- A response that brings no whole page finds no names, and adds nothing. -/
def Keeps (i : Identifier) (response : Option Bytes) : Prop :=
  wholePage? i.transactionId i.unitId response = none →
    Unnamed i.thing.objects ∧ ∀ pdu ∈ page? i.transactionId i.unitId response,
      i.thing.hasDeviceIdentification = true ∧
        store i.thing.objects (pageObjects pdu).1 = i.thing.objects

instance (i : Identifier) (response : Option Bytes) : Decidable (i.Keeps response) :=
  inferInstanceAs (Decidable (_ → _ ∧ ∀ _ ∈ _, _))

section

variable {transactionId : UInt16} {unitId : UInt8} {response : Option Bytes} {pdu : Bytes}

theorem page?_none
    (h : ∀ pdu, content transactionId unitId response = some pdu → ¬IsPage pdu) :
    page? transactionId unitId response = none := by
  unfold page?
  cases hcontent : content transactionId unitId response with
  | none => rfl
  | some pdu => exact Option.filter_some_neg (by simpa using h pdu hcontent)

theorem page?_some (h : content transactionId unitId response = some pdu) (hpage : IsPage pdu) :
    page? transactionId unitId response = some pdu := by
  rw [page?, h]
  exact Option.filter_some_pos (decide_eq_true hpage)

theorem wholePage?_none (h : page? transactionId unitId response = none) :
    wholePage? transactionId unitId response = none := by
  rw [wholePage?, h]
  rfl

theorem wholePage?_truncated (h : page? transactionId unitId response = some pdu)
    (hcut : (pageObjects pdu).2 = false) : wholePage? transactionId unitId response = none := by
  rw [wholePage?, h]
  exact Option.filter_some_neg (by simp [hcut])

theorem wholePage?_some (h : page? transactionId unitId response = some pdu)
    (hwhole : (pageObjects pdu).2 = true) : wholePage? transactionId unitId response = some pdu := by
  rw [wholePage?, h]
  exact Option.filter_some_pos hwhole

/-- A truncated page leaves a thing as it was if the thing had all of it before. -/
theorem keeps_truncated {i : Identifier}
    (h : page? i.transactionId i.unitId response = some pdu) (hcut : (pageObjects pdu).2 = false) :
    i.Keeps response ↔ Unnamed (i.withPage pdu).thing.objects ∧
      (i.withPage pdu).thing.identified = i.thing.identified := by
  have hkeeps : i.Keeps response ↔ Unnamed i.thing.objects ∧
      i.thing.hasDeviceIdentification = true ∧
        store i.thing.objects (pageObjects pdu).1 = i.thing.objects := by
    simp [Keeps, wholePage?_truncated h hcut, h]
  have hread : (i.withPage pdu).thing.identified = i.thing.identified ↔
      i.thing.hasDeviceIdentification = true ∧
        store i.thing.objects (pageObjects pdu).1 = i.thing.objects := by
    simp only [ModbusThing.identified, withPage, ↓reduceIte]
    cases i.thing.hasDeviceIdentification <;> simp
  rw [hkeeps, hread]
  refine and_congr_left fun hsame => ?_
  show _ ↔ Unnamed (store i.thing.objects (pageObjects pdu).1)
  rw [hsame.2]

theorem pagesRead_none (h : wholePage? transactionId unitId response = none)
    (objects : Option Objects) (more : List (Option Bytes)) :
    pagesRead unitId transactionId objects (response :: more) = objects := by
  rw [pagesRead, h]

theorem pagesRead_some (h : wholePage? transactionId unitId response = some pdu)
    (objects : Option Objects) (more : List (Option Bytes)) :
    pagesRead unitId transactionId objects (response :: more) =
      pagesRead unitId (transactionId + 1)
        (some (store (objects.getD ∅) (pageObjects pdu).1)) more := by
  rw [pagesRead, h]

end

end Identifier

namespace Identification

open Identifier

/-- The step keeps the thing coherent: a response to a page that is still wanted brings
a whole page, or finds nothing that a thing without names must not have. -/
def Clean (s : Identification) : Event → Prop
  | .exchanged response =>
    s.identifier.finished = false →
      s.identifier.exchange.map TcpExchange.result = some .onMei → s.identifier.Keeps response
  | _ => True

instance (s : Identification) : (e : Event) → Decidable (s.Clean e)
  | .start => inferInstanceAs (Decidable True)
  | .exchanged _ => inferInstanceAs (Decidable (_ → _ → _))
  | .cancel => inferInstanceAs (Decidable True)

/-- The responses of a history, in order. -/
def responses (log : List Entry) : List (Option Bytes) :=
  log.filterMap fun
    | .answered response => some response
    | _ => none

@[simp] theorem responses_append (log more : List Entry) :
    responses (log ++ more) = responses log ++ responses more := List.filterMap_append

/-- The thing is coherent, and what it has are the whole pages of the history. -/
def Intact (unitId : UInt8) (log : List Entry) (thing : ModbusThing) : Prop :=
  thing.Coherent ∧ thing.identified = pagesRead unitId 1 none (responses log)

/-- The history has called no thing. -/
def Thingless (log : List Entry) : Prop := ∀ thing, Entry.result (some thing) ∉ log

/-- What is known of an identification whose steps so far were clean exactly if `q`. -/
inductive Tracked (unitId : UInt8) (q : Prop) (s : Identification) : Prop
  /-- Nothing has gone wrong, and the pages read are what the thing has. -/
  | reading : q → s.identifier.finished = false → s.identifier.hasResult = true →
      (∀ exchange, s.identifier.exchange = some exchange →
        exchange.result = .onMei ∧ s.started = true) →
      s.identifier.unitId = unitId → s.identifier.thing.Blank →
      (∀ more, pagesRead unitId 1 none (responses s.log ++ more) =
        pagesRead unitId s.identifier.transactionId s.identifier.thing.identified more) →
      Thingless s.log → Tracked unitId q s
  /-- The pages are over, and the fallback decides whether there is a thing. -/
  | falling {exchange : TcpExchange} {objects : Option Objects} :
      (q ↔ Unnamed s.identifier.thing.objects ∧ s.identifier.thing.identified = objects) →
      s.identifier.finished = false → s.identifier.hasResult = true → s.started = true →
      s.identifier.exchange = some exchange → exchange.result = .onFallback →
      s.identifier.thing.Blank →
      (∀ more, pagesRead unitId 1 none (responses s.log ++ more) = objects) →
      Thingless s.log → Tracked unitId q s
  | settled : s.identifier.finished = true →
      (∀ thing, .result (some thing) ∈ s.log → s.started = true ∧
        s.identifier.exchange = none ∧ (Intact unitId s.log thing ↔ q)) → Tracked unitId q s

section

variable {unitId : UInt8} {q : Prop} {s : Identification} {i : Identifier}

theorem Thingless.snoc {log : List Entry} {e : Entry} (h : Thingless log)
    (he : ∀ thing, e ≠ .result (some thing)) : Thingless (log ++ [e]) := by
  intro thing hmem
  rcases List.mem_append.1 hmem with hmem | hmem
  · exact h thing hmem
  · exact he thing (List.mem_singleton.1 hmem).symm

/-- The identifier calls its result. -/
theorem Tracked.completes (hstarted : s.started = true) (hless : Thingless s.log)
    (hfinished : i.finished = false) (hresult : i.hasResult = true) (hrests : i.exchange = none)
    {thing : Option ModbusThing} (h : ∀ t, thing = some t → (Intact unitId s.log t ↔ q)) :
    Tracked unitId q (s.act (i.complete thing)) := by
  have heq : i.complete thing = ({ i with finished := true, hasResult := false },
      .result thing) := by
    simp [Identifier.complete, hfinished, hresult]
  rw [heq]
  refine .settled rfl fun t ht => ⟨hstarted, hrests, ?_⟩
  have hresponses : responses (s.log ++ [Entry.result thing]) = responses s.log := by
    rw [responses_append]
    exact List.append_nil _
  have hintact : Intact unitId (s.log ++ [Entry.result thing]) t ↔ Intact unitId s.log t := by
    rw [Intact, hresponses, Intact]
  refine hintact.trans (h t ?_)
  rcases List.mem_append.1 ht with ht | ht
  · exact absurd ht (hless t)
  · exact (Entry.result.inj (List.mem_singleton.1 ht)).symm

/-- The identifier asks for a page. -/
theorem Tracked.turns (hq : q) (hstarted : s.started = true) (hless : Thingless s.log)
    (hfinished : i.finished = false) (hresult : i.hasResult = true) (hunit : i.unitId = unitId)
    (hblank : i.thing.Blank)
    (hread : ∀ more, pagesRead unitId 1 none (responses s.log ++ more) =
      pagesRead unitId i.transactionId i.thing.identified more) :
    Tracked unitId q (s.act i.requestMei) := by
  refine .reading hq hfinished hresult ?_ hunit hblank ?_ (hless.snoc (by simp))
  · rintro exchange ⟨⟩
    exact ⟨rfl, hstarted⟩
  · intro more
    refine Eq.trans ?_ (hread more)
    exact congrArg (fun rs => pagesRead unitId 1 none (rs ++ more))
      ((responses_append _ _).trans (List.append_nil _))

/-- The identifier asks for a register instead. -/
theorem Tracked.falls {objects : Option Objects}
    (hq : q ↔ Unnamed i.thing.objects ∧ i.thing.identified = objects)
    (hstarted : s.started = true) (hless : Thingless s.log)
    (hfinished : i.finished = false) (hresult : i.hasResult = true) (hblank : i.thing.Blank)
    (hread : ∀ more, pagesRead unitId 1 none (responses s.log ++ more) = objects) :
    Tracked unitId q (s.act i.requestFallback) := by
  refine .falling hq hfinished hresult hstarted rfl rfl hblank ?_ (hless.snoc (by simp))
  intro more
  refine Eq.trans ?_ (hread more)
  exact congrArg (fun rs => pagesRead unitId 1 none (rs ++ more))
    ((responses_append _ _).trans (List.append_nil _))

/-- A page was asked for, and something came. -/
theorem Tracked.paged {exchange : TcpExchange} (hq : q) (hstarted : s.started = true)
    (hless : Thingless s.log) (hfinished : s.identifier.finished = false)
    (hresult : s.identifier.hasResult = true) (hexchange : s.identifier.exchange = some exchange)
    (hmei : exchange.result = .onMei) (hblank : s.identifier.thing.Blank)
    (hread : ∀ more, pagesRead s.identifier.unitId 1 none (responses s.log ++ more) =
      pagesRead s.identifier.unitId s.identifier.transactionId s.identifier.thing.identified more)
    (response : Option Bytes) :
    Tracked s.identifier.unitId (q ∧ s.Clean (.exchanged response))
      (s.next (.exchanged response)) := by
  have hclean : q ∧ s.Clean (.exchanged response) ↔ s.identifier.Keeps response := by
    simp [Clean, hfinished, hexchange, hmei, hq]
  have hless' : Thingless (s.log ++ [Entry.answered response]) := hless.snoc (by simp)
  have hread' : ∀ more, pagesRead s.identifier.unitId 1 none
      (responses (s.log ++ [Entry.answered response]) ++ more) =
        pagesRead s.identifier.unitId s.identifier.transactionId s.identifier.thing.identified
          (response :: more) := by
    intro more
    rw [responses_append, List.append_assoc]
    exact hread (response :: more)
  have hall :
      pagesRead s.identifier.unitId 1 none (responses (s.log ++ [Entry.answered response])) =
        pagesRead s.identifier.unitId s.identifier.transactionId s.identifier.thing.identified
          [response] := by
    rw [← hread' [], List.append_nil]
  have heq : s.identifier.exchangeFinished response = s.identifier.onMei response := by
    simp only [Identifier.exchangeFinished, hexchange, hmei]
  rw [next, heq]
  rcases s.identifier.onMei_cases hfinished response with ⟨hno, hnext⟩ |
    ⟨pdu, hcontent, hexception, hnext⟩ | ⟨pdu, hcontent, hpage, hnext⟩
  · have hnone := page?_none hno
    have hkeeps : s.identifier.Keeps response ↔ Unnamed s.identifier.thing.objects := by
      simp [Keeps, wholePage?_none hnone, hnone]
    rw [hnext]
    exact .falls (s := { s with log := s.log ++ [Entry.answered response] })
      (i := s.identifier.rested)
      ((hclean.trans hkeeps).trans (and_iff_left rfl).symm) hstarted hless' hfinished hresult hblank
      fun more => (hread' more).trans (pagesRead_none (wholePage?_none hnone) _ _)
  · have hnone := page?_none fun pdu' hpdu' =>
      Option.some_inj.1 (hcontent.symm.trans hpdu') ▸ not_isPage hexception
    have hkeeps : s.identifier.Keeps response ↔ Unnamed s.identifier.thing.objects := by
      simp [Keeps, wholePage?_none hnone, hnone]
    rw [hnext]
    refine .completes (s := { s with log := s.log ++ [Entry.answered response] })
      (i := s.identifier.rested.withException pdu[1]?) hstarted hless' hfinished hresult rfl
      fun t ht => ?_
    rw [← Option.some_inj.1 ht, hclean, hkeeps]
    have hread₀ := hall.trans (pagesRead_none (wholePage?_none hnone) _ _)
    exact (and_iff_left (by exact hread₀.symm)).trans (hblank.withException _).coherent_iff
  · have hsome := page?_some hcontent hpage
    rw [hnext, Identifier.onPage]
    cases hwhole : (pageObjects pdu).2 with
    | false =>
      have hcut := wholePage?_truncated hsome hwhole
      rw [if_pos rfl]
      exact .falls (s := { s with log := s.log ++ [Entry.answered response] })
        (hclean.trans (keeps_truncated hsome hwhole)) hstarted hless' hfinished hresult
        (hblank.withPage pdu) fun more => (hread' more).trans (pagesRead_none hcut _ _)
    | true =>
      have hread₁ := hblank.identified_getD ▸ pagesRead_some (wholePage?_some hsome hwhole)
        s.identifier.thing.identified
      have hkeeps : s.identifier.Keeps response := by
        intro hnone
        exact absurd (hnone.symm.trans (wholePage?_some hsome hwhole)) (by simp)
      rw [if_neg (by simp)]
      by_cases hcontinues : s.identifier.rested.Continues pdu
      · rw [if_pos hcontinues]
        exact .turns (s := { s with log := s.log ++ [Entry.answered response] }) (hclean.2 hkeeps)
          hstarted hless' hfinished hresult rfl (hblank.withPage pdu)
          fun more => (hread' more).trans (hread₁ more)
      · rw [if_neg hcontinues]
        refine .completes (s := { s with log := s.log ++ [Entry.answered response] })
          (i := { s.identifier.rested.withPage pdu with
            thing := (s.identifier.rested.withPage pdu).thing.named }) hstarted hless' hfinished
          hresult rfl fun t ht => ?_
        rw [← Option.some_inj.1 ht]
        refine iff_of_true ⟨(hblank.withPage pdu).named_coherent rfl, ?_⟩ (hclean.2 hkeeps)
        exact (hall.trans (hread₁ [])).symm

/-- The register was asked for, and something came. -/
theorem Tracked.fell {exchange : TcpExchange} {objects : Option Objects}
    (hq : q ↔ Unnamed s.identifier.thing.objects ∧ s.identifier.thing.identified = objects)
    (hstarted : s.started = true) (hless : Thingless s.log)
    (hfinished : s.identifier.finished = false) (hresult : s.identifier.hasResult = true)
    (hexchange : s.identifier.exchange = some exchange) (hfallback : exchange.result = .onFallback)
    (hblank : s.identifier.thing.Blank)
    (hread : ∀ more, pagesRead unitId 1 none (responses s.log ++ more) = objects)
    (response : Option Bytes) :
    Tracked unitId (q ∧ s.Clean (.exchanged response)) (s.next (.exchanged response)) := by
  have hclean : q ∧ s.Clean (.exchanged response) ↔ q := by
    simp [Clean, hexchange, hfallback]
  have hless' : Thingless (s.log ++ [Entry.answered response]) := hless.snoc (by simp)
  have hall :
      pagesRead unitId 1 none (responses (s.log ++ [Entry.answered response])) = objects := by
    rw [responses_append]
    exact hread _
  have hthing : ∀ thing : ModbusThing, thing.Blank → thing.objects = s.identifier.thing.objects →
      thing.identified = s.identifier.thing.identified →
      (Intact unitId (s.log ++ [Entry.answered response]) thing ↔
        q ∧ s.Clean (.exchanged response)) := by
    intro thing hblank' hobjects hidentified
    rw [hclean, hq, Intact, hblank'.coherent_iff, hall, hobjects, hidentified]
  have heq : s.identifier.exchangeFinished response = s.identifier.onFallback response := by
    simp only [Identifier.exchangeFinished, hexchange, hfallback]
  rw [next, heq]
  rcases s.identifier.onFallback_cases hfinished response with h | h | ⟨code, h⟩
  · rw [h]
    exact .completes (s := { s with log := s.log ++ [Entry.answered response] })
      (i := s.identifier.rested) hstarted hless' hfinished hresult rfl fun t ht => by cases ht
  · rw [h]
    refine .completes (s := { s with log := s.log ++ [Entry.answered response] })
      (i := s.identifier.rested) hstarted hless' hfinished hresult rfl fun t ht => ?_
    exact Option.some_inj.1 ht ▸ hthing _ hblank rfl rfl
  · rw [h]
    refine .completes (s := { s with log := s.log ++ [Entry.answered response] })
      (i := s.identifier.rested.withException (some code)) hstarted hless' hfinished hresult rfl
      fun t ht => ?_
    exact Option.some_inj.1 ht ▸ hthing _ (hblank.withException (some code)) rfl rfl

theorem Tracked.next (h : Tracked unitId q s) {e : Event} (he : s.Enabled e) :
    Tracked unitId (q ∧ s.Clean e) (s.next e) := by
  have hcalm : (∀ response, e ≠ .exchanged response) → (q ∧ s.Clean e) = q := by
    intro hne
    cases e with
    | exchanged response => exact absurd rfl (hne response)
    | start => exact and_true q
    | cancel => exact and_true q
  cases e with
  | start =>
    rw [hcalm (by simp)]
    cases h with
    | reading hq hfinished hresult _ hunit hblank hread hless =>
      exact .turns (s := { s with started := true }) hq rfl hless hfinished hresult hunit hblank hread
    | falling _ _ _ hstarted => exact absurd (hstarted.symm.trans he) (by simp)
    | settled hfinished hthing =>
      refine .settled hfinished fun thing hmem => ?_
      rcases List.mem_append.1 hmem with hmem | hmem
      · exact absurd ((hthing thing hmem).1.symm.trans he) (by simp)
      · exact absurd (List.mem_singleton.1 hmem) (by simp)
  | exchanged response =>
    cases h with
    | reading hq hfinished hresult hmei hunit hblank hread hless =>
      obtain ⟨exchange, hexchange⟩ := Option.isSome_iff_exists.1 he
      subst hunit
      exact .paged hq (hmei exchange hexchange).2 hless hfinished hresult hexchange
        (hmei exchange hexchange).1 hblank hread response
    | falling hq hfinished hresult hstarted hexchange hfallback hblank hread hless =>
      exact .fell hq hstarted hless hfinished hresult hexchange hfallback hblank hread response
    | settled hfinished hthing =>
      refine .settled (s.identifier.exchangeFinished_of_finished hfinished response).2
        fun thing hmem => ?_
      have hmem' : Entry.result (some thing) ∈ s.log := by
        simpa [Identification.next, act,
          (s.identifier.exchangeFinished_of_finished hfinished response).1] using hmem
      exact absurd he (by simp [Enabled, (hthing thing hmem').2.1])
  | cancel =>
    rw [hcalm (by simp)]
    refine .settled rfl fun thing hmem => ?_
    have hmem' : Entry.result (some thing) ∈ s.log := by
      simpa [Identification.next] using hmem
    cases h with
    | reading _ _ _ _ _ _ _ hless => exact absurd hmem' (hless thing)
    | falling _ _ _ _ _ _ _ _ hless => exact absurd hmem' (hless thing)
    | settled _ hthing =>
      obtain ⟨hstarted, hnone, hintact⟩ := hthing thing hmem'
      have hresponses : responses (s.log ++ [Entry.cancelled]) = responses s.log := by
        rw [responses_append]
        exact List.append_nil _
      refine ⟨hstarted, hnone, ?_⟩
      rwa [Intact, show (s.next .cancel).log = s.log ++ [Entry.cancelled] from rfl, hresponses]

end

/-- What an identification has found is coherent, and holds nothing of a page that is
not whole, exactly if every step of the run was clean. -/
theorem thing_intact_iff_clean {address : Bytes} {port : UInt16} {unitId : UInt8}
    {es : List Event} {s : Identification}
    (hr : (machine address port unitId).Run (create address port unitId) es s)
    {thing : ModbusThing} (hthing : .result (some thing) ∈ s.log) :
    thing.Coherent ∧ thing.identified = pagesRead unitId 1 none (responses s.log) ↔
      ((machine address port unitId).restrict Clean).Run (create address port unitId) es s := by
  have hcreate : Tracked unitId True (create address port unitId) := by
    refine .reading trivial rfl rfl (fun exchange h => by cases h) rfl ?_ (fun more => rfl) ?_
    · exact ⟨rfl, rfl, rfl, fun _ => rfl⟩
    · simp [Thingless, create]
  have htracked := hr.tracks (P := Tracked unitId) (fun q t e h he => h.next he) hcreate
  rw [true_and] at htracked
  cases htracked with
  | reading _ _ _ _ _ _ _ hless => exact absurd hthing (hless thing)
  | falling _ _ _ _ _ _ _ _ hless => exact absurd hthing (hless thing)
  | settled _ hsettled => exact (hsettled thing hthing).2.2

instance (address : Bytes) (port : UInt16) (unitId : UInt8) (s : Identification) (e : Event) :
    Decidable ((machine address port unitId).enabled s e) :=
  inferInstanceAs (Decidable (s.Enabled e))

instance (address : Bytes) (port : UInt16) (unitId : UInt8) (s : Identification) (e : Event) :
    Decidable (((machine address port unitId).restrict Clean).enabled s e) :=
  inferInstanceAs (Decidable (s.Enabled e ∧ s.Clean e))

def host : Bytes := ascii "10.0.0.7"

/-- Unit 1 answers with a page of two objects, the second of them cut off, or with one. -/
def pageOf (objectCount : UInt8) : Bytes :=
  [0, 1, 0, 0, 0, 13, 1, 0x2b, 0x0e, 1, 1, 0, 0, objectCount, 0, 2, 0x41, 0x42, 1]

/-- The register that unit 1 answers with. -/
def registerReply : Bytes := [0, 1, 0, 0, 0, 5, 1, 3, 2, 0x12, 0x34]

def identifies (objectCount : UInt8) : List Event :=
  [.start, .exchanged (some (pageOf objectCount)), .exchanged (some registerReply)]

/-- Here the one page is whole. -/
theorem thing_intact_iff_clean_once :
    ∃ (s : Identification) (thing : ModbusThing), .result (some thing) ∈ s.log ∧
      thing.Coherent ∧ thing.identified = pagesRead 1 1 none (responses s.log) := by
  have hr : (machine host 502 1).Run (create host 502 1) ((identifies 1).take 2) _ :=
    Machine.run_of_runs (by decide)
  have hclean : ((machine host 502 1).restrict Clean).Run (create host 502 1)
      ((identifies 1).take 2) _ := Machine.run_of_runs (by decide)
  have hthing : .result (some (((identifies 1).take 2).foldl next
      (create host 502 1)).identifier.thing) ∈
        (((identifies 1).take 2).foldl next (create host 502 1)).log := by decide
  exact ⟨_, _, hthing, (thing_intact_iff_clean hr hthing).2 hclean⟩

/-- Here the second object is cut off: the thing of the fallback has the vendor of the
truncated page among its objects, and no vendor name. -/
theorem truncated_page_is_kept :
    ∃ (s : Identification) (thing : ModbusThing),
      (machine host 502 1).Run (create host 502 1) (identifies 2) s ∧
      .result (some thing) ∈ s.log ∧ thing.hasDeviceIdentification = true ∧
      thing.objects.lookup 0 = some [0x41, 0x42] ∧ thing.vendorName = [] ∧ ¬thing.Coherent ∧
      pagesRead 1 1 none (responses s.log) = none :=
  ⟨(identifies 2).foldl next (create host 502 1),
    ((identifies 2).foldl next (create host 502 1)).identifier.thing,
    Machine.run_of_runs (M := machine host 502 1) (by decide), by decide, by decide,
    by decide, by decide, by decide, by decide⟩

end Identification

end Neubau.Modbus
