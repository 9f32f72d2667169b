import Neubau.Modbus.Exchange
import Neubau.Modbus.Pages
import Neubau.Transition.History

/-! One identification from its start to its end. An identifier is started once, each
of its exchanges ends once, with any bytes or with none, and `cancel()` comes at any
moment. Eight pages and one fallback are the most it asks for, whatever it is
told, and when no exchange is under way, it has called its result or was cancelled. -/

namespace Neubau.Modbus

open Neubau.Common Neubau.Transition

namespace Identification

inductive Entry
  /-- An exchange was started. -/
  | request (exchange : TcpExchange)
  /-- An exchange ended. -/
  | answered (response : Option Bytes)
  | cancelled
  | result (thing : Option ModbusThing)
  deriving DecidableEq

end Identification

open Identification (Entry)

structure Identification where
  identifier : Identifier
  started : Bool := false
  log : List Entry := []
  deriving DecidableEq

namespace Identification

inductive Event
  | start
  /-- The exchange ends, with a response or with an error. -/
  | exchanged (response : Option Bytes)
  | cancel
  deriving DecidableEq, Repr

def create (address : Bytes) (port : UInt16) (unitId : UInt8) : Identification where
  identifier := .create address port unitId

/-- What an identifier does after a callback. -/
def act (s : Identification) (p : Identifier × Next) : Identification :=
  { s with
    identifier := p.1
    log := s.log ++ match p.2 with
      | .exchange => p.1.exchange.toList.map .request
      | .result thing => [.result thing]
      | .nothing => [] }

def Enabled (s : Identification) : Event → Prop
  | .start => s.started = false
  | .exchanged _ => s.identifier.exchange.isSome
  | .cancel => True

def next (s : Identification) : Event → Identification
  | .start => { s with started := true }.act s.identifier.start
  | .exchanged response =>
    { s with log := s.log ++ [Entry.answered response] }.act (s.identifier.exchangeFinished response)
  | .cancel => { s with identifier := s.identifier.cancel, log := s.log ++ [.cancelled] }

def machine (address : Bytes) (port : UInt16) (unitId : UInt8) : Machine Identification Event where
  init s := s = create address port unitId
  enabled := Enabled
  next := next

instance (s : Identification) (e : Event) : Decidable (s.Enabled e) := by
  cases e <;> unfold Enabled <;> infer_instance

/-! ### Logs -/

/-- The callbacks of the exchanges that were started, in order. -/
def requests (log : List Entry) : List ExchangeResult :=
  log.filterMap fun
    | .request exchange => some exchange.result
    | _ => none

/-- The number of exchanges that ended. -/
def answers (log : List Entry) : ℕ :=
  log.countP fun
    | .answered _ => true
    | _ => false

def Entry.isResult : Entry → Bool
  | .result _ => true
  | _ => false

/-- Nothing was called, and nothing cancelled. -/
def Pending (log : List Entry) : Prop := ∀ e ∈ log, e.isResult = false ∧ e ≠ .cancelled

/-- At most eight pages, then at most one fallback. -/
def Limited (requests : List ExchangeResult) : Prop :=
  ∃ pages fallbacks, requests = List.replicate pages .onMei ++ List.replicate fallbacks .onFallback ∧
    pages ≤ 8 ∧ fallbacks ≤ 1

/-- What an identifier may do after a history. -/
def Allowed (before : List Entry) : Entry → Prop
  | .request exchange => Limited (requests before ++ [exchange.result])
  | .result _ => Pending before
  | _ => True

section

variable {log : List Entry} {e : Entry}

theorem Pending.snoc (h : Pending log) (he : e.isResult = false ∧ e ≠ .cancelled) :
    Pending (log ++ [e]) := by
  intro e' he'
  rcases List.mem_append.1 he' with he' | he'
  · exact h e' he'
  · rwa [List.mem_singleton.1 he']

@[simp] theorem requests_append (log more : List Entry) :
    requests (log ++ more) = requests log ++ requests more := List.filterMap_append

@[simp] theorem answers_append (log more : List Entry) :
    answers (log ++ more) = answers log + answers more := List.countP_append

end

/-! ### Every run -/

/-- An identifier that has not finished has called nothing and was not cancelled; one
that has, was. -/
inductive Told (s : Identification) : Prop
  | pending : s.identifier.Open → Pending s.log → Told s
  | settled {e : Entry} : s.identifier.finished = true → e ∈ s.log →
      e.isResult = true ∨ e = .cancelled → Told s

/-- Where an identification is. -/
inductive Phase (s : Identification) : Prop
  | fresh : s.started = false → s.identifier.exchange = none → s.identifier.page = 0 →
      requests s.log = [] → answers s.log = 0 → Phase s
  | paging {exchange : TcpExchange} : s.started = true →
      s.identifier.exchange = some exchange → exchange.result = .onMei → s.identifier.page ≤ 7 →
      requests s.log = List.replicate (s.identifier.page + 1) .onMei →
      answers s.log = s.identifier.page → Phase s
  | falling {exchange : TcpExchange} {pages : ℕ} : s.started = true →
      s.identifier.exchange = some exchange → exchange.result = .onFallback → pages ≤ 8 →
      requests s.log = List.replicate pages .onMei ++ [.onFallback] → answers s.log = pages →
      Phase s
  | resting : s.started = true → s.identifier.exchange = none → s.identifier.finished = true →
      answers s.log = (requests s.log).length → Phase s

structure Sound (s : Identification) : Prop where
  history : History Allowed s.log
  told : Told s
  phase : Phase s

section

variable {s : Identification} {i : Identifier}

theorem Limited.pages {n : ℕ} (h : n ≤ 8) : Limited (List.replicate n .onMei) :=
  ⟨n, 0, by simp, h, by omega⟩

theorem Limited.fallback {n : ℕ} (h : n ≤ 8) :
    Limited (List.replicate n .onMei ++ [ExchangeResult.onFallback]) :=
  ⟨n, 1, rfl, h, le_rfl⟩

/-- The identifier calls its result. -/
theorem Sound.completes (hstarted : s.started = true) (hhistory : History Allowed s.log)
    (hpending : Pending s.log) (hanswers : answers s.log = (requests s.log).length)
    (hopen : i.Open) (hrests : i.exchange = none) (thing : Option ModbusThing) :
    Sound (s.act (i.complete thing)) := by
  have heq : i.complete thing = ({ i with finished := true, hasResult := false },
      .result thing) := by
    simp [Identifier.complete, hopen.finished, hopen.hasResult]
  rw [heq]
  refine ⟨hhistory.snoc hpending, ?_, ?_⟩
  · exact .settled (e := .result thing) rfl (by simp [act]) (.inl rfl)
  · refine .resting hstarted hrests rfl ?_
    simp only [act, answers_append, requests_append, hanswers, List.length_append]
    rfl

/-- The identifier asks for its next page. -/
theorem Sound.turns (hstarted : s.started = true) (hhistory : History Allowed s.log)
    (htold : Told { s with identifier := i }) (hpage : i.page ≤ 7)
    (hrequests : requests s.log = List.replicate i.page .onMei) (hanswers : answers s.log = i.page) :
    Sound (s.act i.requestMei) := by
  have hmore : requests s.log ++ [ExchangeResult.onMei] = List.replicate (i.page + 1) .onMei := by
    rw [hrequests, List.replicate_succ']
  refine ⟨hhistory.snoc ?_, ?_, ?_⟩
  · show Limited (requests s.log ++ [ExchangeResult.onMei])
    rw [hmore]
    exact .pages (by omega)
  · cases htold with
    | pending hopen hpending =>
      exact .pending ⟨hopen.finished, hopen.hasResult⟩ (hpending.snoc ⟨rfl, by simp⟩)
    | settled hfinished hmem he => exact .settled hfinished (List.mem_append_left _ hmem) he
  · refine .paging hstarted rfl rfl hpage ?_ ?_
    · exact (requests_append _ _).trans hmore
    · exact (answers_append _ _).trans hanswers

/-- The identifier asks for a register instead. -/
theorem Sound.falls {pages : ℕ} (hstarted : s.started = true) (hhistory : History Allowed s.log)
    (hpending : Pending s.log) (hopen : i.Open) (hpages : pages ≤ 8)
    (hrequests : requests s.log = List.replicate pages .onMei) (hanswers : answers s.log = pages) :
    Sound (s.act i.requestFallback) := by
  refine ⟨hhistory.snoc ?_, ?_, ?_⟩
  · show Limited (requests s.log ++ [ExchangeResult.onFallback])
    rw [hrequests]
    exact .fallback hpages
  · exact .pending ⟨hopen.finished, hopen.hasResult⟩ (hpending.snoc ⟨rfl, by simp⟩)
  · refine .falling hstarted rfl rfl hpages ?_ ?_
    · exact (requests_append _ _).trans (by rw [hrequests]; rfl)
    · exact (answers_append _ _).trans hanswers

/-- An exchange ends for an identifier that has finished. -/
theorem Sound.ignores (hstarted : s.started = true) (hhistory : History Allowed s.log)
    (htold : Told s) (hfinished : s.identifier.finished = true)
    {exchange : TcpExchange} (hexchange : s.identifier.exchange = some exchange)
    (hanswers : answers s.log + 1 = (requests s.log).length) (response : Option Bytes) :
    Sound (s.next (.exchanged response)) := by
  have heq : s.identifier.exchangeFinished response = (s.identifier.rested, .nothing) := by
    simp only [Identifier.exchangeFinished, hexchange]
    cases exchange.result <;>
      simp [Identifier.onMei, Identifier.onFallback, hfinished, Identifier.rested]
  rw [next, heq]
  simp only [act, List.append_nil]
  refine ⟨hhistory.snoc trivial, ?_, ?_⟩
  · cases htold with
    | pending hopen _ => exact absurd (hfinished.symm.trans hopen.finished) (by simp)
    | settled _ hmem he => exact .settled hfinished (List.mem_append_left _ hmem) he
  · refine .resting hstarted rfl hfinished ?_
    rw [answers_append, requests_append, List.length_append]
    exact hanswers

/-- A page was asked for, and something came. -/
theorem Sound.paged {exchange : TcpExchange} (hstarted : s.started = true)
    (hhistory : History Allowed s.log) (hpending : Pending s.log) (hopen : s.identifier.Open)
    (hexchange : s.identifier.exchange = some exchange) (hresult : exchange.result = .onMei)
    (hpage : s.identifier.page ≤ 7)
    (hrequests : requests s.log = List.replicate (s.identifier.page + 1) .onMei)
    (hanswers : answers s.log = s.identifier.page) (response : Option Bytes) :
    Sound (s.next (.exchanged response)) := by
  have hhistory' : History Allowed (s.log ++ [Entry.answered response]) := hhistory.snoc trivial
  have hpending' : Pending (s.log ++ [Entry.answered response]) := hpending.snoc ⟨rfl, by simp⟩
  have hrequests' : requests (s.log ++ [Entry.answered response]) =
      List.replicate (s.identifier.page + 1) .onMei := by
    rw [requests_append, hrequests]
    exact List.append_nil _
  have hanswers' : answers (s.log ++ [Entry.answered response]) = s.identifier.page + 1 := by
    rw [answers_append, hanswers]
    rfl
  have hcount : answers (s.log ++ [Entry.answered response]) =
      (requests (s.log ++ [Entry.answered response])).length := by
    rw [hanswers', hrequests', List.length_replicate]
  have heq : s.identifier.exchangeFinished response = s.identifier.onMei response := by
    simp only [Identifier.exchangeFinished, hexchange, hresult]
  rw [next, heq]
  have hrested := hopen.rested
  rcases s.identifier.onMei_cases hopen.finished response with ⟨-, hmei⟩ | ⟨pdu, -, -, hmei⟩ |
    ⟨pdu, -, -, hmei⟩
  · rw [hmei]
    exact .falls (s := { s with log := s.log ++ [Entry.answered response] }) (by exact hstarted)
      hhistory' hpending' hrested (by omega) hrequests' hanswers'
  · rw [hmei]
    exact .completes (s := { s with log := s.log ++ [Entry.answered response] }) (by exact hstarted)
      hhistory' hpending' hcount (hrested.withException _) rfl _
  · rw [hmei, Identifier.onPage]
    split_ifs with hwhole hcontinues
    · exact .falls (s := { s with log := s.log ++ [Entry.answered response] }) (by exact hstarted)
        hhistory' hpending' (hrested.withPage pdu) (by omega) hrequests' hanswers'
    · have hless : s.identifier.page < 7 := hcontinues.2.2
      exact .turns (s := { s with log := s.log ++ [Entry.answered response] }) (by exact hstarted)
        hhistory' (.pending ⟨hopen.finished, hopen.hasResult⟩ hpending')
        (show s.identifier.page + 1 ≤ 7 by omega) hrequests' hanswers'
    · exact .completes (s := { s with log := s.log ++ [Entry.answered response] })
        (by exact hstarted) hhistory' hpending' hcount (i := { s.identifier.rested.withPage pdu with
          thing := (s.identifier.rested.withPage pdu).thing.named })
        ⟨hopen.finished, hopen.hasResult⟩ rfl _

/-- The register was asked for, and something came. -/
theorem Sound.fell {exchange : TcpExchange} (hstarted : s.started = true)
    (hhistory : History Allowed s.log) (hpending : Pending s.log) (hopen : s.identifier.Open)
    (hexchange : s.identifier.exchange = some exchange) (hresult : exchange.result = .onFallback)
    (hanswers : answers s.log + 1 = (requests s.log).length) (response : Option Bytes) :
    Sound (s.next (.exchanged response)) := by
  have hhistory' : History Allowed (s.log ++ [Entry.answered response]) := hhistory.snoc trivial
  have hpending' : Pending (s.log ++ [Entry.answered response]) := hpending.snoc ⟨rfl, by simp⟩
  have hcount : answers (s.log ++ [Entry.answered response]) =
      (requests (s.log ++ [Entry.answered response])).length := by
    rw [answers_append, requests_append, List.length_append]
    exact hanswers
  have heq : s.identifier.exchangeFinished response = s.identifier.onFallback response := by
    simp only [Identifier.exchangeFinished, hexchange, hresult]
  have hrested := hopen.rested
  rw [next, heq]
  rcases s.identifier.onFallback_cases hopen.finished response with h | h | ⟨code, h⟩
  · rw [h]
    exact .completes (s := { s with log := s.log ++ [Entry.answered response] }) (by exact hstarted)
      hhistory' hpending' hcount hrested rfl _
  · rw [h]
    exact .completes (s := { s with log := s.log ++ [Entry.answered response] }) (by exact hstarted)
      hhistory' hpending' hcount hrested rfl _
  · rw [h]
    exact .completes (s := { s with log := s.log ++ [Entry.answered response] }) (by exact hstarted)
      hhistory' hpending' hcount (hrested.withException _) rfl _

theorem Sound.next (h : Sound s) {e : Event} (he : s.Enabled e) : Sound (s.next e) := by
  obtain ⟨hhistory, htold, hphase⟩ := h
  cases e with
  | start =>
    cases hphase with
    | fresh _ _ hpage hrequests hanswers =>
      refine .turns (s := { s with started := true }) rfl hhistory ?_ (by omega) ?_ ?_
      · cases htold with
        | pending hopen hpending => exact .pending hopen hpending
        | settled hfinished hmem he => exact .settled hfinished hmem he
      · rw [hpage]
        exact hrequests
      · rw [hpage]
        exact hanswers
    | paging hstarted => exact absurd (hstarted.symm.trans he) (by simp)
    | falling hstarted => exact absurd (hstarted.symm.trans he) (by simp)
    | resting hstarted => exact absurd (hstarted.symm.trans he) (by simp)
  | exchanged response =>
    cases hphase with
    | fresh _ hnone => exact absurd he (by simp [Enabled, hnone])
    | resting _ hnone => exact absurd he (by simp [Enabled, hnone])
    | paging hstarted hexchange hresult hpage hrequests hanswers =>
      cases htold with
      | pending hopen hpending =>
        exact .paged hstarted hhistory hpending hopen hexchange hresult hpage hrequests hanswers
          response
      | settled hfinished hmem he =>
        refine .ignores hstarted hhistory (.settled hfinished hmem he) hfinished hexchange ?_
          response
        rw [hanswers, hrequests, List.length_replicate]
    | falling hstarted hexchange hresult _ hrequests hanswers =>
      have hcount : answers s.log + 1 = (requests s.log).length := by
        rw [hanswers, hrequests, List.length_append, List.length_replicate]
        rfl
      cases htold with
      | pending hopen hpending =>
        exact .fell hstarted hhistory hpending hopen hexchange hresult hcount response
      | settled hfinished hmem he =>
        exact .ignores hstarted hhistory (.settled hfinished hmem he) hfinished hexchange hcount
          response
  | cancel =>
    refine ⟨hhistory.snoc trivial, ?_, ?_⟩
    · exact .settled (e := .cancelled) rfl (by simp [Identification.next]) (.inr rfl)
    · have hrequests : requests (s.log ++ [Entry.cancelled]) = requests s.log := by
        rw [requests_append]
        exact List.append_nil _
      have hanswers : answers (s.log ++ [Entry.cancelled]) = answers s.log := answers_append _ _
      cases hphase with
      | fresh h₁ h₂ h₃ h₄ h₅ => exact .fresh h₁ h₂ h₃ (hrequests.trans h₄) (hanswers.trans h₅)
      | paging h₁ h₂ h₃ h₄ h₅ h₆ =>
        exact .paging h₁ h₂ h₃ h₄ (hrequests.trans h₅) (hanswers.trans h₆)
      | falling h₁ h₂ h₃ h₄ h₅ h₆ =>
        exact .falling h₁ h₂ h₃ h₄ (hrequests.trans h₅) (hanswers.trans h₆)
      | resting h₁ h₂ _ h₄ =>
        exact .resting h₁ h₂ rfl (hanswers.trans (h₄.trans (congrArg _ hrequests.symm)))

theorem Sound.create (address : Bytes) (port : UInt16) (unitId : UInt8) :
    Sound (create address port unitId) where
  history := .nil
  told := .pending ⟨rfl, rfl⟩ (by simp [Pending, Identification.create])
  phase := .fresh rfl rfl rfl rfl rfl

theorem Sound.reachable {address : Bytes} {port : UInt16} {unitId : UInt8}
    (hs : (machine address port unitId).Reachable s) : Sound s := by
  have h : (machine address port unitId).Invariant Sound := by
    refine ⟨?_, fun t e ht he => ht.next he⟩
    rintro t rfl
    exact .create address port unitId
  exact h.reachable hs

/-- The requests of a history are limited: they were when the last one was made. -/
theorem limited_of_history {log : List Entry} (h : History Allowed log) : Limited (requests log) := by
  induction h with
  | nil => exact .pages (Nat.zero_le _)
  | @snoc before e _ hok ih =>
    cases e with
    | request exchange => exact (requests_append _ _).symm ▸ hok
    | _ =>
      rw [requests_append]
      exact (List.append_nil _).symm ▸ ih

/-- What every run of an identification has in common. -/
structure Ends (s : Identification) : Prop where
  limited : Limited (requests s.log)
  answers : answers s.log ≤ (requests s.log).length
  once : s.log.countP Entry.isResult ≤ 1
  cancelled : ∀ before after, s.log = before ++ .cancelled :: after →
    ∀ e ∈ after, e.isResult = false
  result : s.started = true → s.identifier.exchange = none →
    (∃ thing, .result thing ∈ s.log) ∨ .cancelled ∈ s.log

/-- A result finds neither a result nor a `cancel()` before it. -/
theorem Allowed.pending {before : List Entry} {e : Entry} (he : e.isResult = true)
    (h : Allowed before e) : Pending before := by
  cases e with
  | result thing => exact h
  | _ => cases he

theorem Sound.ends (h : Sound s) : Ends s where
  limited := limited_of_history h.history
  answers := by
    cases h.phase with
    | fresh _ _ _ hrequests hanswers => rw [hrequests, hanswers]; exact Nat.zero_le _
    | paging _ _ _ _ hrequests hanswers =>
      rw [hrequests, hanswers, List.length_replicate]
      exact Nat.le_succ _
    | falling _ _ _ _ hrequests hanswers =>
      rw [hrequests, hanswers, List.length_append, List.length_replicate]
      exact Nat.le_add_right _ _
    | resting _ _ _ hanswers => exact hanswers.le
  once := h.history.once fun before e he hok e' he' => (hok.pending he e' he').1
  cancelled before after hsplit := h.history.never_after
    (fun before e he hok hmem => (hok.pending he _ hmem).2 rfl) hsplit
  result hstarted hnone := by
    have hfinished : s.identifier.finished = true := by
      cases h.phase with
      | fresh hfresh => exact absurd (hfresh.symm.trans hstarted) (by simp)
      | paging _ hsome => exact absurd (hsome.symm.trans hnone) (by simp)
      | falling _ hsome => exact absurd (hsome.symm.trans hnone) (by simp)
      | resting _ _ hfinished => exact hfinished
    cases h.told with
    | pending hopen => exact absurd (hopen.finished.symm.trans hfinished) (by simp)
    | @settled e _ hmem he =>
      rcases he with he | rfl
      · cases e with
        | result thing => exact .inl ⟨thing, hmem⟩
        | _ => cases he
      · exact .inr hmem

end

/-- Whatever the exchanges bring, an identification asks for eight pages and one
fallback at most, calls its result once unless it is cancelled before, and reads inside
the response it was given; and every exchange brings one frame or an error. -/
theorem identification_ends (address : Bytes) (port : UInt16) (unitId : UInt8) :
    (∀ s, (machine address port unitId).Reachable s → Ends s) ∧
    (∀ (i : Identifier) bytes transactionId,
      Identifier.validEnvelope bytes transactionId i.unitId = true →
        (i.onMeiPdu (bytes.drop 7)).isSome ∧ (i.onFallbackPdu (bytes.drop 7)).isSome) ∧
    (∀ pdu objectCount offset objects,
      (Identifier.readObjectsFrom pdu 0 objectCount offset objects).isSome) ∧
    (∀ request (es : List Exchange.Event),
      (es.foldl Exchange.step { request }).outcomes.length ≤ 1 ∧
        ∀ response, .ok response ∈ (es.foldl Exchange.step { request }).outcomes →
          Exchange.Whole response) := by
  refine ⟨fun s hs => (Sound.reachable hs).ends, fun i bytes transactionId hvalid => ?_,
    fun pdu objectCount offset objects => ?_, fun request es => ?_⟩
  · have hne := Identifier.drop_ne_nil hvalid
    constructor
    · by_cases hexception : (bytes.drop 7)[0]? = some 0xab
      · rw [Identifier.onMeiPdu_exception hexception]
        rfl
      · by_cases hpage : Identifier.IsPage (bytes.drop 7)
        · rw [Identifier.onMeiPdu_page hpage]
          rfl
        · rw [Identifier.onMeiPdu_malformed hne hexception hpage]
          rfl
    · rcases i.onFallbackPdu_cases hne with h | h | ⟨code, h⟩ <;> rw [h] <;> rfl
  · rw [Identifier.readObjectsFrom_eq objectCount.toNat (Nat.zero_add _), Identifier.readObjects_eq]
    rfl
  · have hsound : ∀ (es : List Exchange.Event) (x : Exchange), x.Sound →
        (es.foldl Exchange.step x).Sound := by
      intro es
      induction es with
      | nil => exact fun x hx => hx
      | cons e es ih => exact fun x hx => ih _ (hx.step e)
    have hx : Exchange.Sound { request } := ⟨rfl, fun response hmem => by cases hmem⟩
    obtain ⟨honce, hwhole⟩ := hsound es _ hx
    exact ⟨honce.trans_le (Bool.toNat_le _), hwhole⟩

end Identification

end Neubau.Modbus
