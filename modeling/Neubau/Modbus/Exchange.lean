import Neubau.Modbus.Identifier
import Neubau.Modbus.SessionSpec

/-! One `TcpExchange` with its connection: one request, and the bytes that come back
until they are one frame, too many bytes, or none of a valid length. Whatever happens
to it, it calls its result once at most, with an error or with a frame that is as long as
its length field says; and a frame that comes in pieces is put together again. -/

namespace Neubau.Modbus

open Neubau.Common
open Neubau.Modbus.Session (readU16 error)

def maxModbusPduLength : ℕ := 253

/-- What an exchange does to the outside. -/
inductive ExchangeEffect
  | sent (bytes : Bytes)
  /-- `_result` is called, with an error or with the response. -/
  | result (outcome : Except Exception Bytes)
  deriving DecidableEq, Repr

/-- `TcpExchange`; `timer` says whether the response timeout is armed. -/
structure Exchange where
  request : Bytes
  response : Bytes := []
  timer : Bool := false
  finished : Bool := false
  log : List ExchangeEffect := []
  deriving DecidableEq, Repr

namespace Exchange

def finish (x : Exchange) (outcome : Except Exception Bytes) : Exchange :=
  if x.finished then x
  else { x with finished := true, timer := false, log := x.log ++ [.result outcome] }

/-- `startInLoop`; `created` says whether `createsocket` succeeds. -/
def startInLoop (x : Exchange) (created : Bool) : Exchange :=
  if x.finished then x
  else if !created then x.finish (.error (error "invalid Modbus TCP endpoint"))
  else x

/-- `onConnected`; `accepted` says whether `send` succeeds. -/
def onConnected (x : Exchange) (accepted : Bool) : Exchange :=
  if x.finished then x
  else if !accepted then x.finish (.error (error "Modbus TCP write failed"))
  else { x with timer := true, log := x.log ++ [.sent x.request] }

def onConnection (x : Exchange) (up accepted : Bool) : Exchange :=
  if up then x.onConnected accepted
  else x.finish (.error (error "Modbus TCP connection failed"))

def onTimeout (x : Exchange) : Exchange :=
  x.finish (.error (error "Modbus response timed out"))

def onData (x : Exchange) (bytes : Bytes) : Exchange :=
  if x.finished then x
  else
    let x := { x with response := x.response ++ bytes }
    if x.response.length < 7 then x
    else
      match readU16 x.response 4 with
      | none => x
      | some bodyLength =>
        if bodyLength < 2 ∨ bodyLength.toNat - 1 > maxModbusPduLength then
          x.finish (.error (error "invalid Modbus response length"))
        else
          let expected := 6 + bodyLength.toNat
          if x.response.length < expected then x
          else if x.response.length ≠ expected then
            x.finish (.error (error "unexpected trailing Modbus data"))
          else x.finish (.ok x.response)

/-- The end of the exchange that `cancel` queues. -/
def cancel (x : Exchange) : Exchange := x.finish (.error (error "Modbus operation stopped"))

inductive Event
  | startInLoop (created : Bool)
  | connection (up accepted : Bool)
  | data (bytes : Bytes)
  | timeout
  | cancel
  deriving DecidableEq, Repr

def step (x : Exchange) : Event → Exchange
  | .startInLoop created => x.startInLoop created
  | .connection up accepted => x.onConnection up accepted
  | .data bytes => x.onData bytes
  | .timeout => x.onTimeout
  | .cancel => x.cancel

/-- The outcomes the result was called with. -/
def outcomes (x : Exchange) : List (Except Exception Bytes) :=
  x.log.filterMap fun
    | .result outcome => some outcome
    | _ => none

/-- A response of the length its length field says. -/
def Whole (response : Bytes) : Prop :=
  ∃ bodyLength : UInt16, readU16 response 4 = some bodyLength ∧ 2 ≤ bodyLength.toNat ∧
    bodyLength.toNat ≤ 254 ∧ response.length = 6 + bodyLength.toNat

/-- The result was called once if the exchange has finished, and not at all before. -/
structure Sound (x : Exchange) : Prop where
  once : x.outcomes.length = x.finished.toNat
  whole : ∀ response, .ok response ∈ x.outcomes → Whole response

variable {x : Exchange}

theorem outcomes_finish (h : x.finished = false) (outcome : Except Exception Bytes) :
    (x.finish outcome).outcomes = x.outcomes ++ [outcome] := by
  simp [outcomes, finish, h]

theorem Sound.finish (h : x.Sound) {outcome : Except Exception Bytes}
    (hwhole : ∀ response, outcome = .ok response → Whole response) : (x.finish outcome).Sound := by
  cases hf : x.finished with
  | true =>
    rw [Exchange.finish, if_pos hf]
    exact h
  | false =>
    have hfinished : (x.finish outcome).finished = true := by simp [Exchange.finish, hf]
    refine ⟨?_, fun response hmem => ?_⟩
    · rw [outcomes_finish hf, hfinished, List.length_append, h.once, hf]
      rfl
    · rw [outcomes_finish hf] at hmem
      rcases List.mem_append.1 hmem with hmem | hmem
      · exact h.whole response hmem
      · exact hwhole response (List.mem_singleton.1 hmem).symm

theorem Sound.fails (h : x.Sound) (message : String) : (x.finish (.error (error message))).Sound :=
  h.finish fun _ heq => by cases heq

theorem Sound.onData (h : x.Sound) (bytes : Bytes) : (x.onData bytes).Sound := by
  have hmore : Sound { x with response := x.response ++ bytes } := ⟨h.once, h.whole⟩
  unfold Exchange.onData
  split_ifs with hf
  · exact h
  dsimp only
  split_ifs
  · exact hmore
  · split
    · exact hmore
    · rename_i bodyLength hread
      split_ifs with hlimits hshort hlong
      · exact hmore.fails _
      · exact hmore
      · exact hmore.fails _
      · refine hmore.finish fun response heq => ?_
        cases heq
        rw [not_or, UInt16.not_lt, UInt16.le_iff_toNat_le] at hlimits
        simp only [maxModbusPduLength, UInt16.reduceToNat] at hlimits
        exact ⟨bodyLength, hread, hlimits.1, by omega, not_not.1 hlong⟩

/-- Every event of an exchange keeps it sound. -/
theorem Sound.step (h : x.Sound) (e : Event) : (x.step e).Sound := by
  cases e with
  | startInLoop created =>
    change Sound (x.startInLoop created)
    unfold startInLoop
    split_ifs
    · exact h
    · exact h.fails _
    · exact h
  | connection up accepted =>
    change Sound (x.onConnection up accepted)
    unfold onConnection onConnected
    split_ifs
    · exact h
    · exact h.fails _
    · refine ⟨?_, fun response hmem => h.whole response ?_⟩
      · simpa [outcomes] using h.once
      · simpa [outcomes] using hmem
    · exact h.fails _
  | data bytes => exact h.onData bytes
  | timeout => exact h.fails _
  | cancel => exact h.fails _

/-! ### A response in pieces -/

/-- A response that has exactly the length its length field announces, valid or not. -/
def OneFrame (response : Bytes) (bodyLength : UInt16) : Prop :=
  readU16 response 4 = some bodyLength ∧ response.length = 6 + bodyLength.toNat

/-- The exchange with the first bytes of its response. -/
def received (x : Exchange) (response : Bytes) : Exchange := { x with response }

/-- What an exchange makes of the first bytes of one frame. -/
theorem onData_prefix {response : Bytes} {bodyLength : UInt16} (hframe : OneFrame response bodyLength)
    (hopen : x.finished = false) {bytes : Bytes} (hfront : x.response ++ bytes <+: response) :
    x.onData bytes =
      if (x.response ++ bytes).length < 7 then x.received (x.response ++ bytes)
      else if bodyLength < 2 ∨ 254 < bodyLength then
        (x.received (x.response ++ bytes)).finish (.error (error "invalid Modbus response length"))
      else if x.response ++ bytes = response then (x.received response).finish (.ok response)
      else x.received (x.response ++ bytes) := by
  obtain ⟨hread, hlen⟩ := hframe
  obtain ⟨rest, rfl⟩ := hfront
  have hlimits : bodyLength < 2 ∨ bodyLength.toNat - 1 > maxModbusPduLength ↔
      bodyLength < 2 ∨ 254 < bodyLength := by
    simp only [UInt16.lt_iff_toNat_lt, UInt16.reduceToNat, maxModbusPduLength]
    omega
  have htail : (x.response ++ bytes ++ rest).length = (x.response ++ bytes).length + rest.length :=
    List.length_append
  unfold onData
  rw [if_neg (by simp [hopen])]
  dsimp only
  by_cases h7 : (x.response ++ bytes).length < 7
  · rw [if_pos h7, if_pos h7]
    rfl
  · have hfield : readU16 (x.response ++ bytes) 4 = some bodyLength :=
      (Session.readU16_append (by omega) rest).symm.trans hread
    rw [if_neg h7, if_neg h7, hfield]
    simp only [hlimits]
    by_cases hbad : bodyLength < 2 ∨ 254 < bodyLength
    · rw [if_pos hbad, if_pos hbad]
      rfl
    · rw [if_neg hbad, if_neg hbad]
      cases rest with
      | nil =>
        simp only [List.append_nil] at htail hlen ⊢
        rw [if_neg (by omega), if_neg (by omega), if_pos trivial]
        rfl
      | cons b rest =>
        rw [List.length_cons] at htail
        rw [if_pos (by omega), if_neg (by simp)]
        rfl

/-- What the result is called with for one frame. -/
def verdict (bodyLength : UInt16) (response : Bytes) : Except Exception Bytes :=
  if bodyLength < 2 ∨ 254 < bodyLength then .error (error "invalid Modbus response length")
  else .ok response

theorem foldl_onData_finished (h : x.finished = true) (chunks : List Bytes) :
    chunks.foldl onData x = x := by
  induction chunks with
  | nil => rfl
  | cons c cs ih => rwa [List.foldl_cons, onData, if_pos h]

theorem finish_open (h : x.finished = false) (outcome : Except Exception Bytes) :
    (x.finish outcome).finished = true ∧
      (x.finish outcome).log = x.log ++ [ExchangeEffect.result outcome] := by
  simp [finish, h]

/-- However one frame arrives, the exchange that waits for it gets it whole, or the
error of its length; of less than seven bytes it gets nothing. -/
theorem foldl_onData {response : Bytes} {bodyLength : UInt16} (hframe : OneFrame response bodyLength)
    (chunks : List Bytes) (hopen : x.finished = false)
    (hchunks : x.response ++ chunks.flatten = response)
    (hmore : x.response.length < 7 ∨ x.response ≠ response ∧ ¬(bodyLength < 2 ∨ 254 < bodyLength)) :
    (response.length < 7 ∧ chunks.foldl onData x = x.received response) ∨
    (7 ≤ response.length ∧ (chunks.foldl onData x).finished = true ∧
      (chunks.foldl onData x).log =
        x.log ++ [ExchangeEffect.result (verdict bodyLength response)]) := by
  induction chunks generalizing x with
  | nil =>
    rw [List.flatten_nil, List.append_nil] at hchunks
    rcases hmore with hshort | ⟨hne, -⟩
    · exact .inl ⟨hchunks ▸ hshort, by rw [← hchunks]; rfl⟩
    · exact absurd hchunks hne
  | cons c cs ih =>
    have hsplit : x.response ++ c ++ cs.flatten = response := by
      rw [← hchunks, List.flatten_cons, List.append_assoc]
    have hdata := onData_prefix hframe hopen (List.prefix_iff_exists_append_eq.2 ⟨_, hsplit⟩)
    have hlen : (x.response ++ c).length ≤ response.length := by
      rw [← hsplit]
      exact (List.prefix_append _ cs.flatten).length_le
    rw [List.foldl_cons, hdata]
    split_ifs with h7 hbad hwhole
    · exact ih (x := x.received (x.response ++ c)) hopen hsplit (.inl h7)
    · obtain ⟨hfinished, hlog⟩ := finish_open (x := x.received (x.response ++ c)) hopen
        (.error (error "invalid Modbus response length"))
      rw [foldl_onData_finished hfinished, verdict, if_pos hbad]
      exact .inr ⟨by omega, hfinished, hlog⟩
    · obtain ⟨hfinished, hlog⟩ := finish_open (x := x.received response) hopen (.ok response)
      rw [foldl_onData_finished hfinished, verdict, if_neg hbad]
      exact .inr ⟨by omega, hfinished, hlog⟩
    · exact ih (x := x.received (x.response ++ c)) hopen hsplit (.inr ⟨hwhole, hbad⟩)

end Exchange

end Neubau.Modbus
