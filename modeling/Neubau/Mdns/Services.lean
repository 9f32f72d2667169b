import Neubau.Mdns.Rejection
import Neubau.Mdns.ServiceQuery

/-! The flow of services. A discovery sends queries and reads datagrams until it is stopped;
a query that cannot be sent is an error of the flow. The flow ends with its first error
or with the stop, whatever comes later: the discovery goes on to note what it finds, but
nobody hears of it. -/

namespace Neubau.Mdns

open Neubau.Common

/-- How a subject has ended. -/
inductive Ending
  | failed (error : Exception)
  | completed
  deriving DecidableEq

/-- `MdnsDiscovery` with its socket and its subject: `queries` are the datagrams sent, and
`heard` is what the subscribers got. -/
structure Services where
  discovery : MdnsDiscovery := {}
  stopped : Bool := false
  ending : Option Ending := none
  queries : List Bytes := []
  heard : List MdnsService := []
  deriving DecidableEq

namespace Services

/-- A subject takes the first terminal call, and ignores the others. -/
def finish (s : Services) (ending : Ending) : Services :=
  { s with ending := s.ending.or (some ending) }

def onDatagram (p : MdnsParser) (s : Services) (bytes : Bytes) : Services :=
  let discovery := s.discovery.onDatagram p bytes
  let emitted := discovery.log.drop s.discovery.log.length
  { s with discovery, heard := if s.ending.isSome then s.heard else s.heard ++ emitted }

/-- `sendQuery`; `sent` says whether the datagram could be sent. -/
def sendQuery (s : Services) (query : Bytes) (sent : Bool) : Services :=
  if sent then { s with queries := s.queries ++ [query] }
  else s.finish (.failed (.runtimeError "failed to send the mDNS query"))

def discover (s : Services) (serviceType : Bytes) (sent : Bool) :
    Services × Except Exception Unit :=
  match Mdns.discover serviceType with
  | .error e => (s, .error e)
  | .ok query => (s.sendQuery query sent, .ok ())

def stop (s : Services) : Services :=
  if s.stopped then s else { s with stopped := true }.finish .completed

inductive Event
  | datagram (bytes : Bytes)
  | discover (serviceType : Bytes) (sent : Bool)
  | stop
  deriving DecidableEq

def next (p : MdnsParser) (s : Services) : Event → Services
  | .datagram bytes => s.onDatagram p bytes
  | .discover serviceType sent => (s.discover serviceType sent).1
  | .stop => s.stop

/-- The call ends the flow: a query that cannot be sent, or the stop. -/
def Event.ends : Event → Bool
  | .discover serviceType false => (Mdns.discover serviceType).isOk
  | .stop => true
  | _ => false

def Event.bytes : Event → Option Bytes
  | .datagram bytes => some bytes
  | _ => none

end Services

/-! ### The discovery only adds to its log -/

namespace MdnsDiscovery

theorem emitChange_log (s : MdnsDiscovery) (key : Bytes) : s.log <+: (s.emitChange key).log := by
  unfold emitChange
  split
  · exact List.prefix_rfl
  · dsimp only
    split_ifs
    · exact List.prefix_rfl
    · exact List.prefix_rfl
    · exact List.prefix_append _ _

theorem emitChanges_log (s : MdnsDiscovery) : s.log <+: s.emitChanges.log := by
  unfold emitChanges
  generalize ascending s.discoveredServices.keys = keys
  induction keys generalizing s with
  | nil => exact List.prefix_rfl
  | cons key keys ih => exact (s.emitChange_log key).trans (ih (s.emitChange key))

end MdnsDiscovery

/-- The records that a datagram shows the discovery, those of a rejected one included. -/
def shown (p : MdnsParser) (bytes : Bytes) : List Record :=
  if Rejects p bytes then handled p bytes else p.records bytes

section Datagrams

variable {p : MdnsParser} {s : MdnsDiscovery} {h : List Record} {bytes : Bytes}

/-- A datagram shows its records, and then the changes are emitted unless it is rejected. -/
theorem onDatagram_eq (p : MdnsParser) (s : MdnsDiscovery) (bytes : Bytes) :
    s.onDatagram p bytes = if Rejects p bytes then (shown p bytes).foldl MdnsDiscovery.take s
      else ((shown p bytes).foldl MdnsDiscovery.take s).emitChanges := by
  unfold shown
  split_ifs with hrejects
  · exact onDatagram_rejected hrejects s
  · obtain ⟨hresponse, hparses⟩ := not_not.1 hrejects
    exact onDatagram_response hresponse hparses s

theorem onDatagram_log (p : MdnsParser) (s : MdnsDiscovery) (bytes : Bytes) :
    s.log <+: (s.onDatagram p bytes).log := by
  have hshown := (MdnsDiscovery.foldl_take (shown p bytes) s).2.2.2
  rw [onDatagram_eq]
  split_ifs
  · rw [hshown]
  · rw [← hshown]
    exact MdnsDiscovery.emitChanges_log _

/-- The discovery follows the records, and one that is not rejected brings every service up
to date. -/
theorem MdnsDiscovery.Tracks.onDatagram (ht : s.Tracks h) (bytes : Bytes) :
    (s.onDatagram p bytes).Tracks (h ++ shown p bytes) ∧
      (¬Rejects p bytes → ∀ key, (s.onDatagram p bytes).UpToDate (h ++ shown p bytes) key) := by
  have hshown := ht.foldl_take (shown p bytes)
  rw [onDatagram_eq]
  split_ifs with hrejects
  · exact ⟨hshown, fun hnot => absurd hrejects hnot⟩
  · exact ⟨hshown.emitChanges.1, fun _ => hshown.emitChanges.2⟩

/-- The discovery follows the records of all datagrams; if the last one is not rejected, every
service is up to date. -/
theorem tracks_datagrams (p : MdnsParser) (datagrams : List Bytes) :
    (datagrams.foldl (MdnsDiscovery.onDatagram p) {}).Tracks (datagrams.flatMap (shown p)) ∧
      ∀ bytes, datagrams.getLast? = some bytes → ¬Rejects p bytes → ∀ key,
        (datagrams.foldl (MdnsDiscovery.onDatagram p) {}).UpToDate
          (datagrams.flatMap (shown p)) key := by
  induction datagrams using List.reverseRecOn with
  | nil => exact ⟨.empty, fun bytes h => by cases h⟩
  | append_singleton datagrams last ih =>
    obtain ⟨htracks, hcurrent⟩ := ih.1.onDatagram (p := p) last
    rw [List.foldl_append, List.flatMap_append, List.flatMap_singleton]
    refine ⟨htracks, fun bytes hbytes hrejects => ?_⟩
    rw [List.getLast?_concat] at hbytes
    obtain rfl := Option.some.inj hbytes
    exact hcurrent hrejects

end Datagrams

namespace Services

variable {p : MdnsParser} {s : Services}

theorem ending_finish (s : Services) (ending : Ending) :
    (s.finish ending).ending = s.ending.or (some ending) := rfl

/-- Only a datagram is heard of; another call may end the flow. -/
theorem next_cases (p : MdnsParser) (s : Services) (e : Event) :
    (∃ bytes, e = .datagram bytes) ∨ (s.next p e).heard = s.heard ∧
      ∃ ending : Option Ending, (s.next p e).ending = s.ending.or ending := by
  cases e with
  | datagram bytes => exact .inl ⟨bytes, rfl⟩
  | discover serviceType sent =>
    right
    simp only [next, Services.discover]
    split
    · exact ⟨rfl, none, Option.or_none.symm⟩
    · unfold sendQuery
      split_ifs
      · exact ⟨rfl, none, Option.or_none.symm⟩
      · exact ⟨rfl, _, ending_finish s _⟩
  | stop =>
    right
    simp only [next, Services.stop]
    split_ifs
    · exact ⟨rfl, none, Option.or_none.symm⟩
    · exact ⟨rfl, _, ending_finish _ _⟩

/-- A flow that has ended stays as it is. -/
theorem next_ended (h : s.ending ≠ none) (e : Event) :
    (s.next p e).ending = s.ending ∧ (s.next p e).heard = s.heard := by
  obtain ⟨bytes, rfl⟩ | ⟨hheard, ending, hending⟩ := next_cases p s e
  · exact ⟨rfl, if_pos (Option.isSome_iff_ne_none.2 h)⟩
  · obtain ⟨ended, hended⟩ := Option.ne_none_iff_exists'.1 h
    refine ⟨?_, hheard⟩
    rw [hending, hended]
    rfl

theorem foldl_ended (h : s.ending ≠ none) (es : List Event) :
    (es.foldl (next p) s).ending = s.ending ∧ (es.foldl (next p) s).heard = s.heard := by
  induction es generalizing s with
  | nil => exact ⟨rfl, rfl⟩
  | cons e es ih =>
    obtain ⟨hending, hheard⟩ := next_ended (p := p) h e
    have hrest := ih (s := s.next p e) (by rwa [hending])
    rw [hending, hheard] at hrest
    exact hrest

theorem heard_grows (s : Services) (e : Event) : s.heard <+: (s.next p e).heard := by
  obtain ⟨bytes, rfl⟩ | ⟨hheard, -⟩ := next_cases p s e
  · show s.heard <+: if s.ending.isSome then s.heard else s.heard ++ _
    split_ifs
    · exact List.prefix_rfl
    · exact List.prefix_append _ _
  · rw [hheard]

theorem foldl_heard (es : List Event) (s : Services) :
    s.heard <+: (es.foldl (next p) s).heard := by
  induction es generalizing s with
  | nil => exact List.prefix_rfl
  | cons e es ih => exact (s.heard_grows e).trans (ih (s.next p e))

/-- While the flow goes on, its subscribers hear every service that is emitted. -/
structure Open (s : Services) : Prop where
  ending : s.ending = none
  stopped : s.stopped = false
  heard : s.heard = s.discovery.log

theorem Open.init : Open {} := ⟨rfl, rfl, rfl⟩

/-- A call that ends the flow ends it there. -/
theorem Open.ends (h : s.Open) {e : Event} (he : e.ends = true) :
    (s.next p e).ending ≠ none ∧ (s.next p e).heard = s.heard := by
  cases e with
  | datagram bytes => cases he
  | discover serviceType sent =>
    cases sent with
    | true => cases he
    | false =>
      simp only [Event.ends] at he
      cases hquery : Mdns.discover serviceType with
      | error e =>
        rw [hquery] at he
        cases he
      | ok query =>
        simp only [next, Services.discover, hquery, sendQuery, if_neg Bool.false_ne_true]
        exact ⟨by simp [ending_finish, h.ending], rfl⟩
  | stop =>
    simp only [next, Services.stop, h.stopped, if_neg Bool.false_ne_true]
    exact ⟨by simp [ending_finish, h.ending], rfl⟩

/-- The other calls keep it open. -/
theorem Open.next (h : s.Open) {e : Event} (he : e.ends = false) :
    (s.next p e).Open ∧ (s.next p e).discovery =
      e.bytes.elim s.discovery (s.discovery.onDatagram p) := by
  cases e with
  | datagram bytes =>
    refine ⟨⟨h.ending, h.stopped, ?_⟩, rfl⟩
    show (if s.ending.isSome then s.heard else s.heard ++ _) = _
    rw [h.ending, h.heard]
    exact List.prefix_iff_eq_append.1 (onDatagram_log p s.discovery bytes)
  | discover serviceType sent =>
    simp only [Services.next, Services.discover]
    split
    · exact ⟨h, rfl⟩
    · rename_i query hquery
      cases sent with
      | true => exact ⟨⟨h.ending, h.stopped, h.heard⟩, rfl⟩
      | false =>
        rw [Event.ends, hquery] at he
        cases he
  | stop => cases he

/-- What a flow that is open becomes over some calls. -/
theorem Open.foldl (h : s.Open) (es : List Event) :
    (es.foldl (Services.next p) s).heard =
      (((es.takeWhile fun e => !e.ends).filterMap Event.bytes).foldl
        (MdnsDiscovery.onDatagram p) s.discovery).log ∧
    ((es.foldl (Services.next p) s).ending = none ↔ ∀ e ∈ es, e.ends = false) := by
  induction es generalizing s with
  | nil => exact ⟨h.heard, iff_of_true h.ending (by simp)⟩
  | cons e es ih =>
    rw [List.foldl_cons]
    cases hends : e.ends with
    | false =>
      obtain ⟨hopen, hdiscovery⟩ := h.next (p := p) hends
      obtain ⟨hheard, hending⟩ := ih hopen
      rw [hheard, hending, hdiscovery, List.takeWhile_cons_of_pos (by simp [hends])]
      refine ⟨?_, by simp [hends]⟩
      cases hbytes : e.bytes with
      | none =>
        rw [List.filterMap_cons_none hbytes]
        rfl
      | some bytes =>
        rw [List.filterMap_cons_some hbytes]
        rfl
    | true =>
      obtain ⟨hended, hsame⟩ := h.ends (p := p) hends
      obtain ⟨hending, hheard⟩ := foldl_ended (p := p) hended es
      rw [hheard, hsame, h.heard, List.takeWhile_cons_of_neg (by simp [hends])]
      refine ⟨rfl, iff_of_false ?_ fun hall => by simp [hall e List.mem_cons_self] at hends⟩
      rw [hending]
      exact hended

/-- The subscribers hear the services that are emitted before the first query that cannot be
sent or the stop, whatever comes behind it, and no other. -/
theorem heard_until_ended (p : MdnsParser) (es : List Event) :
    (es.foldl (next p) {}).heard = (((es.takeWhile fun e => !e.ends).filterMap Event.bytes).foldl
      (MdnsDiscovery.onDatagram p) {}).log ∧
    ((es.foldl (next p) {}).ending = none ↔ ∀ e ∈ es, e.ends = false) :=
  Open.init.foldl es

end Services

end Neubau.Mdns
