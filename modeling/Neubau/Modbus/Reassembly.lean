import Neubau.Modbus.Identification
import Neubau.Modbus.Replies

/-! A table of objects served in pages. A conforming server answers the request for an
object with a page of the objects from it upward, and says where the next page begins.
However it splits its table, an identification of at most eight pages puts the table
together again: the objects of one page are a list that parsing gives back, and the
pages tile the table from the first object on. -/

namespace Neubau.Modbus

open Neubau.Common Neubau.Stream Neubau.Transition
open Neubau.Modbus.Session (readU16 writeU16)

/-- A page as a server puts it together. -/
structure Page where
  conformity : UInt8
  moreFollows : UInt8
  nextObjectId : UInt8
  objects : List Record

namespace Page

variable {p : Page} {table : Objects} {o : UInt8}

def pdu (p : Page) : Bytes :=
  [encapsulatedInterfaceTransport, readDeviceIdentification, basicDeviceIdentification,
    p.conformity, p.moreFollows, p.nextObjectId, UInt8.ofNat p.objects.length] ++
    Record.encodeAll p.objects

/-- The page as the reply to a request, with its transaction and its unit. -/
def reply (p : Page) (request : Bytes) : Bytes :=
  request.take 2 ++ writeU16 0 ++ writeU16 (UInt16.ofNat (1 + p.pdu.length)) ++
    [request.getD 6 0] ++ p.pdu

/-- The page has the objects of the table from `o` upward, in order, up to the next page. -/
structure Holds (p : Page) (table : Objects) (o : UInt8) : Prop where
  fits : p.pdu.length ≤ maxModbusPduLength
  ordered : p.objects.Pairwise fun r r' => r.1 < r'.1
  objects : ∀ key value, (key, value) ∈ p.objects ↔
    table.lookup key = some value ∧ o ≤ key ∧ (p.moreFollows ≠ 0 → key < p.nextObjectId)

end Page

/-- The pages a server answers with, asked for object `o` and then for each next page. -/
inductive Serves (table : Objects) : UInt8 → List Page → Prop
  | last {o : UInt8} {p : Page} : p.Holds table o → p.moreFollows = 0 → Serves table o [p]
  | more {o : UInt8} {p : Page} {pages : List Page} : p.Holds table o → p.moreFollows ≠ 0 →
      o < p.nextObjectId → Serves table p.nextObjectId pages → Serves table o (p :: pages)

/-- The requests for the pages from object `o` on, each with its reply. -/
def conversation (unitId : UInt8) : UInt16 → UInt8 → List Page → List (Bytes × Bytes)
  | _, _, [] => []
  | transactionId, o, p :: pages =>
    let request := deviceIdRequest transactionId unitId o
    (request, p.reply request) :: conversation unitId (transactionId + 1) p.nextObjectId pages

/-! ### One page -/

theorem lookup_store {f : UInt8 → Option Bytes} {rs : List Record}
    (h : ∀ r ∈ rs, f r.1 = some r.2) (objects : Objects) (key : UInt8) :
    (store objects rs).lookup key =
      if key ∈ rs.map Prod.fst then f key else objects.lookup key := by
  induction rs generalizing objects with
  | nil => rfl
  | cons r rs ih =>
    have hstore : store objects (r :: rs) = store (objects.insert r.1 r.2) rs := rfl
    rw [hstore, ih fun r' hr' => h r' (List.mem_cons_of_mem _ hr')]
    by_cases hmem : key ∈ rs.map Prod.fst
    · rw [if_pos hmem, if_pos (by simp [hmem])]
    · rw [if_neg hmem]
      by_cases hkey : key = r.1
      · subst hkey
        rw [Finmap.lookup_insert, if_pos (by simp), h r List.mem_cons_self]
      · rw [Finmap.lookup_insert_of_ne _ hkey, if_neg (by simp [hkey, hmem])]

namespace Page

variable {p : Page} {table : Objects} {o : UInt8}

theorem length_pdu (p : Page) : p.pdu.length = 7 + (Record.encodeAll p.objects).length := by
  rw [pdu, List.length_append]
  rfl

theorem isPage_pdu (p : Page) : Identifier.IsPage p.pdu :=
  ⟨by rw [length_pdu]; omega, rfl, rfl⟩

/-- Parsing gives the objects of a page back. -/
theorem pageObjects_pdu (h : p.pdu.length ≤ maxModbusPduLength) :
    Identifier.pageObjects p.pdu = (p.objects, true) := by
  rw [length_pdu, maxModbusPduLength] at h
  have hcount : (UInt8.ofNat p.objects.length).toNat = p.objects.length := by
    have htwo := Record.two_mul_length_le p.objects
    exact UInt8.toNat_ofNat_of_lt' (show _ < 256 by omega)
  have hvalues : ∀ r ∈ p.objects, r.2.length < 256 := by
    intro r hr
    have hmem := Record.length_le_of_mem hr
    omega
  show Record.parse (UInt8.ofNat p.objects.length).toNat (Record.encodeAll p.objects) = _
  rw [hcount, ← List.append_nil (Record.encodeAll p.objects), Record.parse_encodeAll hvalues]

theorem reply_eq (p : Page) (transactionId : UInt16) (unitId o : UInt8) :
    p.reply (deviceIdRequest transactionId unitId o) = writeU16 transactionId ++ writeU16 0 ++
      writeU16 (UInt16.ofNat (1 + p.pdu.length)) ++ [unitId] ++ p.pdu := rfl

/-- A reply has the envelope of its request. -/
theorem content_reply (p : Page) (transactionId : UInt16) (unitId o : UInt8) :
    Identifier.content transactionId unitId
      (some (p.reply (deviceIdRequest transactionId unitId o))) = some p.pdu := by
  have htransaction : readU16 (p.reply (deviceIdRequest transactionId unitId o)) 0 =
      some transactionId := by
    rw [reply_eq, List.append_assoc, List.append_assoc, List.append_assoc]
    exact Session.readU16_writeU16 [] _ _
  have hprotocol : readU16 (p.reply (deviceIdRequest transactionId unitId o)) 2 = some 0 := by
    rw [reply_eq, List.append_assoc, List.append_assoc]
    exact Session.readU16_writeU16 (writeU16 transactionId) _ _
  have hlength : 8 ≤ (p.reply (deviceIdRequest transactionId unitId o)).length := by
    have hpdu := p.length_pdu
    rw [reply_eq, List.length_append, hpdu]
    simp only [List.length_append, Session.length_writeU16]
    omega
  have hvalid : Identifier.validEnvelope (p.reply (deviceIdRequest transactionId unitId o))
      transactionId unitId = true := by
    simp only [Identifier.validEnvelope, htransaction, hprotocol, Bool.and_eq_true,
      decide_eq_true_eq, beq_iff_eq]
    exact ⟨⟨⟨hlength, trivial⟩, trivial⟩, rfl⟩
  rw [Identifier.content, Option.bind_some, if_pos hvalid]
  rfl

/-- The objects below the next page, or all objects, are those of the table. -/
theorem lookup_withPage (h : p.Holds table o) {objects : Objects}
    (hobjects : ∀ key, objects.lookup key = if key < o then table.lookup key else none)
    (key : UInt8) : (store objects p.objects).lookup key =
      if p.moreFollows ≠ 0 → key < o ∨ key < p.nextObjectId then table.lookup key else none := by
  have hmem : key ∈ p.objects.map Prod.fst ↔ (∃ value, table.lookup key = some value) ∧ o ≤ key ∧
      (p.moreFollows ≠ 0 → key < p.nextObjectId) := by
    simp only [List.mem_map, Prod.exists, exists_and_right, exists_eq_right, h.objects]
  rw [lookup_store (f := fun key => table.lookup key) (fun r hr => ((h.objects r.1 r.2).1 hr).1),
    hobjects]
  by_cases hkey : key ∈ p.objects.map Prod.fst
  · obtain ⟨-, -, hnext⟩ := hmem.1 hkey
    rw [if_pos hkey, if_pos fun hmore => .inr (hnext hmore)]
  · rw [if_neg hkey]
    by_cases hlow : key < o
    · rw [if_pos hlow, if_pos fun _ => .inl hlow]
    · rw [if_neg hlow]
      split_ifs with hbelow
      · cases hlookup : table.lookup key with
        | none => rfl
        | some value =>
          exact absurd (hmem.2 ⟨⟨value, hlookup⟩, UInt8.not_lt.1 hlow,
            fun hmore => (hbelow hmore).resolve_left hlow⟩) hkey
      · rfl

end Page

/-! ### All pages -/

section

variable {table : Objects} {o : UInt8} {pages : List Page}

theorem Serves.fits (h : Serves table o pages) : ∀ p ∈ pages, p.pdu.length ≤ maxModbusPduLength := by
  induction h with
  | last hp => exact fun p hmem => List.mem_singleton.1 hmem ▸ hp.fits
  | more hp _ _ _ ih =>
    intro p hmem
    rcases List.mem_cons.1 hmem with rfl | hmem
    · exact hp.fits
    · exact ih p hmem

theorem mem_conversation {u : UInt8} {t : UInt16} {x : Bytes × Bytes}
    (h : x ∈ conversation u t o pages) : ∃ p ∈ pages, ∃ t' o',
      x.2 = p.reply (deviceIdRequest t' u o') := by
  induction pages generalizing t o with
  | nil => cases h
  | cons p pages ih =>
    rcases List.mem_cons.1 h with rfl | h
    · exact ⟨p, List.mem_cons_self, t, o, rfl⟩
    · obtain ⟨p', hmem, hx⟩ := ih h
      exact ⟨p', List.mem_cons_of_mem _ hmem, hx⟩

end

namespace Identification

variable {table : Objects} {o : UInt8} {pages : List Page} {s : Identification}

/-- The exchange of the request for a page. -/
def page (request : Bytes) : TcpExchange := { result := .onMei, request }

/-- An identification that waits for the page from object `o`, with the objects below it. -/
structure Awaits (s : Identification) (u : UInt8) (table : Objects) (o : UInt8) : Prop where
  opened : s.identifier.Open
  unitId : s.identifier.unitId = u
  objectId : s.identifier.objectId = o
  exchange : s.identifier.exchange = some (page (deviceIdRequest s.identifier.transactionId u o))
  names : s.identifier.thing.vendorName = [] ∧ s.identifier.thing.productCode = [] ∧
    s.identifier.thing.revision = []
  objects : ∀ key, s.identifier.thing.objects.lookup key =
    if key < o then table.lookup key else none

/-- A thing with the whole table, and the names it gives. -/
structure Shows (thing : ModbusThing) (table : Objects) : Prop where
  hasDeviceIdentification : thing.hasDeviceIdentification = true
  objects : thing.objects = table
  vendorName : thing.vendorName = (table.lookup 0).getD []
  productCode : thing.productCode = (table.lookup 1).getD []
  revision : thing.revision = (table.lookup 2).getD []

/-- The entries of one exchange. -/
def exchanged (x : Bytes × Bytes) : List Entry :=
  [.request (page x.1), .answered (some x.2)]

theorem Awaits.enabled {u : UInt8} (h : s.Awaits u table o) (response : Option Bytes) :
    s.Enabled (.exchanged response) :=
  Option.isSome_iff_exists.2 ⟨_, h.exchange⟩

/-- A reply brings the identifier a whole page. -/
theorem Awaits.exchangeFinished {u : UInt8} {p : Page} (h : s.Awaits u table o)
    (hfits : p.pdu.length ≤ maxModbusPduLength) :
    s.identifier.exchangeFinished
        (some (p.reply (deviceIdRequest s.identifier.transactionId u o))) =
      if s.identifier.Continues p.pdu then (s.identifier.rested.turned p.pdu).requestMei
      else { s.identifier.rested.withPage p.pdu with
        thing := (s.identifier.withPage p.pdu).thing.named }.complete
          (some (s.identifier.withPage p.pdu).thing.named) := by
  have hcontent : Identifier.content s.identifier.transactionId s.identifier.unitId
      (some (p.reply (deviceIdRequest s.identifier.transactionId u o))) = some p.pdu := by
    rw [h.unitId]
    exact p.content_reply _ u o
  rw [Identifier.exchangeFinished, h.exchange]
  refine (Identifier.onMei_page h.opened.finished hcontent p.isPage_pdu).trans ?_
  rw [Identifier.onPage, if_neg (by simp [Page.pageObjects_pdu hfits])]
  rfl

theorem Awaits.continues_iff {u : UInt8} (h : s.Awaits u table o) (p : Page) :
    s.identifier.Continues p.pdu ↔
      p.moreFollows ≠ 0 ∧ p.nextObjectId ≠ o ∧ s.identifier.page < 7 := by
  have hmore : p.pdu[4]? = some p.moreFollows := rfl
  have hnext : p.pdu[5]? = some p.nextObjectId := rfl
  simp only [Identifier.Continues, hmore, hnext, h.objectId, ne_eq, Option.some_inj]

theorem Awaits.lookup {u : UInt8} {p : Page} (h : s.Awaits u table o) (hp : p.Holds table o)
    (key : UInt8) : (s.identifier.withPage p.pdu).thing.objects.lookup key =
      if p.moreFollows ≠ 0 → key < o ∨ key < p.nextObjectId then table.lookup key else none := by
  rw [Identifier.withPage, Page.pageObjects_pdu hp.fits]
  exact Page.lookup_withPage hp h.objects key

/-- A page that another one follows. -/
theorem Awaits.turns {u : UInt8} {p : Page} (h : s.Awaits u table o) (hp : p.Holds table o)
    (hmore : p.moreFollows ≠ 0) (hnext : o < p.nextObjectId) (hpage : s.identifier.page < 7) :
    let reply := p.reply (deviceIdRequest s.identifier.transactionId u o)
    let t := s.next (.exchanged (some reply))
    t.Awaits u table p.nextObjectId ∧ t.identifier.page = s.identifier.page + 1 ∧
      t.identifier.transactionId = s.identifier.transactionId + 1 ∧
      t.log = s.log ++ [Entry.answered (some reply)] ++
        [.request (page (deviceIdRequest (s.identifier.transactionId + 1) u p.nextObjectId))] := by
  intro reply t
  have hcontinues := (h.continues_iff p).2 ⟨hmore, (UInt8.ne_of_lt hnext).symm, hpage⟩
  have ht : t = { s with log := s.log ++ [Entry.answered (some reply)] }.act
      (s.identifier.rested.turned p.pdu).requestMei := by
    show act _ _ = _
    rw [h.exchangeFinished hp.fits, if_pos hcontinues]
  have hobjects : ∀ key, t.identifier.thing.objects.lookup key =
      if key < p.nextObjectId then table.lookup key else none := by
    intro key
    rw [ht]
    refine (h.lookup hp key).trans (if_congr ?_ rfl rfl)
    exact ⟨fun hkey => (hkey hmore).elim (fun hlt => UInt8.lt_trans hlt hnext) id,
      fun hlt _ => .inr hlt⟩
  have hrequest : ((s.identifier.rested.turned p.pdu).requestMei).1.exchange =
      some (page (deviceIdRequest (s.identifier.transactionId + 1) u p.nextObjectId)) := by
    rw [← h.unitId]
    rfl
  refine ⟨⟨?_, ?_, ?_, ?_, ?_, hobjects⟩, ?_, ?_, ?_⟩ <;> rw [ht]
  · exact ⟨h.opened.finished, h.opened.hasResult⟩
  · exact h.unitId
  · rfl
  · exact hrequest
  · exact h.names
  · rfl
  · rfl
  · show (s.log ++ [Entry.answered (some reply)]) ++ _ = _
    rw [hrequest]
    rfl

/-- The page that no other one follows. -/
theorem Awaits.completes {u : UInt8} {p : Page} (h : s.Awaits u table o) (hp : p.Holds table o)
    (hlast : p.moreFollows = 0) :
    let reply := p.reply (deviceIdRequest s.identifier.transactionId u o)
    let t := s.next (.exchanged (some reply))
    ∃ thing, t.log = s.log ++ [Entry.answered (some reply)] ++ [.result (some thing)] ∧
      Shows thing table ∧ t.identifier.exchange = none := by
  intro reply t
  have hcontinues : ¬s.identifier.Continues p.pdu :=
    fun hcontinues => ((h.continues_iff p).1 hcontinues).1 hlast
  have hobjects : (s.identifier.withPage p.pdu).thing.objects = table := by
    refine Finmap.ext_lookup fun key => (h.lookup hp key).trans (if_pos ?_)
    exact fun hmore => absurd hlast hmore
  have hcomplete : ({ s.identifier.rested.withPage p.pdu with
      thing := (s.identifier.withPage p.pdu).thing.named } : Identifier).complete
        (some (s.identifier.withPage p.pdu).thing.named) =
      ({ s.identifier.rested.withPage p.pdu with
        thing := (s.identifier.withPage p.pdu).thing.named
        finished := true
        hasResult := false }, .result (some (s.identifier.withPage p.pdu).thing.named)) := by
    simp [Identifier.complete, Identifier.withPage, Identifier.rested, h.opened.finished,
      h.opened.hasResult]
  have ht : t = { s with log := s.log ++ [Entry.answered (some reply)] }.act
      ({ s.identifier.rested.withPage p.pdu with
        thing := (s.identifier.withPage p.pdu).thing.named
        finished := true
        hasResult := false }, .result (some (s.identifier.withPage p.pdu).thing.named)) := by
    show act _ _ = _
    rw [h.exchangeFinished hp.fits, if_neg hcontinues, hcomplete]
  obtain ⟨hvendor, hproduct, hrevision⟩ := h.names
  refine ⟨(s.identifier.withPage p.pdu).thing.named, ?_, ⟨rfl, hobjects, ?_, ?_, ?_⟩, ?_⟩
  · rw [ht]
    rfl
  · rw [← hvendor, ← hobjects]
    rfl
  · rw [← hproduct, ← hobjects]
    rfl
  · rw [← hrevision, ← hobjects]
    rfl
  · rw [ht]
    rfl

/-- The pages that are left complete the table. -/
theorem Awaits.served {u : UInt8} (address : Bytes) (port : UInt16) (hpages : Serves table o pages)
    (hs : s.Awaits u table o) (hfew : s.identifier.page + pages.length ≤ 8) (before : List Entry)
    (hlog : s.log =
      before ++ [Entry.request (page (deviceIdRequest s.identifier.transactionId u o))]) :
    ∃ t thing, (machine address port u).Run s
        ((conversation u s.identifier.transactionId o pages).map fun x => .exchanged (some x.2)) t ∧
      t.log = before ++ (conversation u s.identifier.transactionId o pages).flatMap exchanged ++
        [.result (some thing)] ∧ Shows thing table ∧ t.identifier.exchange = none := by
  induction hpages generalizing s before with
  | @last o p hp hlast =>
    obtain ⟨thing, ht, hshows, hnone⟩ := hs.completes hp hlast
    have henabled : s.Enabled (.exchanged
        (some (p.reply (deviceIdRequest s.identifier.transactionId u o)))) := hs.enabled _
    refine ⟨_, thing, .cons henabled (.nil _), ht.trans ?_, hshows, hnone⟩
    rw [hlog]
    simp [conversation, exchanged]
  | @more o p pages hp hmore hnext hrest ih =>
    have hsome : 0 < pages.length := by
      cases hrest <;> exact Nat.succ_pos _
    rw [List.length_cons] at hfew
    obtain ⟨hawaits, hpage, htransaction, ht⟩ := hs.turns hp hmore hnext (by omega)
    obtain ⟨t, thing, hrun, hend, hshows⟩ := ih hawaits (by rw [hpage]; omega) _
      (by rw [ht, htransaction])
    rw [htransaction] at hrun hend
    have henabled : s.Enabled (.exchanged
        (some (p.reply (deviceIdRequest s.identifier.transactionId u o)))) := hs.enabled _
    refine ⟨t, thing, .cons henabled hrun, ?_, hshows⟩
    rw [hend, hlog]
    simp [conversation, exchanged]

/-- A reply is one frame, and an exchange gets it whole, in whatever pieces it comes. -/
theorem delivers_reply {p : Page} (hfits : p.pdu.length ≤ maxModbusPduLength)
    (transactionId : UInt16) (u o : UInt8) (request : Bytes) {chunks : List Bytes}
    (hchunks : chunks.flatten = p.reply (deviceIdRequest transactionId u o)) :
    (chunks.foldl Exchange.onData { request }).outcomes =
      [.ok (p.reply (deviceIdRequest transactionId u o))] := by
  have hpdu := p.length_pdu
  rw [maxModbusPduLength] at hfits
  have hnat : (UInt16.ofNat (1 + p.pdu.length)).toNat = 1 + p.pdu.length :=
    UInt16.toNat_ofNat_of_lt' (show _ < 65536 by omega)
  have hlen : (p.reply (deviceIdRequest transactionId u o)).length = 7 + p.pdu.length := by
    rw [Page.reply_eq, List.length_append]
    simp only [List.length_append, Session.length_writeU16]
    rfl
  have hframe : Exchange.OneFrame (p.reply (deviceIdRequest transactionId u o))
      (UInt16.ofNat (1 + p.pdu.length)) := by
    refine ⟨?_, by rw [hlen, hnat]; omega⟩
    rw [Page.reply_eq, List.append_assoc]
    exact Session.readU16_writeU16 (writeU16 transactionId ++ writeU16 0) _ _
  have hvalid : ¬(UInt16.ofNat (1 + p.pdu.length) < 2 ∨ 254 < UInt16.ofNat (1 + p.pdu.length)) := by
    simp only [UInt16.lt_iff_toNat_lt, hnat, UInt16.reduceToNat]
    omega
  rcases Exchange.foldl_onData (x := { request }) hframe chunks rfl hchunks (.inl (by simp)) with
    ⟨hshort, -⟩ | ⟨-, -, hlog⟩
  · omega
  · rw [Exchange.outcomes, hlog, Exchange.verdict, if_neg hvalid]
    rfl

/-- Whatever pages a conforming server splits its table into, an identification that it
serves in eight pages at most asks for these very pages, in order, and calls a thing with
the whole table; and the exchanges deliver the replies in whatever pieces they come. -/
theorem table_reassembled (hpages : Serves table 0 pages) (hfew : pages.length ≤ 8)
    (address : Bytes) (port : UInt16) (unitId : UInt8) :
    (∃ t thing, (machine address port unitId).Run (create address port unitId)
        (.start :: (conversation unitId 1 0 pages).map fun x => .exchanged (some x.2)) t ∧
      t.log = (conversation unitId 1 0 pages).flatMap exchanged ++ [.result (some thing)] ∧
      Shows thing table ∧ t.identifier.exchange = none) ∧
    ∀ x ∈ conversation unitId 1 0 pages, ∀ chunks : List Bytes, chunks.flatten = x.2 →
      (chunks.foldl Exchange.onData { request := x.1 }).outcomes = [.ok x.2] := by
  constructor
  · have hawaits : ((create address port unitId).next .start).Awaits unitId table 0 := by
      refine ⟨⟨rfl, rfl⟩, rfl, rfl, rfl, ⟨rfl, rfl, rfl⟩, fun key => ?_⟩
      rw [if_neg (by simp)]
      rfl
    obtain ⟨t, thing, hrun, hlog, hshows⟩ := hawaits.served address port hpages
      (show 0 + pages.length ≤ 8 by omega) [] rfl
    exact ⟨t, thing, .cons rfl hrun, hlog, hshows⟩
  · intro x hx chunks hchunks
    obtain ⟨p, hmem, transactionId, o, heq⟩ := mem_conversation hx
    rw [heq]
    exact delivers_reply (hpages.fits p hmem) transactionId unitId o x.1 (hchunks.trans heq)

/-- A vendor and a product, served on a page each. -/
def twoPages : List Page :=
  [{ conformity := 1, moreFollows := 0xff, nextObjectId := 1, objects := [(0, [0x41, 0x42])] },
    { conformity := 1, moreFollows := 0, nextObjectId := 0, objects := [(1, [0x43])] }]

def twoObjects : Objects := store ∅ [(0, [0x41, 0x42]), (1, [0x43])]

theorem lookup_twoObjects (key : UInt8) : twoObjects.lookup key =
    if key = 1 then some [0x43] else if key = 0 then some [0x41, 0x42] else none := by
  show ((Finmap.insert 0 _ ∅).insert 1 _).lookup key = _
  split_ifs with h₁ h₀
  · rw [h₁, Finmap.lookup_insert]
  · rw [Finmap.lookup_insert_of_ne _ h₁, h₀, Finmap.lookup_insert]
  · rw [Finmap.lookup_insert_of_ne _ h₁, Finmap.lookup_insert_of_ne _ h₀, Finmap.lookup_empty]

theorem serves_twoPages : Serves twoObjects 0 twoPages := by
  refine .more ⟨by decide, by simp, fun key value => ?_⟩ (by decide) (by decide)
    (.last ⟨by decide, by simp, fun key value => ?_⟩ rfl)
  · rw [lookup_twoObjects]
    by_cases h₁ : key = 1
    · simp [h₁]
    by_cases h₀ : key = 0
    · simp [h₀, eq_comm]
    · simp [h₀, h₁]
  · rw [lookup_twoObjects]
    by_cases h₁ : key = 1
    · simp [h₁, eq_comm]
    by_cases h₀ : key = 0
    · simp [h₀]
    · simp [h₀, h₁]

theorem table_reassembled_twoPages :
    ∃ t thing, (machine (ascii "10.0.0.7") 502 1).Run (create (ascii "10.0.0.7") 502 1)
        (.start :: (conversation 1 1 0 twoPages).map fun x => .exchanged (some x.2)) t ∧
      .result (some thing) ∈ t.log ∧ thing.objects = twoObjects := by
  obtain ⟨⟨t, thing, hrun, hlog, hshows, -⟩, -⟩ :=
    table_reassembled serves_twoPages (by decide) (ascii "10.0.0.7") 502 1
  exact ⟨t, thing, hrun, hlog ▸ List.mem_append_right _ (List.mem_singleton.2 rfl), hshows.objects⟩

end Identification

end Neubau.Modbus
