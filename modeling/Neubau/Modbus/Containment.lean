import Neubau.Modbus.Line
import Neubau.Modbus.Replies
import Neubau.Modbus.Segmentation

/-! Whether one fault on the wire stays with one read. A frame more is taken for
the reply to the active request: that request fails, its own reply then meets the
next one, and so on to the end of the line. A length field that no frame has makes
the session drop its buffer and send the next request; what TCP delivers of the
dropped reply afterwards is read as the front of the next one. Neither does harm
behind the last request. -/

namespace Neubau.Modbus.Session

open Neubau.Common Neubau.Transition Neubau.Stream

/-- A disturbance of the replies to these requests: a well-formed frame that is
foreign to the request whose reply it comes ahead of, or a length no frame has. -/
def Disturbance.Fits (D : Disturbance) (reads : List Request) : Prop :=
  match D with
  | .extra index frame => index ≤ reads.length ∧ framer.cut frame = .frame frame [] ∧
      ∀ r, reads[index]? = some r → readU16 frame 0 ≠ some r.transactionId
  | .length index value => index < reads.length ∧ (value < 3 ∨ value > 254)

/-- If the delivery makes the session reject its buffer, it empties the wire. -/
def Link.Whole (l : Link) (k : ℕ) : Prop :=
  framer.cut (l.session.receiveBuffer ++ l.wire.bytes.take k) = .bad → l.wire.bytes.drop k = []

variable {S : Server} {D : Disturbance}

theorem requests_append (xs ys : List Effect) :
    requests (xs ++ ys) = requests xs ++ requests ys := List.filterMap_append

theorem replies_append (i : ℕ) (rs ts : List Request) :
    S.replies D i (rs ++ ts) = S.replies D i rs ++ S.replies D (i + rs.length) ts := by
  induction rs generalizing i with
  | nil => rfl
  | cons r rs ih =>
    have hi : i + 1 + rs.length = i + (rs.length + 1) := by omega
    simp [Server.replies, ih, hi]

theorem react_eq {w : Wire} {s t : Core} {new : List Effect} (h : t.log = s.log ++ new) :
    w.react S D s t =
      { received := w.received + (requests new).length
        bytes := w.bytes ++ S.replies D w.received (requests new) } := by
  simp [Wire.react, h]

/-- The server as the peer of the session's handler. -/
def peer (S : Server) (D : Disturbance) : Peer (handler .obliging) Wire where
  Precedes s t := s.log <+: t.log
  refl s := List.prefix_rfl
  trans := List.IsPrefix.trans
  frame s f hs := (handleFrame_conserves hs f).log
  bad s hs := (finishActiveError_conserves hs _).log
  react := Wire.react S D
  react_self w s := by simp [Wire.react, requests, Server.replies]
  react_trans {s t u} w := by
    rintro ⟨new, hnew⟩ ⟨more, hmore⟩
    rw [react_eq hnew.symm, react_eq hmore.symm,
      react_eq (hmore.symm.trans (by rw [← hnew, List.append_assoc])),
      requests_append, replies_append]
    simp [Nat.add_assoc]

/-! ### Where the session and its server stand -/

/-- The session awaits the reply of index `i`. What it has of the stream and what is
on the wire are what the server sends for this reply; nothing has failed unless the
disturbance is behind it. -/
structure Serves (S : Server) (D : Disturbance) (s₀ s : Core) (buffer : Bytes) (w : Wire) (i : ℕ)
    (r : Request) (rest : List Request) : Prop where
  first : s.line = r :: rest
  position : s₀.line.drop i = r :: rest
  received : w.received = i + 1
  stream : buffer ++ w.bytes =
    D.ahead i ++ D.disturb i (holdingReply r (S.registers r)) ++ D.ahead (i + 1)
  clean : i ≤ D.index → (s.log.drop s₀.log.length).countP Effect.isFailed = 0
  whole : framer.cut buffer = .bad → rest = [] ∨ w.bytes = []

/-- At most one read failed, and the session awaits a reply or is done. -/
structure Standing (S : Server) (D : Disturbance) (s₀ s : Core) (buffer : Bytes) (w : Wire) :
    Prop where
  up : s.Up
  conserves : Conserves s₀ s
  own : ∀ r registers, .posted r registers ∈ s.log.drop s₀.log.length →
    registers = S.registers r
  failures : (s.log.drop s₀.log.length).countP Effect.isFailed ≤ 1
  serves : s.line = [] ∨ ∃ i r rest, Serves S D s₀ s buffer w i r rest

section

variable {s₀ s t : Core} {buffer : Bytes} {w : Wire} {i : ℕ} {r : Request} {rest : List Request}

/-- The reply of an index is as it should be, or the disturbance is here. -/
theorem Disturbance.here (D : Disturbance) (i : ℕ) :
    (D.ahead i = [] ∧ ∀ reply, D.disturb i reply = reply) ∨ (∃ f, D = .extra i f) ∨
      ∃ v, D = .length i v := by
  cases D with
  | extra index frame =>
    by_cases h : index = i
    · exact .inr (.inl ⟨frame, by rw [h]⟩)
    · exact .inl ⟨if_neg h, fun _ => rfl⟩
  | length index value =>
    by_cases h : index = i
    · exact .inr (.inr ⟨value, by rw [h]⟩)
    · exact .inl ⟨rfl, fun _ => if_neg h⟩

theorem cut_ahead {reads : List Request} (hD : D.Fits reads) (i : ℕ) :
    framer.cut (D.ahead i) ≠ .bad := by
  cases D with
  | extra index frame =>
    unfold Disturbance.ahead
    dsimp only
    split_ifs
    · rw [hD.2.1]
      simp
    · rw [framer.nil]
      simp
  | length index value =>
    show framer.cut [] ≠ .bad
    rw [framer.nil]
    simp

theorem cut_reply_append (h : r.count ≤ 125) (ys : Bytes) :
    framer.cut (holdingReply r (S.registers r) ++ ys) =
      .frame (holdingReply r (S.registers r)) ys := by
  have hle : (S.registers r).length ≤ 125 := by
    rw [S.length_registers]
    exact h
  simpa using framer.frame_append ys (cut_holdingReply hle)

theorem handleFrame_own (hs : s.Up) (hl : s.line = r :: rest) (h : r.count ≤ 125) :
    Resolved s (handleFrame .obliging s (holdingReply r (S.registers r))) rest
      (.posted r (S.registers r)) := by
  have hle : (S.registers r).length ≤ 125 := by
    rw [S.length_registers]
    exact h
  have hcheck := checkReply_holdingReply (S.length_registers r) hle
  simp only [handleFrame, (hs.active hl).1, hcheck]
  exact finishActiveSuccess_resolves hs hl _

theorem handleFrame_foreign (hs : s.Up) (hl : s.line = r :: rest) {f : Bytes} {t : UInt16}
    (hlen : 9 ≤ f.length) (hread : readU16 f 0 = some t) (ht : t ≠ r.transactionId) :
    Resolved s (handleFrame .obliging s f) rest
      (.failed r (error "unexpected Modbus transaction ID") false) := by
  simp only [handleFrame, (hs.active hl).1, checkReply_foreign hlen hread ht]
  exact finishActiveError_resolves hs hl _

/-- A frame is at least nine bytes long. -/
theorem length_of_cut {f : Bytes} (h : framer.cut f = .frame f []) : 9 ≤ f.length := by
  obtain ⟨length, -, -, hb, hlen, -, -⟩ := cut_eq_frame h
  rw [not_or, UInt16.not_lt] at hb
  have h3 : 3 ≤ length.toNat := UInt16.le_iff_toNat_le.1 hb.1
  omega

/-- The server receives the next request, if there is one. -/
theorem Resolved.react {e : Effect} (h : Resolved s t rest e) (he : e.request = none) :
    w.react S D s t =
      { received := w.received + rest.head?.toList.length
        bytes := w.bytes ++ S.replies D w.received rest.head?.toList } := by
  have hnew : requests (e :: sentNext rest) = rest.head?.toList := by
    rw [requests, List.filterMap_cons_none he]
    cases rest <;> rfl
  rw [react_eq h.log, hnew]

theorem since_append {log more : List Effect} (h : Conserves s₀ s) (hlog : log = s.log ++ more) :
    log.drop s₀.log.length = s.log.drop s₀.log.length ++ more := by
  rw [hlog, List.drop_append_of_le_length h.log.length_le]

theorem countP_sentNext (rest : List Request) :
    (sentNext rest).countP Effect.isFailed = 0 := by
  cases rest <;> rfl

theorem Resolved.failures {e : Effect} (hr : Resolved s t rest e) (h : Conserves s₀ s) :
    (t.log.drop s₀.log.length).countP Effect.isFailed =
      (s.log.drop s₀.log.length).countP Effect.isFailed + [e].countP Effect.isFailed := by
  rw [since_append h hr.log, List.countP_append, ← List.singleton_append, List.countP_append,
    countP_sentNext, Nat.add_zero]

/-- The active request is resolved, and what is left of the stream is what comes
ahead of the next reply. -/
theorem Serves.next {r' : Request} (h : Serves S D s₀ s buffer w i r (r' :: rest)) {e : Effect}
    (hr : Resolved s t (r' :: rest) e) (he : e.request = none) (hD : D.Fits s₀.line)
    (hclean : i + 1 ≤ D.index → (t.log.drop s₀.log.length).countP Effect.isFailed = 0)
    {left bytes : Bytes} (hstream : left ++ bytes = D.ahead (i + 1)) :
    Serves S D s₀ t left ({ w with bytes }.react S D s t) (i + 1) r' rest := by
  rw [hr.react he]
  refine ⟨hr.line, ?_, ?_, ?_, hclean, fun hbad => ?_⟩
  · rw [← List.drop_drop, h.position, List.drop_one, List.tail_cons]
  · show w.received + 1 = i + 1 + 1
    rw [h.received]
  · simp [h.received, Server.replies, ← List.append_assoc, hstream]
  · have hcut := framer.bad_append bytes hbad
    rw [hstream] at hcut
    exact absurd hcut (cut_ahead hD (i + 1))

theorem Standing.next (h : Standing S D s₀ s buffer w) (hserves : Serves S D s₀ s buffer w i r rest)
    {e : Effect} (hr : Resolved s t rest e) (hc : Conserves s t) (he : e.request = none)
    (hown : ∀ r registers, e = .posted r registers → registers = S.registers r)
    (hfail : (s.log.drop s₀.log.length).countP Effect.isFailed +
      [e].countP Effect.isFailed ≤ 1)
    (hclean : i + 1 ≤ D.index → e.isFailed = false) (hD : D.Fits s₀.line) {left : Bytes}
    (hstream : rest = [] ∨ left ++ w.bytes = D.ahead (i + 1)) :
    Standing S D s₀ t left (w.react S D s t) := by
  have hcount := hr.failures h.conserves
  refine ⟨hr.up, h.conserves.trans hc, ?_, hcount ▸ hfail, ?_⟩
  · intro r' registers hmem
    rw [since_append h.conserves hr.log, List.mem_append, List.mem_cons] at hmem
    rcases hmem with hmem | hmem | hmem
    · exact h.own r' registers hmem
    · exact hown r' registers hmem.symm
    · obtain ⟨r'', -, heq⟩ := List.mem_map.1 hmem
      cases heq
  · cases rest with
    | nil => exact .inl hr.line
    | cons r' rest' =>
      have hstream : left ++ w.bytes = D.ahead (i + 1) := hstream.resolve_left (by simp)
      refine .inr ⟨i + 1, r', rest', hserves.next hr he hD (fun hi => ?_) hstream⟩
      rw [hcount, hserves.clean (by omega)]
      simp [hclean hi]

theorem Serves.mem (h : Serves S D s₀ s buffer w i r rest) : s₀.line[i]? = some r := by
  rw [← List.head?_drop, h.position, List.head?_cons]

theorem Serves.length (h : Serves S D s₀ s buffer w i r rest) :
    s₀.line.length = i + 1 + rest.length := by
  have hlt : i < s₀.line.length := (List.getElem?_eq_some_iff.1 h.mem).1
  have hlen := congrArg List.length h.position
  rw [List.length_drop, List.length_cons] at hlen
  omega

/-- With a disturbance of the last reply or behind it nothing is left in line. -/
theorem Serves.last (h : Serves S D s₀ s buffer w i r rest)
    (hlate : s₀.line.length ≤ D.index + 1) (hi : D.index = i) : rest = [] := by
  have hlen := h.length
  exact List.eq_nil_of_length_eq_zero (by omega)

/-- The framer's verdict on the stream that is being received. -/
theorem Serves.cut (h : Serves S D s₀ s buffer w i r rest) (hD : D.Fits s₀.line)
    (hcount : ∀ r ∈ s₀.line, r.count ≤ 125) :
    (framer.cut (buffer ++ w.bytes) =
      .frame (holdingReply r (S.registers r)) (D.ahead (i + 1))) ∨
    (∃ f, D = .extra i f ∧ framer.cut (buffer ++ w.bytes) =
      .frame f (holdingReply r (S.registers r) ++ D.ahead (i + 1))) ∨
    ∃ v, D = .length i v ∧ framer.cut (buffer ++ w.bytes) = .bad := by
  rw [h.stream]
  rcases D.here i with ⟨hahead, hreply⟩ | ⟨f, rfl⟩ | ⟨v, rfl⟩
  · left
    rw [hahead, hreply, List.nil_append]
    exact cut_reply_append (hcount r (List.mem_of_getElem? h.mem)) _
  · right; left
    refine ⟨f, rfl, ?_⟩
    have hcut := framer.frame_append (holdingReply r (S.registers r) ++
      Disturbance.ahead (.extra i f) (i + 1)) hD.2.1
    simpa [Disturbance.ahead, Disturbance.disturb] using hcut
  · right; right
    refine ⟨v, rfl, ?_⟩
    have hlen := length_setLength r (S.registers r) v
    have hcut := cut_bad (by omega) (readU16_setLength r (S.registers r) v) hD.2
    simpa [Disturbance.ahead, Disturbance.disturb] using hcut

/-- A disturbance that a whole line survives: a length, or the last reply and beyond. -/
def Disturbance.Tame (D : Disturbance) (reads : List Request) : Prop :=
  (∃ index value, D = .length index value) ∨ reads.length ≤ D.index + 1

theorem Standing.frame (h : Standing S D s₀ s buffer w) (hD : D.Fits s₀.line)
    (hcount : ∀ r ∈ s₀.line, r.count ≤ 125) (htame : D.Tame s₀.line) {f left : Bytes}
    (hcut : framer.cut buffer = .frame f left) :
    Standing S D s₀ (handleFrame .obliging s f) left
      (w.react S D s (handleFrame .obliging s f)) := by
  have hc := handleFrame_conserves (W := .obliging) h.up.opened f
  have hstream := framer.frame_append w.bytes hcut
  rcases h.serves with hnil | ⟨i, r, rest, hserves⟩
  · rw [handleFrame_idle (active_none hnil)]
    rw [show w.react S D s s = w from (peer S D).react_self w s]
    exact ⟨h.up, h.conserves, h.own, h.failures, .inl hnil⟩
  · rcases hserves.cut hD hcount with hown | ⟨f₀, rfl, hextra⟩ | ⟨v, rfl, hbad⟩
    · rw [hown] at hstream
      injection hstream with hf hleft
      subst hf
      have hr := handleFrame_own (S := S) h.up hserves.first
        (hcount r (List.mem_of_getElem? hserves.mem))
      refine h.next hserves hr hc rfl ?_ h.failures (fun _ => rfl) hD (.inr hleft.symm)
      rintro r' registers ⟨⟩
      rfl
    · rw [hextra] at hstream
      injection hstream with hf hleft
      subst hf
      have hlate : s₀.line.length ≤ i + 1 := by
        rcases htame with ⟨_, _, heq⟩ | hlate
        · cases heq
        · exact hlate
      have hlen := length_of_cut hD.2.1
      obtain ⟨t, ht⟩ : ∃ t, readU16 f₀ 0 = some t := readU16_isSome (by omega)
      have hforeign : t ≠ r.transactionId := by
        rintro rfl
        exact hD.2.2 r hserves.mem ht
      have hr := handleFrame_foreign h.up hserves.first hlen ht hforeign
      refine h.next hserves hr hc rfl ?_ ?_ ?_ hD (.inl (hserves.last hlate rfl))
      · rintro r' registers ⟨⟩
      · rw [hserves.clean le_rfl]
        exact le_rfl
      · intro hi
        exact absurd hi (Nat.not_succ_le_self i)
    · rw [hbad] at hstream
      cases hstream

theorem Standing.bad (h : Standing S D s₀ s buffer w) (hD : D.Fits s₀.line)
    (hcount : ∀ r ∈ s₀.line, r.count ≤ 125) (hcut : framer.cut buffer = .bad) :
    Standing S D s₀ ((handler .obliging).bad s) [] (w.react S D s ((handler .obliging).bad s)) := by
  have hc : Conserves s ((handler .obliging).bad s) := finishActiveError_conserves h.up.opened _
  have hstream := framer.bad_append w.bytes hcut
  rcases h.serves with hnil | ⟨i, r, rest, hserves⟩
  · have hidle : (handler .obliging).bad s = s := finishActiveError_idle (active_none hnil) _
    rw [hidle, show w.react S D s s = w from (peer S D).react_self w s]
    exact ⟨h.up, h.conserves, h.own, h.failures, .inl hnil⟩
  · rcases hserves.cut hD hcount with hown | ⟨f₀, rfl, hextra⟩ | ⟨v, rfl, -⟩
    · rw [hown] at hstream
      cases hstream
    · rw [hextra] at hstream
      cases hstream
    · have hr := finishActiveError_resolves h.up hserves.first
        (error "invalid Modbus response length")
      refine h.next hserves hr hc rfl ?_ ?_ ?_ hD ?_
      · rintro r' registers ⟨⟩
      · rw [hserves.clean le_rfl]
        exact le_rfl
      · intro hi
        exact absurd hi (Nat.not_succ_le_self i)
      · rcases hserves.whole hcut with hlast | hempty
        · exact .inl hlast
        · right
          rw [hempty]
          rfl

/-- A delivery that leaves nothing of a rejected reply on the wire. -/
theorem Standing.deliver {l : Link} (h : Standing S D s₀ l.session.core l.session.receiveBuffer l.wire)
    (hD : D.Fits s₀.line) (hcount : ∀ r ∈ s₀.line, r.count ≤ 125) (htame : D.Tame s₀.line) {k : ℕ}
    (hwhole : s₀.line.length ≤ D.index + 1 ∨ l.Whole k) :
    Standing S D s₀ (l.deliver S D k).session.core (l.deliver S D k).session.receiveBuffer
      (l.deliver S D k).wire := by
  have hfeed := onData_eq_feed (W := .obliging) l.session (l.wire.bytes.take k)
  have hstart : Standing S D s₀ l.session.core
      (l.session.receiveBuffer ++ l.wire.bytes.take k)
      { l.wire with bytes := l.wire.bytes.drop k } := by
    refine ⟨h.up, h.conserves, h.own, h.failures, ?_⟩
    rcases h.serves with hnil | ⟨i, r, rest, hs⟩
    · exact .inl hnil
    · refine .inr ⟨i, r, rest, hs.first, hs.position, hs.received, ?_, hs.clean, fun hbad => ?_⟩
      · rw [List.append_assoc, List.take_append_drop]
        exact hs.stream
      · rcases hwhole with hlate | hwhole
        · have hstream := framer.bad_append (l.wire.bytes.drop k) hbad
          rw [List.append_assoc, List.take_append_drop] at hstream
          rcases hs.cut hD hcount with hown | ⟨f, -, hextra⟩ | ⟨v, rfl, -⟩
          · rw [hown] at hstream
            cases hstream
          · rw [hextra] at hstream
            cases hstream
          · exact .inl (hs.last hlate rfl)
        · exact .inr (hwhole hbad)
  have hkeeps := (peer S D).feed_keeps (F := framer) (I := Standing S D s₀)
    (p := l.session.pair)
    (fun s xs y f rest hs hcut => hs.frame hD hcount htame hcut)
    (fun s xs y hs hcut => hs.bad hD hcount hcut) (by exact h.up.opened) hstart
  rw [← hfeed] at hkeeps
  exact hkeeps

/-! ### Every segmentation -/

theorem standing_start {s : State} (hup : s.core.Up) (hbuffer : s.receiveBuffer = []) :
    Standing S D s.core (Link.start S D s).session.core (Link.start S D s).session.receiveBuffer
      (Link.start S D s).wire := by
  have hsince : s.core.log.drop s.core.log.length = [] := List.drop_length
  refine ⟨hup, .refl _, ?_, ?_, ?_⟩
  · intro r registers hmem
    change _ ∈ s.core.log.drop s.core.log.length at hmem
    rw [hsince] at hmem
    cases hmem
  · show (s.core.log.drop s.core.log.length).countP Effect.isFailed ≤ 1
    rw [hsince]
    exact Nat.zero_le 1
  · cases hactive : s.core.active with
    | none =>
      left
      show s.core.line = []
      rw [Core.line, hactive, hup.idle hactive]
      rfl
    | some a =>
      refine .inr ⟨0, a, number s.core.nextTransaction s.core.queue, ?_, ?_, ?_, ?_, ?_, ?_⟩
      · show s.core.line = _
        rw [Core.line, hactive]
        rfl
      · rw [Core.line, hactive]
        rfl
      · simp [Link.start, hactive]
      · simp [Link.start, hactive, hbuffer, Server.replies]
      · intro _
        show (s.core.log.drop s.core.log.length).countP Effect.isFailed = 0
        rw [hsince]
        rfl
      · intro hbad
        change framer.cut s.receiveBuffer = .bad at hbad
        rw [hbuffer, framer.nil] at hbad
        cases hbad

/-- A standing session whose buffer is drained has contained the disturbance. -/
theorem Standing.contained {s : State} {l : Link}
    (h : Standing S D s.core l.session.core l.session.receiveBuffer l.wire)
    (hwait : framer.cut l.session.receiveBuffer = .wait) (hD : D.Fits s.core.line)
    (hcount : ∀ r ∈ s.core.line, r.count ≤ 125) : l.Contained S s := by
  refine ⟨h.failures, h.own, fun hempty => ?_⟩
  rcases h.serves with hnil | ⟨i, r, rest, hs⟩
  · have hheld : l.session.core.held = [] := by
      have hactive := active_none hnil
      rw [Core.held, hactive, h.up.idle hactive]
      rfl
    have hroll := h.conserves.roll
    obtain ⟨new, hnew⟩ := h.conserves.log
    rw [Core.roll, Core.roll, hheld, List.map_nil, List.append_nil, ← hnew,
      List.filterMap_append] at hroll
    rw [Link.since, ← hnew, List.drop_left]
    exact List.append_cancel_left hroll
  · have hcut := hs.cut hD hcount
    rw [hempty, List.append_nil, hwait] at hcut
    rcases hcut with hcut | ⟨f, -, hcut⟩ | ⟨v, -, hcut⟩
    · cases hcut
    · cases hcut
    · cases hcut

theorem Standing.waits {s : State} {l : Link} {k : ℕ} (hopen : l.session.core.closed = false)
    (h : Standing S D s.core (l.deliver S D k).session.core
      (l.deliver S D k).session.receiveBuffer (l.deliver S D k).wire) :
    framer.cut (l.deliver S D k).session.receiveBuffer = .wait :=
  (cut_eq_wait_iff _).2 (onData_drained hopen h.up.opened)

/-- What a machine of deliveries reaches is contained, if none of them leaves a part
of a rejected reply behind or the disturbance is late. -/
theorem contained_of_tame {s : State} (hup : s.core.Up) (hbuffer : s.receiveBuffer = [])
    (hD : D.Fits s.core.line) (hcount : ∀ r ∈ s.core.line, r.count ≤ 125)
    (htame : D.Tame s.core.line) {ok : Link → ℕ → Prop}
    (hok : ∀ l k, ok l k → s.core.line.length ≤ D.index + 1 ∨ l.Whole k) {l : Link}
    (hl : ((linkMachine S D s).restrict ok).Reachable l) : l.Contained S s := by
  have hinv : ((linkMachine S D s).restrict ok).Invariant fun l =>
      Standing S D s.core l.session.core l.session.receiveBuffer l.wire ∧
        framer.cut l.session.receiveBuffer = .wait := by
    refine ⟨?_, ?_⟩
    · rintro l rfl
      refine ⟨standing_start hup hbuffer, ?_⟩
      show framer.cut s.receiveBuffer = .wait
      rw [hbuffer, framer.nil]
    · rintro l k ⟨hstands, -⟩ ⟨-, hk⟩
      have hnext := hstands.deliver hD hcount htame (hok l k hk)
      exact ⟨hnext, Standing.waits hstands.up.opened hnext⟩
  obtain ⟨hstands, hwait⟩ := hinv.reachable hl
  exact hstands.contained hwait hD hcount

/-! ### A fault ahead of the last reply -/

/-- One frame is delivered. -/
theorem deliver_frame {l : Link} {f more : Bytes} (hopen : l.session.core.closed = false)
    (hbuffer : l.session.receiveBuffer = []) (hbytes : l.wire.bytes = f ++ more)
    (hcut : framer.cut f = .frame f []) :
    l.deliver S D f.length =
      { session := ⟨handleFrame .obliging l.session.core f, []⟩
        wire := { l.wire with bytes := more }.react S D l.session.core
          (handleFrame .obliging l.session.core f) } := by
  have hfeed := feed_frame (H := handler .obliging) (p := l.session.pair) f hopen
    (by rw [State.pair, hbuffer]; exact hcut)
  rw [← onData_eq_feed] at hfeed
  have hdata : onData .obliging l.session f = ⟨handleFrame .obliging l.session.core f, []⟩ :=
    congrArg (fun p => State.mk p.1 p.2) hfeed
  simp only [Link.deliver, hbytes, List.take_left, List.drop_left, hdata]

/-- A chunk is delivered with which the session rejects its buffer. -/
theorem deliver_bad {l : Link} {chunk more : Bytes} (hopen : l.session.core.closed = false)
    (hbuffer : l.session.receiveBuffer = []) (hbytes : l.wire.bytes = chunk ++ more)
    (hcut : framer.cut chunk = .bad) :
    l.deliver S D chunk.length =
      { session := ⟨(handler .obliging).bad l.session.core, []⟩
        wire := { l.wire with bytes := more }.react S D l.session.core
          ((handler .obliging).bad l.session.core) } := by
  have hfeed := feed_bad (H := handler .obliging) (p := l.session.pair) chunk hopen
    (by rw [State.pair, hbuffer]; exact hcut)
  rw [← onData_eq_feed] at hfeed
  have hdata : onData .obliging l.session chunk = ⟨(handler .obliging).bad l.session.core, []⟩ :=
    congrArg (fun p => State.mk p.1 p.2) hfeed
  simp only [Link.deliver, hbytes, List.take_left, List.drop_left, hdata]

theorem enabled_append {l : Link} {s : State} {chunk more : Bytes} (hchunk : chunk ≠ [])
    (hbytes : l.wire.bytes = chunk ++ more) : (linkMachine S D s).enabled l chunk.length := by
  refine ⟨List.length_pos_iff.2 hchunk, ?_⟩
  rw [hbytes, List.length_append]
  omega

/-- The link stands before the reply of index `i`, all before it delivered. -/
structure Before (S : Server) (D : Disturbance) (s : State) (l : Link) (i : ℕ) (r : Request)
    (rest : List Request) : Prop where
  reachable : (linkMachine S D s).Reachable l
  buffer : l.session.receiveBuffer = []
  up : l.session.core.Up
  conserves : Conserves s.core l.session.core
  serves : Serves S D s.core l.session.core [] l.wire i r rest

/-- The replies ahead of the disturbance are delivered one at a time. -/
theorem before_index {s : State} (hup : s.core.Up) (hbuffer : s.receiveBuffer = [])
    (hD : D.Fits s.core.line) (hcount : ∀ r ∈ s.core.line, r.count ≤ 125) (i : ℕ)
    (hi : i ≤ D.index) (hlt : i < s.core.line.length) : ∃ l r rest, Before S D s l i r rest := by
  induction i with
  | zero =>
    have h := standing_start (S := S) (D := D) hup hbuffer
    rcases h.serves with hnil | ⟨i, r, rest, hs⟩
    · change s.core.line = [] at hnil
      simp [hnil] at hlt
    · have hlen := hs.length
      have hline : s.core.line.length = (r :: rest).length := congrArg List.length hs.first
      rw [List.length_cons] at hline
      obtain rfl : i = 0 := by omega
      change Serves S D s.core s.core s.receiveBuffer _ 0 r rest at hs
      rw [hbuffer] at hs
      exact ⟨_, r, rest, .init rfl, hbuffer, hup, .refl _, hs⟩
  | succ i ih =>
    obtain ⟨l, r, rest, h⟩ := ih (by omega) (by omega)
    have hlen := h.serves.length
    have hr := hcount r (List.mem_of_getElem? h.serves.mem)
    cases rest with
    | nil =>
      simp only [List.length_nil] at hlen
      omega
    | cons r' rest =>
      have hhere : D.ahead i = [] ∧ ∀ reply, D.disturb i reply = reply := by
        rcases D.here i with hhere | ⟨f, rfl⟩ | ⟨v, rfl⟩
        · exact hhere
        · exact absurd hi (Nat.not_succ_le_self i)
        · exact absurd hi (Nat.not_succ_le_self i)
      have hbytes : l.wire.bytes = holdingReply r (S.registers r) ++ D.ahead (i + 1) := by
        have hstream := h.serves.stream
        rw [hhere.1, hhere.2] at hstream
        simpa using hstream
      have hle : (S.registers r).length ≤ 125 := by
        rw [S.length_registers]
        exact hr
      have hcut := cut_holdingReply (r := r) hle
      have hresolved := handleFrame_own (S := S) h.up h.serves.first hr
      have hdeliver := deliver_frame (S := S) (D := D) h.up.opened h.buffer hbytes hcut
      have hreach := h.reachable.next (enabled_append (S := S) (D := D) (s := s)
        (List.length_pos_iff.1 (by rw [length_holdingReply]; omega)) hbytes)
      have hclean : (((handleFrame .obliging l.session.core
          (holdingReply r (S.registers r))).log.drop s.core.log.length).countP Effect.isFailed) =
            0 := by
        rw [hresolved.failures h.conserves, h.serves.clean (by omega)]
        rfl
      have hnext := h.serves.next hresolved rfl hD (fun _ => hclean)
        (List.nil_append (D.ahead (i + 1)))
      refine ⟨l.deliver S D (holdingReply r (S.registers r)).length, r', rest, hreach, ?_, ?_, ?_,
        ?_⟩
      · rw [hdeliver]
      · rw [hdeliver]
        exact hresolved.up
      · rw [hdeliver]
        exact h.conserves.trans (handleFrame_conserves h.up.opened _)
      · rw [hdeliver]
        exact hnext

/-- A session in whose line a request has just failed, and what is on the wire. -/
structure FailedOnce (S : Server) (D : Disturbance) (s : State) (l : Link) (r : Request)
    (rest : List Request) (bytes : Bytes) : Prop where
  reachable : (linkMachine S D s).Reachable l
  buffer : l.session.receiveBuffer = []
  up : l.session.core.Up
  conserves : Conserves s.core l.session.core
  line : l.session.core.line = r :: rest
  failures : (l.session.core.log.drop s.core.log.length).countP Effect.isFailed = 1
  bytes : l.wire.bytes = bytes

/-- The delivery of a chunk that makes the active request fail. -/
theorem Before.fails {s : State} {l : Link} {r' : Request} {core : Core} {f : Exception}
    {chunk more : Bytes} (h : Before S D s l i r (r' :: rest)) (hi : i ≤ D.index)
    (hchunk : chunk ≠ []) (hbytes : l.wire.bytes = chunk ++ more)
    (hr : Resolved l.session.core core (r' :: rest) (.failed r f false))
    (hc : Conserves l.session.core core)
    (hdeliver : l.deliver S D chunk.length =
      { session := ⟨core, []⟩
        wire := { l.wire with bytes := more }.react S D l.session.core core }) :
    FailedOnce S D s (l.deliver S D chunk.length) r' rest
      (more ++ S.replies D (i + 1) [r']) := by
  refine ⟨h.reachable.next (enabled_append hchunk hbytes), ?_, ?_, ?_, ?_, ?_, ?_⟩
  · rw [hdeliver]
  · rw [hdeliver]
    exact hr.up
  · rw [hdeliver]
    exact h.conserves.trans hc
  · rw [hdeliver]
    exact hr.line
  · rw [hdeliver]
    show (core.log.drop s.core.log.length).countP Effect.isFailed = 1
    rw [hr.failures h.conserves, h.serves.clean hi]
    rfl
  · rw [hdeliver, hr.react rfl]
    show more ++ S.replies D l.wire.received [r'] = _
    rw [h.serves.received]

/-- A second failure is one too many. -/
theorem FailedOnce.fails {s : State} {l : Link} {core : Core} {f : Exception}
    {chunk more bytes : Bytes} (h : FailedOnce S D s l r rest bytes) (hchunk : chunk ≠ [])
    (hbytes : bytes = chunk ++ more)
    (hr : Resolved l.session.core core rest (.failed r f false))
    (hdeliver : (l.deliver S D chunk.length).session.core = core) :
    ∃ l, (linkMachine S D s).Reachable l ∧ ¬l.Contained S s := by
  refine ⟨_, h.reachable.next (enabled_append hchunk (h.bytes.trans hbytes)), fun hcontained => ?_⟩
  have hfailures := hcontained.failures
  change ((l.deliver S D chunk.length).session.core.log.drop s.core.log.length).countP
    Effect.isFailed ≤ 1 at hfailures
  rw [hdeliver, hr.failures h.conserves, h.failures] at hfailures
  change 2 ≤ 1 at hfailures
  omega

/-- The frame more fails the request it comes ahead of, whose reply then fails the next. -/
theorem extra_cascades {s : State} {l : Link} {f : Bytes} {r' : Request}
    (hD : (Disturbance.extra i f).Fits s.core.line) (hcount : ∀ r ∈ s.core.line, r.count ≤ 125)
    (h : Before S (.extra i f) s l i r (r' :: rest)) :
    ∃ l, (linkMachine S (.extra i f) s).Reachable l ∧ ¬l.Contained S s := by
  have hle : (S.registers r).length ≤ 125 := by
    rw [S.length_registers]
    exact hcount r (List.mem_of_getElem? h.serves.mem)
  have hlen := length_of_cut hD.2.1
  have hlen' := length_holdingReply r (S.registers r)
  -- the request fails by the foreign frame
  have hbytes : l.wire.bytes = f ++ holdingReply r (S.registers r) := by
    have hstream := h.serves.stream
    simpa [Disturbance.ahead, Disturbance.disturb] using hstream
  obtain ⟨t, ht⟩ : ∃ t, readU16 f 0 = some t := readU16_isSome (by omega)
  have hforeign : t ≠ r.transactionId := by
    rintro rfl
    exact hD.2.2 r h.serves.mem ht
  have hfirst := h.fails le_rfl (List.length_pos_iff.1 (by omega)) hbytes
    (handleFrame_foreign h.up h.serves.first hlen ht hforeign)
    (handleFrame_conserves h.up.opened f) (deliver_frame h.up.opened h.buffer hbytes hD.2.1)
  -- the next one by the reply of the first
  have hread : readU16 (holdingReply r (S.registers r)) 0 = some r.transactionId :=
    congrArg some (join_split r.transactionId)
  have hneighbour := h.up.neighbour h.serves.first
  have hdeliver := deliver_frame (S := S) (D := .extra i f) hfirst.up.opened hfirst.buffer
    hfirst.bytes (cut_holdingReply hle)
  refine hfirst.fails (List.length_pos_iff.1 (by omega)) rfl
    (handleFrame_foreign hfirst.up hfirst.line (by omega) hread hneighbour.symm) ?_
  rw [hdeliver]

/-- Of the reply with the wrong length field all bytes but the last are delivered. The
last one then stands in front of the next reply, whose length field is not where it
is looked for. -/
theorem length_cascades {s : State} {l : Link} {v : UInt16} {r' : Request}
    (hD : (Disturbance.length i v).Fits s.core.line) (hcount : ∀ r ∈ s.core.line, r.count ≤ 125)
    (h : Before S (.length i v) s l i r (r' :: rest)) :
    ∃ l, (linkMachine S (.length i v) s).Reachable l ∧ ¬l.Contained S s := by
  have hle : (S.registers r).length ≤ 125 := by
    rw [S.length_registers]
    exact hcount r (List.mem_of_getElem? h.serves.mem)
  obtain ⟨chunk, b, hbad⟩ : ∃ chunk b,
      setLength (holdingReply r (S.registers r)) v = chunk ++ [b] := by
    refine ⟨_, _, (List.dropLast_append_getLast (l := setLength _ v) ?_).symm⟩
    simp [setLength, writeU16]
  have hlen : chunk.length + 1 = 9 + (S.registers r).length * 2 := by
    rw [← length_setLength r (S.registers r) v, hbad, List.length_append, List.length_singleton]
  -- all but the last byte of the reply fail the request
  have hbytes : l.wire.bytes = chunk ++ [b] := by
    have hstream := h.serves.stream
    simpa [Disturbance.ahead, Disturbance.disturb, hbad] using hstream
  have hread : readU16 chunk 4 = some v := by
    rw [← readU16_append (by omega) [b], ← hbad, readU16_setLength]
  have hfirst := h.fails le_rfl (List.length_pos_iff.1 (by omega)) hbytes
    (finishActiveError_resolves h.up h.serves.first (error "invalid Modbus response length"))
    (finishActiveError_conserves h.up.opened _)
    (deliver_bad h.up.opened h.buffer hbytes (cut_bad (by omega) hread hD.2))
  -- the last one, in front of the next reply, fails the next request
  have hmem : r' ∈ s.core.line := by
    apply List.mem_of_mem_drop (i := i)
    rw [h.serves.position]
    simp
  have hle : (S.registers r').length ≤ 125 := by
    rw [S.length_registers]
    exact hcount r' hmem
  have hlen' := length_holdingReply r' (S.registers r')
  have hreplies : [b] ++ S.replies (.length i v) (i + 1) [r'] =
      b :: (holdingReply r' (S.registers r') ++ []) ++ [] := by
    simp [Server.replies, Disturbance.ahead, Disturbance.disturb]
  have hcut : framer.cut (b :: (holdingReply r' (S.registers r') ++ [])) = .bad :=
    cut_bad (by rw [List.length_cons, List.length_append]; omega) (readU16_shifted hle b [])
      (.inl (by decide))
  have hdeliver := deliver_bad (S := S) (D := .length i v) hfirst.up.opened hfirst.buffer
    (hfirst.bytes.trans hreplies) hcut
  refine hfirst.fails (by simp) hreplies (finishActiveError_resolves hfirst.up hfirst.line
    (error "invalid Modbus response length")) ?_
  rw [hdeliver]
  rfl

end

/-- One disturbance stays with one read, however TCP cuts the stream, exactly if it
hits the last reply or comes behind it. A wrong length field stays with one read also
where nothing of the rejected reply is left on the wire. -/
theorem faults_contained_iff_late (S : Server) {D : Disturbance} {s : State}
    (hs : (libhvMachine .obliging).Reachable s) (hopen : s.core.closed = false)
    (hlink : s.core.isConnected = true) (hbuffer : s.receiveBuffer = [])
    (hcount : ∀ r ∈ s.core.held, r.count ≤ 125) (hD : D.Fits s.core.line) :
    ((∀ l, (linkMachine S D s).Reachable l → l.Contained S s) ↔
      s.core.held.length ≤ D.index + 1) ∧
    ((∃ index value, D = .length index value) →
      ∀ l, ((linkMachine S D s).restrict Link.Whole).Reachable l → l.Contained S s) := by
  have hup := up_of_reachable hs hopen hlink
  have hcounts : ∀ r ∈ s.core.line, r.count ≤ 125 := by
    intro r hr
    have hmem := List.mem_map_of_mem (f := (·.count)) hr
    rw [map_line _ (fun _ _ => rfl)] at hmem
    obtain ⟨r', hr', heq⟩ := List.mem_map.1 hmem
    exact heq ▸ hcount r' hr'
  have hlength : s.core.line.length = s.core.held.length := by
    simpa using congrArg List.length (map_line (·.count) (fun _ _ => rfl) s.core)
  refine ⟨⟨fun hall => ?_, fun hlate l hl => ?_⟩, fun hfield l hl => ?_⟩
  · by_contra hearly
    have hindex : D.index < s.core.line.length := by omega
    obtain ⟨l, r, rest, hbefore⟩ :=
      before_index (S := S) hup hbuffer hD hcounts D.index le_rfl hindex
    have hlen := hbefore.serves.length
    cases rest with
    | nil =>
      rw [List.length_nil] at hlen
      omega
    | cons r' rest =>
      have htwo : ∃ l, (linkMachine S D s).Reachable l ∧ ¬l.Contained S s := by
        cases D with
        | extra index frame => exact extra_cascades hD hcounts hbefore
        | length index value => exact length_cascades hD hcounts hbefore
      obtain ⟨l, hl, hnot⟩ := htwo
      exact hnot (hall l hl)
  · rw [← hlength] at hlate
    exact contained_of_tame hup hbuffer hD hcounts (.inr hlate) (fun _ _ _ => .inl hlate)
      (Transition.Machine.Reachable.restrict (fun _ _ => trivial) hl)
  · exact contained_of_tame hup hbuffer hD hcounts (.inl hfield) (fun _ _ => .inr) hl

/-- A session with reads on unit 7, connected, the first read sent. -/
def served (reads : ℕ) : State :=
  step .obliging ((List.range reads).foldl
    (fun s i => step .obliging s (.enqueue 7 (100 + UInt16.ofNat i) 1)) {}) (.connection true)

/-- A server whose registers all hold one value. -/
def constant (value : UInt16) : Server :=
  ⟨fun r => List.replicate r.count.toNat value, fun _ => List.length_replicate⟩

/-- One read, and a reply whose length field is 2. -/
theorem faults_contained_iff_late_one :
    let s := served 1
    let D := Disturbance.length 0 2
    ∀ l, (linkMachine (constant 0x1234) D s).Reachable l → l.Contained (constant 0x1234) s := by
  have h₁ : (libhvMachine .obliging).enabled {} (.enqueue 7 100 1) := ⟨trivial, trivial⟩
  have h₂ : (libhvMachine .obliging).enabled
      (step .obliging {} (.enqueue 7 100 1)) (.connection true) := ⟨trivial, rfl⟩
  have h := faults_contained_iff_late (constant 0x1234) (D := .length 0 2) (s := served 1)
    (.next (.next (.init rfl) h₁) h₂) (by decide) (by decide) (by decide) (by decide)
    ⟨by decide, .inl (by decide)⟩
  exact h.1.2 (by decide)

/-- Two reads. The server sends a frame of transaction 99 ahead of its first reply, and
both reads fail; or the length field of its first reply is 2, all bytes of the reply
but the last arrive ahead of the last one, and both reads fail. -/
theorem foreign_frame_fails_two_reads :
    let s := served 2
    let frame : Bytes := [0, 99, 0, 0, 0, 3, 7, 0x83, 2]
    let extra := Disturbance.extra 0 frame
    let length := Disturbance.length 0 2
    let S := constant 0x1234
    (extra.Fits s.core.line ∧ ∃ l, (linkMachine S extra s).Run (.start S extra s) [9, 11] l ∧
      (l.since s).countP Effect.isFailed = 2 ∧ ¬l.Contained S s) ∧
    length.Fits s.core.line ∧ ∃ l, (linkMachine S length s).Run (.start S length s) [10, 12] l ∧
      (l.since s).countP Effect.isFailed = 2 ∧ ¬l.Contained S s := by
  refine ⟨⟨⟨by decide, rfl, by decide⟩, _, .cons ⟨by decide, by decide⟩
    (.cons ⟨by decide, by decide⟩ (.nil _)), by decide, fun h => ?_⟩, ⟨by decide, .inl (by decide)⟩,
    _, .cons ⟨by decide, by decide⟩ (.cons ⟨by decide, by decide⟩ (.nil _)), by decide,
    fun h => ?_⟩
  · exact absurd h.failures (by decide)
  · exact absurd h.failures (by decide)

end Neubau.Modbus.Session
