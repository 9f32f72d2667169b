import Mathlib.Tactic

/-! Incremental framing of a stream. A framer looks at the front of a buffer and
waits for more, rejects it, or cuts a frame off. A receiver feeds each arriving
chunk to its buffer and lets a handler consume the frames that are complete,
until one of them stops it. If a verdict on a buffer stands when more arrives,
then on a stream the framer never rejects the chunks do not matter: feeding
them one by one leaves the handler where feeding the whole stream leaves it. -/

namespace Neubau.Stream

variable {α β σ : Type*}

/-- What a framer makes of the front of a buffer. -/
inductive Cut (α : Type*)
  | wait
  | bad
  | frame (head rest : List α)

/-- A framer cuts nonempty frames, and more input does not change a verdict. -/
structure Framer (α : Type*) where
  cut : List α → Cut α
  nil : cut [] = .wait
  shrinks : ∀ {xs f rest}, cut xs = .frame f rest → rest.length < xs.length
  bad_append : ∀ {xs} (ys), cut xs = .bad → cut (xs ++ ys) = .bad
  frame_append : ∀ {xs f rest} (ys), cut xs = .frame f rest →
    cut (xs ++ ys) = .frame f (rest ++ ys)

/-- A consumer of frames: what a frame does, what a rejected buffer does, and
when it stops listening. -/
structure Handler (α σ : Type*) where
  frame : σ → List α → σ
  bad : σ → σ
  stopped : σ → Bool

/-- A buffer from which the framer cuts frames until it has to wait. -/
inductive Framer.Clean (F : Framer α) : List α → Prop
  | wait {xs : List α} : F.cut xs = .wait → Clean F xs
  | frame {xs f rest : List α} : F.cut xs = .frame f rest → Clean F rest → Clean F xs

/-- Consume at most `n` frames of the buffer. -/
def drain (F : Framer α) (H : Handler α σ) : ℕ → σ × List α → σ × List α
  | 0, p => p
  | n + 1, p =>
    match F.cut p.2 with
    | .wait => p
    | .bad => (H.bad p.1, [])
    | .frame f rest =>
      let s := H.frame p.1 f
      if H.stopped s then (s, rest) else drain F H n (s, rest)

/-- A chunk arrives: it joins the buffer, and the complete frames are consumed. -/
def feed (F : Framer α) (H : Handler α σ) (p : σ × List α) (chunk : List α) : σ × List α :=
  if H.stopped p.1 then p else drain F H (p.2 ++ chunk).length (p.1, p.2 ++ chunk)

/-- Two receivers in the same state, with the same buffer unless they stopped. -/
def Agree (H : Handler α σ) (p q : σ × List α) : Prop :=
  p.1 = q.1 ∧ (H.stopped p.1 = false → p.2 = q.2)

variable {F : Framer α} {H : Handler α σ}

theorem Agree.refl (p : σ × List α) : Agree H p p := ⟨rfl, fun _ => rfl⟩

theorem Agree.trans {p q r : σ × List α} (h₁ : Agree H p q) (h₂ : Agree H q r) : Agree H p r :=
  ⟨h₁.1.trans h₂.1, fun h => (h₁.2 h).trans (h₂.2 (h₁.1 ▸ h))⟩

theorem Framer.Clean.not_bad {xs ys : List α} (h : F.Clean (xs ++ ys)) : F.cut xs ≠ .bad := by
  intro hb
  have := F.bad_append ys hb
  cases h <;> simp_all

theorem Framer.Clean.tail {xs ys f rest : List α} (h : F.Clean (xs ++ ys))
    (hf : F.cut xs = .frame f rest) : F.Clean (rest ++ ys) := by
  have := F.frame_append ys hf
  cases h with
  | wait hw => simp_all
  | frame hc hr => simp_all

theorem drain_wait {n : ℕ} {s : σ} {xs : List α} (h : F.cut xs = .wait) :
    drain F H n (s, xs) = (s, xs) := by
  cases n <;> simp [drain, h]

theorem drain_bad {n : ℕ} {s : σ} {xs : List α} (h : F.cut xs = .bad) :
    drain F H (n + 1) (s, xs) = (H.bad s, []) := by
  simp [drain, h]

theorem drain_frame_stopped {n : ℕ} {s : σ} {xs f rest : List α} (h : F.cut xs = .frame f rest)
    (hs : H.stopped (H.frame s f) = true) :
    drain F H (n + 1) (s, xs) = (H.frame s f, rest) := by
  simp [drain, h, hs]

theorem drain_frame_running {n : ℕ} {s : σ} {xs f rest : List α} (h : F.cut xs = .frame f rest)
    (hs : H.stopped (H.frame s f) = false) :
    drain F H (n + 1) (s, xs) = drain F H n (H.frame s f, rest) := by
  simp [drain, h, hs]

/-- Counts past the buffer's length change nothing. -/
theorem drain_of_le {m n : ℕ} {p : σ × List α} (hm : p.2.length ≤ m) (hn : p.2.length ≤ n) :
    drain F H m p = drain F H n p := by
  induction m generalizing n p with
  | zero =>
    have h0 : p.2 = [] := List.eq_nil_of_length_eq_zero (by omega)
    cases n <;> simp [drain, h0, F.nil]
  | succ m ih =>
    cases n with
    | zero =>
      have h0 : p.2 = [] := List.eq_nil_of_length_eq_zero (by omega)
      simp [drain, h0, F.nil]
    | succ n =>
      simp only [drain]
      split
      · rfl
      · rfl
      · rename_i f rest hf
        have hs := F.shrinks hf
        rw [ih (n := n) (by dsimp only; omega) (by dsimp only; omega)]

theorem feed_of_stopped {p : σ × List α} (hs : H.stopped p.1 = true) (chunk : List α) :
    feed F H p chunk = p := if_pos hs

theorem foldl_feed_of_stopped {p : σ × List α} (hs : H.stopped p.1 = true)
    (chunks : List (List α)) : chunks.foldl (feed F H) p = p := by
  induction chunks with
  | nil => rfl
  | cons c cs ih => rw [List.foldl_cons, feed_of_stopped hs, ih]

theorem feed_eq {n : ℕ} {p : σ × List α} {chunk : List α} (hs : H.stopped p.1 = false)
    (hn : (p.2 ++ chunk).length ≤ n) : feed F H p chunk = drain F H n (p.1, p.2 ++ chunk) := by
  simp only [feed, hs, Bool.false_eq_true, ↓reduceIte]
  exact drain_of_le le_rfl hn

/-- What every frame and every rejection keeps, a chunk keeps. -/
theorem drain_keeps {P : σ → Prop} (hframe : ∀ s f, H.stopped s = false → P s → P (H.frame s f))
    (hbad : ∀ s, H.stopped s = false → P s → P (H.bad s)) {n : ℕ} {p : σ × List α}
    (hs : H.stopped p.1 = false) (hp : P p.1) : P (drain F H n p).1 := by
  induction n generalizing p with
  | zero => exact hp
  | succ n ih =>
    simp only [drain]
    split
    · exact hp
    · exact hbad _ hs hp
    · rename_i f rest hf
      have hnext := hframe _ f hs hp
      split_ifs with hstop
      · exact hnext
      · exact ih (by simpa using hstop) hnext

theorem feed_keeps {P : σ → Prop} (hframe : ∀ s f, H.stopped s = false → P s → P (H.frame s f))
    (hbad : ∀ s, H.stopped s = false → P s → P (H.bad s)) {p : σ × List α} (hp : P p.1)
    (chunk : List α) : P (feed F H p chunk).1 := by
  by_cases hs : H.stopped p.1
  · rwa [feed_of_stopped hs]
  · have hrun : H.stopped p.1 = false := by simpa using hs
    rw [feed_eq hrun le_rfl]
    exact drain_keeps hframe hbad hrun hp

/-- Every frame that is consumed, and a rejection, meets its condition in the state that
it finds. -/
def Meets (F : Framer α) (H : Handler α σ) (ok : σ → List α → Prop) (okBad : σ → Prop) :
    ℕ → σ × List α → Prop
  | 0, _ => True
  | n + 1, p =>
    match F.cut p.2 with
    | .wait => True
    | .bad => okBad p.1
    | .frame f rest => ok p.1 f ∧
        (H.stopped (H.frame p.1 f) = false → Meets F H ok okBad n (H.frame p.1 f, rest))

/-- Frames that meet their condition keep a property, and one that does not spoils the
state for good. -/
theorem drain_meets {ok : σ → List α → Prop} {okBad : σ → Prop} {P R : σ → Prop}
    (hkeep : ∀ s f, H.stopped s = false → P s → ok s f → P (H.frame s f))
    (hkeepBad : ∀ s, H.stopped s = false → P s → okBad s → P (H.bad s))
    (hspoil : ∀ s f, H.stopped s = false → P s → ¬ok s f → R (H.frame s f))
    (hspoilBad : ∀ s, H.stopped s = false → P s → ¬okBad s → R (H.bad s))
    (hframe : ∀ s f, H.stopped s = false → R s → R (H.frame s f))
    (hbad : ∀ s, H.stopped s = false → R s → R (H.bad s)) {n : ℕ} {p : σ × List α}
    (hs : H.stopped p.1 = false) (hp : P p.1) :
    (Meets F H ok okBad n p → P (drain F H n p).1) ∧
      (¬Meets F H ok okBad n p → R (drain F H n p).1) := by
  induction n generalizing p with
  | zero => exact ⟨fun _ => hp, fun h => absurd trivial h⟩
  | succ n ih =>
    unfold Meets
    cases hcut : F.cut p.2 with
    | wait =>
      rw [drain_wait hcut]
      exact ⟨fun _ => hp, fun h => absurd trivial h⟩
    | bad =>
      rw [drain_bad hcut]
      exact ⟨hkeepBad _ hs hp, hspoilBad _ hs hp⟩
    | frame f rest =>
      dsimp only
      by_cases hok : ok p.1 f
      · have hnext := hkeep _ f hs hp hok
        rw [and_iff_right hok]
        cases hstop : H.stopped (H.frame p.1 f) with
        | true =>
          rw [drain_frame_stopped hcut hstop]
          exact ⟨fun _ => hnext, fun h => absurd nofun h⟩
        | false =>
          rw [drain_frame_running hcut hstop, forall_prop_of_true rfl]
          exact ih hstop hnext
      · have hnext := hspoil _ f hs hp hok
        refine ⟨fun h => absurd h.1 hok, fun _ => ?_⟩
        cases hstop : H.stopped (H.frame p.1 f) with
        | true =>
          rw [drain_frame_stopped hcut hstop]
          exact hnext
        | false =>
          rw [drain_frame_running hcut hstop]
          exact drain_keeps hframe hbad hstop hnext

/-- What the frames that are consumed, and a rejection, put out, in order. -/
def outputs (F : Framer α) (H : Handler α σ) (out : σ → List α → List β) (outBad : σ → List β) :
    ℕ → σ × List α → List β
  | 0, _ => []
  | n + 1, p =>
    match F.cut p.2 with
    | .wait => []
    | .bad => outBad p.1
    | .frame f rest => out p.1 f ++
        if H.stopped (H.frame p.1 f) then []
        else outputs F H out outBad n (H.frame p.1 f, rest)

/-- What relates the ends of every frame to what it puts out relates the ends of a drain to
all that is put out. -/
theorem drain_outputs {out : σ → List α → List β} {outBad : σ → List β}
    {R : σ → List β → σ → Prop} (hrefl : ∀ s, R s [] s)
    (htrans : ∀ {s xs t ys u}, R s xs t → R t ys u → R s (xs ++ ys) u)
    (hframe : ∀ s f, R s (out s f) (H.frame s f)) (hbad : ∀ s, R s (outBad s) (H.bad s))
    (n : ℕ) (p : σ × List α) : R p.1 (outputs F H out outBad n p) (drain F H n p).1 := by
  induction n generalizing p with
  | zero => exact hrefl _
  | succ n ih =>
    unfold outputs
    cases hcut : F.cut p.2 with
    | wait =>
      rw [drain_wait hcut]
      exact hrefl _
    | bad =>
      rw [drain_bad hcut]
      exact hbad _
    | frame f rest =>
      dsimp only
      cases hstop : H.stopped (H.frame p.1 f) with
      | true =>
        rw [drain_frame_stopped hcut hstop, if_pos rfl, List.append_nil]
        exact hframe _ f
      | false =>
        rw [drain_frame_running hcut hstop, if_neg (by decide)]
        exact htrans (hframe _ f) (ih (H.frame p.1 f, rest))

/-- A running receiver is left with a buffer on which its framer waits. -/
theorem drain_waits {n : ℕ} {p : σ × List α} (hn : p.2.length ≤ n)
    (hs : H.stopped (drain F H n p).1 = false) : F.cut (drain F H n p).2 = .wait := by
  induction n generalizing p with
  | zero =>
    rw [drain, List.eq_nil_of_length_eq_zero (Nat.le_zero.1 hn)]
    exact F.nil
  | succ n ih =>
    simp only [drain] at hs ⊢
    split at hs
    · assumption
    · exact F.nil
    · rename_i f rest hf
      have hlt := F.shrinks hf
      split_ifs at hs ⊢ with hstop
      · simp [hstop] at hs
      · exact ih (by dsimp only; omega) hs

/-- Draining a buffer and then feeding more is draining the two together, and
what a running receiver is left with is as clean as the stream was. -/
theorem drain_feed {n : ℕ} (s : σ) (xs ys : List α) (hn : (xs ++ ys).length ≤ n)
    (hrun : H.stopped s = false) (hc : F.Clean (xs ++ ys)) :
    Agree H (feed F H (drain F H n (s, xs)) ys) (drain F H n (s, xs ++ ys)) ∧
      (H.stopped (drain F H n (s, xs)).1 = false → F.Clean ((drain F H n (s, xs)).2 ++ ys)) := by
  induction n generalizing s xs with
  | zero =>
    obtain ⟨rfl, rfl⟩ := List.append_eq_nil_iff.1 (List.eq_nil_of_length_eq_zero (Nat.le_zero.1 hn))
    exact ⟨by simp [drain, feed, hrun, Agree.refl], fun _ => hc⟩
  | succ n ih =>
    cases hx : F.cut xs with
    | wait =>
      rw [drain_wait hx]
      exact ⟨by rw [feed_eq hrun hn]; exact .refl _, fun _ => hc⟩
    | bad => exact absurd hx hc.not_bad
    | frame f rest =>
      have hlt := F.shrinks hx
      have hxy := F.frame_append ys hx
      simp only [drain, hx, hxy]
      split_ifs with hstop
      · refine ⟨⟨by simp [feed, hstop], fun h => ?_⟩, fun h => ?_⟩ <;> simp_all [feed]
      · refine ih _ rest ?_ (by simpa using hstop) (hc.tail hx)
        simp only [List.length_append] at hn ⊢
        omega

theorem feed_append {p : σ × List α} (xs ys : List α) (hc : F.Clean (p.2 ++ xs ++ ys)) :
    Agree H (feed F H (feed F H p xs) ys) (feed F H p (xs ++ ys)) ∧
      (H.stopped (feed F H p xs).1 = false → F.Clean ((feed F H p xs).2 ++ ys)) := by
  by_cases hs : H.stopped p.1
  · simp [feed, hs, Agree.refl]
  · have hrun : H.stopped p.1 = false := by simpa using hs
    have h := drain_feed (H := H) p.1 (p.2 ++ xs) ys le_rfl hrun hc
    rw [feed_eq hrun (n := (p.2 ++ xs ++ ys).length) (by simp), feed_eq hrun le_rfl,
      ← List.append_assoc]
    exact h

/-- The chunks of a clean stream do not matter. -/
theorem foldl_feed {p : σ × List α} (chunks : List (List α)) (hp : F.cut p.2 = .wait)
    (hc : F.Clean (p.2 ++ chunks.flatten)) :
    Agree H (chunks.foldl (feed F H) p) (feed F H p chunks.flatten) := by
  induction chunks generalizing p with
  | nil =>
    have hf : feed F H p [] = p := by
      by_cases hs : H.stopped p.1
      · exact feed_of_stopped hs []
      · rw [feed_eq (by simpa using hs) le_rfl, List.append_nil, drain_wait hp]
    rw [List.flatten_nil, hf]
    exact .refl _
  | cons c cs ih =>
    rw [List.foldl_cons, List.flatten_cons]
    rw [List.flatten_cons, ← List.append_assoc] at hc
    obtain ⟨ha, hclean⟩ := feed_append (H := H) c cs.flatten hc
    refine .trans ?_ ha
    by_cases hs : H.stopped (feed F H p c).1
    · rw [foldl_feed_of_stopped hs, feed_of_stopped hs]
      exact .refl _
    · have hrun : H.stopped (feed F H p c).1 = false := by simpa using hs
      refine ih ?_ (hclean hrun)
      have hrun₀ : H.stopped p.1 = false := by
        by_contra h0
        rw [Bool.not_eq_false] at h0
        rw [feed_of_stopped h0, h0] at hrun
        cases hrun
      rw [feed_eq hrun₀ le_rfl] at hrun ⊢
      exact drain_waits le_rfl hrun

/-- A stream that the framer rejects is rejected once its first chunks show why. -/
theorem foldl_feed_bad {p : σ × List α} (chunks : List (List α)) (hrun : H.stopped p.1 = false)
    (hp : F.cut p.2 = .wait) (hbad : F.cut (p.2 ++ chunks.flatten) = .bad) :
    ∃ after : List (List α), chunks.foldl (feed F H) p = after.foldl (feed F H) (H.bad p.1, []) := by
  induction chunks generalizing p with
  | nil =>
    rw [List.flatten_nil, List.append_nil, hp] at hbad
    cases hbad
  | cons c cs ih =>
    rw [List.flatten_cons, ← List.append_assoc] at hbad
    have hfeed := feed_eq (F := F) hrun (Nat.le_succ (p.2 ++ c).length)
    rw [List.foldl_cons, hfeed]
    cases hcut : F.cut (p.2 ++ c) with
    | wait =>
      rw [drain_wait hcut]
      exact ih hrun hcut hbad
    | bad =>
      rw [drain_bad hcut]
      exact ⟨cs, rfl⟩
    | frame f rest =>
      rw [F.frame_append cs.flatten hcut] at hbad
      cases hbad

/-! ### The frames of a stream -/

/-- The frames the framer cuts from the front of a buffer, at most `n`, and what is left. -/
def Framer.frames (F : Framer α) : ℕ → List α → List (List α) × List α
  | 0, xs => ([], xs)
  | n + 1, xs =>
    match F.cut xs with
    | .frame f rest => ((F.frames n rest).1.cons f, (F.frames n rest).2)
    | _ => ([], xs)

/-- A handler that ignores the frames after it stopped. -/
def Handler.take (H : Handler α σ) (s : σ) (f : List α) : σ :=
  if H.stopped s then s else H.frame s f

theorem Handler.foldl_take_of_stopped {s : σ} (hs : H.stopped s = true) (fs : List (List α)) :
    fs.foldl H.take s = s := by
  induction fs with
  | nil => rfl
  | cons f fs ih => rw [List.foldl_cons, Handler.take, if_pos hs, ih]

/-- Draining a clean buffer hands over its frames, each once and in order. -/
theorem drain_eq_foldl {n : ℕ} {s : σ} {xs : List α} (hn : xs.length ≤ n)
    (hrun : H.stopped s = false) (hc : F.Clean xs) :
    (drain F H n (s, xs)).1 = (F.frames n xs).1.foldl H.take s ∧
      (H.stopped (drain F H n (s, xs)).1 = false →
        (drain F H n (s, xs)).2 = (F.frames n xs).2) := by
  induction n generalizing s xs with
  | zero => simp [drain, Framer.frames]
  | succ n ih =>
    cases hx : F.cut xs with
    | wait => simp [drain_wait hx, Framer.frames, hx]
    | bad =>
      rw [← List.append_nil xs] at hc
      exact absurd hx hc.not_bad
    | frame f rest =>
      have hlt := F.shrinks hx
      have hrest : F.Clean rest := by
        rw [← List.append_nil xs] at hc
        simpa using hc.tail hx
      have htake : H.take s f = H.frame s f := by rw [Handler.take, hrun, if_neg (by simp)]
      simp only [Framer.frames, hx, List.foldl_cons, htake]
      cases hstop : H.stopped (H.frame s f) with
      | true =>
        rw [drain_frame_stopped hx hstop, Handler.foldl_take_of_stopped hstop]
        exact ⟨rfl, fun h => by simp [hstop] at h⟩
      | false =>
        rw [drain_frame_running hx hstop]
        exact ih (by omega) hstop hrest

/-- A framer that cuts at a position loses nothing. -/
theorem Framer.frames_flatten (hcut : ∀ {xs f rest}, F.cut xs = .frame f rest → f ++ rest = xs)
    (n : ℕ) (xs : List α) : (F.frames n xs).1.flatten ++ (F.frames n xs).2 = xs := by
  induction n generalizing xs with
  | zero => rfl
  | succ n ih =>
    cases hx : F.cut xs with
    | wait => simp [Framer.frames, hx]
    | bad => simp [Framer.frames, hx]
    | frame f rest => simp [Framer.frames, hx, ih, hcut hx]

end Neubau.Stream
