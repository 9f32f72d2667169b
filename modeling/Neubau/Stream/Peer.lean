import Neubau.Stream.Framing

/-! A receiver with a peer that reacts to what it does. A chunk that arrives makes
the handler go from one state to another, and the peer sees where it went. What
the single frames keep of the handler, its buffer and the peer, a chunk keeps. -/

namespace Neubau.Stream

variable {α σ π : Type*}

/-- What becomes of a peer when the handler goes from one state to another; two
steps of the handler are to the peer what the one step over both is. -/
structure Peer (H : Handler α σ) (π : Type*) where
  Precedes : σ → σ → Prop
  refl : ∀ s, Precedes s s
  trans : ∀ {s t u}, Precedes s t → Precedes t u → Precedes s u
  frame : ∀ s f, H.stopped s = false → Precedes s (H.frame s f)
  bad : ∀ s, H.stopped s = false → Precedes s (H.bad s)
  react : π → σ → σ → π
  react_self : ∀ y s, react y s s = y
  react_trans : ∀ {s t u} (y), Precedes s t → Precedes t u → react y s u = react (react y s t) t u

variable {F : Framer α} {H : Handler α σ}

theorem Peer.precedes_drain (P : Peer H π) (n : ℕ) {s : σ} (xs : List α)
    (hrun : H.stopped s = false) : P.Precedes s (drain F H n (s, xs)).1 := by
  induction n generalizing s xs with
  | zero => exact P.refl s
  | succ n ih =>
    cases hx : F.cut xs with
    | wait =>
      rw [drain_wait hx]
      exact P.refl s
    | bad =>
      rw [drain_bad hx]
      exact P.bad s hrun
    | frame f rest =>
      cases hstop : H.stopped (H.frame s f) with
      | true =>
        rw [drain_frame_stopped hx hstop]
        exact P.frame s f hrun
      | false =>
        rw [drain_frame_running hx hstop]
        exact P.trans (P.frame s f hrun) (ih rest hstop)

/-- What each frame keeps, a drain keeps. -/
theorem Peer.drain_keeps (P : Peer H π) {I : σ → List α → π → Prop}
    (hframe : ∀ s xs y f rest, I s xs y → F.cut xs = .frame f rest →
      I (H.frame s f) rest (P.react y s (H.frame s f)))
    (hbad : ∀ s xs y, I s xs y → F.cut xs = .bad → I (H.bad s) [] (P.react y s (H.bad s)))
    (n : ℕ) {s : σ} {xs : List α} {y : π} (hrun : H.stopped s = false) (h : I s xs y) :
    I (drain F H n (s, xs)).1 (drain F H n (s, xs)).2
      (P.react y s (drain F H n (s, xs)).1) := by
  induction n generalizing s xs y with
  | zero =>
    show I s xs (P.react y s s)
    rwa [P.react_self]
  | succ n ih =>
    cases hx : F.cut xs with
    | wait =>
      rw [drain_wait hx]
      show I s xs (P.react y s s)
      rwa [P.react_self]
    | bad =>
      rw [drain_bad hx]
      exact hbad s xs y h hx
    | frame f rest =>
      have hnext := hframe s xs y f rest h hx
      cases hstop : H.stopped (H.frame s f) with
      | true =>
        rw [drain_frame_stopped hx hstop]
        exact hnext
      | false =>
        rw [drain_frame_running hx hstop,
          P.react_trans y (P.frame s f hrun) (P.precedes_drain n rest hstop)]
        exact ih hstop hnext

/-- What each frame keeps, a chunk keeps once it is on the buffer. -/
theorem Peer.feed_keeps (P : Peer H π) {I : σ → List α → π → Prop}
    (hframe : ∀ s xs y f rest, I s xs y → F.cut xs = .frame f rest →
      I (H.frame s f) rest (P.react y s (H.frame s f)))
    (hbad : ∀ s xs y, I s xs y → F.cut xs = .bad → I (H.bad s) [] (P.react y s (H.bad s)))
    {p : σ × List α} {chunk : List α} {y : π} (hrun : H.stopped p.1 = false)
    (h : I p.1 (p.2 ++ chunk) y) :
    I (feed F H p chunk).1 (feed F H p chunk).2 (P.react y p.1 (feed F H p chunk).1) := by
  rw [feed_eq hrun le_rfl]
  exact P.drain_keeps hframe hbad _ hrun h

/-- A chunk that completes one frame, and no more. -/
theorem feed_frame {p : σ × List α} (chunk : List α) {f : List α} (hrun : H.stopped p.1 = false)
    (hcut : F.cut (p.2 ++ chunk) = .frame f []) : feed F H p chunk = (H.frame p.1 f, []) := by
  rw [feed_eq hrun (Nat.le_succ _)]
  cases hstop : H.stopped (H.frame p.1 f) with
  | true => exact drain_frame_stopped hcut hstop
  | false => rw [drain_frame_running hcut hstop, drain_wait F.nil]

/-- A chunk with which the framer rejects the buffer. -/
theorem feed_bad {p : σ × List α} (chunk : List α) (hrun : H.stopped p.1 = false)
    (hcut : F.cut (p.2 ++ chunk) = .bad) : feed F H p chunk = (H.bad p.1, []) := by
  rw [feed_eq hrun (Nat.le_succ _)]
  exact drain_bad hcut

end Neubau.Stream
