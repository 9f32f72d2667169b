import Neubau.Sunspec.DiscoverySpec

/-! The single changes a call makes to a discovery: an endpoint goes on, a session
is made or closed, an endpoint is added or let go. Each moves the discovery forward
and keeps it sound; those with which nothing completes keep it at rest. -/

namespace Neubau.Sunspec.Discovery

open Neubau.Common Neubau.Modbus

variable {o : SunspecDiscoveryOptions}

theorem EndpointScan.Fits.advances {b : Bool} {e f : EndpointScan} (h : e.Fits o b)
    (hf : EndpointScan.Advances o e f) (hcontrol : f.control = e.control)
    (hended : f.completed = true → f.Over o) : f.Fits o b where
  phase := hf.config ▸ hf.scan.phase h.phase
  ended := hended
  control hc := h.control (hcontrol.symm.trans hc)
  quiet hb := hf.quiet (h.quiet hb)

namespace State

variable {d t u : State} {i : ℕ} {e f : EndpointScan}

/-- Nothing completed between `d` and `t`. -/
structure Still (d t : State) : Prop where
  finished : ∀ (i : ℕ) f, t.endpoints[i]? = some f → f.completed = true →
    ∃ e, d.endpoints[i]? = some e ∧ e.completed = true
  upstream : t.modbusCompleted = true → d.modbusCompleted = true

theorem Still.trans (h₁ : Still d t) (h₂ : Still t u) : Still d u where
  finished i g hg hcompleted := by
    obtain ⟨f, hf, hcompleted'⟩ := h₂.finished i g hg hcompleted
    exact h₁.finished i f hf hcompleted'
  upstream := h₁.upstream ∘ h₂.upstream

theorem Later.closedFor (h : Later o d t) (he : d.endpoints[i]? = some e)
    (hcompleted : e.completed = true) (hclosed : d.ClosedFor i) : t.ClosedFor i := by
  intro s hs howner
  obtain ⟨j, hj⟩ := List.mem_iff_getElem?.1 hs
  have hlt := h.unowned i e he hcompleted j s hj howner
  obtain ⟨s', hs', howner', hclosed'⟩ := h.created j _ (List.getElem?_eq_getElem hlt)
  obtain rfl : s' = s := Option.some_inj.1 (hs'.symm.trans hj)
  exact hclosed' (hclosed _ (List.getElem_mem hlt) (howner'.symm.trans howner))

theorem Later.isSealed (hl : Later o d t) (hs : Still d t) (h : d.Sealed) : t.Sealed := by
  intro i f hf hcompleted
  obtain ⟨e, he, hcompleted'⟩ := hs.finished i f hf hcompleted
  exact hl.closedFor he hcompleted' (h i e he hcompleted')

/-- A discovery at rest stays at rest where nothing completes. -/
theorem Rest.later (h : Rest o d) (hl : Later o d t) (hs : Still d t) (ht : Sound o t) :
    Rest o t where
  toSound := ht
  isSealed := hl.isSealed hs h.isSealed
  waits hdone := by
    refine (h.waits ⟨hs.upstream hdone.1, fun e he => ?_⟩).imp hl.failing hl.terminal
    obtain ⟨i, hi⟩ := List.mem_iff_getElem?.1 he
    obtain ⟨f, hf, -⟩ := hl.endpoints i e hi
    obtain ⟨e', he', hcompleted⟩ := hs.finished i f hf (hdone.2 f (List.mem_of_getElem? hf))
    obtain rfl : e = e' := Option.some_inj.1 (hi.symm.trans he')
    exact hcompleted

/-! ### Flags -/

/-- What changes no endpoint and no session. -/
theorem Later.same (hendpoints : t.endpoints = d.endpoints) (hcreated : t.created = d.created)
    (hstopping : d.runStopping = true → t.runStopping = true)
    (hfailing : d.failing = true → t.failing = true)
    (hterminal : d.terminal = true → t.terminal = true)
    (hmodbus : d.modbusCompleted = true → t.modbusCompleted = true) : Later o d t where
  endpoints _ e he := ⟨e, hendpoints ▸ he, .refl e⟩
  created _ s hs := ⟨s, hcreated ▸ hs, rfl, id⟩
  refused _ := ⟨by rw [hendpoints], by rw [hcreated]⟩
  unowned _ _ _ _ _ _ hs _ := (List.getElem?_eq_some_iff.1 (hcreated ▸ hs)).1
  toLasting := ⟨hstopping, hfailing, hterminal, hmodbus⟩

theorem Still.same (hendpoints : t.endpoints = d.endpoints)
    (hmodbus : t.modbusCompleted = d.modbusCompleted) : Still d t where
  finished _ f hf hcompleted := ⟨f, hendpoints ▸ hf, hcompleted⟩
  upstream := hmodbus ▸ id

/-- Flags may change, and something may be told. -/
theorem Sound.same (h : Sound o d) (hendpoints : t.endpoints = d.endpoints)
    (hcreated : t.created = d.created) (hterminal : t.terminal = d.terminal) (hflags : Flagged t)
    (hunsub : t.subscribed = false → d.endpoints = [] ∧ t.modbusCompleted = false)
    (hlogged : t.Logged) : Sound o t where
  toFlagged := hflags
  fits := hendpoints ▸ hterminal ▸ h.fits
  owner := hcreated ▸ hendpoints ▸ h.owner
  held := hcreated ▸ hendpoints ▸ h.held
  closed ht s hs := h.closed (hterminal ▸ ht) s (hcreated ▸ hs)
  unsubscribed hs := hendpoints ▸ hunsub hs
  logged := hlogged

theorem Grows.tell (d : State) (f : Effect) : Grows o d (d.tell f) :=
  ⟨.same rfl rfl id id id id, fun _ => rfl⟩

/-! ### An endpoint goes on -/

theorem getElem?_update (he : d.endpoints[i]? = some e) (f : EndpointScan) (j : ℕ) :
    (d.update i f).endpoints[j]? = if i = j then some f else d.endpoints[j]? := by
  have hlt := (List.getElem?_eq_some_iff.1 he).1
  simp [update, List.getElem?_set, hlt]

theorem Grows.update (he : d.endpoints[i]? = some e) (hf : EndpointScan.Advances o e f) :
    Grows o d (d.update i f) where
  endpoints j e' he' := by
    rw [getElem?_update he]
    by_cases hj : i = j
    · subst hj
      obtain rfl : e = e' := Option.some_inj.1 (he.symm.trans he')
      exact ⟨f, if_pos rfl, hf⟩
    · exact ⟨e', (if_neg hj).trans he', .refl e'⟩
  created _ s hs := ⟨s, hs, rfl, id⟩
  refused _ := ⟨List.length_set, rfl⟩
  unowned _ _ _ _ _ _ hs _ := (List.getElem?_eq_some_iff.1 hs).1
  toLasting := ⟨id, id, id, id⟩
  unended _ := rfl

theorem Still.update (he : d.endpoints[i]? = some e)
    (hcompleted : f.completed = true → e.completed = true) : Still d (d.update i f) where
  finished j f' hf' hc := by
    rw [getElem?_update he] at hf'
    by_cases hj : i = j
    · subst hj
      rw [if_pos rfl] at hf'
      obtain rfl := Option.some_inj.1 hf'
      exact ⟨e, he, hcompleted hc⟩
    · rw [if_neg hj] at hf'
      exact ⟨f', hf', hc⟩
  upstream := id

theorem Sound.update (h : Sound o d) (he : d.endpoints[i]? = some e)
    (hf : EndpointScan.Advances o e f) (hcontrol : f.control = e.control)
    (hsessions : ∀ j ∈ e.sessions, j ∈ f.sessions) (hended : f.completed = true → f.Over o) :
    Sound o (d.update i f) where
  fits f' hf' := by
    rcases List.mem_or_eq_of_mem_set hf' with hf' | rfl
    · exact h.fits f' hf'
    · exact (h.fits e (List.mem_of_getElem? he)).advances hf hcontrol hended
  owner s hs := by
    show s.owner < (d.endpoints.set i f).length
    rw [List.length_set]
    exact h.owner s hs
  held j s hs hclosed := by
    obtain ⟨e', he', hmem⟩ := h.held j s hs hclosed
    rw [getElem?_update he]
    by_cases hj : i = s.owner
    · rw [if_pos hj]
      obtain rfl : e = e' := Option.some_inj.1 (he.symm.trans (hj ▸ he'))
      exact ⟨f, rfl, hsessions j hmem⟩
    · rw [if_neg hj]
      exact ⟨e', he', hmem⟩
  closed := h.closed
  toFlagged := ⟨h.failing, h.queued, h.waiting⟩
  unsubscribed hs := by
    obtain ⟨hnil, -⟩ := h.unsubscribed hs
    simp [hnil] at he
  logged := h.logged.later (Grows.update he hf).toLater rfl rfl rfl (.inl rfl)

/-! ### Sessions and endpoints are made -/

theorem Grows.createSession (hr : d.refuses = false)
    (hi : ∀ e, d.endpoints[i]? = some e → e.completed = false) :
    Grows o d (d.createSession i) where
  endpoints _ e he := ⟨e, he, .refl e⟩
  created j s hs := by
    have hlt := (List.getElem?_eq_some_iff.1 hs).1
    exact ⟨s, (List.getElem?_append_left hlt).trans hs, rfl, id⟩
  refused hd := by simp [hr] at hd
  unowned k e he hcompleted j s hs howner := by
    by_contra hge
    rw [State.createSession, List.getElem?_append_right (by omega)] at hs
    obtain rfl : { owner := i } = s := by
      rw [List.getElem?_singleton] at hs
      split at hs
      · exact Option.some_inj.1 hs
      · cases hs
    subst howner
    simp [hi e he] at hcompleted
  toLasting := ⟨id, id, id, id⟩
  unended _ := rfl

theorem Sound.createSession (h : Sound o d) (hr : d.refuses = false)
    (he : d.endpoints[i]? = some e) (hcompleted : e.completed = false)
    (hmem : d.created.length ∈ e.sessions) : Sound o (d.createSession i) where
  fits := h.fits
  owner s hs := by
    rcases List.mem_append.1 hs with hs | hs
    · exact h.owner s hs
    · rw [List.mem_singleton.1 hs]
      exact (List.getElem?_eq_some_iff.1 he).1
  held j s hs hclosed := by
    by_cases hlt : j < d.created.length
    · exact h.held j s ((List.getElem?_append_left hlt).symm.trans hs) hclosed
    · rw [State.createSession, List.getElem?_append_right (by omega),
        List.getElem?_singleton] at hs
      split at hs
      case isTrue hj =>
        obtain rfl := Option.some_inj.1 hs
        obtain rfl : j = d.created.length := by omega
        exact ⟨e, he, hmem⟩
      case isFalse => cases hs
  closed ht := by
    have hr' : d.refuses = true := refuses_eq_true.2 (.inr (.inr ht))
    simp [hr] at hr'
  toFlagged := ⟨h.failing, h.queued, h.waiting⟩
  unsubscribed := h.unsubscribed
  logged := by
    refine h.logged.later (Grows.createSession (o := o) hr fun e' he' => ?_).toLater rfl rfl rfl
      (.inl rfl)
    obtain rfl : e = e' := Option.some_inj.1 (he.symm.trans he')
    exact hcompleted

/-- The endpoints with one more. -/
def addEndpoint (d : State) (f : EndpointScan) : State :=
  { d with endpoints := d.endpoints ++ [f] }

theorem Grows.addEndpoint (hr : d.refuses = false) : Grows o d (d.addEndpoint f) where
  endpoints j e he := by
    have hlt := (List.getElem?_eq_some_iff.1 he).1
    exact ⟨e, (List.getElem?_append_left hlt).trans he, .refl e⟩
  created _ s hs := ⟨s, hs, rfl, id⟩
  refused hd := by simp [hr] at hd
  unowned _ _ _ _ _ _ hs _ := (List.getElem?_eq_some_iff.1 hs).1
  toLasting := ⟨id, id, id, id⟩
  unended _ := rfl

theorem Still.addEndpoint (hf : f.completed = false) : Still d (d.addEndpoint f) where
  finished j f' hf' hcompleted := by
    rw [State.addEndpoint] at hf'
    by_cases hlt : j < d.endpoints.length
    · exact ⟨f', (List.getElem?_append_left hlt).symm.trans hf', hcompleted⟩
    · rw [List.getElem?_append_right (by omega), List.getElem?_singleton] at hf'
      split at hf'
      · obtain rfl := Option.some_inj.1 hf'
        simp [hf] at hcompleted
      · cases hf'
  upstream := id

theorem Sound.addEndpoint (h : Sound o d) (hr : d.refuses = false)
    (hsubscribed : d.subscribed = true) (hf : f.Fits o d.terminal) :
    Sound o (d.addEndpoint f) where
  fits f' hf' := by
    rcases List.mem_append.1 hf' with hf' | hf'
    · exact h.fits f' hf'
    · rw [List.mem_singleton.1 hf']
      exact hf
  owner s hs := by
    have hlt := h.owner s hs
    simp only [State.addEndpoint, List.length_append, List.length_singleton]
    omega
  held j s hs hclosed := by
    obtain ⟨e, he, hmem⟩ := h.held j s hs hclosed
    have hlt := (List.getElem?_eq_some_iff.1 he).1
    exact ⟨e, (List.getElem?_append_left hlt).trans he, hmem⟩
  closed := h.closed
  toFlagged := ⟨h.failing, h.queued, h.waiting⟩
  unsubscribed hs := by
    rw [State.addEndpoint] at hs
    simp [hsubscribed] at hs
  logged := h.logged.later (Grows.addEndpoint (o := o) hr).toLater rfl rfl rfl (.inl rfl)

/-! ### Sessions are closed, endpoints let go -/

theorem getElem?_close (d : State) (session j : ℕ) : (d.close session).created[j]? =
    (d.created[j]?).map fun s => if session = j then { s with closed := true } else s := by
  rw [close, List.getElem?_modify]
  by_cases hj : session = j <;> simp [hj]

theorem Grows.close (d : State) (session : ℕ) : Grows o d (d.close session) where
  endpoints _ e he := ⟨e, he, .refl e⟩
  created j s hs := by
    rw [getElem?_close, hs]
    refine ⟨_, rfl, ?_, ?_⟩
    · split <;> rfl
    · split
      · exact fun _ => rfl
      · exact id
  refused _ := ⟨rfl, List.length_modify ..⟩
  unowned _ _ _ _ j s hs _ := by
    have hlt := (List.getElem?_eq_some_iff.1 hs).1
    rwa [State.close, List.length_modify] at hlt
  toLasting := ⟨id, id, id, id⟩
  unended _ := rfl

theorem Sound.close (h : Sound o d) (session : ℕ) : Sound o (d.close session) where
  fits := h.fits
  owner s hs := by
    obtain ⟨j, hj⟩ := List.mem_iff_getElem?.1 hs
    rw [getElem?_close, Option.map_eq_some_iff] at hj
    obtain ⟨s', hs', rfl⟩ := hj
    have hlt := h.owner s' (List.mem_of_getElem? hs')
    split <;> exact hlt
  held j s hs hclosed := by
    rw [getElem?_close, Option.map_eq_some_iff] at hs
    obtain ⟨s', hs', rfl⟩ := hs
    split at hclosed
    · cases hclosed
    case isFalse hj =>
      rw [if_neg hj]
      exact h.held j s' hs' hclosed
  closed ht s hs := by
    obtain ⟨j, hj⟩ := List.mem_iff_getElem?.1 hs
    rw [getElem?_close, Option.map_eq_some_iff] at hj
    obtain ⟨s', hs', rfl⟩ := hj
    have hclosed := h.closed ht s' (List.mem_of_getElem? hs')
    split
    · rfl
    · exact hclosed
  toFlagged := ⟨h.failing, h.queued, h.waiting⟩
  unsubscribed := h.unsubscribed
  logged := h.logged.later (Grows.close (o := o) d session).toLater rfl rfl rfl (.inl rfl)

theorem Grows.releaseResources (d : State) : Grows o d d.releaseResources where
  endpoints j e he := by
    rw [State.releaseResources, List.getElem?_map, he]
    exact ⟨_, rfl, ⟨rfl, rfl, id, id, .refl _⟩⟩
  created _ s hs := ⟨s, hs, rfl, id⟩
  refused _ := ⟨List.length_map .., rfl⟩
  unowned _ _ _ _ _ _ hs _ := (List.getElem?_eq_some_iff.1 hs).1
  toLasting := ⟨id, id, id, id⟩
  unended _ := rfl

theorem Still.releaseResources (d : State) : Still d d.releaseResources where
  finished j f hf hcompleted := by
    rw [State.releaseResources, List.getElem?_map, Option.map_eq_some_iff] at hf
    obtain ⟨e, he, rfl⟩ := hf
    exact ⟨e, he, hcompleted⟩
  upstream := id

theorem Sound.releaseResources (h : Sound o d) (ht : d.terminal = true) :
    Sound o d.releaseResources where
  fits f hf := by
    obtain ⟨e, he, rfl⟩ := List.mem_map.1 hf
    have hfits := h.fits e he
    exact ⟨hfits.phase, hfits.ended, fun _ => ht, hfits.quiet⟩
  owner s hs := by
    rw [State.releaseResources, List.length_map]
    exact h.owner s hs
  held j s hs hclosed := by
    have hclosed' := h.closed ht s (List.mem_of_getElem? hs)
    simp [hclosed] at hclosed'
  closed := h.closed
  toFlagged := ⟨h.failing, h.queued, h.waiting⟩
  unsubscribed hs := by
    obtain ⟨hnil, hmodbus⟩ := h.unsubscribed hs
    exact ⟨by rw [State.releaseResources, hnil]; rfl, hmodbus⟩
  logged := h.logged.later (Grows.releaseResources (o := o) d).toLater rfl rfl rfl (.inl rfl)

end State

end Neubau.Sunspec.Discovery
