import Neubau.Sunspec.DiscoveryRuns

/-! What a discovery tells and what it leaves behind, in every reachable state. The
flow of candidates ends at most once and is silent from then on, a stop and a
failure end the candidates, and nothing that could end is left waiting. What was
opened is closed with the run, and earlier with the endpoint it was opened for. -/

namespace Neubau.Sunspec.Discovery

open Neubau.Common Neubau.Modbus Neubau.Transition

variable {o : SunspecDiscoveryOptions} {p q : Process}

instance (o : SunspecDiscoveryOptions) (p : Process) (e : Event) :
    Decidable ((machine o).enabled p e) := inferInstanceAs (Decidable (p.Enabled e))

/-- The candidates flow gets at most one end and nothing behind it, and no candidate
behind a stop or the beginning of a failure; each endpoint contributes at most one
candidate. It completes only if the upstream and every opened endpoint completed, or
the run was stopped before it entered the loop. Conversely the end is told as soon
as the upstream and every endpoint completed, unless the run fails. -/
theorem discovery_protocol (hp : (machine o).Reachable p) :
    (∀ before e after, p.state.log = before ++ e :: after → e.isEnd = true →
      ∀ f ∈ after, f.isNext = false ∧ f.isEnd = false) ∧
    (∀ before e after, p.state.log = before ++ e :: after → e.isStop = true →
      ∀ f ∈ after, f.isNext = false) ∧
    (∀ i, candidates i p.state.log ≤ 1) ∧
    (.onCompleted ∈ p.state.log →
      (p.state.modbusCompleted = true ∧ ∀ e ∈ p.state.endpoints, e.completed = true) ∨
        Early p.state.log) ∧
    (p.AtRest → p.state.loopEntered = true → p.state.failing = false →
      p.state.modbusCompleted = true → (∀ e ∈ p.state.endpoints, e.completed = true) →
      ∃ e ∈ p.state.log, e.isEnd = true) := by
  have hsettles := (machine_settles o).reachable hp
  have hlogged := hsettles.sound.logged
  have hfollows : ∀ before e after, p.state.log = before ++ e :: after → ∀ f ∈ after,
      Follows e f := by
    intro before e after hlog f hf
    have horder := hlogged.order
    rw [hlog] at horder
    exact (List.pairwise_cons.1 (List.pairwise_append.1 horder).2.1).1 f hf
  refine ⟨fun before e after hlog hend f hf => (hfollows before e after hlog f hf).1 hend,
    fun before e after hlog hstop f hf => (hfollows before e after hlog f hf).2 hstop,
    hlogged.once, hlogged.completed, fun hrest _ hf hmodbus hall => hlogged.ends ?_⟩
  rcases (hsettles.rest hrest).waits ⟨hmodbus, hall⟩ with hfail | ht
  · simp [hf] at hfail
  · exact ht

/-- The unit 7 of a host. -/
def hostSeven : ModbusThing where
  address := ascii "10.0.0.2"
  port := 502
  unitId := 7

/-- The host is scanned, and its thing told of; the observer stops the run. -/
def untilStop : List Event :=
  [.start, .loopRuns, .startInLoop, .run [], .run [], .upstreamCandidate hostSeven, .run [],
    .scan 0 .startInLoop, .scan 0 (.reply 0 [0x5375, 0x6e53, 1, 65]),
    .scan 0 (.reply 1 (List.replicate 65 0)), .scan 0 (.reply 2 [0xffff, 0]), .run [], .stop]

/-- What is under way goes on `n` times. -/
def goesOn (n : ℕ) : List Event := List.replicate n (.run [])

/-- A run that is stopped from inside the callback of its only candidate, and whose
upstream completes while it is stopped. -/
def stoppedInside : List Event := untilStop ++ goesOn 8 ++ [.upstreamCompleted] ++ goesOn 13

/-- What the run leaves. -/
def stopped : Process := stoppedInside.foldl (step .narrow) {}

theorem stopped_reachable : (machine .narrow).Reachable stopped :=
  (Machine.Reachable.init rfl).run (Machine.run_of_runs (by decide +kernel))

theorem stopped_rests : stopped.actions = [] ∧ stopped.state.loopEntered = true ∧
    stopped.state.failing = false ∧ stopped.state.modbusCompleted = true ∧
    stopped.state.endpoints.map (·.completed) = [true] ∧ .onCompleted ∈ stopped.state.log ∧
    stopped.state.created = [{ owner := 0, closed := true }] := by
  decide +kernel

theorem discovery_protocol_stopped :
    candidates 0 stopped.state.log ≤ 1 ∧ ∃ e ∈ stopped.state.log, e.isEnd = true := by
  obtain ⟨-, -, honce, -, hends⟩ := discovery_protocol stopped_reachable
  obtain ⟨hactions, hentered, hf, hmodbus, hall, -, -⟩ := stopped_rests
  refine ⟨honce 0, hends (.inl hactions) hentered hf hmodbus fun e he => ?_⟩
  have hmem := List.mem_map_of_mem (f := (·.completed)) he
  rw [hall] at hmem
  exact List.mem_singleton.1 hmem

/-! ### Sessions -/

/-- `closeSessions` is under way, and has yet to close the session `j` of the
endpoint `i`. -/
inductive Closing (i j : ℕ) : List Action → Prop
  | next {sessions : List ℕ} {rest : List Action} :
      j ∈ sessions → Closing i j (.closeSessions i sessions :: rest)
  | behind {k read : ℕ} {rest : List Action} :
      Closing i j rest → Closing i j (.readFails k read :: rest)

theorem Process.AtRest.not_closing (h : p.AtRest) (i j : ℕ) : ¬ Closing i j p.actions := by
  intro hc
  rcases h with hactions | ⟨code, rest, hactions⟩ <;>
  · rw [hactions] at hc
    cases hc

/-- A session of a completed endpoint is closed, or about to be. -/
theorem closed_or_closing {d : State} {actions : List Action}
    (h : (State.contract o).Ensures d actions (State.Rest o)) {i : ℕ} {e : EndpointScan}
    (he : d.endpoints[i]? = some e) (hcompleted : e.completed = true) {j : ℕ} {s : CreatedSession}
    (hs : d.created[j]? = some s) (howner : s.owner = i) :
    s.closed = true ∨ Closing i j actions := by
  have hmem := List.mem_of_getElem? hs
  induction actions with
  | nil => exact .inl (State.Rest.isSealed h i e he hcompleted s hmem howner)
  | cons action rest ih =>
    obtain ⟨hpre, hpost⟩ := h
    cases action with
    | readFails k read => exact (ih (hpost d (.refl hpre.1))).imp id .behind
    | closeSessions k sessions =>
      obtain ⟨-, -, hbut⟩ := hpre
      rcases hbut i e he hcompleted j s hs howner with hclosed | ⟨rfl, hj⟩
      · exact .inl hclosed
      · exact .inr (.next hj)
    | outside code => exact .inl (State.Rest.isSealed hpre i e he hcompleted s hmem howner)
    | candidate k thing => exact .inl (State.Rest.isSealed hpre i e he hcompleted s hmem howner)
    | startUpstream => exact .inl (State.Rest.isSealed hpre i e he hcompleted s hmem howner)
    | stopUpstream => exact .inl (State.Rest.isSealed hpre i e he hcompleted s hmem howner)
    | scannerClosed => exact .inl (hpre.2 i e he hcompleted s hmem howner)
    | closeEndpoints k => exact .inl (hpre.2.2 i e he hcompleted s hmem howner)
    | finishComplete => exact .inl (hpre.2.2.2.1 s hmem)
    | finishFail error => exact .inl (hpre.2.2.2.1 s hmem)
    | cancel k => exact .inl (hpre.1.isSealed i e he hcompleted s hmem howner)
    | scannerFailed k error => exact .inl (hpre.1.isSealed i e he hcompleted s hmem howner)
    | scannerCompleted k => exact .inl (hpre.1.isSealed i e he hcompleted s hmem howner)
    | cancelEndpoints k => exact .inl (hpre.1.isSealed i e he hcompleted s hmem howner)
    | releaseResources => exact .inl (hpre.1.isSealed i e he hcompleted s hmem howner)

/-- Once the end is told, every session ever created is closed. A session of a
completed endpoint is closed unless `closeSessions` is just closing it, so it is
whenever code outside has control; and none is created for that endpoint any more. -/
theorem sessions_end_with_discovery (hp : (machine o).Reachable p) :
    (∀ e ∈ p.state.log, e.isEnd = true → ∀ s ∈ p.state.created, s.closed = true) ∧
    ∀ (i : ℕ) e, p.state.endpoints[i]? = some e → e.completed = true →
      (∀ (j : ℕ) s, p.state.created[j]? = some s → s.owner = i →
        s.closed = true ∨ Closing i j p.actions) ∧
      (p.AtRest → ∀ s ∈ p.state.created, s.owner = i → s.closed = true) ∧
      ∀ es q, (machine o).Run p es q → ∀ (j : ℕ) s, q.state.created[j]? = some s →
        s.owner = i → j < p.state.created.length := by
  have hsettles := (machine_settles o).reachable hp
  have hsound := hsettles.sound
  refine ⟨fun e he hend => hsound.closed (hsound.logged.ended e he hend),
    fun i e he hcompleted => ?_⟩
  have hclosed : ∀ (j : ℕ) s, p.state.created[j]? = some s → s.owner = i →
      s.closed = true ∨ Closing i j p.actions :=
    fun j s hs howner => closed_or_closing hsettles he hcompleted hs howner
  refine ⟨hclosed, fun hrest s hs howner => ?_, fun es q hr j s hs howner => ?_⟩
  · obtain ⟨j, hj⟩ := List.mem_iff_getElem?.1 hs
    exact (hclosed j s hj howner).resolve_right (hrest.not_closing i j)
  · exact (run_later hp hr).unowned i e he hcompleted j s hs howner

theorem sessions_end_with_discovery_stopped :
    stopped.state.created.length = 1 ∧ ∀ s ∈ stopped.state.created, s.closed = true := by
  obtain ⟨-, -, -, -, -, hend, hcreated⟩ := stopped_rests
  refine ⟨by rw [hcreated]; rfl, ?_⟩
  exact (sessions_end_with_discovery stopped_reachable).1 .onCompleted hend rfl

end Neubau.Sunspec.Discovery
