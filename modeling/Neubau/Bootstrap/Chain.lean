import Neubau.Bootstrap.Rediscovery
import Neubau.Common.PortScannerSession
import Neubau.Modbus.Discovery
import Neubau.Sunspec.Discovery

/-! The chain of one network scan, as `startSunspec` builds it: a port scanner, the
Modbus discovery over it and the SunSpec discovery over that. A stage is told what
the stage below logs, call by call, before the loop runs anything else; so every
stage keeps up with the log of the one below by a count. `stopSunspecChain` disposes
the subscriptions of the service, stops the SunSpec discovery and leaves the chain to
one more callback of the loop; with that callback the chain is destroyed. -/

namespace Neubau.Bootstrap

open Neubau.Common Neubau.Modbus Neubau.Sunspec

/-- The options of the three stages, as their constructors accept them. -/
structure StageOptions where
  scanner : PortScannerOptions
  modbus : Modbus.Discovery.Options
  sunspec : SunspecDiscoveryOptions
  maxConcurrency_pos : 0 < scanner.maxConcurrency

theorem unitIds_one_ne : ([1] : List UInt8) ≠ [] :=
  List.cons_ne_nil 1 []

/-- A chain. `reported`, `told` and `called` count what the stages above and below
have taken from the logs of the scanner, of the Modbus and of the SunSpec discovery.
`held` says that the service holds the chain; `ahead` are the callbacks of the Modbus
discovery ahead of the one that destroys it, once that is queued. `dangling` stands for
a call of the destroyed port scanner. -/
structure Chain where
  scanner : PortScannerSession := {}
  modbus : Modbus.Discovery.Session := {}
  sunspec : Sunspec.Discovery.Process := {}
  reported : ℕ := 0
  told : ℕ := 0
  called : ℕ := 0
  held : Bool := true
  ahead : Option ℕ := none
  destroyed : Bool := false
  dangling : Bool := false
  forwarded : List Candidate := []
  deriving DecidableEq

namespace Chain

variable (o : StageOptions)

/-- `startSunspec` on the running loop, up to the first call of the upstream. -/
def create : Chain where
  sunspec := Sunspec.Discovery.step o.sunspec { state := { looping := true } } .start

/-- `DiscoveryService::forward`, through a subscription that is not disposed. -/
def forward (c : Chain) (candidate : Candidate) : Chain :=
  { c with forwarded := if c.held then c.forwarded ++ [candidate] else c.forwarded }

/-! ### The calls of one stage to the next -/

/-- `PortScanner::start`; a second start throws, and no chain makes one. -/
def startScanner (s : PortScannerSession) : PortScannerSession :=
  if s.begun then s else PortScannerSession.step o.scanner s .start

/-- `PortScanner::stop`, which has an action from the start of the session to its end. -/
def stopScanner (s : PortScannerSession) : PortScannerSession :=
  if s.begun && s.stopAction then PortScannerSession.step o.scanner s .requestStop else s

/-- `ModbusDiscovery::stop`, which has an action from the start of the session to its end. -/
def stopModbus (s : Modbus.Discovery.Session) : Modbus.Discovery.Session :=
  if s.begun then Modbus.Discovery.step o.modbus s .requestStop else s

/-- What the Modbus discovery calls of its port scanner. -/
inductive ScannerCall
  | start
  | stop
  deriving DecidableEq, Repr

/-- The call that the next callback of the Modbus session makes. -/
def scannerCall (s : Modbus.Discovery.Session) : Option ScannerCall :=
  if s.stopped then none
  else
    match s.tasks.head? with
    | some .begin => some .start
    | some .stop => some .stop
    | _ => none

def callScanner (c : Chain) : Chain :=
  { c with
    scanner := match scannerCall c.modbus with
      | none => c.scanner
      | some .start => startScanner o c.scanner
      | some .stop => stopScanner o c.scanner
    dangling := c.dangling || (c.destroyed && (scannerCall c.modbus).isSome) }

/-- The observers of the open ports: the service, then the Modbus discovery. -/
def hearEmission (c : Chain) : Emission → Chain
  | .onNext _ port =>
    { c.forward (.openPort port) with
      modbus := Modbus.Discovery.step o.modbus c.modbus (.upstream (.next port)) }
  | .onCompleted =>
    { c with modbus := Modbus.Discovery.step o.modbus c.modbus (.upstream .completed) }

/-- The run of a SunSpec discovery that is not destroyed hears of its upstream. -/
def hearUpstream (c : Chain) (e : Sunspec.Discovery.Event) : Chain :=
  { c with
    sunspec :=
      if c.destroyed || !c.sunspec.state.subscribed then c.sunspec
      else Sunspec.Discovery.step o.sunspec c.sunspec e }

/-- The observers of the Modbus things: the service, then the SunSpec discovery. -/
def hearEffect (c : Chain) : Modbus.Discovery.Effect → Chain
  | .onNext thing => (c.forward (.modbusThing thing)).hearUpstream o (.upstreamCandidate thing)
  | .onCompleted => c.hearUpstream o .upstreamCompleted
  | .onError error => c.hearUpstream o (.upstreamFailed error)
  | _ => c

/-- What the SunSpec discovery does to its upstream and to its observer. -/
def obey (c : Chain) : Sunspec.Discovery.Effect → Chain
  | .upstreamStart => { c with modbus := Modbus.Discovery.step o.modbus c.modbus .start }
  | .upstreamStop => { c with modbus := stopModbus o c.modbus }
  | .onNext _ thing => c.forward (.sunspecThing thing)
  | _ => c

/-! ### What happens to a chain -/

inductive Event
  /-- A function of the SunSpec discovery goes on, the loop calls one of its scans, or
  one of its sessions is closed. -/
  | sunspec (e : Sunspec.Discovery.Event)
  /-- The loop runs the oldest callback of the Modbus session. -/
  | runModbus (created : Bool)
  | exchangeFinished (identifier : ℕ) (response : Option Bytes)
  /-- The loop runs the oldest callback of the port scanner. -/
  | runScanner (created : Bool)
  | connection (connector : ℕ) (isOpen : Bool)
  /-- The next entry of a log reaches those it concerns. -/
  | hearScanner
  | hearModbus
  | hearSunspec
  /-- `stopSunspecChain` disposes the subscriptions and calls `stop()`. -/
  | stopSunspecChain
  /-- `stop()` has returned, and the chain is handed to the loop. -/
  | queueInLoop
  /-- The loop lets go of the chain. -/
  | destroy
  deriving DecidableEq

/-- What a SunSpec discovery meets apart from its upstream and its service. -/
def OwnEvent : Sunspec.Discovery.Event → Prop
  | .run _ | .scan _ _ | .sessionClosed _ => True
  | _ => False

/-- No function of the chain is under way, and every stage has heard all. -/
structure Idle (c : Chain) : Prop where
  actions : c.sunspec.actions = []
  called : c.called = c.sunspec.state.log.length
  told : c.told = c.modbus.log.length
  reported : c.reported = c.scanner.log.length

/-- The calls of a function under way come first, then those of the function that
called it; the loop runs a callback when none is left. -/
def Enabled (c : Chain) : Event → Prop
  | .sunspec e => c.destroyed = false ∧ OwnEvent e ∧ c.sunspec.Enabled e ∧
      ((∃ reads, e = .run reads) ∧ c.called = c.sunspec.state.log.length ∨ c.Idle)
  | .runModbus _ => c.Idle ∧ c.modbus.tasks ≠ []
  | .exchangeFinished _ _ => c.Idle
  | .runScanner created => c.Idle ∧ c.scanner.Enabled (.run created)
  | .connection n isOpen => c.Idle ∧ c.scanner.Enabled (.report n isOpen)
  | .hearScanner => c.sunspec.actions = [] ∧ c.called = c.sunspec.state.log.length ∧
      c.told = c.modbus.log.length ∧ c.reported < c.scanner.log.length
  | .hearModbus => c.sunspec.actions = [] ∧ c.called = c.sunspec.state.log.length ∧
      c.told < c.modbus.log.length
  | .hearSunspec => c.called < c.sunspec.state.log.length
  | .stopSunspecChain => c.Idle ∧ c.held = true
  | .queueInLoop => c.Idle ∧ c.held = false ∧ c.ahead = none ∧ c.destroyed = false
  | .destroy => c.Idle ∧ c.ahead = some 0

instance : (e : Sunspec.Discovery.Event) → Decidable (OwnEvent e)
  | .run _ | .scan _ _ | .sessionClosed _ => .isTrue trivial
  | .throws _ | .start | .stop | .loopRuns | .startInLoop | .upstreamCandidate _
  | .upstreamFailed _ | .upstreamCompleted => .isFalse id

instance : (e : Sunspec.Discovery.Event) → Decidable (∃ reads, e = .run reads)
  | .run reads => .isTrue ⟨reads, rfl⟩
  | .throws _ | .start | .stop | .loopRuns | .startInLoop | .upstreamCandidate _
  | .upstreamFailed _ | .upstreamCompleted | .scan _ _ | .sessionClosed _ => .isFalse nofun

instance (c : Chain) : Decidable c.Idle :=
  decidable_of_iff (c.sunspec.actions = [] ∧ c.called = c.sunspec.state.log.length ∧
    c.told = c.modbus.log.length ∧ c.reported = c.scanner.log.length)
    ⟨fun ⟨ha, hc, ht, hr⟩ => ⟨ha, hc, ht, hr⟩, fun ⟨ha, hc, ht, hr⟩ => ⟨ha, hc, ht, hr⟩⟩

instance (c : Chain) : (e : Event) → Decidable (c.Enabled e)
  | .sunspec _ => inferInstanceAs (Decidable (_ ∧ _ ∧ _ ∧ (_ ∧ _ ∨ _)))
  | .runModbus _ | .runScanner _ | .connection _ _ | .stopSunspecChain | .destroy =>
    inferInstanceAs (Decidable (_ ∧ _))
  | .exchangeFinished _ _ => inferInstanceAs (Decidable c.Idle)
  | .hearScanner => inferInstanceAs (Decidable (_ ∧ _ ∧ _ ∧ _))
  | .hearModbus => inferInstanceAs (Decidable (_ ∧ _ ∧ _))
  | .hearSunspec => inferInstanceAs (Decidable (_ < _))
  | .queueInLoop => inferInstanceAs (Decidable (_ ∧ _ ∧ _ ∧ _))

def next (c : Chain) : Event → Chain
  | .sunspec e => { c with sunspec := Sunspec.Discovery.step o.sunspec c.sunspec e }
  | .runModbus created =>
    let c := c.callScanner o
    { c with
      modbus := Modbus.Discovery.step o.modbus c.modbus (.run [] created)
      ahead := c.ahead.map Nat.pred }
  | .exchangeFinished n response =>
    { c with modbus := Modbus.Discovery.step o.modbus c.modbus (.exchangeFinished n response) }
  | .runScanner created =>
    { c with scanner := PortScannerSession.step o.scanner c.scanner (.run created) }
  | .connection n isOpen =>
    { c with scanner := PortScannerSession.step o.scanner c.scanner (.report n isOpen) }
  | .hearScanner =>
    match c.scanner.log[c.reported]? with
    | none => c
    | some e => { c with reported := c.reported + 1 }.hearEmission o e
  | .hearModbus =>
    match c.modbus.log[c.told]? with
    | none => c
    | some e => { c with told := c.told + 1 }.hearEffect o e
  | .hearSunspec =>
    match c.sunspec.state.log[c.called]? with
    | none => c
    | some e => { c with called := c.called + 1 }.obey o e
  | .stopSunspecChain =>
    { c with held := false, sunspec := Sunspec.Discovery.step o.sunspec c.sunspec .stop }
  | .queueInLoop => { c with ahead := some c.modbus.tasks.length }
  -- the destructors stop the stages once more
  | .destroy =>
    { c with
      scanner := stopScanner o c.scanner
      modbus := stopModbus o c.modbus
      ahead := none
      destroyed := true }

/-- A chain under any order of events. -/
def machine : Transition.Machine Chain Event where
  init c := c = create o
  enabled := Enabled
  next := next o

instance (o : StageOptions) (c : Chain) (e : Event) : Decidable ((machine o).enabled c e) :=
  inferInstanceAs (Decidable (c.Enabled e))

end Chain

end Neubau.Bootstrap
