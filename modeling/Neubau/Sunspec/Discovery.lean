import Neubau.Modbus.ModbusThing
import Neubau.Sunspec.Scanner

/-! `SunspecDiscovery` and its run. The functions call out: to the observers of the
candidates and to the upstream discovery. While such a call is under way the code
outside may call back. So a function is cut where it calls or loops: it does its
first part, and the rest goes on a list of actions, behind what the call brings.
A scan is the `ScanState` of its scanner; a session is known by whether it is
closed, and closing one fails some of the reads the scan waits for on it. -/

namespace Neubau.Sunspec.Discovery

open Neubau.Common Neubau.Modbus
open Neubau.Modbus.Session (Registers)

/-- `EndpointScan`. `scan` is what its scanner and its control started, `initial`
the session the scanner was made with; `control` says whether it is still there. -/
structure EndpointScan where
  endpoint : ModbusEndpoint
  unitId : UInt8
  initial : ℕ
  sessions : List ℕ
  scan : ScanState := {}
  control : Bool := true
  emitted : Bool := false
  completed : Bool := false
  deriving DecidableEq

/-- A session the run created, and for which of its endpoints. -/
structure CreatedSession where
  owner : ℕ
  closed : Bool := false
  deriving DecidableEq, Repr

/-- What a discovery does to the outside, and three marks in its log. -/
inductive Effect
  /-- `stop()` was called on a run that was started, and took effect. -/
  | stopped
  /-- The run entered the loop. -/
  | entered
  /-- A failure began. -/
  | failing (error : Exception)
  | upstreamStart
  | upstreamStop
  | onNext (endpoint : ℕ) (thing : SunspecThing)
  | onCompleted
  | onError (error : Exception)
  deriving DecidableEq

/-- The code outside that has control. -/
inductive Outside
  /-- An observer of the candidates. -/
  | observer
  /-- `candidates().subscribe` of the upstream discovery. -/
  | subscribing
  /-- `start()` of the upstream discovery. -/
  | starting
  /-- `stop()` of the upstream discovery. -/
  | stopping
  deriving DecidableEq, Repr

/-- What is left to be done. -/
inductive Action
  | outside (code : Outside)
  /-- `control->cancel()`. -/
  | cancel (endpoint : ℕ)
  /-- A read of a scan fails because its session was closed. -/
  | readFails (endpoint read : ℕ)
  | candidate (endpoint : ℕ) (thing : SunspecThing)
  | scannerFailed (endpoint : ℕ) (error : Exception)
  | scannerCompleted (endpoint : ℕ)
  /-- The rest of `scannerCompleted`, behind `closeSessions`. -/
  | scannerClosed
  /-- `closeSessions`, from one of the sessions on. -/
  | closeSessions (endpoint : ℕ) (sessions : List ℕ)
  /-- The loop that cancels the scans, from one of the endpoints on. -/
  | cancelEndpoints (endpoint : ℕ)
  /-- The loop that closes the sessions, from one of the endpoints on. -/
  | closeEndpoints (endpoint : ℕ)
  | startUpstream
  | stopUpstream
  /-- The rest of `complete`, behind its loop. -/
  | finishComplete
  /-- The rest of `fail`, behind the `stop()` of the upstream. -/
  | finishFail (error : Exception)
  | releaseResources
  deriving DecidableEq

/-- `SunspecDiscovery::State` and `Run`; `runStopping` is the flag of the run. The
loop runs once `looping` is set, `queued` says that it has yet to enter the run, and
`subscribed` that the run listens to the upstream. `created` are all the sessions
ever made. -/
structure State where
  started : Bool := false
  stopping : Bool := false
  terminal : Bool := false
  loopEntered : Bool := false
  endpoints : List EndpointScan := []
  modbusCompleted : Bool := false
  runStopping : Bool := false
  failing : Bool := false
  looping : Bool := false
  queued : Bool := false
  subscribed : Bool := false
  created : List CreatedSession := []
  log : List Effect := []
  deriving DecidableEq

variable (o : SunspecDiscoveryOptions)

/-- The scan of an endpoint is of one unit. -/
def EndpointScan.config (e : EndpointScan) : Config where
  options := o
  fixedUnitId := some e.unitId
  endpoint _ := e.endpoint

/-- A callback of the loop to a scan. -/
inductive ScanCall
  | startInLoop
  | reply (read : ℕ) (registers : Registers)
  | failure (read : ℕ)
  | cancel
  deriving DecidableEq, Repr

/-- The callback with what the scan finds outside. -/
def ScanCall.event (a : Answers) : ScanCall → Sunspec.Event
  | startInLoop => .startInLoop a
  | reply read registers => .reply read registers a
  | failure read => .failure read a
  | cancel => .cancel

/-- What an effect of a scan tells its observer, as a call of the run. -/
def tells (i : ℕ) : Sunspec.Effect → Option Action
  | .onNext thing => some (.candidate i thing)
  | .onCompleted => some (.scannerCompleted i)
  | .onError error => some (.scannerFailed i error)
  | _ => none

/-- What a scan has told its observer. -/
def told (i : ℕ) (scan : ScanState) : List Action := scan.log.filterMap (tells i)

/-- How often a scan has asked for another session. -/
def replacements (scan : ScanState) : ℕ := scan.log.count .replacementFactory

namespace State

/-- A state, and what is to be done next. -/
abbrev Result := State × List Action

def tell (d : State) (e : Effect) : State := { d with log := d.log ++ [e] }

def update (d : State) (i : ℕ) (e : EndpointScan) : State :=
  { d with endpoints := d.endpoints.set i e }

/-- `_stopping || _failing || state->terminal`. -/
def refuses (d : State) : Bool := d.runStopping || d.failing || d.terminal

/-- `isClosed()` of a session. -/
def isClosed (d : State) (session : ℕ) : Bool := (d.created[session]?).any (·.closed)

/-- What a scan finds outside: its session, what `acquire` and `createSession` make
in this state, and an observer that does not cancel before `on_next` returns; a
cancellation from there is an action of its own, and finds the scan finished. -/
def answers (d : State) (e : EndpointScan) : Answers where
  isClosed := d.isClosed (e.scan.session.getD e.initial)
  subscription := .session e.initial
  replacement := if d.refuses then .null else .session d.created.length
  cancels := false

/-- `createSession` for the endpoint `i`, where it makes one; its number is the next.
Another session of an endpoint passes the check that its first one passed. -/
def createSession (d : State) (i : ℕ) : State :=
  { d with created := d.created ++ [{ owner := i }] }

/-- A callback of a scan, which asks for another session at most once. If it does,
`createSession` makes one; what the scan tells its observer comes next. -/
def callScan (d : State) (i : ℕ) (call : ScanCall) : Result :=
  match d.endpoints[i]? with
  | none => (d, [])
  | some e =>
    let scan := Sunspec.step (e.config o) e.scan (call.event (d.answers e))
    let new := (told i scan).drop (told i e.scan).length
    if replacements e.scan < replacements scan ∧ d.refuses = false then
      ((d.createSession i).update i
        { e with scan, sessions := e.sessions ++ [d.created.length] }, new)
    else (d.update i { e with scan }, new)

/-- The calls of `cancelAndCloseEndpoints`. -/
def cancelAndCloseEndpoints : List Action := [.cancelEndpoints 0, .closeEndpoints 0]

def complete (d : State) : Result :=
  if d.failing || d.terminal then (d, []) else (d, [.closeEndpoints 0, .finishComplete])

def maybeComplete (d : State) : Result :=
  if d.failing || d.terminal || !d.modbusCompleted then (d, [])
  else if d.endpoints.all (·.completed) then d.complete else (d, [])

def fail (d : State) (error : Exception) : Result :=
  if d.failing || d.terminal then (d, [])
  else
    ({ d with failing := true, runStopping := true }.tell (.failing error),
      cancelAndCloseEndpoints ++ [.stopUpstream, .finishFail error])

def stopInLoop (d : State) : Result :=
  if d.refuses then (d, [])
  else ({ d with runStopping := true }, cancelAndCloseEndpoints ++ [.stopUpstream])

def upstreamCompleted (d : State) : Result := { d with modbusCompleted := true }.maybeComplete

/-- The endpoint of a candidate of the upstream. -/
def target (candidate : ModbusThing) : ModbusEndpoint where
  address := candidate.address
  port := candidate.port

/-- `openEndpoint`, with the first session of the endpoint. A session without an address
or a port is not made, and what its constructor throws fails the run. -/
def openEndpoint (d : State) (candidate : ModbusThing) : Result :=
  if d.refuses then (d, [])
  else
    match (target candidate).check with
    | .error error => d.fail error
    | .ok () =>
      ({ d.createSession d.endpoints.length with
        endpoints := d.endpoints ++ [{
          endpoint := target candidate
          unitId := candidate.unitId
          initial := d.created.length
          sessions := [d.created.length] }] }, [])

def candidate (d : State) (i : ℕ) (thing : SunspecThing) : Result :=
  match d.endpoints[i]? with
  | none => (d, [])
  | some e =>
    if d.refuses || e.emitted then (d, [])
    else
      ((d.update i { e with emitted := true }).tell (.onNext i thing), [.outside .observer])

def scannerCompleted (d : State) (i : ℕ) : Result :=
  match d.endpoints[i]? with
  | none => (d, [])
  | some e =>
    if e.completed then (d, [])
    else
      (d.update i { e with completed := true }, [.closeSessions i e.sessions, .scannerClosed])

def scannerFailed (d : State) (i : ℕ) (error : Exception) : Result :=
  if d.refuses then d.scannerCompleted i else d.fail error

def startInLoop (d : State) : Result :=
  let d := { d with loopEntered := true }.tell .entered
  if d.terminal || d.stopping then d.complete
  else ({ d with subscribed := true }, [.outside .subscribing])

/-- `start()`, on the loop if the loop is running. -/
def start (d : State) : Result :=
  if d.started || d.terminal then (d, [])
  else
    let d := { d with started := true }
    if d.looping then d.startInLoop else ({ d with queued := true }, [])

/-- `stop()`, on the loop if the loop is running. -/
def stop (d : State) : Result :=
  if !d.started || d.terminal || d.stopping then (d, [])
  else if !d.looping then
    if !d.loopEntered then ({ d with stopping := true }.tell .stopped, []) else (d, [])
  else ({ d with stopping := true }.tell .stopped).stopInLoop

def close (d : State) (session : ℕ) : State :=
  { d with created := d.created.modify session fun s => { s with closed := true } }

/-- Those of `reads` that the scan of the endpoint `i` asked a session for. -/
def readsOn (d : State) (i session : ℕ) (reads : List ℕ) : List ℕ :=
  reads.filter fun read => (d.endpoints[i]?).any fun e =>
    (e.scan.reads[read]?).any (·.session == session)

def releaseResources (d : State) : State :=
  { d with endpoints := d.endpoints.map fun e => { e with control := false, sessions := [] } }

/-- The first action runs; `reads` are those that fail with a session it closes. -/
def run (d : State) (reads : List ℕ) : Action → Result
  | .outside .subscribing => (d, [.startUpstream])
  | .outside _ => (d, [])
  | .cancel i => d.callScan o i .cancel
  | .readFails i read => d.callScan o i (.failure read)
  | .candidate i thing => d.candidate i thing
  | .scannerFailed i error => d.scannerFailed i error
  | .scannerCompleted i => d.scannerCompleted i
  | .scannerClosed => if d.failing then (d, []) else d.maybeComplete
  | .closeSessions _ [] => (d, [])
  | .closeSessions i (session :: sessions) =>
    if d.isClosed session then (d, [.closeSessions i sessions])
    else
      (d.close session,
        (d.readsOn i session reads).map (.readFails i) ++ [.closeSessions i sessions])
  | .cancelEndpoints i =>
    match d.endpoints[i]? with
    | none => (d, [])
    | some e => (d, (if e.control then [.cancel i] else []) ++ [.cancelEndpoints (i + 1)])
  | .closeEndpoints i =>
    match d.endpoints[i]? with
    | none => (d, [])
    | some e => (d, [.closeSessions i e.sessions, .closeEndpoints (i + 1)])
  | .startUpstream => (d.tell .upstreamStart, [.outside .starting])
  | .stopUpstream => (d.tell .upstreamStop, [.outside .stopping])
  | .finishComplete =>
    ({ d with terminal := true }.tell .onCompleted, [.outside .observer, .releaseResources])
  | .finishFail error =>
    ({ d with terminal := true }.tell (.onError error), [.outside .observer, .releaseResources])
  | .releaseResources => (d.releaseResources, [])

end State

/-- A discovery with the actions that are left to be done. -/
structure Process where
  state : State := {}
  actions : List Action := []
  deriving DecidableEq

/-- No function of the discovery is under way, or one waits for code outside. -/
def Process.AtRest (p : Process) : Prop :=
  p.actions = [] ∨ ∃ code rest, p.actions = .outside code :: rest

/-- What happens to a discovery. -/
inductive Event
  /-- The function under way goes on, or the code outside returns to it. -/
  | run (reads : List ℕ)
  /-- The upstream throws out of `subscribe` or `start()`. -/
  | throws (error : Exception)
  | start
  | stop
  | loopRuns
  /-- The loop enters the run that `start()` queued. -/
  | startInLoop
  | upstreamCandidate (candidate : ModbusThing)
  | upstreamFailed (error : Exception)
  | upstreamCompleted
  /-- The loop calls a scan. -/
  | scan (endpoint : ℕ) (call : ScanCall)
  /-- A session is closed by its peer or by a timeout. -/
  | sessionClosed (session : ℕ)
  deriving DecidableEq

/-- A function called from outside is done before what was left. -/
def Process.enter (p : Process) (r : State.Result) : Process := ⟨r.1, r.2 ++ p.actions⟩

/-- The first action is replaced by what it leaves to be done. -/
def Process.resume (p : Process) (r : State.Result) : Process := ⟨r.1, r.2 ++ p.actions.tail⟩

def step (p : Process) : Event → Process
  | .run reads =>
    match p.actions with
    | [] => p
    | action :: _ => p.resume (p.state.run o reads action)
  | .throws error => p.resume (p.state.fail error)
  | .start => p.enter p.state.start
  | .stop => p.enter p.state.stop
  | .loopRuns => { p with state := { p.state with looping := true } }
  | .startInLoop => p.enter { p.state with queued := false }.startInLoop
  | .upstreamCandidate candidate => p.enter (p.state.openEndpoint candidate)
  | .upstreamFailed error => p.enter (p.state.fail error)
  | .upstreamCompleted => p.enter p.state.upstreamCompleted
  | .scan i call => p.enter (p.state.callScan o i call)
  | .sessionClosed session => p.enter (p.state.close session, [])

/-- Code outside acts only while it has control; the upstream reports only to a run
that listens, and the loop calls a scan only while it runs. -/
def Process.Enabled (p : Process) : Event → Prop
  | .run _ => p.actions ≠ []
  | .throws _ => ∃ rest, p.actions = .outside .subscribing :: rest ∨
      p.actions = .outside .starting :: rest
  | .start => p.AtRest
  | .stop => p.AtRest
  | .loopRuns => p.actions = [] ∧ p.state.looping = false
  | .startInLoop => p.actions = [] ∧ p.state.looping = true ∧ p.state.queued = true
  | .upstreamCandidate _ => p.AtRest ∧ p.state.subscribed = true
  | .upstreamFailed _ => p.AtRest ∧ p.state.subscribed = true
  | .upstreamCompleted => p.AtRest ∧ p.state.subscribed = true
  | .scan _ call => p.AtRest ∧ p.state.looping = true ∧ call ≠ .cancel
  | .sessionClosed _ => p.AtRest

def Action.isOutside : Action → Bool
  | .outside _ => true
  | _ => false

theorem Process.atRest_iff (p : Process) :
    p.AtRest ↔ p.actions.head?.all Action.isOutside = true := by
  obtain ⟨d, actions⟩ := p
  cases actions with
  | nil => simp [Process.AtRest]
  | cons action rest => cases action <;> simp [Process.AtRest, Action.isOutside]

theorem Process.throws_iff (p : Process) (error : Exception) :
    p.Enabled (.throws error) ↔ p.actions.head? = some (.outside .subscribing) ∨
      p.actions.head? = some (.outside .starting) := by
  obtain ⟨d, actions⟩ := p
  cases actions <;> simp [Process.Enabled, exists_or]

instance (p : Process) : Decidable p.AtRest := decidable_of_iff _ p.atRest_iff.symm

instance (p : Process) : (e : Event) → Decidable (p.Enabled e)
  | .throws error => decidable_of_iff _ (p.throws_iff error).symm
  | .run _ => inferInstanceAs (Decidable (p.actions ≠ []))
  | .start | .stop | .sessionClosed _ => inferInstanceAs (Decidable p.AtRest)
  | .loopRuns => inferInstanceAs (Decidable (_ ∧ _))
  | .startInLoop => inferInstanceAs (Decidable (_ ∧ _ ∧ _))
  | .upstreamCandidate _ | .upstreamFailed _ | .upstreamCompleted =>
    inferInstanceAs (Decidable (_ ∧ _))
  | .scan _ _ => inferInstanceAs (Decidable (_ ∧ _ ∧ _))

/-- A discovery under any order of what happens to it. -/
def machine : Transition.Machine Process Event where
  init p := p = {}
  enabled := Process.Enabled
  next := step o

end Neubau.Sunspec.Discovery
