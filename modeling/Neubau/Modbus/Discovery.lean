import Neubau.Modbus.Identifier
import Neubau.Transition.Machine

/-! One scan of `ModbusDiscovery`. The session turns every open port into one
job a unit id and keeps at most `maxConcurrency` identifications going. What
the loop runs is a queue of tasks; `stop()` of the discovery only queues the
session's `stop`. The upstream port scan is what ReactivePlusPlus lets through:
nothing before the subscription and nothing after its terminal event. It may
report synchronously while `portScanner->start()` or `portScanner->stop()` runs. -/

namespace Neubau.Modbus.Discovery

open Neubau.Common

/-- `ModbusDiscoveryOptions` as `validateOptions` accepts them. -/
structure Options where
  unitIds : List UInt8
  maxConcurrency : ℕ
  unitIds_ne : unitIds ≠ []
  maxConcurrency_pos : 0 < maxConcurrency

structure Job where
  address : Bytes
  port : UInt16
  unitId : UInt8
  deriving DecidableEq, Repr

/-- What the upstream port scan reports. -/
inductive Upstream
  | next (candidate : OpenPort)
  | failed (error : Exception)
  | completed
  deriving DecidableEq, Repr

/-- The callbacks queued on the loop; identifications are numbered in the order
in which they start. -/
inductive Task
  /-- The callback `Session::start` queues. -/
  | begin
  | stop
  /-- `TcpExchange::startInLoop` of the identification's exchange. -/
  | startInLoop (identifier : ℕ)
  /-- What `TcpExchange::cancel` queues. -/
  | cancelled (identifier : ℕ)
  deriving DecidableEq, Repr

/-- Whether the session has subscribed to the upstream, and whether that has ended. -/
inductive Link
  | idle
  | active
  | ended
  deriving DecidableEq, Repr

inductive Effect
  | started (job : Job)
  /-- An identifier called its result. -/
  | identified (identifier : ℕ) (thing : Option ModbusThing)
  /-- The session's `stop` was executed. -/
  | stopped
  | onNext (thing : ModbusThing)
  | onCompleted
  | onError (error : Exception)
  deriving DecidableEq

/-- `Session`, with what it uses of the discovery's `State`. `identifiers` are
all those made so far, `active` those the session waits for; `begun` says that
`Session::start` has returned, and `arrived` are the ports reported. -/
structure Session where
  running : Bool := true
  stopAction : Bool := true
  subscription : Bool := false
  active : List ℕ := []
  pending : List Job := []
  keepAlive : Bool := true
  upstreamCompleted : Bool := false
  stopped : Bool := false
  completed : Bool := false
  identifiers : List Identifier := []
  tasks : List Task := []
  begun : Bool := false
  upstream : Link := .idle
  arrived : List OpenPort := []
  log : List Effect := []
  deriving DecidableEq

variable (o : Options)

namespace Session

def emit (s : Session) (e : Effect) : Session := { s with log := s.log ++ [e] }

def queueInLoop (s : Session) (t : Task) : Session := { s with tasks := s.tasks ++ [t] }

def finish (s : Session) : Session :=
  if s.completed then s
  else
    let s := { s with
      completed := true
      subscription := false
      stopAction := false
      running := false }
    let s := s.emit .onCompleted
    { s with keepAlive := false }

def maybeComplete (s : Session) : Session :=
  if s.completed ∨ s.upstreamCompleted = false ∨ s.pending ≠ [] ∨ s.active ≠ [] then s
  else s.finish

/-- The body of the loop of `fill`: a job becomes an active identification. -/
def startJob (s : Session) (job : Job) : Session :=
  let n := s.identifiers.length
  let identifier := Identifier.create job.address job.port job.unitId
  let s := { s with
    identifiers := s.identifiers ++ [identifier.start.1]
    active := s.active ++ [n] }
  (s.emit (.started job)).queueInLoop (.startInLoop n)

/-- The loop of `fill` over the pending jobs. -/
def startJobs : List Job → Session → Session
  | [], s => { s with pending := [] }
  | job :: rest, s =>
    if s.stopped = false ∧ s.active.length < o.maxConcurrency then startJobs rest (s.startJob job)
    else { s with pending := job :: rest }

def fill (s : Session) : Session :=
  if s.completed then s else (startJobs o s.pending s).maybeComplete

def jobs (candidate : OpenPort) : List Job :=
  o.unitIds.map fun unitId => { address := candidate.address, port := candidate.port, unitId }

def enqueue (s : Session) (candidate : OpenPort) : Session :=
  if s.stopped then s
  else
    let s := { s with pending := s.pending ++ jobs o candidate }
    s.fill o

def oneFinished (s : Session) (identifier : ℕ) (thing : Option ModbusThing) : Session :=
  let s := { s with active := s.active.erase identifier }
  let s := match thing with
    | some thing => if s.stopped then s else s.emit (.onNext thing)
    | none => s
  s.fill o

def onUpstreamCompleted (s : Session) : Session :=
  { s with upstreamCompleted := true }.maybeComplete

/-- `cancel()` of the identifiers in `operations`. -/
def cancelAll (s : Session) (operations : List ℕ) : Session :=
  operations.foldl (fun s n =>
    let s := { s with identifiers := s.identifiers.modify n Identifier.cancel }
    s.queueInLoop (.cancelled n)) s

def fail (s : Session) (error : Exception) : Session :=
  if s.completed then s
  else
    let operations := s.active
    let s := { s with completed := true, stopped := true, pending := [], active := [] }
    let s := s.cancelAll operations
    let s := { s with subscription := false, stopAction := false, running := false }
    let s := s.emit (.onError error)
    { s with keepAlive := false }

/-- A report of the upstream, if it is subscribed and has not ended. -/
def report (s : Session) (e : Upstream) : Session :=
  if s.upstream ≠ .active then s
  else
    match e with
    | .next candidate => { s with arrived := s.arrived ++ [candidate] }.enqueue o candidate
    | .failed error => { s with upstream := .ended }.fail error
    | .completed => { s with upstream := .ended }.onUpstreamCompleted

/-- The first callback; `reports` are those made while the port scanner starts. -/
def begin (s : Session) (reports : List Upstream) : Session :=
  if s.stopped then { s with upstreamCompleted := true }.finish
  else reports.foldl (report o) { s with subscription := true, upstream := .active }

/-- `stop`; `reports` are those made while the port scanner stops. -/
def stop (s : Session) (reports : List Upstream) : Session :=
  if s.stopped then s
  else
    let s := { s with stopped := true }.emit .stopped
    let operations := s.active
    let s := { s with pending := [], active := [] }
    let s := s.cancelAll operations
    let s := reports.foldl (report o) s
    if operations = [] then s.maybeComplete else s

/-- The exchange of an identification ends, with a response or without. -/
def exchangeFinished (s : Session) (n : ℕ) (response : Option Bytes) : Session :=
  match s.identifiers[n]? with
  | none => s
  | some identifier =>
    let (identifier, next) := identifier.exchangeFinished response
    let s := { s with identifiers := s.identifiers.set n identifier }
    match next with
    | .exchange => s.queueInLoop (.startInLoop n)
    | .result thing => (s.emit (.identified n thing)).oneFinished o n thing
    | .nothing => s

/-- `startInLoop`; `created` is the result of `createsocket`. -/
def startInLoop (s : Session) (n : ℕ) (created : Bool) : Session :=
  match s.identifiers[n]? with
  | none => s
  | some identifier =>
    match identifier.exchange with
    | none => s
    | some exchange =>
      if created then
        let identifier := { identifier with exchange := some { exchange with started := true } }
        { s with identifiers := s.identifiers.set n identifier }
      else s.exchangeFinished o n none

end Session

/-- What happens to a session. -/
inductive Event
  /-- `Session::start` queues its callback and returns. -/
  | start
  /-- `ModbusDiscovery::stop` is called, on any thread. -/
  | requestStop
  /-- The loop runs the oldest task; `reports` and `created` answer what it calls. -/
  | run (reports : List Upstream) (created : Bool)
  | upstream (e : Upstream)
  /-- A started exchange ends: a response, or a timeout or a loss of the connection. -/
  | exchangeFinished (identifier : ℕ) (response : Option Bytes)
  deriving DecidableEq

def step (s : Session) : Event → Session
  | .start => if s.begun then s else { s with begun := true }.queueInLoop .begin
  | .requestStop => if s.stopAction then s.queueInLoop .stop else s
  | .run reports created =>
    match s.tasks with
    | [] => s
    | task :: rest =>
      let s := { s with tasks := rest }
      match task with
      | .begin => s.begin o reports
      | .stop => s.stop o reports
      | .startInLoop n => s.startInLoop o n created
      | .cancelled n => s.exchangeFinished o n none
  | .upstream e => s.report o e
  | .exchangeFinished n response =>
    match (s.identifiers[n]?).bind (·.exchange) with
    | some exchange => if exchange.started then s.exchangeFinished o n response else s
    | none => s

/-- A scan session under any order of events. -/
def machine : Transition.Machine Session Event where
  init s := s = {}
  enabled _ _ := True
  next := step o

end Neubau.Modbus.Discovery
