import Neubau.Common.Basic
import Neubau.Transition.Machine

/-! The port scan. A session keeps a flat index of the jobs, one for each address
and port, and starts a connector for the next job while fewer than the allowed
number are active; a connector that has finished fills its place again. Whatever
is queued in the loop runs in order; the outcomes of the connections arrive from
outside, at any time. -/

namespace Neubau.Common

open Transition

structure PortScannerOptions where
  addresses : List Bytes
  ports : List UInt16
  maxConcurrency : ℕ

/-- A connection attempt; `outcome` is what it finished with. -/
structure Connector where
  address : Bytes
  port : UInt16
  outcome : Option Bool := none
  deriving DecidableEq, Repr

/-- What the session hands to the observer of the scanner. -/
inductive Emission
  | onNext (connector : ℕ) (port : OpenPort)
  | onCompleted
  deriving DecidableEq, Repr

/-- The callbacks queued in the loop; connectors are numbered as they are made. -/
inductive PortScannerTask
  | fill
  | stop
  | startInLoop (n : ℕ)
  | cancel (n : ℕ)
  deriving DecidableEq, Repr

/-- `PortScannerSession::State`, the connectors and the queue of the loop. `begun`
means that `start` has queued the first callback, `dials` lists the connectors
that tried to connect and `clients` those whose client was started; `fault` stands
for an index outside its list, or a division by zero. -/
structure PortScannerSession where
  tasks : List PortScannerTask := []
  begun : Bool := false
  connectors : List Connector := []
  active : List ℕ := []
  nextJob : ℕ := 0
  stopped : Bool := false
  completed : Bool := false
  stopAction : Bool := true
  dials : List ℕ := []
  clients : List ℕ := []
  log : List Emission := []
  fault : Bool := false
  deriving DecidableEq, Repr

namespace PortScannerSession

variable (o : PortScannerOptions)

def jobCount : ℕ := o.addresses.length * o.ports.length

def queueInLoop (t : PortScannerTask) (s : PortScannerSession) : PortScannerSession :=
  { s with tasks := s.tasks ++ [t] }

/-- `PortScannerSession::finish`. -/
def finish (s : PortScannerSession) : PortScannerSession :=
  if s.completed then s
  else { s with completed := true, stopAction := false, log := s.log ++ [.onCompleted] }

/-- One pass of the loop of `fill`. -/
def startJob (s : PortScannerSession) : PortScannerSession :=
  let job := s.nextJob
  let s := { s with nextJob := job + 1 }
  match o.addresses[job / o.ports.length]?, o.ports[job % o.ports.length]? with
  | some address, some port =>
    let connector : Connector := { address, port }
    let n := s.connectors.length
    { s with
      connectors := s.connectors ++ [connector]
      active := s.active ++ [n] }.queueInLoop (.startInLoop n)
  -- the remainder by an empty list of ports indexes nothing
  | _, _ => { s with fault := true }

/-- The loop of `fill`; every pass takes a job, so the jobs left bound it. -/
def startJobs : ℕ → PortScannerSession → PortScannerSession
  | 0, s => s
  | bound + 1, s =>
    if s.active.length < o.maxConcurrency ∧ s.nextJob < jobCount o then
      startJobs bound (s.startJob o)
    else s

def fill (s : PortScannerSession) : PortScannerSession :=
  if s.stopped then s.finish
  else
    let s := startJobs o (jobCount o - s.nextJob) s
    if s.active = [] ∧ jobCount o ≤ s.nextJob then s.finish else s

/-- The result of a connector, as `fill` has bound it. -/
def result (n : ℕ) (c : Connector) (isOpen : Bool) (s : PortScannerSession) : PortScannerSession :=
  let s := { s with active := s.active.erase n }
  let s := if !s.stopped && isOpen then
      { s with log := s.log ++ [.onNext n { address := c.address, port := c.port }] }
    else s
  s.fill o

/-- `Connector::finish`. -/
def finishConnector (n : ℕ) (isOpen : Bool) (s : PortScannerSession) : PortScannerSession :=
  match s.connectors[n]? with
  | none => s
  | some c =>
    if c.outcome.isSome then s
    else
      let s := { s with connectors := s.connectors.set n { c with outcome := some isOpen } }
      s.result o n c isOpen

/-- `Connector::startInLoop`; `created` is whether the socket could be created. -/
def startInLoop (n : ℕ) (created : Bool) (s : PortScannerSession) : PortScannerSession :=
  match s.connectors[n]? with
  | none => s
  | some c =>
    if c.outcome.isSome then s
    else
      let s := { s with dials := s.dials ++ [n] }
      if created then { s with clients := s.clients ++ [n] }
      else s.finishConnector o n false

/-- `PortScannerSession::stop`. -/
def stop (s : PortScannerSession) : PortScannerSession :=
  if s.stopped then s
  else
    let operations := s.active
    let s := { s with stopped := true, active := [] }
    let s := operations.foldl (fun s n => s.queueInLoop (.cancel n)) s
    if operations = [] then s.finish else s

def runTask (created : Bool) (s : PortScannerSession) : PortScannerTask → PortScannerSession
  | .fill => s.fill o
  | .stop => s.stop
  | .startInLoop n => s.startInLoop o n created
  | .cancel n => s.finishConnector o n false

/-- `start` queues the first callback; the scanner asks the session to stop, as
long as it has the action to; the loop runs the next callback; the outcome of a
connection arrives. -/
inductive Event
  | start
  | requestStop
  | run (created : Bool)
  | report (n : ℕ) (isOpen : Bool)
  deriving DecidableEq, Repr

def Enabled (s : PortScannerSession) : Event → Prop
  | .start => s.begun = false
  | .requestStop => s.stopAction = true
  | .run _ => s.tasks ≠ []
  | .report n _ => n ∈ s.clients

instance (s : PortScannerSession) : (e : Event) → Decidable (Enabled s e)
  | .start => inferInstanceAs (Decidable (_ = _))
  | .requestStop => inferInstanceAs (Decidable (_ = _))
  | .run _ => inferInstanceAs (Decidable (_ ≠ _))
  | .report n _ => inferInstanceAs (Decidable (n ∈ s.clients))

def step (s : PortScannerSession) : Event → PortScannerSession
  | .start => { s with begun := true }.queueInLoop .fill
  | .requestStop => s.queueInLoop .stop
  | .run created =>
    match s.tasks with
    | [] => s
    | t :: tasks => { s with tasks }.runTask o created t
  | .report n isOpen => s.finishConnector o n isOpen

def machine : Machine PortScannerSession Event where
  init s := s = {}
  enabled := Enabled
  next := step o

instance (s : PortScannerSession) (e : Event) : Decidable ((machine o).enabled s e) :=
  inferInstanceAs (Decidable (Enabled s e))

end PortScannerSession

end Neubau.Common
