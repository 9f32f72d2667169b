import Neubau.Modbus.Single
import Neubau.Sunspec.Sweeping

/-! A scan together with the sessions it reads from. A read of the scan queues
a request on the loop; the loop hands it to its session; and what the session
tells the observers of its requests runs the callbacks of the scan. A session
factory makes a new session, throws, or returns null. -/

namespace Neubau.Sunspec

open Neubau.Common Neubau.Transition
open Neubau.Modbus (Session.World)

/-- A session of the scan; `reads` are the numbers of the scan's reads, by observer. -/
structure Channel where
  state : Modbus.Session.State := {}
  reads : List ℕ := []
  deriving DecidableEq

/-- `tasks` are the numbers of the reads whose `enqueueInLoop` is queued on the loop. -/
structure System where
  scan : ScanState := {}
  channels : List Channel := []
  tasks : List ℕ := []
  deriving DecidableEq

/-- Whether the calls of `send` and `createsocket` of each session succeed. -/
structure Network where
  send : ℕ → ℕ → Bool
  createsocket : ℕ → ℕ → Bool

/-- The world of a session: the scan never closes it. -/
def Network.world (N : Network) (session : ℕ) : Session.World where
  send := N.send session
  createsocket := N.createsocket session
  closes _ _ := false

/-- What a session factory does. -/
inductive Factory
  | makes
  | throws (error : Exception)
  | null
  deriving DecidableEq, Repr

/-- A new session gets the next number. -/
def Factory.made (number : ℕ) : Factory → Made
  | makes => .session number
  | throws error => .throws error
  | null => .null

/-- What the factories and the observer do during one callback. -/
structure Outside where
  subscription : Factory
  replacement : Factory
  cancels : Bool
  deriving DecidableEq, Repr

namespace System

def answers (sys : System) (o : Outside) (isClosed : Bool) : Answers where
  isClosed := isClosed
  subscription := o.subscription.made sys.channels.length
  replacement := o.replacement.made sys.channels.length
  cancels := o.cancels

/-- A callback of the scan; its reads queue their requests. -/
def call (sys : System) (f : ScanState → ScanState) : System :=
  let scan := f sys.scan
  { scan
    channels :=
      if scan.session = some sys.channels.length then sys.channels ++ [{}] else sys.channels
    tasks := sys.tasks ++
      List.range' sys.scan.reads.length (scan.reads.length - sys.scan.reads.length) }

/-- The callback a read of the session `k` gets for an effect of the session. -/
def hear (c : Config) (o : Outside) (k : ℕ) (sys : System) (e : Modbus.Session.Effect) : System :=
  match sys.channels[k]? with
  | none => sys
  | some channel =>
    match e with
    | .failed request _ closed =>
      match channel.reads[request.observer]? with
      | some n => sys.call fun s => s.onReadFailure c (sys.answers o closed) n
      | none => sys
    | .delivered request registers =>
      match channel.reads[request.observer]? with
      | some n =>
        sys.call fun s => s.onReply c (sys.answers o channel.state.core.closed) n registers
      | none => sys
    | _ => sys

/-- An event of the session `k`, and what its observers are told. -/
def advance (c : Config) (N : Network) (o : Outside) (k : ℕ) (e : Modbus.Session.Event)
    (sys : System) : System :=
  match sys.channels[k]? with
  | none => sys
  | some channel =>
    let state := Modbus.Session.step (N.world k) channel.state e
    let new := state.core.log.drop channel.state.core.log.length
    new.foldl (hear c o k) { sys with channels := sys.channels.set k { channel with state } }

/-- The loop runs the oldest request queued. -/
def enqueue (c : Config) (N : Network) (o : Outside) (sys : System) : System :=
  match sys.tasks with
  | [] => sys
  | n :: tasks =>
    match sys.scan.reads[n]? with
    | none => { sys with tasks }
    | some call =>
      match sys.channels[call.session]? with
      | none => { sys with tasks }
      | some channel =>
        { sys with
          tasks
          channels := sys.channels.set call.session
            { channel with reads := channel.reads ++ [n] } }.advance c N o call.session
              (.enqueue call.unitId call.address call.count)

/-- What happens to a scan and its sessions. -/
inductive Event
  /-- The callback that `start` queued; a new session is not closed. -/
  | start (o : Outside)
  | enqueue (o : Outside)
  | session (k : ℕ) (e : Modbus.Session.Event) (o : Outside)
  | cancel

def step (c : Config) (N : Network) (sys : System) : Event → System
  | .start o => sys.call fun s => Sunspec.step c s (.startInLoop (sys.answers o false))
  | .enqueue o => sys.enqueue c N o
  | .session k e o => sys.advance c N o k e
  | .cancel => sys.call ScanState.cancel

/-- What libhv promises of the sessions; requests come from the scan alone. -/
def Enabled (sys : System) : Event → Prop
  | .session k e _ => ∃ channel ∈ sys.channels[k]?,
      Modbus.Session.libhv channel.state e ∧ e.isEnqueue = false
  | _ => True

instance (sys : System) (e : Event) : Decidable (sys.Enabled e) :=
  match e with
  | .session k e _ => inferInstanceAs (Decidable (∃ channel ∈ sys.channels[k]?,
      Modbus.Session.libhv channel.state e ∧ e.isEnqueue = false))
  | .start _ => isTrue trivial
  | .enqueue _ => isTrue trivial
  | .cancel => isTrue trivial

def machine (c : Config) (N : Network) : Machine System Event where
  init sys := sys = {}
  enabled := Enabled
  next := step c N

end System

end Neubau.Sunspec
