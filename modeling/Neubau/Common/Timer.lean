import Neubau.Common.Basic
import Neubau.Transition.Machine

/-! The epoch-aligned timer. Two channels share a scheduler for each interval in
use; a scheduler is an object of its own, armed for one boundary at a time, and
emits and arms itself again only while the map holds it for its interval. Times
are integers, the points of the system clock in nanoseconds since the epoch. -/

namespace Neubau.Common

open Transition

/-- The interval of a scheduler, in seconds. -/
abbrev Interval := { seconds : ℤ // 0 < seconds }

def validateInterval (interval : ℤ) : Except Exception Interval :=
  if h : 0 < interval then .ok ⟨interval, h⟩
  else .error (.invalidArgument "epoch-aligned timer interval must be positive")

/-- The nanoseconds of a second and of a millisecond. -/
def perSecond : ℤ := 1000000000

def perMillisecond : ℤ := 1000000

/-- The remainder has the sign of the time, as in C++; the interval is valid. -/
def nextEpochAlignedTickAfter (time : ℤ) (interval : Interval) : ℤ :=
  let elapsed := time.fdiv perSecond
  let remainder := elapsed.tmod interval
  let delay := if remainder = 0 then interval.1 else interval - remainder
  (elapsed + delay) * perSecond

/-- The milliseconds given to `setTimeout`: truncated, at least one, and cast to an
`int`. -/
def timeoutDelay (scheduledAt now : ℤ) : ℤ :=
  (max 1 ((scheduledAt - now).tdiv perMillisecond)).bmod (2 ^ 32)

namespace Timer

inductive Channel
  | discovery
  | thing
  deriving DecidableEq, Repr

/-- What the subjects of the channels are given; a tick names the scheduler it is
from. -/
inductive Effect
  | onNext (channel : Channel) (scheduler : ℕ) (time : ℤ)
  | onError (channel : Channel) (e : Exception)
  | onCompleted (channel : Channel)
  deriving DecidableEq, Repr

/-- A timeout pending in the loop; it is due at the earliest at `due`. -/
structure Timeout where
  scheduler : ℕ
  interval : Interval
  scheduledAt : ℤ
  due : ℤ
  deriving DecidableEq

/-- Two readings of the system clock, as `schedule` takes them. -/
structure Readings where
  first : ℤ
  second : ℤ
  deriving DecidableEq, Repr

/-- The timeout for the next boundary, set at the second reading. -/
def Timeout.next (scheduler : ℕ) (interval : Interval) (now : Readings) : Timeout :=
  let scheduledAt := nextEpochAlignedTickAfter now.first interval
  let due := now.second + timeoutDelay scheduledAt now.second * perMillisecond
  { scheduler, interval, scheduledAt, due }

/-- The callbacks queued in the loop. -/
inductive Task
  | setInterval (channel : Channel) (interval : ℤ)
  | fail (e : Exception)
  | stop
  deriving DecidableEq, Repr

/-- `Timer::State`, with the loop and the clock. Schedulers are numbered as they
are made; `schedulers` is the map from intervals to them. -/
structure State where
  discoveryInterval : Option Interval := none
  thingInterval : Option Interval := none
  schedulers : List (Interval × ℕ) := []
  made : ℕ := 0
  stopped : Bool := false
  timeouts : List Timeout := []
  tasks : List Task := []
  clock : ℤ
  log : List Effect := []
  deriving DecidableEq

namespace State

def configured (s : State) : Channel → Option Interval
  | .discovery => s.discoveryInterval
  | .thing => s.thingInterval

def configure (s : State) (interval : Interval) : Channel → State
  | .discovery => { s with discoveryInterval := some interval }
  | .thing => { s with thingInterval := some interval }

def uses (s : State) (interval : Interval) : Prop :=
  s.discoveryInterval = some interval ∨ s.thingInterval = some interval

instance (s : State) (interval : Interval) : Decidable (s.uses interval) :=
  inferInstanceAs (Decidable (_ ∨ _))

/-- The map holds this scheduler for the interval; there is one entry for a key. -/
def isCurrent (s : State) (interval : Interval) (scheduler : ℕ) : Prop :=
  s.stopped = false ∧ s.schedulers.lookup interval = some scheduler

instance (s : State) (interval : Interval) (scheduler : ℕ) :
    Decidable (s.isCurrent interval scheduler) :=
  inferInstanceAs (Decidable (_ ∧ _))

/-- `Scheduler::schedule`. -/
def schedule (scheduler : ℕ) (interval : Interval) (now : Readings) (s : State) : State :=
  if s.isCurrent interval scheduler then
    { s with timeouts := s.timeouts ++ [.next scheduler interval now] }
  else s

/-- `State::emit`. -/
def emit (scheduler : ℕ) (interval : Interval) (scheduledAt : ℤ) (s : State) : State :=
  { s with log := s.log ++
      (if s.discoveryInterval = some interval then [.onNext .discovery scheduler scheduledAt] else []) ++
      if s.thingInterval = some interval then [.onNext .thing scheduler scheduledAt] else [] }

/-- `Scheduler::emit`, the callback of a timeout. -/
def emitTimeout (t : Timeout) (now : Readings) (s : State) : State :=
  if s.isCurrent t.interval t.scheduler then
    (s.emit t.scheduler t.interval t.scheduledAt).schedule t.scheduler t.interval now
  else s

def failInLoop (e : Exception) (s : State) : State :=
  if s.stopped then s
  else { s with
    stopped := true
    schedulers := []
    log := s.log ++ [.onError .discovery e, .onError .thing e] }

def stop (s : State) : State :=
  if s.stopped then s
  else { s with
    stopped := true
    schedulers := []
    log := s.log ++ [.onCompleted .discovery, .onCompleted .thing] }

/-- A scheduler for an interval that has none. -/
def addScheduler (interval : Interval) (now : Readings) (s : State) : State :=
  if s.schedulers.any (·.1 = interval) then s
  else
    let scheduler := s.made
    { s with
      made := s.made + 1
      schedulers := s.schedulers ++ [(interval, scheduler)] }.schedule scheduler interval now

/-- The interval that was configured loses its scheduler if nothing uses it. -/
def dropPrevious (previous : Option Interval) (interval : Interval) (s : State) : State :=
  match previous with
  | none => s
  | some previous =>
    if previous ≠ interval ∧ ¬s.uses previous then
      { s with schedulers := s.schedulers.filter (·.1 ≠ previous) }
    else s

def setIntervalInLoop (channel : Channel) (interval : ℤ) (now : Readings) (s : State) : State :=
  if s.stopped then s
  else
    match validateInterval interval with
    | .error e => s.failInLoop e
    | .ok interval =>
      let previous := s.configured channel
      ((s.configure interval channel).dropPrevious previous interval).addScheduler interval now

def runTask (now : Readings) (s : State) : Task → State
  | .setInterval channel interval => s.setIntervalInLoop channel interval now
  | .fail e => s.failInLoop e
  | .stop => s.stop

end State

/-- The configuration or the owner of the timer queues a callback; the loop runs
the next callback, or one of the pending timeouts. -/
inductive Event
  | post (t : Task)
  | run (now : Readings)
  | fire (k : ℕ) (now : Readings)

/-- The clock does not decrease, and no timeout fires before it is due. -/
def Enabled (s : State) : Event → Prop
  | .post _ => True
  | .run now => s.tasks ≠ [] ∧ s.clock ≤ now.first ∧ now.first ≤ now.second
  | .fire k now => s.timeouts[k]?.any (·.due ≤ now.first) = true ∧ s.clock ≤ now.first ∧
      now.first ≤ now.second

instance (s : State) : (e : Event) → Decidable (Enabled s e)
  | .post _ => inferInstanceAs (Decidable True)
  | .run _ => inferInstanceAs (Decidable (_ ∧ _ ∧ _))
  | .fire _ _ => inferInstanceAs (Decidable (_ ∧ _ ∧ _))

def step (s : State) : Event → State
  | .post t => { s with tasks := s.tasks ++ [t] }
  | .run now =>
    match s.tasks with
    | [] => s
    | t :: tasks => { s with tasks, clock := now.second }.runTask now t
  | .fire k now =>
    match s.timeouts[k]? with
    | none => s
    | some t => { s with timeouts := s.timeouts.eraseIdx k, clock := now.second }.emitTimeout t now

/-- The timer begins with nothing configured, at any time. -/
def machine : Machine State Event where
  init s := s = { clock := s.clock }
  enabled := Enabled
  next := step

instance (s : State) (e : Event) : Decidable (machine.enabled s e) :=
  inferInstanceAs (Decidable (Enabled s e))

end Timer

end Neubau.Common
