import VolumeWatch.Desk
import VolumeWatch.Settings.Basic

/-!
Engines: a desk together with the worker that scores its alerts and the reports of its statistics,
on the clock of the run.

The worker holds one alert at a time, the oldest of the queue, and looks at it again and again
until it is ripe. It does nothing between two actions on the engine: `settle` lets it go as far as
it can at the present moment, `sleep` lets time pass, and `drain` waits until it has found an alert
that is not ripe or has scored them all. The clock counts milliseconds.
-/

namespace VolumeWatch

/-- What the worker says that it does. -/
inductive Status where
  | idle
  | waiting
  | evaluating
  | stopped
  deriving DecidableEq, Inhabited

instance : Category Status where
  values := [.idle, .waiting, .evaluating, .stopped]
  ordinal := Status.ctorIdx
  label
    | .idle => "Idle"
    | .waiting => "Waiting"
    | .evaluating => "Evaluating"
    | .stopped => "Stopped"
  name
    | .idle => "Idle"
    | .waiting => "Waiting"
    | .evaluating => "Evaluating"
    | .stopped => "Stopped"
  values_getElem?_ordinal v := by cases v <;> rfl
  map_ordinal_values := rfl

inductive Worker (α : Type) where
  /-- Ready for the next alert. -/
  | idle
  /-- Holds an alert and looks at it again when the time has come. -/
  | waiting (alert : Alert α) (due : Nat)
  /-- Lost to an alert whose horizon cannot be written, with its status at that moment. -/
  | failed (status : Status)
  | stopped

def Worker.status {α : Type} : Worker α → Status
  | .idle => .idle
  | .waiting .. => .waiting
  | .failed status => status
  | .stopped => .stopped

structure Engine (α : Type) where
  desk : Desk α
  rule : OutcomeRule α
  maturity : Maturity
  /-- Time between two looks at an alert. -/
  poll : Nat
  /-- Time between two reports. -/
  reportEvery : Nat
  now : Nat
  worker : Worker α
  /-- When the next report is due, once the reports have begun. -/
  nextReport : Option Nat

namespace Engine

variable {α : Type} [Scalar α]

/-- An engine at the start of its run, if there can be as much room in its queue as is asked. -/
def ofSettings? (s : Settings α) (audience : Audience α) : Option (Engine α) :=
  (BoundedQueue.ofCapacity? s.queueCapacity).map fun queue =>
    { desk := .empty s.classifier queue audience
      rule := s.rule
      maturity := s.maturity
      poll := s.pollMillis
      reportEvery := s.reportSeconds * 1000
      now := 0
      worker := .idle
      nextReport := none }

/-- The alert is ripe to be scored. There is no answer where its horizon cannot be told. -/
def isRipe? (e : Engine α) (a : Alert α) : Option Bool :=
  match e.maturity with
  | .wallClock =>
    if e.rule.lookahead.seconds < Nat.pow 2 63 then
      some (a.createdAt * 1000000 + e.rule.lookahead.inNanos ≤ e.now * 1000000)
    else none
  | .marketTime =>
    (e.rule.horizon? a.reference).map fun horizon => e.desk.market.clock.any (horizon ≤ ·)

def withQueue (e : Engine α) (queue : BoundedQueue (Alert α)) : Engine α :=
  { e with desk := { e.desk with queue } }

/-- The worker is lost, and with it what waits in the queue. -/
def fail (e : Engine α) (status : Status) : Engine α :=
  { e.withQueue e.desk.queue.dropReceiver with worker := .failed status }

/-- The worker looks at an alert: it keeps one that is not ripe, and is done with any other. -/
def consider (e : Engine α) (a : Alert α) : Engine α :=
  match e.isRipe? a with
  | none => e.fail .idle
  | some false => { e with worker := .waiting a (e.now + e.poll) }
  | some true =>
    match e.desk.evaluate? e.rule a with
    | none => e.fail .evaluating
    | some desk => { e with desk := { desk with queue := desk.queue.complete }, worker := .idle }

/-- The alert that the worker looks at next, if it can do anything at the present moment, and the
engine without it in its queue. -/
def ready? (e : Engine α) : Option (Engine α × Alert α) :=
  match e.worker with
  | .idle =>
    match e.desk.queue.receive with
    | (queue, .item a) => some (e.withQueue queue, a)
    | _ => none
  | .waiting a due => if due ≤ e.now then some (e, a) else none
  | .failed _ | .stopped => none

/-- What the worker does next, if it can do anything at the present moment. -/
def step? (e : Engine α) : Option (Engine α) := e.ready?.map fun r => r.1.consider r.2

/-- At most so many steps of the worker. -/
def steps : Nat → Engine α → Engine α
  | 0, e => e
  | n + 1, e =>
    match e.step? with
    | none => e
    | some e => steps n e

/-- The worker goes on until it has to wait: each step but the first takes an alert. -/
def work (e : Engine α) : Engine α := e.steps (e.desk.queue.items.size + 1)

def isStopped (e : Engine α) : Bool :=
  match e.worker with
  | .stopped => true
  | _ => false

/-- Reports begin with the run. -/
def beginReports (e : Engine α) : Engine α :=
  { e with nextReport := some (e.nextReport.getD (e.now + e.reportEvery)) }

/-- Everything that can go on at the present moment does. -/
def settle (e : Engine α) : Engine α := if e.isStopped then e else e.beginReports.work

/-- The next moment at which the worker or the reports have something to do. -/
def nextTimer? (e : Engine α) : Option Nat :=
  match e.worker, e.nextReport with
  | .waiting _ due, some report => some (min due report)
  | .waiting _ due, none => some due
  | _, report => report

/-- A moment comes, with a report if it is due. -/
def wake (e : Engine α) (t : Nat) : Engine α :=
  let e := { e with now := t }
  if e.nextReport = some t then
    { e with desk := e.desk.report, nextReport := some (t + e.reportEvery) }.work
  else e.work

/-- Time passes up to a moment, with at most so many timers on the way. -/
def passTime : Nat → Nat → Engine α → Engine α
  | 0, stop, e => { e with now := stop }
  | n + 1, stop, e =>
    match e.nextTimer? with
    | none => { e with now := stop }
    | some t => if t ≤ stop then passTime n stop (e.wake t) else { e with now := stop }

/-- Time passes, and all that is due up to and including the end of it is done. -/
def sleep (e : Engine α) (millis : Nat) : Engine α :=
  passTime (millis + 1) (e.now + millis) e.settle

/-- Wait until all alerts are done with or the worker has looked at one that is not ripe. -/
def drain (e : Engine α) : Engine α :=
  if e.desk.queue.pending = 0 then e
  else
    match e.worker with
    | .waiting _ due => e.sleep (due - e.now)
    | _ => e.settle

/-- The worker and the reports stop, and the alerts that wait are discarded. -/
def shutdown (e : Engine α) : Engine α :=
  let queue :=
    match e.worker with
    | .waiting .. => e.desk.queue.complete
    | _ => e.desk.queue
  { e.withQueue queue.dropReceiver with worker := .stopped, nextReport := none }

/-- Take a bar, and list the alerts it raised that the queue has taken. -/
def submit (e : Engine α) (b : Bar α) : Engine α × List (Alert α) :=
  let (desk, alerts) := e.desk.ingest e.now b
  ({ e with desk }, alerts)

inductive Action (α : Type) where
  | submit (bar : Bar α)
  | settle
  | sleep (millis : Nat)
  | drain
  | shutdown

def act (e : Engine α) : Action α → Engine α
  | .submit b => (e.submit b).1
  | .settle => e.settle
  | .sleep millis => e.sleep millis
  | .drain => e.drain
  | .shutdown => e.shutdown

def run (e : Engine α) (actions : List (Action α)) : Engine α := actions.foldl act e

end Engine

end VolumeWatch
