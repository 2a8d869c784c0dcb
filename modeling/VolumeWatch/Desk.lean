import VolumeWatch.Market
import VolumeWatch.Outcome
import VolumeWatch.Queue.Bounded
import VolumeWatch.Statistics.Basic

/-!
Desks: where bars come in, alerts are put into the queue and outcomes are recorded.

Everything that happens at a desk is noted in its journal, in the order in which it happens. An
alert is noted before it is put into the queue, whether there is room for it or not.
-/

namespace VolumeWatch

inductive Notice (α : Type) where
  /-- A bar with an unusual volume, noted where there is a listener. -/
  | anomaly (timeframe : Timeframe) (bar : Bar α)
  | bar (timeframe : Timeframe) (bar : Bar α)
  | alert (alert : Alert α)
  /-- An outcome, and the entry of its combination of tags after it. -/
  | outcome (alert : Alert α) (outcome : Outcome α) (entry : Entry α)
  | snapshot (snapshot : Snapshot α)

/-- Who hears what is noted: a listener for bars with an unusual volume, or none, and a keeper of
everything else, who may fail to keep it. -/
structure Audience (α : Type) where
  listening : Bool
  /-- What the keeper answers to a notice that comes after so many others. -/
  answer : Nat → Notice α → Except (Fault α) Unit

namespace Audience

variable {α : Type}

/-- The keeper never fails. -/
def content (listening : Bool) : Audience α := ⟨listening, fun _ _ => .ok ()⟩

/-- The fault that the keeper answers with. It does not hear what is meant for the listener. -/
def fault? (audience : Audience α) (before : Nat) : Notice α → Option (Fault α)
  | .anomaly .. => none
  | notice => match audience.answer before notice with
    | .error fault => some fault
    | .ok () => none

/-- The faults for notices that come one after the other. -/
def faults (audience : Audience α) : Nat → List (Notice α) → List (Fault α)
  | _, [] => []
  | before, notice :: rest =>
    (audience.fault? before notice).toList ++ audience.faults (before + 1) rest

end Audience

structure Desk (α : Type) where
  classifier : Classifier α
  market : Market α
  queue : BoundedQueue (Alert α)
  statistics : Statistics α
  audience : Audience α
  journal : Array (Notice α)
  /-- The faults of the keeper. They are warned of, and nothing else comes of them. -/
  warnings : Array (Fault α)

namespace Desk

variable {α : Type} [Scalar α]

def empty (classifier : Classifier α) (queue : BoundedQueue (Alert α)) (audience : Audience α) :
    Desk α :=
  ⟨classifier, ∅, queue, ∅, audience, #[], #[]⟩

def note (d : Desk α) (notices : List (Notice α)) : Desk α :=
  { d with
    journal := d.journal ++ notices
    warnings := d.warnings ++ d.audience.faults d.journal.size notices }

/-- What is noted of emitted bars. -/
def noticesOf (listening : Bool) (emitted : List (Emitted α)) : List (Notice α) :=
  let unusual := if listening then emitted.filter (·.anomalous) else []
  unusual.map (fun e => .anomaly e.timeframe e.bar) ++ emitted.map fun e => .bar e.timeframe e.bar

/-- Note an alert and put it into the queue, if the queue takes it. -/
def publish (d : Desk α) (a : Alert α) : Desk α × Bool :=
  let (queue, result) := (d.queue.push a : _ × Except (Fault α) Unit)
  ({ d.note [.alert a] with queue }, result.isOk)

/-- Publish alerts one after the other, and list those that the queue has taken. -/
def publishAll (d : Desk α) : List (Alert α) → Desk α × List (Alert α)
  | [] => (d, [])
  | a :: rest =>
    let (d, taken) := d.publish a
    let (d, others) := d.publishAll rest
    (d, if taken then a :: others else others)

/-- Take a bar at a time of the run, and list the alerts it raised that the queue has taken. The
call is taken as a whole: its alerts are all raised at the same moment, and no other bar comes in
before its end. -/
def ingest (d : Desk α) (now : Nat) (b : Bar α) : Desk α × List (Alert α) :=
  let (market, emitted) := d.market.ingest d.classifier.underlying b
  let d := { d with market }.note (noticesOf d.audience.listening emitted)
  d.publishAll (market.alerts d.classifier b.contract now emitted)

/-- The outcome of an alert on the bars so far. There is no answer where the horizon of the alert
cannot be written. -/
def score? (d : Desk α) (rule : OutcomeRule α) (a : Alert α) :
    Option (Except (Fault α) (Outcome α)) :=
  (rule.horizon? a.reference).bind fun horizon =>
    match d.market.window a.contract a.barTime horizon with
    | .error fault => some (.error fault)
    | .ok window => rule.evaluate? a.price a.reference window

/-- Count an outcome in the statistics, before anybody hears of it. -/
def tally (d : Desk α) (a : Alert α) (o : Outcome α) : Desk α × Entry α :=
  let (statistics, entry) := d.statistics.recordOutcome a.tags o
  ({ d with statistics }, entry)

/-- Count an outcome and note it, with nothing in between. -/
def record (d : Desk α) (a : Alert α) (o : Outcome α) : Desk α :=
  let (d, entry) := d.tally a o
  d.note [.outcome a o entry]

/-- Score an alert and record the outcome. An alert that cannot be scored is discarded. -/
def evaluate? (d : Desk α) (rule : OutcomeRule α) (a : Alert α) : Option (Desk α) :=
  (d.score? rule a).map fun
    | .error _ => d
    | .ok o => d.record a o

/-- Take a snapshot and note it, with nothing in between. -/
def report (d : Desk α) : Desk α := d.note [.snapshot d.statistics.snapshot]

end Desk

end VolumeWatch
