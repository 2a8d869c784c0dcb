import VolumeWatch.Engine

/-!
Tasks: an engine between the steps of those that work on it.

A feeder takes the bars in, the worker scores the alerts and a reporter takes snapshots. Each of
them goes on by itself, and the steps of the others may come between any two of its own. An outcome
is counted before it is noted and a snapshot is taken before it is noted, so that one of these may
be noted after something that happened later. The steps that make up a turn of an engine are those
of one task with nothing in between.

A bar goes into its series in one step, and time passes in steps of its own. Reports may come at any
moment.
-/

namespace VolumeWatch

structure Tasks (α : Type) where
  engine : Engine α
  /-- What the feeder has still to note of the last bar. -/
  unsaid : List (Notice α)
  /-- The outcome that the worker has counted and has still to note. -/
  untold : Option (Alert α × Outcome α × Entry α)
  /-- The snapshot that the reporter has taken and has still to note. -/
  taken : Option (Snapshot α)
  /-- The snapshot that is to be noted at the end, when the other tasks have stopped. -/
  last : Option (Snapshot α)

namespace Tasks

inductive Step (α : Type) where
  /-- The feeder takes in a bar. -/
  | take (bar : Bar α)
  /-- The feeder notes what comes next of the bar. -/
  | say
  /-- The worker looks at an alert, and counts its outcome if there is one. -/
  | look
  /-- The worker notes the outcome, and is done with its alert. -/
  | tell
  | beginReports
  /-- The reporter takes a snapshot. -/
  | snap
  /-- The reporter notes the snapshot. -/
  | report
  | pass (millis : Nat)
  /-- The feeder takes the snapshot for the end. -/
  | keep
  /-- The worker and the reporter are stopped, once they are done with their last steps. -/
  | stop
  /-- The feeder notes the snapshot for the end. -/
  | close

def Step.bar? {α : Type} : Step α → Option (Bar α)
  | .take b => some b
  | _ => none

variable {α : Type} [Scalar α]

/-- An engine with no task in the middle of something. -/
def ofEngine (e : Engine α) : Tasks α := ⟨e, [], none, none, none⟩

def withDesk (t : Tasks α) (desk : Desk α) : Tasks α :=
  { t with engine := { t.engine with desk } }

/-- A bar goes into its series. What there is to note of it are the bars that it completes and the
alerts that these raise. -/
def take (t : Tasks α) (b : Bar α) : Tasks α :=
  let d := t.engine.desk
  let (market, emitted) := d.market.ingest d.classifier.underlying b
  { t.withDesk { d with market } with
    unsaid := Desk.noticesOf d.audience.listening emitted ++
      (market.alerts d.classifier b.contract t.engine.now emitted).map .alert }

/-- Something is noted. An alert is put into the queue then. -/
def say (t : Tasks α) (n : Notice α) : Tasks α :=
  t.withDesk <| match n with
    | .alert a => (t.engine.desk.publish a).1
    | n => t.engine.desk.note [n]

/-- The worker of an engine looks at an alert. An outcome is counted, and nobody hears of it yet. -/
def look (t : Tasks α) (e : Engine α) (a : Alert α) : Tasks α :=
  match e.isRipe? a with
  | none => { t with engine := e.fail .idle }
  | some false => { t with engine := { e with worker := .waiting a (e.now + e.poll) } }
  | some true =>
    match e.desk.score? e.rule a with
    | none => { t with engine := e.fail .evaluating }
    | some (.error _) =>
      { t with
        engine := { e with
          desk := { e.desk with queue := e.desk.queue.complete }
          worker := .idle } }
    | some (.ok o) =>
      let (desk, entry) := e.desk.tally a o
      { t with engine := { e with desk, worker := .idle }, untold := some (a, o, entry) }

/-- The worker notes an outcome that it has counted. -/
def tell (t : Tasks α) (a : Alert α) (o : Outcome α) (entry : Entry α) : Tasks α :=
  let d := t.engine.desk.note [.outcome a o entry]
  { t.withDesk { d with queue := d.queue.complete } with untold := none }

/-- The reporter takes a snapshot, and knows when the next one is due. -/
def snap (t : Tasks α) : Tasks α :=
  { t with
    engine := { t.engine with nextReport := some (t.engine.now + t.engine.reportEvery) }
    taken := some t.engine.desk.statistics.snapshot }

/-- What a step leads to, if the task that takes it has come to it. -/
def step? (t : Tasks α) : Step α → Option (Tasks α)
  | .take b => if t.unsaid.isEmpty then some (t.take b) else none
  | .say =>
    match t.unsaid with
    | [] => none
    | n :: rest => some { t.say n with unsaid := rest }
  | .look => if t.untold.isNone then t.engine.ready?.map fun r => t.look r.1 r.2 else none
  | .tell => t.untold.map fun x => t.tell x.1 x.2.1 x.2.2
  | .beginReports => some { t with engine := t.engine.beginReports }
  | .snap => if t.taken.isNone then some t.snap else none
  | .report =>
    t.taken.map fun s => { t.withDesk (t.engine.desk.note [.snapshot s]) with taken := none }
  | .pass millis => some { t with engine := { t.engine with now := t.engine.now + millis } }
  | .keep =>
    if t.unsaid.isEmpty then some { t with last := some t.engine.desk.statistics.snapshot }
    else none
  | .stop =>
    if t.untold.isNone && t.taken.isNone then some { t with engine := t.engine.shutdown } else none
  | .close =>
    if t.engine.isStopped then
      t.last.map fun s => { t.withDesk (t.engine.desk.note [.snapshot s]) with last := none }
    else none

/-- What steps lead to that are taken one after the other, if they can be. -/
def run? (t : Tasks α) (steps : List (Step α)) : Option (Tasks α) := steps.foldlM step? t

end Tasks

end VolumeWatch
