import VolumeWatch.Engine
import VolumeWatch.Record

/-!
Replays: bars that come from a list of lines, as fast as they can be read.

The worker gets its turn after every line that is not blank, as long as the number of bars so far
is a multiple of a batch. No time passes before the last line.
-/

namespace VolumeWatch

inductive Line (α : Type) where
  | blank
  /-- A line that is neither blank nor a bar. -/
  | junk
  | bar (b : Bar α)

structure Replay (α : Type) where
  engine : Engine α
  bars : Nat

structure Replayed (α : Type) where
  records : List (Record α)
  /-- Alerts that were not scored in the end. -/
  unresolved : Nat
  /-- Alerts that the queue had no room for. -/
  dropped : Nat

namespace Replay

variable {α : Type} [Scalar α]

/-- Number of bars between two turns of the worker. -/
def batch : Nat := 1000

/-- The worker gets its turn if a batch is complete. -/
def yieldTurn (r : Replay α) : Replay α :=
  if r.bars % batch = 0 then { r with engine := r.engine.settle } else r

def take (r : Replay α) : Line α → Replay α
  | .blank => r
  | .junk => r.yieldTurn
  | .bar b => yieldTurn ⟨(r.engine.submit b).1, r.bars + 1⟩

def ofLines (e : Engine α) (lines : List (Line α)) : Replay α := lines.foldl take ⟨e, 0⟩

/-- Wait for the alerts that are ripe, and stop. The last record is a snapshot taken before the
stop. Nothing comes in between; see `Tasks` for what can. -/
def finish (r : Replay α) (withBars : Bool) : Replayed α :=
  let e := r.engine.drain
  let final := e.desk.statistics.snapshot
  let stopped := e.shutdown
  { records := Record.ofJournal withBars (stopped.desk.note [.snapshot final]).journal.toList
    unresolved := e.desk.queue.pending
    dropped := e.desk.queue.dropped }

end Replay

end VolumeWatch
