import VolumeWatch.Bar
import VolumeWatch.Calendar.Duration
import VolumeWatch.Fault.Basic

/-!
Outcomes: what the price of a contract did after an alert.

An alert is scored on the bars of a stretch that begins at its reference time and ends at a
horizon. The price may climb until it first falls to a stop; the highest price reached up to then
decides between a loss, a partial win and a win.
-/

namespace VolumeWatch

open Calendar (Duration Instant)

inductive WinClass where
  | loss
  | partialWin
  | win
  deriving DecidableEq, Inhabited

instance : Category WinClass where
  values := [.loss, .partialWin, .win]
  ordinal := WinClass.ctorIdx
  label
    | .loss => "Loss"
    | .partialWin => "Partial"
    | .win => "Win"
  name
    | .loss => "Loss"
    | .partialWin => "Partial"
    | .win => "Win"
  values_getElem?_ordinal v := by cases v <;> rfl
  map_ordinal_values := rfl

namespace WinClass

/-- What a class counts for: a partial win is half a win. -/
def units {α : Type} [Scalar α] : WinClass → α
  | .loss => 0
  | .partialWin => Scalar.half
  | .win => ((1 : Nat) : α)

def isWin : WinClass → Bool
  | .loss => false
  | .partialWin | .win => true

end WinClass

structure Outcome (α : Type) where
  winClass : WinClass
  /-- The best move above the reference price in percent, zero for a loss. -/
  move : α

/-- How alerts are scored: how long after the reference time the outcome is measured, the fall that
stops the scan and the move that is a full win, both in percent. -/
structure OutcomeRule (α : Type) where
  lookahead : Duration
  stopLoss : α
  win : α

namespace OutcomeRule

variable {α : Type} [Scalar α]

/-- Half an hour, thirty percent down, sixty percent up. -/
def standard : OutcomeRule α := ⟨.ofSeconds 1800, ((30 : Nat) : α), ((60 : Nat) : α)⟩

/-- The largest number of seconds that a lookahead can hold. -/
def lookaheadBound : Int := 9223372036854775

/-- The whole seconds of the lookahead, read as a signed word, if they can be held. -/
def lookahead? (r : OutcomeRule α) : Option Int :=
  let whole := r.lookahead.seconds
  let seconds : Int := if whole < Nat.pow 2 63 then whole else (whole : Int) - Nat.pow 2 64
  if -lookaheadBound ≤ seconds ∧ seconds ≤ lookaheadBound then some seconds else none

/-- The end of the stretch that an alert is scored on, if it can be written. -/
def horizon? (r : OutcomeRule α) (reference : Instant) : Option Instant :=
  r.lookahead?.bind reference.addSeconds?

end OutcomeRule

/-- The change from a reference price to another price in percent. -/
def percentMove {α : Type} [Scalar α] (reference price : α) : α :=
  (price - reference) * ((100 : Nat) : α) / reference

namespace OutcomeRule

variable {α : Type} [Scalar α]

/-- The highest price reached before the lowest price falls to the stop. -/
def peak (r : OutcomeRule α) (reference lowest highest : α) : List (Bar α) → α
  | [] => highest
  | b :: rest =>
    let lowest := Scalar.min lowest b.low
    if percentMove reference lowest ≤ Scalar.neg r.stopLoss then highest
    else peak r reference lowest (Scalar.max highest b.high) rest

def judge (r : OutcomeRule α) (move : α) : Outcome α :=
  if move ≤ 0 then ⟨.loss, 0⟩
  else if move < r.win then ⟨.partialWin, move⟩
  else ⟨.win, move⟩

/-- The outcome on the bars from the reference time up to the horizon. -/
def score (r : OutcomeRule α) (reference : α) (bars : List (Bar α)) : Outcome α :=
  r.judge (percentMove reference (r.peak reference reference reference bars))

/-- Score a window of bars from the first bar at or after the reference time on. There is no
answer where the horizon is needed and cannot be written. -/
def evaluate? (r : OutcomeRule α) (price : α) (reference : Instant) (window : List (Bar α)) :
    Option (Except (Fault α) (Outcome α)) :=
  if Scalar.isNaN price ∨ price ≤ 0 then some (.error (.invalidReferencePrice price))
  else
    match window, window.dropWhile (·.timestamp < reference) with
    | [], _ => some (.error .emptyWindow)
    | _ :: _, [] => some (.error (.noBarsAfterReference reference))
    | _ :: _, bars => (r.horizon? reference).map fun horizon =>
      .ok (r.score price (bars.takeWhile (·.timestamp < horizon)))

end OutcomeRule

end VolumeWatch
