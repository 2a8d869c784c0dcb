import VolumeWatch.Fault.Basic
import VolumeWatch.RunningStat
import VolumeWatch.Series.Extremes
import VolumeWatch.Series.Partition

/-!
Series: the bars of one contract on every timeframe.

Bars of five seconds come in, and each longer bar is made as soon as its last part has come. A
timeframe keeps its bars and the running statistics of their volumes and ranges, from which it is
decided whether a volume is unusual.
-/

namespace VolumeWatch

open Calendar (Instant)

structure Tier (α : Type) where
  bars : Array (Bar α)
  volumes : RunningStat α
  ranges : RunningStat α

/-- A bar as it came in or was made, and whether its volume is unusual. -/
structure Emitted (α : Type) where
  timeframe : Timeframe
  bar : Bar α
  anomalous : Bool

structure Series (α : Type) where
  contract : ContractId
  /-- The contract is the underlying, whose volumes are never unusual. -/
  isUnderlying : Bool
  s5 : Tier α
  s30 : Tier α
  m1 : Tier α
  m5 : Tier α
  daily : Option (Extremes α)
  /-- Extremes of the last completed local window. -/
  local? : Option (Extremes α)
  /-- Extremes of the local window that is not complete. -/
  pending : Option (Extremes α)
  /-- The volume up to the end of each one-minute bar, beside the start of the bar. -/
  ledger : Array (Instant × α)

namespace Tier

variable {α : Type} [Scalar α]

def empty : Tier α := ⟨#[], ∅, ∅⟩

def push (t : Tier α) (b : Bar α) : Tier α :=
  ⟨t.bars.push b, t.volumes.add b.volume, t.ranges.add b.range⟩

def last? (t : Tier α) : Option (Bar α) := t.bars.back?

/-- The volume of a bar is unusual among the volumes so far, its own included. -/
def isUnusual (t : Tier α) (rule : AnomalyRule α) (b : Bar α) : Bool :=
  rule.eligible t.volumes.count && t.volumes.exceeds b.volume rule.threshold

/-- The bars that start at or after `start` and before `stop`. -/
def between (t : Tier α) (start stop : Instant) : List (Bar α) :=
  (t.bars.extract (partitionPoint (·.timestamp < start) t.bars)
    (partitionPoint (·.timestamp < stop) t.bars)).toList

end Tier

namespace Series

variable {α : Type} [Scalar α]

def empty (contract : ContractId) (isUnderlying : Bool) : Series α :=
  { contract, isUnderlying
    s5 := .empty
    s30 := .empty
    m1 := .empty
    m5 := .empty
    daily := none
    local? := none
    pending := none
    ledger := #[] }

def tier (s : Series α) : Timeframe → Tier α
  | .s5 => s.s5
  | .s30 => s.s30
  | .m1 => s.m1
  | .m5 => s.m5

def modifyTier (s : Series α) (t : Timeframe) (f : Tier α → Tier α) : Series α :=
  match t with
  | .s5 => { s with s5 := f s.s5 }
  | .s30 => { s with s30 := f s.s30 }
  | .m1 => { s with m1 := f s.m1 }
  | .m5 => { s with m5 := f s.m5 }

def bars (s : Series α) (t : Timeframe) : Array (Bar α) := (s.tier t).bars

def counts (s : Series α) : List Nat := Category.values.map fun t => (s.bars t).size

def last? (s : Series α) (t : Timeframe) : Option (Bar α) := (s.tier t).last?

/-- The close of the last bar of five seconds. -/
def price? (s : Series α) : Option α := (s.last? .s5).map (·.close)

/-- The volume of all one-minute bars. -/
def cumulative (s : Series α) : α := (s.ledger.back?.map (·.2)).getD 0

/-- The volume of the one-minute bars that start at or before an instant. -/
def cumulativeAt (s : Series α) (t : Instant) : α :=
  match partitionPoint (·.1 ≤ t) s.ledger with
  | 0 => 0
  | n + 1 => (s.ledger[n]?.map (·.2)).getD 0

/-- The bars of a timeframe that start at or after `start` and before `stop`. -/
def between (s : Series α) (t : Timeframe) (start stop : Instant) : List (Bar α) :=
  (s.tier t).between start stop

/-- Compare a price with the extremes of the day and of the last completed local window. -/
def compare (s : Series α) (price proximity : α) : Proximity where
  nearDailyLow := s.daily.any (·.isNearLow price proximity)
  nearDailyHigh := s.daily.any (·.isNearHigh price proximity)
  nearLocalLow := s.local?.any (·.isNearLow price proximity)
  nearLocalHigh := s.local?.any (·.isNearHigh price proximity)

/-- The next bar of a timeframe, made from the oldest bars below that are not yet part of one. -/
def derive (s : Series α) (t : Timeframe) : Except (Fault α) (Bar α) :=
  match t.previous? with
  | none => .error (.incompleteWindow t t.ratio 0)
  | some below =>
    let parts := s.bars below
    let used := (s.bars t).size * t.ratio
    if parts.size - used < t.ratio then
      .error (.incompleteWindow t t.ratio (parts.size - used))
    else
      match Bar.merge? (parts.extract used (used + t.ratio)).toList with
      | none => .error (.incompleteWindow t t.ratio 0)
      | some b => .ok b

/-- Put a bar on its timeframe and decide whether its volume is unusual. -/
def record (s : Series α) (t : Timeframe) (b : Bar α) : Series α × Emitted α :=
  let s := s.modifyTier t (·.push b)
  let anomalous := !s.isUnderlying && (s.tier t).isUnusual t.anomalyRule b
  (s, ⟨t, b, anomalous⟩)

/-- Number of five-minute bars in a local window. -/
def localWindow : Nat := 6

/-- Widen the extremes of the local window, and complete the window with its last bar. -/
def extendLocal (s : Series α) (b : Bar α) : Series α :=
  let extremes := Extremes.widen s.pending b
  if s.m5.bars.size % localWindow = 0 then { s with local? := some extremes, pending := none }
  else { s with pending := some extremes }

/-- What a bar changes apart from its timeframe. -/
def account (s : Series α) (t : Timeframe) (b : Bar α) : Series α :=
  match t with
  | .s5 => { s with daily := some (Extremes.widen s.daily b) }
  | .s30 => s
  | .m1 =>
    let total := s.cumulative + b.volume
    { s with ledger := s.ledger.push (b.timestamp, total) }
  | .m5 => s.extendLocal b

/-- Put a bar on its timeframe and account for it. -/
def emit (s : Series α) (t : Timeframe) (b : Bar α) : Series α × Emitted α :=
  let (s, e) := s.record t b
  (s.account t b, e)

/-- Make the bars that the last bar below has completed, timeframe after timeframe. -/
def cascade (s : Series α) (below : Timeframe) : List Timeframe → Series α × List (Emitted α)
  | [] => (s, [])
  | t :: above =>
    if (s.bars below).size % t.ratio = 0 then
      match s.derive t with
      | .error _ => (s, [])
      | .ok b =>
        let (s, e) := s.emit t b
        let (s, rest) := s.cascade t above
        (s, e :: rest)
    else (s, [])

/-- Take a bar of five seconds. It comes first among the bars that it completes. -/
def ingest (s : Series α) (b : Bar α) : Series α × List (Emitted α) :=
  let (s, e) := s.emit .s5 b
  let (s, rest) := s.cascade .s5 [.s30, .m1, .m5]
  (s, e :: rest)

def ingestAll (s : Series α) (bars : List (Bar α)) : Series α :=
  bars.foldl (fun s b => (s.ingest b).1) s

end Series

end VolumeWatch
