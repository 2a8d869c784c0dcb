import VolumeWatch.Bar

/-!
Extremes: the highest high and the lowest low of a stretch of bars.

A stretch without bars has none, which `Option (Extremes α)` says. Highs are counted from zero
up, so that bars below zero have a high of zero.
-/

namespace VolumeWatch

structure Extremes (α : Type) where
  high : α
  low : α

/-- Nearness of a price to the extremes of the day and of the last completed local window. -/
structure Proximity where
  nearDailyLow : Bool
  nearDailyHigh : Bool
  nearLocalLow : Bool
  nearLocalHigh : Bool
  deriving DecidableEq

namespace Extremes

variable {α : Type} [Scalar α]

def ofBar (b : Bar α) : Extremes α := ⟨Scalar.max 0 b.high, Scalar.bounded b.low⟩

def widen (e : Option (Extremes α)) (b : Bar α) : Extremes α :=
  match e with
  | none => ofBar b
  | some e => ⟨Scalar.max e.high b.high, Scalar.min e.low b.low⟩

def ofBars? (bars : List (Bar α)) : Option (Extremes α) :=
  bars.foldl (fun e b => some (widen e b)) none

/-- At or above the high less a share of it. -/
def isNearHigh (e : Extremes α) (price proximity : α) : Bool :=
  e.high * (((1 : Nat) : α) - proximity) ≤ price

/-- At or below the low and a share of it. -/
def isNearLow (e : Extremes α) (price proximity : α) : Bool :=
  price ≤ e.low * (((1 : Nat) : α) + proximity)

end Extremes

end VolumeWatch
