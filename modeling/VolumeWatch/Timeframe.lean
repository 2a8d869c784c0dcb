import VolumeWatch.Category
import VolumeWatch.Scalar

/-!
Timeframes: the four bar lengths, each of the upper three made of whole bars of the one below,
and the rule that decides on each when a volume is unusual.
-/

namespace VolumeWatch

inductive Timeframe where
  | s5
  | s30
  | m1
  | m5
  deriving DecidableEq, Inhabited

/-- When a volume is unusual: it lies at least `threshold` standard deviations from the mean of
more than `minSamples` volumes, its own included. -/
structure AnomalyRule (α : Type) where
  threshold : α
  minSamples : Nat

namespace Timeframe

instance : Category Timeframe where
  values := [.s5, .s30, .m1, .m5]
  ordinal := Timeframe.ctorIdx
  label
    | .s5 => "5s"
    | .s30 => "30s"
    | .m1 => "1m"
    | .m5 => "5m"
  name
    | .s5 => "Base"
    | .s30 => "Tier2"
    | .m1 => "Tier3"
    | .m5 => "Tier4"
  values_getElem?_ordinal v := by cases v <;> rfl
  map_ordinal_values := rfl

/-- Seconds from the start of a bar to its end. -/
def seconds : Timeframe → Nat
  | .s5 => 5
  | .s30 => 30
  | .m1 => 60
  | .m5 => 300

theorem seconds_pos (t : Timeframe) : 0 < t.seconds := by cases t <;> decide

/-- Number of bars of the timeframe below that make one bar. -/
def ratio : Timeframe → Nat
  | .s5 => 1
  | .s30 => 6
  | .m1 => 2
  | .m5 => 5

def next? : Timeframe → Option Timeframe
  | .s5 => some .s30
  | .s30 => some .m1
  | .m1 => some .m5
  | .m5 => none

def previous? : Timeframe → Option Timeframe
  | .s5 => none
  | .s30 => some .s5
  | .m1 => some .s30
  | .m5 => some .m1

/-- Shorter timeframes need a larger deviation, and the longest needs fewer samples. -/
def anomalyRule {α : Type} [Scalar α] : Timeframe → AnomalyRule α
  | .s5 => ⟨((2 : Nat) : α), 9⟩
  | .s30 => ⟨((3 : Nat) : α) / ((2 : Nat) : α), 9⟩
  | .m1 => ⟨((1 : Nat) : α), 9⟩
  | .m5 => ⟨((1 : Nat) : α), 4⟩

end Timeframe

/-- Enough samples have been seen for a deviation to mean something. -/
def AnomalyRule.eligible {α : Type} (rule : AnomalyRule α) (samples : Nat) : Bool :=
  rule.minSamples < samples

end VolumeWatch
