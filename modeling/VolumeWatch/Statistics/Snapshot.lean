import VolumeWatch.Statistics.Entry
import VolumeWatch.Tag.Tags

/-!
Snapshots: entries listed at one moment, by combination of tags and by single tag value, and the
questions that are asked of them.
-/

namespace VolumeWatch

structure Snapshot (α : Type) where
  combinations : List (Tags × Entry α)
  values : List (TagValue × Entry α)

namespace Snapshot

variable {α : Type}

/-- Number of alerts of all combinations. -/
def alerts (s : Snapshot α) : Nat := (s.combinations.map (·.2.alerts)).foldr (· + ·) 0

/-- Number of alerts of all combinations, if it is a 64-bit word. -/
def totalAlerts? (s : Snapshot α) : Option Nat :=
  if s.alerts < Nat.pow 2 64 then some s.alerts else none

def dimension (s : Snapshot α) (d : Dimension) : List (TagValue × Entry α) :=
  s.values.filter (·.1.dimension = d)

variable [Scalar α]

/-- Units by alert over all combinations, zero where there are none. -/
def overallRate (s : Snapshot α) : α :=
  if s.alerts = 0 then 0
  else Scalar.sum (s.combinations.map (·.2.units)) / (s.alerts : α)

/-- Order by falling rate, and by falling number of alerts where rates are the same. -/
def compareRank (a b : Entry α) : Ordering :=
  (Scalar.compareTotal b.rate a.rate).then (compare b.alerts a.alerts)

/-- The first so many combinations in the order of their rank, among those with enough alerts.
Combinations of one rank keep their order. -/
def top (s : Snapshot α) (minAlerts limit : Nat) : List (Tags × Entry α) :=
  ((s.combinations.filter fun c => minAlerts ≤ c.2.alerts).mergeSort
    fun a b => compareRank a.2 b.2 != .gt).take limit

end Snapshot

end VolumeWatch
