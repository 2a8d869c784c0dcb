import VolumeWatch.Statistics.Basic
import VolumeWatch.Stored.Tags

/-!
Stored forms of outcomes and statistics.
-/

namespace VolumeWatch

instance : Stored (Outcome Float) where
  toJson o := .ofMembers [("win_class", toJson o.winClass), ("percent_move", toJson o.move)]
  ofJson? j := do
    let [winClass, move] ← j.fields? ["win_class", "percent_move"] | none
    return ⟨← ofJson? winClass, ← ofJson? move⟩

instance : Stored (Entry Float) where
  toJson e := .ofMembers
    [("total_alerts", toJson e.alerts), ("total_win_units", toJson e.units),
      ("winning_alerts", toJson e.wins), ("average_win", toJson e.average),
      ("win_rate", toJson e.rate)]
  ofJson? j := do
    let [alerts, units, wins, average, rate] ← j.fields?
      ["total_alerts", "total_win_units", "winning_alerts", "average_win", "win_rate"] | none
    return {
      alerts := ← ofJson? alerts
      units := ← ofJson? units
      wins := ← ofJson? wins
      average := ← ofJson? average
      rate := ← ofJson? rate }

def Snapshot.members (s : Snapshot Float) : List (String × Json) :=
  [("combinations", toJson s.combinations), ("dimensions", toJson s.values)]

instance : Stored (Snapshot Float) where
  toJson s := .ofMembers s.members
  ofJson? j := do
    let [combinations, values] ← j.fields? ["combinations", "dimensions"] | none
    return ⟨← ofJson? combinations, ← ofJson? values⟩

end VolumeWatch
