import VolumeWatch.Calendar.Timestamp
import VolumeWatch.Series.Basic
import VolumeWatch.Stored.Basic

/-!
Stored forms of contracts, bars, running statistics and extremes.
-/

namespace VolumeWatch

open Calendar (Instant)

instance : Stored Instant where
  toJson t := .ofText t.timestamp
  ofJson?
    | .text s => s.bind Instant.ofTimestamp?
    | _ => none

instance : Stored ContractId where
  toJson c := .ofNat c.id.toNat
  ofJson? j := (j.nat? (Nat.pow 2 32)).map fun n => ⟨n.toUInt32⟩

instance : Stored (ContractKind Float) where
  toJson
    | .underlying => .ofText "Underlying"
    | .option optionType strike => .ofVariant "Option"
      (.ofMembers [("option_type", toJson optionType), ("strike", toJson strike)])
  ofJson? j := do
    match ← j.variant? with
    | ("Underlying", content) => if Json.isUnit content then some .underlying else none
    | ("Option", some content) =>
      let [optionType, strike] ← content.fields? ["option_type", "strike"] | none
      return .option (← ofJson? optionType) (← ofJson? strike)
    | _ => none

def Bar.members (b : Bar Float) : List (String × Json) :=
  [("contract", toJson b.contract), ("timestamp", toJson b.timestamp),
    ("open", toJson b.opening), ("high", toJson b.high), ("low", toJson b.low),
    ("close", toJson b.close), ("volume", toJson b.volume)]

instance : Stored (Bar Float) where
  toJson b := .ofMembers b.members
  ofJson? j := do
    let [contract, timestamp, opening, high, low, close, volume] ←
      j.fields? ["contract", "timestamp", "open", "high", "low", "close", "volume"] | none
    return {
      contract := ← ofJson? contract
      timestamp := ← ofJson? timestamp
      opening := ← ofJson? opening
      high := ← ofJson? high
      low := ← ofJson? low
      close := ← ofJson? close
      volume := ← ofJson? volume }

instance : Stored (RunningStat Float) where
  toJson s := .ofMembers
    [("count", toJson s.count), ("mean", toJson s.mean), ("m2", toJson s.squares)]
  ofJson? j := do
    let [count, mean, squares] ← j.fields? ["count", "mean", "m2"] | none
    return ⟨← ofJson? count, ← ofJson? mean, ← ofJson? squares⟩

instance : Stored (Extremes Float) where
  toJson e := .ofMembers [("high", toJson e.high), ("low", toJson e.low)]
  ofJson? j := do
    let [high, low] ← j.fields? ["high", "low"] | none
    return ⟨← ofJson? high, ← ofJson? low⟩

instance : Stored Proximity where
  toJson p := .ofMembers
    [("near_daily_low", toJson p.nearDailyLow), ("near_daily_high", toJson p.nearDailyHigh),
      ("near_local_low", toJson p.nearLocalLow), ("near_local_high", toJson p.nearLocalHigh)]
  ofJson? j := do
    let [dailyLow, dailyHigh, localLow, localHigh] ←
      j.fields? ["near_daily_low", "near_daily_high", "near_local_low", "near_local_high"] | none
    return ⟨← ofJson? dailyLow, ← ofJson? dailyHigh, ← ofJson? localLow, ← ofJson? localHigh⟩

end VolumeWatch
