import VolumeWatch.Series.Basic
import VolumeWatch.Session
import VolumeWatch.Tag.Tags

/-!
Classification: the tags of a bar of an option, from the series of the option and of the
underlying and from the clock.
-/

namespace VolumeWatch

/-- What classification depends on apart from the series. -/
structure Classifier (α : Type) where
  session : Session
  underlying : ContractId
  /-- Distance between neighbouring strikes. -/
  strikeIncrement : α
  /-- Share of an extreme that a price may differ from it and still be near. -/
  proximity : α

namespace Classifier

variable {α : Type} [Scalar α]

/-- Strikes between an option and the underlying, rounded up, on the side that they are on. -/
def moneyness (c : Classifier α) (optionType : OptionType) (strike price : α) : Moneyness :=
  let strikes := Scalar.ceiling (Scalar.abs (price - strike) / c.strikeIncrement)
  let inTheMoney : Bool :=
    match optionType with
    | .call => strike < price
    | .put => price < strike
  .ofStrikes inTheMoney strikes

/-- Deviation of the range of the last bar of a timeframe, zero where there is none. -/
def lastRangeDeviation (s : Series α) (t : Timeframe) : α :=
  match s.last? t with
  | none => 0
  | some last => (s.tier t).ranges.deviations last.range

/-- The tags of a bar of an option. -/
def classify (c : Classifier α) (t : Timeframe) (b : Bar α) (option underlying : Series α) :
    Except (Fault α) Tags := do
  let .option optionType strike := b.contract.kind c.underlying
    | throw (.notAnOption b.contract)
  let some price := underlying.price?
    | throw (.underlyingUnavailable underlying.contract)
  let slot ← c.session.slot b.timestamp
  let underlyingNear := underlying.compare price c.proximity
  let optionNear := option.compare b.close c.proximity
  return {
    optionType
    timeframe := t
    moneyness := c.moneyness optionType strike price
    timeOfDay := slot
    volumeDeviation := .ofDeviations ((option.tier t).volumes.deviations b.volume)
    volumeLevel := .ofVolume b.volume
    underlyingRange := .ofDeviations (lastRangeDeviation underlying t)
    optionRange := .ofDeviations ((option.tier t).ranges.deviations b.range)
    underlyingDaily := .ofNear underlyingNear.nearDailyLow underlyingNear.nearDailyHigh
    underlyingLocal := .ofNear underlyingNear.nearLocalLow underlyingNear.nearLocalHigh
    optionDaily := .ofNear optionNear.nearDailyLow optionNear.nearDailyHigh
    optionLocal := .ofNear optionNear.nearLocalLow optionNear.nearLocalHigh }

end Classifier

end VolumeWatch
