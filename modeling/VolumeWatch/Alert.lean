import VolumeWatch.Tag.Tags
import VolumeWatch.Bar

/-!
Alerts: bars with an unusual volume, together with their tags, that wait to be scored.
-/

namespace VolumeWatch

open Calendar (Instant)

structure Alert (α : Type) where
  contract : ContractId
  optionType : OptionType
  strike : α
  timeframe : Timeframe
  /-- The close of the bar. -/
  price : α
  /-- The end of the bar. -/
  reference : Instant
  tags : Tags
  /-- Milliseconds on the clock of the run. -/
  createdAt : Nat

namespace Alert

variable {α : Type}

/-- The alert for a bar. The end of the bar is taken to be an instant, so this is not about a bar in
the last five minutes before `Instant.last`. -/
def ofBar (t : Timeframe) (b : Bar α) (strike : α) (tags : Tags) (createdAt : Nat) : Alert α where
  contract := b.contract
  optionType := tags.optionType
  strike := strike
  timeframe := t
  price := b.close
  reference := b.timestamp.addSeconds t.seconds
  tags := tags
  createdAt := createdAt

/-- The start of the bar. -/
def barTime (a : Alert α) : Instant := a.reference.addSeconds (-a.timeframe.seconds)

end Alert

end VolumeWatch
