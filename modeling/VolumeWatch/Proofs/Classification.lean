import VolumeWatch.Proofs.Scalar.Exact
import VolumeWatch.Settings.Basic

/-!
What tags say of a bar (`Classifier.Classified`), and when a bar has tags at all
(`Classifier.exists_classify_iff`).
-/

namespace VolumeWatch

variable {α : Type} [Scalar α]

theorem ContractId.kind_of_ne {c underlying : ContractId} (h : c ≠ underlying) :
    (c.kind underlying : ContractKind α) = .option c.optionType (c.strike : α) := if_neg h

namespace Classifier

/-- Each tag of a bar is the category of its own measurement. The strike is that of the contract,
and the price that of the underlying. -/
structure Classified (c : Classifier α) (t : Timeframe) (b : Bar α) (option underlying : Series α)
    (strike price : α) (tags : Tags) : Prop where
  kind : b.contract.kind c.underlying = .option tags.optionType strike
  priced : underlying.price? = some price
  slot : (c.session.slot b.timestamp : Except (Fault α) SessionSlot) = .ok tags.timeOfDay
  timeframe : tags.timeframe = t
  moneyness : tags.moneyness = c.moneyness tags.optionType strike price
  volumeDeviation :
    tags.volumeDeviation = .ofDeviations ((option.tier t).volumes.deviations b.volume)
  volumeLevel : tags.volumeLevel = .ofVolume b.volume
  underlyingRange : tags.underlyingRange = .ofDeviations (lastRangeDeviation underlying t)
  optionRange : tags.optionRange = .ofDeviations ((option.tier t).ranges.deviations b.range)
  underlyingDaily : tags.underlyingDaily =
    .ofNear (underlying.compare price c.proximity).nearDailyLow
      (underlying.compare price c.proximity).nearDailyHigh
  underlyingLocal : tags.underlyingLocal =
    .ofNear (underlying.compare price c.proximity).nearLocalLow
      (underlying.compare price c.proximity).nearLocalHigh
  optionDaily : tags.optionDaily =
    .ofNear (option.compare b.close c.proximity).nearDailyLow
      (option.compare b.close c.proximity).nearDailyHigh
  optionLocal : tags.optionLocal =
    .ofNear (option.compare b.close c.proximity).nearLocalLow
      (option.compare b.close c.proximity).nearLocalHigh

variable {c : Classifier α} {t : Timeframe} {b : Bar α} {option underlying : Series α}

theorem classified_of_eq_ok {tags : Tags} (h : c.classify t b option underlying = .ok tags) :
    ∃ strike price, c.Classified t b option underlying strike price tags := by
  unfold classify at h
  cases hkind : (b.contract.kind c.underlying : ContractKind α) with
  | underlying =>
    rw [hkind] at h
    cases h
  | option optionType strike =>
    cases hprice : underlying.price? with
    | none =>
      rw [hkind, hprice] at h
      cases h
    | some price =>
      cases hslot : (c.session.slot b.timestamp : Except (Fault α) SessionSlot) with
      | error fault =>
        rw [hkind, hprice, hslot] at h
        cases h
      | ok slot =>
        rw [hkind, hprice, hslot] at h
        obtain rfl := Except.ok.inj h
        refine ⟨strike, price, hkind, hprice, hslot, ?_, ?_, ?_, ?_, ?_, ?_, ?_, ?_, ?_, ?_⟩ <;> rfl

/-- A bar has tags if its contract is an option, the underlying has a price and the bar starts
within the session. -/
theorem exists_classify_iff : (∃ tags, c.classify t b option underlying = .ok tags) ↔
    (∃ optionType strike, (b.contract.kind c.underlying : ContractKind α) =
      .option optionType strike) ∧
    underlying.price?.isSome ∧
    ∃ slot, (c.session.slot b.timestamp : Except (Fault α) SessionSlot) = .ok slot := by
  constructor
  · rintro ⟨tags, h⟩
    obtain ⟨strike, price, h⟩ := classified_of_eq_ok h
    exact ⟨⟨_, strike, h.kind⟩, by rw [h.priced]; rfl, ⟨_, h.slot⟩⟩
  · rintro ⟨⟨optionType, strike, hkind⟩, hprice, slot, hslot⟩
    obtain ⟨price, hprice⟩ := Option.isSome_iff_exists.mp hprice
    unfold classify
    rw [hkind, hprice, hslot]
    exact ⟨_, rfl⟩

end Classifier

section Exact

/-- The standard terms, with exact numbers. -/
noncomputable def exactTerms : Classifier ℝ := (Settings.standard : Settings ℝ).classifier

theorem proximity_exactTerms : exactTerms.proximity = 1 / 1000 := by
  norm_num [exactTerms, Settings.classifier, Settings.standard]

/-- A bar of an exact price in the first hour of a session. -/
def exactBar (c : ContractId) (price volume : ℝ) : Bar ℝ where
  contract := c
  timestamp := .ofMillis 1710252000000
  opening := price
  high := price
  low := price
  close := price
  volume := volume

theorem slot_exactBar (c : ContractId) (price volume : ℝ) :
    (exactTerms.session.slot (exactBar c price volume).timestamp : Except (Fault ℝ) SessionSlot) =
      .ok .slot1 := by
  have hsession : exactTerms.session = .regular := rfl
  have hslot : Session.regular.slotAt?
      (Session.regular.zone.clockTime (.ofMillis 1710252000000)) = some .slot1 := by decide +kernel
  have htime : (exactBar c price volume).timestamp = .ofMillis 1710252000000 := rfl
  rw [hsession, htime, Session.slot, hslot]
  rfl

end Exact

end VolumeWatch
