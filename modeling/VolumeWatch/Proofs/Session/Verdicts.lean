import VolumeWatch.Proofs.Classification
import VolumeWatch.Proofs.Session.Hours

/-!
What classification answers for a bar (`Classifier.Verdict`): its contract is looked at first, then
the underlying, then the session. A session that is accepted gives all of its times a slot exactly
if it fits its slots (`Session.contains_agrees_iff_fits`), which it does unless it ends a fraction
of a second after them.
-/

namespace VolumeWatch

open Calendar (ClockTime Instant Zone Zones)

theorem Series.price?_eq_none_iff {α : Type} {s : Series α} :
    s.price? = none ↔ s.bars .s5 = #[] := by
  simp [Series.price?, Series.last?, Tier.last?, Series.bars]

variable {α : Type} [Scalar α]

namespace Classifier

/-- What a bar is answered with, by whether it starts within the session. -/
structure Verdict (c : Classifier α) (b : Bar α) (underlying : Series α) (inSession : Prop)
    (answer : Except (Fault α) Tags) : Prop where
  notAnOption : answer = .error (.notAnOption b.contract) ↔ b.contract = c.underlying
  unavailable : b.contract ≠ c.underlying →
    (answer = .error (.underlyingUnavailable underlying.contract) ↔ underlying.bars .s5 = #[])
  outside : b.contract ≠ c.underlying → underlying.bars .s5 ≠ #[] →
    (answer = .error (.outsideSession b.timestamp) ↔ ¬ inSession)
  tagged : b.contract ≠ c.underlying → underlying.bars .s5 ≠ #[] → inSession →
    ∃ tags, answer = .ok tags

section Answers

variable {c : Classifier α} {b : Bar α} {underlying : Series α}

theorem classify_of_eq (h : b.contract = c.underlying) (t : Timeframe)
    (option underlying : Series α) :
    c.classify t b option underlying = .error (.notAnOption b.contract) := by
  have hkind : (b.contract.kind c.underlying : ContractKind α) = .underlying := if_pos h
  unfold classify
  rw [hkind]
  rfl

theorem classify_of_unpriced (h : b.contract ≠ c.underlying) (hnone : underlying.bars .s5 = #[])
    (t : Timeframe) (option : Series α) : c.classify t b option underlying =
      .error (.underlyingUnavailable underlying.contract) := by
  unfold classify
  rw [ContractId.kind_of_ne h, Series.price?_eq_none_iff.mpr hnone]
  rfl

theorem classify_of_outside (h : b.contract ≠ c.underlying) (hsome : underlying.bars .s5 ≠ #[])
    (hslot : c.session.slotAt? (c.session.zone.clockTime b.timestamp) = none) (t : Timeframe)
    (option : Series α) :
    c.classify t b option underlying = .error (.outsideSession b.timestamp) := by
  obtain ⟨price, hprice⟩ := Option.ne_none_iff_exists'.mp (mt Series.price?_eq_none_iff.mp hsome)
  unfold classify
  rw [ContractId.kind_of_ne h, hprice, Session.slot, hslot]
  rfl

theorem exists_classify_of_slot (h : b.contract ≠ c.underlying) (hsome : underlying.bars .s5 ≠ #[])
    {slot : SessionSlot}
    (hslot : c.session.slotAt? (c.session.zone.clockTime b.timestamp) = some slot) (t : Timeframe)
    (option : Series α) : ∃ tags, c.classify t b option underlying = .ok tags := by
  refine exists_classify_iff.mpr ⟨⟨_, _, ContractId.kind_of_ne h⟩, ?priced, slot, ?slot⟩
  case priced =>
    rw [Option.isSome_iff_ne_none]
    exact mt Series.price?_eq_none_iff.mp hsome
  case slot =>
    rw [Session.slot, hslot]
    rfl

end Answers

/-- A bar is answered by the first of contract, underlying and session that refuses it. -/
theorem verdict_classify (c : Classifier α) (t : Timeframe) (b : Bar α)
    (option underlying : Series α) {inSession : Prop}
    (hslot : (c.session.slotAt? (c.session.zone.clockTime b.timestamp)).isSome ↔ inSession) :
    c.Verdict b underlying inSession (c.classify t b option underlying) := by
  by_cases hcontract : b.contract = c.underlying
  · have hanswer := classify_of_eq hcontract t option underlying
    exact ⟨iff_of_true hanswer hcontract, absurd hcontract, absurd hcontract, absurd hcontract⟩
  by_cases hprice : underlying.bars .s5 = #[]
  · rw [classify_of_unpriced hcontract hprice t option]
    exact ⟨iff_of_false nofun hcontract, fun _ => iff_of_true rfl hprice, fun _ => absurd hprice,
      fun _ => absurd hprice⟩
  cases hat : c.session.slotAt? (c.session.zone.clockTime b.timestamp) with
  | none =>
    have hout : ¬ inSession := by simpa [hat] using hslot
    rw [classify_of_outside hcontract hprice hat t option]
    exact ⟨iff_of_false nofun hcontract, fun _ => iff_of_false nofun hprice,
      fun _ _ => iff_of_true rfl hout, fun _ _ hin => absurd hin hout⟩
  | some slot =>
    have hin : inSession := by simpa [hat] using hslot
    obtain ⟨tags, hanswer⟩ := exists_classify_of_slot hcontract hprice hat t option
    rw [hanswer]
    exact ⟨iff_of_false nofun hcontract, fun _ => iff_of_false nofun hprice,
      fun _ _ => iff_of_false nofun (not_not.mpr hin), fun _ _ _ => ⟨tags, rfl⟩⟩

end Classifier

namespace Session

theorem exists_slot_iff {β : Type} {s : Session} {t : Instant} :
    (∃ slot, (s.slot t : Except (Fault β) SessionSlot) = .ok slot) ↔
      (s.slotAt? (s.zone.clockTime t)).isSome := by
  unfold slot
  cases s.slotAt? (s.zone.clockTime t) with
  | none => exact iff_of_false nofun nofun
  | some slot => exact iff_of_true ⟨slot, rfl⟩ rfl

/-- In a session that is accepted, a time has a slot exactly if it lies within the session and in
the hour that the slot stands for. The session gives a slot to all of its times exactly if it fits
its slots, which it does if it lasts for whole seconds. A bar is refused for its contract, else for
an underlying without bars, else for a start that is not within the session or comes after its
slots, and has tags otherwise. Sessions that are given as text fit. -/
theorem contains_agrees_iff_fits {zone : Zone} {opening closing : ClockTime} {s : Session}
    (ho : opening.IsPlain) (hs : closing.IsPlain) (h : ofHours zone opening closing = .ok s) :
    (∀ (c : ClockTime) (slot : SessionSlot), c.IsPlain →
      (s.slotAt? c = some slot ↔ s.containsClock c ∧ s.InHour (Category.ordinal slot) c)) ∧
    ((∀ c : ClockTime, c.IsPlain → (s.containsClock c ↔ (s.slotAt? c).isSome)) ↔ s.Fits) ∧
    (s.Fits → ∀ t : Instant, t.nanos < 1000000000 →
      (s.contains t ↔ ∃ slot, (s.slot t : Except (Fault Float) SessionSlot) = .ok slot)) ∧
    (opening.nanos = closing.nanos → s.Fits) ∧
    (∀ (zones : Zones) (zoneName openingText closingText : String),
      ofText zones zoneName openingText closingText = .ok s → s.Fits) ∧
    ∀ {α : Type} [Scalar α] (c : Classifier α) (t : Timeframe) (b : Bar α)
      (option underlying : Series α), c.session = s → b.timestamp.nanos < 1000000000 →
        c.Verdict b underlying (s.contains b.timestamp ∧
          (s.zone.clockTime b.timestamp).sinceMidnight < s.opening.sinceMidnight + slotsNanos)
          (c.classify t b option underlying) ∧
        (s.Fits → c.Verdict b underlying (s.contains b.timestamp)
          (c.classify t b option underlying)) := by
  have hnanos := fits_of_ofHours h
  obtain ⟨rfl, -, -⟩ := ofHours_eq_ok_iff.mp h
  refine ⟨fun c slot hc => slotAt?_eq_some_iff ho hs hc, ⟨fun hall => ?_, fun hfits c hc => ?_⟩,
    fun hfits t ht => ?instants, hnanos, fun _ _ _ _ => fits_of_ofText, ?classified⟩
  · exact fits_of_forall ho hs fun c hc => (hall c hc).mp
  · exact (hfits.isSome_slotAt?_iff ho hs hc).symm
  case instants =>
    have hplain : (zone.clockTime t).IsPlain := ht
    exact (hfits.isSome_slotAt?_iff ho hs hplain).symm.trans exists_slot_iff.symm
  case classified =>
    rintro α _ c t b option underlying hsession htime
    have hplain : (zone.clockTime b.timestamp).IsPlain := htime
    refine ⟨c.verdict_classify t b option underlying ?_, fun hfits =>
      c.verdict_classify t b option underlying ?_⟩
    · rw [hsession]
      exact isSome_slotAt?_iff ho hs hplain
    · rw [hsession]
      exact hfits.isSome_slotAt?_iff ho hs hplain

section SevenHours

/-- The session from nine to four and some nanoseconds. -/
def pastSevenHours (nanos : Nat) : Session := ⟨.fixed "UTC" 0, .ofParts 9 0 0, ⟨57600, nanos⟩⟩

/-- A session of exactly seven hours has all slots, the last one up to its end. -/
theorem contains_agrees_iff_fits_sevenHours :
    ofHours (.fixed "UTC" 0) (.ofParts 9 0 0) ⟨57600, 0⟩ = .ok (pastSevenHours 0) ∧
      (pastSevenHours 0).Fits ∧ (pastSevenHours 0).slotAt? ⟨57599, 999999999⟩ = some .slot7 := by
  have hok : ofHours (.fixed "UTC" 0) (.ofParts 9 0 0) ⟨57600, 0⟩ = .ok (pastSevenHours 0) :=
    ofHours_eq_ok_iff.mpr ⟨rfl, by decide, by decide⟩
  obtain ⟨hslot, -, -, hfits, -⟩ := contains_agrees_iff_fits (by decide) (by decide) hok
  exact ⟨hok, hfits rfl,
    (hslot ⟨57599, 999999999⟩ .slot7 (by decide)).mpr ⟨by decide, ⟨by decide, by decide⟩⟩⟩

/-- A session that lasts half a second longer is accepted too, and has no slot for that time. -/
theorem not_contains_agrees_pastSevenHours :
    ¬ ∀ (zone : Zone) (opening closing : ClockTime) (s : Session),
        ofHours zone opening closing = .ok s → ∀ t : Instant, t.nanos < 1000000000 →
          (s.contains t ↔ ∃ slot, (s.slot t : Except (Fault Float) SessionSlot) = .ok slot) := by
  intro hall
  have hok : ofHours (.fixed "UTC" 0) (.ofParts 9 0 0) ⟨57600, 500000000⟩ =
      .ok (pastSevenHours 500000000) := ofHours_eq_ok_iff.mpr ⟨rfl, by decide, by decide⟩
  have hcontains : (pastSevenHours 500000000).contains (.ofMillis 1710259200200) := by
    decide +kernel
  obtain ⟨slot, hslot⟩ := (hall _ _ _ _ hok (.ofMillis 1710259200200) (by decide)).mp hcontains
  have hnone : (pastSevenHours 500000000).slotAt? ((pastSevenHours 500000000).zone.clockTime
      (.ofMillis 1710259200200)) = none := by decide +kernel
  rw [Session.slot, hnone] at hslot
  cases hslot

end SevenHours

end Session

end VolumeWatch
