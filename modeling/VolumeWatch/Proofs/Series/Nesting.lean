import VolumeWatch.Proofs.Classification
import VolumeWatch.Proofs.Series.Extremes

/-!
Nearness to the extremes of the day and of the window. The bars of the window are bars of the day,
so that the range of the window lies within that of the day (`Series.local_within_daily`), and a
price that is near an extreme of the day is near that of the window
(`Series.daily_near_local_near`).

What is near is told by products, so that the latter holds for exact numbers and shares up to one.
-/

namespace VolumeWatch

open Scalar (Ordered isNaN)

variable {α : Type} [Scalar α]

namespace Extremes

/-- The range between extremes lies within that between others. -/
def Within (inner outer : Extremes α) : Prop := outer.low ≤ inner.low ∧ inner.high ≤ outer.high

theorem Covers.within [Ordered α] {inner outer : Extremes α} {part all : List (Bar α)}
    (h : inner.Covers part) (h' : outer.Covers all) (hsub : part ⊆ all) : inner.Within outer := by
  constructor
  · obtain ⟨b, hb, hlow⟩ := h.low_mem
    exact hlow ▸ h'.low_le b (hsub hb)
  · have hnum := (Ordered.isNaN_of_le h.zero_le_high).2
    rcases h.high_mem with hzero | ⟨b, hb, hhigh⟩
    · exact hzero ▸ h'.zero_le_high
    · rw [← hhigh] at hnum ⊢
      exact h'.le_high b (hsub hb) hnum

namespace Within

variable {inner outer : Extremes ℝ} {price proximity : ℝ}

theorem isNearLow (h : inner.Within outer) (hp : 0 ≤ proximity)
    (hnear : outer.isNearLow price proximity = true) : inner.isNearLow price proximity = true := by
  simp only [Extremes.isNearLow, decide_eq_true_eq, Nat.cast_one] at hnear ⊢
  exact hnear.trans (mul_le_mul_of_nonneg_right h.1 (by linarith))

theorem isNearHigh (h : inner.Within outer) (hp : proximity ≤ 1)
    (hnear : outer.isNearHigh price proximity = true) :
    inner.isNearHigh price proximity = true := by
  simp only [Extremes.isNearHigh, decide_eq_true_eq, Nat.cast_one] at hnear ⊢
  exact (mul_le_mul_of_nonneg_right h.2 (by linarith)).trans hnear

end Within

end Extremes

namespace Series

/-- A series after some bars of five seconds. -/
def Reachable (s : Series α) : Prop :=
  ∃ c isUnderlying feed, s = (empty c isUnderlying).ingestAll feed

theorem local_within_daily [Ordered α] {s : Series α} (hs : s.Reachable) {l : Extremes α}
    (hl : s.local? = some l) : ∃ d, s.daily = some d ∧ l.Within d := by
  obtain ⟨c, isUnderlying, feed, rfl⟩ := hs
  have hcovers := covers_local hl
  cases hd : ((empty c isUnderlying).ingestAll feed).daily with
  | none =>
    -- without bars there is no window either
    rw [daily_ofFeed, Extremes.ofBars?_eq_none_iff] at hd
    subst hd
    cases hl
  | some d =>
    exact ⟨d, rfl, hcovers.within (covers_daily hd) fun b hb =>
      List.mem_of_mem_drop (List.mem_of_mem_take hb)⟩

/-- With a complete window, what is near an extreme of the day is near that of the window. -/
theorem Reachable.near {s : Series ℝ} (hs : s.Reachable) (hl : s.local?.isSome)
    {proximity : ℝ} (h0 : 0 ≤ proximity) (h1 : proximity ≤ 1) (price : ℝ) :
    ((s.compare price proximity).nearDailyLow = true →
      (s.compare price proximity).nearLocalLow = true) ∧
    ((s.compare price proximity).nearDailyHigh = true →
      (s.compare price proximity).nearLocalHigh = true) := by
  obtain ⟨l, hl⟩ := Option.isSome_iff_exists.mp hl
  obtain ⟨d, hd, hwithin⟩ := local_within_daily hs hl
  rw [compare, hd, hl]
  exact ⟨hwithin.isNearLow h0, hwithin.isNearHigh h1⟩

end Series

section Categories

variable {low high low' high' : Bool}

theorem ofNear_nearLow (hlow : low = true → low' = true)
    (h : DailyExtreme.ofNear low high = .nearLow) : LocalExtreme.ofNear low' high' = .nearLow := by
  cases low with
  | true => rw [hlow rfl, LocalExtreme.ofNear, if_pos rfl]
  | false => cases high <;> cases h

/-- A price near the low counts as that, so near the high of the day it may be either. -/
theorem ofNear_ne_inside (hhigh : high = true → high' = true)
    (h : DailyExtreme.ofNear low high = .nearHigh) : LocalExtreme.ofNear low' high' ≠ .inside := by
  cases high with
  | true => cases low' <;> simp [LocalExtreme.ofNear, hhigh rfl]
  | false => cases low <;> cases h

end Categories

/-- The range of the last complete window lies within that of the day. With exact numbers and a
share up to one, a price near an extreme of the day is therefore near that of the window, and so
the tags of nearness to both agree: a bar near the low of the day is near that of the window, and
a bar near the high of the day is not inside the window. -/
theorem Series.daily_near_local_near :
    (∀ {α : Type} [Scalar α] [Ordered α] (s : Series α), s.Reachable →
      ∀ l, s.local? = some l → ∃ d, s.daily = some d ∧ l.Within d) ∧
    (∀ s : Series ℝ, s.Reachable → s.local?.isSome →
      ∀ price proximity : ℝ, 0 ≤ proximity → proximity ≤ 1 →
        ((s.compare price proximity).nearDailyLow = true →
          (s.compare price proximity).nearLocalLow = true) ∧
        ((s.compare price proximity).nearDailyHigh = true →
          (s.compare price proximity).nearLocalHigh = true)) ∧
    ∀ c : Classifier ℝ, 0 ≤ c.proximity → c.proximity ≤ 1 →
      ∀ (t : Timeframe) (b : Bar ℝ) (option underlying : Series ℝ) (tags : Tags),
        option.Reachable → underlying.Reachable →
        c.classify t b option underlying = .ok tags →
        (option.local?.isSome →
          (tags.optionDaily = .nearLow → tags.optionLocal = .nearLow) ∧
          (tags.optionDaily = .nearHigh → tags.optionLocal ≠ .inside)) ∧
        (underlying.local?.isSome →
          (tags.underlyingDaily = .nearLow → tags.underlyingLocal = .nearLow) ∧
          (tags.underlyingDaily = .nearHigh → tags.underlyingLocal ≠ .inside)) := by
  refine ⟨fun s hs l hl => local_within_daily hs hl,
    fun s hs hl price proximity h0 h1 => hs.near hl h0 h1 price,
    fun c h0 h1 t b option underlying tags hoption hunderlying htags => ?_⟩
  obtain ⟨strike, price, h⟩ := Classifier.classified_of_eq_ok htags
  rw [h.optionDaily, h.optionLocal, h.underlyingDaily, h.underlyingLocal]
  constructor
  · intro hl
    obtain ⟨hlow, hhigh⟩ := hoption.near hl h0 h1 b.close
    exact ⟨ofNear_nearLow hlow, ofNear_ne_inside hhigh⟩
  · intro hl
    obtain ⟨hlow, hhigh⟩ := hunderlying.near hl h0 h1 price
    exact ⟨ofNear_nearLow hlow, ofNear_ne_inside hhigh⟩

section Level

/-- One window of bars of one price. -/
noncomputable def levelSeries (c : ContractId) (isUnderlying : Bool) : Series ℝ :=
  (Series.empty c isUnderlying).ingestAll (List.replicate 360 (exactBar c 1 1))

theorem reachable_levelSeries (c : ContractId) (isUnderlying : Bool) :
    (levelSeries c isUnderlying).Reachable := ⟨c, isUnderlying, _, rfl⟩

theorem isSome_local_levelSeries (c : ContractId) (isUnderlying : Bool) :
    (levelSeries c isUnderlying).local?.isSome := by
  rw [Option.isSome_iff_ne_none, ne_eq, levelSeries, Series.local?_eq_none_iff,
    List.length_replicate]
  decide

theorem nearDailyLow_levelSeries (c : ContractId) (isUnderlying : Bool) :
    ((levelSeries c isUnderlying).compare 1 exactTerms.proximity).nearDailyLow = true := by
  obtain ⟨l, hl⟩ := Option.isSome_iff_exists.mp (isSome_local_levelSeries c isUnderlying)
  obtain ⟨d, hd, -⟩ := Series.local_within_daily (reachable_levelSeries c isUnderlying) hl
  obtain ⟨b, hb, hlow⟩ := (Series.covers_daily hd).low_mem
  obtain ⟨-, rfl⟩ := List.mem_replicate.mp hb
  have hlow : 1 = d.low := hlow
  rw [Series.compare, hd, Option.any_some, Extremes.isNearLow, ← hlow, proximity_exactTerms]
  norm_num

theorem Series.daily_near_local_near_level : ∃ tags,
    exactTerms.classify .m5 (exactBar ⟨4500⟩ 1 1) (levelSeries ⟨4500⟩ false)
      (levelSeries ⟨0⟩ true) = .ok tags ∧
    tags.optionDaily = .nearLow ∧ tags.optionLocal = .nearLow ∧
    tags.underlyingDaily = .nearLow ∧ tags.underlyingLocal = .nearLow := by
  have hprice : (levelSeries ⟨0⟩ true).price? = some 1 := by
    rw [levelSeries, Series.price?_ofFeed, List.getLast?_replicate, if_neg (by decide)]
    rfl
  obtain ⟨tags, htags⟩ : ∃ tags, exactTerms.classify .m5 (exactBar ⟨4500⟩ 1 1)
      (levelSeries ⟨4500⟩ false) (levelSeries ⟨0⟩ true) = .ok tags :=
    Classifier.exists_classify_iff.mpr
      ⟨⟨_, _, ContractId.kind_of_ne (by decide)⟩, by rw [hprice]; rfl, .slot1,
        slot_exactBar ⟨4500⟩ 1 1⟩
  obtain ⟨hoption, hunderlying⟩ := Series.daily_near_local_near.2.2 exactTerms
    (by norm_num [proximity_exactTerms]) (by norm_num [proximity_exactTerms]) _ _ _ _ tags
    (reachable_levelSeries ⟨4500⟩ false) (reachable_levelSeries ⟨0⟩ true) htags
  obtain ⟨strike, price, h⟩ := Classifier.classified_of_eq_ok htags
  obtain rfl : 1 = price := Option.some.inj (hprice.symm.trans h.priced)
  have hdaily : tags.optionDaily = .nearLow :=
    h.optionDaily.trans (if_pos (nearDailyLow_levelSeries ⟨4500⟩ false))
  have hdaily' : tags.underlyingDaily = .nearLow :=
    h.underlyingDaily.trans (if_pos (nearDailyLow_levelSeries ⟨0⟩ true))
  exact ⟨tags, htags, hdaily, (hoption (isSome_local_levelSeries ⟨4500⟩ false)).1 hdaily, hdaily',
    (hunderlying (isSome_local_levelSeries ⟨0⟩ true)).1 hdaily'⟩

end Level

end VolumeWatch
