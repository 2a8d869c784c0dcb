import VolumeWatch.Proofs.Classification

/-!
Moneyness as a signed distance. With exact prices the category of an option counts the strikes
between it and the underlying, rounded up, with the side of the money as sign
(`Classifier.strikes_moneyness`). It turns around with the type of the option and with the exchange
of strike and price, and for a call it grows with the price (`Classifier.moneyness_signed`).
-/

namespace VolumeWatch

namespace OptionType

def other : OptionType → OptionType
  | .call => .put
  | .put => .call

/-- The price of the underlying is on the side of the strike on which the option has a worth. -/
def InTheMoney (optionType : OptionType) (strike price : ℝ) : Prop :=
  match optionType with
  | .call => strike < price
  | .put => price < strike

noncomputable instance (optionType : OptionType) (strike price : ℝ) :
    Decidable (optionType.InTheMoney strike price) :=
  match optionType with
  | .call => inferInstanceAs (Decidable (strike < price))
  | .put => inferInstanceAs (Decidable (price < strike))

end OptionType

namespace Moneyness

/-- Strikes from the money, above zero in the money and below zero out of it. The deep categories
stand for five strikes and more. -/
def strikes : Moneyness → ℤ
  | .deepItm => 5
  | .itm4 => 4
  | .itm3 => 3
  | .itm2 => 2
  | .itm1 => 1
  | .atm => 0
  | .otm1 => -1
  | .otm2 => -2
  | .otm3 => -3
  | .otm4 => -4
  | .deepOtm => -5

theorem strikes_injective : Function.Injective strikes := by
  intro m m' h
  cases m <;> cases m' <;> first | rfl | cases h

@[simp] theorem strikes_atm : strikes .atm = 0 := rfl

@[simp] theorem strikes_opposite (m : Moneyness) : m.opposite.strikes = -m.strikes := by
  cases m <;> rfl

theorem strikes_ofStrikes (inTheMoney : Bool) (n : ℕ) :
    (ofStrikes inTheMoney n).strikes = if inTheMoney then min (n : ℤ) 5 else -min (n : ℤ) 5 := by
  match n with
  | 0 | 1 | 2 | 3 | 4 => cases inTheMoney <;> rfl
  | n + 5 =>
    have hfive : min ((n + 5 : ℕ) : ℤ) 5 = 5 := by omega
    rw [hfive]
    cases inTheMoney <;> rfl

end Moneyness

namespace OptionType

variable {optionType : OptionType} {strike price : ℝ}

theorem not_inTheMoney_self : ¬ optionType.InTheMoney strike strike := by
  cases optionType <;> exact lt_irrefl strike

theorem inTheMoney_other_iff (h : price ≠ strike) :
    optionType.other.InTheMoney strike price ↔ ¬ optionType.InTheMoney strike price := by
  cases optionType with
  | call => simp [other, InTheMoney, h.le_iff_lt]
  | put => simp [other, InTheMoney, h.symm.le_iff_lt]

theorem inTheMoney_comm_iff (h : price ≠ strike) :
    optionType.InTheMoney price strike ↔ ¬ optionType.InTheMoney strike price := by
  cases optionType with
  | call => simp [InTheMoney, h.le_iff_lt]
  | put => simp [InTheMoney, h.symm.le_iff_lt]

end OptionType

namespace Classifier

open Moneyness (strikes_injective strikes_opposite)

variable {c : Classifier ℝ} {optionType : OptionType} {strike price : ℝ}

/-- Strikes from a strike to a price, rounded up. -/
noncomputable def distance (c : Classifier ℝ) (strike price : ℝ) : ℕ :=
  ⌈|price - strike| / c.strikeIncrement⌉₊

theorem distance_comm (c : Classifier ℝ) (strike price : ℝ) :
    c.distance price strike = c.distance strike price := by
  simp only [distance, abs_sub_comm]

@[simp] theorem distance_self (c : Classifier ℝ) (strike : ℝ) : c.distance strike strike = 0 := by
  simp [distance]

theorem distance_eq_zero_iff (hc : 0 < c.strikeIncrement) :
    c.distance strike price = 0 ↔ price = strike := by
  rw [distance, Nat.ceil_eq_zero, div_le_iff₀ hc, zero_mul, abs_nonpos_iff, sub_eq_zero]

/-- Whole numbers of strikes reach from the strike to the price from the rounded number on. -/
theorem isLeast_distance (hc : 0 < c.strikeIncrement) (strike price : ℝ) :
    IsLeast {n : ℤ | |price - strike| ≤ n * c.strikeIncrement} (c.distance strike price) := by
  have hreach (n : ℤ) : |price - strike| ≤ n * c.strikeIncrement ↔
      (c.distance strike price : ℤ) ≤ n := by
    rw [distance, Int.natCast_ceil_eq_ceil (by positivity), Int.ceil_le, div_le_iff₀ hc]
  exact ⟨(hreach _).mpr le_rfl, fun n hn => (hreach n).mp hn⟩

theorem distance_mono (hc : 0 < c.strikeIncrement) {price' : ℝ}
    (h : |price - strike| ≤ |price' - strike|) :
    c.distance strike price ≤ c.distance strike price' :=
  Nat.ceil_mono (div_le_div_of_nonneg_right h hc.le)

/-- The category counts the strikes up to five, so that the bound on what is rounded up does not
show. -/
theorem strikes_moneyness (c : Classifier ℝ) (optionType : OptionType) (strike price : ℝ) :
    (c.moneyness optionType strike price).strikes =
      if optionType.InTheMoney strike price then min (c.distance strike price : ℤ) 5
      else -min (c.distance strike price : ℤ) 5 := by
  have hmoneyness : c.moneyness optionType strike price =
      .ofStrikes (optionType.InTheMoney strike price) (c.distance strike price ⊓ (2 ^ 32 - 1)) := by
    cases optionType <;> rfl
  have hword : min ((min (c.distance strike price) (2 ^ 32 - 1) : ℕ) : ℤ) 5 =
      min (c.distance strike price : ℤ) 5 := by omega
  simp only [hmoneyness, Moneyness.strikes_ofStrikes, hword, decide_eq_true_eq]

theorem abs_strikes_moneyness (c : Classifier ℝ) (optionType : OptionType) (strike price : ℝ) :
    |(c.moneyness optionType strike price).strikes| = min (c.distance strike price : ℤ) 5 := by
  have hnonneg : 0 ≤ min (c.distance strike price : ℤ) 5 := by omega
  rw [strikes_moneyness]
  split
  · exact abs_of_nonneg hnonneg
  · rw [abs_neg, abs_of_nonneg hnonneg]

theorem moneyness_eq_atm_iff (hc : 0 < c.strikeIncrement) :
    c.moneyness optionType strike price = .atm ↔ price = strike := by
  have habs := c.abs_strikes_moneyness optionType strike price
  rw [← distance_eq_zero_iff hc, ← strikes_injective.eq_iff, Moneyness.strikes_atm, ← abs_eq_zero,
    habs]
  omega

theorem strikes_moneyness_pos_iff (hc : 0 < c.strikeIncrement) :
    0 < (c.moneyness optionType strike price).strikes ↔ optionType.InTheMoney strike price := by
  rw [strikes_moneyness]
  split
  · rename_i hside
    have hne : c.distance strike price ≠ 0 := by
      rw [Ne, distance_eq_zero_iff hc]
      rintro rfl
      exact OptionType.not_inTheMoney_self hside
    exact iff_of_true (by omega) hside
  · exact iff_of_false (by omega) ‹_›

/-- Options whose strike and price are as far apart, on different sides, have opposite
categories. -/
theorem moneyness_eq_opposite {optionType' : OptionType} {strike' price' : ℝ}
    (hdistance : c.distance strike' price' = c.distance strike price)
    (hside : price ≠ strike →
      (optionType'.InTheMoney strike' price' ↔ ¬ optionType.InTheMoney strike price)) :
    c.moneyness optionType' strike' price' = (c.moneyness optionType strike price).opposite := by
  apply strikes_injective
  rw [strikes_opposite, strikes_moneyness, strikes_moneyness, hdistance]
  by_cases h : price = strike
  · simp [h]
  · by_cases hin : optionType.InTheMoney strike price
    · rw [if_pos hin, if_neg fun hin' => (hside h).mp hin' hin]
    · rw [if_neg hin, if_pos ((hside h).mpr hin), neg_neg]

theorem moneyness_other (c : Classifier ℝ) (optionType : OptionType) (strike price : ℝ) :
    c.moneyness optionType.other strike price = (c.moneyness optionType strike price).opposite :=
  moneyness_eq_opposite rfl OptionType.inTheMoney_other_iff

theorem moneyness_swap (c : Classifier ℝ) (optionType : OptionType) (strike price : ℝ) :
    c.moneyness optionType price strike = (c.moneyness optionType strike price).opposite :=
  moneyness_eq_opposite (c.distance_comm strike price) OptionType.inTheMoney_comm_iff

/-- A call gets further into the money as the underlying rises. -/
theorem monotone_strikes_moneyness_call (hc : 0 < c.strikeIncrement) (strike : ℝ) :
    Monotone fun price => (c.moneyness .call strike price).strikes := by
  intro price price' hle
  have hside (p : ℝ) : OptionType.call.InTheMoney strike p ↔ strike < p := Iff.rfl
  simp only [strikes_moneyness]
  split_ifs with hin hin' hin' <;> simp only [hside, not_lt] at hin hin'
  · have hmono : c.distance strike price ≤ c.distance strike price' := by
      apply distance_mono hc
      rw [abs_of_pos (by linarith), abs_of_pos (by linarith)]
      linarith
    omega
  · linarith
  · omega
  · have hmono : c.distance strike price' ≤ c.distance strike price := by
      apply distance_mono hc
      rw [abs_of_nonpos (by linarith), abs_of_nonpos (by linarith)]
      linarith
    omega

/-- With exact prices, an option is at the money exactly if the price is its strike. Otherwise its
category counts the strikes that it takes to cover the distance, up to five, on the side of the
money that the price is on. The other type of option, and the exchange of strike and price, give the
opposite category, and a call gets further into the money as the price rises. -/
theorem moneyness_signed (c : Classifier ℝ) (hc : 0 < c.strikeIncrement) :
    (∀ (optionType : OptionType) (strike price : ℝ),
      let m := c.moneyness optionType strike price
      (m = .atm ↔ price = strike) ∧
      (0 < m.strikes ↔ optionType.InTheMoney strike price) ∧
      (∃ k : ℤ, IsLeast {n : ℤ | |price - strike| ≤ n * c.strikeIncrement} k ∧
        |m.strikes| = min k 5) ∧
      c.moneyness optionType.other strike price = m.opposite ∧
      c.moneyness optionType price strike = m.opposite) ∧
    ∀ strike : ℝ, Monotone fun price => (c.moneyness .call strike price).strikes :=
  ⟨fun optionType strike price => ⟨moneyness_eq_atm_iff hc, strikes_moneyness_pos_iff hc,
      ⟨c.distance strike price, isLeast_distance hc strike price,
        c.abs_strikes_moneyness optionType strike price⟩,
      c.moneyness_other optionType strike price, c.moneyness_swap optionType strike price⟩,
    monotone_strikes_moneyness_call hc⟩

/-- Twelve points are three strikes of five, in the money for a put above the price and out of it
for a call. -/
theorem moneyness_signed_twelve : 0 < exactTerms.strikeIncrement ∧
    exactTerms.moneyness .put 4500 4488 = .itm3 ∧ exactTerms.moneyness .call 4500 4488 = .otm3 := by
  have hfive : exactTerms.strikeIncrement = 5 := by
    norm_num [exactTerms, Settings.classifier, Settings.standard]
  have hc : 0 < exactTerms.strikeIncrement := by norm_num [hfive]
  obtain ⟨-, hside, ⟨k, hleast, habs⟩, hother, -⟩ :=
    (moneyness_signed exactTerms hc).1 .put 4500 4488
  have hthree : IsLeast {n : ℤ | |(4488 : ℝ) - 4500| ≤ n * exactTerms.strikeIncrement} 3 := by
    rw [hfive]
    constructor
    · norm_num
    · intro n hn
      have hreal : (2 : ℝ) < n := by
        norm_num at hn
        linarith
      exact_mod_cast hreal
  obtain rfl := hleast.unique hthree
  have hpos := hside.mpr (by norm_num [OptionType.InTheMoney])
  have hput : exactTerms.moneyness .put 4500 4488 = .itm3 := by
    apply strikes_injective
    rw [abs_of_pos hpos] at habs
    exact habs
  exact ⟨hc, hput, hother.trans (congrArg Moneyness.opposite hput)⟩

end Classifier

end VolumeWatch
