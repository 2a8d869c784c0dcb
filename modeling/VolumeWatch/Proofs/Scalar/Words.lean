import VolumeWatch.Proofs.Scalar.Sums

/-!
Whole numbers as binary numbers. A whole number below `2 ^ 53` is stored as it is
(`Scalar.holds_natCast`), so that a word of 32 bits is read back from its binary number
(`Scalar.toUInt32_natCast`). `Scalar.KeepsWords` is what binary numbers and real numbers have in
common here.
-/

namespace VolumeWatch

namespace Binary

open Float.Model (UnpackedFloat Format)
open Float.Model.UnpackedFloat

/-- Whole numbers with at most 53 binary places are not rounded. -/
theorem rounded_of_lt {n : ℕ} (h : n < 2 ^ 53) (k : ℕ) : rounded (n * 2 ^ k) = n * 2 ^ k := by
  rcases Nat.eq_zero_or_pos n with rfl | hn
  · rw [Nat.zero_mul, rounded_zero]
  have hlog : n.log2 < 53 := (Nat.log2_lt hn.ne').mpr h
  obtain ⟨e, he⟩ : ∃ e, e = excess (n * 2 ^ k) := ⟨_, rfl⟩
  have hle : e ≤ k := by
    rw [he, excess, log2_mul_two_pow hn]
    omega
  have hsplit : n * 2 ^ k = n * 2 ^ (k - e) * 2 ^ e := by
    rw [Nat.mul_assoc, ← Nat.pow_add, Nat.sub_add_cancel hle]
  rw [rounded, ← he]
  conv_lhs => rw [hsplit, nearest_mul _ (Nat.two_pow_pos e)]
  exact hsplit.symm

/-- One in units of the least positive number. -/
def unity : ℕ := 2 ^ 1074

theorem unity_pos : 0 < unity := by
  unfold unity
  positivity

theorem exists_unity : ∃ k, k = 1074 ∧ unity = 2 ^ k := ⟨_, rfl, rfl⟩

theorem mul_unity_lt_overflow {n : ℕ} (h : n < 2 ^ 53) : n * unity < overflow := by
  obtain ⟨k, hk, hunity⟩ := exists_unity
  calc
    n * unity < 2 ^ 53 * unity := Nat.mul_lt_mul_of_pos_right h unity_pos
    _ = 2 ^ 53 * 2 ^ k := congrArg _ hunity
    _ ≤ 2 ^ (2098 - k) * 2 ^ k :=
      Nat.mul_le_mul_right _ (Nat.pow_le_pow_right (by decide) (by omega))
    _ = overflow := (overflow_eq k (by omega)).symm

/-- A stored number is the whole number `n`. -/
structure Holds (a : UnpackedFloat) (n : ℕ) : Prop where
  stored : IsStored a
  isNaN : a.isNaN = false
  units : units a = (n * unity : ℕ)

/-- What counts the units of a whole number is stored as this number. -/
theorem Counts.holds {a : UnpackedFloat} {n : ℕ} (h : Counts a (n * unity : ℕ))
    (hn : n < 2 ^ 53) : Holds (stored a) n := by
  refine ⟨isStored_unpack _, h.isNaN, h.units.trans ?_⟩
  have hlt := mul_unity_lt_overflow hn
  unfold clamped
  omega

/-- A stored whole number is zero or has a positive mantissa. -/
theorem Holds.cases {a : UnpackedFloat} {n : ℕ} (h : Holds a n) (hn : n < 2 ^ 53) :
    (∃ s, a = .zero s) ∧ n = 0 ∨
      ∃ m j, ∃ hm : 0 < m, a = .finite .positive m ((j : ℕ) - 1074) hm ∧ Canonical m j ∧
        m * 2 ^ j = n * unity := by
  have hunits := h.units
  have hlt := mul_unity_lt_overflow hn
  rcases h.stored with (_ | _) | _ | s | @⟨(_ | _), m, j, e, hm, hc, hpositive, rfl⟩
  case infinity.positive =>
    have hvalue : (overflow : ℤ) = (n * unity : ℕ) := hunits
    omega
  case infinity.negative =>
    have hvalue : -(overflow : ℤ) = (n * unity : ℕ) := hunits
    omega
  case notANumber => cases h.isNaN
  case zero =>
    have hvalue : (0 : ℤ) = (n * unity : ℕ) := hunits
    have hzero : n * unity = 0 := by omega
    exact Or.inl ⟨⟨s, rfl⟩, (Nat.mul_eq_zero.mp hzero).resolve_right unity_pos.ne'⟩
  case finite.negative =>
    have hvalue : -((m * 2 ^ j : ℕ) : ℤ) = (n * unity : ℕ) :=
      (units_finite _ hm j).symm.trans hunits
    omega
  case finite.positive =>
    have hvalue : ((m * 2 ^ j : ℕ) : ℤ) = (n * unity : ℕ) :=
      (units_finite _ hm j).symm.trans hunits
    exact Or.inr ⟨m, j, hm, rfl, hc, Int.ofNat_inj.mp hvalue⟩

/-- Of a number that is at least one, no place is below `2 ^ -52`. -/
theorem le_exponent {m j n : ℕ} (h : Canonical m j) (hn : 0 < n) (heq : m * 2 ^ j = n * unity) :
    1022 ≤ j := by
  obtain ⟨k, hk, hunity⟩ := exists_unity
  have hlt : 2 ^ k < 2 ^ (53 + j) := by
    calc
      2 ^ k = 1 * unity := by rw [hunity, Nat.one_mul]
      _ ≤ n * unity := Nat.mul_le_mul_right _ hn
      _ = m * 2 ^ j := heq.symm
      _ < 2 ^ 53 * 2 ^ j := Nat.mul_lt_mul_of_pos_right h.lt (Nat.two_pow_pos j)
      _ = 2 ^ (53 + j) := (Nat.pow_add 2 53 j).symm
  have := (Nat.pow_lt_pow_iff_right (by decide)).mp hlt
  omega

/-- The number one, as it is stored. -/
def one : UnpackedFloat := .finite .positive (2 ^ 52) (-52) (Nat.two_pow_pos 52)

/-- A whole number times one is the same whole number. -/
theorem Holds.mul_one {a : UnpackedFloat} {n : ℕ} (h : Holds a n) (hn : n < 2 ^ 53) :
    Holds (Binary.stored (mul .binary64 a one)) n := by
  rcases h.cases hn with ⟨⟨s, rfl⟩, rfl⟩ | ⟨m, j, hm, rfl, hc, heq⟩
  -- of a positive number, the product has 52 more places, which are shifted out again
  · have hmul : mul .binary64 (.zero s) one = .zero (s * .positive) := rfl
    have hunits : ((0 * unity : ℕ) : ℤ) = 0 := by rw [Nat.zero_mul, Nat.cast_zero]
    refine Counts.holds ?_ hn
    rw [hmul, hunits]
    exact counts_zero _
  · have hpos : 0 < n := by
      have : 0 < n * unity := heq ▸ Nat.mul_pos hm (Nat.two_pow_pos j)
      exact Nat.pos_of_mul_pos_right this
    have hj := le_exponent hc hpos heq
    have hshift : m * 2 ^ 52 * 2 ^ (j - 52) = m * 2 ^ j := by
      rw [Nat.mul_assoc, ← Nat.pow_add, Nat.add_sub_cancel' (by omega)]
    have hexponent : (j : ℤ) - 1074 + -52 = (j - 52 : ℕ) - 1074 := by omega
    have hmul : mul .binary64 (.finite .positive m (j - 1074) hm) one =
        roundWithAccuracy .binary64 .positive (m * 2 ^ 52) ((j : ℤ) - 1074 + -52) .exact := rfl
    have hround := roundWithAccuracy_eq .positive (m := m * 2 ^ 52) (j := j - 52)
      (Nat.mul_pos hm (Nat.two_pow_pos 52)) (by rw [hshift, hc.excess_eq]; omega)
    rw [hshift, hc.rounded, heq] at hround
    obtain ⟨m', j', hm', hcanonical, hvalue, hresult⟩ := hround
    rw [hmul, hexponent, hresult]
    refine Counts.holds ?_ hn
    rw [← hvalue]
    exact counts_finite .positive hcanonical hm'

theorem holds_normalize {n : ℕ} (hn : n < 2 ^ 53) :
    Holds (Binary.stored (UnpackedFloat.normalize .binary64 n 0 .positive)) n := by
  have hcounts : Counts _ _ := counts_normalize n 1074
  have hunits : (n : ℤ) * 2 ^ 1074 = (n * unity : ℕ) := by
    rw [unity, Nat.cast_mul, Nat.cast_pow, Nat.cast_ofNat]
  rw [hunits, signedRounded_natCast, unity, rounded_of_lt hn] at hcounts
  exact Counts.holds hcounts hn

/-- A stored whole number is read as this number. -/
theorem Holds.toInt {a : UnpackedFloat} {n : ℕ} (h : Holds a n) (hn : n < 2 ^ 53) (low high : ℤ) :
    a.toInt low high = n := by
  rcases h.cases hn with ⟨⟨s, rfl⟩, rfl⟩ | ⟨m, j, hm, rfl, -, heq⟩
  · rfl
  · obtain ⟨k, hk, hunity⟩ := exists_unity
    have hshift : ((j : ℤ) - k - 0).toNat = j - k := by omega
    have hback : (0 - ((j : ℤ) - k - (j - k : ℕ))).toNat = k - j := by omega
    -- the exponents that both sides have in common cancel
    have hcancel : m * 2 ^ (j - k) = n * 2 ^ (k - j) := by
      refine Nat.eq_of_mul_eq_mul_right (Nat.two_pow_pos (min j k)) ?_
      rw [Nat.mul_assoc, Nat.mul_assoc, ← Nat.pow_add, ← Nat.pow_add,
        (by omega : j - k + min j k = j), (by omega : k - j + min j k = k), ← hunity]
      exact heq
    have hread : roundToInt .positive m ((j : ℤ) - k) =
        ((m * 2 ^ (j - k) / 2 ^ (k - j) : ℕ) : ℤ) := by
      unfold roundToInt decreaseExponent shiftToExponent
      dsimp only
      rw [hshift, hback, Nat.shiftLeft_eq]
      exact congrArg Int.ofNat (approximates_shiftRight _ _).mantissa
    rw [hcancel, Nat.mul_div_cancel _ (Nat.two_pow_pos _), hk] at hread
    exact hread

end Binary

namespace Scalar

open Binary

theorem float_ofNat {n : ℕ} (h : n < 2 ^ 53) :
    Float.ofNat n = n.toUInt64.toFloat * Float.exactlyRepresentablePowersOfTen[0] := by
  show Float.ofScientific n false 0 = _
  unfold Float.ofScientific
  rw [dif_pos ⟨h, by decide⟩]
  rfl

theorem unpack_mul (x y : Float) : (x * y).toModel.unpack =
    stored (Float.Model.UnpackedFloat.mul .binary64 x.toModel.unpack y.toModel.unpack) := rfl

/-- A whole number below `2 ^ 53` is stored as it is. -/
theorem holds_natCast {n : ℕ} (h : n < 2 ^ 53) : Holds ((n : Float)).toModel.unpack n := by
  have hword : n.toUInt64.toNat = n := Nat.mod_eq_of_lt (h.trans (by decide))
  have hstored : n.toUInt64.toFloat.toModel.unpack =
      stored (Float.Model.UnpackedFloat.normalize .binary64 n.toUInt64.toNat 0 .positive) := rfl
  have hone : Float.exactlyRepresentablePowersOfTen[0].toModel.unpack = one := rfl
  have hcast : (n : Float) = Float.ofNat n := rfl
  rw [hcast, float_ofNat h, unpack_mul, hone, hstored, hword]
  exact (holds_normalize h).mul_one h

/-- Words of 32 bits are read back from their binary numbers. -/
theorem toUInt32_natCast {n : ℕ} (h : n < 2 ^ 32) : ((n : Float)).toUInt32.toNat = n := by
  have hlt : n < 2 ^ 53 := h.trans (by decide)
  have hread := (holds_natCast hlt).toInt hlt 0 (UInt32.size - 1)
  have hword : ((n : Float)).toUInt32 =
      UInt32.ofNatClamp (((n : Float)).toModel.unpack.toInt 0 (UInt32.size - 1)).toNat := rfl
  rw [hword, hread, Int.toNat_natCast, UInt32.ofNatClamp, dif_pos (show n < UInt32.size from h)]
  rfl

/-- Numbers that tell words of 32 bits apart. -/
class KeepsWords (α : Type) [Scalar α] : Prop where
  natCast_inj {m n : ℕ} : m < 2 ^ 32 → n < 2 ^ 32 → (m : α) = n → m = n

instance : KeepsWords ℝ where
  natCast_inj _ _ h := Nat.cast_injective h

instance : KeepsWords Float where
  natCast_inj {m n} hm hn h := by
    rw [← toUInt32_natCast hm, h, toUInt32_natCast hn]

end Scalar

end VolumeWatch
