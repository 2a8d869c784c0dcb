import Mathlib
import VolumeWatch.Proofs.Scalar.Ordered
import VolumeWatch.Proofs.Scalar.Rounding

/-!
Binary numbers as they are stored, counted in units of the least positive one. A number that is to be
stored is rounded to 53 binary places (`round_eq`), and nothing is lost if it does not overflow
(`unpack_pack`). Stored numbers are ordered by their units (`rank_le_iff`).
-/

namespace VolumeWatch.Binary

open Float.Model (UnpackedFloat Format totalExponent)
open Float.Model.UnpackedFloat (Sign ExtendedMantissa)

/-- An extended mantissa tells a quotient as far as rounding needs it: the whole part, whether the
rest is at least one half, and whether it is neither nothing nor one half. -/
structure Approximates (em : ExtendedMantissa) (n d : ℕ) : Prop where
  mantissa : em.mantissa = n / d
  roundBit : em.roundBit = decide (d ≤ 2 * (n % d))
  stickyBit : em.stickyBit = decide (n % d ≠ 0 ∧ 2 * (n % d) ≠ d)

namespace Approximates

variable {em : ExtendedMantissa} {n d : ℕ}

theorem shiftRightOne (h : Approximates em n d) (hd : 0 < d) :
    Approximates em.shiftRightOne n (d * 2) := by
  have hmod : n % (d * 2) = n % d + d * (n / d % 2) := Nat.mod_mul
  have hlt := Nat.mod_lt n hd
  constructor
  · rw [ExtendedMantissa.shiftRightOne, h.mantissa, Nat.div_div_eq_div_mul]
  · rw [ExtendedMantissa.shiftRightOne, h.mantissa, hmod, Bool.eq_iff_iff]
    rcases Nat.mod_two_eq_zero_or_one (n / d) with hb | hb <;> rw [hb] <;> simp <;> omega
  · rw [ExtendedMantissa.shiftRightOne, h.roundBit, h.stickyBit, hmod, Bool.eq_iff_iff]
    rcases Nat.mod_two_eq_zero_or_one (n / d) with hb | hb <;> rw [hb] <;> simp <;> omega

theorem roundedMantissa (h : Approximates em n d) (hd : 0 < d) :
    em.roundedMantissa = nearest n d := by
  obtain ⟨m, r, s⟩ := em
  obtain ⟨hm, hr, hs⟩ := h
  simp only at hm hr hs
  unfold ExtendedMantissa.roundedMantissa nearest
  rw [← hm]
  cases r <;> cases s <;> simp at hr hs <;>
    simp only [ExtendedMantissa.accuracy, UnpackedFloat.Accuracy.roundToNearestEven] <;>
    split_ifs <;> omega

end Approximates

theorem approximates_shiftRight (m k : ℕ) :
    Approximates ((⟨m, false, false⟩ : ExtendedMantissa) >>> k) m (2 ^ k) := by
  induction k with
  | zero =>
    constructor
    · exact (Nat.div_one m).symm
    · simp [Nat.mod_one]; rfl
    · simp [Nat.mod_one]; rfl
  | succ k ih => exact ih.shiftRightOne (Nat.two_pow_pos k)

theorem targetExponent_eq {m : ℕ} (hm : 0 < m) (j : ℕ) :
    Format.binary64.targetExponent (totalExponent m (j - 1074)) =
      (excess (m * 2 ^ j) : ℤ) - 1074 := by
  have hmin : Format.binary64.minExponent = -1074 := rfl
  have hbits : Format.binary64.mantissaBits = 53 := rfl
  rw [Format.targetExponent, totalExponent, hmin, hbits, excess, log2_mul_two_pow hm]
  omega

theorem shiftToTargetExponent_eq {m : ℕ} (hm : 0 < m) (j : ℕ) :
    UnpackedFloat.shiftToTargetExponent .binary64 m (j - 1074) .exact =
      ((⟨m, false, false⟩ : ExtendedMantissa) >>> (excess (m * 2 ^ j) - j),
        (max j (excess (m * 2 ^ j)) : ℤ) - 1074) := by
  unfold UnpackedFloat.shiftToTargetExponent UnpackedFloat.shiftToExponent
  dsimp only
  rw [targetExponent_eq hm]
  have hshift : ((excess (m * 2 ^ j) : ℤ) - 1074 - (j - 1074)).toNat = excess (m * 2 ^ j) - j := by
    omega
  rw [hshift]
  refine Prod.ext rfl ?_
  show (j : ℤ) - 1074 + (excess (m * 2 ^ j) - j : ℕ) = _
  omega

theorem roundWithAccuracy_eq (s : Sign) {m j : ℕ} (hm : 0 < m) (hj : j ≤ excess (m * 2 ^ j)) :
    ∃ m' j', ∃ h : 0 < m', Canonical m' j' ∧ m' * 2 ^ j' = rounded (m * 2 ^ j) ∧
      UnpackedFloat.roundWithAccuracy .binary64 s m (j - 1074) .exact =
        .finite s m' (j' - 1074) h := by
  obtain ⟨n, hn⟩ : ∃ n, n = m * 2 ^ j := ⟨_, rfl⟩
  rw [← hn] at hj ⊢
  have hpow : 2 ^ (excess n - j) * 2 ^ j = 2 ^ excess n := by
    rw [← Nat.pow_add, Nat.sub_add_cancel hj]
  have hround : ((⟨m, false, false⟩ : ExtendedMantissa) >>> (excess n - j)).roundedMantissa =
      nearest n (2 ^ excess n) := by
    rw [(approximates_shiftRight m _).roundedMantissa (Nat.two_pow_pos _), ← hpow, hn,
      nearest_mul_mul _ _ (Nat.two_pow_pos j)]
  have hpos : 0 < nearest n (2 ^ excess n) :=
    nearest_excess_pos (hn ▸ Nat.mul_pos hm (Nat.two_pow_pos j))
  obtain ⟨hle, hcanonical, hvalue⟩ := Canonical.of_rounded n
  have hne : nearest n (2 ^ excess n) / 2 ^ (excess (rounded n) - excess n) ≠ 0 := by
    intro hzero
    rw [hzero, Nat.zero_mul] at hvalue
    exact (Nat.mul_pos hpos (Nat.two_pow_pos _)).ne hvalue
  refine ⟨_, _, Nat.pos_of_ne_zero hne, hcanonical, hvalue, ?_⟩
  have hfinal := (approximates_shiftRight (nearest n (2 ^ excess n))
    (excess (rounded n) - excess n)).mantissa
  unfold UnpackedFloat.roundWithAccuracy
  rw [shiftToTargetExponent_eq hm, ← hn, max_eq_right (by omega)]
  dsimp only
  -- the second shift starts from the rounded number
  rw [hround, shiftToTargetExponent_eq hpos, ← rounded, max_eq_right (by omega)]
  dsimp only
  simp only [hfinal, dif_neg hne]

/-- A number is rounded to 53 binary places, whatever the exponent that it is given with. -/
theorem round_eq (s : Sign) {m : ℕ} (hm : 0 < m) (j : ℕ) :
    ∃ m' j', ∃ h : 0 < m', Canonical m' j' ∧ m' * 2 ^ j' = rounded (m * 2 ^ j) ∧
      UnpackedFloat.round .binary64 s m (j - 1074) = .finite s m' (j' - 1074) h := by
  obtain ⟨k, hk⟩ : ∃ k, k = excess (m * 2 ^ j) := ⟨_, rfl⟩
  have hmul : m * 2 ^ (j - k) * 2 ^ (j - (j - k)) = m * 2 ^ j := by
    rw [Nat.mul_assoc, ← Nat.pow_add, Nat.add_sub_cancel' (Nat.sub_le j k)]
  have hround := roundWithAccuracy_eq s (m := m * 2 ^ (j - k)) (j := j - (j - k))
    (Nat.mul_pos hm (Nat.two_pow_pos _)) (by rw [hmul, ← hk]; omega)
  rw [hmul] at hround
  have hshift : ((j : ℤ) - 1074 - (k - 1074)).toNat = j - k := by omega
  have hexponent : (j : ℤ) - 1074 - (j - k : ℕ) = (j - (j - k) : ℕ) - 1074 := by omega
  unfold UnpackedFloat.round UnpackedFloat.decreaseExponent
  dsimp only
  rw [targetExponent_eq hm, ← hk, hshift, Nat.shiftLeft_eq, hexponent]
  exact hround

section Packing

open Float.Model.UnpackedFloat

theorem toNat_append_one (m : BitVec 52) : (1#1 ++ m).toNat = 2 ^ 52 + m.toNat := by
  rw [BitVec.toNat_append, ← Nat.shiftLeft_add_eq_or_of_lt m.isLt, Nat.shiftLeft_eq]
  rfl

theorem unpack_packedInfinity (s : Sign) :
    unpack .binary64 (packedInfinity .binary64 s) = .infinity s := by cases s <;> rfl

theorem biased_eq (j : ℕ) : ((j : ℤ) - 1074 + Format.binary64.exponentBias +
    Format.binary64.mantissaBitsWithoutImplicit).toNat = j + 1 := by
  have hbias : Format.binary64.exponentBias = 1023 := rfl
  have hplaces : Format.binary64.mantissaBitsWithoutImplicit = 52 := rfl
  rw [hbias, hplaces]
  omega

theorem pack_overflow (s : Sign) {m j : ℕ} (hm : 0 < m) (hj : 2046 ≤ j) :
    pack .binary64 (.finite s m (j - 1074) hm) = packedInfinity .binary64 s := by
  unfold pack
  dsimp only
  rw [biased_eq, if_pos (by omega)]

theorem pack_of_lt (s : Sign) {m j : ℕ} (hm : 0 < m) (hj : j < 2046) :
    pack .binary64 (.finite s m (j - 1074) hm) =
      packComponents .binary64 s (if m.log2 + 1 = 53 then BitVec.ofNat 11 (j + 1) else 0#11)
        (BitVec.ofNat 52 m) := by
  have hbits : Format.binary64.mantissaBits = 53 := rfl
  unfold pack
  dsimp only
  rw [biased_eq, if_neg (by omega), hbits]
  split <;> rfl

theorem unpack_subnormal (s : Sign) {m : BitVec 52} (hm : 0 < m.toNat) :
    unpack .binary64 (packComponents .binary64 s 0#11 m) = .finite s m.toNat (-1074) hm := by
  have hne : m ≠ 0#52 := by
    rintro rfl
    exact absurd hm (by decide)
  unfold unpack
  simp only [unpackExponent_packComponents, unpackMantissa_packComponents,
    unpackSign_packComponents, Sign.ofBitVec_toBitVec]
  rw [if_neg (by decide), if_pos trivial, dif_neg hne]
  rfl

theorem unpack_normal (s : Sign) {e : BitVec 11} {m : BitVec 52} (htop : e ≠ -1#11)
    (hzero : e ≠ 0#11) (hm : 0 < 2 ^ 52 + m.toNat) :
    unpack .binary64 (packComponents .binary64 s e m) =
      .finite s (2 ^ 52 + m.toNat) (e.toNat - 1075) hm := by
  unfold unpack
  simp only [unpackExponent_packComponents, unpackMantissa_packComponents,
    unpackSign_packComponents, Sign.ofBitVec_toBitVec, toNat_append_one]
  rw [if_neg htop, if_neg hzero]
  rfl

/-- Nothing is lost when a number is stored whose exponent is not too large. -/
theorem unpack_pack (s : Sign) {m j : ℕ} (h : Canonical m j) (hm : 0 < m) (hj : j < 2046) :
    unpack .binary64 (pack .binary64 (.finite s m (j - 1074) hm)) = .finite s m (j - 1074) hm := by
  rw [pack_of_lt s hm hj]
  by_cases hlog : m.log2 + 1 = 53
  · have hle : 2 ^ 52 ≤ m := (Nat.le_log2 hm.ne').mp (by omega)
    have hexponent : (BitVec.ofNat 11 (j + 1)).toNat = j + 1 := by
      rw [BitVec.toNat_ofNat, Nat.mod_eq_of_lt (by omega)]
    have hmantissa : 2 ^ 52 + (BitVec.ofNat 52 m).toNat = m := by
      have := h.lt
      rw [BitVec.toNat_ofNat]
      omega
    have htop : BitVec.ofNat 11 (j + 1) ≠ -1#11 := fun heq => by
      have : j + 1 = 2047 := hexponent.symm.trans (congrArg BitVec.toNat heq)
      omega
    have hzero : BitVec.ofNat 11 (j + 1) ≠ 0#11 := fun heq => by
      have : j + 1 = 0 := hexponent.symm.trans (congrArg BitVec.toNat heq)
      omega
    rw [if_pos hlog, unpack_normal s htop hzero (by omega)]
    congr 1
    rw [hexponent]
    omega
  · have hlt : m < 2 ^ 52 := by
      have := (Nat.log2_lt hm.ne').mpr h.lt
      exact (Nat.log2_lt hm.ne').mp (by omega)
    obtain rfl : j = 0 := h.normal.resolve_right (by omega)
    have hmantissa : (BitVec.ofNat 52 m).toNat = m := by
      rw [BitVec.toNat_ofNat, Nat.mod_eq_of_lt hlt]
    rw [if_neg hlog, unpack_subnormal s (by omega)]
    congr 1

/-- Units of the least positive number from which on everything is infinite. -/
def overflow : ℕ := 2 ^ 2098

theorem overflow_pos : 0 < overflow := by
  unfold overflow
  positivity

theorem overflow_eq (j : ℕ) (hj : j ≤ 2098) : overflow = 2 ^ (2098 - j) * 2 ^ j := by
  rw [← Nat.pow_add, Nat.sub_add_cancel hj, overflow]

theorem Canonical.lt_overflow {m j : ℕ} (h : Canonical m j) (hj : j < 2046) :
    m * 2 ^ j < overflow := by
  rw [overflow_eq j (by omega)]
  refine Nat.mul_lt_mul_of_pos_right (h.lt.trans_le ?_) (Nat.two_pow_pos j)
  exact Nat.pow_le_pow_right (by decide) (by omega)

theorem Canonical.overflow_le {m j : ℕ} (h : Canonical m j) (hj : 2046 ≤ j) :
    overflow ≤ m * 2 ^ j := by
  obtain ⟨k, hk⟩ : ∃ k, k = 2046 := ⟨_, rfl⟩
  have hplaces : 2098 - k = 52 := by omega
  rw [overflow_eq k (by omega), hplaces]
  exact Nat.mul_le_mul (h.normal.resolve_left (by omega))
    (Nat.pow_le_pow_right (by decide) (hk ▸ hj))

/-- A stored number: infinite, not a number, zero, or a canonical mantissa with an exponent that does
not overflow. -/
inductive IsStored : UnpackedFloat → Prop where
  | infinity (s : Sign) : IsStored (.infinity s)
  | notANumber : IsStored .notANumber
  | zero (s : Sign) : IsStored (.zero s)
  | finite (s : Sign) {m j : ℕ} {e : ℤ} (hm : 0 < m) (h : Canonical m j)
    (hunits : 0 < m * 2 ^ j ∧ m * 2 ^ j < overflow) (he : e = j - 1074) :
    IsStored (.finite s m e hm)

theorem IsStored.of_lt (s : Sign) {m j : ℕ} {e : ℤ} (hm : 0 < m) (h : Canonical m j)
    (hj : j < 2046) (he : e = j - 1074) : IsStored (.finite s m e hm) :=
  .finite s hm h ⟨Nat.mul_pos hm (Nat.two_pow_pos j), h.lt_overflow hj⟩ he

theorem isStored_unpack (b : BitVec 64) : IsStored (unpack .binary64 b) := by
  have hbias : (Format.binary64.exponentBias : ℤ) +
    Format.binary64.mantissaBitsWithoutImplicit = 1075 := rfl
  unfold unpack
  dsimp only
  rw [hbias]
  have hexponent : (@unpackExponent .binary64 b).toNat < 2048 := BitVec.isLt _
  have hmantissa : (@unpackMantissa .binary64 b).toNat < 2 ^ 52 := BitVec.isLt _
  by_cases htop : @unpackExponent .binary64 b = -1#11
  · rw [if_pos htop]
    split
    · exact .infinity _
    · exact .notANumber
  rw [if_neg htop]
  by_cases hzero : @unpackExponent .binary64 b = 0#11
  · rw [if_pos hzero]
    by_cases hnone : @unpackMantissa .binary64 b = 0#52
    · rw [dif_pos hnone]
      exact .zero _
    · rw [dif_neg hnone]
      refine .of_lt _ _ (j := 0) ⟨by omega, Or.inl rfl⟩ (by decide) ?_
      rw [hzero]
      rfl
  · rw [if_neg hzero]
    have hpos : (@unpackExponent .binary64 b).toNat ≠ 0 :=
      fun h => hzero (BitVec.eq_of_toNat_eq h)
    have hlt : (@unpackExponent .binary64 b).toNat ≠ 2047 :=
      fun h => htop (BitVec.eq_of_toNat_eq h)
    have happend : (1#1 ++ @unpackMantissa .binary64 b).toNat =
      2 ^ 52 + (@unpackMantissa .binary64 b).toNat := toNat_append_one _
    refine .of_lt _ _ (j := (@unpackExponent .binary64 b).toNat - 1) ⟨?_, Or.inr ?_⟩
      (by omega) (by omega)
    · rw [happend]
      omega
    · rw [happend]
      omega

end Packing

section Order

open Scalar (rank)

/-- A number counted in units of the least positive one. -/
def units : UnpackedFloat → ℤ
  | .infinity s => s.apply overflow
  | .notANumber => 0
  | .zero _ => 0
  | .finite s m e _ => s.apply (m * 2 ^ (e + 1074).toNat : ℕ)

@[simp]
theorem units_infinity (s : Sign) : units (.infinity s) = s.apply overflow := rfl

@[simp]
theorem units_notANumber : units .notANumber = 0 := rfl

@[simp]
theorem units_zero (s : Sign) : units (.zero s) = 0 := rfl

theorem units_finite (s : Sign) {m : ℕ} (hm : 0 < m) (j : ℕ) :
    units (.finite s m (j - 1074) hm) = s.apply (m * 2 ^ j : ℕ) := by
  show s.apply (m * 2 ^ ((j : ℤ) - 1074 + 1074).toNat : ℕ) = _
  rw [Int.sub_add_cancel, Int.toNat_natCast]

/-- Numbers that rank higher have more units. -/
theorem units_lt_of_rank_lt {a b : UnpackedFloat} (ha : IsStored a) (hb : IsStored b)
    (h : rank a < rank b) : units a < units b := by
  have hpos := overflow_pos
  rcases ha with (_ | _) | _ | _ | @⟨(_ | _), m, j, e, hm, hc, hunits, rfl⟩ <;>
    rcases hb with (_ | _) | _ | _ | @⟨(_ | _), m', j', e', hm', hc', hunits', rfl⟩ <;>
    simp only [rank, Prod.Lex.toLex_lt_toLex, lt_self_iff_false, and_false, or_false, false_or,
      true_and, neg_lt_neg_iff, neg_inj, sub_lt_sub_iff_right, sub_left_inj, Nat.cast_lt,
      Nat.cast_inj] at h
  case finite.negative.finite.negative =>
    have := hc'.lt_of_lex hc (h.imp id fun h => ⟨h.1.symm, h.2⟩)
    rw [units_finite, units_finite, Sign.apply, Sign.apply]
    omega
  case finite.positive.finite.positive =>
    have := hc.lt_of_lex hc' h
    rw [units_finite, units_finite, Sign.apply, Sign.apply]
    omega
  all_goals
    simp only [↓units_finite, units_infinity, units_notANumber, units_zero, Sign.apply]
    omega

theorem units_congr {a b : UnpackedFloat} (h : rank a = rank b) : units a = units b := by
  rcases a with (_ | _) | _ | _ | ⟨(_ | _), m, e, hm⟩ <;>
    rcases b with (_ | _) | _ | _ | ⟨(_ | _), m', e', hm'⟩ <;>
    simp [rank] at h
  case finite.negative.finite.negative =>
    obtain ⟨rfl, rfl⟩ := h
    rfl
  case finite.positive.finite.positive =>
    obtain ⟨rfl, rfl⟩ := h
    rfl
  all_goals rfl

/-- Stored numbers are ordered by their units. -/
theorem rank_le_iff {a b : UnpackedFloat} (ha : IsStored a) (hb : IsStored b) :
    rank a ≤ rank b ↔ units a ≤ units b := by
  constructor
  · intro h
    rcases h.lt_or_eq with hlt | heq
    · exact (units_lt_of_rank_lt ha hb hlt).le
    · exact (units_congr heq).le
  · intro h
    by_contra hlt
    have := units_lt_of_rank_lt hb ha (not_le.mp hlt)
    omega

end Order

end VolumeWatch.Binary
