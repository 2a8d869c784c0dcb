import VolumeWatch.Proofs.Scalar.Binary

/-!
The total order of binary numbers. It compares the bits of two numbers, so that only equal numbers
are level in it (`Scalar.compareTotal_eq_iff`), and it puts a lower number below a higher one
(`Scalar.compareTotal_of_lt`): the bits of a number without its sign count up as its units do
(`Binary.bodyUnits_strictMono`).
-/

namespace VolumeWatch

namespace Binary

open Float.Model (Format)
open Float.Model.UnpackedFloat

/-- The bits of a stored number without its sign. -/
def body (b : BitVec 64) : ℕ :=
  (@unpackExponent .binary64 b).toNat * 2 ^ 52 + (@unpackMantissa .binary64 b).toNat

/-- The mantissa that such bits stand for: all but the least numbers have a bit that is not
stored. -/
def bodyMantissa (n : ℕ) : ℕ := if n / 2 ^ 52 = 0 then n % 2 ^ 52 else 2 ^ 52 + n % 2 ^ 52

/-- The units that such bits stand for. -/
def bodyUnits (n : ℕ) : ℕ := bodyMantissa n * 2 ^ (n / 2 ^ 52 - 1)

theorem canonical_body (n : ℕ) : Canonical (bodyMantissa n) (n / 2 ^ 52 - 1) := by
  unfold bodyMantissa
  constructor <;> split <;> omega

theorem bodyUnits_strictMono : StrictMono bodyUnits := by
  intro n n' h
  apply (canonical_body n).lt_of_lex (canonical_body n')
  unfold bodyMantissa
  split_ifs <;> omega

section Stored

variable (b : BitVec 64)

theorem toNat_unpackExponent_lt : (@unpackExponent .binary64 b).toNat < 2 ^ 11 := BitVec.isLt _

theorem toNat_unpackMantissa_lt : (@unpackMantissa .binary64 b).toNat < 2 ^ 52 := BitVec.isLt _

theorem body_lt : body b < 2 ^ 63 := by
  have hexponent := toNat_unpackExponent_lt b
  have hmantissa := toNat_unpackMantissa_lt b
  unfold body
  omega

theorem body_div : body b / 2 ^ 52 = (@unpackExponent .binary64 b).toNat := by
  have hmantissa := toNat_unpackMantissa_lt b
  unfold body
  omega

theorem body_mod : body b % 2 ^ 52 = (@unpackMantissa .binary64 b).toNat := by
  have hmantissa := toNat_unpackMantissa_lt b
  unfold body
  omega

/-- The first bit of a stored number is set where the number is negative. -/
theorem sign_cases :
    Sign.ofBitVec (@unpackSign .binary64 b) = .positive ∧ b.toNat = body b ∨
      Sign.ofBitVec (@unpackSign .binary64 b) = .negative ∧ b.toNat = 2 ^ 63 + body b := by
  have hlt := b.isLt
  have hsign : (@unpackSign .binary64 b).toNat = b.toNat / 2 ^ 63 % 2 := by
    simp [unpackSign, BitVec.extractLsb_toNat, Nat.shiftRight_eq_div_pow]
  have hexponent : (@unpackExponent .binary64 b).toNat = b.toNat / 2 ^ 52 % 2 ^ 11 := by
    simp [unpackExponent, BitVec.extractLsb_toNat, Nat.shiftRight_eq_div_pow]
  have hmantissa : (@unpackMantissa .binary64 b).toNat = b.toNat % 2 ^ 52 := by
    simp [unpackMantissa, BitVec.extractLsb_toNat, Nat.shiftRight_eq_div_pow]
  unfold Sign.ofBitVec body
  by_cases hzero : @unpackSign .binary64 b = 0#1
  · have hnone : (@unpackSign .binary64 b).toNat = 0 := by simp [hzero]
    exact Or.inl ⟨if_pos hzero, by omega⟩
  · have hsome : (@unpackSign .binary64 b).toNat ≠ 0 := fun h => hzero (BitVec.eq_of_toNat_eq h)
    exact Or.inr ⟨if_neg hzero, by omega⟩

end Stored

/-- Infinity is stored as the number would be that comes after the largest one. -/
theorem overflow_eq_two_pow {e : ℕ} (he : e = 2047) : overflow = 2 ^ 52 * 2 ^ (e - 1) := by
  have hplaces : 2098 - (e - 1) = 52 := by omega
  rw [overflow_eq (e - 1) (by omega), hplaces]

section Unpacking

variable {b : BitVec 64}

theorem unpack_of_top (htop : @unpackExponent .binary64 b = -1#11)
    (h : (unpack .binary64 b).isNaN = false) :
    @unpackMantissa .binary64 b = 0#52 ∧
      unpack .binary64 b = .infinity (Sign.ofBitVec (@unpackSign .binary64 b)) := by
  revert h
  unfold unpack
  dsimp only
  rw [if_pos htop]
  split
  case isTrue hzero => exact fun _ => ⟨hzero, rfl⟩
  case isFalse => exact fun h => by cases h

theorem units_unpack_of_least (hleast : @unpackExponent .binary64 b = 0#11) :
    units (unpack .binary64 b) = (Sign.ofBitVec (@unpackSign .binary64 b)).apply
      (@unpackMantissa .binary64 b).toNat := by
  have htop : (0#11 : BitVec 11) ≠ -1#11 := by decide
  have hone : (@unpackMantissa .binary64 b).toNat * 2 ^ 0 = (@unpackMantissa .binary64 b).toNat :=
    Nat.mul_one _
  rw [← hone]
  unfold unpack
  dsimp only
  rw [hleast, if_neg htop, if_pos rfl]
  split
  case isTrue hzero =>
    rw [hzero]
    cases Sign.ofBitVec (@unpackSign .binary64 b) <;> rfl
  case isFalse => exact units_finite _ _ 0

theorem units_unpack_of_normal (htop : @unpackExponent .binary64 b ≠ -1#11)
    (hleast : @unpackExponent .binary64 b ≠ 0#11) :
    units (unpack .binary64 b) = (Sign.ofBitVec (@unpackSign .binary64 b)).apply
      ((2 ^ 52 + (@unpackMantissa .binary64 b).toNat) *
        2 ^ ((@unpackExponent .binary64 b).toNat - 1) : ℕ) := by
  have hbias : (Format.binary64.exponentBias : ℤ) +
    Format.binary64.mantissaBitsWithoutImplicit = 1075 := rfl
  have hpos : (@unpackExponent .binary64 b).toNat ≠ 0 := fun h => hleast (BitVec.eq_of_toNat_eq h)
  have hexponent : ((@unpackExponent .binary64 b).toNat : ℤ) - 1075 =
    ((@unpackExponent .binary64 b).toNat - 1 : ℕ) - 1074 := by omega
  unfold unpack
  dsimp only
  rw [hbias, if_neg htop, if_neg hleast]
  simp only [hexponent, units_finite, toNat_append_one]

/-- A number has the units that its bits without the sign stand for. -/
theorem units_unpack (h : (unpack .binary64 b).isNaN = false) :
    units (unpack .binary64 b) =
      (Sign.ofBitVec (@unpackSign .binary64 b)).apply (bodyUnits (body b)) := by
  unfold bodyUnits bodyMantissa
  rw [body_div, body_mod]
  by_cases htop : @unpackExponent .binary64 b = -1#11
  · have hexponent : (@unpackExponent .binary64 b).toNat = 2047 := by simp [htop]
    have hpos : (@unpackExponent .binary64 b).toNat ≠ 0 := by simp [hexponent]
    obtain ⟨hmantissa, hunpack⟩ := unpack_of_top htop h
    rw [hunpack, if_neg hpos, units_infinity, overflow_eq_two_pow hexponent, hmantissa]
    rfl
  by_cases hleast : @unpackExponent .binary64 b = 0#11
  · have hexponent : (@unpackExponent .binary64 b).toNat = 0 := by simp [hleast]
    simp [units_unpack_of_least hleast, hexponent]
  · have hpos : (@unpackExponent .binary64 b).toNat ≠ 0 :=
      fun h => hleast (BitVec.eq_of_toNat_eq h)
    rw [units_unpack_of_normal htop hleast, if_neg hpos]

end Unpacking

end Binary

namespace Scalar

open Binary (units)
open Float.Model.UnpackedFloat

theorem floatRank_injective : Function.Injective floatRank := by
  intro x y h
  have hpow : Nat.pow 2 63 = 2 ^ 63 := rfl
  have hx := x.toBits.toNat_lt
  have hy := y.toBits.toNat_lt
  have hbits : x.toBits.toNat = y.toBits.toNat := by
    simp only [floatRank, hpow] at h
    split_ifs at h <;> omega
  obtain ⟨⟨bits, _⟩⟩ := x
  obtain ⟨⟨bits', _⟩⟩ := y
  obtain rfl : bits = bits' := UInt64.toNat_inj.mp hbits
  rfl

@[simp]
theorem floatRank_inj {x y : Float} : floatRank x = floatRank y ↔ x = y :=
  floatRank_injective.eq_iff

theorem compareTotal_lt_iff {x y : Float} : compareTotal x y = .lt ↔ floatRank x < floatRank y :=
  compare_lt_iff_lt

/-- Ranks count up from zero without the sign, and down from minus one with it. -/
theorem floatRank_cases (x : Float) :
    Sign.ofBitVec (@unpackSign .binary64 x.toModel.toBits.toBitVec) = .positive ∧
        floatRank x = Binary.body x.toModel.toBits.toBitVec ∨
      Sign.ofBitVec (@unpackSign .binary64 x.toModel.toBits.toBitVec) = .negative ∧
        floatRank x = -1 - Binary.body x.toModel.toBits.toBitVec := by
  have hpow : Nat.pow 2 63 = 2 ^ 63 := rfl
  have hbits : x.toBits.toNat = x.toModel.toBits.toBitVec.toNat := rfl
  have hbody := Binary.body_lt x.toModel.toBits.toBitVec
  unfold floatRank
  rw [hpow, hbits]
  rcases Binary.sign_cases x.toModel.toBits.toBitVec with ⟨hsign, heq⟩ | ⟨hsign, heq⟩ <;> rw [heq]
  · exact Or.inl ⟨hsign, if_pos hbody⟩
  · refine Or.inr ⟨hsign, ?_⟩
    simp only
    split_ifs <;> omega

theorem floatRank_lt {x y : Float} (h : x < y) : floatRank x < floatRank y := by
  obtain ⟨hx, hy, hlt⟩ := float_lt_iff.mp h
  have hunits : units x.toModel.unpack < units y.toModel.unpack :=
    Binary.units_lt_of_rank_lt (Binary.isStored_unpack _) (Binary.isStored_unpack _) hlt
  have hunitsX : units x.toModel.unpack = _ := Binary.units_unpack hx
  have hunitsY : units y.toModel.unpack = _ := Binary.units_unpack hy
  rw [hunitsX, hunitsY] at hunits
  -- numbers of one sign compare as their bits do, and others by their sign
  rcases floatRank_cases x with ⟨hsign, hrank⟩ | ⟨hsign, hrank⟩ <;>
    rcases floatRank_cases y with ⟨hsign', hrank'⟩ | ⟨hsign', hrank'⟩ <;>
    simp only [hsign, hsign', Sign.apply, neg_lt_neg_iff, Nat.cast_lt,
      Binary.bodyUnits_strictMono.lt_iff_lt] at hunits <;>
    omega

/-- Only equal numbers are level in the total order. -/
theorem compareTotal_eq_iff {x y : Float} : compareTotal x y = .eq ↔ x = y :=
  compare_eq_iff_eq.trans floatRank_inj

/-- A lower number is below a higher one in the total order. -/
theorem compareTotal_of_lt {x y : Float} (h : x < y) : compareTotal x y = .lt :=
  compareTotal_lt_iff.mpr (floatRank_lt h)

end Scalar

end VolumeWatch
