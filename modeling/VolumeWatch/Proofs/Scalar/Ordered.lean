import Mathlib.Data.Prod.Lex
import VolumeWatch.Proofs.Scalar.Exact

/-!
Comparing numbers. Real numbers are in a total order. So are the binary numbers that programs use,
except that a value that is not a number compares with nothing and that there are two zeros
(`Scalar.compare_eq_compare_rank`). `Scalar.Ordered` is what the two have in common, and what is
known of the larger and the smaller of two values follows from it.
-/

namespace VolumeWatch

namespace Scalar

/-- Values that are numbers are in a total order, up to ties, and other values compare with nothing.
What bounds a minimum for the latter is above all numbers. -/
class Ordered (α : Type) [Scalar α] : Prop where
  isNaN_of_le {x y : α} : x ≤ y → isNaN x = false ∧ isNaN y = false
  le_total {x y : α} : isNaN x = false → isNaN y = false → x ≤ y ∨ y ≤ x
  le_trans {x y z : α} : x ≤ y → y ≤ z → x ≤ z
  lt_iff_le_not_ge {x y : α} : x < y ↔ x ≤ y ∧ ¬ y ≤ x
  isNaN_zero : isNaN (0 : α) = false
  isNaN_bounded (x : α) : isNaN (bounded x) = false
  bounded_eq {x : α} : isNaN x = false → bounded x = x
  le_bounded {x y : α} : isNaN x = true → isNaN y = false → y ≤ bounded x

instance : Ordered ℝ where
  isNaN_of_le _ := ⟨rfl, rfl⟩
  le_total {x y} _ _ := le_total x y
  le_trans := le_trans
  lt_iff_le_not_ge := lt_iff_le_not_ge
  isNaN_zero := rfl
  isNaN_bounded _ := rfl
  bounded_eq _ := rfl
  le_bounded h := by cases h

section Binary

open Float.Model (UnpackedFloat)

/-- Where a binary number stands: below zero or above it and whether it is infinite, and among the
finite ones first the exponent and then the mantissa. -/
def rank : UnpackedFloat → ℤ ×ₗ ℤ ×ₗ ℤ
  | .infinity .negative => toLex (-2, toLex (0, 0))
  | .finite .negative m e _ => toLex (-1, toLex (-e, -m))
  | .zero _ => toLex (0, toLex (0, 0))
  | .finite .positive m e _ => toLex (1, toLex (e, m))
  | .infinity .positive => toLex (2, toLex (0, 0))
  | .notANumber => toLex (0, toLex (0, 0))

theorem compare_natCast (m n : ℕ) : compare (m : ℤ) (n : ℤ) = compare m n := by
  simp only [Int.compare_eq_ite_lt, Nat.compare_eq_ite_lt, Nat.cast_lt]

theorem compare_neg_neg (x y : ℤ) : compare (-x) (-y) = (compare x y).swap := by
  rw [Int.compare_swap]
  simp only [Int.compare_eq_ite_lt, neg_lt_neg_iff]

/-- Binary numbers compare as their ranks do. -/
theorem compare_eq_compare_rank {a b : UnpackedFloat} (ha : a.isNaN = false)
    (hb : b.isNaN = false) : a.compare b = some (compare (rank a) (rank b)) := by
  have above (m m' : ℕ) (e e' : ℤ) : (compare e e').then (compare m m') =
      compare (toLex (e, (m : ℤ))) (toLex (e', (m' : ℤ))) := by
    rw [← compare_natCast]
    rfl
  have below (m m' : ℕ) (e e' : ℤ) : ((compare e e').then (compare m m')).swap =
      compare (toLex (-e, -(m : ℤ))) (toLex (-e', -(m' : ℤ))) := by
    rw [Ordering.swap_then, ← compare_natCast, ← compare_neg_neg, ← compare_neg_neg]
    rfl
  rcases a with (_ | _) | _ | (_ | _) | ⟨(_ | _), m, e, hm⟩
  case notANumber => cases ha
  all_goals
    rcases b with (_ | _) | _ | (_ | _) | ⟨(_ | _), m', e', hm'⟩
    case notANumber => cases hb
    -- finite numbers on one side of zero compare by exponent and mantissa, all others by the side
    all_goals first
      | rfl
      | exact congrArg some (above m m' e e')
      | exact congrArg some (below m m' e e')

theorem isNaN_of_compare {a b : UnpackedFloat} {o : Ordering} (h : a.compare b = some o) :
    a.isNaN = false ∧ b.isNaN = false := by
  cases a with
  | notANumber => cases h
  | _ =>
    cases b with
    | notANumber =>
      unfold UnpackedFloat.compare at h
      cases h
    | _ => exact ⟨rfl, rfl⟩

theorem le_unpacked_iff {a b : UnpackedFloat} :
    a.le b = true ↔ a.isNaN = false ∧ b.isNaN = false ∧ rank a ≤ rank b := by
  unfold UnpackedFloat.le
  constructor
  · intro h
    cases ho : a.compare b with
    | none => simp [ho] at h
    | some o =>
      obtain ⟨ha, hb⟩ := isNaN_of_compare ho
      rw [compare_eq_compare_rank ha hb, Option.any_some, ← Ordering.ne_gt_iff_isLE] at h
      exact ⟨ha, hb, compare_le_iff_le.mp h⟩
  · rintro ⟨ha, hb, hle⟩
    rw [compare_eq_compare_rank ha hb, Option.any_some, ← Ordering.ne_gt_iff_isLE]
    exact compare_le_iff_le.mpr hle

theorem lt_unpacked_iff {a b : UnpackedFloat} :
    a.lt b = true ↔ a.isNaN = false ∧ b.isNaN = false ∧ rank a < rank b := by
  unfold UnpackedFloat.lt
  rw [beq_iff_eq]
  constructor
  · intro h
    obtain ⟨ha, hb⟩ := isNaN_of_compare h
    rw [compare_eq_compare_rank ha hb] at h
    exact ⟨ha, hb, compare_lt_iff_lt.mp (Option.some.inj h)⟩
  · rintro ⟨ha, hb, hlt⟩
    rw [compare_eq_compare_rank ha hb, compare_lt_iff_lt.mpr hlt]

theorem float_le_iff {x y : Float} : x ≤ y ↔ x.isNaN = false ∧ y.isNaN = false ∧
    rank x.toModel.unpack ≤ rank y.toModel.unpack :=
  decide_eq_true_iff.trans le_unpacked_iff

theorem float_lt_iff {x y : Float} : x < y ↔ x.isNaN = false ∧ y.isNaN = false ∧
    rank x.toModel.unpack < rank y.toModel.unpack :=
  decide_eq_true_iff.trans lt_unpacked_iff

/-- Nothing stands above infinity. -/
theorem rank_le_infinity (a : UnpackedFloat) : rank a ≤ rank (.infinity .positive) := by
  rcases a with (_ | _) | _ | (_ | _) | ⟨(_ | _), m, e, hm⟩
  case infinity.positive => exact le_refl _
  all_goals exact Prod.Lex.toLex_le_toLex.mpr (Or.inl (by norm_num))

theorem bounded_float (x : Float) : bounded x = if isNaN x = true then 1.0 / 0.0 else x := rfl

instance : Ordered Float where
  isNaN_of_le h := ⟨(float_le_iff.mp h).1, (float_le_iff.mp h).2.1⟩
  le_total {x y} hx hy := by
    rcases le_total (rank x.toModel.unpack) (rank y.toModel.unpack) with h | h
    · exact Or.inl (float_le_iff.mpr ⟨hx, hy, h⟩)
    · exact Or.inr (float_le_iff.mpr ⟨hy, hx, h⟩)
  le_trans h h' := by
    obtain ⟨hx, -, hxy⟩ := float_le_iff.mp h
    obtain ⟨-, hz, hyz⟩ := float_le_iff.mp h'
    exact float_le_iff.mpr ⟨hx, hz, hxy.trans hyz⟩
  lt_iff_le_not_ge {x y} := by
    rw [float_lt_iff, float_le_iff, float_le_iff, lt_iff_le_not_ge]
    tauto
  isNaN_zero := by decide
  isNaN_bounded x := by
    rw [bounded_float]
    cases hx : isNaN x with
    | true => exact (by decide : isNaN (1.0 / 0.0 : Float) = false)
    | false => exact hx
  bounded_eq hx := by rw [bounded_float, if_neg (by simp [hx])]
  le_bounded {x y} hx hy := by
    have htop : (1.0 / 0.0 : Float).toModel.unpack = .infinity .positive := rfl
    rw [bounded_float, if_pos hx, float_le_iff, htop]
    exact ⟨hy, by decide, rank_le_infinity _⟩

end Binary

section Extremes

variable {α : Type} [Scalar α]

theorem max_eq_or (x y : α) : max x y = x ∨ max x y = y := by
  unfold max
  split
  · exact Or.inr rfl
  · split
    · exact Or.inr rfl
    · exact Or.inl rfl

theorem min_eq_or (x y : α) : min x y = x ∨ min x y = y := by
  unfold min
  split
  · exact Or.inr rfl
  · split
    · exact Or.inr rfl
    · exact Or.inl rfl

variable [Ordered α] {x y : α}

theorem le_self (hx : isNaN x = false) : x ≤ x := (Ordered.le_total hx hx).elim id id

theorem le_of_lt (h : x < y) : x ≤ y := (Ordered.lt_iff_le_not_ge.mp h).1

theorem le_of_not_lt (hx : isNaN x = false) (hy : isNaN y = false) (h : ¬ x < y) : y ≤ x := by
  rcases Ordered.le_total hx hy with hle | hle
  · exact Classical.byContradiction fun hn => h (Ordered.lt_iff_le_not_ge.mpr ⟨hle, hn⟩)
  · exact hle

theorem le_max_left (hx : isNaN x = false) : x ≤ max x y := by
  unfold max
  rw [if_neg (by simp [hx])]
  split
  · exact le_of_lt ‹_›
  · exact le_self hx

theorem le_max_right (hy : isNaN y = false) : y ≤ max x y := by
  unfold max
  split
  · exact le_self hy
  · rename_i hx
    split
    · exact le_self hy
    · exact le_of_not_lt (Bool.eq_false_of_not_eq_true hx) hy ‹_›

/-- Only numbers lower a number. -/
theorem min_cases (hx : isNaN x = false) : min x y = x ∨ min x y = y ∧ isNaN y = false := by
  unfold min
  rw [if_neg (by simp [hx])]
  split
  · exact Or.inr ⟨rfl, (Ordered.isNaN_of_le (le_of_lt ‹_›)).1⟩
  · exact Or.inl rfl

theorem min_le_left (hx : isNaN x = false) : min x y ≤ x := by
  unfold min
  rw [if_neg (by simp [hx])]
  split
  · exact le_of_lt ‹_›
  · exact le_self hx

theorem min_le_right (hy : isNaN y = false) : min x y ≤ y := by
  unfold min
  split
  · exact le_self hy
  · rename_i hx
    split
    · exact le_self hy
    · exact le_of_not_lt hy (Bool.eq_false_of_not_eq_true hx) ‹_›

end Extremes

end Scalar

end VolumeWatch
