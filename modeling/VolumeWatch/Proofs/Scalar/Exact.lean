import Mathlib.Analysis.Real.Sqrt
import Mathlib.Algebra.Order.Floor.Semiring
import VolumeWatch.Scalar

/-! Real numbers as scalars: the arithmetic of the library without rounding. -/

namespace VolumeWatch

noncomputable instance : Scalar ℝ where
  decidableLT := inferInstance
  decidableLE := inferInstance
  abs x := |x|
  sqrt := Real.sqrt
  neg x := -x
  isNaN _ := false
  isFinite _ := true
  bounded x := x
  ceiling x := Nat.ceil x ⊓ (2 ^ 32 - 1)
  compareTotal := compare

@[simp] theorem Scalar.max_eq_sup (x y : ℝ) : Scalar.max x y = x ⊔ y := by
  rw [max_def_lt]
  rfl

@[simp] theorem Scalar.min_eq_inf (x y : ℝ) : Scalar.min x y = x ⊓ y := by
  rw [min_comm, min_def_lt]
  rfl

end VolumeWatch
