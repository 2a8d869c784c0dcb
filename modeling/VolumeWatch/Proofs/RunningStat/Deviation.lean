import Mathlib.Algebra.BigOperators.Ring.List
import VolumeWatch.Proofs.RunningStat.Moments

/-!
Deviations of exact samples. A sample deviates by no more than the number of the others allows
(`RunningStat.sq_deviations_le`), and by that much among equal ones
(`RunningStat.deviations_replicate_concat`). In other units the same samples have a spread in these
units (`RunningStat.deviation_map_mul`).
-/

namespace VolumeWatch

theorem Scalar.epsilon_pos : (0 : ℝ) < Scalar.epsilon := by
  norm_num [Scalar.epsilon]

namespace RunningStat

variable {xs : List ℝ} {x a c : ℝ} {n : ℕ}

theorem deviation_nonneg (s : RunningStat ℝ) : 0 ≤ s.deviation := Real.sqrt_nonneg _

theorem sq_deviation_ofList (xs : List ℝ) :
    (ofList xs).deviation ^ 2 = (ofList xs).squares / xs.length := by
  rw [← variance_ofList]
  exact Real.sq_sqrt (variance_nonneg xs)

/-- Deviations are counted where there are two samples or more, and a spread to speak of. -/
theorem deviations_eq (s : RunningStat ℝ) (x : ℝ) : s.deviations x =
    if 2 ≤ s.count ∧ Scalar.epsilon < s.deviation then |x - s.mean| / s.deviation else 0 := by
  unfold deviations
  by_cases hcount : s.count < 2
  · rw [if_pos hcount, if_neg (by omega)]
  · by_cases hspread : s.deviation ≤ Scalar.epsilon
    · rw [if_neg hcount, if_pos hspread, if_neg (by simp [hspread])]
    · rw [if_neg hcount, if_neg hspread, if_pos ⟨by omega, not_le.mp hspread⟩]
      rfl

/-- A sample deviates by at most the square root of the number of the others. -/
theorem sq_deviations_le (hx : x ∈ xs) : (ofList xs).deviations x ^ 2 ≤ xs.length - 1 := by
  have hn : (1 : ℝ) ≤ xs.length := by exact_mod_cast List.length_pos_of_mem hx
  rw [deviations_eq]
  split
  · rename_i h
    have hspread : 0 < (ofList xs).deviation ^ 2 := pow_pos (Scalar.epsilon_pos.trans h.2) 2
    rw [div_pow, sq_abs, div_le_iff₀ hspread, sq_deviation_ofList, mul_div_assoc',
      le_div_iff₀ (by linarith), mul_comm]
    exact length_mul_sq_sub_le hx
  · rw [zero_pow two_ne_zero]
    linarith

section Replicate

/-! One sample among equal ones. -/

theorem mean_replicate_concat (n : ℕ) (a x : ℝ) :
    (ofList (List.replicate n a ++ [x])).mean = a + (x - a) / (n + 1) := by
  have hn : (n : ℝ) + 1 ≠ 0 := by positivity
  rw [mean_ofList]
  simp only [List.sum_append, List.sum_replicate, List.sum_singleton, List.length_append,
    List.length_replicate, List.length_singleton, nsmul_eq_mul, Nat.cast_add, Nat.cast_one]
  field_simp
  ring

theorem deviation_replicate_concat (n : ℕ) (a x : ℝ) :
    (ofList (List.replicate n a ++ [x])).deviation = √n * |x - a| / (n + 1) := by
  have hn : (n : ℝ) + 1 ≠ 0 := by positivity
  have hsquares := (tells_ofList (List.replicate n a ++ [x])).squares a
  rw [mean_replicate_concat, count_ofList] at hsquares
  simp only [List.map_append, List.map_replicate, List.map_singleton, List.sum_append,
    List.sum_replicate, List.sum_singleton, List.length_append, List.length_replicate,
    List.length_singleton, Nat.cast_add, Nat.cast_one, sub_self, zero_pow two_ne_zero, smul_zero,
    zero_add] at hsquares
  apply (sq_eq_sq₀ (deviation_nonneg _) (by positivity)).mp
  rw [sq_deviation_ofList, div_pow, mul_pow, Real.sq_sqrt (Nat.cast_nonneg n), sq_abs]
  simp only [List.length_append, List.length_replicate, List.length_singleton, Nat.cast_add,
    Nat.cast_one]
  field_simp at hsquares ⊢
  linarith

/-- Among equal samples one that differs deviates as much as a sample can. -/
theorem deviations_replicate_concat (hn : 0 < n) (h : Scalar.epsilon < √n * |x - a| / (n + 1)) :
    (ofList (List.replicate n a ++ [x])).deviations x = √n := by
  have hcount : 2 ≤ (ofList (List.replicate n a ++ [x])).count := by
    rw [count_ofList, List.length_append, List.length_replicate, List.length_singleton]
    omega
  have hx : |x - a| ≠ 0 := by
    intro hzero
    rw [hzero, mul_zero, zero_div] at h
    exact lt_asymm h Scalar.epsilon_pos
  have hroot : √(n : ℝ) ≠ 0 := by positivity
  have hdistance : |x - (a + (x - a) / (n + 1))| = √n * √n * |x - a| / (n + 1) := by
    have hn : (0 : ℝ) < n + 1 := by positivity
    have hshare : x - (a + (x - a) / (n + 1)) = n * (x - a) / (n + 1) := by
      field_simp
      ring
    rw [hshare, abs_div, abs_mul, Nat.abs_cast, abs_of_pos hn, Real.mul_self_sqrt n.cast_nonneg]
  rw [deviations_eq, deviation_replicate_concat, if_pos ⟨hcount, h⟩, mean_replicate_concat,
    hdistance]
  field_simp

end Replicate

section Units

/-! The same samples in other units. -/

theorem ofList_map_mul (c : ℝ) (xs : List ℝ) : ofList (xs.map (c * ·)) =
    ⟨xs.length, c * (ofList xs).mean, c ^ 2 * (ofList xs).squares⟩ := by
  have hmean : (xs.map (c * ·)).sum / (xs.map (c * ·)).length = c * (xs.sum / xs.length) := by
    rw [List.sum_map_mul_left, List.map_id', List.length_map, mul_div_assoc]
  rw [ofList_eq, hmean, mean_ofList, squares_ofList, List.length_map, List.map_map,
    ← List.sum_map_mul_left]
  congr 3
  funext x
  simp only [Function.comp_apply]
  ring

theorem deviation_map_mul (hc : 0 ≤ c) (xs : List ℝ) :
    (ofList (xs.map (c * ·))).deviation = c * (ofList xs).deviation := by
  apply (sq_eq_sq₀ (deviation_nonneg _) (mul_nonneg hc (deviation_nonneg _))).mp
  rw [mul_pow, sq_deviation_ofList, sq_deviation_ofList, ofList_map_mul, List.length_map,
    mul_div_assoc]

end Units

end RunningStat

end VolumeWatch
