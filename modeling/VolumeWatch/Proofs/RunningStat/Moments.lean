import Mathlib.Algebra.Order.BigOperators.Group.List
import Mathlib.Tactic.FieldSimp
import Mathlib.Tactic.Linarith
import VolumeWatch.Proofs.Scalar.Exact
import VolumeWatch.RunningStat

/-!
Running statistics of exact numbers. Updated sample by sample, they hold what all samples together
have: their mean, and their squared distances to it (`RunningStat.moments_ofList`).

The updates do not commute, but what a statistic tells of its samples (`RunningStat.Tells`) does not
depend on their order, and it decides on the statistic (`RunningStat.ofList_eq`). Any sample may
therefore be taken as the last one, which bounds its distance to the mean
(`RunningStat.length_mul_sq_sub_le`).
-/

namespace VolumeWatch.RunningStat

variable {s : RunningStat ℝ} {xs ys : List ℝ} {x : ℝ}

theorem mean_add (s : RunningStat ℝ) (x : ℝ) :
    (s.add x).mean = s.mean + (x - s.mean) / (s.count + 1) := by
  simp [add]

/-- A new sample adds its squared distance to the mean before it, less the part by which the mean
comes nearer to it. -/
theorem squares_add (s : RunningStat ℝ) (x : ℝ) :
    (s.add x).squares = s.squares + s.count / (s.count + 1) * (x - s.mean) ^ 2 := by
  have hn : (s.count : ℝ) + 1 ≠ 0 := by positivity
  simp only [add]
  push_cast
  field_simp
  ring

/-- What a statistic tells of its samples: how many there are, their sum, and their squared
distances to any number, which are least for the mean. -/
structure Tells (s : RunningStat ℝ) (xs : List ℝ) : Prop where
  count : s.count = xs.length
  sum : s.count * s.mean = xs.sum
  squares : ∀ a, (xs.map fun x => (x - a) ^ 2).sum = s.squares + s.count * (s.mean - a) ^ 2

theorem Tells.add (h : Tells s xs) (x : ℝ) : Tells (s.add x) (xs ++ [x]) := by
  have hcount : ((s.add x).count : ℝ) = s.count + 1 := by simp [RunningStat.add]
  have hn : (s.count : ℝ) + 1 ≠ 0 := by positivity
  constructor
  case count => simp [RunningStat.add, h.count]
  case sum =>
    rw [hcount, mean_add, List.sum_append, List.sum_singleton, ← h.sum]
    field_simp
    ring
  case squares =>
    intro a
    rw [hcount, mean_add, squares_add, List.map_append, List.sum_append, List.map_singleton,
      List.sum_singleton, h.squares]
    field_simp
    ring

theorem tells_ofList (xs : List ℝ) : Tells (ofList xs) xs := by
  induction xs using List.reverseRecOn with
  | nil => constructor <;> simp [ofList, EmptyCollection.emptyCollection, empty]
  | append_singleton xs x ih =>
    rw [ofList_append_singleton]
    exact ih.add x

theorem mean_ofList (xs : List ℝ) : (ofList xs).mean = xs.sum / xs.length := by
  rcases eq_or_ne xs [] with rfl | hne
  · simp [ofList, EmptyCollection.emptyCollection, empty]
  · have hn : (xs.length : ℝ) ≠ 0 := by simpa using hne
    have hsum := (tells_ofList xs).sum
    rw [count_ofList] at hsum
    rw [← hsum, mul_div_cancel_left₀ _ hn]

theorem squares_ofList (xs : List ℝ) :
    (ofList xs).squares = (xs.map fun x => (x - xs.sum / xs.length) ^ 2).sum := by
  rw [(tells_ofList xs).squares, mean_ofList]
  ring

/-- A statistic in one go. -/
theorem ofList_eq (xs : List ℝ) : ofList xs =
    ⟨xs.length, xs.sum / xs.length, (xs.map fun x => (x - xs.sum / xs.length) ^ 2).sum⟩ := by
  rw [← squares_ofList, ← mean_ofList, ← count_ofList]

theorem ofList_perm (h : xs.Perm ys) : ofList xs = ofList ys := by
  rw [ofList_eq, ofList_eq, h.length_eq, h.sum_eq, (h.map _).sum_eq]

theorem squares_nonneg (xs : List ℝ) : 0 ≤ (ofList xs).squares := by
  rw [squares_ofList]
  apply List.sum_nonneg
  intro y hy
  obtain ⟨x, -, rfl⟩ := List.mem_map.mp hy
  positivity

theorem variance_ofList (xs : List ℝ) :
    (ofList xs).variance = (ofList xs).squares / xs.length := by
  rw [variance, count_ofList]
  split
  · rename_i hn
    rw [hn]
    simp
  · rfl

theorem variance_nonneg (xs : List ℝ) : 0 ≤ (ofList xs).variance := by
  rw [variance_ofList]
  exact div_nonneg (squares_nonneg xs) (Nat.cast_nonneg _)

/-- No sample has more than its share of the squared distances: all of them but one part in as many
as there are samples. -/
theorem length_mul_sq_sub_le (hx : x ∈ xs) :
    xs.length * (x - (ofList xs).mean) ^ 2 ≤ (xs.length - 1) * (ofList xs).squares := by
  -- the sample may as well have come last
  obtain ⟨before, after, rfl⟩ := List.append_of_mem hx
  have hperm : (before ++ x :: after).Perm (before ++ after ++ [x]) :=
    List.perm_middle.trans (List.perm_append_singleton _ _).symm
  have hlast : ofList (before ++ x :: after) = (ofList (before ++ after)).add x := by
    rw [ofList_perm hperm, ofList_append_singleton]
  have hlength : ((before ++ x :: after).length : ℝ) = (ofList (before ++ after)).count + 1 := by
    rw [count_ofList, hperm.length_eq, List.length_append, List.length_singleton, Nat.cast_add,
      Nat.cast_one]
  have hothers := squares_nonneg (before ++ after)
  rw [hlast, hlength, mean_add, squares_add]
  generalize ofList (before ++ after) = s at hothers
  have hn : (s.count : ℝ) + 1 ≠ 0 := by positivity
  calc ((s.count : ℝ) + 1) * (x - (s.mean + (x - s.mean) / (s.count + 1))) ^ 2
      = s.count * (s.count / (s.count + 1) * (x - s.mean) ^ 2) := by
        field_simp
        ring
    _ ≤ (s.count + 1 - 1) * (s.squares + s.count / (s.count + 1) * (x - s.mean) ^ 2) := by
        rw [add_sub_cancel_right]
        exact mul_le_mul_of_nonneg_left (le_add_of_nonneg_left hothers) (Nat.cast_nonneg _)

/-- Samples at no distance from their mean are all the same. -/
theorem squares_eq_zero_iff (xs : List ℝ) :
    (ofList xs).squares = 0 ↔ ∀ x ∈ xs, ∀ y ∈ xs, x = y := by
  constructor
  · intro h
    have hmean (x : ℝ) (hx : x ∈ xs) : x = (ofList xs).mean := by
      have hle := length_mul_sq_sub_le hx
      have hn : (0 : ℝ) < xs.length := by exact_mod_cast List.length_pos_of_mem hx
      rw [h, mul_zero] at hle
      exact sub_eq_zero.mp (pow_eq_zero_iff two_ne_zero |>.mp
        (le_antisymm (nonpos_of_mul_nonpos_right hle hn) (sq_nonneg _)))
    intro x hx y hy
    rw [hmean x hx, hmean y hy]
  · intro h
    cases xs with
    | nil => rw [squares_ofList, List.map_nil, List.sum_nil]
    | cons x rest =>
      -- the distances to one of the samples are zero, and those to the mean are no larger
      have hzero : ((x :: rest).map fun y => (y - x) ^ 2).sum = 0 := by
        refine List.sum_eq_zero fun z hz => ?_
        obtain ⟨y, hy, rfl⟩ := List.mem_map.mp hz
        rw [h y hy x List.mem_cons_self, sub_self, zero_pow two_ne_zero]
      rw [(tells_ofList _).squares] at hzero
      have hmean : 0 ≤ ((ofList (x :: rest)).count : ℝ) * ((ofList (x :: rest)).mean - x) ^ 2 := by
        positivity
      linarith [squares_nonneg (x :: rest)]

/-- Samples that are added one after the other have the count, the mean and the squared distances to
the mean of all of them together. The variance is the mean squared distance; it is zero exactly
where there are no two different samples. The order of the samples does not matter. -/
theorem moments_ofList (xs : List ℝ) :
    let s : RunningStat ℝ := ofList xs
    let mean := xs.sum / xs.length
    s.count = xs.length ∧
    s.mean = mean ∧
    s.squares = (xs.map fun x => (x - mean) ^ 2).sum ∧
    s.variance = (xs.map fun x => (x - mean) ^ 2).sum / xs.length ∧
    0 ≤ s.variance ∧
    (s.variance = 0 ↔ xs = [] ∨ ∀ x ∈ xs, ∀ y ∈ xs, x = y) ∧
    ∀ ys, xs.Perm ys → ofList ys = s := by
  intro s mean
  refine ⟨count_ofList xs, mean_ofList xs, squares_ofList xs, ?variance, variance_nonneg xs, ?zero,
    fun ys h => (ofList_perm h).symm⟩
  case variance => rw [variance_ofList, squares_ofList]
  case zero =>
    rw [variance_ofList, div_eq_zero_iff, squares_eq_zero_iff, Nat.cast_eq_zero,
      List.length_eq_zero_iff, or_comm]

end VolumeWatch.RunningStat
