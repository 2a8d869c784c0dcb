import Mathlib.Tactic.Ring

/-!
Rounding whole numbers to 53 binary places, as sums of binary numbers are rounded that are counted in
units of the least of them: rounding keeps the order (`rounded_mono`), and numbers that have the
places stay as they are (`Canonical.rounded`).
-/

namespace VolumeWatch.Binary

/-- The whole number nearest to a quotient, and of two that are equally near the even one. -/
def nearest (n d : ℕ) : ℕ :=
  if 2 * (n % d) < d then n / d
  else if 2 * (n % d) = d then n / d + n / d % 2
  else n / d + 1

theorem div_le_nearest (n d : ℕ) : n / d ≤ nearest n d := by
  unfold nearest
  split
  · exact le_refl _
  · split <;> omega

theorem nearest_le_succ (n d : ℕ) : nearest n d ≤ n / d + 1 := by
  unfold nearest
  split
  · omega
  · split <;> omega

theorem nearest_mono {n n' : ℕ} (h : n ≤ n') (d : ℕ) : nearest n d ≤ nearest n' d := by
  rcases Nat.lt_or_eq_of_le (Nat.div_le_div_right (c := d) h) with hlt | heq
  · calc
      nearest n d ≤ n / d + 1 := nearest_le_succ n d
      _ ≤ n' / d := hlt
      _ ≤ nearest n' d := div_le_nearest n' d
  · have hmod : n % d ≤ n' % d := by
      have hn := Nat.div_add_mod n d
      have hn' := Nat.div_add_mod n' d
      rw [heq] at hn
      omega
    unfold nearest
    rw [heq]
    split_ifs <;> omega

theorem nearest_mul (m : ℕ) {d : ℕ} (hd : 0 < d) : nearest (m * d) d = m := by
  rw [nearest, Nat.mul_mod_left, Nat.mul_div_cancel m hd, if_pos (by omega)]

theorem nearest_le {n d m : ℕ} (hd : 0 < d) (h : n ≤ m * d) : nearest n d ≤ m := by
  have hmono := nearest_mono h d
  rwa [nearest_mul m hd] at hmono

theorem le_nearest {n d m : ℕ} (hd : 0 < d) (h : m * d ≤ n) : m ≤ nearest n d := by
  have hmono := nearest_mono h d
  rwa [nearest_mul m hd] at hmono

theorem nearest_mul_mul (n d : ℕ) {c : ℕ} (hc : 0 < c) : nearest (n * c) (d * c) = nearest n d := by
  unfold nearest
  rw [Nat.mul_mod_mul_right, Nat.mul_div_mul_right _ _ hc, ← Nat.mul_assoc]
  simp only [Nat.mul_lt_mul_right hc, Nat.mul_left_inj hc.ne']

theorem log2_mul_two_pow {m : ℕ} (hm : 0 < m) (j : ℕ) : (m * 2 ^ j).log2 = m.log2 + j := by
  have hpos := Nat.two_pow_pos j
  rw [Nat.log2_eq_iff (Nat.mul_pos hm hpos).ne']
  constructor
  · rw [Nat.pow_add]
    exact Nat.mul_le_mul_right _ (Nat.log2_self_le hm.ne')
  · calc
      m * 2 ^ j < 2 ^ (m.log2 + 1) * 2 ^ j := Nat.mul_lt_mul_of_pos_right m.lt_log2_self hpos
      _ = 2 ^ (m.log2 + j + 1) := by ring

/-- Binary places of a number beyond the first 53, as many as are lost by rounding. -/
def excess (n : ℕ) : ℕ := n.log2 - 52

/-- The nearest number with 53 binary places. -/
def rounded (n : ℕ) : ℕ := nearest n (2 ^ excess n) * 2 ^ excess n

theorem lt_two_pow_excess (n : ℕ) : n < 2 ^ 53 * 2 ^ excess n := by
  rw [← Nat.pow_add]
  refine Nat.lt_of_lt_of_le n.lt_log2_self (Nat.pow_le_pow_right (by decide) ?_)
  unfold excess
  omega

theorem two_pow_excess_le {n : ℕ} (h : 0 < excess n) : 2 ^ 52 * 2 ^ excess n ≤ n := by
  have hn : n ≠ 0 := by
    rintro rfl
    simp [excess, Nat.log2_zero] at h
  rw [← Nat.pow_add, ← Nat.le_log2 hn]
  unfold excess at h ⊢
  omega

theorem nearest_excess_le (n : ℕ) : nearest n (2 ^ excess n) ≤ 2 ^ 53 :=
  nearest_le (Nat.two_pow_pos _) (lt_two_pow_excess n).le

/-- A number that loses places keeps 53 of them. -/
theorem le_nearest_excess (n : ℕ) : excess n = 0 ∨ 2 ^ 52 ≤ nearest n (2 ^ excess n) := by
  rcases Nat.eq_zero_or_pos (excess n) with hzero | hpos
  · exact Or.inl hzero
  · exact Or.inr (le_nearest (Nat.two_pow_pos _) (two_pow_excess_le hpos))

theorem nearest_excess_pos {n : ℕ} (hn : 0 < n) : 0 < nearest n (2 ^ excess n) := by
  rcases le_nearest_excess n with hzero | hle
  · have hdiv := div_le_nearest n (2 ^ excess n)
    rw [hzero, Nat.pow_zero, Nat.div_one] at hdiv
    rw [hzero, Nat.pow_zero]
    exact hn.trans_le hdiv
  · exact (Nat.two_pow_pos 52).trans_le hle

theorem excess_mono {n n' : ℕ} (h : n ≤ n') : excess n ≤ excess n' := by
  rcases Nat.eq_zero_or_pos n with rfl | hn
  · simp [excess, Nat.log2_zero]
  · have hlog := (Nat.le_log2 (k := n.log2) (by omega : n' ≠ 0)).mpr
      ((Nat.log2_self_le hn.ne').trans h)
    unfold excess
    omega

theorem rounded_mono {n n' : ℕ} (h : n ≤ n') : rounded n ≤ rounded n' := by
  unfold rounded
  rcases Nat.lt_or_eq_of_le (excess_mono h) with hlt | heq
  · calc
      nearest n (2 ^ excess n) * 2 ^ excess n ≤ 2 ^ 53 * 2 ^ excess n :=
        Nat.mul_le_mul_right _ (nearest_excess_le n)
      _ = 2 ^ 52 * 2 ^ (excess n + 1) := by ring
      _ ≤ 2 ^ 52 * 2 ^ excess n' :=
        Nat.mul_le_mul_left _ (Nat.pow_le_pow_right (by decide) hlt)
      _ ≤ nearest n' (2 ^ excess n') * 2 ^ excess n' :=
        Nat.mul_le_mul_right _ ((le_nearest_excess n').resolve_left (by omega))
  · rw [heq]
    exact Nat.mul_le_mul_right _ (nearest_mono h _)

/-- A mantissa and an exponent as they are stored: the mantissa has 53 binary places, and fewer only
with the least exponent. -/
structure Canonical (m j : ℕ) : Prop where
  lt : m < 2 ^ 53
  normal : j = 0 ∨ 2 ^ 52 ≤ m

namespace Canonical

variable {m m' j j' : ℕ}

theorem excess_eq (h : Canonical m j) : excess (m * 2 ^ j) = j := by
  unfold excess
  rcases Nat.eq_zero_or_pos m with rfl | hpos
  · rw [Nat.zero_mul, Nat.log2_zero]
    exact (h.normal.resolve_right (by decide)).symm
  · have hlt := (Nat.log2_lt hpos.ne').mpr h.lt
    rw [log2_mul_two_pow hpos]
    rcases h.normal with rfl | hm
    · omega
    · have hle := (Nat.le_log2 hpos.ne').mpr hm
      omega

/-- Numbers that have the places are not rounded. -/
theorem rounded (h : Canonical m j) : rounded (m * 2 ^ j) = m * 2 ^ j := by
  rw [Binary.rounded, h.excess_eq, nearest_mul m (Nat.two_pow_pos j)]

/-- Canonical numbers compare by exponent and then by mantissa. -/
theorem lt_of_lex (h : Canonical m j) (h' : Canonical m' j') (hlt : j < j' ∨ j = j' ∧ m < m') :
    m * 2 ^ j < m' * 2 ^ j' := by
  rcases hlt with hj | ⟨rfl, hm⟩
  · calc
      m * 2 ^ j < 2 ^ 53 * 2 ^ j := Nat.mul_lt_mul_of_pos_right h.lt (Nat.two_pow_pos j)
      _ = 2 ^ 52 * 2 ^ (j + 1) := by ring
      _ ≤ 2 ^ 52 * 2 ^ j' := Nat.mul_le_mul_left _ (Nat.pow_le_pow_right (by decide) hj)
      _ ≤ m' * 2 ^ j' := Nat.mul_le_mul_right _ (h'.normal.resolve_left (by omega))
  · exact Nat.mul_lt_mul_of_pos_right hm (Nat.two_pow_pos j)

/-- A rounded mantissa may have got one place too many. It is shifted by this place, and nothing is
lost. -/
theorem of_rounded (n : ℕ) :
    excess n ≤ excess (Binary.rounded n) ∧
      Canonical (nearest n (2 ^ excess n) / 2 ^ (excess (Binary.rounded n) - excess n))
        (excess (Binary.rounded n)) ∧
      nearest n (2 ^ excess n) / 2 ^ (excess (Binary.rounded n) - excess n) *
        2 ^ excess (Binary.rounded n) = Binary.rounded n := by
  unfold Binary.rounded
  obtain ⟨k, hk⟩ : ∃ k, k = excess n := ⟨_, rfl⟩
  have hnormal := le_nearest_excess n
  rw [← hk] at hnormal ⊢
  rcases Nat.lt_or_eq_of_le (hk ▸ nearest_excess_le n) with hlt | heq
  · have h : Canonical (nearest n (2 ^ k)) k := ⟨hlt, hnormal⟩
    rw [h.excess_eq, Nat.sub_self, Nat.pow_zero, Nat.div_one]
    exact ⟨le_refl k, h, rfl⟩
  · have h : Canonical (2 ^ 52) (k + 1) := ⟨by decide, Or.inr (le_refl _)⟩
    have hshift : 2 ^ 53 * 2 ^ k = 2 ^ 52 * 2 ^ (k + 1) := by ring
    rw [heq, hshift, h.excess_eq, Nat.add_sub_cancel_left]
    exact ⟨Nat.le_succ k, h, rfl⟩

end Canonical

theorem rounded_zero : rounded 0 = 0 := by
  simpa using (Canonical.rounded ⟨Nat.two_pow_pos 53, Or.inl rfl⟩ : rounded (0 * 2 ^ 0) = 0 * 2 ^ 0)

/-- Rounding of whole numbers with a sign. -/
def signedRounded (n : ℤ) : ℤ := n.sign * rounded n.natAbs

theorem signedRounded_natCast (n : ℕ) : signedRounded n = rounded n := by
  rcases Nat.eq_zero_or_pos n with rfl | hn
  · rw [rounded_zero]
    rfl
  · rw [signedRounded, Int.sign_eq_one_of_pos (Int.natCast_pos.mpr hn), Int.one_mul, Int.natAbs_natCast]

theorem signedRounded_zero : signedRounded 0 = 0 := by
  rw [signedRounded, Int.sign_zero, Int.zero_mul]

theorem signedRounded_neg (n : ℤ) : signedRounded (-n) = -signedRounded n := by
  rw [signedRounded, signedRounded, Int.sign_neg, Int.natAbs_neg, Int.neg_mul]

theorem signedRounded_mono {n n' : ℤ} (h : n ≤ n') : signedRounded n ≤ signedRounded n' := by
  obtain ⟨a, rfl | rfl⟩ := n.eq_nat_or_neg <;> obtain ⟨b, rfl | rfl⟩ := n'.eq_nat_or_neg <;>
    simp only [signedRounded_neg, signedRounded_natCast]
  · exact Int.ofNat_le.mpr (rounded_mono (Int.ofNat_le.mp h))
  · obtain rfl : a = 0 := by omega
    obtain rfl : b = 0 := by omega
    rw [rounded_zero]
    rfl
  · omega
  · have := rounded_mono (show b ≤ a by omega)
    omega

end VolumeWatch.Binary
