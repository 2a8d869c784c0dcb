import VolumeWatch.Proofs.Scalar.Binary

/-!
Sums and differences of binary numbers. The units of a sum are added and rounded (`units_sum`), so that
sums grow with their terms (`sum_mono`), and of two numbers in order only equal infinities have no
difference (`isNaN_difference_iff`). `Scalar.Monotonic` is what these sums have in common with those
of real numbers.
-/

namespace VolumeWatch.Binary

open Float.Model (UnpackedFloat Format)
open Float.Model.UnpackedFloat
open Scalar (rank rank_le_infinity)

/-- Units of what is stored for a number of units: it is infinite if the number is too large. -/
def clamped (n : ℤ) : ℤ := max (-overflow) (min n overflow)

theorem clamped_mono {n n' : ℤ} (h : n ≤ n') : clamped n ≤ clamped n' := by
  unfold clamped
  omega

/-- What is left of a number when it is stored. -/
def stored (a : UnpackedFloat) : UnpackedFloat := unpack .binary64 (pack .binary64 a)

/-- A stored number counts as many units, as far as they do not overflow. -/
structure Counts (a : UnpackedFloat) (n : ℤ) : Prop where
  isNaN : (stored a).isNaN = false
  units : units (stored a) = clamped n

theorem counts_zero (s : Sign) : Counts (.zero s) 0 := by
  have hstored : stored (.zero s) = .zero s := unpack_packedZero
  have := overflow_pos
  constructor
  · rw [hstored]
    rfl
  · rw [hstored, units, clamped]
    omega

theorem counts_finite (s : Sign) {m j : ℕ} (h : Canonical m j) (hm : 0 < m) :
    Counts (.finite s m (j - 1074) hm) (s.apply (m * 2 ^ j : ℕ)) := by
  by_cases hj : j < 2046
  · have hstored : stored (.finite s m (j - 1074) hm) = .finite s m (j - 1074) hm :=
      unpack_pack s h hm hj
    have := h.lt_overflow hj
    constructor
    · rw [hstored]
      rfl
    · rw [hstored, units_finite, clamped]
      cases s <;> simp only [Sign.apply] <;> omega
  · have hstored : stored (.finite s m (j - 1074) hm) = .infinity s := by
      rw [stored, pack_overflow s hm (by omega), unpack_packedInfinity]
    have := h.overflow_le (by omega)
    constructor
    · rw [hstored]
      rfl
    · rw [hstored, Binary.units, clamped]
      cases s <;> simp only [Sign.apply] <;> omega

theorem apply_mul (s : Sign) (n : ℤ) (k : ℤ) : s.apply n * k = s.apply (n * k) := by
  cases s
  · exact Int.neg_mul n k
  · rfl

theorem signedRounded_apply (s : Sign) (n : ℕ) : signedRounded (s.apply n) = s.apply (rounded n) := by
  cases s
  · exact (signedRounded_neg n).trans (congrArg _ (signedRounded_natCast n))
  · exact signedRounded_natCast n

/-- A canonical number counts its units. -/
theorem counts_canonical (s : Sign) {m j : ℕ} (h : Canonical m j) (hm : 0 < m) :
    Counts (.finite s m (j - 1074) hm) (signedRounded (units (.finite s m (j - 1074) hm))) := by
  rw [units_finite, signedRounded_apply, h.rounded]
  exact counts_finite s h hm

theorem counts_round (s : Sign) {m : ℕ} (hm : 0 < m) (j : ℕ) :
    Counts (round .binary64 s m (j - 1074)) (s.apply (rounded (m * 2 ^ j))) := by
  obtain ⟨m', j', h, hcanonical, hvalue, heq⟩ := round_eq s hm j
  rw [heq, ← hvalue]
  exact counts_finite s hcanonical h

theorem counts_normalize (n : ℤ) (j : ℕ) :
    Counts (UnpackedFloat.normalize .binary64 n (j - 1074) .positive) (signedRounded (n * 2 ^ j)) := by
  unfold UnpackedFloat.normalize
  split
  · rename_i hlt
    have hneg : n < 0 := compare_lt_iff_lt.mp hlt
    obtain ⟨m, rfl⟩ : ∃ m : ℕ, n = -m := ⟨(-n).toNat, by omega⟩
    have hround := counts_round .negative (m := m) (by omega) j
    have hunits : -(m : ℤ) * 2 ^ j = -((m * 2 ^ j : ℕ) : ℤ) := by push_cast; ring
    rw [hunits, signedRounded_neg, signedRounded_natCast, neg_neg, Int.toNat_natCast]
    exact hround
  · rename_i heq
    obtain rfl : n = 0 := compare_eq_iff_eq.mp heq
    rw [zero_mul]
    exact counts_zero _
  · rename_i hgt
    have hpos : 0 < n := compare_gt_iff_gt.mp hgt
    obtain ⟨m, rfl⟩ : ∃ m : ℕ, n = m := ⟨n.toNat, by omega⟩
    have hround := counts_round .positive (m := m) (by omega) j
    have hunits : (m : ℤ) * 2 ^ j = ((m * 2 ^ j : ℕ) : ℤ) := by push_cast; ring
    rw [hunits, signedRounded_natCast, Int.toNat_natCast]
    exact hround

theorem two_pow_split (m : ℕ) {j k : ℕ} (h : k ≤ j) :
    ((m * 2 ^ (j - k) : ℕ) : ℤ) * 2 ^ k = (m * 2 ^ j : ℕ) := by
  have hpow : 2 ^ (j - k) * 2 ^ k = 2 ^ j := by rw [← Nat.pow_add, Nat.sub_add_cancel h]
  rw [← hpow]
  push_cast
  ring

theorem counts_add {a b : UnpackedFloat} (ha : IsStored a) (hb : IsStored b)
    (hfa : a.isFinite = true) (hfb : b.isFinite = true) :
    Counts (add .binary64 a b) (signedRounded (units a + units b)) := by
  rcases ha with _ | _ | s | @⟨s, m, j, e, hm, hc, -, rfl⟩
  case infinity => cases hfa
  case notANumber => cases hfa
  case zero =>
    rcases hb with _ | _ | s' | @⟨s', m', j', e', hm', hc', -, rfl⟩
    case infinity => cases hfb
    case notANumber => cases hfb
    case zero =>
      have hadd : add .binary64 (.zero s) (.zero s') =
        if s == s' then .zero s else .zero .positive := rfl
      have hsum : units (.zero s) + units (.zero s') = 0 := rfl
      rw [hadd, hsum, signedRounded_zero]
      split <;> exact counts_zero _
    case finite =>
      have hsum : units (.zero s) + units (.finite s' m' (j' - 1074) hm') =
        units (.finite s' m' (j' - 1074) hm') := Int.zero_add _
      rw [hsum]
      exact counts_canonical s' hc' hm'
  case finite =>
    rcases hb with _ | _ | s' | @⟨s', m', j', e', hm', hc', -, rfl⟩
    case infinity => cases hfb
    case notANumber => cases hfb
    case zero =>
      have hsum : units (.finite s m (j - 1074) hm) + units (.zero s') =
        units (.finite s m (j - 1074) hm) := Int.add_zero _
      rw [hsum]
      exact counts_canonical s hc hm
    case finite =>
      obtain ⟨k, hk⟩ : ∃ k, k = min j j' := ⟨_, rfl⟩
      have hmin : min ((j : ℤ) - 1074) (j' - 1074) = k - 1074 := by omega
      have hshift : ((j : ℤ) - 1074 - (k - 1074)).toNat = j - k := by omega
      have hshift' : ((j' : ℤ) - 1074 - (k - 1074)).toNat = j' - k := by omega
      have hsum : (s.apply (m * 2 ^ (j - k) : ℕ) + s'.apply (m' * 2 ^ (j' - k) : ℕ)) * 2 ^ k =
          s.apply (m * 2 ^ j : ℕ) + s'.apply (m' * 2 ^ j' : ℕ) := by
        rw [add_mul, apply_mul, apply_mul, two_pow_split m (by omega), two_pow_split m' (by omega)]
      rw [units_finite, units_finite, ← hsum]
      unfold add decreaseExponent
      dsimp only
      rw [hmin, hshift, hshift', Nat.shiftLeft_eq, Nat.shiftLeft_eq]
      exact counts_normalize _ k

theorem apply_neg (s : Sign) (n : ℤ) : (-s).apply n = -s.apply n := by
  cases s
  · exact (neg_neg n).symm
  · rfl

/-- A difference is the sum with the negated number. -/
theorem sub_eq_add_neg (a b : UnpackedFloat) : sub .binary64 a b = add .binary64 a b.neg := by
  cases a <;> cases b <;> try rfl
  rename_i s m e hm s' m' e' hm'
  show UnpackedFloat.normalize _ (_ - _) _ _ = UnpackedFloat.normalize _ (_ + (-s').apply _) _ _
  rw [apply_neg, Int.sub_eq_add_neg]

theorem IsStored.neg {a : UnpackedFloat} (h : IsStored a) : IsStored a.neg := by
  cases h with
  | infinity s => exact .infinity _
  | notANumber => exact .notANumber
  | zero s => exact .zero _
  | finite s hm h hunits he => exact .finite _ hm h hunits he

theorem units_neg (a : UnpackedFloat) : units a.neg = -units a := by
  cases a with
  | infinity s => exact apply_neg s _
  | notANumber => exact neg_zero.symm
  | zero s => exact neg_zero.symm
  | finite s m e hm => exact apply_neg s _

/-- The sum as it is stored. -/
def sum (a b : UnpackedFloat) : UnpackedFloat := stored (add .binary64 a b)

theorem isStored_sum (a b : UnpackedFloat) : IsStored (sum a b) := isStored_unpack _

/-- The units of a sum are rounded. -/
theorem units_sum {a b : UnpackedFloat} (ha : IsStored a) (hb : IsStored b)
    (hfa : a.isFinite = true) (hfb : b.isFinite = true) :
    units (sum a b) = clamped (signedRounded (units a + units b)) :=
  (counts_add ha hb hfa hfb).units

/-- A stored number, finite or not. -/
structure IsNumber (a : UnpackedFloat) : Prop where
  stored : IsStored a
  isNaN : a.isNaN = false

theorem IsNumber.isFinite_or {a : UnpackedFloat} (h : IsNumber a) :
    a.isFinite = true ∨ ∃ s, a = .infinity s := by
  cases a with
  | infinity s => exact Or.inr ⟨s, rfl⟩
  | notANumber => cases h.isNaN
  | zero s => exact Or.inl rfl
  | finite s m e hm => exact Or.inl rfl

theorem isNumber_zero : IsNumber (.zero .positive) := ⟨.zero _, rfl⟩

theorem isNumber_infinity (s : Sign) : IsNumber (.infinity s) := ⟨.infinity s, rfl⟩

theorem stored_infinity (s : Sign) : stored (.infinity s) = .infinity s := unpack_packedInfinity s

/-- Opposite infinities have no sum, and otherwise an infinity remains. -/
theorem sum_infinity_left (s : Sign) {b : UnpackedFloat} (hb : IsNumber b) :
    sum (.infinity s) b = .infinity s ∧ b ≠ .infinity (-s) ∨
      (sum (.infinity s) b).isNaN = true ∧ b = .infinity (-s) := by
  cases b with
  | infinity s' => cases s <;> cases s' <;> first | exact Or.inl ⟨rfl, nofun⟩ | exact Or.inr ⟨rfl, rfl⟩
  | notANumber => cases hb.isNaN
  | zero s' => exact Or.inl ⟨stored_infinity s, nofun⟩
  | finite s' m e hm => exact Or.inl ⟨stored_infinity s, nofun⟩

theorem sum_infinity_right (s : Sign) {a : UnpackedFloat} (ha : a.isFinite = true) :
    sum a (.infinity s) = .infinity s := by
  cases a with
  | infinity s' => cases ha
  | notANumber => cases ha
  | zero s' => exact stored_infinity s
  | finite s' m e hm => exact stored_infinity s

theorem isNaN_sum_iff {a b : UnpackedFloat} (ha : IsNumber a) (hb : IsNumber b) :
    (sum a b).isNaN = true ↔ ∃ s, a = .infinity s ∧ b = .infinity (-s) := by
  rcases ha.isFinite_or with hfa | ⟨s, rfl⟩
  · refine iff_of_false ?_ ?_
    · rcases hb.isFinite_or with hfb | ⟨s, rfl⟩
      · exact Bool.eq_false_iff.mp (counts_add ha.stored hb.stored hfa hfb).isNaN
      · rw [sum_infinity_right s hfa]
        exact Bool.eq_false_iff.mp (isNumber_infinity s).isNaN
    · rintro ⟨s, rfl, -⟩
      cases hfa
  · rcases sum_infinity_left s hb with ⟨hsum, hne⟩ | ⟨hsum, rfl⟩
    · refine iff_of_false ?_ ?_
      · rw [hsum]
        exact Bool.eq_false_iff.mp (isNumber_infinity s).isNaN
      · rintro ⟨s', hs, hb'⟩
        cases hs
        exact hne hb'
    · exact iff_of_true hsum ⟨s, rfl, rfl⟩

theorem sum_infinity {a b : UnpackedFloat} {s : Sign} (ha : IsNumber a) (hb : IsNumber b)
    (hsum : (sum a b).isNaN = false) (h : a = .infinity s ∨ b = .infinity s) :
    sum a b = .infinity s := by
  have left {s' : Sign} (ha : a = .infinity s') : sum a b = .infinity s' ∧ b ≠ .infinity (-s') := by
    subst ha
    rcases sum_infinity_left s' hb with hleft | ⟨hnan, -⟩
    · exact hleft
    · exact absurd hnan (Bool.eq_false_iff.mp hsum)
  rcases h with has | hbs
  · exact (left has).1
  · rcases ha.isFinite_or with hfa | ⟨s', has⟩
    · rw [hbs]
      exact sum_infinity_right s hfa
    · obtain ⟨heq, hne⟩ := left has
      rw [heq]
      cases s <;> cases s' <;> first | rfl | exact absurd hbs hne

theorem infinity_lt_rank {a : UnpackedFloat} (h : a ≠ .infinity .negative) :
    rank (.infinity .negative) < rank a := by
  rcases a with (_ | _) | _ | (_ | _) | ⟨(_ | _), m, e, hm⟩
  case infinity.negative => exact absurd rfl h
  all_goals exact Prod.Lex.toLex_lt_toLex.mpr (Or.inl (by norm_num))

theorem rank_lt_infinity {a : UnpackedFloat} (h : a ≠ .infinity .positive) :
    rank a < rank (.infinity .positive) := by
  rcases a with (_ | _) | _ | (_ | _) | ⟨(_ | _), m, e, hm⟩
  case infinity.positive => exact absurd rfl h
  all_goals exact Prod.Lex.toLex_lt_toLex.mpr (Or.inl (by norm_num))

theorem infinity_le_rank (a : UnpackedFloat) : rank (.infinity .negative) ≤ rank a := by
  by_cases h : a = .infinity .negative
  · rw [h]
  · exact (infinity_lt_rank h).le

theorem eq_infinity_of_rank_eq {a : UnpackedFloat} {s : Sign} (h : rank a = rank (.infinity s)) :
    a = .infinity s := by
  by_contra hne
  cases s
  · exact (infinity_lt_rank hne).ne h.symm
  · exact (rank_lt_infinity hne).ne h

/-- Between numbers that are not infinite there are finite numbers only. -/
theorem isFinite_of_rank_le {a b : UnpackedFloat} (ha : IsNumber a) (hb : IsNumber b)
    (h : rank a ≤ rank b) (hbottom : a ≠ .infinity .negative) (htop : b ≠ .infinity .positive) :
    a.isFinite = true ∧ b.isFinite = true := by
  constructor
  · rcases ha.isFinite_or with hfa | ⟨_ | _, rfl⟩
    · exact hfa
    · exact absurd rfl hbottom
    · exact absurd (rank_lt_infinity htop) (not_lt.mpr h)
  · rcases hb.isFinite_or with hfb | ⟨_ | _, rfl⟩
    · exact hfb
    · exact absurd (infinity_lt_rank hbottom) (not_lt.mpr h)
    · exact absurd rfl htop

/-- Sums grow with their terms. -/
theorem sum_mono {a a' b b' : UnpackedFloat} (ha : IsNumber a) (ha' : IsNumber a')
    (hb : IsNumber b) (hb' : IsNumber b') (haa' : rank a ≤ rank a') (hbb' : rank b ≤ rank b')
    (hsum : (sum a b).isNaN = false) (hsum' : (sum a' b').isNaN = false) :
    rank (sum a b) ≤ rank (sum a' b') := by
  by_cases htop : a' = .infinity .positive ∨ b' = .infinity .positive
  · rw [sum_infinity ha' hb' hsum' htop]
    exact rank_le_infinity _
  by_cases hbottom : a = .infinity .negative ∨ b = .infinity .negative
  · rw [sum_infinity ha hb hsum hbottom]
    exact infinity_le_rank _
  obtain ⟨hta, htb⟩ := not_or.mp htop
  obtain ⟨hbota, hbotb⟩ := not_or.mp hbottom
  obtain ⟨hfa, hfa'⟩ := isFinite_of_rank_le ha ha' haa' hbota hta
  obtain ⟨hfb, hfb'⟩ := isFinite_of_rank_le hb hb' hbb' hbotb htb
  rw [rank_le_iff (isStored_sum a b) (isStored_sum a' b')]
  have hunits : units a + units b ≤ units a' + units b' :=
    Int.add_le_add ((rank_le_iff ha.stored ha'.stored).mp haa')
      ((rank_le_iff hb.stored hb'.stored).mp hbb')
  calc
    units (sum a b) = clamped (signedRounded (units a + units b)) :=
      units_sum ha.stored hb.stored hfa hfb
    _ ≤ clamped (signedRounded (units a' + units b')) := clamped_mono (signedRounded_mono hunits)
    _ = units (sum a' b') := (units_sum ha'.stored hb'.stored hfa' hfb').symm

/-- A stored number is not rounded. -/
theorem IsStored.clamped_units {a : UnpackedFloat} (h : IsStored a) (hf : a.isFinite = true) :
    clamped (signedRounded (units a)) = units a := by
  rcases h with _ | _ | s | @⟨s, m, j, e, hm, hc, hunits, rfl⟩
  case infinity => cases hf
  case notANumber => cases hf
  case zero =>
    have := overflow_pos
    rw [units, signedRounded_zero, clamped]
    omega
  case finite =>
    rw [units_finite, signedRounded_apply, hc.rounded, clamped]
    cases s <;> simp only [Sign.apply] <;> omega

theorem isNaN_sum_of_nonneg {a b : UnpackedFloat} (ha : IsNumber a) (hb : IsNumber b)
    (ha0 : rank (.zero .positive) ≤ rank a) (hb0 : rank (.zero .positive) ≤ rank b) :
    (sum a b).isNaN = false := by
  have hneg {c : UnpackedFloat} (h : rank (.zero .positive) ≤ rank c) : c ≠ .infinity .negative := by
    rintro rfl
    exact absurd (infinity_lt_rank (a := .zero .positive) nofun) (not_lt.mpr h)
  rw [Bool.eq_false_iff, ne_eq, isNaN_sum_iff ha hb]
  rintro ⟨_ | _, ha', hb'⟩
  · exact hneg ha0 ha'
  · exact hneg hb0 hb'

/-- A number grows when another one that is not negative is added. -/
theorem rank_le_sum {a b : UnpackedFloat} (ha : IsNumber a) (hb : IsNumber b)
    (hb0 : rank (.zero .positive) ≤ rank b) (hsum : (sum a b).isNaN = false) :
    rank a ≤ rank (sum a b) := by
  by_cases htop : a = .infinity .positive ∨ b = .infinity .positive
  · rw [sum_infinity ha hb hsum htop]
    exact rank_le_infinity a
  obtain ⟨hta, htb⟩ := not_or.mp htop
  have hfb := (isFinite_of_rank_le isNumber_zero hb hb0 nofun htb).2
  rcases ha.isFinite_or with hfa | ⟨_ | _, rfl⟩
  · rw [rank_le_iff ha.stored (isStored_sum a b)]
    have hunits : 0 ≤ units b := (rank_le_iff (.zero .positive) hb.stored).mp hb0
    calc
      units a = clamped (signedRounded (units a)) := (ha.stored.clamped_units hfa).symm
      _ ≤ clamped (signedRounded (units a + units b)) :=
        clamped_mono (signedRounded_mono (by omega))
      _ = units (sum a b) := (units_sum ha.stored hb.stored hfa hfb).symm
  · exact infinity_le_rank _
  · exact absurd rfl hta

theorem IsNumber.neg {a : UnpackedFloat} (h : IsNumber a) : IsNumber a.neg where
  stored := h.stored.neg
  isNaN := by
    have := h.isNaN
    cases a <;> first | rfl | contradiction

theorem rank_neg_le {a b : UnpackedFloat} (ha : IsStored a) (hb : IsStored b)
    (h : rank a ≤ rank b) : rank b.neg ≤ rank a.neg := by
  rw [rank_le_iff hb.neg ha.neg, units_neg, units_neg]
  exact Int.neg_le_neg ((rank_le_iff ha hb).mp h)

theorem neg_eq_infinity {b : UnpackedFloat} {s : Sign} (h : b.neg = .infinity (-s)) :
    b = .infinity s := by
  cases b with
  | infinity s' => cases s' <;> cases s <;> first | rfl | cases h
  | notANumber => cases h
  | zero s' => cases h
  | finite s' m e hm => cases h

/-- Of two numbers in order only equal infinities have no difference. -/
theorem isNaN_difference_iff {a b : UnpackedFloat} (ha : IsNumber a) (hb : IsNumber b)
    (h : rank b ≤ rank a) :
    (sum a b.neg).isNaN = true ↔ rank a ≤ rank b ∧ a.isFinite = false := by
  rw [isNaN_sum_iff ha hb.neg]
  constructor
  · rintro ⟨s, rfl, hneg⟩
    rw [neg_eq_infinity hneg]
    exact ⟨le_refl _, rfl⟩
  · rintro ⟨hle, hfinite⟩
    rcases ha.isFinite_or with hfa | ⟨s, rfl⟩
    · exact absurd hfa (Bool.eq_false_iff.mp hfinite)
    · rw [eq_infinity_of_rank_eq (h.antisymm hle)]
      exact ⟨s, rfl, rfl⟩

/-- A difference that is wider is a number as well, and no smaller. -/
theorem difference_mono {a a' b b' : UnpackedFloat} (ha : IsNumber a) (ha' : IsNumber a')
    (hb : IsNumber b) (hb' : IsNumber b') (haa' : rank a ≤ rank a') (hbb' : rank b' ≤ rank b)
    (h : rank b ≤ rank a) (hsum : (sum a b.neg).isNaN = false) :
    (sum a' b'.neg).isNaN = false ∧ rank (sum a b.neg) ≤ rank (sum a' b'.neg) := by
  have hsum' : (sum a' b'.neg).isNaN = false := by
    rw [Bool.eq_false_iff, ne_eq, isNaN_difference_iff ha' hb' (hbb'.trans (h.trans haa'))]
    rintro ⟨hle, hfinite⟩
    rcases ha'.isFinite_or with hfa | ⟨s, rfl⟩
    · exact absurd hfa (Bool.eq_false_iff.mp hfinite)
    · have heq := eq_infinity_of_rank_eq (haa'.antisymm (hle.trans (hbb'.trans h)))
      have hnan := (isNaN_difference_iff ha hb h).mpr ⟨haa'.trans (hle.trans hbb'), heq ▸ rfl⟩
      exact absurd hnan (Bool.eq_false_iff.mp hsum)
  refine ⟨hsum', ?_⟩
  exact sum_mono ha ha' hb.neg hb'.neg haa' (rank_neg_le hb'.stored hb.stored hbb') hsum hsum'

theorem difference_self_nonneg {b : UnpackedFloat} (hb : IsNumber b) (hfb : b.isFinite = true) :
    (sum b b.neg).isNaN = false ∧ rank (.zero .positive) ≤ rank (sum b b.neg) := by
  have hfneg : b.neg.isFinite = true := by
    cases b <;> first | rfl | cases hfb
  constructor
  · rw [Bool.eq_false_iff, ne_eq, isNaN_difference_iff hb hb (le_refl _)]
    rintro ⟨-, hfinite⟩
    exact Bool.eq_false_iff.mp hfinite hfb
  · rw [rank_le_iff (.zero .positive) (isStored_sum _ _), units_sum hb.stored hb.stored.neg hfb hfneg,
      units_neg, Int.add_right_neg]
    exact ((IsStored.zero .positive).clamped_units rfl).ge

/-- The difference of two numbers in order is not negative. -/
theorem difference_nonneg {a b : UnpackedFloat} (ha : IsNumber a) (hb : IsNumber b)
    (h : rank b ≤ rank a) (hsum : (sum a b.neg).isNaN = false) :
    rank (.zero .positive) ≤ rank (sum a b.neg) := by
  rcases hb.isFinite_or with hfb | ⟨_ | _, rfl⟩
  · obtain ⟨hself, hzero⟩ := difference_self_nonneg hb hfb
    exact hzero.trans (difference_mono hb ha hb hb h (le_refl _) (le_refl _) hself).2
  · have htop : sum a (.infinity .positive) = .infinity .positive :=
      sum_infinity ha (isNumber_infinity _) hsum (Or.inr rfl)
    exact (rank_le_infinity _).trans (congrArg rank htop).ge
  · have heq := eq_infinity_of_rank_eq ((rank_le_infinity a).antisymm h)
    have hnan := (isNaN_difference_iff ha hb h).mpr ⟨rank_le_infinity a, heq ▸ rfl⟩
    exact absurd hnan (Bool.eq_false_iff.mp hsum)

theorem unpack_add (x y : Float) :
    (x + y).toModel.unpack = sum x.toModel.unpack y.toModel.unpack := rfl

theorem unpack_sub (x y : Float) :
    (x - y).toModel.unpack = sum x.toModel.unpack y.toModel.unpack.neg :=
  congrArg stored (sub_eq_add_neg _ _)

/-- Numbers that are compared are numbers. -/
theorem isNumber_of_float_le {x y : Float} (h : x ≤ y) :
    IsNumber x.toModel.unpack ∧ IsNumber y.toModel.unpack ∧
      rank x.toModel.unpack ≤ rank y.toModel.unpack := by
  obtain ⟨hx, hy, hrank⟩ := Scalar.float_le_iff.mp h
  exact ⟨⟨isStored_unpack _, hx⟩, ⟨isStored_unpack _, hy⟩, hrank⟩

theorem isNaN_float_sub (x y : Float) :
    Scalar.isNaN (x - y) = (sum x.toModel.unpack y.toModel.unpack.neg).isNaN :=
  congrArg UnpackedFloat.isNaN (unpack_sub x y)

end VolumeWatch.Binary

namespace VolumeWatch.Scalar

/-- Sums and differences go with their terms, as far as they are numbers. -/
class Monotonic (α : Type) [Scalar α] : Prop extends Ordered α where
  le_add {x y : α} : 0 ≤ x → 0 ≤ y → x ≤ x + y
  sub_nonneg {x y : α} : y ≤ x → isNaN (x - y) = false → 0 ≤ x - y
  sub_le_sub {x x' y y' : α} : x ≤ x' → y' ≤ y → y ≤ x → isNaN (x - y) = false →
    x - y ≤ x' - y'
  isNaN_sub_iff {x y : α} : y ≤ x → (isNaN (x - y) = true ↔ x ≤ y ∧ isFinite x = false)

instance : Monotonic ℝ where
  le_add _ hy := le_add_of_nonneg_right hy
  sub_nonneg h _ := sub_nonneg.mpr h
  sub_le_sub hx hy _ _ := sub_le_sub hx hy
  isNaN_sub_iff _ := ⟨nofun, nofun⟩

open Binary

instance : Monotonic Float where
  le_add {x y} hx hy := by
    obtain ⟨-, hnx, hx0⟩ := isNumber_of_float_le hx
    obtain ⟨-, hny, hy0⟩ := isNumber_of_float_le hy
    have hsum := isNaN_sum_of_nonneg hnx hny hx0 hy0
    refine float_le_iff.mpr ⟨hnx.isNaN, hsum, ?_⟩
    rw [unpack_add]
    exact rank_le_sum hnx hny hy0 hsum
  sub_nonneg {x y} h hnan := by
    obtain ⟨hny, hnx, hrank⟩ := isNumber_of_float_le h
    refine float_le_iff.mpr ⟨rfl, hnan, ?_⟩
    rw [isNaN_float_sub] at hnan
    rw [unpack_sub]
    exact difference_nonneg hnx hny hrank hnan
  sub_le_sub {x x' y y'} hx hy h hnan := by
    obtain ⟨hnx, hnx', hrankx⟩ := isNumber_of_float_le hx
    obtain ⟨hny', hny, hranky⟩ := isNumber_of_float_le hy
    obtain ⟨hnan', hrank⟩ := difference_mono hnx hnx' hny hny' hrankx hranky
      (isNumber_of_float_le h).2.2 ((isNaN_float_sub x y).symm.trans hnan)
    refine float_le_iff.mpr ⟨hnan, (isNaN_float_sub x' y').trans hnan', ?_⟩
    rw [unpack_sub, unpack_sub]
    exact hrank
  isNaN_sub_iff {x y} h := by
    obtain ⟨hny, hnx, hrank⟩ := isNumber_of_float_le h
    rw [isNaN_float_sub, isNaN_difference_iff hnx hny hrank]
    refine and_congr_left' ?_
    rw [float_le_iff]
    exact ⟨fun hle => ⟨hnx.isNaN, hny.isNaN, hle⟩, fun hle => hle.2.2⟩

end VolumeWatch.Scalar
