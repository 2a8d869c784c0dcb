import VolumeWatch.Series.Basic

/-!
Windows: the bars that start between two instants. In a list of bars in time order the two searches
find exactly these (`Series.between_eq_within`), and bars that come later do not matter
(`within_append`).
-/

namespace VolumeWatch

open Calendar (Instant)

/-- The entries that satisfy a test come first. -/
def Cut {β : Type} (p : β → Bool) (l : List β) : Prop := l.Pairwise fun x y => p y → p x

namespace Cut

variable {β : Type} {p q : β → Bool} {l : List β} {x : β}

theorem countP_eq_zero (h : Cut p (x :: l)) (hx : p x = false) : l.countP p = 0 := by
  refine List.countP_eq_zero.mpr fun y hy hp => ?_
  have := (List.pairwise_cons.mp h).1 y hy hp
  simp [hx] at this

theorem holdsAt_iff (h : Cut p l) (i : Nat) : holdsAt p l.toArray i ↔ i < l.countP p := by
  unfold holdsAt
  rw [List.getElem?_toArray]
  induction l generalizing i with
  | nil => simp
  | cons x l ih =>
    have hl : Cut p l := (List.pairwise_cons.mp h).2
    cases hx : p x with
    | true =>
      rw [List.countP_cons_of_pos hx]
      cases i with
      | zero => simp [hx]
      | succ i => simpa using ih hl i
    | false =>
      have hzero := h.countP_eq_zero hx
      rw [List.countP_cons_of_neg (by simp [hx]), hzero]
      cases i with
      | zero => simp [hx]
      | succ i =>
        have := ih hl i
        rw [hzero] at this
        simpa using this

theorem partitionPoint_eq_countP (h : Cut p l) : partitionPoint p l.toArray = l.countP p :=
  partitionPoint_eq List.countP_le_length fun i _ => h.holdsAt_iff i

/-- Between two boundaries stand the entries that satisfy the second test and not the first. -/
theorem drop_take (hp : Cut p l) (hq : Cut q l) :
    (l.take (l.countP q)).drop (l.countP p) = l.filter fun x => !p x && q x := by
  induction l with
  | nil => rfl
  | cons x l ih =>
    have ih := ih (List.pairwise_cons.mp hp).2 (List.pairwise_cons.mp hq).2
    cases hqx : q x with
    | false =>
      have hzero := hq.countP_eq_zero hqx
      rw [hzero, List.take_zero, List.drop_nil] at ih
      rw [List.countP_cons_of_neg (p := q) (by simp [hqx]), hzero, List.take_zero, List.drop_nil,
        List.filter_cons_of_neg (by simp [hqx]), ← ih]
    | true =>
      rw [List.countP_cons_of_pos hqx, List.take_succ_cons]
      cases hpx : p x with
      | true =>
        rw [List.countP_cons_of_pos hpx, List.drop_succ_cons, ih,
          List.filter_cons_of_neg (by simp [hpx])]
      | false =>
        have hzero := hp.countP_eq_zero hpx
        rw [hzero, List.drop_zero] at ih
        rw [List.countP_cons_of_neg (by simp [hpx]), hzero, List.drop_zero, ih,
          List.filter_cons_of_pos (by simp [hpx, hqx])]

theorem takeWhile_eq_filter (h : Cut p l) : l.takeWhile p = l.filter p := by
  induction l with
  | nil => rfl
  | cons x l ih =>
    cases hx : p x with
    | true =>
      rw [List.takeWhile_cons_of_pos hx, List.filter_cons_of_pos hx, ih (List.pairwise_cons.mp h).2]
    | false =>
      have hnone : l.filter p = [] := by
        rw [← List.length_eq_zero_iff, ← List.countP_eq_length_filter, h.countP_eq_zero hx]
      rw [List.takeWhile_cons_of_neg (by simp [hx]), List.filter_cons_of_neg (by simp [hx]), hnone]

theorem dropWhile_eq_filter (h : Cut p l) : l.dropWhile p = l.filter fun x => !p x := by
  induction l with
  | nil => rfl
  | cons x l ih =>
    cases hx : p x with
    | true =>
      rw [List.dropWhile_cons_of_pos hx, List.filter_cons_of_neg (by simp [hx]),
        ih (List.pairwise_cons.mp h).2]
    | false =>
      have hall : l.filter (fun y => !p y) = l := by
        refine List.filter_eq_self.mpr fun y hy => ?_
        have := List.countP_eq_zero.mp (h.countP_eq_zero hx) y hy
        simpa using this
      rw [List.dropWhile_cons_of_neg (by simp [hx]), List.filter_cons_of_pos (by simp [hx]), hall]

end Cut

variable {α : Type}

def within (start stop : Instant) (bars : List (Bar α)) : List (Bar α) :=
  bars.filter fun b => start ≤ b.timestamp ∧ b.timestamp < stop

/-- Bars in time order. -/
def InTime (bars : List (Bar α)) : Prop := bars.Pairwise fun a b => a.timestamp ≤ b.timestamp

instance (bars : List (Bar α)) : Decidable (InTime bars) :=
  inferInstanceAs (Decidable (List.Pairwise _ _))

namespace InTime

theorem cut {bars : List (Bar α)} (h : InTime bars) (t : Instant) :
    Cut (fun b : Bar α => b.timestamp < t) bars := by
  refine h.imp fun {a b} hab hb => ?_
  simp only [decide_eq_true_eq, Instant.le_iff, Instant.lt_iff] at hab hb ⊢
  omega

theorem of_append {fed rest : List (Bar α)} (h : InTime (fed ++ rest)) : InTime fed :=
  (List.pairwise_append.mp h).1

end InTime

theorem InTime.within {bars : List (Bar α)} (h : InTime bars) (start stop : Instant) :
    InTime (within start stop bars) := h.filter _

theorem mem_within {start stop : Instant} {bars : List (Bar α)} {b : Bar α} :
    b ∈ within start stop bars ↔ b ∈ bars ∧ start ≤ b.timestamp ∧ b.timestamp < stop := by
  simp [within]

theorem within_eq_nil_iff {start stop : Instant} {bars : List (Bar α)} :
    within start stop bars = [] ↔ ∀ b ∈ bars, start ≤ b.timestamp → stop ≤ b.timestamp := by
  simp [within, List.filter_eq_nil_iff, Instant.not_lt]

theorem within_within {start stop start' stop' : Instant} (hstart : start' ≤ start)
    (hstop : stop ≤ stop') (bars : List (Bar α)) :
    within start stop (within start' stop' bars) = within start stop bars := by
  unfold within
  rw [List.filter_filter]
  apply List.filter_congr
  intro b _
  rw [← Bool.decide_and, decide_eq_decide]
  refine ⟨And.left, fun h => ⟨h, Instant.le_trans hstart h.1, Int.lt_of_lt_of_le h.2 hstop⟩⟩

theorem Tier.between_eq_within {t : Tier α} (h : InTime t.bars.toList) (start stop : Instant) :
    t.between start stop = within start stop t.bars.toList := by
  have hstart := (h.cut start).partitionPoint_eq_countP
  have hstop := (h.cut stop).partitionPoint_eq_countP
  rw [Array.toArray_toList] at hstart hstop
  unfold between within
  rw [hstart, hstop, Array.toList_extract, List.extract_eq_take_drop, ← List.drop_take,
    (h.cut start).drop_take (h.cut stop)]
  apply List.filter_congr
  intro b _
  simp [← Instant.not_lt]

/-- Bars that start at or after the end of a window do not belong to it. -/
theorem within_append {start stop : Instant} {fed rest : List (Bar α)}
    (h : ∀ b ∈ rest, stop ≤ b.timestamp) :
    within start stop (fed ++ rest) = within start stop fed := by
  have hrest : within start stop rest = [] := within_eq_nil_iff.mpr fun b hb _ => h b hb
  unfold within at hrest ⊢
  rw [List.filter_append, hrest, List.append_nil]

end VolumeWatch
