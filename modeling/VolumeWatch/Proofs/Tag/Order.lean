import VolumeWatch.Proofs.Tag.Packing

/-!
The orders of tags and of tag values. Tags compare by their first dimension, and where they agree in
it by the next one (`Tags.rank_lt_iff`). Tag values compare by dimension, and within a dimension by
their position in it (`TagValue.id_lt_iff`).
-/

namespace VolumeWatch

namespace Nibbles

theorem value_reverse_cons (d : Nat) (ds : List Nat) :
    value (d :: ds).reverse = value ds.reverse + Nat.pow 16 ds.length * d := by
  simp [value_append, value]

/-- Numbers with as many digits compare by their first digits from the top on. -/
theorem value_reverse_lt_iff {ds es : List Nat} (hd : ∀ d ∈ ds, d < 16) (he : ∀ e ∈ es, e < 16)
    (hl : ds.length = es.length) : value ds.reverse < value es.reverse ↔ ds < es := by
  induction ds generalizing es with
  | nil => simp_all [eq_comm]
  | cons d ds ih =>
    match es, hl with
    | e :: es, hl =>
      simp only [List.length_cons, Nat.add_right_cancel_iff] at hl
      simp only [List.forall_mem_cons] at hd he
      have hds : value ds.reverse < Nat.pow 16 ds.reverse.length := value_lt (by simpa using hd.2)
      have hes : value es.reverse < Nat.pow 16 es.reverse.length := value_lt (by simpa using he.2)
      rw [List.length_reverse] at hds
      rw [List.length_reverse, ← hl] at hes
      rw [value_reverse_cons, value_reverse_cons, ← hl, List.cons_lt_cons_iff, ← ih hd.2 he.2 hl]
      generalize Nat.pow 16 ds.length = p at *
      rcases Nat.lt_trichotomy d e with hlt | rfl | hgt
      · have := Nat.mul_le_mul_left p hlt
        grind
      · simp
      · have := Nat.mul_le_mul_left p hgt
        grind

end Nibbles

/-- Tags compare by their first dimension, and where they agree in it by the next one. -/
theorem Tags.rank_lt_iff {t u : Tags} : t.rank < u.rank ↔ t.ordinals < u.ordinals :=
  Nibbles.value_reverse_lt_iff t.lt_of_mem_ordinals u.lt_of_mem_ordinals (by simp [ordinals])

theorem Dimension.offset_add_cardinality_le {d d' : Dimension}
    (h : Category.ordinal d < Category.ordinal d') : d.offset + d.cardinality ≤ d'.offset := by
  revert h
  cases d <;> cases d' <;> decide

namespace TagValue

/-- One tag value comes before another: by dimension, and within a dimension by position. -/
def Before (v w : TagValue) : Prop :=
  Category.ordinal v.dimension < Category.ordinal w.dimension ∨
    v.dimension = w.dimension ∧ v.ordinal < w.ordinal

theorem id_lt_iff {v w : TagValue} : v.id < w.id ↔ v.Before w := by
  unfold Before
  have hv := v.id_lt_offset_add
  have hw := w.id_lt_offset_add
  rcases Nat.lt_trichotomy (Category.ordinal v.dimension) (Category.ordinal w.dimension) with
    hlt | heq | hgt
  · have := Dimension.offset_add_cardinality_le hlt
    have hle : w.dimension.offset ≤ w.id := Nat.le_add_right _ _
    exact iff_of_true (by omega) (Or.inl hlt)
  · have hd := Category.ordinal_inj heq
    simp [id, hd]
  · have := Dimension.offset_add_cardinality_le hgt
    have hle : v.dimension.offset ≤ v.id := Nat.le_add_right _ _
    refine iff_of_false (by omega) ?_
    rintro (h | ⟨h, -⟩)
    · omega
    · simp [h] at hgt

end TagValue

end VolumeWatch
