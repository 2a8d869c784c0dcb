import VolumeWatch.Proofs.Scalar.Sums
import VolumeWatch.Proofs.Series.Extremes

/-!
Well-formed bars: prices between the low and the high, and a volume that is not negative. Longer bars
of well-formed bars are well formed (`Bar.MadeOf.wellFormed`), and have at least the range of each of
their parts that has one (`Bar.MadeOf.range_le`). Only a bar whose low and high are the same infinity
has none.
-/

namespace VolumeWatch

open Scalar (Ordered Monotonic isNaN isFinite)

variable {α : Type} [Scalar α]

theorem Scalar.add_nonneg [Monotonic α] {x y : α} (hx : 0 ≤ x) (hy : 0 ≤ y) : 0 ≤ x + y :=
  Ordered.le_trans hx (Monotonic.le_add hx hy)

namespace Bar

structure WellFormed (b : Bar α) : Prop where
  low_le_opening : b.low ≤ b.opening
  opening_le_high : b.opening ≤ b.high
  low_le_close : b.low ≤ b.close
  close_le_high : b.close ≤ b.high
  volume_nonneg : 0 ≤ b.volume

instance (b : Bar α) : Decidable b.WellFormed :=
  decidable_of_iff (b.low ≤ b.opening ∧ b.opening ≤ b.high ∧ b.low ≤ b.close ∧ b.close ≤ b.high ∧
    0 ≤ b.volume) ⟨fun ⟨h₁, h₂, h₃, h₄, h₅⟩ => ⟨h₁, h₂, h₃, h₄, h₅⟩,
      fun ⟨h₁, h₂, h₃, h₄, h₅⟩ => ⟨h₁, h₂, h₃, h₄, h₅⟩⟩

/-- The low and the high are the same infinity. -/
def Boundless (b : Bar α) : Prop := b.high ≤ b.low ∧ isFinite b.high = false

instance (b : Bar α) : Decidable b.Boundless := inferInstanceAs (Decidable (_ ∧ _))

theorem MadeOf.volume_nonneg [Monotonic α] {b : Bar α} {parts : List (Bar α)} (h : b.MadeOf parts)
    (hparts : ∀ p ∈ parts, 0 ≤ p.volume) : 0 ≤ b.volume := by
  induction h with
  | single b => exact hparts b (List.mem_singleton_self b)
  | extend _ _ ihu ihv =>
    obtain ⟨hu, hv⟩ := List.forall_mem_append.mp hparts
    exact Scalar.add_nonneg (ihu hu) (ihv hv)

section Ordered

variable [Ordered α]

theorem WellFormed.low_le_high {b : Bar α} (h : b.WellFormed) : b.low ≤ b.high :=
  Ordered.le_trans h.low_le_opening h.opening_le_high

theorem WellFormed.isNaN_low {b : Bar α} (h : b.WellFormed) : isNaN b.low = false :=
  (Ordered.isNaN_of_le h.low_le_high).1

theorem WellFormed.isNaN_high {b : Bar α} (h : b.WellFormed) : isNaN b.high = false :=
  (Ordered.isNaN_of_le h.low_le_high).2

end Ordered

variable [Monotonic α]

/-- A bar opens with the first of two bars and closes with the second, between the lows and the highs
of both. -/
theorem WellFormed.extend {a b : Bar α} (ha : a.WellFormed) (hb : b.WellFormed) :
    (a.extend b).WellFormed where
  low_le_opening := Ordered.le_trans (Scalar.min_le_left ha.isNaN_low) ha.low_le_opening
  opening_le_high := Ordered.le_trans ha.opening_le_high (Scalar.le_max_left ha.isNaN_high)
  low_le_close := Ordered.le_trans (Scalar.min_le_right hb.isNaN_low) hb.low_le_close
  close_le_high := Ordered.le_trans hb.close_le_high (Scalar.le_max_right hb.isNaN_high)
  volume_nonneg := Scalar.add_nonneg ha.volume_nonneg hb.volume_nonneg

theorem MadeOf.wellFormed {b : Bar α} {parts : List (Bar α)} (h : b.MadeOf parts)
    (hparts : ∀ p ∈ parts, p.WellFormed) : b.WellFormed := by
  induction h with
  | single b => exact hparts b (List.mem_singleton_self b)
  | extend _ _ ihu ihv =>
    obtain ⟨hu, hv⟩ := List.forall_mem_append.mp hparts
    exact (ihu hu).extend (ihv hv)

theorem WellFormed.isNaN_range_iff {b : Bar α} (h : b.WellFormed) :
    isNaN b.range = true ↔ b.Boundless := Monotonic.isNaN_sub_iff h.low_le_high

theorem WellFormed.isNaN_range {b : Bar α} (h : b.WellFormed) (hb : ¬ b.Boundless) :
    isNaN b.range = false := Bool.eq_false_iff.mpr (mt h.isNaN_range_iff.mp hb)

theorem WellFormed.range_nonneg {b : Bar α} (h : b.WellFormed) (hb : ¬ b.Boundless) :
    0 ≤ b.range := Monotonic.sub_nonneg h.low_le_high (h.isNaN_range hb)

/-- A range is not negative, also where it is not a number. -/
theorem WellFormed.not_range_lt_zero {b : Bar α} (h : b.WellFormed) : ¬ b.range < 0 := by
  intro hlt
  obtain ⟨hle, hnot⟩ := Ordered.lt_iff_le_not_ge.mp hlt
  exact hnot (Monotonic.sub_nonneg h.low_le_high (Ordered.isNaN_of_le hle).1)

/-- A bar has at least the range of each of its parts. -/
theorem MadeOf.range_le {b : Bar α} {parts : List (Bar α)} (h : b.MadeOf parts) {p : Bar α}
    (hp : p ∈ parts) (hpart : p.WellFormed) (hbounded : ¬ p.Boundless) : p.range ≤ b.range := by
  have hhigh := h.ranges.le_high p hp hpart.isNaN_high
  have hlow := h.ranges.low_le p hp hpart.isNaN_low
  exact Monotonic.sub_le_sub hhigh hlow hpart.low_le_high (hpart.isNaN_range hbounded)

end Bar

/-- The extremes of well-formed bars include their closes. -/
theorem Extremes.Covers.close_between [Ordered α] {e : Extremes α} {bars : List (Bar α)}
    (h : e.Covers bars) {b : Bar α} (hb : b ∈ bars) (hwell : b.WellFormed) :
    e.low ≤ b.close ∧ b.close ≤ e.high := by
  have hlow := h.low_le b hb
  rw [Ordered.bounded_eq hwell.isNaN_low] at hlow
  exact ⟨Ordered.le_trans hlow hwell.low_le_close,
    Ordered.le_trans hwell.close_le_high (h.le_high b hb hwell.isNaN_high)⟩

namespace Series

/-- After a feed each bar is made of its own stretch of the feed. -/
theorem madeOf_ofFeed (c : ContractId) (isUnderlying : Bool) (feed : List (Bar α)) (t : Timeframe)
    {i : Nat} (hi : i < (((empty c isUnderlying).ingestAll feed).bars t).size) :
    (((empty c isUnderlying).ingestAll feed).bars t)[i].MadeOf (stretch feed t.parts i) := by
  have hmade := (aligned_ofFeed c isUnderlying feed).covers t hi
  rwa [toList_bars_ofFeed] at hmade

theorem mem_of_mem_stretch {β : Type} {l : List β} {n i : Nat} {x : β} (h : x ∈ stretch l n i) :
    x ∈ l := List.mem_of_mem_drop (List.mem_of_mem_take h)

/-- In a feed of well-formed bars all bars on all timeframes are well formed, and their ranges are not
negative. Each has at least the range of every bar of five seconds that it is made of, unless the low
and the high of the latter are the same infinity: such bars, and no others, have a range that is not a
number. After each bar its close lies between the extremes of the day. -/
theorem well_formed_aggregate [Monotonic α] (c : ContractId) (isUnderlying : Bool)
    (feed : List (Bar α)) (hfeed : ∀ b ∈ feed, b.WellFormed) :
    let s := (empty c isUnderlying).ingestAll feed
    (∀ t i (hi : i < (s.bars t).size),
      (s.bars t)[i].WellFormed ∧ ¬ (s.bars t)[i].range < 0 ∧
      (isNaN (s.bars t)[i].range = true ↔ (s.bars t)[i].Boundless) ∧
      ∀ p ∈ stretch feed t.parts i, ¬ p.Boundless →
        0 ≤ p.range ∧ p.range ≤ (s.bars t)[i].range) ∧
    ∀ before b, feed = before ++ [b] → s.price? = some b.close ∧
      ∃ e, s.daily = some e ∧ e.low ≤ b.close ∧ b.close ≤ e.high := by
  intro s
  constructor
  · intro t i hi
    have hmade : (s.bars t)[i].MadeOf (stretch feed t.parts i) :=
      madeOf_ofFeed c isUnderlying feed t hi
    have hparts : ∀ p ∈ stretch feed t.parts i, p.WellFormed := fun p hp =>
      hfeed p (mem_of_mem_stretch hp)
    have hwell := hmade.wellFormed hparts
    exact ⟨hwell, hwell.not_range_lt_zero, hwell.isNaN_range_iff, fun p hp hbounded =>
      ⟨(hparts p hp).range_nonneg hbounded, hmade.range_le hp (hparts p hp) hbounded⟩⟩
  · rintro before b rfl
    have hmem : b ∈ before ++ [b] := List.mem_append_right before (List.mem_singleton_self b)
    refine ⟨by rw [price?_ofFeed, List.getLast?_concat]; rfl, ?_⟩
    obtain ⟨e, he⟩ : ∃ e, s.daily = some e := by
      refine Option.ne_none_iff_exists'.mp ?_
      rw [daily_ofFeed, ne_eq, Extremes.ofBars?_eq_none_iff]
      exact List.concat_ne_nil b before
    exact ⟨e, he, (covers_daily he).close_between hmem (hfeed b hmem)⟩

/-- A bar at infinity before five others. -/
def boundlessFeed : List (Bar Float) := levelBar (1.0 / 0.0) :: List.replicate 5 (levelBar 10)

theorem wellFormed_boundlessFeed : ∀ b ∈ boundlessFeed, b.WellFormed := by decide

theorem well_formed_aggregate_boundlessFeed :
    let s := (empty ⟨0⟩ true).ingestAll boundlessFeed
    (∀ b ∈ boundlessFeed, b.WellFormed) ∧
      (∃ hi : 0 < (s.bars .s30).size, (s.bars .s30)[0].WellFormed ∧
        (levelBar 10).range ≤ (s.bars .s30)[0].range) ∧
      ∃ e, s.daily = some e ∧ e.low ≤ 10 ∧ 10 ≤ e.high := by
  intro s
  obtain ⟨hbars, hclose⟩ := well_formed_aggregate ⟨0⟩ true boundlessFeed wellFormed_boundlessFeed
  have hi : 0 < (s.bars .s30).size := by decide +kernel
  refine ⟨wellFormed_boundlessFeed, ⟨hi, ?_⟩, ?_⟩
  · obtain ⟨hwell, -, -, hparts⟩ := hbars .s30 0 hi
    exact ⟨hwell, (hparts (levelBar 10) (List.mem_of_getElem? (i := 1) rfl) (by decide)).2⟩
  · exact (hclose (boundlessFeed.take 5) (levelBar 10) rfl).2

/-- A bar at infinity has no range that another one could be compared with. -/
theorem not_range_le_boundlessFeed :
    ¬ ∀ (c : ContractId) (isUnderlying : Bool) (feed : List (Bar Float)),
        (∀ b ∈ feed, b.WellFormed) →
        let s := (empty c isUnderlying).ingestAll feed
        ∀ t, t ≠ .s5 → ∀ i (hi : i < (s.bars t).size), ∀ p ∈ stretch feed t.parts i,
          p.range ≤ (s.bars t)[i].range := by
  intro hall
  have hle := hall ⟨0⟩ true boundlessFeed wellFormed_boundlessFeed .s30 (by decide) 0
    (by decide +kernel) (levelBar (1.0 / 0.0)) (List.mem_of_getElem? (i := 0) rfl)
  have hnan : isNaN (levelBar (1.0 / 0.0)).range = true := by decide
  rw [(Ordered.isNaN_of_le hle).1] at hnan
  cases hnan

end Series

end VolumeWatch
