import VolumeWatch.Proofs.Market.Between
import VolumeWatch.Proofs.Series.Units
import VolumeWatch.Proofs.Series.WellFormed

/-!
The ledger of volumes. Its entries stay in step with the one-minute bars (`Series.ledgered_ofFeed`): each
has the start of its bar and the volumes up to this bar, added one after the other. For bars in time
order the search in the ledger therefore finds the volume of the bars that start at or before an
instant (`Series.Ledgered.cumulativeAt_eq`).
-/

namespace VolumeWatch

open Calendar (Instant)
open Scalar (Monotonic Ordered)

theorem Cut.take_eq_filter {β : Type} {p : β → Bool} {l : List β} (h : Cut p l) :
    l.take (l.countP p) = l.filter p := by
  rw [List.countP_eq_length_filter, ← h.takeWhile_eq_filter]
  exact (List.prefix_iff_eq_take.mp (List.takeWhile_prefix p)).symm

/-- What starts at or before an instant comes first among what comes in time order. -/
theorem cut_started {β : Type} {start : β → Instant} {l : List β}
    (h : l.Pairwise fun x y => start x ≤ start y) (t : Instant) : Cut (fun x => start x ≤ t) l := by
  refine h.imp fun hle ht => ?_
  simp only [decide_eq_true_eq] at ht ⊢
  exact Instant.le_trans hle ht

variable {α : Type} [Scalar α]

/-- Volumes added one after the other, from zero on. -/
def totalVolume (bars : List (Bar α)) : α := bars.foldl (fun total b => total + b.volume) 0

theorem totalVolume_concat (bars : List (Bar α)) (b : Bar α) :
    totalVolume (bars ++ [b]) = totalVolume bars + b.volume := by
  rw [totalVolume, List.foldl_append]
  rfl

theorem totalVolume_nonneg [Monotonic α] {bars : List (Bar α)} (h : ∀ b ∈ bars, 0 ≤ b.volume) :
    0 ≤ totalVolume bars := by
  induction bars using List.reverseRecOn with
  | nil => exact Scalar.le_self Ordered.isNaN_zero
  | append_singleton bars b ih =>
    rw [totalVolume_concat]
    exact Scalar.add_nonneg (ih fun x hx => h x (List.mem_append_left _ hx)) (h b (by simp))

/-- More bars have more volume. -/
theorem totalVolume_le_append [Monotonic α] {bars rest : List (Bar α)}
    (h : ∀ b ∈ bars ++ rest, 0 ≤ b.volume) : totalVolume bars ≤ totalVolume (bars ++ rest) := by
  induction rest using List.reverseRecOn with
  | nil =>
    rw [List.append_nil] at h ⊢
    exact Scalar.le_self (Ordered.isNaN_of_le (totalVolume_nonneg h)).2
  | append_singleton rest b ih =>
    rw [← List.append_assoc] at h ⊢
    have hbars : ∀ x ∈ bars ++ rest, 0 ≤ x.volume := fun x hx => h x (List.mem_append_left _ hx)
    rw [totalVolume_concat]
    exact Ordered.le_trans (ih hbars)
      (Monotonic.le_add (totalVolume_nonneg hbars) (h b (by simp)))

theorem totalVolume_take_mono [Monotonic α] {bars : List (Bar α)} (h : ∀ b ∈ bars, 0 ≤ b.volume)
    {m n : Nat} (hmn : m ≤ n) : totalVolume (bars.take m) ≤ totalVolume (bars.take n) := by
  obtain ⟨k, rfl⟩ := Nat.exists_eq_add_of_le hmn
  rw [List.take_add]
  apply totalVolume_le_append
  rw [← List.take_add]
  exact fun b hb => h b (List.mem_of_mem_take hb)

namespace Series

theorem ledger_emit (s : Series α) (t : Timeframe) (b : Bar α) :
    (s.emit t b).1.ledger =
      if t = .m1 then s.ledger.push (b.timestamp, s.cumulative + b.volume) else s.ledger := by
  cases t with
  | m5 =>
    show (extendLocal _ b).ledger = s.ledger
    unfold extendLocal
    dsimp only
    split <;> rfl
  | _ => rfl

/-- An entry for each one-minute bar: its start, and the volumes up to this bar. -/
def Ledgered (s : Series α) : Prop :=
  ∀ i, s.ledger[i]? = (s.bars .m1)[i]?.map fun b =>
    (b.timestamp, totalVolume ((s.bars .m1).toList.take (i + 1)))

namespace Ledgered

variable {s : Series α}

theorem size_eq (h : s.Ledgered) : s.ledger.size = (s.bars .m1).size := by
  apply Nat.le_antisymm
  · have hend := h (s.bars .m1).size
    rwa [Array.getElem?_size, Option.map_none, Array.getElem?_eq_none_iff] at hend
  · have hend := h s.ledger.size
    rwa [Array.getElem?_size, eq_comm, Option.map_eq_none_iff, Array.getElem?_eq_none_iff] at hend

/-- The last entry has all volumes. -/
theorem cumulative_eq (h : s.Ledgered) : s.cumulative = totalVolume (s.bars .m1).toList := by
  rw [cumulative, Array.back?_eq_getElem?, h, h.size_eq, ← Array.length_toList,
    ← Array.getElem?_toList]
  rcases List.eq_nil_or_concat (s.bars .m1).toList with hnil | ⟨bars, b, hbars⟩
  · rw [hnil]
    rfl
  · rw [hbars, List.concat_eq_append, List.length_append, List.length_singleton,
      Nat.add_sub_cancel, List.getElem?_concat_length, List.take_of_length_le (by simp)]
    rfl

theorem emit (h : s.Ledgered) (t : Timeframe) (b : Bar α) : (s.emit t b).1.Ledgered := by
  intro i
  rw [ledger_emit, bars_emit]
  by_cases ht : t = .m1
  · subst ht
    rw [if_pos rfl, if_pos rfl, Array.getElem?_push, Array.getElem?_push, h.size_eq,
      Array.toList_push]
    split
    · rename_i hi
      rw [hi, List.take_of_length_le (by simp), totalVolume_concat, h.cumulative_eq]
      rfl
    · rename_i hi
      rw [h i]
      cases hbar : (s.bars .m1)[i]? with
      | none => rfl
      | some x =>
        have hlt : i < (s.bars .m1).size := (Array.getElem?_eq_some_iff.mp hbar).1
        rw [List.take_append_of_le_length (by simpa using hlt)]
  · rw [if_neg ht, if_neg (Ne.symm ht)]
    exact h i

/-- The entries start with their bars. -/
theorem starts_eq (h : s.Ledgered) :
    s.ledger.toList.map (·.1) = (s.bars .m1).toList.map (·.timestamp) := by
  apply List.ext_getElem?
  intro i
  rw [List.getElem?_map, List.getElem?_map, Array.getElem?_toList, Array.getElem?_toList, h i,
    Option.map_map]
  rfl

end Ledgered

theorem ledgered_ofFeed (c : ContractId) (isUnderlying : Bool) (feed : List (Bar α)) :
    ((empty c isUnderlying).ingestAll feed).Ledgered := by
  refine ingestAll_induction (fun s t b h => h.emit t b) (fun i => ?_) feed
  rw [bars_empty]
  rfl

/-- Number of one-minute bars that start at or before an instant. -/
def startedBy (s : Series α) (t : Instant) : Nat :=
  (s.bars .m1).toList.countP (·.timestamp ≤ t)

omit [Scalar α] in
theorem startedBy_le (s : Series α) (t : Instant) : s.startedBy t ≤ (s.bars .m1).toList.length :=
  List.countP_le_length

/-- For bars in time order the search in the ledger finds the last bar that has started. -/
theorem Ledgered.partitionPoint_eq {s : Series α} (h : s.Ledgered)
    (htime : InTime (s.bars .m1).toList) (t : Instant) :
    partitionPoint (·.1 ≤ t) s.ledger = s.startedBy t := by
  have hsorted : (s.ledger.toList.map (·.1)).Pairwise (· ≤ ·) := by
    rw [h.starts_eq]
    exact List.pairwise_map.mpr htime
  have hcount := congrArg (List.countP (· ≤ t)) h.starts_eq
  rw [List.countP_map, List.countP_map] at hcount
  have hfound := (cut_started (List.pairwise_map.mp hsorted) t).partitionPoint_eq_countP
  rw [Array.toArray_toList] at hfound
  exact hfound.trans hcount

theorem Ledgered.cumulativeAt_eq_take {s : Series α} (h : s.Ledgered)
    (htime : InTime (s.bars .m1).toList) (t : Instant) :
    s.cumulativeAt t = totalVolume ((s.bars .m1).toList.take (s.startedBy t)) := by
  have hle := s.startedBy_le t
  unfold cumulativeAt
  rw [h.partitionPoint_eq htime]
  cases hn : s.startedBy t with
  | zero => rfl
  | succ n =>
    rw [hn, Array.length_toList] at hle
    dsimp only
    rw [h n, Array.getElem?_eq_getElem hle]
    rfl

/-- The volume at an instant is that of the bars that start at or before it. -/
theorem Ledgered.cumulativeAt_eq {s : Series α} (h : s.Ledgered)
    (htime : InTime (s.bars .m1).toList) (t : Instant) :
    s.cumulativeAt t = totalVolume ((s.bars .m1).toList.filter (·.timestamp ≤ t)) := by
  rw [h.cumulativeAt_eq_take htime, ← (cut_started htime t).take_eq_filter]
  rfl

omit [Scalar α] in
theorem startedBy_mono (s : Series α) {t u : Instant} (h : t ≤ u) :
    s.startedBy t ≤ s.startedBy u := by
  refine List.countP_mono_left fun b _ hb => ?_
  simp only [decide_eq_true_eq] at hb ⊢
  exact Instant.le_trans hb h

theorem m1_volume_nonneg [Monotonic α] (c : ContractId) (isUnderlying : Bool) {feed : List (Bar α)}
    (h : ∀ b ∈ feed, 0 ≤ b.volume) :
    ∀ b ∈ (((empty c isUnderlying).ingestAll feed).bars .m1).toList, 0 ≤ b.volume := by
  intro b hb
  obtain ⟨i, hi, rfl⟩ := Array.mem_iff_getElem.mp (Array.mem_toList_iff.mp hb)
  exact (madeOf_ofFeed c isUnderlying feed .m1 hi).volume_nonneg fun p hp =>
    h p (mem_of_mem_stretch hp)

theorem totalVolume_eq_sum (bars : List (Bar ℝ)) : totalVolume bars = (bars.map (·.volume)).sum := by
  induction bars using List.reverseRecOn with
  | nil => rfl
  | append_singleton bars b ih => rw [totalVolume_concat, ih, List.map_append, List.sum_append,
      List.map_singleton, List.sum_singleton]

/-- The first stretches make up one stretch together. -/
theorem sum_stretches (feed : List (Bar ℝ)) (n k : ℕ) :
    ((List.range k).map fun i => ((stretch feed n i).map (·.volume)).sum).sum =
      ((feed.take (k * n)).map (·.volume)).sum := by
  induction k with
  | zero => simp
  | succ k ih =>
    rw [List.range_succ, List.map_append, List.sum_append, ih, Nat.succ_mul, List.take_add,
      List.map_append, List.sum_append, List.map_singleton, List.sum_singleton, stretch]

/-- Without rounding the volume is that of the bars of five seconds that make whole minutes. -/
theorem cumulative_eq_sum (c : ContractId) (isUnderlying : Bool) (feed : List (Bar ℝ)) :
    ((empty c isUnderlying).ingestAll feed).cumulative =
      ((feed.take (12 * (feed.length / 12))).map (·.volume)).sum := by
  rw [(ledgered_ofFeed c isUnderlying feed).cumulative_eq, totalVolume_eq_sum, Nat.mul_comm,
    ← sum_stretches]
  exact congrArg List.sum (volumes_eq_sums c isUnderlying feed .m1)

/-- After any feed the whole volume is that of the one-minute bars, added one after the other from zero
on; and after a feed in time order the volume at an instant is that of the one-minute bars that start
at or before it, added in the same way. Without rounding the whole volume is that of the bars of five
seconds that make whole minutes. Where no volume is negative, the volume at an instant does not
decrease with the instant, and never exceeds the whole volume. -/
theorem ledger_agrees :
    (∀ (α : Type) [Scalar α] (c : ContractId) (isUnderlying : Bool) (feed : List (Bar α)),
      let s := (empty c isUnderlying).ingestAll feed
      s.cumulative = totalVolume (s.bars .m1).toList ∧
      (InTime feed → ∀ t,
        s.cumulativeAt t = totalVolume ((s.bars .m1).toList.filter (·.timestamp ≤ t)))) ∧
    (∀ (c : ContractId) (isUnderlying : Bool) (feed : List (Bar ℝ)),
      ((empty c isUnderlying).ingestAll feed).cumulative =
        ((feed.take (12 * (feed.length / 12))).map (·.volume)).sum) ∧
    ∀ (α : Type) [Scalar α] [Monotonic α] (c : ContractId) (isUnderlying : Bool)
      (feed : List (Bar α)), InTime feed → (∀ b ∈ feed, 0 ≤ b.volume) →
      let s := (empty c isUnderlying).ingestAll feed
      ∀ t u, t ≤ u → s.cumulativeAt t ≤ s.cumulativeAt u ∧ s.cumulativeAt u ≤ s.cumulative := by
  refine ⟨fun α _ c isUnderlying feed => ?agrees, cumulative_eq_sum, ?grows⟩
  case agrees =>
    have h := ledgered_ofFeed c isUnderlying feed
    exact ⟨h.cumulative_eq, fun htime t =>
      h.cumulativeAt_eq (inTime_ofFeed c isUnderlying htime .m1) t⟩
  case grows =>
    intro α _ _ c isUnderlying feed htime hfeed s t u htu
    have h : s.Ledgered := ledgered_ofFeed c isUnderlying feed
    have hm1 : InTime (s.bars .m1).toList := inTime_ofFeed c isUnderlying htime .m1
    have hvolumes : ∀ b ∈ (s.bars .m1).toList, 0 ≤ b.volume :=
      m1_volume_nonneg c isUnderlying hfeed
    rw [h.cumulativeAt_eq_take hm1, h.cumulativeAt_eq_take hm1, h.cumulative_eq]
    refine ⟨totalVolume_take_mono hvolumes (s.startedBy_mono htu), ?_⟩
    have hall := totalVolume_take_mono hvolumes (s.startedBy_le u)
    rwa [List.take_length] at hall

/-- Two minutes of bars that start together. -/
theorem ledger_agrees_twins :
    let s := (empty ⟨0⟩ false).ingestAll (List.replicate 24 (levelBar 1))
    InTime (List.replicate 24 (levelBar 1)) ∧
      s.cumulativeAt (.ofMillis 0) =
        totalVolume ((s.bars .m1).toList.filter (·.timestamp ≤ .ofMillis 0)) ∧
      s.cumulativeAt (.ofMillis (-1)) ≤ s.cumulativeAt (.ofMillis 0) ∧
      s.cumulativeAt (.ofMillis 0) ≤ s.cumulative := by
  intro s
  have htime : InTime (List.replicate 24 (levelBar 1)) :=
    List.pairwise_replicate.mpr (Or.inr (Instant.le_refl _))
  have hvolumes : ∀ b ∈ List.replicate 24 (levelBar 1), 0 ≤ b.volume := by
    intro b hb
    rw [List.eq_of_mem_replicate hb]
    decide
  obtain ⟨hagrees, -, hgrows⟩ := ledger_agrees
  exact ⟨htime, (hagrees Float ⟨0⟩ false _).2 htime _,
    hgrows Float ⟨0⟩ false _ htime hvolumes (.ofMillis (-1)) (.ofMillis 0) (by decide)⟩

end Series

end VolumeWatch
