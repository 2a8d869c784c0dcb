import VolumeWatch.Proofs.Classification
import VolumeWatch.Proofs.RunningStat.Deviation
import VolumeWatch.Proofs.Series.Aggregation
import VolumeWatch.Proofs.Series.Flags

/-!
Units of volume. Which volumes stand out on a timeframe does not depend on the unit that they are
measured in (`Timeframe.standsOut_map_mul`). A bar is flagged if its volume stands out and the
volumes spread by more than a fixed number (`Timeframe.unusual_iff`), so that its flag may get lost
with a larger unit and appear with a smaller one (`Series.flags_scaled_iff`).
-/

namespace VolumeWatch

open RunningStat (ofList)

/-- The bar with its volume in a unit of which `k` make up the old one. -/
def Bar.scaled (k : ℝ) (b : Bar ℝ) : Bar ℝ := { b with volume := k * b.volume }

namespace Timeframe

/-- A volume stands out among the volumes so far, its own included: there are enough of them, they
are not all the same, and it lies far enough from their mean. -/
@[mk_iff] structure StandsOut (t : Timeframe) (volumes : List ℝ) (volume : ℝ) : Prop where
  enough : (t.anomalyRule : AnomalyRule ℝ).minSamples < volumes.length
  spread : 0 < (ofList volumes).deviation
  far : t.anomalyRule.threshold ≤
    |volume - (ofList volumes).mean| / (ofList volumes).deviation

variable {t : Timeframe} {volumes : List ℝ} {volume k : ℝ}

theorem threshold_pos (t : Timeframe) : 0 < (t.anomalyRule : AnomalyRule ℝ).threshold := by
  cases t <;> norm_num [anomalyRule]

theorem one_lt_minSamples (t : Timeframe) : 1 < (t.anomalyRule : AnomalyRule ℝ).minSamples := by
  cases t <;> simp [anomalyRule]

/-- A bar is flagged where its volume stands out and there is a spread to speak of. -/
theorem unusual_iff : t.Unusual volumes volume ↔
    t.StandsOut volumes volume ∧ Scalar.epsilon < (ofList volumes).deviation := by
  have hmin := t.one_lt_minSamples
  rw [Unusual, RunningStat.exceeds, decide_eq_true_eq, RunningStat.deviations_eq,
    RunningStat.count_ofList]
  constructor
  · rintro ⟨henough, hfar⟩
    split at hfar
    · rename_i h
      exact ⟨⟨henough, Scalar.epsilon_pos.trans h.2, hfar⟩, h.2⟩
    · exact absurd hfar (not_le.mpr t.threshold_pos)
  · rintro ⟨⟨henough, -, hfar⟩, hspread⟩
    rw [if_pos ⟨by omega, hspread⟩]
    exact ⟨henough, hfar⟩

/-- Volumes stand out in any unit or in none. -/
theorem standsOut_map_mul (hk : 0 < k) :
    t.StandsOut (volumes.map (k * ·)) (k * volume) ↔ t.StandsOut volumes volume := by
  have hspread := RunningStat.deviation_map_mul hk.le volumes
  have hmean : (ofList (volumes.map (k * ·))).mean = k * (ofList volumes).mean := by
    rw [RunningStat.ofList_map_mul]
  have hfar : |k * volume - k * (ofList volumes).mean| / (k * (ofList volumes).deviation) =
      |volume - (ofList volumes).mean| / (ofList volumes).deviation := by
    rw [← mul_sub, abs_mul, abs_of_pos hk, mul_div_mul_left _ _ hk.ne']
  rw [standsOut_iff, standsOut_iff, List.length_map, hspread, hmean, hfar,
    mul_pos_iff_of_pos_left hk]

end Timeframe

namespace Series

/-- The volume of a bar is what the bars of five seconds that it is made of have together. -/
theorem volumes_eq_sums (c : ContractId) (isUnderlying : Bool) (feed : List (Bar ℝ))
    (t : Timeframe) : ((empty c isUnderlying).ingestAll feed).volumes t =
      (List.range (feed.length / t.parts)).map fun i =>
        ((stretch feed t.parts i).map (·.volume)).sum := by
  have haligned := aligned_ofFeed (α := ℝ) c isUnderlying feed
  have hfeed := toList_bars_ofFeed (α := ℝ) c isUnderlying feed
  have hsize : (((empty c isUnderlying).ingestAll feed).bars .s5).size = feed.length := by
    rw [← Array.length_toList, hfeed]
  apply List.ext_getElem
  · rw [volumes, List.length_map, Array.length_toList, haligned.size_bars, hsize, List.length_map,
      List.length_range]
  · intro i hi _
    rw [volumes, List.length_map, Array.length_toList] at hi
    have hvolume := (haligned.covers t hi).totals.volume
    rw [hfeed] at hvolume
    simpa [volumes] using hvolume

/-- Bars that are made of bars in another unit are in that unit. -/
theorem volumes_scaled (c : ContractId) (isUnderlying : Bool) (feed : List (Bar ℝ)) (k : ℝ)
    (t : Timeframe) : ((empty c isUnderlying).ingestAll (feed.map (.scaled k))).volumes t =
      (((empty c isUnderlying).ingestAll feed).volumes t).map (k * ·) := by
  rw [volumes_eq_sums, volumes_eq_sums, List.length_map, List.map_map]
  apply List.map_congr_left
  intro i _
  have hstretch : stretch (feed.map (Bar.scaled k)) t.parts i =
      (stretch feed t.parts i).map (Bar.scaled k) := by
    simp only [stretch, List.map_take, List.map_drop]
  rw [hstretch, List.map_map, Function.comp_apply, ← List.sum_map_mul_left]
  rfl

/-- Which of the bars that a feed makes on a timeframe are flagged. -/
noncomputable def flags (s : Series ℝ) (t : Timeframe) (feed : List (Bar ℝ)) : List Bool :=
  (emittedOn t (s.emissions feed)).map (·.anomalous)

/-- Each flag belongs to a volume and is decided by the volumes up to it. -/
theorem getElem?_flags (c : ContractId) (feed : List (Bar ℝ)) (t : Timeframe) (j : ℕ) :
    let volumes := ((empty c false).ingestAll feed).volumes t
    ((empty c false).flags t feed)[j]? =
      volumes[j]?.map fun v => decide (t.Unusual (volumes.take (j + 1)) v) := by
  intro volumes
  have h : Recorded false ((empty c false).ingestAll feed) ((empty c false).emissions feed) :=
    (recorded_empty c false).ingestAll feed
  rw [flags, List.getElem?_map, h.getElem?_volumes, Option.map_map]
  cases he : (emittedOn t ((empty c false).emissions feed))[j]? with
  | none => rfl
  | some e =>
    have hflag := h.flags t j e he
    rw [eq_self, true_and] at hflag
    simp only [Option.map_some, Function.comp_apply, Option.some.injEq]
    rw [Bool.eq_iff_iff, hflag, decide_eq_true_iff]

/-- A feed has the same flags in another unit exactly if every volume that stands out does so with a
spread that counts in both units or in neither. -/
theorem flags_scaled_eq_iff (c : ContractId) (feed : List (Bar ℝ)) {k : ℝ} (hk : 0 < k)
    (t : Timeframe) :
    let volumes := ((empty c false).ingestAll feed).volumes t
    (empty c false).flags t (feed.map (.scaled k)) = (empty c false).flags t feed ↔
      ∀ j v, volumes[j]? = some v → t.StandsOut (volumes.take (j + 1)) v →
        (Scalar.epsilon < k * (ofList (volumes.take (j + 1))).deviation ↔
          Scalar.epsilon < (ofList (volumes.take (j + 1))).deviation) := by
  intro volumes
  have hone (j : ℕ) (v : ℝ) : (t.Unusual ((volumes.map (k * ·)).take (j + 1)) (k * v) ↔
      t.Unusual (volumes.take (j + 1)) v) ↔ (t.StandsOut (volumes.take (j + 1)) v →
        (Scalar.epsilon < k * (ofList (volumes.take (j + 1))).deviation ↔
          Scalar.epsilon < (ofList (volumes.take (j + 1))).deviation)) := by
    rw [← List.map_take, Timeframe.unusual_iff, Timeframe.unusual_iff,
      Timeframe.standsOut_map_mul hk, RunningStat.deviation_map_mul hk.le, and_congr_right_iff]
  rw [List.ext_getElem?_iff]
  refine forall_congr' fun j => ?_
  rw [getElem?_flags, getElem?_flags, volumes_scaled, List.getElem?_map]
  cases hv : volumes[j]? with
  | none => simp
  | some v =>
    simp only [Option.map_some, Option.some.injEq, forall_eq', decide_eq_decide]
    exact hone j v

/-- A bar is flagged exactly if its volume stands out among those of its timeframe so far, and their
spread is above `2 ^ -52`. In another unit the same volumes stand out. The flags are the same in
both units exactly if each of these has a spread above the bound in both or in neither. -/
theorem flags_scaled_iff (c : ContractId) (feed : List (Bar ℝ)) {k : ℝ} (hk : 0 < k)
    (t : Timeframe) :
    let volumes := ((empty c false).ingestAll feed).volumes t
    let volumes' := ((empty c false).ingestAll (feed.map (.scaled k))).volumes t
    let spread := fun j => (ofList (volumes.take (j + 1))).deviation
    (∀ j, ((empty c false).flags t feed)[j]? = some true ↔ ∃ v, volumes[j]? = some v ∧
      t.StandsOut (volumes.take (j + 1)) v ∧ Scalar.epsilon < spread j) ∧
    (∀ j v, t.StandsOut (volumes'.take (j + 1)) (k * v) ↔ t.StandsOut (volumes.take (j + 1)) v) ∧
    ((empty c false).flags t (feed.map (.scaled k)) = (empty c false).flags t feed ↔
      ∀ j v, volumes[j]? = some v → t.StandsOut (volumes.take (j + 1)) v →
        (Scalar.epsilon < k * spread j ↔ Scalar.epsilon < spread j)) := by
  intro volumes volumes' spread
  refine ⟨fun j => ?flagged, fun j v => ?standing, flags_scaled_eq_iff c feed hk t⟩
  case flagged =>
    rw [getElem?_flags, Option.map_eq_some_iff]
    exact exists_congr fun v => and_congr_right fun _ =>
      decide_eq_true_iff.trans Timeframe.unusual_iff
  case standing =>
    rw [show volumes' = volumes.map (k * ·) from volumes_scaled c false feed k t, ← List.map_take]
    exact Timeframe.standsOut_map_mul hk

section Spike

/-- Nine bars without volume, and one with a volume of one. -/
def spikeFeed : List (Bar ℝ) :=
  List.replicate 9 (exactBar ⟨4500⟩ 1 0) ++ [exactBar ⟨4500⟩ 1 1]

theorem volumes_spikeFeed : ((empty ⟨4500⟩ false).ingestAll spikeFeed).volumes .s5 =
    List.replicate 9 0 ++ [1] := by
  rw [volumes_ofFeed, spikeFeed, List.map_append, List.map_replicate]
  rfl

theorem deviation_spike : (ofList (List.replicate 9 (0 : ℝ) ++ [1])).deviation = 3 / 10 := by
  have hroot : √(9 : ℝ) = 3 := by
    rw [Real.sqrt_eq_iff_mul_self_eq (by norm_num) (by norm_num)]
    norm_num
  rw [RunningStat.deviation_replicate_concat]
  norm_num [hroot]

theorem standsOut_spike : Timeframe.s5.StandsOut (List.replicate 9 0 ++ [1]) 1 := by
  constructor
  · simp [Timeframe.anomalyRule]
  · rw [deviation_spike]
    norm_num
  · rw [deviation_spike, RunningStat.mean_replicate_concat]
    norm_num [Timeframe.anomalyRule]

theorem flags_scaled_iff_spikeFeed : (0 : ℝ) < 100 ∧
    (empty ⟨4500⟩ false).flags .s5 (spikeFeed.map (.scaled 100)) =
      (empty ⟨4500⟩ false).flags .s5 spikeFeed := by
  refine ⟨by norm_num, (flags_scaled_iff ⟨4500⟩ spikeFeed (by norm_num) .s5).2.2.mpr ?_⟩
  intro j v _ hstands
  rw [volumes_spikeFeed] at hstands ⊢
  have henough := hstands.enough
  -- all ten volumes are needed
  have hall : (List.replicate 9 (0 : ℝ) ++ [1]).take (j + 1) = List.replicate 9 0 ++ [1] := by
    apply List.take_of_length_le
    simp only [Timeframe.anomalyRule, List.length_take] at henough
    simp only [List.length_append, List.length_replicate, List.length_singleton] at henough ⊢
    omega
  simp only [hall, deviation_spike]
  norm_num [Scalar.epsilon]

/-- In a unit that is large enough the flag of a volume that stands out is lost. -/
theorem not_flags_scaled_spikeFeed :
    ¬ ∀ (c : ContractId) (feed : List (Bar ℝ)) (k : ℝ), 0 < k → ∀ t,
        (empty c false).flags t (feed.map (.scaled k)) = (empty c false).flags t feed := by
  intro hall
  have hk : (0 : ℝ) < 1 / 2 ^ 54 := by norm_num
  have hflags := hall ⟨4500⟩ spikeFeed _ hk .s5
  have hspread := (flags_scaled_eq_iff ⟨4500⟩ spikeFeed hk .s5).mp hflags 9 1
  rw [volumes_spikeFeed] at hspread
  have hiff := hspread rfl standsOut_spike
  have hten : (List.replicate 9 (0 : ℝ) ++ [1]).take (9 + 1) = List.replicate 9 0 ++ [1] := rfl
  rw [hten, deviation_spike] at hiff
  norm_num [Scalar.epsilon] at hiff

end Spike

end Series

end VolumeWatch
