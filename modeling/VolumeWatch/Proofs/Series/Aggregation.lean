import VolumeWatch.Proofs.Scalar.Exact
import VolumeWatch.Proofs.Series.Covering

/-!
Aggregation without rounding: every longer bar has the extremes and the whole volume of the bars of
five seconds that it is made of, no matter in how many stages it was merged.
-/

namespace VolumeWatch

/-- A bar with the extremes and the whole volume of a stretch. -/
structure Bar.Totals (b : Bar ℝ) (parts : List (Bar ℝ)) : Prop where
  high : IsGreatest {x | ∃ p ∈ parts, p.high = x} b.high
  low : IsLeast {x | ∃ p ∈ parts, p.low = x} b.low
  volume : b.volume = (parts.map (·.volume)).sum

theorem Bar.values_append {β : Type} (f : Bar ℝ → β) (u v : List (Bar ℝ)) :
    {x | ∃ p ∈ u ++ v, f p = x} = {x | ∃ p ∈ u, f p = x} ∪ {x | ∃ p ∈ v, f p = x} := by
  ext x
  simp [or_and_right, exists_or]

theorem Bar.MadeOf.totals {b : Bar ℝ} {parts : List (Bar ℝ)} (h : b.MadeOf parts) :
    b.Totals parts := by
  induction h with
  | single b => constructor <;> simp
  | extend _ _ ihu ihv =>
    constructor
    · rw [Bar.values_append]
      simpa [Bar.extend] using ihu.high.union ihv.high
    · rw [Bar.values_append]
      simpa [Bar.extend] using ihu.low.union ihv.low
    · rw [List.map_append, List.sum_append, ← ihu.volume, ← ihv.volume]
      rfl

/-- A feed of bars of five seconds is kept as it is, and every longer timeframe holds one bar for
each whole stretch of it: with the contract, the start and the opening of the first bar of the
stretch, the close of the last, the extremes of all and the volume of all. -/
theorem Series.bars_aggregate_feed (c : ContractId) (isUnderlying : Bool) (feed : List (Bar ℝ)) :
    let s := (Series.empty c isUnderlying).ingestAll feed
    (s.bars .s5).toList = feed ∧
      ∀ t, t ≠ .s5 →
        (s.bars t).size = feed.length / t.parts ∧
          ∀ i (hi : i < (s.bars t).size),
            (∃ first, feed[i * t.parts]? = some first ∧
              (s.bars t)[i].contract = first.contract ∧
              (s.bars t)[i].timestamp = first.timestamp ∧
              (s.bars t)[i].opening = first.opening) ∧
            (∃ last, feed[(i + 1) * t.parts - 1]? = some last ∧
              (s.bars t)[i].close = last.close) ∧
            IsGreatest {x | ∃ b ∈ stretch feed t.parts i, b.high = x} (s.bars t)[i].high ∧
            IsLeast {x | ∃ b ∈ stretch feed t.parts i, b.low = x} (s.bars t)[i].low ∧
            (s.bars t)[i].volume = ((stretch feed t.parts i).map (·.volume)).sum := by
  intro s
  have hs : s.Aligned := Series.aligned_ofFeed c isUnderlying feed
  have hfeed : (s.bars .s5).toList = feed := Series.toList_bars_ofFeed c isUnderlying feed
  have hlen : (s.bars .s5).size = feed.length := by rw [← hfeed, Array.length_toList]
  refine ⟨hfeed, fun t _ => ⟨by rw [hs.size_bars, hlen], fun i hi => ?_⟩⟩
  have hmade := hs.covers t hi
  rw [hfeed] at hmade
  have hle : (i + 1) * t.parts ≤ feed.length := by
    rw [hs.size_bars, hlen] at hi
    exact succ_mul_le_of_lt_div hi
  obtain ⟨first, hfirst, hc⟩ := hmade.spans.first
  obtain ⟨last, hlast, hclose⟩ := hmade.spans.last
  rw [head?_stretch t.parts_pos] at hfirst
  rw [getLast?_stretch t.parts_pos hle] at hlast
  exact ⟨⟨first, hfirst, hc⟩, ⟨last, hlast, hclose⟩, hmade.totals.high, hmade.totals.low,
    hmade.totals.volume⟩

end VolumeWatch
