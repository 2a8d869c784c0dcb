import VolumeWatch.Proofs.Classification
import VolumeWatch.Proofs.Market.Feeds

/-!
Range queries. Bars that come in time order make longer bars in time order
(`Series.Aligned.inTime`), so that on every timeframe the two searches find exactly the bars that
start in the range, also where bars start together or the range is turned around
(`Market.between_in_range`).
-/

namespace VolumeWatch

open Calendar (Instant)

variable {α : Type} [Scalar α]

/-- A bar starts with the first of the bars of five seconds that it is made of. -/
theorem Series.Aligned.exists_first {s : Series α} (h : s.Aligned) (t : Timeframe) {i : Nat}
    (hi : i < (s.bars t).size) :
    ∃ hf : i * t.parts < (s.bars .s5).toList.length,
      (s.bars t)[i].timestamp = (s.bars .s5).toList[i * t.parts].timestamp := by
  obtain ⟨first, hfirst, -, htime, -⟩ := (h.covers t hi).spans.first
  rw [head?_stretch t.parts_pos, List.getElem?_eq_some_iff] at hfirst
  obtain ⟨hf, rfl⟩ := hfirst
  exact ⟨hf, htime⟩

/-- Bars of five seconds in time order make longer bars in time order. -/
theorem Series.Aligned.inTime {s : Series α} (h : s.Aligned) (h5 : InTime (s.bars .s5).toList)
    (t : Timeframe) : InTime (s.bars t).toList := by
  apply List.pairwise_iff_getElem.mpr
  intro i j hi hj hij
  rw [Array.length_toList] at hi hj
  obtain ⟨hf, hfirst⟩ := h.exists_first t hi
  obtain ⟨hg, hlater⟩ := h.exists_first t hj
  rw [Array.getElem_toList, Array.getElem_toList, hfirst, hlater]
  exact List.pairwise_iff_getElem.mp h5 _ _ hf hg (Nat.mul_lt_mul_of_pos_right hij t.parts_pos)

theorem Series.inTime_ofFeed (c : ContractId) (isUnderlying : Bool) {feed : List (Bar α)}
    (h : InTime feed) (t : Timeframe) :
    InTime (((empty c isUnderlying).ingestAll feed).bars t).toList := by
  apply (aligned_ofFeed c isUnderlying feed).inTime
  rwa [toList_bars_ofFeed]

namespace Market

omit [Scalar α] in
theorem window_eq_error_iff (m : Market α) (c : ContractId) (start stop : Instant) :
    m.window c start stop = .error (.unknownContract c) ↔ ¬ (m.series.get? c).isSome := by
  unfold window
  cases m.series.get? c <;> simp

/-- The window of a contract with a series is cut from its bars of five seconds. -/
theorem window_of_isSome {m : Market α} {c : ContractId} (h : (m.series.get? c).isSome)
    (underlying : ContractId) (start stop : Instant) :
    m.window c start stop = .ok ((m.seriesOf underlying c).between .s5 start stop) := by
  obtain ⟨s, hs⟩ := Option.isSome_iff_exists.mp h
  rw [window, seriesOf, hs]
  rfl

theorem isSome_get?_ofFeed (underlying : ContractId) (feed : List (Bar α)) (c : ContractId) :
    (((∅ : Market α).ingestAll underlying feed).series.get? c).isSome ↔
      ∃ b ∈ feed, b.contract = c := by
  rw [isSome_get?_ingestAll]
  simp

/-- After bars in time order all timeframes of a series are in time order, and a range query answers
with the bars of the timeframe that start in the range, in order. A market answers for the bars of
five seconds of a contract, and fails exactly for the contracts that have had no bar. -/
theorem between_in_range :
    (∀ (c : ContractId) (isUnderlying : Bool) (feed : List (Bar α)), InTime feed →
      ∀ (t : Timeframe) (start stop : Instant),
        let s := (Series.empty c isUnderlying).ingestAll feed
        InTime (s.bars t).toList ∧
        s.between t start stop = within start stop (s.bars t).toList) ∧
    ∀ (underlying : ContractId) (feed : List (Bar α)) (c : ContractId) (start stop : Instant),
      let m := (∅ : Market α).ingestAll underlying feed
      (m.window c start stop = .error (.unknownContract c) ↔ ¬ ∃ b ∈ feed, b.contract = c) ∧
      ((∃ b ∈ feed, b.contract = c) →
        m.window c start stop = .ok ((m.seriesOf underlying c).between .s5 start stop) ∧
        (InTime (own c feed) → m.window c start stop = .ok (within start stop (own c feed)))) := by
  constructor
  · intro c isUnderlying feed h t start stop s
    have hbars := Series.inTime_ofFeed c isUnderlying h t
    exact ⟨hbars, Tier.between_eq_within hbars start stop⟩
  · intro underlying feed c start stop m
    have hknown := isSome_get?_ofFeed underlying feed c
    refine ⟨?_, fun h => ⟨window_of_isSome (hknown.mpr h) underlying start stop, fun hown =>
      window_ofOwn underlying h hown start stop⟩⟩
    rw [window_eq_error_iff, hknown]

/-- Twelve bars that start together make two longer ones. -/
theorem between_in_range_twins :
    InTime (List.replicate 12 (exactBar ⟨4500⟩ 1 1)) ∧ ∀ start stop,
      let s := (Series.empty ⟨4500⟩ false).ingestAll (List.replicate 12 (exactBar ⟨4500⟩ 1 1))
      s.between .s30 start stop = within start stop (s.bars .s30).toList := by
  have htime : InTime (List.replicate 12 (exactBar ⟨4500⟩ 1 1)) :=
    List.pairwise_replicate.mpr (Or.inr (Instant.le_refl _))
  exact ⟨htime, fun start stop => (between_in_range.1 ⟨4500⟩ false _ htime .s30 start stop).2⟩

end Market

end VolumeWatch
