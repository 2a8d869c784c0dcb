import VolumeWatch.Proofs.Desk.Weighing
import VolumeWatch.Proofs.RunningStat.Deviation

/-!
How far a volume can deviate. The volume of a bar is one of the volumes that it is compared with, so
that its deviation is bounded by the number of bars on its timeframe (`Series.Puts.sq_weigh_le`).
The tags for large deviations are therefore out of reach while there are few bars
(`Desk.Run.deviation_in_reach`).
-/

namespace VolumeWatch

/-- The categories are in the order of the whole numbers above which they begin. -/
theorem VolumeDeviation.ordinal_lt {x : ℝ} (h : ofDeviations x ≠ .lowVol) :
    (Category.ordinal (ofDeviations x) : ℝ) < x := by
  unfold ofDeviations at h ⊢
  split_ifs at h ⊢ with hle1 hle2 hle3 hle4
  · exact absurd rfl h
  · exact not_le.mp hle1
  · exact not_le.mp hle2
  · exact not_le.mp hle3
  · exact not_le.mp hle4

/-- The deviation by which a bar is flagged is bounded by the number of the bars before it. -/
theorem Series.Puts.sq_weigh_le {isUnderlying : Bool} {s s' : Series ℝ} {es : List (Emitted ℝ)}
    {b b' : Bar ℝ} {t : Timeframe} (hs : Recorded isUnderlying s es) (h : s.Puts b s' t b') :
    s'.weigh t b' ^ 2 ≤ ((s.ingest b).1.bars t).size - 1 := by
  have hmem : b'.volume ∈ (s.ingest b).1.volumes t := by
    rw [volumes, bars, h.tier_ingest]
    simp [Tier.push]
  have hlength : ((s.ingest b).1.volumes t).length = ((s.ingest b).1.bars t).size := by
    simp [volumes]
  rw [← h.deviations_ingest, (hs.ingest b).volumes, ← hlength]
  exact RunningStat.sq_deviations_le hmem

/-- Only the bar that comes in is put on the shortest timeframe. -/
theorem Series.Puts.eq_of_s5 {α : Type} [Scalar α] {s s' : Series α} {b b' : Bar α}
    (h : s.Puts b s' .s5 b') : s' = s ∧ b' = b := by
  cases h with
  | taken => exact ⟨rfl, rfl⟩
  | made _ ht => cases ht

/-- A bar of five seconds is weighed among the bars of the feed. -/
theorem Series.weigh_ofFeed {α : Type} [Scalar α] (c : ContractId) (isUnderlying : Bool)
    (feed : List (Bar α)) (b : Bar α) : ((empty c isUnderlying).ingestAll feed).weigh .s5 b =
      (RunningStat.ofList (feed.map (·.volume) ++ [b.volume])).deviations b.volume := by
  have hrecorded := (recorded_empty (α := α) c isUnderlying).ingestAll feed
  rw [weigh, hrecorded.push_volumes, volumes_ofFeed]

/-- An alert whose tag says that the deviation is above a whole number flags a bar with more bars
before it than the square of the number. -/
theorem Market.Weighed.lt_size {underlying : ContractId} {feed : List (Bar ℝ)} {b bar : Bar ℝ}
    {a : Alert ℝ} {s : Series ℝ}
    (h : ((∅ : Market ℝ).ingestAll underlying feed).Weighed underlying b a s bar)
    (htag : a.tags.volumeDeviation ≠ .lowVol) :
    Category.ordinal a.tags.volumeDeviation ^ 2 + 1 <
      (((((∅ : Market ℝ).ingestAll underlying feed).ingest underlying b).1.seriesOf underlying
        b.contract).bars a.timeframe).size := by
  have hrecorded := (Series.recorded_empty (α := ℝ) b.contract (b.contract = underlying)).ingestAll
    (own b.contract feed)
  have hputs := h.puts
  rw [seriesOf_ofFeed] at hputs
  have hreach := hputs.sq_weigh_le hrecorded
  rw [h.tagged] at htag
  have habove := VolumeDeviation.ordinal_lt htag
  rw [← h.tagged] at habove
  rw [seriesOf_ingest_self, seriesOf_ofFeed]
  have hsquare := pow_lt_pow_left₀ habove (Nat.cast_nonneg _) two_ne_zero
  have hlt := hsquare.trans_le hreach
  rw [lt_sub_iff_add_lt] at hlt
  exact_mod_cast hlt

/-- After a feed with a price of the underlying, a flagged bar of five seconds of an option raises
an alert where it can be classified. -/
theorem Market.exists_mem_raised_ofFeed {α : Type} [Scalar α] {classifier : Classifier α}
    {feed : List (Bar α)} {b : Bar α} {slot : SessionSlot}
    (hfirst : ∃ b ∈ feed, b.contract = classifier.underlying)
    (hoption : b.contract ≠ classifier.underlying)
    (hslot : (classifier.session.slot b.timestamp : Except (Fault α) SessionSlot) = .ok slot)
    (hflagged : ((((∅ : Market α).ingestAll classifier.underlying feed).seriesOf
      classifier.underlying b.contract).emit .s5 b).2.anomalous = true) (now : Nat) :
    ∃ a, a ∈ ((∅ : Market α).ingestAll classifier.underlying feed).raised classifier now b := by
  refine exists_mem_raised hoption (get?_ofFeed _ hfirst) ?priced hslot hflagged now
  case priced =>
    rw [Series.price?_ofFeed, Option.isSome_map, List.getLast?_isSome, ne_eq, own_eq_nil_iff,
      not_not]
    exact hfirst

namespace Desk.Run

/-- A sample among exact samples deviates by no more than the square root of the number of the
others. In every run with exact numbers, an alert whose tag says that its volume deviates by more
than three is therefore raised when there are at least eleven bars on its timeframe, and one by more
than four when there are at least eighteen. -/
theorem deviation_in_reach :
    (∀ (xs : List ℝ), ∀ x ∈ xs,
      xs.length * (x - (RunningStat.ofList xs).mean) ^ 2 ≤
        (xs.length - 1) * (RunningStat.ofList xs).squares ∧
      (RunningStat.ofList xs).deviations x ^ 2 ≤ xs.length - 1) ∧
    ∀ (classifier : Classifier ℝ) (places : List (ContractId × Timeframe × Nat)) (d : Desk ℝ),
      Run classifier places d → ∀ (now : Nat) (b : Bar ℝ),
        ∀ a ∈ d.market.raised classifier now b,
          let size := (((d.ingest now b).1.market.seriesOf classifier.underlying
            a.contract).bars a.timeframe).size
          (a.tags.volumeDeviation = .over3 → 11 ≤ size) ∧
          (a.tags.volumeDeviation = .over4 → 18 ≤ size) := by
  refine ⟨fun xs x hx => ⟨RunningStat.length_mul_sq_sub_le hx, RunningStat.sq_deviations_le hx⟩,
    fun classifier places d h now b a ha => ?_⟩
  obtain ⟨-, feed, hmarket⟩ := h.exists_feed
  rw [h.market_ingest]
  rw [hmarket] at ha ⊢
  obtain ⟨s, bar, hweighed⟩ := Market.Weighed.of_mem_raised ha
  have hsize := hweighed.lt_size
  rw [(Market.Flagged.of_mem_raised ha).contract]
  constructor
  · intro htag
    rw [htag] at hsize
    exact hsize (by decide)
  · intro htag
    rw [htag] at hsize
    exact hsize (by decide)

section Quiet

/-- A bar of the underlying and ten bars of an option with the same volume. -/
def quietFeed : List (Bar ℝ) := exactFeed ++ [exactBar ⟨4500⟩ 1 1]

theorem own_quietFeed : own ⟨4500⟩ quietFeed = List.replicate 10 (exactBar ⟨4500⟩ 1 1) := by
  have hlast : own ⟨4500⟩ [exactBar ⟨4500⟩ 1 1] = [exactBar ⟨4500⟩ 1 1] :=
    own_singleton (exactBar ⟨4500⟩ 1 1)
  rw [quietFeed, own_append, own_exactFeed, hlast]
  rfl

theorem volumes_quietFeed : (own ⟨4500⟩ quietFeed).map (·.volume) = List.replicate 10 1 := by
  rw [own_quietFeed, List.map_replicate]
  rfl

/-- A desk that has taken these bars. -/
noncomputable def quietDesk : Desk ℝ :=
  { Desk.empty exactTerms (.ofCapacity 10) (.content false) with
    market := (∅ : Market ℝ).ingestAll exactTerms.underlying quietFeed }

/-- A volume that differs from ten equal ones deviates by the square root of ten. -/
theorem weigh_quietDesk : (quietDesk.market.seriesOf exactTerms.underlying ⟨4500⟩).weigh .s5
    (exactBar ⟨4500⟩ 1 100) = √10 := by
  have hroot : 1 ≤ √10 := Real.one_le_sqrt.mpr (by norm_num)
  have hspread : (Scalar.epsilon : ℝ) < √(10 : ℕ) * |100 - 1| / ((10 : ℕ) + 1) := by
    norm_num [Scalar.epsilon]
    linarith
  rw [quietDesk, Market.seriesOf_ofFeed, Series.weigh_ofFeed, volumes_quietFeed]
  exact RunningStat.deviations_replicate_concat (by norm_num) hspread

theorem anomalous_quietDesk : ((quietDesk.market.seriesOf exactTerms.underlying ⟨4500⟩).emit .s5
    (exactBar ⟨4500⟩ 1 100)).2.anomalous = true := by
  have hrecorded := (Series.recorded_empty (α := ℝ) ⟨4500⟩
    (⟨4500⟩ = exactTerms.underlying)).ingestAll (own ⟨4500⟩ quietFeed)
  have hroot : 2 ≤ √10 := Real.le_sqrt_of_sq_le (by norm_num)
  rw [Series.anomalous_emit_iff, weigh_quietDesk, quietDesk, Market.seriesOf_ofFeed,
    hrecorded.volumes, RunningStat.count_ofList, Series.volumes_ofFeed, volumes_quietFeed,
    List.length_replicate, hrecorded.kind]
  exact ⟨rfl, by decide, by simpa [Timeframe.anomalyRule] using hroot⟩

theorem ofDeviations_sqrt_ten : VolumeDeviation.ofDeviations √10 = .over3 := by
  have h3 : 3 < √10 := Real.lt_sqrt_of_sq_lt (by norm_num)
  have h4 : √10 ≤ 4 := Real.sqrt_le_iff.mpr (by norm_num)
  unfold VolumeDeviation.ofDeviations
  simp only [Nat.cast_one, Nat.cast_ofNat]
  rw [if_neg (by linarith), if_neg (by linarith), if_neg (by linarith), if_pos h4]

theorem deviation_in_reach_quietDesk : ∃ places, Run exactTerms places quietDesk ∧
    ∃ a ∈ quietDesk.market.raised exactTerms 0 (exactBar ⟨4500⟩ 1 100),
      a.tags.volumeDeviation = .over3 ∧
      11 ≤ (((quietDesk.ingest 0 (exactBar ⟨4500⟩ 1 100)).1.market.seriesOf exactTerms.underlying
        a.contract).bars a.timeframe).size := by
  obtain ⟨places, hrun⟩ : ∃ places, Run exactTerms places quietDesk :=
    exists_ofFeed (.ofCapacity 10) quietFeed
  have hfirst : ∃ b ∈ quietFeed, b.contract = exactTerms.underlying := ⟨_, List.mem_cons_self, rfl⟩
  obtain ⟨a, ha⟩ := Market.exists_mem_raised_ofFeed hfirst (b := exactBar ⟨4500⟩ 1 100) (by decide)
    (slot_exactBar ⟨4500⟩ 1 100) anomalous_quietDesk 0
  obtain ⟨s, bar, hweighed⟩ := Market.Weighed.of_mem_raised ha
  -- eleven bars of five seconds complete no longer bar
  have htimeframe : a.timeframe = .s5 := by
    have hlength : (own ⟨4500⟩ (quietFeed ++ [exactBar ⟨4500⟩ 1 100])).length = 11 := by
      have hlast : own ⟨4500⟩ [exactBar ⟨4500⟩ 1 100] = [exactBar ⟨4500⟩ 1 100] :=
        own_singleton (exactBar ⟨4500⟩ 1 100)
      rw [own_append, own_quietFeed, hlast]
      rfl
    have hwhole : a.timeframe.parts ∣ 11 := hlength ▸ (Market.Flagged.of_mem_raised ha).whole
    cases ht : a.timeframe with
    | s5 => rfl
    | s30 | m1 | m5 =>
      rw [ht] at hwhole
      exact absurd hwhole (by decide)
  have htag : a.tags.volumeDeviation = .over3 := by
    have hputs := hweighed.puts
    rw [htimeframe] at hputs
    obtain ⟨rfl, rfl⟩ := hputs.eq_of_s5
    rw [hweighed.tagged, htimeframe, ← ofDeviations_sqrt_ten, ← weigh_quietDesk]
    rfl
  exact ⟨places, hrun, a, ha, htag,
    (deviation_in_reach.2 exactTerms places quietDesk hrun 0 _ a ha).1 htag⟩

end Quiet

end Desk.Run

end VolumeWatch
