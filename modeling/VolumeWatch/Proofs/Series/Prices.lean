import VolumeWatch.Classifier
import VolumeWatch.Proofs.Series.Folding

/-!
The prices of a series: what the highs, lows and closes of its bars decide, whatever the bars open
at and whatever their volumes are.

Main statements: bars with the same prices keep series alike in their prices
(`Series.SamePrices.ingestAll`), and the underlying enters into the tags of an option with its
prices alone (`Series.SamePrices.classify`).
-/

namespace VolumeWatch

variable {α : Type} [Scalar α]

/-- A bar of which the opening and the volume are not known. -/
def Bar.masked (b : Bar α) : Bar α := { b with opening := 0, volume := 0 }

namespace Bar

theorem masked_eq_iff {a b : Bar α} : a.masked = b.masked ↔
    a.contract = b.contract ∧ a.timestamp = b.timestamp ∧ a.high = b.high ∧ a.low = b.low ∧
      a.close = b.close := by
  simp [masked]

theorem masked_masked (b : Bar α) : b.masked.masked = b.masked := rfl

theorem range_congr {a b : Bar α} (h : a.masked = b.masked) : a.range = b.range := by
  obtain ⟨-, -, hhigh, hlow, -⟩ := masked_eq_iff.mp h
  rw [range, range, hhigh, hlow]

theorem masked_extend {a a' b b' : Bar α} (h : a.masked = a'.masked) (hb : b.masked = b'.masked) :
    (a.extend b).masked = (a'.extend b').masked := by
  obtain ⟨hcontract, htime, hhigh, hlow, -⟩ := masked_eq_iff.mp h
  obtain ⟨-, -, hhigh', hlow', hclose'⟩ := masked_eq_iff.mp hb
  apply masked_eq_iff.mpr
  simp only [extend, hcontract, htime, hhigh, hlow, hhigh', hlow', hclose', true_and]

/-- The prices of a merged bar come from the prices of its parts. -/
theorem map_masked_merge? {bars bars' : List (Bar α)} (h : bars.map masked = bars'.map masked) :
    (merge? bars).map masked = (merge? bars').map masked :=
  map_merge?_congr masked_extend h

end Bar

theorem Extremes.widen_congr (e : Option (Extremes α)) {b b' : Bar α} (h : b.masked = b'.masked) :
    widen e b = widen e b' := by
  obtain ⟨-, -, hhigh, hlow, -⟩ := Bar.masked_eq_iff.mp h
  cases e with
  | none => simp only [widen, ofBar, hhigh, hlow]
  | some e => simp only [widen, hhigh, hlow]

/-- Timeframes that hold bars with the same prices. -/
structure Tier.SamePrices (t t' : Tier α) : Prop where
  bars : t.bars.toList.map Bar.masked = t'.bars.toList.map Bar.masked
  ranges : t.ranges = t'.ranges

namespace Tier.SamePrices

variable {t t' : Tier α}

theorem size (h : SamePrices t t') : t.bars.size = t'.bars.size := by
  have := congrArg List.length h.bars
  simpa using this

theorem extract (h : SamePrices t t') (start stop : Nat) :
    (t.bars.extract start stop).toList.map Bar.masked =
      (t'.bars.extract start stop).toList.map Bar.masked := by
  simp only [Array.toList_extract, List.extract_eq_take_drop, List.map_take, List.map_drop, h.bars]

theorem last? (h : SamePrices t t') : t.last?.map Bar.masked = t'.last?.map Bar.masked := by
  have hlast := congrArg List.getLast? h.bars
  rwa [List.getLast?_map, List.getLast?_map, Array.getLast?_toList, Array.getLast?_toList] at hlast

theorem push (h : SamePrices t t') {b b' : Bar α} (hb : b.masked = b'.masked) :
    SamePrices (t.push b) (t'.push b') where
  bars := by
    simp only [Tier.push, Array.toList_push, List.map_append, h.bars, List.map_cons, hb]
  ranges := by
    simp only [Tier.push, h.ranges, Bar.range_congr hb]

end Tier.SamePrices

namespace Series

/-- Series of one contract that agree in all that their prices decide. -/
structure SamePrices (s s' : Series α) : Prop where
  contract : s.contract = s'.contract
  tier : ∀ t, (s.tier t).SamePrices (s'.tier t)
  daily : s.daily = s'.daily
  local? : s.local? = s'.local?
  pending : s.pending = s'.pending

namespace SamePrices

variable {s s' : Series α}

theorem refl (s : Series α) : SamePrices s s := ⟨rfl, fun _ => ⟨rfl, rfl⟩, rfl, rfl, rfl⟩

theorem size_bars (h : SamePrices s s') (t : Timeframe) : (s.bars t).size = (s'.bars t).size :=
  (h.tier t).size

theorem price? (h : SamePrices s s') : s.price? = s'.price? := by
  have hlast := congrArg (Option.map Bar.close) (h.tier .s5).last?
  rwa [Option.map_map, Option.map_map] at hlast

theorem compare (h : SamePrices s s') (price proximity : α) :
    s.compare price proximity = s'.compare price proximity := by
  simp only [Series.compare, h.daily, h.local?]

/-- A bar that can be derived from one series can be derived from the other, at the same prices. -/
theorem derive (h : SamePrices s s') (t : Timeframe) :
    (s.derive t).toOption.map Bar.masked = (s'.derive t).toOption.map Bar.masked := by
  unfold Series.derive
  cases t.previous? with
  | none => rfl
  | some below =>
    simp only [h.size_bars]
    split
    · rfl
    · have hmerge := Bar.map_masked_merge? ((h.tier below).extract ((s'.bars t).size * t.ratio)
        ((s'.bars t).size * t.ratio + t.ratio))
      unfold Series.bars at hmerge ⊢
      generalize Bar.merge? (Array.extract (s.tier below).bars _ _).toList = m at hmerge ⊢
      generalize Bar.merge? (Array.extract (s'.tier below).bars _ _).toList = m' at hmerge ⊢
      cases m <;> cases m' <;> simp_all [Except.toOption]

theorem modifyTier (h : SamePrices s s') (t : Timeframe) {b b' : Bar α}
    (hb : b.masked = b'.masked) :
    SamePrices (s.modifyTier t (·.push b)) (s'.modifyTier t (·.push b')) := by
  constructor
  · cases t <;> exact h.contract
  · intro u
    rw [tier_modifyTier, tier_modifyTier]
    split
    · exact (h.tier u).push hb
    · exact h.tier u
  · cases t <;> exact h.daily
  · cases t <;> exact h.local?
  · cases t <;> exact h.pending

theorem account (h : SamePrices s s') (t : Timeframe) {b b' : Bar α}
    (hb : b.masked = b'.masked) : SamePrices (s.account t b) (s'.account t b') := by
  have htier (u : Timeframe) :
      ((s.account t b).tier u).SamePrices ((s'.account t b').tier u) := by
    rw [tier_account, tier_account]
    exact h.tier u
  cases t with
  | s5 =>
    refine ⟨h.contract, htier, ?_, h.local?, h.pending⟩
    show some (Extremes.widen s.daily b) = some (Extremes.widen s'.daily b')
    rw [h.daily, Extremes.widen_congr _ hb]
  | s30 => exact h
  | m1 => exact ⟨h.contract, htier, h.daily, h.local?, h.pending⟩
  | m5 =>
    have hsize : s.m5.bars.size = s'.m5.bars.size := h.size_bars .m5
    have hwiden : Extremes.widen s.pending b = Extremes.widen s'.pending b' := by
      rw [h.pending, Extremes.widen_congr _ hb]
    simp only [Series.account, extendLocal, hsize, hwiden] at htier ⊢
    by_cases hr : s'.m5.bars.size % localWindow = 0
    · simp only [hr, if_true] at htier ⊢
      exact ⟨h.contract, htier, h.daily, rfl, rfl⟩
    · simp only [hr, if_false] at htier ⊢
      exact ⟨h.contract, htier, h.daily, h.local?, rfl⟩

theorem emit (h : SamePrices s s') (t : Timeframe) {b b' : Bar α} (hb : b.masked = b'.masked) :
    SamePrices (s.emit t b).1 (s'.emit t b').1 :=
  (h.modifyTier t hb).account t hb

theorem cascade (h : SamePrices s s') (below : Timeframe) (above : List Timeframe) :
    SamePrices (s.cascade below above).1 (s'.cascade below above).1 := by
  induction above generalizing s s' below with
  | nil => exact h
  | cons t above ih =>
    unfold Series.cascade
    rw [h.size_bars below]
    split
    · have hderive := h.derive t
      cases hs : s.derive t with
      | error fault =>
        cases hs' : s'.derive t with
        | error fault' => exact h
        | ok b' => simp [hs, hs', Except.toOption] at hderive
      | ok b =>
        cases hs' : s'.derive t with
        | error fault' => simp [hs, hs', Except.toOption] at hderive
        | ok b' =>
          rw [hs, hs'] at hderive
          exact ih (h.emit t (Option.some.inj hderive)) t
    · exact h

theorem ingest (h : SamePrices s s') {b b' : Bar α} (hb : b.masked = b'.masked) :
    SamePrices (s.ingest b).1 (s'.ingest b').1 :=
  (h.emit .s5 hb).cascade .s5 [.s30, .m1, .m5]

/-- Feeds with the same prices keep series alike in their prices. -/
theorem ingestAll (h : SamePrices s s') {feed feed' : List (Bar α)}
    (hfeed : feed.map Bar.masked = feed'.map Bar.masked) :
    SamePrices (s.ingestAll feed) (s'.ingestAll feed') := by
  induction feed generalizing s s' feed' with
  | nil =>
    obtain rfl := List.map_eq_nil_iff.mp hfeed.symm
    exact h
  | cons b feed ih =>
    obtain ⟨b', feed', rfl, hb, hr⟩ := List.map_eq_cons_iff.mp hfeed.symm
    exact ih (h.ingest hb.symm) hr.symm

theorem lastRangeDeviation (h : SamePrices s s') (t : Timeframe) :
    Classifier.lastRangeDeviation s t = Classifier.lastRangeDeviation s' t := by
  have hlast : (s.last? t).map Bar.masked = (s'.last? t).map Bar.masked := (h.tier t).last?
  unfold Classifier.lastRangeDeviation
  rw [(h.tier t).ranges]
  cases hs : s.last? t with
  | none =>
    cases hs' : s'.last? t with
    | none => rfl
    | some last' => simp [hs, hs'] at hlast
  | some last =>
    cases hs' : s'.last? t with
    | none => simp [hs, hs'] at hlast
    | some last' =>
      rw [hs, hs'] at hlast
      simp only [Bar.range_congr (Option.some.inj hlast)]

/-- The underlying enters into the tags of an option with its prices alone. -/
theorem classify (h : SamePrices s s') (c : Classifier α) (t : Timeframe) (b : Bar α)
    (option : Series α) : c.classify t b option s = c.classify t b option s' := by
  unfold Classifier.classify
  simp only [h.price?, h.contract, h.compare, h.lastRangeDeviation]

end SamePrices

end Series

end VolumeWatch
