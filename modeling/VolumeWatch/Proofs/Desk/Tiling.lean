import VolumeWatch.Proofs.Desk.Returned
import VolumeWatch.Proofs.Market.Between
import VolumeWatch.Proofs.Market.Pace

/-!
Bars of five seconds that follow each other without a gap. The bars of every timeframe then follow
each other without a gap as well, from the same start (`Paced.timestamp_bars`), and all alerts of one
call have the same reference time, the end of the bar that came in, before which all bars of the
contract start (`Desk.tiles_time`).
-/

namespace VolumeWatch

open Calendar (Instant)
open Engine (flatBar)

variable {α : Type}

theorem Calendar.Instant.addSeconds_natCast_add (t : Instant) (d : Nat) {k : Nat} (hk : 0 < k) :
    t.addSeconds (d + k : Nat) = (t.addSeconds d).addSeconds k := by
  rcases Nat.eq_zero_or_pos d with rfl | hd
  · rw [Nat.zero_add, Int.natCast_zero, addSeconds_zero]
  · rw [Int.natCast_add, t.addSeconds_addSeconds (Int.natCast_pos.mpr hd) (Int.natCast_pos.mpr hk)]

/-- Bars start every five seconds from an instant on. -/
def Paced (start : Instant) (bars : List (Bar α)) : Prop :=
  ∀ i (h : i < bars.length), bars[i].timestamp = start.addSeconds (5 * i : Nat)

instance (start : Instant) (bars : List (Bar α)) : Decidable (Paced start bars) :=
  inferInstanceAs (Decidable (∀ i (_ : i < bars.length), _))

namespace Paced

variable {start : Instant} {bars : List (Bar α)}

theorem gapless (h : Paced start bars) : Gapless bars := by
  refine List.isChain_iff_getElem.mpr fun i hi => ?_
  rw [h (i + 1) hi, Bar.ends, h i (Nat.lt_of_succ_lt hi), Nat.mul_succ]
  exact start.addSeconds_natCast_add (5 * i) (by decide)

/-- No bar starts after the last one. -/
theorem timestamp_le_last (h : Paced start bars) {last : Bar α} (hlast : bars.getLast? = some last)
    {w : Bar α} (hw : w ∈ bars) : w.timestamp ≤ last.timestamp := by
  obtain ⟨i, hi, rfl⟩ := List.mem_iff_getElem.mp hw
  rw [List.getLast?_eq_getElem?, List.getElem?_eq_some_iff] at hlast
  obtain ⟨hend, rfl⟩ := hlast
  rw [h i hi, h _ hend]
  apply Instant.addSeconds_mono
  · exact Int.natCast_nonneg _
  · exact Int.ofNat_le.mpr (by omega)

variable [Scalar α] {s : Series α}

/-- The bars of a timeframe start as many seconds apart as they last. -/
theorem timestamp_bars (hs : s.Aligned) (h : Paced start (s.bars .s5).toList) (t : Timeframe)
    {i : Nat} (hi : i < (s.bars t).size) :
    (s.bars t)[i].timestamp = start.addSeconds (i * t.seconds : Nat) := by
  obtain ⟨hf, htime⟩ := hs.exists_first t hi
  have hseconds : 5 * (i * t.parts) = i * t.seconds := by
    have := t.seconds_eq_parts
    rw [Nat.mul_left_comm, this]
  rw [htime, h _ hf, hseconds]

theorem timestamp_succ (hs : s.Aligned) (h : Paced start (s.bars .s5).toList) (t : Timeframe)
    {i : Nat} (hi : i + 1 < (s.bars t).size) :
    (s.bars t)[i + 1].timestamp = (s.bars t)[i].timestamp.addSeconds t.seconds := by
  rw [timestamp_bars hs h t hi, timestamp_bars hs h t (Nat.lt_of_succ_lt hi), Nat.succ_mul]
  exact start.addSeconds_natCast_add _ t.seconds_pos

/-- On all timeframes the bars start before the end of the last one. -/
theorem timestamp_lt_ends (hs : s.Aligned) (h : Paced start (s.bars .s5).toList) {last : Bar α}
    (hlast : (s.bars .s5).toList.getLast? = some last) (t : Timeframe) {w : Bar α}
    (hw : w ∈ s.bars t) : w.timestamp < last.ends := by
  obtain ⟨i, hi, rfl⟩ := Array.mem_iff_getElem.mp hw
  obtain ⟨hf, htime⟩ := hs.exists_first t hi
  rw [htime]
  have hle := h.timestamp_le_last hlast (List.getElem_mem hf)
  exact Int.lt_of_le_of_lt hle (last.timestamp.lt_addSeconds (by decide))

end Paced

theorem getLast?_own_append (feed : List (Bar α)) (b : Bar α) :
    (own b.contract (feed ++ [b])).getLast? = some b := by
  rw [own_append, own_singleton, List.getLast?_concat]

/-- An alert that the last bar of a contract without gaps raises ends with this bar. -/
theorem Market.reference_of_mem_raised [Scalar α] {classifier : Classifier α} {feed : List (Bar α)}
    {b : Bar α} {now : Nat} {start : Instant} (h : Paced start (own b.contract (feed ++ [b])))
    {a : Alert α}
    (ha : a ∈ ((∅ : Market α).ingestAll classifier.underlying feed).raised classifier now b) :
    a.reference = b.ends :=
  (Market.Flagged.of_mem_raised ha).reference_eq_ends h.gapless (getLast?_own_append feed b)

namespace Desk

variable [Scalar α]

theorem market_foldl_ingest (d : Desk α) (feed : List (Bar α)) :
    let d' := feed.foldl (fun d b => (d.ingest 0 b).1) d
    d'.classifier = d.classifier ∧
      d'.market = d.market.ingestAll d.classifier.underlying feed := by
  induction feed generalizing d with
  | nil => exact ⟨rfl, rfl⟩
  | cons b feed ih =>
    obtain ⟨hclassifier, hmarket⟩ := ih (d.ingest 0 b).1
    rw [ingest_fst] at hclassifier hmarket
    rw [List.foldl_cons, ingest_fst]
    exact ⟨hclassifier, hmarket⟩

/-- A feed of bars that start every five seconds gives bars on every timeframe that start as many
seconds apart as they last. Where the bars of a contract start every five seconds, all alerts that
its last bar raises have the end of this bar as their reference time, and on no timeframe does a bar
of the contract start then or later. -/
theorem tiles_time :
    (∀ (c : ContractId) (isUnderlying : Bool) (start : Instant) (feed : List (Bar α)),
      Paced start feed → ∀ t,
        let s := (Series.empty c isUnderlying).ingestAll feed
        (s.bars t).size = feed.length / t.parts ∧
        (∀ i (hi : i < (s.bars t).size),
          (s.bars t)[i].timestamp = start.addSeconds (i * t.seconds : Nat)) ∧
        ∀ i (hi : i + 1 < (s.bars t).size),
          (s.bars t)[i + 1].timestamp = (s.bars t)[i].timestamp.addSeconds t.seconds) ∧
    ∀ (d : Desk α) (now : Nat) (start : Instant) (feed : List (Bar α)) (b : Bar α),
      d.market = (∅ : Market α).ingestAll d.classifier.underlying feed →
      Paced start (own b.contract (feed ++ [b])) →
        (d.ingest now b).1.alerts = d.alerts ++ d.market.raised d.classifier now b ∧
        (d.ingest now b).2.Sublist (d.market.raised d.classifier now b) ∧
        ∀ a ∈ d.market.raised d.classifier now b,
          a.contract = b.contract ∧ a.reference = b.timestamp.addSeconds 5 ∧
          ∀ t, ∀ w ∈ ((d.ingest now b).1.market.seriesOf d.classifier.underlying
            b.contract).bars t, w.timestamp < a.reference := by
  constructor
  · intro c isUnderlying start feed h t s
    have hs : s.Aligned := Series.aligned_ofFeed c isUnderlying feed
    have hfeed : (s.bars .s5).toList = feed := Series.toList_bars_ofFeed c isUnderlying feed
    have hpaced : Paced start (s.bars .s5).toList := hfeed.symm ▸ h
    refine ⟨?_, fun i hi => hpaced.timestamp_bars hs t hi, fun i hi => hpaced.timestamp_succ hs t hi⟩
    rw [hs.size_bars, ← Array.length_toList, hfeed]
  · intro d now start feed b hmarket h
    refine ⟨d.alerts_ingest now b, d.ingest_snd_sublist now b, fun a ha => ?_⟩
    rw [hmarket] at ha
    have hreference : a.reference = b.ends := Market.reference_of_mem_raised h ha
    refine ⟨(Market.Flagged.of_mem_raised ha).contract, hreference, fun t w hw => ?_⟩
    have hafter : (d.ingest now b).1.market =
        (∅ : Market α).ingestAll d.classifier.underlying (feed ++ [b]) := by
      rw [ingest_fst, Market.ingestAll_append, ← hmarket]
      rfl
    rw [hafter, Market.seriesOf_ofFeed] at hw
    have hbars := Series.toList_bars_ofFeed b.contract (b.contract = d.classifier.underlying)
      (own b.contract (feed ++ [b]))
    rw [hreference]
    apply Paced.timestamp_lt_ends (Series.aligned_ofFeed _ _ _) (hbars.symm ▸ h) _ t hw
    rw [hbars]
    exact getLast?_own_append feed b

/-- A bar of the underlying and ten bars of thirty seconds of an option, but for the last five
seconds. -/
def pacedFeed : List (Bar Float) :=
  flatBar 0 0 1 :: (List.range 59).map fun i => flatBar 4500 (5 * i) 1

def pacedDesk : Desk Float :=
  pacedFeed.foldl (fun d b => (d.ingest 0 b).1)
    (.empty (Settings.standard : Settings Float).classifier (.ofCapacity 10) (.content false))

/-- A large volume in the last five seconds raises an alert for these and one for the last thirty
seconds, and both alerts have the same reference time. -/
theorem tiles_time_pacedDesk :
    (pacedDesk.ingest 0 (flatBar 4500 295 100)).2.map (·.timeframe) = [.s5, .s30] ∧
      ∀ a ∈ (pacedDesk.ingest 0 (flatBar 4500 295 100)).2,
        a.reference = .ofMillis 1710252300000 := by
  refine ⟨by decide +kernel, fun a ha => ?_⟩
  obtain ⟨hclassifier, hmarket⟩ : pacedDesk.classifier = _ ∧ pacedDesk.market = _ :=
    market_foldl_ingest _ pacedFeed
  rw [← hclassifier] at hmarket
  have hpaced : Paced (.ofMillis 1710252000000)
      (own ⟨4500⟩ (pacedFeed ++ [flatBar 4500 295 100])) := by decide
  obtain ⟨-, hreturned, hraised⟩ := tiles_time.2 pacedDesk 0 _ pacedFeed (flatBar 4500 295 100)
    hmarket hpaced
  exact (hraised a (hreturned.subset ha)).2.1

end Desk

end VolumeWatch
