import VolumeWatch.Proofs.Desk.Returned
import VolumeWatch.Proofs.Series.Weighing

/-!
The volume tag of an alert is the category of the deviation by which its bar was flagged
(`Market.Weighed.of_mem_raised`). With exact numbers it therefore never contradicts the threshold
of the timeframe (`Desk.Run.volume_tagged`).
-/

namespace VolumeWatch

variable {α : Type} [Scalar α]

theorem VolumeDeviation.ofDeviations_eq_lowVol_iff {x : α} :
    ofDeviations x = .lowVol ↔ x ≤ ((1 : Nat) : α) := by
  unfold ofDeviations
  split
  · simp [*]
  · repeat' split
    all_goals simp [*]

namespace Market

/-- While the market `m` took the bar `b`, the series `s` flagged the bar of the alert `a` when it
was put on its timeframe, and the volume tag of the alert is the category of the deviation that was
compared with the threshold then. -/
structure Weighed (m : Market α) (underlying : ContractId) (b : Bar α) (a : Alert α)
    (s : Series α) (bar : Bar α) : Prop where
  puts : (m.seriesOf underlying b.contract).Puts b s a.timeframe bar
  alert : ∃ strike, a = .ofBar a.timeframe bar strike a.tags a.createdAt
  flagged : (s.emit a.timeframe bar).2.anomalous = true
  rule : (s.emit a.timeframe bar).2.anomalous = true ↔ s.isUnderlying = false ∧
    (a.timeframe.anomalyRule : AnomalyRule α).minSamples < (s.tier a.timeframe).volumes.count + 1 ∧
    a.timeframe.anomalyRule.threshold ≤ s.weigh a.timeframe bar
  tagged : a.tags.volumeDeviation = .ofDeviations (s.weigh a.timeframe bar)

theorem Weighed.of_mem_raised {classifier : Classifier α} {feed : List (Bar α)} {now : Nat}
    {b : Bar α} {a : Alert α}
    (h : a ∈ ((∅ : Market α).ingestAll classifier.underlying feed).raised classifier now b) :
    ∃ s bar, ((∅ : Market α).ingestAll classifier.underlying feed).Weighed
      classifier.underlying b a s bar := by
  obtain ⟨_, strike, -, e, he, hflagged, hof⟩ := mem_alerts_iff.mp h
  obtain ⟨-, -, hcontract⟩ := emitted_ofFeed _ feed b he
  obtain ⟨_, tags, -, htags, rfl⟩ := alertOf?_eq_some_iff.mp hof
  obtain ⟨s, t, bar, hputs, rfl⟩ := Series.Puts.mem_ingest_iff.mp he
  obtain ⟨_, _, hclassified⟩ := Classifier.classified_of_eq_ok htags
  refine ⟨s, bar, ?_⟩
  constructor
  case puts => exact hputs
  case alert => exact ⟨strike, rfl⟩
  case flagged => exact hflagged
  case rule => exact s.anomalous_emit_iff t bar
  case tagged =>
    -- the classifier looks at the series when all bars are made
    refine hclassified.volumeDeviation.trans (congrArg _ ?_)
    rw [hcontract, seriesOf_ingest_self]
    exact hputs.deviations_ingest

/-- A flagged bar of five seconds of an option raises an alert where it can be classified. -/
theorem exists_mem_raised {m : Market α} {classifier : Classifier α} {b : Bar α} {u : Series α}
    {slot : SessionSlot} (hoption : b.contract ≠ classifier.underlying)
    (hu : m.series.get? classifier.underlying = some u) (hprice : u.price?.isSome)
    (hslot : (classifier.session.slot b.timestamp : Except (Fault α) SessionSlot) = .ok slot)
    (hflagged : ((m.seriesOf classifier.underlying b.contract).emit .s5 b).2.anomalous = true)
    (now : Nat) : ∃ a, a ∈ m.raised classifier now b := by
  have hkind := ContractId.kind_of_ne (α := α) hoption
  obtain ⟨tags, htags⟩ := Classifier.exists_classify_iff.mpr ⟨⟨_, _, hkind⟩, hprice, slot, hslot⟩
  have hu' : (m.ingest classifier.underlying b).1.series.get? classifier.underlying = some u := by
    rw [get?_ingest, if_neg (Ne.symm hoption), hu]
  exact ⟨_, mem_alerts_iff.mpr ⟨_, _, hkind, _, List.mem_cons_self, hflagged,
    alertOf?_eq_some_iff.mpr ⟨u, tags, hu', htags, rfl⟩⟩⟩

end Market

/-- With exact numbers a volume that is flagged on the shorter timeframes is never low, and on the
longer ones only where it deviates by exactly one. -/
theorem Market.Weighed.not_low {m : Market ℝ} {underlying : ContractId} {b bar : Bar ℝ}
    {a : Alert ℝ} {s : Series ℝ} (h : m.Weighed underlying b a s bar) :
    (a.timeframe = .s5 ∨ a.timeframe = .s30 → a.tags.volumeDeviation ≠ .lowVol) ∧
    (a.timeframe = .m1 ∨ a.timeframe = .m5 → a.tags.volumeDeviation = .lowVol →
      s.weigh a.timeframe bar = 1) := by
  obtain ⟨-, -, hthreshold⟩ := h.rule.mp h.flagged
  have hlow := VolumeDeviation.ofDeviations_eq_lowVol_iff (x := s.weigh a.timeframe bar)
  rw [← h.tagged, Nat.cast_one] at hlow
  constructor
  · intro ht htag
    have hle := hthreshold.trans (hlow.mp htag)
    rcases ht with ht | ht <;> rw [ht] at hle <;> norm_num [Timeframe.anomalyRule] at hle
  · intro ht htag
    refine le_antisymm (hlow.mp htag) ?_
    rcases ht with ht | ht <;> rw [ht] at hthreshold ⊢ <;>
      simpa [Timeframe.anomalyRule] using hthreshold

/-- Where there is room in the queue, not all alerts that a bar raises are refused. -/
theorem Desk.exists_mem_ingest {d : Desk α} {now : Nat} {b : Bar α} {a : Alert α}
    (ha : a ∈ d.market.raised d.classifier now b) (hreceiver : d.queue.hasReceiver = true)
    (hroom : d.queue.items.toList.length < d.queue.capacity) :
    ∃ a, a ∈ (d.ingest now b).2 := by
  rw [ingest_snd]
  cases hraised : d.market.raised d.classifier now b with
  | nil =>
    rw [hraised] at ha
    cases ha
  | cons first others =>
    rcases d.queue.push_cases (α := α) first with ⟨hr, -⟩ | ⟨-, hfull, -⟩ | ⟨-, -, heq⟩
    · rw [hr] at hreceiver
      cases hreceiver
    · omega
    · have htaken : (Fate.ofPush (.ok () : Except (Fault α) Unit)).isPending = true := rfl
      rw [BoundedQueue.entries, heq, Ledger.pending_cons, if_pos htaken]
      exact ⟨first, List.mem_cons_self⟩

namespace Desk.Run

/-- In every run with exact numbers, the volume tag of each alert that is returned is the category
of the very deviation by which the bar of the alert was flagged when it was put on its timeframe.
On the timeframes of five and thirty seconds it never says that the volume is low, and on those of
one and five minutes only where the deviation is exactly one. -/
theorem volume_tagged {classifier : Classifier ℝ} {places : List (ContractId × Timeframe × Nat)}
    {d : Desk ℝ} (h : Run classifier places d) {now : Nat} {b : Bar ℝ} {a : Alert ℝ}
    (ha : a ∈ (d.ingest now b).2) :
    ∃ s bar, d.market.Weighed classifier.underlying b a s bar ∧
      (a.timeframe = .s5 ∨ a.timeframe = .s30 → a.tags.volumeDeviation ≠ .lowVol) ∧
      (a.timeframe = .m1 ∨ a.timeframe = .m5 → a.tags.volumeDeviation = .lowVol →
        s.weigh a.timeframe bar = 1) := by
  obtain ⟨hclassifier, feed, hmarket⟩ := h.exists_feed
  have hraised := (d.ingest_snd_sublist now b).subset ha
  rw [hclassifier, hmarket] at hraised
  obtain ⟨s, bar, hweighed⟩ := Market.Weighed.of_mem_raised hraised
  rw [← hmarket] at hweighed
  exact ⟨s, bar, hweighed, hweighed.not_low⟩

/-- Any bars are those of a run, whatever the queue is by then. -/
theorem exists_ofFeed {classifier : Classifier α} (queue : BoundedQueue (Alert α))
    (feed : List (Bar α)) : ∃ places, Run classifier places
      { Desk.empty classifier queue (.content false) with
        market := (∅ : Market α).ingestAll classifier.underlying feed } := by
  induction feed using List.reverseRecOn with
  | nil => exact ⟨[], .start queue (.content false)⟩
  | append_singleton feed b ih =>
    obtain ⟨places, h⟩ := ih
    refine ⟨_, (h.ingest 0 b).other ?_ ?_⟩
    · rw [ingest_fst]
      rfl
    · rw [h.market_ingest, Market.ingestAll_append]
      rfl

section Burst

/-- A bar of the underlying and nine bars of an option. -/
def exactFeed : List (Bar ℝ) :=
  exactBar ⟨0⟩ 1 1 :: List.replicate 9 (exactBar ⟨4500⟩ 1 1)

theorem own_exactFeed : own ⟨4500⟩ exactFeed = List.replicate 9 (exactBar ⟨4500⟩ 1 1) := by
  rw [own, exactFeed, List.filter_cons_of_neg (by decide), List.filter_eq_self]
  intro b hb
  rw [(List.mem_replicate.mp hb).2]
  rfl

/-- Among nine volumes of one, a volume of a hundred deviates by three. -/
theorem unusual_exactFeed : Timeframe.s5.Unusual (List.replicate 9 (1 : ℝ) ++ [100]) 100 := by
  have hstat : RunningStat.ofList (List.replicate 9 (1 : ℝ) ++ [100]) = ⟨10, 10.9, 8820.9⟩ := by
    rw [RunningStat.ofList_append_singleton]
    norm_num [RunningStat.ofList, RunningStat.add, List.replicate_succ,
      EmptyCollection.emptyCollection, RunningStat.empty]
  have hroot : Real.sqrt 882.09 = 29.7 := by
    rw [Real.sqrt_eq_iff_mul_self_eq (by norm_num) (by norm_num)]
    norm_num
  have hdeviation : (RunningStat.mk 10 10.9 8820.9 : RunningStat ℝ).deviation = 29.7 := by
    rw [RunningStat.deviation, RunningStat.variance, ← hroot]
    norm_num [Scalar.sqrt]
  constructor
  · simp [Timeframe.anomalyRule]
  · rw [hstat, RunningStat.exceeds, RunningStat.deviations, hdeviation]
    norm_num [Timeframe.anomalyRule, Scalar.epsilon, Scalar.abs]

theorem anomalous_exactFeed :
    ((((∅ : Market ℝ).ingestAll exactTerms.underlying exactFeed).seriesOf exactTerms.underlying
      ⟨4500⟩).emit .s5 (exactBar ⟨4500⟩ 1 100)).2.anomalous = true := by
  have hrecorded := (Series.recorded_empty (α := ℝ) ⟨4500⟩ false).ingestAll (own ⟨4500⟩ exactFeed)
  have hvolumes : (exactBar ⟨4500⟩ 1 1).volume = 1 := rfl
  rw [Market.seriesOf_ofFeed]
  refine (hrecorded.anomalous_emit .s5 _).mpr ⟨rfl, ?_⟩
  rw [Series.volumes_ofFeed, own_exactFeed, List.map_replicate, hvolumes]
  exact unusual_exactFeed

/-- A desk with room in its queue after the bars. -/
noncomputable def exactDesk : Desk ℝ :=
  { Desk.empty exactTerms (.ofCapacity 10) (.content false) with
    market := (∅ : Market ℝ).ingestAll exactTerms.underlying exactFeed }

theorem volume_tagged_exactDesk : ∃ places, Run exactTerms places exactDesk ∧
    ∃ a ∈ (exactDesk.ingest 0 (exactBar ⟨4500⟩ 1 100)).2, ∃ s bar,
      exactDesk.market.Weighed exactTerms.underlying (exactBar ⟨4500⟩ 1 100) a s bar ∧
      (a.timeframe = .s5 ∨ a.timeframe = .s30 → a.tags.volumeDeviation ≠ .lowVol) := by
  obtain ⟨places, hrun⟩ : ∃ places, Run exactTerms places exactDesk :=
    exists_ofFeed (.ofCapacity 10) exactFeed
  have hfirst : ∃ b ∈ exactFeed, b.contract = ⟨0⟩ := ⟨_, List.mem_cons_self, rfl⟩
  have hunderlying := Market.get?_ofFeed exactTerms.underlying hfirst
  have hprice : ((Series.empty ⟨0⟩ (⟨0⟩ = exactTerms.underlying)).ingestAll
      (own ⟨0⟩ exactFeed)).price?.isSome := by
    rw [Series.price?_ofFeed, Option.isSome_map, List.getLast?_isSome, ne_eq, own_eq_nil_iff,
      not_not]
    exact hfirst
  have hraised : ∃ a, a ∈ exactDesk.market.raised exactTerms 0 (exactBar ⟨4500⟩ 1 100) :=
    Market.exists_mem_raised (by decide) hunderlying hprice (slot_exactBar ⟨4500⟩ 1 100)
      anomalous_exactFeed 0
  obtain ⟨_, hraised⟩ := hraised
  obtain ⟨a, ha⟩ := exists_mem_ingest (d := exactDesk) hraised rfl (by decide)
  obtain ⟨s, bar, hweighed, hshort, -⟩ := volume_tagged hrun ha
  exact ⟨places, hrun, a, ha, s, bar, hweighed, hshort⟩

end Burst

end Desk.Run

end VolumeWatch
