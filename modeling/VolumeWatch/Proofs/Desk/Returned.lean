import Mathlib.Data.List.Nodup
import VolumeWatch.Proofs.Desk.Publishing
import VolumeWatch.Proofs.Engine.Feeding
import VolumeWatch.Proofs.Market.Described

/-!
Alerts that a desk returns: each describes the bar that it flags, those of one call come from the
shortest timeframe to the longest, and no two of a run flag the same bar (`Desk.Run.returned`).

A flagged bar goes behind all bars of its timeframe, so that later alerts have later places
(`Desk.Run.lt_size`).
-/

namespace VolumeWatch

open Engine (flatBar)

variable {α : Type}

theorem Timeframe.ascending_above :
    (Timeframe.s5 :: Timeframe.s5.above).Pairwise (Category.ordinal · < Category.ordinal ·) := by
  decide

namespace Desk

variable [Scalar α]

/-- The alerts that are returned are among those that the bar has raised. -/
theorem ingest_snd_sublist (d : Desk α) (now : Nat) (b : Bar α) :
    (d.ingest now b).2.Sublist (d.market.raised d.classifier now b) := by
  have hpending := (d.queue.entries (d.market.raised d.classifier now b)).pending_sublist
  rwa [(d.queue.takes_pushAll _).alerts, ← ingest_snd] at hpending

/-- A desk in the course of a run, with the places of the alerts that it has returned so far. What
else a desk holds may change at any time: the queue is emptied by its receiver, outcomes are
recorded, and so on. -/
inductive Run (classifier : Classifier α) : List (ContractId × Timeframe × Nat) → Desk α → Prop where
  | start (queue : BoundedQueue (Alert α)) (audience : Audience α) :
      Run classifier [] (.empty classifier queue audience)
  | other {places : List (ContractId × Timeframe × Nat)} {d d' : Desk α} : Run classifier places d →
      d'.classifier = d.classifier → d'.market = d.market → Run classifier places d'
  | ingest {places : List (ContractId × Timeframe × Nat)} {d : Desk α} (now : Nat) (b : Bar α) :
      Run classifier places d → Run classifier
        (places ++ (d.ingest now b).2.map (d.market.place classifier.underlying)) (d.ingest now b).1

namespace Run

variable {classifier : Classifier α} {places : List (ContractId × Timeframe × Nat)} {d : Desk α}

theorem exists_feed (h : Run classifier places d) : d.classifier = classifier ∧
    ∃ feed, d.market = (∅ : Market α).ingestAll classifier.underlying feed := by
  induction h with
  | start => exact ⟨rfl, [], rfl⟩
  | other _ hclassifier hmarket ih =>
    rw [hclassifier, hmarket]
    exact ih
  | @ingest _ d now b _ ih =>
    obtain ⟨hclassifier, feed, hmarket⟩ := ih
    rw [ingest_fst]
    refine ⟨hclassifier, feed ++ [b], ?_⟩
    show (d.market.ingest d.classifier.underlying b).1 = _
    rw [hclassifier, hmarket, Market.ingestAll_append]
    rfl

theorem aligned (h : Run classifier places d) (c : ContractId) :
    (d.market.seriesOf classifier.underlying c).Aligned := by
  obtain ⟨-, feed, hmarket⟩ := h.exists_feed
  rw [hmarket]
  exact Market.aligned_seriesOf_ofFeed _ feed c

/-- A returned alert describes a bar that was emitted in the same call. -/
theorem describes (h : Run classifier places d) {now : Nat} {b : Bar α} {a : Alert α}
    (ha : a ∈ (d.ingest now b).2) : ∃ e, d.market.Describes classifier now b a e := by
  obtain ⟨hclassifier, feed, hmarket⟩ := h.exists_feed
  have hraised := (d.ingest_snd_sublist now b).subset ha
  rw [hclassifier, hmarket] at hraised
  rw [hmarket]
  exact Market.Describes.of_mem_raised hraised

/-- The alerts of one call have timeframes that grow. -/
theorem ascending (h : Run classifier places d) (now : Nat) (b : Bar α) :
    ((d.ingest now b).2.map (·.timeframe)).Pairwise
      (Category.ordinal · < Category.ordinal ·) := by
  have hreturned := (d.ingest_snd_sublist now b).map Alert.timeframe
  have hemitted := (Market.extended_ingest (h.aligned b.contract)).timeframes.sublist
  have hclassifier := h.exists_feed.1
  rw [hclassifier] at hreturned
  exact Timeframe.ascending_above.sublist
    ((hreturned.trans (Market.timeframes_alerts b.contract _)).trans hemitted)

theorem market_ingest (h : Run classifier places d) (now : Nat) (b : Bar α) :
    (d.ingest now b).1.market = (d.market.ingest classifier.underlying b).1 := by
  rw [ingest_fst, h.exists_feed.1]

/-- There is a bar at the place of each returned alert. -/
theorem lt_size (h : Run classifier places d) :
    ∀ p ∈ places, p.2.2 < ((d.market.seriesOf classifier.underlying p.1).bars p.2.1).size := by
  induction h with
  | start =>
    intro p hp
    cases hp
  | other _ _ hmarket ih =>
    rw [hmarket]
    exact ih
  | ingest now b h ih =>
    intro p hp
    rw [h.market_ingest now b]
    rcases List.mem_append.mp hp with hp | hp
    · exact Nat.lt_of_lt_of_le (ih p hp) (Market.size_bars_le_ingest (h.aligned _) b p.2.1)
    · obtain ⟨a, ha, rfl⟩ := List.mem_map.mp hp
      obtain ⟨e, he⟩ := h.describes ha
      exact (Array.getElem?_eq_some_iff.mp he.stored).1

/-- No place is taken twice: the bars of one call go to different timeframes, and behind all bars
at the places before. -/
theorem nodup (h : Run classifier places d) : places.Nodup := by
  induction h with
  | start => exact List.nodup_nil
  | other _ _ _ ih => exact ih
  | @ingest _ d now b h ih =>
    have hnew : ((d.ingest now b).2.map (d.market.place classifier.underlying)).Nodup := by
      apply List.Nodup.of_map (·.2.1)
      rw [List.map_map]
      exact (h.ascending now b).imp fun hlt heq => Nat.ne_of_lt hlt (congrArg _ heq)
    refine List.nodup_append.mpr ⟨ih, hnew, fun p hp q hq heq => ?_⟩
    obtain ⟨a, -, rfl⟩ := List.mem_map.mp hq
    have hlt := h.lt_size p hp
    rw [heq] at hlt
    exact Nat.lt_irrefl _ hlt

/-- In every run, each alert that a call returns describes a bar that was flagged in this call, of
an option, at a time in the session; the timeframes of one call ascend; and no two alerts of the run
flag the same bar. The alert tells the start of its bar unless that is in a leap second. -/
theorem returned (h : Run classifier places d) :
    places.Nodup ∧ ∀ now b,
      (∀ a ∈ (d.ingest now b).2, ∃ e, d.market.Describes classifier now b a e) ∧
      ((d.ingest now b).2.map (·.timeframe)).Pairwise
        (Category.ordinal · < Category.ordinal ·) :=
  ⟨h.nodup, fun now b => ⟨fun _ ha => h.describes ha, h.ascending now b⟩⟩

theorem ingestAll (h : Run classifier places d) (feed : List (Bar α)) :
    ∃ places, Run classifier places (feed.foldl (fun d b => (d.ingest 0 b).1) d) := by
  induction feed generalizing places d with
  | nil => exact ⟨places, h⟩
  | cons b feed ih => exact ih (h.ingest 0 b)

/-- A desk after a bar of the underlying and nine bars of an option. -/
def calmDesk : Desk Float :=
  (flatBar 0 0 1 :: (List.range 9).map fun i => flatBar 4500 (5 * i) 1).foldl
    (fun d b => (d.ingest 0 b).1)
    (.empty (Settings.standard : Settings Float).classifier (.ofCapacity 10) (.content false))

theorem exists_run_calmDesk :
    ∃ places, Run (Settings.standard : Settings Float).classifier places calmDesk :=
  (Run.start (.ofCapacity 10) (.content false)).ingestAll _

theorem returned_calmDesk : ∃ places,
    Run (Settings.standard : Settings Float).classifier places calmDesk ∧ places.Nodup ∧
      ∃ a ∈ (calmDesk.ingest 0 (flatBar 4500 45 100)).2, ∃ e,
        calmDesk.market.Describes (Settings.standard : Settings Float).classifier 0
          (flatBar 4500 45 100) a e ∧ a.barTime = e.bar.timestamp := by
  obtain ⟨places, hrun⟩ := exists_run_calmDesk
  obtain ⟨hnodup, hall⟩ := returned hrun
  have hsome : (calmDesk.ingest 0 (flatBar 4500 45 100)).2 ≠ [] := by
    rw [ne_eq, ← List.isEmpty_iff]
    decide +kernel
  have hwhole : ∀ e ∈ (calmDesk.market.ingest (Settings.standard : Settings Float).underlying
      (flatBar 4500 45 100)).2, e.bar.timestamp.nanos < 1000000000 := by decide +kernel
  obtain ⟨a, ha⟩ := List.exists_mem_of_ne_nil _ hsome
  obtain ⟨e, he⟩ := (hall 0 (flatBar 4500 45 100)).1 a ha
  exact ⟨places, hrun, hnodup, a, ha, e, he, he.barTime.mpr (hwhole e he.emitted)⟩

/-- A bar with a large volume that starts in the leap second at the end of a minute. -/
def leapBar : Bar Float :=
  { flatBar 4500 0 100 with timestamp := ⟨1710252059, 1000000000, by decide⟩ }

/-- An alert does not tell the start of a bar in a leap second. -/
theorem barTime_leapBar :
    ¬ ∀ (classifier : Classifier Float) (places : List (ContractId × Timeframe × Nat))
        (d : Desk Float) (now : Nat) (b : Bar Float), Run classifier places d →
        ∀ a ∈ (d.ingest now b).2, ∃ e ∈ (d.market.ingest classifier.underlying b).2,
          e.anomalous ∧ a.barTime = e.bar.timestamp := by
  intro hall
  obtain ⟨places, hrun⟩ := exists_run_calmDesk
  have hbad : ∃ a ∈ (calmDesk.ingest 0 leapBar).2,
      ∀ e ∈ (calmDesk.market.ingest (Settings.standard : Settings Float).underlying leapBar).2,
        a.barTime ≠ e.bar.timestamp := by decide +kernel
  obtain ⟨a, ha, hne⟩ := hbad
  obtain ⟨e, he, -, heq⟩ := hall _ places calmDesk 0 leapBar hrun a ha
  exact hne e he heq

end Run

end Desk

end VolumeWatch
