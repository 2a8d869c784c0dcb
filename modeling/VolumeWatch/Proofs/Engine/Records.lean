import VolumeWatch.Proofs.Engine.Drain
import VolumeWatch.Proofs.Record.Rebuilding
import VolumeWatch.Proofs.Replay.Actions

/-!
Records of a run of turns: the statistics can be built again from them, at every point
(`Record.log_turns`).

What a desk notes leads from its statistics before to those after (`Desk.Logged`), whatever the
engine does (`Engine.logged_turn`). Turns are whole: an outcome is noted in the turn that records
it, and a snapshot in the turn that takes it, other than the last one of a replay
(`Replay.log_snapshot`).
-/

namespace VolumeWatch

variable {α : Type} [Scalar α]

/-- What a desk has noted between two moments leads from its statistics at the first to those at the
second. -/
def Desk.Logged (withBars : Bool) (d d' : Desk α) : Prop :=
  ∃ ns, d'.journal.toList = d.journal.toList ++ ns ∧
    Record.Traces d.statistics (ns.filterMap (Record.ofNotice? withBars)) d'.statistics

namespace Desk

variable {withBars : Bool} {d d' d'' : Desk α}

omit [Scalar α] in
theorem toList_journal_note (d : Desk α) (ns : List (Notice α)) :
    (d.note ns).journal.toList = d.journal.toList ++ ns := by
  simp [note]

omit [Scalar α] in
/-- What is noted of emitted bars, in place of which there are records of bars or none. -/
theorem mem_noticesOf {listening : Bool} {emitted : List (Emitted α)} {n : Notice α}
    (h : n ∈ noticesOf listening emitted) : ∃ t b, n = .anomaly t b ∨ n = .bar t b := by
  rcases List.mem_append.mp h with h | h
  · obtain ⟨e, -, rfl⟩ := List.mem_map.mp h
    exact ⟨_, _, .inl rfl⟩
  · obtain ⟨e, -, rfl⟩ := List.mem_map.mp h
    exact ⟨_, _, .inr rfl⟩

theorem Logged.of_eq (hjournal : d'.journal = d.journal) (hstatistics : d'.statistics = d.statistics) :
    Logged withBars d d' := by
  refine ⟨[], ?_, ?_⟩
  · rw [hjournal, List.append_nil]
  · rw [hstatistics]
    exact .nil _

theorem Logged.trans (h : Logged withBars d d') (h' : Logged withBars d' d'') :
    Logged withBars d d'' := by
  obtain ⟨ns, hjournal, htraces⟩ := h
  obtain ⟨ms, hjournal', htraces'⟩ := h'
  refine ⟨ns ++ ms, ?_, ?_⟩
  · rw [hjournal', hjournal, List.append_assoc]
  · rw [List.filterMap_append]
    exact htraces.append htraces'

/-- A bar is noted with the alerts it raises, and no statistics change. -/
theorem logged_ingest (withBars : Bool) (d : Desk α) (now : Nat) (b : Bar α) :
    Logged withBars d (d.ingest now b).1 := by
  rw [ingest_fst]
  refine ⟨_, d.toList_journal_note _, Record.Traces.of_unchanged fun r hr => ?_⟩
  obtain ⟨n, hn, hr⟩ := List.mem_filterMap.mp hr
  rcases List.mem_append.mp hn with hn | hn
  · obtain ⟨t, b, rfl | rfl⟩ := mem_noticesOf hn
    · cases hr
    · cases withBars with
      | false => cases hr
      | true =>
        obtain rfl := Option.some.inj hr
        exact ⟨trivial, rfl⟩
  · obtain ⟨a, -, rfl⟩ := List.mem_map.mp hn
    obtain rfl := Option.some.inj hr
    exact ⟨Record.agrees_ofAlert d.statistics a, rfl⟩

theorem logged_record (withBars : Bool) (d : Desk α) (a : Alert α) (o : Outcome α) :
    Logged withBars d (d.record a o) :=
  ⟨_, toList_journal_note _ _, Record.traces_ofOutcome d.statistics a o⟩

theorem logged_report (withBars : Bool) (d : Desk α) : Logged withBars d d.report :=
  ⟨_, d.toList_journal_note _, .cons rfl rfl (.nil _)⟩

end Desk

namespace Engine

theorem logged_considered {withBars : Bool} {e e' : Engine α} {a : Alert α} {f : Fate α}
    (h : Considered e a f e') : Desk.Logged withBars e.desk e'.desk := by
  cases h with
  | kept => exact .of_eq rfl rfl
  | lost status => exact .of_eq rfl rfl
  | unscored fault => exact .of_eq rfl rfl
  | scored o => exact (e.desk.logged_record withBars a o).trans (.of_eq rfl rfl)

theorem logged_turn (withBars : Bool) (e : Engine α) (t : Turn α) :
    Desk.Logged withBars e.desk (e.turn t).desk := by
  cases t with
  | submit b => exact e.desk.logged_ingest withBars e.now b
  | step =>
    rcases e.turn_step_cases with hnone | ⟨r, a, hr, hlook⟩
    · rw [hnone]
      exact .of_eq rfl rfl
    · have hsame : Desk.Logged withBars e.desk r.desk := by
        rw [hr.desk]
        exact .of_eq rfl rfl
      rw [hlook]
      exact hsame.trans (logged_considered (r.considered a))
  | pass millis => exact .of_eq rfl rfl
  | beginReports => exact .of_eq rfl rfl
  | report => exact e.desk.logged_report withBars
  | shutdown => exact .of_eq rfl rfl

theorem logged_turns (withBars : Bool) (e : Engine α) (ts : List (Turn α)) :
    Desk.Logged withBars e.desk (e.turns ts).desk := by
  induction ts generalizing e with
  | nil => exact .of_eq rfl rfl
  | cons t ts ih => exact (e.logged_turn withBars t).trans (ih (e.turn t))

/-- A worker at rest only looks again at the alert that it holds, if at any. -/
theorem Rested.step?_cases {e : Engine α} (h : e.Rested) (hi : e.Informed) :
    e.step? = none ∨ ∃ a due, e.step? = some { e with worker := .waiting a due } := by
  cases hw : e.worker with
  | idle =>
    left
    apply step?_eq_none_of_waiting
    rw [waiting, hw, h hw]
    rfl
  | waiting a due =>
    by_cases hdue : due ≤ e.now
    · right
      refine ⟨a, e.now + e.poll, ?_⟩
      rw [step?_of_due hw hdue, consider, hi a due hw]
    · left
      exact step?_eq_none_of_due hw (Nat.lt_of_not_le hdue)
  | failed status =>
    left
    simp [Engine.step?, ready?, hw]
  | stopped =>
    left
    simp [Engine.step?, ready?, hw]

theorem Rested.turn {e : Engine α} (h : e.Rested) (hi : e.Informed) {t : Turn α}
    (ht : t.bar? = none) :
    (e.turn t).Rested ∧ (e.turn t).desk.statistics = e.desk.statistics := by
  cases t with
  | submit b => simp [Turn.bar?] at ht
  | step =>
    unfold Engine.turn
    rcases h.step?_cases hi with hnone | ⟨a, due, hsome⟩
    · rw [hnone]
      exact ⟨h, rfl⟩
    · rw [hsome]
      refine ⟨fun hw => ?_, rfl⟩
      cases hw
  | pass millis => exact ⟨h, rfl⟩
  | beginReports => exact ⟨h, rfl⟩
  | report => exact ⟨h, rfl⟩
  | shutdown =>
    refine ⟨fun hw => ?_, rfl⟩
    cases hw

/-- By market time, statistics do not change any more once the worker is at rest and no bars come. -/
theorem Rested.statistics_turns {e : Engine α} (h : e.Rested) (hi : e.Informed)
    (hm : e.maturity = .marketTime) {us : List (Turn α)} (hus : feed us = []) :
    (e.turns us).desk.statistics = e.desk.statistics := by
  induction us generalizing e with
  | nil => rfl
  | cons t us ih =>
    rw [feed_cons, List.append_eq_nil_iff] at hus
    have ht : t.bar? = none := Option.toList_eq_nil_iff.mp hus.1
    obtain ⟨hrested, hsame⟩ := h.turn hi ht
    have hmaturity := (SameTerms.turn e t).maturity.trans hm
    exact (ih hrested (hi.turn hm ht) hmaturity hus.2).trans hsame

/-- The alerts that are recorded are those that the bars raise. -/
theorem map_ofAlert_alerts_turns {s : Settings α} {audience : Audience α} {e : Engine α}
    (he : ofSettings? s audience = some e) (ts : List (Turn α)) :
    (e.turns ts).desk.alerts.map Record.ofAlert =
      ((∅ : Market α).raisedAll s.classifier (feed ts)).map Record.ofAlert := by
  have htimeless := timeless_alerts_turns e ts
  rw [eq_initial he] at htimeless ⊢
  have hraised : ((initial s audience).turns ts).desk.alerts.map Alert.timeless =
      (∅ : Market α).raisedAll s.classifier (feed ts) := htimeless
  rw [← hraised, List.map_map]
  rfl

end Engine

open Engine

namespace Record

omit [Scalar α] in
theorem filterMap_alert?_ofJournal (withBars : Bool) (journal : List (Notice α)) :
    (ofJournal withBars journal).filterMap alert? =
      (journal.filterMap Notice.alert?).map ofAlert := by
  show (tagTable :: _).filterMap alert? = _
  rw [List.filterMap_cons_none rfl, List.filterMap_filterMap, List.map_filterMap]
  congr 1
  funext n
  cases n with
  | bar t b => cases withBars <;> rfl
  | anomaly | alert | outcome | snapshot => rfl

omit [Scalar α] in
theorem tagIds_notMem_ofNotice? (withBars : Bool) (journal : List (Notice α))
    (entries : List (Nat × TagValue)) :
    .tagIds entries ∉ journal.filterMap (ofNotice? withBars) := by
  intro h
  obtain ⟨n, -, hn⟩ := List.mem_filterMap.mp h
  cases n with
  | bar t b => cases withBars <;> cases hn
  | anomaly | alert | outcome | snapshot => cases hn

/-- The records of any run. -/
theorem log_turns {s : Settings α} {audience : Audience α} {e : Engine α}
    (he : ofSettings? s audience = some e) (withBars : Bool) (ts : List (Turn α)) :
    Log ((∅ : Market α).raisedAll s.classifier (feed ts)) (e.turns ts).desk.statistics
      (ofJournal withBars (e.turns ts).desk.journal.toList) := by
  obtain ⟨ns, hjournal, htraces⟩ := e.logged_turns withBars ts
  have hjournal : (e.turns ts).desk.journal.toList = ns := by
    rw [hjournal, eq_initial he]
    rfl
  have htraces : Traces ∅ (ofJournal withBars (e.turns ts).desk.journal.toList)
      (e.turns ts).desk.statistics := by
    rw [hjournal]
    refine .cons trivial rfl ?_
    rw [eq_initial he] at htraces ⊢
    exact htraces
  constructor
  case table => exact ⟨_, rfl, tagIds_notMem_ofNotice? withBars _⟩
  case alerts =>
    rw [filterMap_alert?_ofJournal]
    exact map_ofAlert_alerts_turns he ts
  case agrees =>
    intro before r after hsplit
    rw [hsplit] at htraces
    exact htraces.agrees
  case rebuilt => exact htraces.rebuild_eq

end Record

namespace Replay

/-- Lines are a run of actions with the bars among them. -/
theorem exists_actions (e : Engine α) (lines : List (Line α)) :
    ∃ as, as.filterMap Action.bar? = lines.filterMap Line.bar? ∧
      (ofLines e lines).engine = e.run as :=
  ⟨actions 0 lines, filterMap_bar?_actions 0 lines, engine_ofLines e lines⟩

theorem records_finish (r : Replay α) (withBars : Bool) :
    (r.finish withBars).records = Record.ofJournal withBars
      ((r.engine.drain.turns [.shutdown]).desk.note
        [.snapshot r.engine.drain.desk.statistics.snapshot]).journal.toList := rfl

/-- A snapshot that is written later is right as long as the statistics have not changed. -/
theorem log_snapshot {s : Settings α} {audience : Audience α} {e d : Engine α}
    (he : ofSettings? s audience = some e) (withBars : Bool) {ts us : List (Turn α)}
    (hd : e.turns ts = d) (hus : feed us = [])
    (hsame : (d.turns us).desk.statistics = d.desk.statistics) :
    Record.Log ((∅ : Market α).raisedAll s.classifier (feed ts)) d.desk.statistics
      (Record.ofJournal withBars
        ((d.turns us).desk.note [.snapshot d.desk.statistics.snapshot]).journal.toList) := by
  have h := Record.log_turns he withBars (ts ++ us ++ [.report])
  have hfeed : feed (ts ++ us ++ [.report]) = feed ts := by
    rw [feed_append, feed_append, hus, List.append_nil]
    exact List.append_nil _
  have hdesk : (e.turns (ts ++ us ++ [.report])).desk = (d.turns us).desk.report := by
    rw [turns_append, turns_append, hd]
    rfl
  have hstatistics : (d.turns us).desk.report.statistics = d.desk.statistics := hsame
  rw [hfeed, hdesk, hstatistics, Desk.report, hsame] at h
  exact h

end Replay

end VolumeWatch
