import VolumeWatch.Proofs.Engine.Arrivals
import VolumeWatch.Proofs.Tasks.Log

/-!
Log of a replay: the statistics can be built again from its records (`Replay.log_finish`).

Where the steps of its tasks come between one another, a snapshot may hold an outcome whose record
comes after it, and the last snapshot may lack one whose record comes before it
(`Replay.not_inPlace_overtaken`).
-/

namespace VolumeWatch

open Engine

namespace Replay

variable {α : Type} [Scalar α]

section Runs

/-- The bars of the burst, each with as many notices as there are of it. -/
def burstSteps : List (Tasks.Step Float) :=
  ((burst ++ [flatBar 4500 50 1, flatBar 0 1900 1]).zip
    [1, 1, 1, 1, 1, 1, 2, 1, 1, 1, 2, 1, 1]).flatMap fun (b, n) => .take b :: List.replicate n .say

/-- By market time, the first report comes between the counting of the outcome and its record. -/
def overtaken : List (Tasks.Step Float) :=
  .beginReports :: burstSteps ++ [.pass 1800000, .look, .snap, .report, .tell]

/-- By the clock of the run, the snapshot for the end is taken when the worker has found that the
alert is not ripe. It looks once more, a second later, before it is stopped. -/
def outlived : List (Tasks.Step Float) :=
  .beginReports :: burstSteps ++ [.look, .keep, .pass 1000, .look, .tell, .stop, .close]

/-- Alerts are ripe after a second. -/
def briefSettings : Settings Float :=
  { Settings.standard with rule := { OutcomeRule.standard with lookahead := .ofSeconds 1 } }

def briefEngine : Engine Float := initial briefSettings (.content false)

theorem ofSettings?_briefSettings :
    ofSettings? briefSettings (.content false) = some briefEngine := rfl

theorem fault?_briefSettings : briefSettings.fault? = none :=
  Option.isNone_iff_eq_none.mp (by decide +kernel)

/-- A burst of an option with a bar to score it on, and the end of the stretch. -/
def burstLines : List (Line Float) := (burst ++ [flatBar 4500 50 1, flatBar 0 1900 1]).map .bar

end Runs

/-- The records of a run, whatever the order of the steps of its tasks, begin with the table of tag
values, hold the alerts that the bars raise in order, and give the statistics at each outcome when
they are read back. A snapshot is that of the outcomes which were counted when it was taken. Where
the turns are whole, it is that of the outcomes recorded before it. So it is in a replay, the last
record of which is the snapshot taken after the drain. By market time it may be written at any later
moment. -/
theorem log_finish {s : Settings α} {audience : Audience α} {e : Engine α}
    (he : ofSettings? s audience = some e) (hs : s.fault? = none) (withBars : Bool) :
    (∀ xs t, (Tasks.ofEngine e).run? xs = some t →
      Tasks.Trail e withBars ((∅ : Market α).raisedAll s.classifier (Tasks.feed xs)) xs t) ∧
    (∀ ts, (∃ xs, Tasks.feed xs = feed ts ∧
        (Tasks.ofEngine e).run? xs = some (Tasks.ofEngine (e.turns ts))) ∧
      Record.Log ((∅ : Market α).raisedAll s.classifier (feed ts)) (e.turns ts).desk.statistics
        (Record.ofJournal withBars (e.turns ts).desk.journal.toList)) ∧
    ∀ (lines : List (Line α)) (d : Engine α), d = (ofLines e lines).engine.drain →
      (Record.Log ((∅ : Market α).raisedAll s.classifier (lines.filterMap Line.bar?))
          d.desk.statistics ((ofLines e lines).finish withBars).records ∧
        ((ofLines e lines).finish withBars).records.getLast? =
          some (.snapshot d.desk.statistics.snapshot)) ∧
      (s.maturity = .marketTime → ∀ us, feed us = [] →
        Record.Log ((∅ : Market α).raisedAll s.classifier (lines.filterMap Line.bar?))
          d.desk.statistics (Record.ofJournal withBars
            ((d.turns us).desk.note [.snapshot d.desk.statistics.snapshot]).journal.toList)) := by
  refine ⟨fun xs t h => ?_, fun ts => ⟨Tasks.exists_steps e ts, ?_⟩, ?_⟩
  · obtain rfl := eq_initial he
    exact Tasks.trail_run rfl rfl rfl withBars h
  · exact Record.log_turns he withBars ts
  rintro lines d rfl
  obtain ⟨as, has, has'⟩ := exists_actions e lines
  have hdrain : e.run (as ++ [.drain]) = (ofLines e lines).engine.drain := by
    rw [run_append, has']
    rfl
  refine ⟨⟨?written, ?last⟩, ?later⟩
  case written =>
    obtain ⟨ts, hfeed, hts⟩ := exists_turns he hs (as ++ [.drain])
    have hbars : feed ts = lines.filterMap Line.bar? := by
      rw [hfeed, List.filterMap_append, has]
      exact List.append_nil _
    rw [← hbars, records_finish]
    exact log_snapshot he withBars (hts.trans hdrain) rfl rfl
  case last =>
    rw [records_finish, Desk.toList_journal_note, Record.ofJournal, List.filterMap_append,
      ← List.cons_append]
    exact List.getLast?_concat
  case later =>
    intro hm us hus
    obtain ⟨ts, hfeed, hts, hmaturity, hrested, hinformed⟩ := exists_turns_drain he hs hm as
    rw [hdrain] at hts
    rw [hts] at hmaturity hrested hinformed
    rw [has] at hfeed
    rw [← hfeed]
    exact log_snapshot he withBars hts hus (hrested.statistics_turns hinformed hmaturity hus)

theorem log_finish_burst :
    (∃ t, (Tasks.ofEngine marketEngine).run? overtaken = some t ∧
      Tasks.Trail marketEngine false
        ((∅ : Market Float).raisedAll marketSettings.classifier (Tasks.feed overtaken)) overtaken t) ∧
    ∃ before o after s,
      ((ofLines marketEngine burstLines).finish false).records =
        before ++ .outcome o :: after ∧
      Record.rebuild ∅ before = .ok s ∧ (Record.outcome o).Agrees s := by
  obtain ⟨hsteps, -, hlines⟩ :=
    log_finish ofSettings?_marketSettings fault?_marketSettings false
  have hrun : ((Tasks.ofEngine marketEngine).run? overtaken).isSome := by decide +kernel
  obtain ⟨t, ht⟩ := Option.isSome_iff_exists.mp hrun
  refine ⟨⟨t, ht, hsteps overtaken t ht⟩, ?_⟩
  obtain ⟨⟨hlog, -⟩, -⟩ := hlines burstLines _ rfl
  have hsome : (((ofLines marketEngine burstLines).finish false).records.filterMap
      Record.outcome?).length = 1 := by decide +kernel
  obtain ⟨o, ho⟩ := List.exists_mem_of_length_pos (hsome ▸ Nat.one_pos)
  obtain ⟨r, hr, houtcome⟩ := List.mem_filterMap.mp ho
  obtain ⟨before, after, hsplit⟩ := List.append_of_mem hr
  obtain ⟨s, hbuilt, hagrees⟩ := hlog.agrees before r after hsplit
  cases r with
  | outcome o => exact ⟨before, o, after, s, hsplit, hbuilt, hagrees⟩
  | tagIds | bar | alert | snapshot => cases houtcome

/-- Every snapshot is that of the statistics which are built from the records before it. -/
def InPlace (rs : List (Record α)) : Prop :=
  ∀ before taken after, rs = before ++ .snapshot taken :: after →
    ∃ s, Record.rebuild ∅ before = .ok s ∧ taken = s.snapshot

/-- A record is a snapshot that counts more outcomes than there are before it, or fewer. -/
def isMisplaced (rs : List (Record α)) (i : Nat) : Bool :=
  match rs[i]? with
  | some (.snapshot taken) => ((rs.take i).filterMap Record.outcome?).length ≠ taken.alerts
  | _ => false

theorem not_inPlace_of_isMisplaced {rs : List (Record α)} {i : Nat} (h : isMisplaced rs i) :
    ¬ InPlace rs := by
  intro hall
  unfold isMisplaced at h
  split at h
  · rename_i taken htaken
    obtain ⟨hi, htaken⟩ := List.getElem?_eq_some_iff.mp htaken
    have hsplit : rs = rs.take i ++ .snapshot taken :: rs.drop (i + 1) := by
      rw [← htaken, List.getElem_cons_drop, List.take_append_drop]
    obtain ⟨s, hs, rfl⟩ := hall _ _ _ hsplit
    refine of_decide_eq_true h ?_
    rw [Record.alerts_rebuild hs]
    exact (Nat.zero_add _).symm
  · cases h

/-- By market time, the snapshot holds an outcome that comes after it. By the clock of the run, it
lacks one that comes before it. -/
theorem not_inPlace_overtaken :
    (¬ ∀ (s : Settings Float) (audience : Audience Float) (e : Engine Float)
      (xs : List (Tasks.Step Float)) (t : Tasks Float), ofSettings? s audience = some e →
      s.fault? = none → s.maturity = .marketTime → (Tasks.ofEngine e).run? xs = some t →
      InPlace (t.sheet.records false)) ∧
    ¬ ∀ (s : Settings Float) (audience : Audience Float) (e : Engine Float)
      (xs : List (Tasks.Step Float)) (t : Tasks Float), ofSettings? s audience = some e →
      s.fault? = none → s.maturity = .wallClock → (Tasks.ofEngine e).run? xs = some t →
      InPlace (t.sheet.records false) := by
  have hovertaken : ((Tasks.ofEngine marketEngine).run? overtaken).any fun t =>
      isMisplaced (t.sheet.records false) 2 := by
    decide +kernel
  have houtlived : ((Tasks.ofEngine briefEngine).run? outlived).any fun t =>
      isMisplaced (t.sheet.records false) 3 := by
    decide +kernel
  obtain ⟨t, ht, hmisplaced⟩ := (Option.any_eq_true _ _).mp hovertaken
  obtain ⟨u, hu, hmisplaced'⟩ := (Option.any_eq_true _ _).mp houtlived
  constructor
  · intro hall
    exact not_inPlace_of_isMisplaced hmisplaced
      (hall _ _ _ _ t ofSettings?_marketSettings fault?_marketSettings rfl ht)
  · intro hall
    exact not_inPlace_of_isMisplaced hmisplaced'
      (hall _ _ _ _ u ofSettings?_briefSettings fault?_briefSettings rfl hu)

end Replay

end VolumeWatch
