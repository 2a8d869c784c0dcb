import VolumeWatch.Proofs.Engine.Records
import VolumeWatch.Proofs.Tasks.Turns

/-!
Logs of tasks: what is kept of a run whose tasks take their steps in any order.

A snapshot is that of the statistics at the moment at which it is taken. By the time it is noted,
later outcomes may have been noted, and the one that was counted last may not have been. So its
place among the records does not tell which outcomes it holds.
-/

namespace VolumeWatch

/-- It is noted of a bar. -/
def Notice.IsOfBar {α : Type} : Notice α → Prop
  | .outcome .. | .snapshot _ => False
  | .anomaly .. | .bar .. | .alert _ => True

namespace Tasks

open Engine

variable {α : Type}

/-- What has been noted, counted and taken. -/
structure Sheet (α : Type) where
  journal : List (Notice α)
  statistics : Statistics α
  untold : Option (Alert α × Outcome α × Entry α)
  taken : Option (Snapshot α)
  last : Option (Snapshot α)

def sheet (t : Tasks α) : Sheet α :=
  ⟨t.engine.desk.journal.toList, t.engine.desk.statistics, t.untold, t.taken, t.last⟩

namespace Sheet

def records (p : Sheet α) (withBars : Bool) : List (Record α) :=
  Record.ofJournal withBars p.journal

/-- The outcome that is counted and not noted. -/
def pending (p : Sheet α) : List (OutcomeRecord α) :=
  (p.untold.map fun x => Record.ofOutcome x.1 x.2.1 x.2.2).toList

/-- All outcomes that are counted. -/
def counted (p : Sheet α) (withBars : Bool) : List (OutcomeRecord α) :=
  (p.records withBars).filterMap Record.outcome? ++ p.pending

def noted (p : Sheet α) (n : Notice α) : Sheet α := { p with journal := p.journal ++ [n] }

theorem records_noted (p : Sheet α) (withBars : Bool) (n : Notice α) :
    (p.noted n).records withBars =
      p.records withBars ++ (Record.ofNotice? withBars n).toList := by
  show Record.tagTable :: (p.journal ++ [n]).filterMap _ = _
  rw [List.filterMap_append]
  cases h : Record.ofNotice? withBars n <;> simp [records, Record.ofJournal, h]

end Sheet

variable [Scalar α]

/-- What a step writes on the sheet. -/
inductive Writes : Step α → Sheet α → Sheet α → Prop where
  | nothing (x : Step α) (p : Sheet α) : (x ≠ .snap ∧ x ≠ .keep) → Writes x p p
  | said (p : Sheet α) (n : Notice α) : n.IsOfBar → Writes .say p (p.noted n)
  | counted (p : Sheet α) (a : Alert α) (o : Outcome α) : p.untold = none →
      Writes .look p { p with
        statistics := p.statistics.record a.tags o
        untold := some (a, o, (p.statistics.recordOutcome a.tags o).2) }
  | told (p : Sheet α) (a : Alert α) (o : Outcome α) (entry : Entry α) :
      p.untold = some (a, o, entry) →
        Writes .tell p { p.noted (.outcome a o entry) with untold := none }
  | snapped (p : Sheet α) : Writes .snap p { p with taken := some p.statistics.snapshot }
  | reported (p : Sheet α) (s : Snapshot α) : p.taken = some s →
      Writes .report p { p.noted (.snapshot s) with taken := none }
  | kept (p : Sheet α) : Writes .keep p { p with last := some p.statistics.snapshot }
  | closed (p : Sheet α) (s : Snapshot α) : p.last = some s →
      Writes .close p { p.noted (.snapshot s) with last := none }

theorem step?_say_eq_some_iff {t t' : Tasks α} : t.step? .say = some t' ↔
    ∃ n rest, t.unsaid = n :: rest ∧ { t.say n with unsaid := rest } = t' := by
  simp only [step?]
  cases t.unsaid <;> simp

/-- A look counts an outcome or changes nothing but the queue and the worker. -/
theorem look_cases {t : Tasks α} {r : Engine α} {a : Alert α} (hr : Ready t.engine r a) :
    (∃ e : Engine α, e.desk = { t.engine.desk with queue := e.desk.queue } ∧
      t.look r a = { t with engine := e }) ∨
    ∃ (o : Outcome α) (e : Engine α),
      e.desk = { (t.engine.desk.tally a o).1 with queue := e.desk.queue } ∧
      t.look r a = { t with engine := e, untold := some (a, o, (t.engine.desk.tally a o).2) } := by
  unfold look
  cases r.isRipe? a with
  | none => exact .inl ⟨_, by rw [fail, withQueue, hr.desk], rfl⟩
  | some ripe =>
    cases ripe with
    | false => exact .inl ⟨{ r with worker := .waiting a (r.now + r.poll) }, hr.desk, rfl⟩
    | true =>
      cases r.desk.score? r.rule a with
      | none => exact .inl ⟨_, by rw [fail, withQueue, hr.desk], rfl⟩
      | some result =>
        cases result with
        | error fault => exact .inl ⟨_, by rw [hr.desk], rfl⟩
        | ok o =>
          rw [hr.desk]
          exact .inr ⟨o, _, rfl, rfl⟩

theorem writes_look {t : Tasks α} (h : t.untold = none) {r : Engine α} {a : Alert α}
    (hr : Ready t.engine r a) : Writes .look t.sheet (t.look r a).sheet := by
  rcases look_cases hr with ⟨e, he, hlook⟩ | ⟨o, e, he, hlook⟩
  · have hsheet : (t.look r a).sheet = t.sheet := by
      rw [hlook, sheet, he]
      rfl
    rw [hsheet]
    exact .nothing .look _ (by simp)
  · have hsheet : (t.look r a).sheet = { t.sheet with
        statistics := t.engine.desk.statistics.record a.tags o
        untold := some (a, o, (t.engine.desk.statistics.recordOutcome a.tags o).2) } := by
      rw [hlook, sheet, he]
      rfl
    rw [hsheet]
    exact .counted t.sheet a o h

theorem writes_step {t t' : Tasks α} (h : ∀ n ∈ t.unsaid, n.IsOfBar) {x : Step α}
    (hx : t.step? x = some t') : Writes x t.sheet t'.sheet := by
  cases x with
  | take b =>
    obtain ⟨-, hx⟩ := Option.ite_none_right_eq_some.mp hx
    obtain rfl := Option.some.inj hx
    exact .nothing (.take b) _ (by simp)
  | say =>
    obtain ⟨n, rest, hunsaid, rfl⟩ := step?_say_eq_some_iff.mp hx
    have hn : n.IsOfBar := h n (hunsaid ▸ List.mem_cons_self)
    have hsheet : ({ t.say n with unsaid := rest } : Tasks α).sheet = t.sheet.noted n := by
      cases n <;> simp [sheet, say, withDesk, Desk.publish, Desk.note, Sheet.noted]
    rw [hsheet]
    exact .said _ n hn
  | look =>
    obtain ⟨hnone, hx⟩ := Option.ite_none_right_eq_some.mp hx
    obtain ⟨⟨r, a⟩, hready, rfl⟩ := Option.map_eq_some_iff.mp hx
    exact writes_look (Option.isNone_iff_eq_none.mp hnone) (.of_ready? hready)
  | tell =>
    obtain ⟨⟨a, o, entry⟩, huntold, rfl⟩ := Option.map_eq_some_iff.mp hx
    have htold := Writes.told t.sheet a o entry huntold
    simpa [sheet, tell, withDesk, Desk.note, Sheet.noted] using htold
  | beginReports =>
    obtain rfl := Option.some.inj hx
    exact .nothing .beginReports _ (by simp)
  | snap =>
    obtain ⟨-, hx⟩ := Option.ite_none_right_eq_some.mp hx
    obtain rfl := Option.some.inj hx
    exact .snapped t.sheet
  | report =>
    obtain ⟨s, htaken, rfl⟩ := Option.map_eq_some_iff.mp hx
    have hreported := Writes.reported t.sheet s htaken
    simpa [sheet, withDesk, Desk.note, Sheet.noted] using hreported
  | pass millis =>
    obtain rfl := Option.some.inj hx
    exact .nothing (.pass millis) _ (by simp)
  | keep =>
    obtain ⟨-, hx⟩ := Option.ite_none_right_eq_some.mp hx
    obtain rfl := Option.some.inj hx
    exact .kept t.sheet
  | stop =>
    obtain ⟨-, hx⟩ := Option.ite_none_right_eq_some.mp hx
    obtain rfl := Option.some.inj hx
    exact .nothing .stop _ (by simp)
  | close =>
    obtain ⟨-, hx⟩ := Option.ite_none_right_eq_some.mp hx
    obtain ⟨s, hlast, rfl⟩ := Option.map_eq_some_iff.mp hx
    have hclosed := Writes.closed t.sheet s hlast
    simpa [sheet, withDesk, Desk.note, Sheet.noted] using hclosed

section Feeding

/-- The series are those of the bars that were taken in, and the alerts that these have raised are
noted or have still to be noted. -/
structure Fed (classifier : Classifier α) (fed : List (Bar α)) (t : Tasks α) : Prop where
  terms : t.engine.desk.classifier = classifier
  market : t.engine.desk.market = (∅ : Market α).ingestAll classifier.underlying fed
  alerts : (t.engine.desk.alerts ++ t.unsaid.filterMap Notice.alert?).map Alert.timeless =
    (∅ : Market α).raisedAll classifier fed
  unsaid : ∀ n ∈ t.unsaid, n.IsOfBar

namespace Fed

variable {classifier : Classifier α} {fed : List (Bar α)} {t t' : Tasks α}

theorem start {e : Engine α} (hjournal : e.desk.journal = #[]) (hmarket : e.desk.market = ∅) :
    Fed e.desk.classifier [] (ofEngine e) := by
  refine ⟨rfl, hmarket, ?_, fun n hn => (List.not_mem_nil hn).elim⟩
  show (e.desk.alerts ++ []).map _ = _
  rw [Desk.alerts, hjournal]
  rfl

theorem congr (h : Fed classifier fed t)
    (hterms : t'.engine.desk.classifier = t.engine.desk.classifier)
    (hmarket : t'.engine.desk.market = t.engine.desk.market)
    (halerts : t'.engine.desk.alerts = t.engine.desk.alerts) (hunsaid : t'.unsaid = t.unsaid) :
    Fed classifier fed t' where
  terms := hterms.trans h.terms
  market := hmarket.trans h.market
  alerts := by rw [halerts, hunsaid, h.alerts]
  unsaid := hunsaid ▸ h.unsaid

/-- What is noted of neither bars nor alerts changes nothing. -/
theorem note (h : Fed classifier fed t) {n : Notice α} (hn : n.alert? = none)
    (hterms : t'.engine.desk.classifier = t.engine.desk.classifier)
    (hmarket : t'.engine.desk.market = t.engine.desk.market)
    (hjournal : t'.engine.desk.alerts = (t.engine.desk.note [n]).alerts)
    (hunsaid : t'.unsaid = t.unsaid) : Fed classifier fed t' := by
  refine h.congr hterms hmarket ?_ hunsaid
  rw [hjournal, Desk.alerts_note, List.filterMap_cons_none hn]
  exact List.append_nil _

theorem take (h : Fed classifier fed t) (hunsaid : t.unsaid = []) (b : Bar α) :
    Fed classifier (fed ++ [b]) (t.take b) := by
  have hsplit : (t.take b).unsaid = Desk.noticesOf t.engine.desk.audience.listening
      (t.engine.desk.market.ingest t.engine.desk.classifier.underlying b).2 ++
        (t.engine.desk.market.raised t.engine.desk.classifier t.engine.now b).map .alert := rfl
  constructor
  case terms => exact h.terms
  case market =>
    rw [Market.ingestAll_append, ← h.market, ← h.terms]
    rfl
  case alerts =>
    have hraised : (t.take b).unsaid.filterMap Notice.alert? =
        t.engine.desk.market.raised t.engine.desk.classifier t.engine.now b := by
      rw [hsplit, List.filterMap_append, Desk.filterMap_alert?_noticesOf, List.nil_append,
        List.filterMap_map]
      simp [Function.comp_def, Notice.alert?]
    have halerts := h.alerts
    rw [hunsaid, List.filterMap_nil, List.append_nil] at halerts
    rw [hraised, List.map_append, Market.map_timeless_raised, Market.raisedAll_append, ← h.market,
      h.terms]
    exact (congrArg (· ++ _) halerts).trans (congrArg (_ ++ ·) (List.append_nil _).symm)
  case unsaid =>
    intro n hn
    rw [hsplit] at hn
    rcases List.mem_append.mp hn with hn | hn
    · obtain ⟨_, _, rfl | rfl⟩ := Desk.mem_noticesOf hn <;> trivial
    · obtain ⟨a, -, rfl⟩ := List.mem_map.mp hn
      trivial

theorem say (h : Fed classifier fed t) {n : Notice α} {rest : List (Notice α)}
    (hunsaid : t.unsaid = n :: rest) :
    Fed classifier fed { t.say n with unsaid := rest } := by
  have hnoted : (t.say n).engine.desk.alerts =
      t.engine.desk.alerts ++ [n].filterMap Notice.alert? := by
    rw [← Desk.alerts_note]
    cases n <;> rfl
  constructor
  case terms =>
    refine Eq.trans ?_ h.terms
    cases n <;> rfl
  case market =>
    refine Eq.trans ?_ h.market
    cases n <;> rfl
  case alerts =>
    show ((t.say n).engine.desk.alerts ++ _).map _ = _
    rw [hnoted, List.append_assoc, ← List.filterMap_append, List.singleton_append, ← hunsaid,
      h.alerts]
  case unsaid =>
    intro m hm
    exact h.unsaid m (hunsaid ▸ List.mem_cons_of_mem n hm)

theorem look (h : Fed classifier fed t) {r : Engine α} {a : Alert α} (hr : Ready t.engine r a) :
    Fed classifier fed (t.look r a) := by
  rcases look_cases hr with ⟨e, he, hlook⟩ | ⟨o, e, he, hlook⟩
  · rw [hlook]
    exact h.congr (by rw [he]) (by rw [he]) (by rw [he]; rfl) rfl
  · rw [hlook]
    exact h.congr (by rw [he]; rfl) (by rw [he]; rfl) (by rw [he]; rfl) rfl

theorem step_of_bar?_eq_none (h : Fed classifier fed t) {x : Step α} (hx : t.step? x = some t')
    (hb : x.bar? = none) : Fed classifier fed t' := by
  cases x with
  | take b => cases hb
  | say =>
    obtain ⟨n, rest, hunsaid, rfl⟩ := step?_say_eq_some_iff.mp hx
    exact h.say hunsaid
  | look =>
    obtain ⟨-, hx⟩ := Option.ite_none_right_eq_some.mp hx
    obtain ⟨⟨r, a⟩, hready, rfl⟩ := Option.map_eq_some_iff.mp hx
    exact h.look (.of_ready? hready)
  | tell =>
    obtain ⟨⟨a, o, entry⟩, -, rfl⟩ := Option.map_eq_some_iff.mp hx
    exact h.note (n := .outcome a o entry) rfl rfl rfl rfl rfl
  | report =>
    obtain ⟨s, -, rfl⟩ := Option.map_eq_some_iff.mp hx
    exact h.note (n := .snapshot s) rfl rfl rfl rfl rfl
  | close =>
    obtain ⟨-, hx⟩ := Option.ite_none_right_eq_some.mp hx
    obtain ⟨s, -, rfl⟩ := Option.map_eq_some_iff.mp hx
    exact h.note (n := .snapshot s) rfl rfl rfl rfl rfl
  | snap | keep | stop =>
    obtain ⟨-, hx⟩ := Option.ite_none_right_eq_some.mp hx
    obtain rfl := Option.some.inj hx
    exact h.congr rfl rfl rfl rfl
  | beginReports | pass =>
    obtain rfl := Option.some.inj hx
    exact h.congr rfl rfl rfl rfl

theorem step (h : Fed classifier fed t) {x : Step α} (hx : t.step? x = some t') :
    Fed classifier (fed ++ x.bar?.toList) t' := by
  cases hb : x.bar? with
  | none =>
    rw [Option.toList_none, List.append_nil]
    exact h.step_of_bar?_eq_none hx hb
  | some b =>
    obtain rfl : x = .take b := by
      cases x <;> cases hb
      rfl
    obtain ⟨hunsaid, hx⟩ := Option.ite_none_right_eq_some.mp hx
    obtain rfl := Option.some.inj hx
    exact h.take (List.isEmpty_iff.mp hunsaid) b

theorem run (h : Fed classifier fed t) {xs : List (Step α)} (hxs : t.run? xs = some t') :
    Fed classifier (fed ++ Tasks.feed xs) t' := by
  induction xs generalizing t fed with
  | nil =>
    obtain rfl := Option.some.inj hxs
    exact (List.append_nil fed).symm ▸ h
  | cons x xs ih =>
    obtain ⟨u, hx, hxs⟩ := Option.bind_eq_some_iff.mp hxs
    have hfeed : Tasks.feed (x :: xs) = x.bar?.toList ++ Tasks.feed xs := by
      rw [Tasks.feed, List.filterMap_cons]
      cases x.bar? <;> rfl
    rw [hfeed, ← List.append_assoc]
    exact ih (h.step hx) hxs

end Fed

end Feeding

/-- A snapshot was taken by one of the steps, when these records had been made and these outcomes had
been counted, and perhaps no others. -/
def Past (e : Engine α) (withBars : Bool) (xs : List (Step α)) (noted : List (Record α))
    (counted : List (OutcomeRecord α)) (taken : Snapshot α) : Prop :=
  ∃ earlier x later t, xs = earlier ++ x :: later ∧ (x = .snap ∨ x = .keep) ∧
    (ofEngine e).run? earlier = some t ∧ t.sheet.records withBars <+: noted ∧
    t.sheet.counted withBars <+: counted ∧ taken = t.engine.desk.statistics.snapshot

/-- What a record says is true of the statistics that are built from the records before it, or, for a
snapshot, of those that there were when it was taken. -/
def Fits (e : Engine α) (withBars : Bool) (xs : List (Step α)) (counted : List (OutcomeRecord α))
    (before : List (Record α)) : Record α → Prop
  | .snapshot taken => Past e withBars xs before counted taken
  | r => ∃ s, Record.rebuild ∅ before = .ok s ∧ r.Agrees s

section Mono

variable {e : Engine α} {withBars : Bool} {xs : List (Step α)} {noted noted' : List (Record α)}
  {counted counted' : List (OutcomeRecord α)}

theorem Past.later {taken : Snapshot α} (h : Past e withBars xs noted counted taken)
    (ys : List (Step α)) : Past e withBars (xs ++ ys) noted counted taken := by
  obtain ⟨earlier, x, later, t, rfl, h⟩ := h
  exact ⟨earlier, x, later ++ ys, t, by simp, h⟩

theorem Past.mono {taken : Snapshot α} (h : Past e withBars xs noted counted taken)
    (hnoted : noted <+: noted') (hcounted : counted <+: counted') :
    Past e withBars xs noted' counted' taken := by
  obtain ⟨earlier, x, later, t, hxs, hx, ht, hrecords, houtcomes, htaken⟩ := h
  exact ⟨earlier, x, later, t, hxs, hx, ht, hrecords.trans hnoted, houtcomes.trans hcounted, htaken⟩

theorem Fits.later {r : Record α} (h : Fits e withBars xs counted noted r) (ys : List (Step α)) :
    Fits e withBars (xs ++ ys) counted noted r := by
  cases r with
  | snapshot taken => exact Past.later h ys
  | tagIds | bar | alert | outcome => exact h

theorem Fits.mono {r : Record α} (h : Fits e withBars xs counted noted r)
    (hcounted : counted <+: counted') : Fits e withBars xs counted' noted r := by
  cases r with
  | snapshot taken => exact Past.mono h (List.prefix_refl _) hcounted
  | tagIds | bar | alert | outcome => exact h

end Mono

namespace Sheet

variable {p : Sheet α} {withBars : Bool}

omit [Scalar α] in
theorem outcomes_noted {n : Notice α} (h : n.outcome? = none) :
    ((p.noted n).records withBars).filterMap Record.outcome? =
      (p.records withBars).filterMap Record.outcome? := by
  rw [records_noted, List.filterMap_append]
  cases n with
  | outcome a o entry => simp [Notice.outcome?] at h
  | bar t b => cases withBars <;> exact List.append_nil _
  | anomaly | alert | snapshot => exact List.append_nil _

theorem rebuild_records (h : p.pending = []) : Record.rebuild ∅ (p.records withBars) =
    Record.rebuild ∅ ((p.counted withBars).map .outcome) := by
  rw [counted, h, List.append_nil, Record.rebuild_outcomes]

end Sheet

/-- The records of steps: all outcomes that are counted give the statistics, every record is right,
and so is what has still to be noted. -/
structure Logged (e : Engine α) (withBars : Bool) (xs : List (Step α)) (p : Sheet α) : Prop where
  rebuilt : Record.rebuild ∅ ((p.counted withBars).map .outcome) = .ok p.statistics
  before : ∃ s, Record.rebuild ∅ (p.records withBars) = .ok s ∧
    ∀ o ∈ p.pending, (Record.outcome o).Agrees s
  fits : ∀ before r after, p.records withBars = before ++ r :: after →
    Fits e withBars xs (p.counted withBars) before r
  taken : ∀ s, p.taken = some s ∨ p.last = some s →
    Past e withBars xs (p.records withBars) (p.counted withBars) s

namespace Logged

variable {e : Engine α} {withBars : Bool} {xs : List (Step α)} {p q : Sheet α}

theorem later (h : Logged e withBars xs p) (ys : List (Step α)) :
    Logged e withBars (xs ++ ys) p where
  rebuilt := h.rebuilt
  before := h.before
  fits before r after hsplit := (h.fits before r after hsplit).later ys
  taken s hs := (h.taken s hs).later ys

/-- One more thing is noted, and it fits. -/
theorem note (h : Logged e withBars xs p) {n : Notice α}
    (hfits : ∀ r, Record.ofNotice? withBars n = some r →
      Fits e withBars xs (p.counted withBars) (p.records withBars) r)
    (hrecords : q.records withBars = (p.noted n).records withBars)
    (hcounted : q.counted withBars = p.counted withBars) (hstatistics : q.statistics = p.statistics)
    (htaken : ∀ s, q.taken = some s ∨ q.last = some s → p.taken = some s ∨ p.last = some s)
    (hbefore : ∃ s, Record.rebuild ∅ (q.records withBars) = .ok s ∧
      ∀ o ∈ q.pending, (Record.outcome o).Agrees s) : Logged e withBars xs q where
  rebuilt := by rw [hcounted, hstatistics, h.rebuilt]
  before := hbefore
  fits := by
    rw [hrecords, hcounted, Sheet.records_noted]
    cases hr : Record.ofNotice? withBars n with
    | none =>
      rw [Option.toList_none, List.append_nil]
      exact h.fits
    | some r => exact Record.forall_split_concat h.fits (hfits r hr)
  taken s hs := by
    rw [hrecords, hcounted, Sheet.records_noted]
    exact (h.taken s (htaken s hs)).mono (List.prefix_append _ _) (List.prefix_refl _)

/-- What is noted and is no outcome leaves the statistics of the records as they are. -/
theorem note_of_outcome?_eq_none (h : Logged e withBars xs p) {n : Notice α}
    (hn : n.outcome? = none)
    (hfits : ∀ r, Record.ofNotice? withBars n = some r →
      Fits e withBars xs (p.counted withBars) (p.records withBars) r)
    (hjournal : q.journal = (p.noted n).journal) (huntold : q.untold = p.untold)
    (hstatistics : q.statistics = p.statistics)
    (htaken : ∀ s, q.taken = some s ∨ q.last = some s → p.taken = some s ∨ p.last = some s) :
    Logged e withBars xs q := by
  have hrecords : q.records withBars = (p.noted n).records withBars :=
    congrArg (Record.ofJournal withBars) hjournal
  have hpending : q.pending = p.pending := by rw [Sheet.pending, huntold, Sheet.pending]
  have houtcomes : ((p.noted n).records withBars).filterMap Record.outcome? =
      (p.records withBars).filterMap Record.outcome? := Sheet.outcomes_noted hn
  refine h.note hfits hrecords ?_ hstatistics htaken ?_
  · rw [Sheet.counted, Sheet.counted, hrecords, houtcomes, hpending]
  · obtain ⟨s, hs, hagrees⟩ := h.before
    refine ⟨s, ?_, hpending ▸ hagrees⟩
    rw [hrecords, ← Record.rebuild_outcomes, houtcomes, Record.rebuild_outcomes, hs]

theorem said (h : Logged e withBars xs p) {n : Notice α} (hn : n.IsOfBar) :
    Logged e withBars xs (p.noted n) := by
  have hnone : n.outcome? = none := by
    cases n with
    | outcome => exact hn.elim
    | anomaly | bar | alert | snapshot => rfl
  refine h.note_of_outcome?_eq_none hnone (fun r hr => ?_) rfl rfl rfl fun s hs => hs
  obtain ⟨s, hs, -⟩ := h.before
  cases n with
  | anomaly t b => cases hr
  | bar t b =>
    cases withBars with
    | false => cases hr
    | true =>
      obtain rfl := Option.some.inj hr
      exact ⟨s, hs, trivial⟩
  | alert a =>
    obtain rfl := Option.some.inj hr
    exact ⟨s, hs, Record.agrees_ofAlert s a⟩
  | outcome => exact hn.elim
  | snapshot => exact hn.elim

/-- The outcome that is counted goes last among those that are counted. -/
theorem counted (h : Logged e withBars xs p) (hnone : p.untold = none) (a : Alert α)
    (o : Outcome α) :
    Logged e withBars xs { p with
      statistics := p.statistics.record a.tags o
      untold := some (a, o, (p.statistics.recordOutcome a.tags o).2) } := by
  let record := Record.ofOutcome a o (p.statistics.recordOutcome a.tags o).2
  let q : Sheet α := { p with
    statistics := p.statistics.record a.tags o
    untold := some (a, o, (p.statistics.recordOutcome a.tags o).2) }
  have hpending : p.pending = [] := by rw [Sheet.pending, hnone]; rfl
  have hcounted : q.counted withBars = p.counted withBars ++ [record] := by
    rw [Sheet.counted, Sheet.counted, hpending, List.append_nil]
    rfl
  have hmore : p.counted withBars <+: q.counted withBars := hcounted ▸ List.prefix_append _ _
  constructor
  case rebuilt =>
    show Record.rebuild ∅ ((q.counted withBars).map .outcome) = _
    rw [hcounted, List.map_append, List.map_singleton, Record.rebuild_concat h.rebuilt]
    exact Record.replay_ofOutcome p.statistics a o _
  case before =>
    refine ⟨p.statistics, (Sheet.rebuild_records hpending).trans h.rebuilt, fun r hr => ?_⟩
    obtain rfl : r = record := List.mem_singleton.mp hr
    exact Record.agrees_ofOutcome p.statistics a o
  case fits =>
    intro before r after hsplit
    exact (h.fits before r after hsplit).mono hmore
  case taken =>
    intro s hs
    exact (h.taken s hs).mono (List.prefix_refl _) hmore

theorem told (h : Logged e withBars xs p) {a : Alert α} {o : Outcome α} {entry : Entry α}
    (huntold : p.untold = some (a, o, entry)) :
    Logged e withBars xs { p.noted (.outcome a o entry) with untold := none } := by
  let q : Sheet α := { p.noted (.outcome a o entry) with untold := none }
  have hpending : p.pending = [Record.ofOutcome a o entry] := by rw [Sheet.pending, huntold]; rfl
  have hcounted : q.counted withBars = p.counted withBars := by
    have hrecords : q.records withBars =
        p.records withBars ++ [.outcome (Record.ofOutcome a o entry)] :=
      p.records_noted withBars _
    rw [Sheet.counted, hrecords, List.filterMap_append, Sheet.counted, hpending]
    exact List.append_nil _
  refine h.note (n := .outcome a o entry) (fun r hr => ?_) rfl hcounted rfl (fun s hs => hs) ?_
  · obtain rfl := Option.some.inj hr
    obtain ⟨s, hs, hagrees⟩ := h.before
    exact ⟨s, hs, hagrees _ (hpending ▸ List.mem_singleton_self _)⟩
  · refine ⟨p.statistics, ?_, nofun⟩
    exact (Sheet.rebuild_records (p := q) rfl).trans (hcounted ▸ h.rebuilt)

/-- A snapshot that was taken before is noted. -/
theorem noteSnapshot (h : Logged e withBars xs p) {s : Snapshot α}
    (hs : p.taken = some s ∨ p.last = some s)
    (hjournal : q.journal = (p.noted (.snapshot s)).journal)
    (huntold : q.untold = p.untold) (hstatistics : q.statistics = p.statistics)
    (htaken : ∀ s, q.taken = some s ∨ q.last = some s → p.taken = some s ∨ p.last = some s) :
    Logged e withBars xs q := by
  refine h.note_of_outcome?_eq_none rfl (fun r hr => ?_) hjournal huntold hstatistics htaken
  obtain rfl := Option.some.inj hr
  exact h.taken s hs

/-- A snapshot is taken now. -/
theorem take (h : Logged e withBars xs p) {t : Tasks α} (ht : (ofEngine e).run? xs = some t)
    (hsheet : t.sheet = p) {x : Step α} (hx : x = .snap ∨ x = .keep)
    (hjournal : q.journal = p.journal) (huntold : q.untold = p.untold)
    (hstatistics : q.statistics = p.statistics)
    (htaken : ∀ s, q.taken = some s ∨ q.last = some s →
      s = p.statistics.snapshot ∨ p.taken = some s ∨ p.last = some s) :
    Logged e withBars (xs ++ [x]) q := by
  have hrecords : q.records withBars = p.records withBars := by
    rw [Sheet.records, hjournal, Sheet.records]
  have hpending : q.pending = p.pending := by rw [Sheet.pending, huntold, Sheet.pending]
  have hcounted : q.counted withBars = p.counted withBars := by
    rw [Sheet.counted, hrecords, hpending, Sheet.counted]
  obtain ⟨hrebuilt, hbefore, hfits, hold⟩ := h.later [x]
  constructor
  case rebuilt => rw [hcounted, hstatistics, hrebuilt]
  case before => rw [hrecords, hpending]; exact hbefore
  case fits => rw [hrecords, hcounted]; exact hfits
  case taken =>
    intro s hs
    rw [hrecords, hcounted]
    rcases htaken s hs with rfl | hs
    · subst hsheet
      exact ⟨xs, x, [], t, rfl, hx, ht, List.prefix_refl _, List.prefix_refl _, rfl⟩
    · exact hold s hs

theorem writes (h : Logged e withBars xs p) {t : Tasks α} (ht : (ofEngine e).run? xs = some t)
    (hsheet : t.sheet = p) {x : Step α} (hx : Writes x p q) : Logged e withBars (xs ++ [x]) q := by
  cases hx with
  | nothing => exact h.later [x]
  | said _ n hn => exact (h.said hn).later _
  | counted _ a o hnone => exact (h.counted hnone a o).later _
  | told _ a o entry huntold => exact (h.told huntold).later _
  | snapped =>
    refine h.take ht hsheet (.inl rfl) rfl rfl rfl fun s hs => ?_
    rcases hs with hs | hs
    · exact .inl (Option.some.inj hs).symm
    · exact .inr (.inr hs)
  | reported _ s hs =>
    have hnoted : Logged e withBars xs { p.noted (.snapshot s) with taken := none } :=
      h.noteSnapshot (.inl hs) rfl rfl rfl fun s hs => .inr (hs.resolve_left nofun)
    exact hnoted.later _
  | kept =>
    refine h.take ht hsheet (.inr rfl) rfl rfl rfl fun s hs => ?_
    rcases hs with hs | hs
    · exact .inr (.inl hs)
    · exact .inl (Option.some.inj hs).symm
  | closed _ s hs =>
    have hnoted : Logged e withBars xs { p.noted (.snapshot s) with last := none } :=
      h.noteSnapshot (.inr hs) rfl rfl rfl fun s hs => .inl (hs.resolve_right nofun)
    exact hnoted.later _

theorem run (hjournal : e.desk.journal = #[]) (hstatistics : e.desk.statistics = ∅)
    (hmarket : e.desk.market = ∅) {t : Tasks α} (h : (ofEngine e).run? xs = some t) :
    Logged e withBars xs t.sheet := by
  induction xs using List.reverseRecOn generalizing t with
  | nil =>
    obtain rfl := Option.some.inj h
    have hrecords : (ofEngine e).sheet.records withBars = [Record.tagTable] := by
      show Record.ofJournal withBars e.desk.journal.toList = _
      rw [hjournal]
      rfl
    have hcounted : (ofEngine e).sheet.counted withBars = [] := by
      rw [Sheet.counted, hrecords]
      rfl
    constructor
    case rebuilt =>
      rw [hcounted]
      exact congrArg Except.ok hstatistics.symm
    case before =>
      rw [hrecords]
      exact ⟨∅, rfl, nofun⟩
    case fits =>
      intro before r after hsplit
      rw [hrecords] at hsplit
      cases before with
      | nil =>
        obtain ⟨rfl, -⟩ := List.cons.inj hsplit
        exact ⟨∅, rfl, trivial⟩
      | cons q before => simp at hsplit
    case taken => exact fun s hs => hs.elim nofun nofun
  | append_singleton xs x ih =>
    rw [run?_append] at h
    obtain ⟨u, hu, hx⟩ := Option.bind_eq_some_iff.mp h
    rw [run?_singleton] at hx
    exact (ih hu).writes hu rfl (writes_step ((Fed.start hjournal hmarket).run hu).unsaid hx)

end Logged

/-- The records after steps, for the alerts that the bars have raised. -/
structure Trail (e : Engine α) (withBars : Bool) (alerts : List (Alert α)) (xs : List (Step α))
    (t : Tasks α) : Prop where
  table : ∃ rest, t.sheet.records withBars = Record.tagTable :: rest ∧
    ∀ entries, .tagIds entries ∉ rest
  alerts : (t.sheet.records withBars).filterMap Record.alert? ++
    (t.unsaid.filterMap Notice.alert?).map Record.ofAlert = alerts.map Record.ofAlert
  /-- All records but the snapshots agree with the statistics of the records before them. -/
  agrees : ∀ before r after, t.sheet.records withBars = before ++ r :: after →
    (∀ taken, r ≠ .snapshot taken) → ∃ s, Record.rebuild ∅ before = .ok s ∧ r.Agrees s
  /-- A snapshot is that of the statistics at the step that took it. -/
  taken : ∀ before taken after, t.sheet.records withBars = before ++ .snapshot taken :: after →
    Past e withBars xs before (t.sheet.counted withBars) taken
  /-- It holds the first of the outcomes, as many as it counts, and at most one that is not noted
  before it. -/
  snapshots : ∀ before taken after,
    t.sheet.records withBars = before ++ .snapshot taken :: after →
      taken.alerts ≤ (before.filterMap Record.outcome?).length + 1 ∧
      ∃ s, Record.rebuild ∅ (((t.sheet.counted withBars).take taken.alerts).map .outcome) =
        .ok s ∧ taken = s.snapshot
  rebuilt : Record.rebuild ∅ ((t.sheet.counted withBars).map .outcome) =
    .ok t.engine.desk.statistics

omit [Scalar α] in
theorem Sheet.length_pending_le (p : Sheet α) : p.pending.length ≤ 1 := by
  unfold Sheet.pending
  cases p.untold <;> simp

theorem trail_run {e : Engine α} (hjournal : e.desk.journal = #[])
    (hstatistics : e.desk.statistics = ∅) (hmarket : e.desk.market = ∅) (withBars : Bool)
    {xs : List (Step α)} {t : Tasks α} (h : (ofEngine e).run? xs = some t) :
    Trail e withBars ((∅ : Market α).raisedAll e.desk.classifier (feed xs)) xs t := by
  have hlogged : Logged e withBars xs t.sheet := .run hjournal hstatistics hmarket h
  constructor
  case table => exact ⟨_, rfl, Record.tagIds_notMem_ofNotice? withBars _⟩
  case alerts =>
    have hfed : Fed e.desk.classifier (feed xs) t := (Fed.start hjournal hmarket).run h
    rw [Sheet.records, Record.filterMap_alert?_ofJournal, ← List.map_append, ← hfed.alerts,
      List.map_map]
    rfl
  case agrees =>
    intro before r after hsplit hne
    have hfits := hlogged.fits before r after hsplit
    cases r with
    | snapshot taken => exact absurd rfl (hne taken)
    | tagIds | bar | alert | outcome => exact hfits
  case taken => exact fun before taken after hsplit => hlogged.fits before _ after hsplit
  case snapshots =>
    intro before taken after hsplit
    obtain ⟨earlier, x, later, t', -, -, ht', hrecords, hcounted, rfl⟩ :=
      hlogged.fits before _ after hsplit
    have hthen : Logged e withBars earlier t'.sheet := .run hjournal hstatistics hmarket ht'
    have halerts : t'.engine.desk.statistics.snapshot.alerts =
        (t'.sheet.counted withBars).length := by
      refine (Record.alerts_rebuild hthen.rebuilt).trans ?_
      rw [Record.filterMap_outcome?_map]
      exact Nat.zero_add _
    refine ⟨?_, t'.engine.desk.statistics, ?_, rfl⟩
    · have hnoted := (hrecords.filterMap Record.outcome?).length_le
      have hpending := t'.sheet.length_pending_le
      rw [halerts, Sheet.counted, List.length_append]
      omega
    · rw [halerts, ← List.prefix_iff_eq_take.mp hcounted]
      exact hthen.rebuilt
  case rebuilt => exact hlogged.rebuilt

end Tasks

end VolumeWatch
