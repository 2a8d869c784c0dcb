import VolumeWatch.Command.Request
import VolumeWatch.Proofs.Engine.Alike
import VolumeWatch.Proofs.Engine.Drain
import VolumeWatch.Proofs.Engine.Isolation
import VolumeWatch.Proofs.Replay.Actions

/-!
Lines that are no bars: they hand in nothing, and a turn that the worker gets after such a line
finds nothing to do, as the last bar or the start of the replay has left it at rest
(`Replay.Steady.alike`). A replay therefore goes as that of its bars alone does
(`Replay.Steady.alike_run`).

Main statement: `Replay.padding_ignored`.
-/

namespace VolumeWatch

open Engine

variable {α : Type} [Scalar α]

namespace Engine

/-- The alerts that a bar raises, each with what the queue answers to it. Those that the queue takes
are the ones that are returned (`Desk.ingest_snd`). -/
def answers (e : Engine α) (b : Bar α) : Ledger α :=
  e.desk.queue.entries (e.desk.market.raised e.desk.classifier e.now b)

/-- The bars that are handed in with actions, each with the answers to its alerts. -/
def intake (e : Engine α) : List (Action α) → List (Bar α × Ledger α)
  | [] => []
  | .submit b :: as => (b, e.answers b) :: intake (e.submit b).1 as
  | a :: as => intake (e.act a) as

theorem intake_append (e : Engine α) (as bs : List (Action α)) :
    e.intake (as ++ bs) = e.intake as ++ (e.run as).intake bs := by
  induction as generalizing e with
  | nil => rfl
  | cons a as ih =>
    cases a with
    | submit b => exact congrArg ((b, e.answers b) :: ·) (ih _)
    | settle | sleep | drain | shutdown => exact ih _

end Engine

namespace Replay

variable {e e' : Engine α} {bars : Nat}

theorem intake_turnAt (e : Engine α) (bars : Nat) : e.intake (turnAt bars) = [] := by
  unfold turnAt
  split <;> rfl

theorem alike_turnAt (h : Alike e e') (bars : Nat) :
    Alike (e.run (turnAt bars)) (e'.run (turnAt bars)) := by
  unfold turnAt
  split
  · exact h.settle
  · exact h

/-- An engine between two lines: where a batch is complete, its worker has had its turn. -/
structure Steady (bars : Nat) (e : Engine α) : Prop where
  timely : e.Timely
  poll : 0 < e.poll
  reportEvery : 0 < e.reportEvery
  rest : bars % batch = 0 → e.step? = none

namespace Steady

theorem initial {s : Settings α} {audience : Audience α} (he : ofSettings? s audience = some e)
    (hs : s.fault? = none) : Steady 0 e := by
  obtain ⟨htimely, hpoll, hevery⟩ := Timely.ofSettings he hs
  refine ⟨htimely, hpoll, hevery, fun _ => step?_eq_none_of_waiting ?_⟩
  rw [eq_initial he]
  rfl

/-- A turn at such a moment changes nothing. -/
theorem alike (h : Steady bars e) : Alike (e.run (turnAt bars)) e := by
  unfold turnAt
  split
  · exact alike_settle (h.rest ‹_›)
  · exact rfl

theorem bar (h : Steady bars e) (b : Bar α) :
    Steady (bars + 1) ((e.submit b).1.run (turnAt (bars + 1))) := by
  have hpoll : 0 < (e.submit b).1.poll := h.poll
  have hevery : 0 < (e.submit b).1.reportEvery := h.reportEvery
  have htimely : (e.submit b).1.Timely := (h.timely.act h.poll h.reportEvery (.submit b)).1
  unfold turnAt
  split
  · obtain ⟨hsettle, -⟩ := htimely.settle hpoll hevery
    exact ⟨hsettle.timely, hsettle.poll ▸ hpoll, hsettle.reportEvery ▸ hevery,
      fun _ => step?_settle hpoll⟩
  · rename_i hbatch
    exact ⟨htimely, hpoll, hevery, fun hzero => absurd hzero hbatch⟩

end Steady

/-- Lines lead where their bars alone lead, with the same answers on the way. -/
theorem Steady.alike_run (h : Steady bars e') (hsame : Alike e e') (lines : List (Line α)) :
    Alike (e.run (actions bars lines)) (e'.run (actions bars ((lines.filterMap Line.bar?).map .bar))) ∧
      e.intake (actions bars lines) =
        e'.intake (actions bars ((lines.filterMap Line.bar?).map .bar)) := by
  induction lines generalizing bars e e' with
  | nil => exact ⟨hsame, rfl⟩
  | cons l lines ih =>
    cases l with
    | blank => exact ih h hsame
    | junk =>
      -- only one of the engines gets a turn, and it is already alike the other without it
      rw [actions, run_append, intake_append, intake_turnAt]
      exact ih h ((alike_turnAt hsame bars).trans h.alike)
    | bar b =>
      obtain ⟨hrun, hintake⟩ := ih (h.bar b) (alike_turnAt (hsame.submit b) (bars + 1))
      have hanswers : e.answers b = e'.answers b := by
        rw [answers, answers, hsame.desk, hsame.now]
      constructor
      · show Alike ((e.submit b).1.run (turnAt (bars + 1) ++ _))
          ((e'.submit b).1.run (turnAt (bars + 1) ++ _))
        rw [run_append, run_append]
        exact hrun
      · show (b, e.answers b) :: (e.submit b).1.intake (turnAt (bars + 1) ++ _) =
          (b, e'.answers b) :: (e'.submit b).1.intake (turnAt (bars + 1) ++ _)
        rw [intake_append, intake_append, intake_turnAt, intake_turnAt, hanswers]
        exact congrArg _ hintake

/-- Lines with the same bars lead to engines that are alike, with the same answers on the way. -/
theorem alike_ofLines {s : Settings α} {audience : Audience α} (he : ofSettings? s audience = some e)
    (hs : s.fault? = none) {lines lines' : List (Line α)}
    (h : lines.filterMap Line.bar? = lines'.filterMap Line.bar?) :
    Alike (ofLines e lines).engine (ofLines e lines').engine ∧
      e.intake (actions 0 lines) = e.intake (actions 0 lines') := by
  have hsteady := Steady.initial he hs
  obtain ⟨hrun, hintake⟩ := hsteady.alike_run (e := e) rfl lines
  obtain ⟨hrun', hintake'⟩ := hsteady.alike_run (e := e) rfl lines'
  rw [← h] at hrun' hintake'
  rw [engine_ofLines, engine_ofLines]
  exact ⟨hrun.trans hrun'.symm, hintake.trans hintake'.symm⟩

theorem finish_congr {r r' : Replay α} (h : Alike r.engine r'.engine) (withBars : Bool) :
    r.finish withBars = r'.finish withBars := by
  simp only [finish, h.drain.desk, h.drain.shutdown]

end Replay

/-- A line of text that is blank or cannot be read as a bar. -/
def Text.IsPadding (t : String) : Prop :=
  Text.allBlank t.toList ∨ ((Json.ofString? t).bind ofJson? : Option (Bar Float)) = none

/-- Lines of text, and the same lines with such ones in between. -/
inductive Padded : List String → List String → Prop where
  | nil : Padded [] []
  | line (t : String) {texts padded : List String} : Padded texts padded →
      Padded (t :: texts) (t :: padded)
  | padding {t : String} {texts padded : List String} : Text.IsPadding t → Padded texts padded →
      Padded texts (t :: padded)

namespace Line

def ofTexts (texts : List String) : List (Line Float) := texts.map Line.ofText

theorem bar?_ofText_eq_none_iff {t : String} : (ofText t).bar? = none ↔ Text.IsPadding t := by
  unfold ofText Text.IsPadding
  split
  · rename_i hblank
    simp [bar?, hblank]
  · rename_i hblank
    cases ((Json.ofString? t).bind ofJson? : Option (Bar Float)) <;> simp [bar?, hblank]

end Line

namespace Padded

variable {texts padded : List String}

theorem bars_eq (h : Padded texts padded) :
    (Line.ofTexts padded).filterMap Line.bar? = (Line.ofTexts texts).filterMap Line.bar? := by
  induction h with
  | nil => rfl
  | line t _ ih =>
    simp only [Line.ofTexts, List.map_cons, List.filterMap_cons] at ih ⊢
    rw [ih]
  | padding ht _ ih =>
    rw [← ih]
    exact List.filterMap_cons_none (Line.bar?_ofText_eq_none_iff.mpr ht)

/-- The worker gets further turns at most. -/
theorem sublist_actions (h : Padded texts padded) (bars : Nat) :
    (Replay.actions bars (Line.ofTexts texts)).Sublist
      (Replay.actions bars (Line.ofTexts padded)) := by
  induction h generalizing bars with
  | nil => exact .slnil
  | line t _ ih =>
    unfold Line.ofTexts at ih ⊢
    rw [List.map_cons, List.map_cons]
    cases Line.ofText t with
    | blank => exact ih bars
    | junk => exact (ih bars).append_left _
    | bar b => exact ((ih (bars + 1)).append_left _).cons_cons _
  | padding ht _ ih =>
    have hnone := Line.bar?_ofText_eq_none_iff.mpr ht
    unfold Line.ofTexts at ih ⊢
    rw [List.map_cons]
    cases hl : Line.ofText _ with
    | blank => exact ih bars
    | junk => exact (ih bars).trans (List.sublist_append_right ..)
    | bar b => simp [hl, Line.bar?] at hnone

end Padded

namespace Replay

def ofTexts (e : Engine Float) (texts : List String) : Replay Float :=
  ofLines e (Line.ofTexts texts)

/-- What a replay of lines of text does with its engine. -/
def actionsOf (texts : List String) : List (Action Float) := actions 0 (Line.ofTexts texts)

/-- Lines that are no bars give the worker further turns and do nothing else. The same bars are
handed in, in the same order, and so the series are the same whatever else happens in between. Where
a turn lets the worker go on until it waits, and no time passes before the last line, the queue gives
the same answers to the same alerts, and the desk after the drain and all records are the same, by
either clock. -/
theorem padding_ignored {s : Settings Float} {audience : Audience Float} {e : Engine Float}
    (he : ofSettings? s audience = some e) (hs : s.fault? = none) {texts padded : List String}
    (h : Padded texts padded) :
    (∀ texts, (ofTexts e texts).engine = e.run (actionsOf texts)) ∧
    (actionsOf texts).Sublist (actionsOf padded) ∧
    (actionsOf padded).filterMap Action.bar? = (actionsOf texts).filterMap Action.bar? ∧
    (∀ ts us, feed ts = (actionsOf texts).filterMap Action.bar? →
      feed us = (actionsOf padded).filterMap Action.bar? →
      (e.turns us).desk.market = (e.turns ts).desk.market) ∧
    e.intake (actionsOf padded) = e.intake (actionsOf texts) ∧
    (ofTexts e padded).engine.drain.desk = (ofTexts e texts).engine.drain.desk ∧
    ∀ withBars, (ofTexts e padded).finish withBars = (ofTexts e texts).finish withBars := by
  have hbars : (actionsOf padded).filterMap Action.bar? = (actionsOf texts).filterMap Action.bar? := by
    rw [actionsOf, actionsOf, filterMap_bar?_actions, filterMap_bar?_actions, h.bars_eq]
  obtain ⟨halike, hintake⟩ := alike_ofLines he hs h.bars_eq
  refine ⟨fun texts => engine_ofLines e _, h.sublist_actions 0, hbars, fun ts us hts hus => ?_,
    hintake, halike.drain.desk, finish_congr halike⟩
  rw [market_turns he, market_turns he, hts, hus, hbars]

/-- A flat bar of a contract, some minutes into an hour. -/
def barText (contract minute volume : Nat) : String :=
  s!"[{contract},\"2024-03-12T14:{minute / 10}{minute % 10}:00Z\",10,10,10,10,{volume}]"

/-- A burst of an option with a bar to score it on, and the end of the stretch. -/
def burstTexts : List String :=
  barText 0 0 1 :: ((List.range 10).map fun i => barText 4500 i (if i = 9 then 100 else 1)) ++
    [barText 4500 10 1, barText 0 40 1]

/-- The burst, with lines that are no bars before it and after each of its lines. -/
def noisyTexts : List String := "no bar" :: burstTexts.flatMap fun t => [t, "[4500", " "]

theorem padded_noisyTexts : Padded burstTexts noisyTexts := by
  have hfirst : Text.IsPadding "no bar" :=
    Or.inr (Option.isNone_iff_eq_none.mp (by decide +kernel))
  have hbroken : Text.IsPadding "[4500" := Or.inr (Option.isNone_iff_eq_none.mp (by decide +kernel))
  have hblank : Text.IsPadding " " := Or.inl (by decide +kernel)
  have hall (texts : List String) : Padded texts (texts.flatMap fun t => [t, "[4500", " "]) := by
    induction texts with
    | nil => exact .nil
    | cons t texts ih => exact .line t (.padding hbroken (.padding hblank ih))
  exact .padding hfirst (hall burstTexts)

/-- With the noise the worker gets a turn before the first bar that it does not get otherwise. The
alert of the burst is scored all the same. -/
theorem padding_ignored_noisyTexts :
    (actionsOf burstTexts).length = 13 ∧ (actionsOf noisyTexts).length = 14 ∧
      (ofTexts marketEngine noisyTexts).engine.drain.desk.outcomes.length = 1 ∧
      marketEngine.intake (actionsOf noisyTexts) = marketEngine.intake (actionsOf burstTexts) ∧
      (ofTexts marketEngine noisyTexts).finish true =
        (ofTexts marketEngine burstTexts).finish true := by
  obtain ⟨-, -, -, -, hintake, hdesk, hfinish⟩ :=
    padding_ignored ofSettings?_marketSettings fault?_marketSettings padded_noisyTexts
  have hburst : (actionsOf burstTexts).length = 13 ∧ (actionsOf noisyTexts).length = 14 ∧
      (ofTexts marketEngine burstTexts).engine.drain.desk.outcomes.length = 1 := by
    decide +kernel
  refine ⟨hburst.1, hburst.2.1, ?_, hintake, hfinish true⟩
  rw [hdesk]
  exact hburst.2.2

end Replay

/-- A text that is padded is replayed in the same way. -/
theorem Settings.replay?_padded {s : Settings Float} (hs : s.fault? = none) (withBars : Bool)
    {text padded : String} (h : Padded (text.splitOn "\n") (padded.splitOn "\n")) :
    s.replay? withBars padded = s.replay? withBars text := by
  unfold Settings.replay?
  cases he : ofSettings? s (.content false) with
  | none => rfl
  | some e =>
    obtain ⟨halike, -⟩ := Replay.alike_ofLines he hs h.bars_eq
    exact congrArg some (Replay.finish_congr halike withBars)

end VolumeWatch
