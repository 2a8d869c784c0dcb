import VolumeWatch.Engine

/-!
Turns: the smallest things that happen to an engine, in any order.

A turn is a bar that comes in, one step of the worker, time that passes, a report or the end of the
run. Every run of actions is a run of turns with the same bars (`Engine.exists_turns`), so that what
holds after all turns holds after all actions.
-/

namespace VolumeWatch.Engine

variable {α : Type}

inductive Turn (α : Type) where
  | submit (bar : Bar α)
  /-- The worker takes one step, if it can. -/
  | step
  /-- Time passes and nothing is done. -/
  | pass (millis : Nat)
  | beginReports
  | report
  | shutdown

def Turn.bar? : Turn α → Option (Bar α)
  | .submit b => some b
  | _ => none

def feed (turns : List (Turn α)) : List (Bar α) := turns.filterMap Turn.bar?

def Action.bar? : Action α → Option (Bar α)
  | .submit b => some b
  | _ => none

theorem feed_append (ts us : List (Turn α)) : feed (ts ++ us) = feed ts ++ feed us :=
  List.filterMap_append ..

theorem feed_cons (t : Turn α) (ts : List (Turn α)) : feed (t :: ts) = t.bar?.toList ++ feed ts := by
  unfold feed
  rw [List.filterMap_cons]
  cases t.bar? <;> rfl

/-- The clocks of two engines agree: what is due when, and how long things take. -/
structure SameClock (e e' : Engine α) : Prop where
  now : e'.now = e.now
  poll : e'.poll = e.poll
  reportEvery : e'.reportEvery = e.reportEvery
  nextReport : e'.nextReport = e.nextReport

theorem SameClock.refl (e : Engine α) : SameClock e e := ⟨rfl, rfl, rfl, rfl⟩

theorem SameClock.trans {e e' e'' : Engine α} (h : SameClock e e') (h' : SameClock e' e'') :
    SameClock e e'' :=
  ⟨h'.now.trans h.now, h'.poll.trans h.poll, h'.reportEvery.trans h.reportEvery,
    h'.nextReport.trans h.nextReport⟩

variable [Scalar α]

def turn (e : Engine α) : Turn α → Engine α
  | .submit b => (e.submit b).1
  | .step => e.step?.getD e
  | .pass millis => { e with now := e.now + millis }
  | .beginReports => e.beginReports
  | .report => { e with desk := e.desk.report, nextReport := some (e.now + e.reportEvery) }
  | .shutdown => e.shutdown

def turns (e : Engine α) (ts : List (Turn α)) : Engine α := ts.foldl turn e

theorem turns_append (e : Engine α) (ts us : List (Turn α)) :
    e.turns (ts ++ us) = (e.turns ts).turns us := List.foldl_append ..

theorem run_append (e : Engine α) (as bs : List (Action α)) :
    e.run (as ++ bs) = (e.run as).run bs := List.foldl_append ..

/-- Turns without a bar lead from one engine to another. -/
def Follows (e e' : Engine α) : Prop := ∃ ts, feed ts = [] ∧ e.turns ts = e'

namespace Follows

variable {e e' e'' : Engine α}

theorem refl (e : Engine α) : Follows e e := ⟨[], rfl, rfl⟩

theorem trans (h : Follows e e') (h' : Follows e' e'') : Follows e e'' := by
  obtain ⟨ts, hts, rfl⟩ := h
  obtain ⟨us, hus, rfl⟩ := h'
  exact ⟨ts ++ us, by rw [feed_append, hts, hus]; rfl, turns_append e ts us⟩

theorem turn (e : Engine α) {t : Turn α} (h : t.bar? = none) : Follows e (e.turn t) :=
  ⟨[t], by simp [feed, h], rfl⟩

end Follows

omit [Scalar α] in
theorem sameClock_ready? {e r : Engine α} {a : Alert α} (h : e.ready? = some (r, a)) :
    SameClock e r := by
  unfold ready? at h
  split at h
  · split at h
    · obtain ⟨rfl, -⟩ := Prod.mk.inj (Option.some.inj h)
      exact ⟨rfl, rfl, rfl, rfl⟩
    · simp at h
  · split at h
    · obtain ⟨rfl, -⟩ := Prod.mk.inj (Option.some.inj h)
      exact SameClock.refl _
    · simp at h
  · simp at h
  · simp at h

theorem sameClock_consider (e : Engine α) (a : Alert α) : SameClock e (e.consider a) := by
  unfold consider
  split
  · exact ⟨rfl, rfl, rfl, rfl⟩
  · exact ⟨rfl, rfl, rfl, rfl⟩
  · split <;> exact ⟨rfl, rfl, rfl, rfl⟩

theorem le_now_turn (e : Engine α) (t : Turn α) : e.now ≤ (e.turn t).now := by
  cases t with
  | step =>
    unfold Engine.turn
    rw [step?]
    cases hready : e.ready? with
    | none => exact Nat.le_refl _
    | some next =>
      have hclock := (sameClock_ready? hready).trans (sameClock_consider next.1 next.2)
      exact Nat.le_of_eq hclock.now.symm
  | pass millis => exact Nat.le_add_right ..
  | submit | beginReports | report | shutdown => exact Nat.le_refl _

theorem due_consider {e : Engine α} {a b : Alert α} {due : Nat}
    (h : (e.consider a).worker = .waiting b due) : due = e.now + e.poll := by
  unfold consider at h
  split at h
  · simp [fail] at h
  · injection h with _ hdue
    exact hdue.symm
  · split at h
    · simp [fail] at h
    · simp at h

/-- Whatever is due is due later than now. -/
structure Timely (e : Engine α) : Prop where
  worker : ∀ a due, e.worker = .waiting a due → e.now < due
  report : ∀ due, e.nextReport = some due → e.now < due

theorem Timely.of_step? {e e' : Engine α} (hpoll : 0 < e.poll) (h : e.step? = some e')
    (hreport : ∀ due, e.nextReport = some due → e.now < due) : e'.Timely ∧ SameClock e e' := by
  rw [step?, Option.map_eq_some_iff] at h
  obtain ⟨⟨r, a⟩, hr, rfl⟩ := h
  have hclock := (sameClock_ready? hr).trans (sameClock_consider r a)
  refine ⟨⟨fun b due hw => ?_, ?_⟩, hclock⟩
  · have := due_consider hw
    rw [hclock.now]
    rw [(sameClock_ready? hr).now, (sameClock_ready? hr).poll] at this
    omega
  · rw [hclock.now, hclock.nextReport]
    exact hreport

theorem Timely.of_step?_none {e : Engine α} (h : e.step? = none)
    (hreport : ∀ due, e.nextReport = some due → e.now < due) : e.Timely := by
  refine ⟨fun a due hw => ?_, hreport⟩
  rw [step?, ready?, hw] at h
  simpa using h

theorem Timely.steps {e : Engine α} (hpoll : 0 < e.poll) (h : e.Timely) (n : Nat) :
    (steps n e).Timely ∧ SameClock e (steps n e) ∧ Follows e (steps n e) := by
  induction n generalizing e with
  | zero => exact ⟨h, SameClock.refl e, Follows.refl e⟩
  | succ n ih =>
    unfold Engine.steps
    cases hs : e.step? with
    | none => exact ⟨h, SameClock.refl e, Follows.refl e⟩
    | some e' =>
      obtain ⟨ht, hc⟩ := Timely.of_step? hpoll hs h.report
      obtain ⟨ht', hc', hf'⟩ := ih (hc.poll ▸ hpoll) ht
      have hf : Follows e e' := by
        have := Follows.turn e (t := .step) rfl
        simpa [Engine.turn, hs] using this
      exact ⟨ht', hc.trans hc', hf.trans hf'⟩

/-- After the worker has gone as far as it can, nothing is due before later. -/
theorem Timely.work {e : Engine α} (hpoll : 0 < e.poll)
    (hreport : ∀ due, e.nextReport = some due → e.now < due) :
    e.work.Timely ∧ SameClock e e.work ∧ Follows e e.work := by
  unfold Engine.work Engine.steps
  cases hs : e.step? with
  | none => exact ⟨Timely.of_step?_none hs hreport, SameClock.refl e, Follows.refl e⟩
  | some e' =>
    obtain ⟨ht, hc⟩ := Timely.of_step? hpoll hs hreport
    obtain ⟨ht', hc', hf'⟩ := ht.steps (hc.poll ▸ hpoll) e.desk.queue.items.size
    have hf : Follows e e' := by
      have := Follows.turn e (t := .step) rfl
      simpa [Engine.turn, hs] using this
    exact ⟨ht', hc.trans hc', hf.trans hf'⟩

/-- An engine that has gone on from another by itself, and has nothing due before later. -/
structure Advances (e e' : Engine α) : Prop where
  timely : e'.Timely
  poll : e'.poll = e.poll
  reportEvery : e'.reportEvery = e.reportEvery
  follows : Follows e e'

theorem Advances.trans {e e' e'' : Engine α} (h : Advances e e') (h' : Advances e' e'') :
    Advances e e'' :=
  ⟨h'.timely, h'.poll.trans h.poll, h'.reportEvery.trans h.reportEvery, h.follows.trans h'.follows⟩

theorem Advances.refl {e : Engine α} (h : e.Timely) : Advances e e :=
  ⟨h, rfl, rfl, Follows.refl e⟩

omit [Scalar α] in
theorem nextTimer?_le {e : Engine α} {t : Nat} (h : e.nextTimer? = some t) :
    (∀ a due, e.worker = .waiting a due → t ≤ due) ∧ (∀ due, e.nextReport = some due → t ≤ due) := by
  unfold nextTimer? at h
  split at h
  · rename_i due report hw hr
    obtain rfl := Option.some.inj h
    constructor
    · rintro a d hd
      obtain ⟨-, rfl⟩ := Worker.waiting.inj (hw.symm.trans hd)
      exact Nat.min_le_left ..
    · rintro d hd
      obtain rfl := Option.some.inj (hr.symm.trans hd)
      exact Nat.min_le_right ..
  · rename_i due hw hr
    obtain rfl := Option.some.inj h
    constructor
    · rintro a d hd
      obtain ⟨-, rfl⟩ := Worker.waiting.inj (hw.symm.trans hd)
      exact Nat.le_refl _
    · simp [hr]
  · rename_i hw hn
    constructor
    · rintro a d hd
      cases hr : e.nextReport with
      | none => exact absurd hr (hn _ _ hd)
      | some report => exact absurd hr (hw _ _ _ hd)
    · rintro d hd
      obtain rfl := Option.some.inj (h.symm.trans hd)
      exact Nat.le_refl _

theorem follows_now {e : Engine α} {t : Nat} (h : e.now ≤ t) : Follows e { e with now := t } := by
  have := Follows.turn e (t := .pass (t - e.now)) rfl
  rwa [Engine.turn, Nat.add_sub_cancel' h] at this

/-- A timely engine that waits for a moment before its next timer stays timely. -/
theorem Timely.advance {e : Engine α} {stop : Nat} (hstop : e.now ≤ stop)
    (h : ∀ t, e.nextTimer? = some t → stop < t) : Advances e { e with now := stop } where
  timely := by
    cases ht : e.nextTimer? with
    | none =>
      constructor
      · intro a due (hw : e.worker = _)
        rw [nextTimer?, hw] at ht
        cases hr : e.nextReport <;> simp [hr] at ht
      · intro due (hr : e.nextReport = _)
        rw [nextTimer?, hr] at ht
        cases hw : e.worker <;> simp [hw] at ht
    | some t =>
      obtain ⟨hw, hr⟩ := nextTimer?_le ht
      have := h t ht
      exact ⟨fun a due hd => Nat.lt_of_lt_of_le this (hw a due hd),
        fun due hd => Nat.lt_of_lt_of_le this (hr due hd)⟩
  poll := rfl
  reportEvery := rfl
  follows := follows_now hstop

omit [Scalar α] in
theorem Timely.lt_nextTimer? {e : Engine α} (h : e.Timely) {t : Nat} (ht : e.nextTimer? = some t) :
    e.now < t := by
  unfold nextTimer? at ht
  split at ht
  · rename_i due report hw hr
    obtain rfl := Option.some.inj ht
    exact Nat.lt_min.mpr ⟨h.worker _ _ hw, h.report _ hr⟩
  · rename_i due hw hr
    obtain rfl := Option.some.inj ht
    exact h.worker _ _ hw
  · exact h.report _ ht

theorem Timely.wake {e : Engine α} (h : e.Timely) (hpoll : 0 < e.poll) (hevery : 0 < e.reportEvery)
    {t : Nat} (ht : e.nextTimer? = some t) : Advances e (e.wake t) ∧ (e.wake t).now = t := by
  have hlater := follows_now (Nat.le_of_lt (h.lt_nextTimer? ht))
  unfold Engine.wake
  by_cases hr : e.nextReport = some t
  · rw [if_pos hr]
    have hreport : Follows { e with now := t }
        { e with now := t, desk := e.desk.report, nextReport := some (t + e.reportEvery) } :=
      Follows.turn { e with now := t } (t := .report) rfl
    obtain ⟨htimely, hclock, hf⟩ := Timely.work
      (e := { e with now := t, desk := e.desk.report, nextReport := some (t + e.reportEvery) })
      hpoll fun due hd => by
        obtain rfl := Option.some.inj hd
        show t < t + e.reportEvery
        omega
    exact ⟨⟨htimely, hclock.poll, hclock.reportEvery, (hlater.trans hreport).trans hf⟩, hclock.now⟩
  · rw [if_neg hr]
    obtain ⟨htimely, hclock, hf⟩ := Timely.work (e := { e with now := t }) hpoll fun due hd => by
      have hle := (nextTimer?_le ht).2 due hd
      have hne : t ≠ due := by
        rintro rfl
        exact hr hd
      exact Nat.lt_of_le_of_ne hle hne
    exact ⟨⟨htimely, hclock.poll, hclock.reportEvery, hlater.trans hf⟩, hclock.now⟩

/-- The fuel is enough, as every timer is later than the one before. -/
theorem Timely.passTime {e : Engine α} (h : e.Timely) (hpoll : 0 < e.poll)
    (hevery : 0 < e.reportEvery) {n stop : Nat} (hstop : e.now ≤ stop) (hn : stop < e.now + n) :
    Advances e (passTime n stop e) := by
  induction n generalizing e with
  | zero => omega
  | succ n ih =>
    unfold Engine.passTime
    cases ht : e.nextTimer? with
    | none => exact Timely.advance hstop (by simp [ht])
    | some t =>
      by_cases hle : t ≤ stop
      · simp only [hle, if_true]
        have hlt := h.lt_nextTimer? ht
        obtain ⟨ha, hnow⟩ := h.wake hpoll hevery ht
        exact ha.trans (ih ha.timely (ha.poll ▸ hpoll) (ha.reportEvery ▸ hevery) (by omega) (by omega))
      · simp only [hle, if_false]
        refine Timely.advance hstop fun t' ht' => ?_
        obtain rfl := Option.some.inj (ht.symm.trans ht')
        omega

theorem Timely.settle {e : Engine α} (h : e.Timely) (hpoll : 0 < e.poll)
    (hevery : 0 < e.reportEvery) : Advances e e.settle ∧ e.settle.now = e.now := by
  unfold Engine.settle
  split
  · exact ⟨Advances.refl h, rfl⟩
  · obtain ⟨ht, hc, hf⟩ := Timely.work (e := e.beginReports) hpoll fun due hd => by
      obtain rfl := Option.some.inj hd
      cases hr : e.nextReport with
      | none =>
        show e.now < e.now + e.reportEvery
        omega
      | some report => exact h.report report hr
    exact ⟨⟨ht, hc.poll, hc.reportEvery, (Follows.turn e (t := .beginReports) rfl).trans hf⟩, hc.now⟩

theorem Timely.sleep {e : Engine α} (h : e.Timely) (hpoll : 0 < e.poll)
    (hevery : 0 < e.reportEvery) (millis : Nat) : Advances e (e.sleep millis) := by
  obtain ⟨ha, hnow⟩ := h.settle hpoll hevery
  exact ha.trans (ha.timely.passTime (ha.poll ▸ hpoll) (ha.reportEvery ▸ hevery) (by omega) (by omega))

theorem Timely.drain {e : Engine α} (h : e.Timely) (hpoll : 0 < e.poll)
    (hevery : 0 < e.reportEvery) : Advances e e.drain := by
  unfold Engine.drain
  split
  · exact Advances.refl h
  · split
    · exact h.sleep hpoll hevery _
    · exact (h.settle hpoll hevery).1

theorem Timely.act {e : Engine α} (h : e.Timely) (hpoll : 0 < e.poll)
    (hevery : 0 < e.reportEvery) (a : Action α) :
    (e.act a).Timely ∧ (e.act a).poll = e.poll ∧ (e.act a).reportEvery = e.reportEvery ∧
      ∃ ts, feed ts = a.bar?.toList ∧ e.turns ts = e.act a := by
  have of_advances {e' : Engine α} (ha : Advances e e') : e'.Timely ∧ e'.poll = e.poll ∧
      e'.reportEvery = e.reportEvery ∧ ∃ ts, feed ts = [] ∧ e.turns ts = e' :=
    ⟨ha.timely, ha.poll, ha.reportEvery, ha.follows⟩
  cases a with
  | submit b => exact ⟨⟨h.worker, h.report⟩, rfl, rfl, [.submit b], rfl, rfl⟩
  | settle => exact of_advances (h.settle hpoll hevery).1
  | sleep millis => exact of_advances (h.sleep hpoll hevery millis)
  | drain => exact of_advances (h.drain hpoll hevery)
  | shutdown =>
    refine ⟨⟨?_, ?_⟩, rfl, rfl, [.shutdown], rfl, rfl⟩
    · intro a due hw
      simp [Engine.act, Engine.shutdown] at hw
    · intro due hd
      simp [Engine.act, Engine.shutdown] at hd

theorem Timely.run {e : Engine α} (h : e.Timely) (hpoll : 0 < e.poll) (hevery : 0 < e.reportEvery)
    (actions : List (Action α)) :
    (e.run actions).Timely ∧ (e.run actions).poll = e.poll ∧
      (e.run actions).reportEvery = e.reportEvery ∧
      ∃ ts, feed ts = actions.filterMap Action.bar? ∧ e.turns ts = e.run actions := by
  induction actions generalizing e with
  | nil => exact ⟨h, rfl, rfl, [], rfl, rfl⟩
  | cons a actions ih =>
    obtain ⟨ht, hp, hr, ts, hfeed, hts⟩ := h.act hpoll hevery a
    obtain ⟨ht', hp', hr', us, hfeed', hus⟩ := ih ht (hp ▸ hpoll) (hr ▸ hevery)
    refine ⟨ht', hp'.trans hp, hr'.trans hr, ts ++ us, ?_, ?_⟩
    · rw [feed_append, hfeed, hfeed', List.filterMap_cons]
      cases a.bar? <;> rfl
    · rw [turns_append, hts, hus]
      rfl

theorem conditions_of_fault?_eq_none {s : Settings α} (h : s.fault? = none) :
    ∀ c ∈ s.conditions, c.1 = true := by
  rw [Settings.fault?, Option.map_eq_none_iff, List.find?_eq_none] at h
  intro c hc
  simpa using h c hc

/-- At the start nothing is due, and usable settings leave time between two looks and two reports. -/
theorem Timely.ofSettings {s : Settings α} {audience : Audience α} {e : Engine α}
    (he : ofSettings? s audience = some e) (hs : s.fault? = none) :
    e.Timely ∧ 0 < e.poll ∧ 0 < e.reportEvery := by
  obtain ⟨queue, -, rfl⟩ := Option.map_eq_some_iff.mp he
  have hc := conditions_of_fault?_eq_none hs
  have hpoll : s.pollMillis ≠ 0 := by
    simpa using hc (s.pollMillis != 0, .zeroPoll) (by simp [Settings.conditions])
  have hevery : s.reportSeconds ≠ 0 := by
    simpa using hc (s.reportSeconds != 0, .zeroReport) (by simp [Settings.conditions])
  refine ⟨⟨?_, ?_⟩, Nat.pos_of_ne_zero hpoll, ?_⟩
  · intro a due hw
    simp at hw
  · intro due hd
    simp at hd
  · show 0 < s.reportSeconds * 1000
    omega

/-- A run of an engine with usable settings is a run of turns with the same bars. -/
theorem exists_turns {s : Settings α} {audience : Audience α} {e : Engine α}
    (he : ofSettings? s audience = some e) (hs : s.fault? = none) (actions : List (Action α)) :
    ∃ ts, feed ts = actions.filterMap Action.bar? ∧ e.turns ts = e.run actions := by
  obtain ⟨ht, hpoll, hevery⟩ := Timely.ofSettings he hs
  exact (ht.run hpoll hevery actions).2.2.2

/-- What comes after a part of such a run is a run of turns as well. -/
theorem exists_turns_append {s : Settings α} {audience : Audience α} {e : Engine α}
    (he : ofSettings? s audience = some e) (hs : s.fault? = none)
    (actions rest : List (Action α)) :
    ∃ us, (e.run actions).turns us = e.run (actions ++ rest) := by
  obtain ⟨ht, hpoll, hevery⟩ := Timely.ofSettings he hs
  obtain ⟨hbefore, hp, hr, -⟩ := ht.run hpoll hevery actions
  obtain ⟨-, -, -, us, -, hus⟩ := hbefore.run (hp ▸ hpoll) (hr ▸ hevery) rest
  exact ⟨us, hus.trans (e.run_append actions rest).symm⟩

end VolumeWatch.Engine
