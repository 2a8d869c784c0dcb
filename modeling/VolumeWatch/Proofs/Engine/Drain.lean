import VolumeWatch.Proofs.Engine.MarketTime
import VolumeWatch.Proofs.Engine.Rest
import VolumeWatch.Proofs.Market.Pace

/-!
Drains: what still waits after a drain by market time. The worker looks at one alert at a time, so
that an alert that has matured is left behind where it waits behind one that matures later. This can
be so as soon as contracts come one after the other, or a bar is missing.

Main statement: `Engine.matured_behind_drain`.
-/

namespace VolumeWatch.Engine

open Calendar (Instant)

variable {α : Type} [Scalar α]

/-- A bar of some contract has started at the horizon of an alert or later. -/
def Matured (e : Engine α) (a : Alert α) : Prop :=
  ∃ horizon, e.rule.horizon? a.reference = some horizon ∧ e.desk.market.clock.any (horizon ≤ ·)

section Order

variable {e : Engine α} {a b : Alert α}

omit [Scalar α] in
theorem not_matured_of_isRipe? (hm : e.maturity = .marketTime) (h : e.isRipe? a = some false) :
    (e.rule.horizon? a.reference).isSome ∧ ¬ e.Matured a := by
  simp only [isRipe?, hm, Option.map_eq_some_iff] at h
  obtain ⟨horizon, hh, hclock⟩ := h
  refine ⟨by simp [hh], ?_⟩
  rintro ⟨later, hlater, hreached⟩
  obtain rfl : horizon = later := Option.some.inj (hh.symm.trans hlater)
  rw [hclock] at hreached
  simp at hreached

/-- An alert with a later reference time does not mature earlier. -/
theorem Matured.of_reference_le (h : e.Matured b) (ha : a.reference.nanos < 1000000000)
    (hb : b.reference.nanos < 1000000000) (hle : a.reference ≤ b.reference)
    (hsome : (e.rule.horizon? a.reference).isSome) : e.Matured a := by
  obtain ⟨later, hlater, hreached⟩ := h
  obtain ⟨horizon, hh⟩ := Option.isSome_iff_exists.mp hsome
  refine ⟨horizon, hh, ?_⟩
  have hmono := OutcomeRule.horizon?_mono ha hb hle hh hlater
  cases hc : e.desk.market.clock with
  | none => simp [hc] at hreached
  | some t =>
    rw [hc] at hreached
    have hlate : later ≤ t := by simpa using hreached
    simpa using Instant.le_trans hmono hlate

end Order

section Books

variable {e : Engine α} {l : Ledger α}

/-- What waits was noted, in the same order. -/
theorem Books.waiting_sublist (h : Books e l) : e.waiting.Sublist e.desk.alerts := by
  rw [← h.waiting, ← h.alerts]
  exact l.pending_sublist

theorem Books.waiting_eq_nil (h : Books e l) (hp : e.desk.queue.pending = 0) : e.waiting = [] := by
  cases hrun : e.worker.isRunning with
  | false => exact h.gone hrun
  | true =>
    have henqueued := h.enqueued hrun
    unfold BoundedQueue.pending at hp
    apply List.eq_nil_of_length_eq_zero
    omega

end Books

/-- The alerts of an engine end with bars that it was fed with, one after the other. -/
structure Paced (e : Engine α) (fed : List (Bar α)) : Prop extends Fed e fed where
  ends : ∀ a ∈ e.desk.alerts, ∃ b ∈ fed, a.reference = b.ends
  sorted : e.desk.alerts.Pairwise fun a b => a.reference ≤ b.reference

namespace Paced

variable {e : Engine α} {fed : List (Bar α)}

theorem initial {s : Settings α} {audience : Audience α} (he : ofSettings? s audience = some e) :
    Paced e [] := by
  have hnone : e.desk.alerts = [] := by
    rw [eq_initial he]
    simp [Engine.initial, Desk.empty, Desk.alerts]
  refine ⟨Fed.initial he, ?_, ?_⟩
  · rw [hnone]
    simp
  · rw [hnone]
    exact .nil

theorem turn (h : Paced e fed) (t : Turn α)
    (hown : ∀ c, Gapless (own c (fed ++ t.bar?.toList)))
    (horder : EndsInOrder (fed ++ t.bar?.toList)) : Paced (e.turn t) (fed ++ t.bar?.toList) := by
  suffices (∀ a ∈ (e.turn t).desk.alerts, ∃ b ∈ fed ++ t.bar?.toList, a.reference = b.ends) ∧
      (e.turn t).desk.alerts.Pairwise fun a b => a.reference ≤ b.reference from
    ⟨h.toFed.turn t, this.1, this.2⟩
  rw [(e.turn_bar t).2]
  cases hb : t.bar? with
  | none =>
    simp only [Option.toList_none, List.flatMap_nil, List.append_nil]
    exact ⟨h.ends, h.sorted⟩
  | some b =>
    rw [hb] at hown horder
    simp only [Option.toList_some, List.flatMap_singleton] at hown horder ⊢
    -- all that a bar raises ends with the bar
    have hraised : ∀ a ∈ e.desk.market.raised e.desk.classifier e.now b, a.reference = b.ends := by
      intro a ha
      rw [h.market] at ha
      refine (Market.Flagged.of_mem_raised ha).reference_eq_ends (hown b.contract) ?_
      rw [own_append, own_singleton]
      simp
    have hearlier : ∀ b' ∈ fed, b'.ends ≤ b.ends := fun b' hb' =>
      (List.pairwise_append.mp horder).2.2 b' hb' b (List.mem_singleton_self b)
    constructor
    · intro a ha
      rcases List.mem_append.mp ha with ha | ha
      · obtain ⟨b', hb', href⟩ := h.ends a ha
        exact ⟨b', List.mem_append_left _ hb', href⟩
      · exact ⟨b, by simp, hraised a ha⟩
    · refine List.pairwise_append.mpr ⟨h.sorted, ?_, ?_⟩
      · refine List.pairwise_of_forall_mem_list fun a ha a' ha' => ?_
        rw [hraised a ha, hraised a' ha']
        exact Instant.le_refl _
      · intro a ha a' ha'
        obtain ⟨b', hb', href⟩ := h.ends a ha
        rw [href, hraised a' ha']
        exact hearlier b' hb'

theorem turns (h : Paced e fed) (ts : List (Turn α)) (hown : ∀ c, Gapless (own c (fed ++ feed ts)))
    (horder : EndsInOrder (fed ++ feed ts)) : Paced (e.turns ts) (fed ++ feed ts) := by
  induction ts generalizing e fed with
  | nil =>
    show Paced e (fed ++ [])
    rw [List.append_nil]
    exact h
  | cons t ts ih =>
    rw [feed_cons, ← List.append_assoc] at hown horder ⊢
    refine ih (h.turn t (fun c => ?_) ?_) hown horder
    · have hc := hown c
      rw [own_append] at hc
      exact hc.left_of_append
    · exact (List.pairwise_append.mp horder).1

end Paced

/-- A run that ends with a drain, as a run of turns. -/
theorem exists_turns_drain {s : Settings α} {audience : Audience α} {e : Engine α}
    (he : ofSettings? s audience = some e) (hs : s.fault? = none) (hm : s.maturity = .marketTime)
    (actions : List (Action α)) :
    ∃ ts, feed ts = actions.filterMap Action.bar? ∧ e.turns ts = e.run (actions ++ [.drain]) ∧
      (e.turns ts).maturity = .marketTime ∧ (e.turns ts).Rested ∧ (e.turns ts).Informed := by
  obtain ⟨htimely, hpoll, hevery⟩ := Timely.ofSettings he hs
  obtain ⟨hbefore, hp, hr, ts, hfeed, hts⟩ := htimely.run hpoll hevery actions
  have hdrain : e.run (actions ++ [.drain]) = (e.run actions).drain := e.run_append actions [.drain]
  have hmaturity (ts : List (Turn α)) : (e.turns ts).maturity = .marketTime :=
    (SameTerms.of_initial he ts).maturity.trans hm
  have hbooks : Books (e.run actions) (e.ledger ts) := hts ▸ (Books.initial he).turns ts
  obtain ⟨hrested, hinformed⟩ := hbefore.rested_drain (hp ▸ hpoll) (hr ▸ hevery)
    (hts ▸ hmaturity ts) hbooks.waiting_eq_nil
  -- a drain is a run of turns without a bar
  obtain ⟨us, hus, hdus⟩ := (hbefore.drain (hp ▸ hpoll) (hr ▸ hevery)).follows
  have hall : e.turns (ts ++ us) = (e.run actions).drain := by rw [turns_append, hts, hdus]
  refine ⟨ts ++ us, ?_, hall.trans hdrain.symm, hmaturity _, ?_, ?_⟩
  · rw [feed_append, hus, hfeed, List.append_nil]
  · rwa [hall]
  · rwa [hall]

section Head

variable {e : Engine α} {fed : List (Bar α)} {l : Ledger α}

omit [Scalar α] in
/-- A worker at rest holds an alert that has not matured, if any waits. -/
theorem Informed.head (h : e.Informed) (hrested : e.Rested) (hm : e.maturity = .marketTime)
    (hrun : e.worker.isRunning) :
    e.waiting = [] ∨ ∃ a due, e.worker = .waiting a due ∧
      (e.rule.horizon? a.reference).isSome ∧ ¬ e.Matured a := by
  cases hw : e.worker with
  | idle =>
    left
    rw [waiting, hw, hrested hw]
    rfl
  | waiting a due => exact Or.inr ⟨a, due, rfl, not_matured_of_isRipe? hm (h a due hw)⟩
  | failed status => simp [hw, Worker.isRunning] at hrun
  | stopped => simp [hw, Worker.isRunning] at hrun

/-- What has matured and waits has an earlier reference time than the alert that is held. -/
theorem Matured.behind (hfed : Fed e fed) (hbooks : Books e l) {a b : Alert α} {due : Nat}
    (hw : e.worker = .waiting a due) (hsome : (e.rule.horizon? a.reference).isSome)
    (hnot : ¬ e.Matured a) (h : e.Matured b) (hb : b ∈ e.waiting) :
    b ∈ e.desk.queue.items.toList ∧ b.reference < a.reference := by
  have hwaiting : e.waiting = a :: e.desk.queue.items.toList := by
    rw [waiting, hw]
    rfl
  have ha : a ∈ e.waiting := by
    rw [hwaiting]
    exact List.mem_cons_self ..
  have hnanos : ∀ x ∈ e.waiting, x.reference.nanos < 1000000000 := by
    intro x hx
    obtain ⟨before, bar, after, -, hflagged⟩ := hfed.flagged x (hbooks.waiting_sublist.subset hx)
    exact hflagged.nanos_reference_lt
  constructor
  · rw [hwaiting] at hb
    rcases List.mem_cons.mp hb with rfl | hb
    · exact absurd h hnot
    · exact hb
  · by_contra hle
    exact hnot (h.of_reference_le (hnanos a ha) (hnanos b hb) (Instant.not_lt.mp hle) hsome)

end Head

/-- After a drain by market time the worker holds an alert that has not matured, if any is left, and
what has matured nevertheless waits behind it with an earlier reference time. Nothing is left like
that where no bar is missing and all bars come in the order in which they end. -/
theorem matured_behind_drain {s : Settings α} {audience : Audience α} {e d : Engine α}
    (he : ofSettings? s audience = some e) (hs : s.fault? = none) (hm : s.maturity = .marketTime)
    {actions : List (Action α)} (hd : d = e.run (actions ++ [.drain])) (hrun : d.worker.isRunning) :
    (d.waiting = [] ∨ ∃ a due, d.worker = .waiting a due ∧ ¬ d.Matured a) ∧
      (∀ b ∈ d.waiting, d.Matured b → ∃ a due, d.worker = .waiting a due ∧ ¬ d.Matured a ∧
        b ∈ d.desk.queue.items.toList ∧ b.reference < a.reference) ∧
      ((∀ c, Gapless (own c (actions.filterMap Action.bar?))) →
        EndsInOrder (actions.filterMap Action.bar?) → ∀ b ∈ d.waiting, ¬ d.Matured b) := by
  obtain ⟨ts, hfeed, hts, hmaturity, hrested, hinformed⟩ := exists_turns_drain he hs hm actions
  rw [← hts] at hd
  subst hd
  have hbooks := (Books.initial he).turns ts
  have hhead := hinformed.head hrested hmaturity hrun
  have hbehind : ∀ b ∈ (e.turns ts).waiting, (e.turns ts).Matured b → ∃ a due,
      (e.turns ts).worker = .waiting a due ∧ ¬ (e.turns ts).Matured a ∧
        b ∈ (e.turns ts).desk.queue.items.toList ∧ b.reference < a.reference := by
    intro b hb hmatured
    rcases hhead with hnil | ⟨a, due, hw, hsome, hnot⟩
    · rw [hnil] at hb
      simp at hb
    · exact ⟨a, due, hw, hnot, hmatured.behind ((Fed.initial he).turns ts) hbooks hw hsome hnot hb⟩
  refine ⟨?_, hbehind, ?_⟩
  · rcases hhead with hnil | ⟨a, due, hw, -, hnot⟩
    · exact Or.inl hnil
    · exact Or.inr ⟨a, due, hw, hnot⟩
  · intro hown horder b hb hmatured
    obtain ⟨a, due, hw, -, hmem, hlt⟩ := hbehind b hb hmatured
    rw [← hfeed] at hown horder
    have hpaced := (Paced.initial he).turns ts hown horder
    have hsorted := hpaced.sorted.sublist hbooks.waiting_sublist
    rw [waiting, hw] at hsorted
    exact Instant.not_lt.mpr ((List.pairwise_cons.mp hsorted).1 b hmem) hlt

def marketSettings : Settings Float := { Settings.standard with maturity := .marketTime }

def marketEngine : Engine Float := initial marketSettings (.content false)

theorem ofSettings?_marketSettings :
    ofSettings? marketSettings (.content false) = some marketEngine := rfl

theorem fault?_marketSettings : marketSettings.fault? = none :=
  Option.isNone_iff_eq_none.mp (by decide +kernel)

/-- One option with a burst in the second hour, and then another with a burst in the first hour. -/
def crossedFeed : List (Bar Float) :=
  flatBar 0 0 1 ::
    ((List.range 10).map fun i => flatBar 4500 (3000 + 5 * i) (if i = 9 then 100 else 1)) ++
    (List.range 11).map fun i => flatBar 4600 (5 * i) (if i = 9 then 100 else 1)

theorem inTime_own_crossedFeed (c : ContractId) : InTime (own c crossedFeed) :=
  forall_own .nil (by decide +kernel) c

def crossedRun : Engine Float := marketEngine.run (crossedFeed.map .submit ++ [.drain])

theorem exists_matured_crossedRun : ∃ b ∈ crossedRun.waiting, crossedRun.Matured b := by
  have hany : crossedRun.waiting.any fun b =>
      (crossedRun.rule.horizon? b.reference).any fun horizon =>
        crossedRun.desk.market.clock.any (horizon ≤ ·) := by
    decide +kernel
  obtain ⟨b, hb, hmatured⟩ := List.any_eq_true.mp hany
  obtain ⟨horizon, hh, hclock⟩ := (Option.any_eq_true _ _).mp hmatured
  exact ⟨b, hb, horizon, hh, hclock⟩

theorem isRunning_crossedRun : crossedRun.worker.isRunning := by
  decide +kernel

omit [Scalar α] in
theorem filterMap_bar?_map_submit (bars : List (Bar α)) :
    (bars.map Action.submit).filterMap Action.bar? = bars := by
  rw [List.filterMap_map]
  exact List.filterMap_some

/-- A burst without a gap, of which the alert is still to mature. -/
def calmRun : Engine Float := marketEngine.run (burst.map .submit ++ [.drain])

/-- The alert of the second option has matured and is left behind the alert of the first one. Of a
burst without a gap nothing is left like that. -/
theorem matured_behind_drain_crossed :
    (∃ a due b, crossedRun.worker = .waiting a due ∧ ¬ crossedRun.Matured a ∧
      b ∈ crossedRun.desk.queue.items.toList ∧ crossedRun.Matured b ∧ b.reference < a.reference) ∧
    calmRun.waiting.length = 1 ∧ ∀ b ∈ calmRun.waiting, ¬ calmRun.Matured b := by
  constructor
  · obtain ⟨b, hb, hmatured⟩ := exists_matured_crossedRun
    have hrun : crossedRun = marketEngine.run (crossedFeed.map .submit ++ [.drain]) := rfl
    have hall := matured_behind_drain ofSettings?_marketSettings fault?_marketSettings rfl hrun
      isRunning_crossedRun
    obtain ⟨a, due, hw, hnot, hmem, hlt⟩ := hall.2.1 b hb hmatured
    exact ⟨a, due, b, hw, hnot, hmem, hmatured, hlt⟩
  · have hrun : calmRun = marketEngine.run (burst.map .submit ++ [.drain]) := rfl
    have hrunning : calmRun.worker.isRunning := by decide +kernel
    have hall := matured_behind_drain ofSettings?_marketSettings fault?_marketSettings rfl hrun
      hrunning
    rw [filterMap_bar?_map_submit] at hall
    refine ⟨by decide +kernel, hall.2.2 ?_ (by decide +kernel)⟩
    exact forall_own List.isChain_nil (by decide +kernel)

/-- It is not enough that the bars of each contract come in time order. -/
theorem not_evaluated_by_drain_crossed :
    ¬ ∀ actions : List (Action Float), (∀ c, InTime (own c (actions.filterMap Action.bar?))) →
      (marketEngine.run (actions ++ [.drain])).worker.isRunning →
      ∀ a ∈ (marketEngine.run (actions ++ [.drain])).waiting,
        ¬ (marketEngine.run (actions ++ [.drain])).Matured a := by
  intro hall
  obtain ⟨b, hb, hmatured⟩ := exists_matured_crossedRun
  refine hall (crossedFeed.map .submit) (fun c => ?_) isRunning_crossedRun b hb hmatured
  rw [filterMap_bar?_map_submit]
  exact inTime_own_crossedFeed c

end VolumeWatch.Engine
