import VolumeWatch.Proofs.Engine.Drain
import VolumeWatch.Proofs.Outcome.Stretch
import VolumeWatch.Proofs.Settings.Lookahead

/-!
Punctuality: outcomes are recorded in time. A turn records at most one outcome, of an alert that is
ripe at that moment (`Engine.outcomes_turn`) and has bars in its stretch
(`Engine.Yields.within_ne_nil`), what is ripe stays so (`Engine.isRipe?_turn`), and a worker that is
gone records nothing any more (`Engine.gone_turns`).

Main statement: `Engine.outcomes_in_time`.
-/

namespace VolumeWatch

open Calendar (Duration Instant)

variable {α : Type}

namespace Engine

variable [Scalar α]

section Ripeness

variable {e : Engine α} {a : Alert α}

omit [Scalar α] in
theorem isRipe?_wallClock_iff (hm : e.maturity = .wallClock) {ripe : Bool} :
    e.isRipe? a = some ripe ↔ e.rule.lookahead.seconds < Nat.pow 2 63 ∧
      decide (a.createdAt * 1000000 + e.rule.lookahead.inNanos ≤ e.now * 1000000) = ripe := by
  simp [isRipe?, hm]

omit [Scalar α] in
theorem isRipe?_marketTime_iff (hm : e.maturity = .marketTime) :
    e.isRipe? a = some true ↔ e.Matured a := by
  simp [isRipe?, hm, Matured]

/-- An alert that is ripe stays ripe. -/
theorem isRipe?_turn (h : e.isRipe? a = some true) (t : Turn α) :
    (e.turn t).isRipe? a = some true := by
  have hterms := SameTerms.turn e t
  cases hm : e.maturity with
  | wallClock =>
    rw [isRipe?_wallClock_iff hm, decide_eq_true_iff] at h
    rw [isRipe?_wallClock_iff (hterms.maturity.trans hm), decide_eq_true_iff, hterms.rule]
    exact ⟨h.1, Nat.le_trans h.2 (Nat.mul_le_mul_right _ (e.le_now_turn t))⟩
  | marketTime =>
    obtain ⟨horizon, hh, hclock⟩ := (isRipe?_marketTime_iff hm).mp h
    apply (isRipe?_marketTime_iff (hterms.maturity.trans hm)).mpr
    refine ⟨horizon, by rw [hterms.rule, hh], ?_⟩
    rw [(e.turn_bar t).1, Market.clock_ingestAll]
    exact Or.inl hclock

theorem isRipe?_turns (h : e.isRipe? a = some true) (ts : List (Turn α)) :
    (e.turns ts).isRipe? a = some true := by
  induction ts generalizing e with
  | nil => exact h
  | cons t ts ih => exact ih (isRipe?_turn h t)

end Ripeness

/-- An alert that waits is ripe, and has an outcome. -/
structure Yields (e : Engine α) (a : Alert α) (o : Outcome α) : Prop where
  waiting : a ∈ e.waiting
  ripe : e.isRipe? a = some true
  score : e.desk.score? e.rule a = some (.ok o)

/-- A look records nothing, unless the alert is ripe and has an outcome. -/
theorem Considered.outcomes {e e' : Engine α} {a : Alert α} {f : Fate α}
    (h : Considered e a f e') :
    (e'.desk.outcomes = e.desk.outcomes ∧ e'.desk.statistics = e.desk.statistics) ∨
    ∃ o, e.isRipe? a = some true ∧ e.desk.score? e.rule a = some (.ok o) ∧
      e'.desk.outcomes = e.desk.outcomes ++ [(a, o)] ∧
      e'.desk.statistics = e.desk.statistics.record a.tags o := by
  cases h with
  | kept => exact Or.inl ⟨rfl, rfl⟩
  | lost status hover => exact Or.inl ⟨rfl, rfl⟩
  | unscored fault hripe hscore => exact Or.inl ⟨rfl, rfl⟩
  | scored o hripe hscore => exact Or.inr ⟨o, hripe, hscore, e.desk.outcomes_record a o, rfl⟩

/-- Outcomes are recorded by the steps of the worker alone. -/
theorem outcomes_turn_of_ne_step (e : Engine α) {t : Turn α} (ht : t ≠ .step) :
    (e.turn t).desk.outcomes = e.desk.outcomes ∧
      (e.turn t).desk.statistics = e.desk.statistics := by
  cases t with
  | submit b =>
    refine ⟨e.desk.outcomes_ingest e.now b, ?_⟩
    show (e.desk.ingest e.now b).1.statistics = _
    rw [Desk.ingest_fst]
    rfl
  | step => exact absurd rfl ht
  | report => exact ⟨(e.desk.outcomes_note _).trans (List.append_nil _), rfl⟩
  | pass | beginReports | shutdown => exact ⟨rfl, rfl⟩

/-- A turn records nothing, unless it is a step of the worker that finds an outcome. -/
theorem outcomes_turn (e : Engine α) (t : Turn α) :
    ((e.turn t).desk.outcomes = e.desk.outcomes ∧
      (e.turn t).desk.statistics = e.desk.statistics) ∨
    ∃ a o, e.Yields a o ∧ (e.turn t).desk.outcomes = e.desk.outcomes ++ [(a, o)] ∧
      (e.turn t).desk.statistics = e.desk.statistics.record a.tags o := by
  cases t with
  | step =>
    rcases e.turn_step_cases with hnone | ⟨r, a, hr, hlook⟩
    · rw [hnone]
      exact Or.inl ⟨rfl, rfl⟩
    · obtain ⟨-, hwaiting, hengine, -⟩ := hr
      have ha : a ∈ e.waiting := by
        rw [hwaiting]
        exact List.mem_cons_self ..
      have hc := (r.considered a).outcomes
      rw [← hlook] at hc
      -- the queue does not matter to what is found
      generalize r.desk.queue.items = items at hengine
      subst hengine
      rcases hc with hsame | ⟨o, hripe, hscore, houtcomes, hstatistics⟩
      · exact Or.inl hsame
      · exact Or.inr ⟨a, o, ⟨ha, hripe, hscore⟩, houtcomes, hstatistics⟩
  | submit | pass | beginReports | report | shutdown =>
    exact Or.inl (e.outcomes_turn_of_ne_step (by simp))

/-- A worker that is gone does not come back, and records nothing. -/
theorem gone_turn {e : Engine α} (h : e.worker.isRunning = false) (t : Turn α) :
    (e.turn t).worker.isRunning = false ∧ (e.turn t).desk.outcomes = e.desk.outcomes ∧
      (e.turn t).desk.statistics = e.desk.statistics := by
  cases t with
  | step =>
    unfold Engine.turn
    rw [step?_eq_none_of_not_running h]
    exact ⟨h, rfl, rfl⟩
  | shutdown => exact ⟨rfl, rfl, rfl⟩
  | submit | pass | beginReports | report => exact ⟨h, e.outcomes_turn_of_ne_step (by simp)⟩

theorem gone_turns {e : Engine α} (h : e.worker.isRunning = false) (ts : List (Turn α)) :
    (e.turns ts).worker.isRunning = false ∧ (e.turns ts).desk.outcomes = e.desk.outcomes ∧
      (e.turns ts).desk.statistics = e.desk.statistics := by
  induction ts generalizing e with
  | nil => exact ⟨h, rfl, rfl⟩
  | cons t ts ih =>
    obtain ⟨hgone, houtcomes, hstatistics⟩ := gone_turn h t
    obtain ⟨hgone', houtcomes', hstatistics'⟩ := ih hgone
    exact ⟨hgone', houtcomes'.trans houtcomes, hstatistics'.trans hstatistics⟩

/-- The clock of the bars stands at the latest of all bars so far, at the horizon of an alert or behind
it. This is the end of the lookahead if that is of whole seconds that can be held, and else an
earlier time. -/
structure Reached (s : Settings α) (e : Engine α) (fed : List (Bar α)) (a : Alert α)
    (horizon time : Instant) : Prop where
  told : s.rule.horizon? a.reference = some horizon
  clock : e.desk.market.clock = some time
  latest : (∃ b ∈ fed, b.timestamp = time) ∧ ∀ b ∈ fed, b.timestamp ≤ time
  past : horizon ≤ time
  early : horizon ≤ a.reference.add s.rule.lookahead
  whole : horizon = a.reference.add s.rule.lookahead ↔
    s.rule.lookahead.IsWhole ∧ (s.rule.lookahead.seconds : Int) ≤ OutcomeRule.lookaheadBound
  /-- A lookahead that cannot be held yields outcomes of bars that are out of order alone. -/
  held : InTime (own a.contract fed) →
    (s.rule.lookahead.seconds : Int) ≤ OutcomeRule.lookaheadBound

/-- The lookahead of an alert is over on the clock of the run, or its horizon is reached on the one of
the bars. -/
structure Punctual (s : Settings α) (e : Engine α) (fed : List (Bar α)) (a : Alert α) : Prop where
  wallClock : s.maturity = .wallClock →
    a.createdAt * 1000000 + s.rule.lookahead.inNanos ≤ e.now * 1000000
  marketTime : s.maturity = .marketTime → ∃ horizon time, Reached s e fed a horizon time

section Runs

variable {s : Settings α} {audience : Audience α} {e : Engine α}

/-- Where the bars of its contract come in time order, an alert that has an outcome has bars in its
stretch. -/
theorem Yields.within_ne_nil (he : ofSettings? s audience = some e) {ts : List (Turn α)}
    {a : Alert α} {o : Outcome α} (h : (e.turns ts).Yields a o)
    (hown : InTime (own a.contract (feed ts))) {horizon : Instant}
    (hh : s.rule.horizon? a.reference = some horizon) :
    within a.reference horizon (own a.contract (feed ts)) ≠ [] := by
  have hfed := (Fed.initial he).turns ts
  have halert : a ∈ (e.turns ts).desk.alerts :=
    ((Books.initial he).turns ts).waiting_sublist.subset h.waiting
  rw [List.nil_append] at hfed
  have hscore := h.score
  have hrule : (e.turns ts).rule = s.rule := (SameTerms.of_initial he ts).rule
  rw [hrule, hfed.score?_eq halert hown hh] at hscore
  obtain ⟨b, hb, hle⟩ := OutcomeRule.exists_le_of_evaluate?_eq_ok hscore
  obtain ⟨hmem, -, hlt⟩ := mem_within.mp hb
  exact List.ne_nil_of_mem (mem_within.mpr ⟨hmem, hle, hlt⟩)

theorem Yields.punctual (he : ofSettings? s audience = some e) (hs : s.Accepted)
    {ts : List (Turn α)} {a : Alert α} {o : Outcome α} (h : (e.turns ts).Yields a o) :
    Punctual s (e.turns ts) (feed ts) a := by
  have hterms := SameTerms.of_initial he ts
  have hrule : (e.turns ts).rule = s.rule := hterms.rule
  constructor
  case wallClock =>
    intro hm
    have hripe := (isRipe?_wallClock_iff (hterms.maturity.trans hm)).mp h.ripe
    rw [hrule] at hripe
    exact of_decide_eq_true hripe.2
  case marketTime =>
    intro hm
    obtain ⟨horizon, hh, hclock⟩ := (isRipe?_marketTime_iff (hterms.maturity.trans hm)).mp h.ripe
    rw [hrule] at hh
    obtain ⟨time, htime, hreached⟩ := (Option.any_eq_true _ _).mp hclock
    have hmarket := ((Fed.initial he).turns ts).market
    rw [List.nil_append] at hmarket
    obtain ⟨hbar, hlatest⟩ := (Market.clock_ofFeed_eq_some_iff _ _ _).mp (hmarket ▸ htime)
    obtain ⟨hearly, hwhole⟩ := OutcomeRule.horizon?_le_add hs.word hh
    refine ⟨horizon, time, hh, htime, ⟨hbar, hlatest⟩, of_decide_eq_true hreached, hearly, hwhole,
      fun hown => ?_⟩
    obtain ⟨b, hb⟩ := List.exists_mem_of_ne_nil _ (h.within_ne_nil he hown hh)
    obtain ⟨-, hle, hlt⟩ := mem_within.mp hb
    rcases OutcomeRule.horizon?_cases hs.word hh with ⟨hheld, -⟩ | ⟨-, hbefore⟩
    · exact hheld
    · exact absurd (Int.lt_of_le_of_lt hle hlt) (Instant.not_lt.mpr (Int.le_of_lt hbefore))

/-- What a run records does not change with the end of it, and not after it. -/
theorem outcomes_shutdown (e : Engine α) (us : List (Turn α)) :
    (e.shutdown.turns us).desk.outcomes = e.desk.outcomes ∧
      (e.shutdown.turns us).desk.statistics = e.desk.statistics :=
  (gone_turns (e := e.shutdown) rfl us).2

/-- A turn records outcomes of alerts that wait and are `Punctual`. An alert that is ripe stays ripe.
Nothing is recorded with the end of a run or after it. -/
theorem outcomes_in_time (he : ofSettings? s audience = some e) (hs : s.Accepted) :
    (∀ (ts : List (Turn α)) (t : Turn α), ∃ recorded : List (Alert α × Outcome α),
      (e.turns (ts ++ [t])).desk.outcomes = (e.turns ts).desk.outcomes ++ recorded ∧
      (e.turns (ts ++ [t])).desk.statistics = (e.turns ts).desk.statistics.recordAll
        (recorded.map fun x => (x.1.tags, x.2)) ∧
      ∀ x ∈ recorded, x.1 ∈ (e.turns ts).waiting ∧ Punctual s (e.turns ts) (feed ts) x.1) ∧
    (∀ (ts us : List (Turn α)) (a : Alert α), (e.turns ts).isRipe? a = some true →
      (e.turns (ts ++ us)).isRipe? a = some true) ∧
    (∀ ts us : List (Turn α),
      (e.turns (ts ++ .shutdown :: us)).desk.outcomes = (e.turns ts).desk.outcomes ∧
        (e.turns (ts ++ .shutdown :: us)).desk.statistics = (e.turns ts).desk.statistics) ∧
    ∀ actions : List (Action α),
      (∃ ts, feed ts = actions.filterMap Action.bar? ∧ e.turns ts = e.run actions) ∧
      ∀ rest : List (Action α),
        (e.run (actions ++ .shutdown :: rest)).desk.outcomes = (e.run actions).desk.outcomes ∧
          (e.run (actions ++ .shutdown :: rest)).desk.statistics =
            (e.run actions).desk.statistics := by
  have hfault := (Settings.validate_eq_ok_iff.mp hs.valid).1
  refine ⟨fun ts t => ?turn, fun ts us a h => ?ripe, fun ts us => ?shutdown,
    fun actions => ⟨exists_turns he hfault actions, fun rest => ?run⟩⟩
  case turn =>
    rw [turns_append]
    rcases (e.turns ts).outcomes_turn t with ⟨houtcomes, hstatistics⟩ | ⟨a, o, hyields, hrecorded⟩
    · exact ⟨[], houtcomes.trans (List.append_nil _).symm, hstatistics, by simp⟩
    · refine ⟨[(a, o)], hrecorded.1, hrecorded.2, fun x hx => ?_⟩
      rw [List.mem_singleton.mp hx]
      exact ⟨hyields.waiting, hyields.punctual he hs⟩
  case ripe =>
    rw [turns_append]
    exact isRipe?_turns h us
  case shutdown =>
    rw [turns_append]
    exact (e.turns ts).outcomes_shutdown us
  case run =>
    obtain ⟨us, hus⟩ := exists_turns_append he hfault (actions ++ [.shutdown]) rest
    rw [run_append, List.append_assoc] at hus
    rw [← List.singleton_append, ← hus]
    exact (e.run actions).outcomes_shutdown us

end Runs

theorem accepted_marketSettings : marketSettings.Accepted :=
  ⟨Settings.validate_eq_ok_iff.mpr ⟨fault?_marketSettings, rfl⟩, by decide⟩

/-- A burst, and then a bar in the stretch of its alert and one after it. -/
def overdue : List (Turn Float) :=
  burst.map .submit ++ [.submit (flatBar 4500 60 1), .submit (flatBar 0 1900 1)]

/-- The next step records the outcome of the alert. -/
theorem outcomes_in_time_overdue :
    ∃ x, (marketEngine.turns (overdue ++ [.step])).desk.outcomes = [x] ∧
      Punctual marketSettings (marketEngine.turns overdue) (feed overdue) x.1 := by
  obtain ⟨recorded, houtcomes, -, hpunctual⟩ :=
    (outcomes_in_time ofSettings?_marketSettings accepted_marketSettings).1 overdue .step
  have hnone : (marketEngine.turns overdue).desk.outcomes = [] :=
    List.eq_nil_of_length_eq_zero (by decide +kernel)
  have hone : (marketEngine.turns (overdue ++ [.step])).desk.outcomes.length = 1 := by
    decide +kernel
  rw [hnone, List.nil_append] at houtcomes
  rw [houtcomes] at hone ⊢
  obtain ⟨x, rfl⟩ := List.length_eq_one_iff.mp hone
  exact ⟨x, rfl, (hpunctual x (List.mem_singleton_self x)).2⟩

/-- Market time with another lookahead. -/
def lookingAhead (lookahead : Duration) : Settings Float :=
  { marketSettings with rule := { marketSettings.rule with lookahead } }

def engineAhead (lookahead : Duration) : Engine Float :=
  initial (lookingAhead lookahead) (.content false)

theorem ofSettings?_lookingAhead (lookahead : Duration) :
    ofSettings? (lookingAhead lookahead) (.content false) = some (engineAhead lookahead) := by
  have hroom : max (lookingAhead lookahead).queueCapacity 1 ≤ BoundedQueue.capacityBound := by
    show max 10000 1 ≤ BoundedQueue.capacityBound
    decide
  rw [ofSettings?, BoundedQueue.ofCapacity?, if_pos hroom]
  rfl

/-- The greatest word of seconds. -/
def longest : Duration := .ofSeconds 18446744073709551615

theorem accepted_longest : (lookingAhead longest).Accepted :=
  ⟨Settings.validate_eq_ok_iff.mpr ⟨Option.isNone_iff_eq_none.mp (by decide +kernel), rfl⟩,
    by decide⟩

/-- A burst, and then a later bar of the same option and two that come too late. -/
def backwards : List (Turn Float) :=
  burst.map .submit ++
    [.submit (flatBar 4500 145 1), .submit (flatBar 4500 46 1), .submit (flatBar 4500 47 1)]

/-- The greatest word of seconds stands for one second before the reference time, and yields an
outcome of bars that are out of order at once. -/
theorem not_outcomes_in_time_backwards :
    ¬ ∀ (s : Settings Float) (audience : Audience Float) (e : Engine Float) (ts : List (Turn Float))
      (x : Alert Float × Outcome Float), ofSettings? s audience = some e → s.Accepted →
      s.maturity = .marketTime →
      (e.turns (ts ++ [.step])).desk.outcomes = (e.turns ts).desk.outcomes ++ [x] →
      ∃ time, (e.turns ts).desk.market.clock = some time ∧
        x.1.reference.add s.rule.lookahead ≤ time := by
  intro hall
  have hnone : ((engineAhead longest).turns backwards).desk.outcomes = [] :=
    List.eq_nil_of_length_eq_zero (by decide +kernel)
  have hone : ((engineAhead longest).turns (backwards ++ [.step])).desk.outcomes.length = 1 := by
    decide +kernel
  have hearly : ((engineAhead longest).turns (backwards ++ [.step])).desk.outcomes.all fun x =>
      ((engineAhead longest).turns backwards).desk.market.clock.all
        (decide <| · < x.1.reference.add longest) := by
    decide +kernel
  obtain ⟨x, hx⟩ := List.length_eq_one_iff.mp hone
  obtain ⟨time, hclock, hle⟩ := hall _ (.content false) _ backwards x
    (ofSettings?_lookingAhead longest) accepted_longest rfl (by rw [hnone, hx, List.nil_append])
  rw [hx, hclock] at hearly
  have hlt : time < x.1.reference.add longest := by simpa using hearly
  exact Instant.not_lt.mpr hle hlt

end Engine

end VolumeWatch
