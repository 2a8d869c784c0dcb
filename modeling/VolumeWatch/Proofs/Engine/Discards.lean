import VolumeWatch.Proofs.Engine.Punctual
import VolumeWatch.Proofs.Market.Pace

/-!
Discards: which alerts the worker gives up. An alert lies behind the bars that it was made of, so
that there is always a window to score it on (`Engine.Fed.within_ne_nil`); it is discarded for its
price, or for lack of bars of its contract in its stretch, and for nothing else.

Main statement: `Engine.unscorable_discarded`.
-/

namespace VolumeWatch

open Calendar (Duration Instant)

variable {α : Type}

/-- Going forward and back by seconds returns to an instant, or to an earlier one. -/
theorem Calendar.Instant.addSeconds_neg_le (t : Instant) {d : Int} (h : 0 < d) :
    (t.addSeconds d).addSeconds (-d) ≤ t := by
  have := t.nanos_lt
  rw [addSeconds_of_lt (t.nanos_addSeconds_lt h), le_iff]
  unfold addSeconds
  split_ifs <;> simp only [key] <;> omega

variable [Scalar α] {r : OutcomeRule α} {fed : List (Bar α)} {a : Alert α} {horizon : Instant}

/-- An alert with a price that others can be compared with, and with a bar of its contract in its
stretch up to a time. -/
structure Scorable (stop : Instant) (fed : List (Bar α)) (a : Alert α) : Prop where
  priced : OutcomeRule.Priced a.price
  bar : ∃ b ∈ own a.contract fed, a.reference ≤ b.timestamp ∧ b.timestamp < stop

theorem Scorable.mono {stop later : Instant} (hle : stop ≤ later) (h : Scorable stop fed a) :
    Scorable later fed a := by
  obtain ⟨b, hb, hafter, hbefore⟩ := h.bar
  exact ⟨h.priced, b, hb, hafter, Int.lt_of_lt_of_le hbefore hle⟩

namespace Engine

variable {e : Engine α}

namespace Fed

/-- The first bar that an alert was made of starts before its reference time, and not before the
time from which its window begins. -/
theorem within_ne_nil (h : Fed e fed) (ha : a ∈ e.desk.alerts)
    (hle : a.reference ≤ horizon) : within a.barTime horizon (own a.contract fed) ≠ [] := by
  obtain ⟨earlier, flagged, later, ho⟩ := h.origin ha
  obtain ⟨first, last, hfirst, -, href⟩ := ho.ends
  have hseconds : (0 : Int) < a.timeframe.seconds := Int.natCast_pos.mpr a.timeframe.seconds_pos
  have hmem : first ∈ own a.contract fed := by
    rw [ho.bars]
    exact List.mem_append_left _ (List.mem_append_right _ (List.mem_of_mem_head? hfirst))
  have hstart : a.barTime ≤ first.timestamp := by
    rw [Alert.barTime, href]
    exact first.timestamp.addSeconds_neg_le hseconds
  have hstop : first.timestamp < a.reference := href ▸ Instant.lt_addSeconds _ hseconds
  apply List.ne_nil_of_mem
  exact mem_within.mpr ⟨hmem, hstart, Int.lt_of_lt_of_le hstop hle⟩

/-- An alert has an outcome, or lacks a price or bars in its stretch. Its window may be empty only if
its horizon lies before its reference time. -/
theorem score?_cases (h : Fed e fed) (ha : a ∈ e.desk.alerts) (hown : InTime (own a.contract fed))
    (hh : r.horizon? a.reference = some horizon) :
    (Scorable horizon fed a ∧ ∃ o, e.desk.score? r a = some (.ok o)) ∨
    (¬ Scorable horizon fed a ∧ (e.desk.score? r a = some (.error (.invalidReferencePrice a.price)) ∨
      e.desk.score? r a = some (.error (.noBarsAfterReference a.reference)) ∨
      (e.desk.score? r a = some (.error .emptyWindow) ∧ horizon < a.reference))) := by
  rw [h.score?_eq ha hown hh]
  by_cases hp : OutcomeRule.Priced a.price
  · rcases r.evaluate?_cases hp a.reference (within a.barTime horizon (own a.contract fed)) with
      ⟨hnil, heq⟩ | ⟨-, hnone, heq⟩ | ⟨⟨b, hb, hafter⟩, heq⟩
    · have hlt : horizon < a.reference :=
        Instant.not_le.mp fun hle => h.within_ne_nil ha hle hnil
      refine Or.inr ⟨fun hs => ?_, Or.inr (Or.inr ⟨heq, hlt⟩)⟩
      obtain ⟨b, -, hafter, hbefore⟩ := hs.bar
      exact Instant.not_lt.mpr hafter (Int.lt_trans hbefore hlt)
    · refine Or.inr ⟨fun hs => ?_, Or.inr (Or.inl heq)⟩
      obtain ⟨b, hb, hafter, hbefore⟩ := hs.bar
      have hstart := Instant.le_trans (Int.le_of_lt a.barTime_lt_reference) hafter
      exact hnone ⟨b, mem_within.mpr ⟨hb, hstart, hbefore⟩, hafter⟩
    · obtain ⟨hmem, -, hbefore⟩ := mem_within.mp hb
      rw [heq, hh, Option.map_some]
      exact Or.inl ⟨⟨hp, b, hmem, hafter, hbefore⟩, _, rfl⟩
  · exact Or.inr ⟨fun hs => hp hs.priced, Or.inl (OutcomeRule.evaluate?_of_not_priced hp)⟩

theorem of_ready (h : Fed e fed) {e' : Engine α} (hr : Ready e e' a) : Fed e' fed := by
  rw [hr.engine]
  exact ⟨h.market, h.flagged⟩

end Fed

/-- One outcome of an alert is recorded, in the journal and under its tags. -/
def Recorded (d d' : Desk α) (a : Alert α) : Prop :=
  ∃ o, d'.outcomes = d.outcomes ++ [(a, o)] ∧ d'.statistics = d.statistics.record a.tags o

theorem queue_evaluate? {d d' : Desk α} (h : d.evaluate? r a = some d') : d'.queue = d.queue := by
  obtain ⟨result, -, rfl⟩ := Option.map_eq_some_iff.mp h
  cases result <;> rfl

/-- A look at a ripe alert is the last one. -/
theorem consider_of_ripe (hripe : e.isRipe? a = some true) {d : Desk α}
    (hd : e.desk.evaluate? e.rule a = some d) :
    e.consider a = { e with desk := { d with queue := d.queue.complete }, worker := .idle } := by
  simp only [consider, hripe, hd]

theorem turn_of_ready? {e' : Engine α} (h : e.ready? = some (e', a)) :
    e.turn .step = e'.consider a := by
  unfold Engine.turn
  rw [step?, h]
  rfl

/-- Evaluating an alert records one outcome or changes nothing. -/
theorem Fed.evaluate? (h : Fed e fed) (ha : a ∈ e.desk.alerts) (hown : InTime (own a.contract fed))
    (hh : r.horizon? a.reference = some horizon) : ∃ d, e.desk.evaluate? r a = some d ∧
      (Scorable horizon fed a → Recorded e.desk d a) ∧
      (¬ Scorable horizon fed a → d = e.desk) := by
  unfold Desk.evaluate?
  rcases h.score?_cases ha hown hh with ⟨hs, o, ho⟩ | ⟨hs, hfault | hfault | ⟨hfault, -⟩⟩
  · rw [ho]
    exact ⟨_, rfl, fun _ => ⟨o, e.desk.outcomes_record a o, rfl⟩, fun hnot => absurd hs hnot⟩
  all_goals
    rw [hfault]
    exact ⟨_, rfl, fun hs' => absurd hs' hs, fun _ => rfl⟩

/-- The step of the worker at a ripe alert evaluates it, and is done with it. -/
theorem Fed.turn_step (h : Fed e fed) (ha : a ∈ e.desk.alerts) (hown : InTime (own a.contract fed))
    (hh : e.rule.horizon? a.reference = some horizon) {e' : Engine α}
    (hready : e.ready? = some (e', a)) (hripe : e.isRipe? a = some true) :
    (e.turn .step).worker = .idle ∧
      (e.turn .step).desk.queue.completed = e.desk.queue.completed + 1 ∧
      (Scorable horizon fed a → Recorded e.desk (e.turn .step).desk a) ∧
      (¬ Scorable horizon fed a → (e.turn .step).desk.outcomes = e.desk.outcomes ∧
        (e.turn .step).desk.statistics = e.desk.statistics) := by
  have hr := Ready.of_ready? hready
  have hrule : e'.rule = e.rule := (SameTerms.ready hr).rule
  have houtcomes : e'.desk.outcomes = e.desk.outcomes := by rw [hr.engine]; rfl
  have hstatistics : e'.desk.statistics = e.desk.statistics := by rw [hr.engine]; rfl
  have hripe' : e'.isRipe? a = some true := by
    rw [hr.engine]
    exact hripe
  have ha' : a ∈ e'.desk.alerts := by
    rw [hr.engine]
    exact ha
  obtain ⟨d, hd, hscorable, hunscorable⟩ := (h.of_ready hr).evaluate? ha' hown hh
  rw [turn_of_ready? hready, consider_of_ripe hripe' (hrule.symm ▸ hd)]
  refine ⟨rfl, ?_, fun hs => ?_, fun hs => ?_⟩
  · show d.queue.completed + 1 = _
    rw [queue_evaluate? hd, hr.queue]
  · obtain ⟨o, ho⟩ := hscorable hs
    rw [houtcomes, hstatistics] at ho
    exact ⟨o, ho⟩
  · rw [hunscorable hs]
    exact ⟨houtcomes, hstatistics⟩

variable {s : Settings α} {audience : Audience α}

/-- In every state of a run whose bars of a contract come in time order, its alerts are discarded
exactly if they are not `Scorable` up to their horizon, for their price or for lack of bars: their
contract is always known, and their window never empty, unless the lookahead cannot be held. Any
other alert has one outcome, which is recorded under its tags. So it is with the next step of the
worker if it is about to look at an alert that is ripe. The end of the lookahead that is set tells
the same as the horizon unless the bars before it all come behind the horizon. -/
theorem unscorable_discarded (he : ofSettings? s audience = some e)
    (hword : s.rule.lookahead.seconds < wordBound) :
    (∀ (ts : List (Turn α)) (a : Alert α) (horizon : Instant), a ∈ (e.turns ts).desk.alerts →
      InTime (own a.contract (feed ts)) → s.rule.horizon? a.reference = some horizon →
      (∀ c, (e.turns ts).desk.score? s.rule a ≠ some (.error (.unknownContract c))) ∧
      ((s.rule.lookahead.seconds : Int) ≤ OutcomeRule.lookaheadBound →
        (e.turns ts).desk.score? s.rule a ≠ some (.error .emptyWindow)) ∧
      ((∃ fault, (e.turns ts).desk.score? s.rule a = some (.error fault)) ↔
        ¬ Scorable horizon (feed ts) a) ∧
      (((∃ fault, (e.turns ts).desk.score? s.rule a = some (.error fault)) ↔
          ¬ Scorable (a.reference.add s.rule.lookahead) (feed ts) a) ↔
        (Scorable (a.reference.add s.rule.lookahead) (feed ts) a →
          Scorable horizon (feed ts) a)) ∧
      (s.rule.lookahead.IsWhole →
        (s.rule.lookahead.seconds : Int) ≤ OutcomeRule.lookaheadBound →
        horizon = a.reference.add s.rule.lookahead) ∧
      (∃ d, (e.turns ts).desk.evaluate? s.rule a = some d ∧
        (Scorable horizon (feed ts) a → Recorded (e.turns ts).desk d a) ∧
        (¬ Scorable horizon (feed ts) a → d = (e.turns ts).desk)) ∧
      ∀ e', (e.turns ts).ready? = some (e', a) → (e.turns ts).isRipe? a = some true →
        (e.turns (ts ++ [.step])).worker = .idle ∧
        (e.turns (ts ++ [.step])).desk.queue.completed =
          (e.turns ts).desk.queue.completed + 1 ∧
        (Scorable horizon (feed ts) a →
          Recorded (e.turns ts).desk (e.turns (ts ++ [.step])).desk a) ∧
        (¬ Scorable horizon (feed ts) a →
          (e.turns (ts ++ [.step])).desk.outcomes = (e.turns ts).desk.outcomes ∧
            (e.turns (ts ++ [.step])).desk.statistics = (e.turns ts).desk.statistics)) ∧
    (s.fault? = none → ∀ actions : List (Action α),
      ∃ ts, feed ts = actions.filterMap Action.bar? ∧ e.turns ts = e.run actions) := by
  refine ⟨fun ts a horizon ha hown hh => ?_, exists_turns he⟩
  have hfed : Fed (e.turns ts) (feed ts) := (Fed.initial he).turns ts
  have hcases := hfed.score?_cases ha hown hh
  obtain ⟨hearly, hwhole⟩ := OutcomeRule.horizon?_le_add hword hh
  have hdiscarded : (∃ fault, (e.turns ts).desk.score? s.rule a = some (.error fault)) ↔
      ¬ Scorable horizon (feed ts) a := by
    rcases hcases with ⟨hs, o, heq⟩ | ⟨hs, heq | heq | ⟨heq, -⟩⟩ <;> simp [heq, hs]
  refine ⟨fun c => ?known, fun hheld => ?window, hdiscarded, ?set,
    fun hw hheld => hwhole.mpr ⟨hw, hheld⟩, hfed.evaluate? ha hown hh, fun e' hready hripe => ?step⟩
  case known => rcases hcases with ⟨-, o, heq⟩ | ⟨-, heq | heq | ⟨heq, -⟩⟩ <;> simp [heq]
  case window =>
    rcases hcases with ⟨-, o, heq⟩ | ⟨-, heq | heq | ⟨-, hbefore⟩⟩
    · simp [heq]
    · simp [heq]
    · simp [heq]
    · exact absurd (OutcomeRule.le_horizon? hheld hh) (Instant.not_le.mpr hbefore)
  case set =>
    have hmono : Scorable horizon (feed ts) a →
        Scorable (a.reference.add s.rule.lookahead) (feed ts) a := Scorable.mono hearly
    rw [hdiscarded, not_iff_not]
    exact ⟨fun h => h.mpr, fun h => ⟨hmono, h⟩⟩
  case step =>
    have hrule : (e.turns ts).rule = s.rule := (SameTerms.of_initial he ts).rule
    rw [← hrule] at hh
    rw [turns_append]
    exact hfed.turn_step ha hown hh hready hripe

/-- The alert of the burst is about to be scored. -/
theorem unscorable_discarded_overdue :
    ∃ a ∈ (marketEngine.turns overdue).desk.alerts,
      Recorded (marketEngine.turns overdue).desk
        (marketEngine.turns (overdue ++ [.step])).desk a := by
  have hany : (marketEngine.turns overdue).ready?.any fun x : Engine Float × Alert Float => decide (
      (marketEngine.turns overdue).isRipe? x.2 = some true ∧ OutcomeRule.Priced x.2.price ∧
        (marketSettings.rule.horizon? x.2.reference).any fun horizon =>
          decide (∃ b ∈ own x.2.contract (feed overdue), x.2.reference ≤ b.timestamp ∧
            b.timestamp < horizon)) := by
    decide +kernel
  obtain ⟨⟨e, a⟩, hready, hall⟩ := (Option.any_eq_true _ _).mp hany
  obtain ⟨hripe, hpriced, hhorizon⟩ := of_decide_eq_true hall
  obtain ⟨horizon, hh, hbar⟩ := (Option.any_eq_true _ _).mp hhorizon
  have ha : a ∈ (marketEngine.turns overdue).desk.alerts := by
    apply ((Books.initial ofSettings?_marketSettings).turns overdue).waiting_sublist.subset
    rw [(Ready.of_ready? hready).waiting]
    exact List.mem_cons_self ..
  obtain ⟨-, -, -, -, -, -, hstep⟩ := (unscorable_discarded ofSettings?_marketSettings
    (by decide)).1 overdue a horizon ha (forall_own .nil (by decide +kernel) a.contract) hh
  exact ⟨a, ha, (hstep e hready hripe).2.2.1 ⟨hpriced, of_decide_eq_true hbar⟩⟩

/-- A second and a half. -/
def broken : Duration := .ofMillis 1500

theorem accepted_broken : (lookingAhead broken).Accepted :=
  ⟨Settings.validate_eq_ok_iff.mpr ⟨Option.isNone_iff_eq_none.mp (by decide +kernel), rfl⟩,
    by decide⟩

theorem not_overflows_broken {a : Alert Float}
    (h : ((lookingAhead broken).rule.horizon? a.reference).isSome) :
    ¬ (lookingAhead broken).rule.Overflows a := by
  rintro (hword | hnone)
  · exact absurd hword (by decide)
  · simp [hnone] at h

/-- A burst, and then a bar of the same option 1.2 seconds after the reference time of its alert. -/
def shortly : List (Turn Float) :=
  burst.map .submit ++
    [.submit { flatBar 4500 0 1 with timestamp := .ofMillis (1710252000000 + 51200) }]

/-- The alert of the burst is discarded, with a bar of its contract before the end of the
lookahead. -/
theorem not_unscorable_discarded_shortly :
    ¬ ∀ (s : Settings Float) (audience : Audience Float) (e : Engine Float) (ts : List (Turn Float))
      (a : Alert Float), ofSettings? s audience = some e → s.Accepted →
      1 ≤ s.rule.lookahead.seconds → ¬ s.rule.Overflows a → a ∈ (e.turns ts).desk.alerts →
      InTime (own a.contract (feed ts)) →
      ((∃ fault, (e.turns ts).desk.score? s.rule a = some (.error fault)) ↔
        ¬ Scorable (a.reference.add s.rule.lookahead) (feed ts) a) := by
  intro hall
  have hany : ((engineAhead broken).turns shortly).desk.alerts.any fun a => decide (
      ((lookingAhead broken).rule.horizon? a.reference).isSome ∧
        (((engineAhead broken).turns shortly).desk.score? (lookingAhead broken).rule a).any
          (fun result => !result.isOk) ∧
        OutcomeRule.Priced a.price ∧ ∃ b ∈ own a.contract (feed shortly),
          a.reference ≤ b.timestamp ∧ b.timestamp < a.reference.add broken) := by
    decide +kernel
  obtain ⟨a, ha, htrue⟩ := List.any_eq_true.mp hany
  obtain ⟨hsome, hscore, hpriced, hbar⟩ := of_decide_eq_true htrue
  have hiff := hall _ (.content false) _ shortly a (ofSettings?_lookingAhead broken) accepted_broken
    (by decide) (not_overflows_broken hsome) ha (forall_own .nil (by decide +kernel) a.contract)
  apply hiff.mp
  · obtain ⟨result, hresult, herror⟩ := (Option.any_eq_true _ _).mp hscore
    cases result with
    | error fault => exact ⟨fault, hresult⟩
    | ok o => simp [Except.isOk, Except.toBool] at herror
  · exact ⟨hpriced, hbar⟩

end Engine

end VolumeWatch
