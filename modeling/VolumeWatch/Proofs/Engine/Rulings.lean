import VolumeWatch.Proofs.Engine.Discards

/-!
Rulings by market time: what alerts are evaluated to, told from the feed alone, whatever the worker
does when (`Engine.market_time_rulings`). A part of a second at the end of the lookahead is left
out, and makes a difference only to alerts that have all their bars in it
(`Engine.Fed.rulingUpTo_eq_iff`).
-/

namespace VolumeWatch.Engine

open Calendar (Duration Instant)

section Parts

variable {α : Type} [Scalar α] {e : Engine α} {r : OutcomeRule α} {fed : List (Bar α)} {a : Alert α}
  {horizon stop : Instant}

/-- Bars behind the horizon do not matter to an alert with bars before it. -/
theorem rulingUpTo_of_scorable (hown : InTime (own a.contract fed))
    (hh : r.horizon? a.reference = some horizon) (hle : horizon ≤ stop)
    (h : Scorable horizon fed a) :
    r.rulingUpTo stop fed a =
      some (.ok (r.score a.price (within a.reference horizon (own a.contract fed)))) := by
  obtain ⟨hp, b, hb, hafter, hbefore⟩ := h
  have hstart : a.barTime ≤ a.reference := Int.le_of_lt a.barTime_lt_reference
  have hmem : b ∈ within a.barTime stop (own a.contract fed) :=
    mem_within.mpr ⟨hb, Instant.le_trans hstart hafter, Int.lt_of_lt_of_le hbefore hle⟩
  rw [OutcomeRule.rulingUpTo, OutcomeRule.evaluate?_of_mem hp hmem hafter, hh, Option.map_some,
    scored_eq_within (hown.within _ _), within_within hstart hle]

/-- An alert without bars in its stretch lacks them, as its window is not empty. -/
theorem Fed.rulingUpTo_of_not_scorable (h : Fed e fed) (ha : a ∈ e.desk.alerts)
    (hp : OutcomeRule.Priced a.price) (hle : a.reference ≤ stop) (hnot : ¬ Scorable stop fed a) :
    r.rulingUpTo stop fed a = some (.error (.noBarsAfterReference a.reference)) := by
  refine OutcomeRule.evaluate?_of_before hp (h.within_ne_nil ha hle) fun b hb => ?_
  obtain ⟨hmem, -, hbefore⟩ := mem_within.mp hb
  exact Instant.not_le.mp fun hafter => hnot ⟨hp, b, hmem, hafter, hbefore⟩

/-- The bars up to a later time give another ruling exactly if all bars of the stretch come behind the
horizon. -/
theorem Fed.rulingUpTo_eq_iff (h : Fed e fed) (ha : a ∈ e.desk.alerts)
    (hown : InTime (own a.contract fed)) (hh : r.horizon? a.reference = some horizon)
    (hafter : a.reference ≤ horizon) (hle : horizon ≤ stop) :
    r.rulingUpTo stop fed a = r.rulingUpTo horizon fed a ↔
      (Scorable stop fed a → Scorable horizon fed a) := by
  by_cases hp : OutcomeRule.Priced a.price
  · by_cases hs : Scorable horizon fed a
    · rw [rulingUpTo_of_scorable hown hh hle hs,
        rulingUpTo_of_scorable hown hh (Instant.le_refl _) hs]
      exact iff_of_true rfl fun _ => hs
    · rw [h.rulingUpTo_of_not_scorable ha hp hafter hs]
      refine ⟨fun heq hlate => ?_, fun hmono => ?_⟩
      · obtain ⟨b, hb, hafter, hbefore⟩ := hlate.bar
        have hstart := Instant.le_trans (Int.le_of_lt a.barTime_lt_reference) hafter
        rw [OutcomeRule.rulingUpTo, OutcomeRule.evaluate?_of_mem hp
          (mem_within.mpr ⟨hb, hstart, hbefore⟩) hafter, hh] at heq
        simp at heq
      · exact h.rulingUpTo_of_not_scorable ha hp (Instant.le_trans hafter hle) (mt hmono hs)
  · rw [OutcomeRule.rulingUpTo, OutcomeRule.rulingUpTo, OutcomeRule.evaluate?_of_not_priced hp,
      OutcomeRule.evaluate?_of_not_priced hp]
    exact iff_of_true rfl fun hs => absurd hs.priced hp

/-- With a lookahead that can be held, the bars up to its end give another ruling exactly if all bars
of the stretch come behind the horizon, and there is nothing behind it if there are whole seconds
alone. -/
theorem Fed.rulingUpTo_add_iff (h : Fed e fed) (ha : a ∈ e.desk.alerts)
    (hown : InTime (own a.contract fed))
    (hheld : (r.lookahead.seconds : Int) ≤ OutcomeRule.lookaheadBound)
    (hh : r.horizon? a.reference = some horizon) {result : Except (Fault α) (Outcome α)}
    (hruled : r.ruling fed a = some result) :
    (r.rulingUpTo (a.reference.add r.lookahead) fed a = some result ↔
      (Scorable (a.reference.add r.lookahead) fed a → Scorable horizon fed a)) ∧
    (r.lookahead.IsWhole → horizon = a.reference.add r.lookahead) := by
  obtain ⟨hearly, hwhole⟩ :=
    OutcomeRule.horizon?_le_add (OutcomeRule.seconds_lt_of_le hheld) hh
  rw [OutcomeRule.ruling, hh, Option.bind_some] at hruled
  refine ⟨?_, fun hw => hwhole.mpr ⟨hw, hheld⟩⟩
  rw [← hruled]
  exact h.rulingUpTo_eq_iff ha hown hh (OutcomeRule.le_horizon? hheld hh) hearly

/-- The outcomes that are recorded are the rulings of their alerts. -/
theorem Judged.ruling_of_mem_outcomes {l : Ledger α} (h : Judged e fed l) (hb : Books e l)
    {x : Alert α × Outcome α} (hx : x ∈ e.desk.outcomes) :
    e.rule.ruling fed x.1 = some (.ok x.2) := by
  rw [← hb.outcomes] at hx
  obtain ⟨y, hy, hout⟩ := List.mem_filterMap.mp hx
  obtain ⟨o, ho, rfl⟩ := Option.map_eq_some_iff.mp hout
  exact h.ruled y hy (.ok o) (Fate.result?_of_outcome? ho)

end Parts

variable {α : Type} [Scalar α]

/-- Alerts that are evaluated by market time are evaluated on all bars of the feed that belong to
them up to their horizon, whenever that happens, and so the statistics do not depend on it. The end
of the lookahead that is set gives the same rulings in place of the horizon, except for alerts that
have all bars of their stretch between the two, which no alert has if there are whole seconds
alone. -/
theorem market_time_rulings {s : Settings α} {audience : Audience α} {e : Engine α}
    (he : ofSettings? s audience = some e) (hs : s.fault? = none) (hm : s.maturity = .marketTime) :
    (∀ ts : List (Turn α), InTime (feed ts) →
      (∀ x ∈ e.ledger ts, ∀ result, x.2.result? = some result →
        s.rule.ruling (feed ts) x.1 = some result ∧
        ((s.rule.lookahead.seconds : Int) ≤ OutcomeRule.lookaheadBound →
          ∀ horizon, s.rule.horizon? x.1.reference = some horizon →
          (s.rule.rulingUpTo (x.1.reference.add s.rule.lookahead) (feed ts) x.1 = some result ↔
            (Scorable (x.1.reference.add s.rule.lookahead) (feed ts) x.1 →
              Scorable horizon (feed ts) x.1)) ∧
          (s.rule.lookahead.IsWhole → horizon = x.1.reference.add s.rule.lookahead))) ∧
      ∀ x ∈ (e.turns ts).desk.outcomes, s.rule.ruling (feed ts) x.1 = some (.ok x.2)) ∧
    (∀ ts us : List (Turn α), feed ts = feed us → InTime (feed ts) →
      (e.turns ts).desk.queue.dropped = 0 → (e.turns us).desk.queue.dropped = 0 →
      e.evaluated ts = e.evaluated us ∨
        (e.turns ts).desk.outcomes.length = (e.turns us).desk.outcomes.length →
      (e.turns ts).desk.statistics = (e.turns us).desk.statistics) ∧
    ∀ actions : List (Action α), ∃ ts, feed ts = actions.filterMap Action.bar? ∧
      e.turns ts = e.run actions := by
  have hbooks (ts : List (Turn α)) : Books (e.turns ts) (e.ledger ts) :=
    (Books.initial he).turns ts
  have hjudged {ts : List (Turn α)} (hfeed : InTime (feed ts)) :
      Judged (e.turns ts) (feed ts) (e.ledger ts) :=
    (Judged.initial he hm).turns (Books.initial he) ts hfeed
  have hterms (ts : List (Turn α)) : (e.turns ts).rule = s.rule := (SameTerms.of_initial he ts).rule
  refine ⟨fun ts hfeed => ⟨?_, ?_⟩, fun ts us heq hfeed hts hus hcount => ?_, exists_turns he hs⟩
  · intro x hx result hresult
    have hruled : s.rule.ruling (feed ts) x.1 = some result :=
      hterms ts ▸ (hjudged hfeed).ruled x hx result hresult
    have ha : x.1 ∈ (e.turns ts).desk.alerts :=
      (hbooks ts).alerts ▸ List.mem_map_of_mem hx
    have hfed : Fed (e.turns ts) (feed ts) := (Fed.initial he).turns ts
    exact ⟨hruled, fun hheld horizon hh =>
      hfed.rulingUpTo_add_iff ha (hfeed.filter _) hheld hh hruled⟩
  · intro x hx
    exact hterms ts ▸ (hjudged hfeed).ruling_of_mem_outcomes (hbooks ts) hx
  · have hsame : (e.turns ts).desk.alerts.map Alert.timeless =
        (e.turns us).desk.alerts.map Alert.timeless := by
      rw [timeless_alerts_turns, timeless_alerts_turns, heq]
    have hout := (hjudged hfeed).outcomes_eq (hbooks ts) hts
    have hout' := (hjudged (heq ▸ hfeed)).outcomes_eq (hbooks us) hus
    rw [hterms] at hout hout'
    have hlists : (e.turns ts).desk.outcomes.map (fun x => (x.1.tags, x.2)) =
        (e.turns us).desk.outcomes.map (fun x => (x.1.tags, x.2)) := by
      rw [hout, hout', hsame, ← heq]
      rcases hcount with hcount | hcount
      · unfold evaluated at hcount
        rw [hcount]
      · apply filterMap_take_eq
        rw [← hsame, ← hout, hsame, heq, ← hout', List.length_map, List.length_map, hcount]
    rw [(hbooks ts).statistics, (hbooks us).statistics, hlists]

/-- The worker looks once, after the stretch of the alert is over. -/
def oneLook : List (Turn Float) := burst.map .submit ++ [.submit (flatBar 0 1900 1), .step]

/-- The worker looks twice before the stretch of the alert is over and once after that. -/
def threeLooks : List (Turn Float) :=
  burst.map .submit ++
    [.step, .pass 1000, .step, .submit (flatBar 0 1900 1), .pass 1000, .step]

theorem market_time_rulings_burst :
    ∃ e : Engine Float, ofSettings? marketSettings (.content false) = some e ∧
      e.evaluated oneLook = 1 ∧ e.evaluated threeLooks = 1 ∧
      (e.turns oneLook).desk.statistics = (e.turns threeLooks).desk.statistics := by
  have hone : marketEngine.evaluated oneLook = 1 := by decide +kernel
  have hthree : marketEngine.evaluated threeLooks = 1 := by decide +kernel
  refine ⟨_, ofSettings?_marketSettings, hone, hthree, ?_⟩
  obtain ⟨-, hsame, -⟩ := market_time_rulings ofSettings?_marketSettings fault?_marketSettings rfl
  exact hsame oneLook threeLooks rfl (by decide +kernel) (by decide +kernel) (by decide +kernel)
    (Or.inl (hone.trans hthree.symm))

/-- With a lookahead of a second and a half, the alert of the burst is evaluated without the bar of
its contract in the half second at the end. -/
theorem not_market_time_rulings_shortly :
    ¬ ∀ (s : Settings Float) (audience : Audience Float) (e : Engine Float) (ts : List (Turn Float)),
      ofSettings? s audience = some e → s.Accepted → 1 ≤ s.rule.lookahead.seconds →
      s.maturity = .marketTime → InTime (feed ts) →
      ∀ x ∈ e.ledger ts, ∀ result, x.2.result? = some result → ¬ s.rule.Overflows x.1 →
        s.rule.rulingUpTo (x.1.reference.add s.rule.lookahead) (feed ts) x.1 = some result := by
  intro hall
  have hany : ((engineAhead broken).ledger (shortly ++ [.step])).any fun x => decide (
      ((lookingAhead broken).rule.horizon? x.1.reference).isSome ∧
        x.2.result?.any (fun result => !result.isOk) ∧
        ((lookingAhead broken).rule.rulingUpTo (x.1.reference.add broken)
          (feed (shortly ++ [.step])) x.1).any (·.isOk)) := by
    decide +kernel
  obtain ⟨x, hx, htrue⟩ := List.any_eq_true.mp hany
  obtain ⟨hsome, hresult, hruling⟩ := of_decide_eq_true htrue
  obtain ⟨result, hresult, herror⟩ := (Option.any_eq_true _ _).mp hresult
  obtain ⟨other, hother, hok⟩ := (Option.any_eq_true _ _).mp hruling
  have hfeed : InTime (feed (shortly ++ [.step])) := by decide +kernel
  have hrulings := hall (lookingAhead broken) (.content false) (engineAhead broken)
    (shortly ++ [.step]) (ofSettings?_lookingAhead broken) accepted_broken (by decide) rfl hfeed
  have heq := hrulings x hx result hresult (not_overflows_broken hsome)
  have hsame : result = other := Option.some.inj (heq.symm.trans hother)
  rw [hsame, hok] at herror
  simp at herror

end VolumeWatch.Engine
