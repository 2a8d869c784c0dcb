import VolumeWatch.Proofs.Engine.Accounts
import VolumeWatch.Proofs.Engine.Feeding

/-!
Market time: an alert that becomes ripe by the clock of the bars is scored on the bars of its
contract, all those of the feed in its stretch and no others, whenever the worker looks at it
(`Engine.Judged.turns`). The outcomes of a run are told from its bars and the number of alerts that
were evaluated (`Engine.Judged.outcomes_eq`).
-/

namespace VolumeWatch

open Calendar (Instant)

variable {α : Type} [Scalar α]

namespace OutcomeRule

/-- What the evaluation of an alert gives on all bars of its contract in a feed that start from the
start of the alert's bar on and before a time. -/
def rulingUpTo (r : OutcomeRule α) (stop : Instant) (feed : List (Bar α)) (a : Alert α) :
    Option (Except (Fault α) (Outcome α)) :=
  r.evaluate? a.price a.reference (within a.barTime stop (own a.contract feed))

/-- What it gives on the bars before the horizon of the alert. -/
def ruling (r : OutcomeRule α) (feed : List (Bar α)) (a : Alert α) :
    Option (Except (Fault α) (Outcome α)) :=
  (r.horizon? a.reference).bind fun horizon => r.rulingUpTo horizon feed a

/-- The stretch that an alert is scored on is over: a bar of some contract has started at its
horizon or later. -/
def Elapsed (r : OutcomeRule α) (feed : List (Bar α)) (a : Alert α) : Prop :=
  ∃ horizon, r.horizon? a.reference = some horizon ∧ ∃ b ∈ feed, horizon ≤ b.timestamp

variable {r : OutcomeRule α} {fed rest : List (Bar α)} {a : Alert α}

omit [Scalar α] in
theorem Elapsed.append (h : r.Elapsed fed a) : r.Elapsed (fed ++ rest) a := by
  obtain ⟨horizon, hh, b, hb, hle⟩ := h
  exact ⟨horizon, hh, b, List.mem_append_left _ hb, hle⟩

/-- Once the stretch of an alert is over, the bars that come later change nothing. -/
theorem Elapsed.ruling_append (h : r.Elapsed fed a) (hfeed : InTime (fed ++ rest)) :
    r.ruling (fed ++ rest) a = r.ruling fed a := by
  obtain ⟨horizon, hh, b, hb, hle⟩ := h
  have hlater : ∀ c ∈ own a.contract rest, horizon ≤ c.timestamp := fun c hc =>
    Instant.le_trans hle ((List.pairwise_append.mp hfeed).2.2 b hb c (List.mem_filter.mp hc).1)
  simp only [ruling, rulingUpTo, hh, Option.bind_some]
  rw [own_append, within_append hlater]

/-- What an alert adds to the statistics by its ruling. -/
def entry? (r : OutcomeRule α) (feed : List (Bar α)) (a : Alert α) : Option (Tags × Outcome α) :=
  (r.ruling feed a).bind fun result => result.toOption.map (a.tags, ·)

theorem entry?_timeless (r : OutcomeRule α) (feed : List (Bar α)) (a : Alert α) :
    r.entry? feed a.timeless = r.entry? feed a := rfl

end OutcomeRule

namespace Engine

/-- An engine that runs by market time has evaluated alerts on the bars that it was fed with. -/
structure Judged (e : Engine α) (fed : List (Bar α)) (l : Ledger α) : Prop extends Fed e fed where
  maturity : e.maturity = .marketTime
  elapsed : ∀ x ∈ l, x.2.result?.isSome → e.rule.Elapsed fed x.1
  ruled : ∀ x ∈ l, ∀ result, x.2.result? = some result → e.rule.ruling fed x.1 = some result

/-- An alert is evaluated with a step of the worker, once it is ripe, and by its score. -/
theorem mem_book {e : Engine α} {l : Ledger α} (hb : Books e l) {t : Turn α}
    {x : Alert α × Fate α} (hx : x ∈ e.book l t) (hs : x.2.result?.isSome) :
    x ∈ l ∨ t.bar? = none ∧ ∃ r, Ready e r x.1 ∧ r.isRipe? x.1 = some true ∧
      r.desk.score? r.rule x.1 = x.2.result? := by
  cases t with
  | submit b =>
    rcases List.mem_append.mp hx with hx | hx
    · exact Or.inl hx
    · have := (e.desk.queue.takes_pushAll _).result x hx
      simp [this] at hs
  | step =>
    unfold book at hx
    cases hready : e.ready? with
    | none =>
      rw [hready] at hx
      exact Or.inl hx
    | some next =>
      obtain ⟨r, a⟩ := next
      have hr := Ready.of_ready? hready
      have hp : l.pending = a :: r.desk.queue.items.toList := hb.waiting.trans hr.waiting
      simp only [hready] at hx
      have hc := r.considered a
      generalize r.verdict a = f at hx hc
      generalize r.consider a = e' at hc
      cases hc with
      | kept => exact Or.inl hx
      | lost status hover =>
        rcases Ledger.mem_close hx with hx | ⟨hx, -⟩
        · simp [hx, Fate.result?] at hs
        · exact Or.inl hx
      | unscored fault hripe hscore =>
        rcases Ledger.mem_resolve hp hx with rfl | hx
        · exact Or.inr ⟨rfl, r, hr, hripe, hscore⟩
        · exact Or.inl hx
      | scored o hripe hscore =>
        rcases Ledger.mem_resolve hp hx with rfl | hx
        · exact Or.inr ⟨rfl, r, hr, hripe, hscore⟩
        · exact Or.inl hx
  | pass millis => exact Or.inl hx
  | beginReports => exact Or.inl hx
  | report => exact Or.inl hx
  | shutdown =>
    rcases Ledger.mem_close hx with hx | ⟨hx, -⟩
    · simp [hx, Fate.result?] at hs
    · exact Or.inl hx

namespace Judged

variable {e r : Engine α} {fed : List (Bar α)} {l : Ledger α} {a : Alert α}

theorem market_ready (h : Judged e fed l) (hr : Ready e r a) :
    r.desk.market = (∅ : Market α).ingestAll e.desk.classifier.underlying fed := by
  rw [hr.desk]
  exact h.market

/-- What the worker finds on the bars so far is the ruling on them. -/
theorem score?_eq (h : Judged e fed l) (hfed : InTime fed) (hr : Ready e r a)
    (ha : a ∈ e.desk.alerts) : r.desk.score? r.rule a = e.rule.ruling fed a := by
  unfold Desk.score? OutcomeRule.ruling OutcomeRule.rulingUpTo
  rw [h.market_ready hr, (SameTerms.ready hr).rule]
  refine congrArg _ (funext fun horizon => ?_)
  rw [Market.window_ofFeed _ (h.known ha) hfed]

/-- An alert is not ripe before its stretch is over. -/
theorem elapsed_of_isRipe? (h : Judged e fed l) (hr : Ready e r a) (hripe : r.isRipe? a = some true) :
    e.rule.Elapsed fed a := by
  have hterms := SameTerms.ready hr
  unfold isRipe? at hripe
  rw [hterms.maturity, h.maturity, hterms.rule, h.market_ready hr] at hripe
  obtain ⟨horizon, hh, hclock⟩ := Option.map_eq_some_iff.mp hripe
  exact ⟨horizon, hh, (Market.clock_ofFeed _ fed horizon).mp hclock⟩

theorem turn (h : Judged e fed l) (hb : Books e l) (t : Turn α)
    (hfeed : InTime (fed ++ t.bar?.toList)) :
    Judged (e.turn t) (fed ++ t.bar?.toList) (e.book l t) := by
  have hterms := SameTerms.turn e t
  -- what is evaluated was so before, or is with this turn, on the bars so far
  have hold : ∀ x ∈ e.book l t, x.2.result?.isSome →
      e.rule.Elapsed fed x.1 ∧ e.rule.ruling fed x.1 = x.2.result? := by
    intro x hx hs
    rcases mem_book hb hx hs with hx | ⟨-, r, hr, hripe, hscore⟩
    · obtain ⟨result, hresult⟩ := Option.isSome_iff_exists.mp hs
      exact ⟨h.elapsed x hx hs, (h.ruled x hx result hresult).trans hresult.symm⟩
    · refine ⟨h.elapsed_of_isRipe? hr hripe, ?_⟩
      rw [← h.score?_eq hfeed.of_append hr (hb.mem_alerts hr), hscore]
  refine ⟨h.toFed.turn t, ?_, ?_, ?_⟩
  · rw [hterms.maturity, h.maturity]
  · intro x hx hs
    rw [hterms.rule]
    exact (hold x hx hs).1.append
  · intro x hx result hresult
    have hs : x.2.result?.isSome := by simp [hresult]
    rw [hterms.rule, (hold x hx hs).1.ruling_append hfeed, (hold x hx hs).2, hresult]

theorem turns (h : Judged e fed l) (hb : Books e l) (ts : List (Turn α))
    (hfeed : InTime (fed ++ feed ts)) : Judged (e.turns ts) (fed ++ feed ts) (e.bookAll l ts) := by
  induction ts generalizing e fed l with
  | nil =>
    show Judged e (fed ++ []) l
    rw [List.append_nil]
    exact h
  | cons t ts ih =>
    rw [feed_cons, ← List.append_assoc] at hfeed ⊢
    exact ih (h.turn hb t hfeed.of_append) (hb.turn t) hfeed

theorem initial {s : Settings α} {audience : Audience α} (he : ofSettings? s audience = some e)
    (hm : s.maturity = .marketTime) : Judged e [] [] := by
  refine ⟨Fed.initial he, ?_, by simp, by simp⟩
  rw [eq_initial he]
  exact hm

end Judged

def evaluated (e : Engine α) (ts : List (Turn α)) : Nat :=
  (e.ledger ts).countP (·.2.result?.isSome)

/-- Where no alert was dropped, the outcomes of a run are told from its bars and the number of
alerts that were evaluated. -/
theorem Judged.outcomes_eq {e : Engine α} {fed : List (Bar α)} {l : Ledger α}
    (h : Judged e fed l) (hb : Books e l) (hdropped : e.desk.queue.dropped = 0) :
    e.desk.outcomes.map (fun x => (x.1.tags, x.2)) =
      ((e.desk.alerts.map Alert.timeless).take (l.countP (·.2.result?.isSome))).filterMap
        (e.rule.entry? fed) := by
  have htake := hb.inOrder.evaluations_eq_take (hb.dropped.trans hdropped)
  calc e.desk.outcomes.map (fun x => (x.1.tags, x.2))
      = l.evaluations.filterMap fun x => e.rule.entry? fed x.1 := by
        rw [← hb.outcomes, Ledger.outcomes_eq_filterMap, List.map_filterMap]
        apply List.filterMap_congr
        rintro ⟨a, result⟩ hx
        obtain ⟨x, hxl, hresult⟩ := List.mem_filterMap.mp hx
        obtain ⟨result', hr, heq⟩ := Option.map_eq_some_iff.mp hresult
        obtain ⟨rfl, rfl⟩ := Prod.mk.inj heq
        simp only [OutcomeRule.entry?, h.ruled x hxl result' hr, Option.bind_some, Option.map_map]
        rfl
    _ = (l.evaluations.map (·.1)).filterMap (e.rule.entry? fed) := by
        rw [List.filterMap_map]
        rfl
    _ = (e.desk.alerts.take (l.countP (·.2.result?.isSome))).filterMap (e.rule.entry? fed) := by
        rw [htake, hb.alerts]
    _ = _ := by
        rw [← List.map_take, List.filterMap_map]
        exact List.filterMap_congr fun a _ => (e.rule.entry?_timeless fed a).symm

/-- Two beginnings of a list that select the same number of entries select the same entries. -/
theorem filterMap_take_eq {β γ : Type} {f : β → Option γ} {l : List β} {n m : Nat}
    (h : ((l.take n).filterMap f).length = ((l.take m).filterMap f).length) :
    (l.take n).filterMap f = (l.take m).filterMap f := by
  rcases Nat.le_total n m with hle | hle
  · exact ((List.take_prefix_take_left hle).filterMap f).eq_of_length h
  · exact (((List.take_prefix_take_left hle).filterMap f).eq_of_length h.symm).symm

end Engine

end VolumeWatch
