import VolumeWatch.Proofs.Engine.MarketTime
import VolumeWatch.Proofs.Engine.ReferenceTime
import VolumeWatch.Proofs.Market.Isolation

/-!
Isolation of contracts in a run: neither the queue nor the worker, and no other contract, can reach
the series of a contract (`Engine.markets_isolated`), and of all other contracts only the underlying
can reach the alerts of an option, by its prices (`Engine.alerts_isolated`).
-/

namespace VolumeWatch.Engine

open Calendar (Instant)

variable {α : Type} [Scalar α] {s s' : Settings α} {audience audience' : Audience α} {e e' : Engine α}

theorem market_turns (he : ofSettings? s audience = some e) (ts : List (Turn α)) :
    (e.turns ts).desk.market = (∅ : Market α).ingestAll s.underlying (feed ts) := by
  have hmarket := ((Fed.initial he).turns ts).market
  have hunderlying : e.desk.classifier.underlying = s.underlying := by
    rw [eq_initial he]
    rfl
  rwa [(SameTerms.turns e ts).classifier, hunderlying] at hmarket

/-- Runs in which each contract has the same bars end with the same series and the same time,
however the contracts are mixed and whatever becomes of the alerts. -/
theorem markets_isolated (he : ofSettings? s audience = some e)
    (he' : ofSettings? s' audience' = some e') (hs : s.underlying = s'.underlying)
    {ts us : List (Turn α)} (h : ∀ c, own c (feed ts) = own c (feed us)) :
    (e.turns ts).desk.market = (e'.turns us).desk.market ∧
      (∀ c, c ∈ (e.turns ts).desk.market.series.keys ↔ ∃ b ∈ feed ts, b.contract = c) ∧
      (∀ t, (e.turns ts).desk.market.clock.any (t ≤ ·) ↔ ∃ b ∈ feed ts, t ≤ b.timestamp) ∧
      ∀ c, (∃ b ∈ feed ts, b.contract = c) →
        (e.turns ts).desk.market.series.get? c =
          some ((Series.empty c (c = s.underlying)).ingestAll (own c (feed ts))) := by
  rw [market_turns he, market_turns he', ← hs]
  refine ⟨Market.ofFeed_congr _ h, fun c => ?_, Market.clock_ofFeed _ _,
    fun c hc => Market.get?_ofFeed _ hc⟩
  rw [SortedMap.mem_keys_iff, Market.isSome_get?_ingestAll]
  simp

/-- The underlying comes last, too late for the alert of the option. -/
def lateBurst : List (Bar Float) := burst.tail ++ burst.take 1

theorem own_lateBurst (c : ContractId) :
    own c (feed (burst.map .submit)) = own c (feed (lateBurst.map .submit)) := by
  by_cases hu : c = ⟨0⟩
  · subst hu
    rfl
  · by_cases ho : c = ⟨4500⟩
    · subst ho
      rfl
    · simp [own, feed, lateBurst, burst, flatBar, Turn.bar?, List.range, List.range.loop,
        Ne.symm hu, Ne.symm ho]

/-- Settings with the smallest queue. -/
def narrowSettings : Settings Float := { Settings.standard with queueCapacity := 0 }

/-- There is a listener, and nothing can be kept. -/
def refusing : Audience Float := ⟨true, fun _ _ => .error (.sink "no space left")⟩

theorem ofSettings?_narrowSettings :
    ofSettings? narrowSettings refusing = some (initial narrowSettings refusing) := rfl

theorem markets_isolated_burst :
    ∃ e e' : Engine Float, ofSettings? (Settings.standard : Settings Float) (.content false) = some e ∧
      ofSettings? narrowSettings refusing = some e' ∧
      (e.turns (burst.map .submit)).desk.alerts.length = 1 ∧
      (e'.turns (lateBurst.map .submit)).desk.alerts.length = 0 ∧
      (e.turns (burst.map .submit)).desk.market = (e'.turns (lateBurst.map .submit)).desk.market := by
  refine ⟨_, _, ofSettings?_standard, ofSettings?_narrowSettings, by decide +kernel,
    by decide +kernel, ?_⟩
  exact (markets_isolated ofSettings?_standard ofSettings?_narrowSettings rfl own_lateBurst).1

/-- The alerts of an option are the same in runs that agree in its bars among those of the
underlying, openings and volumes of the underlying apart. -/
theorem alerts_isolated (he : ofSettings? s audience = some e)
    (he' : ofSettings? s' audience' = some e') (hs : s.classifier = s'.classifier)
    {c : ContractId} {ts us : List (Turn α)}
    (h : view s.underlying c (feed ts) = view s.underlying c (feed us)) :
    ((e.turns ts).desk.alerts.filter (·.contract = c)).map Alert.timeless =
      ((e'.turns us).desk.alerts.filter (·.contract = c)).map Alert.timeless := by
  have hturns {s : Settings α} {audience : Audience α} {e : Engine α}
      (he : ofSettings? s audience = some e) (ts : List (Turn α)) :
      ((e.turns ts).desk.alerts.filter (·.contract = c)).map Alert.timeless =
        ((∅ : Market α).raisedAll s.classifier (view s.underlying c (feed ts))).filter
          (·.contract = c) := by
    have hall := timeless_alerts_turns e ts
    rw [eq_initial he] at hall ⊢
    have hempty : (initial s audience).desk.alerts = [] := by
      simp [initial, Desk.empty, Desk.alerts]
    rw [hempty, List.map_nil, List.nil_append] at hall
    have hfilter := congrArg (List.filter (·.contract = c)) hall
    rw [List.filter_map] at hfilter
    exact hfilter.trans (Market.raisedAll_view s.classifier c (feed ts))
  have hunderlying : s.underlying = s'.underlying := congrArg Classifier.underlying hs
  rw [hturns he, hturns he', ← hs, ← hunderlying, h]

/-- The bars of the option come after the end of the run, among those of another option and of the
underlying with another opening and another volume. -/
def otherBurst : List (Turn Float) :=
  [.submit (flatBar 4600 0 1), .submit { flatBar 0 0 7 with opening := 11 }, .shutdown] ++
    burst.tail.map .submit ++ [.submit (flatBar 4600 5 3)]

theorem view_otherBurst :
    view ⟨0⟩ ⟨4500⟩ (feed (burst.map .submit)) = view ⟨0⟩ ⟨4500⟩ (feed otherBurst) := by
  rfl

theorem alerts_isolated_burst :
    ∃ e e' : Engine Float, ofSettings? (Settings.standard : Settings Float) (.content false) = some e ∧
      ofSettings? narrowSettings refusing = some e' ∧
      (e.turns (burst.map .submit)).desk.alerts.length = 1 ∧
      view ⟨0⟩ ⟨4500⟩ (feed (burst.map .submit)) = view ⟨0⟩ ⟨4500⟩ (feed otherBurst) ∧
      ((e.turns (burst.map .submit)).desk.alerts.filter (·.contract = ⟨4500⟩)).map Alert.timeless =
        ((e'.turns otherBurst).desk.alerts.filter (·.contract = ⟨4500⟩)).map Alert.timeless := by
  refine ⟨_, _, ofSettings?_standard, ofSettings?_narrowSettings, by decide +kernel,
    view_otherBurst, ?_⟩
  exact alerts_isolated ofSettings?_standard ofSettings?_narrowSettings rfl view_otherBurst

end VolumeWatch.Engine
