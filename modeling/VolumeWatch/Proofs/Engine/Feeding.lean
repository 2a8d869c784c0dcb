import VolumeWatch.Proofs.Engine.Looks

/-!
Feeding: the series of an engine are those of the bars that came in with its turns, and each alert
was raised by one of these bars (`Engine.Fed.turns`). Apart from its moment it does not depend on
anything else (`Engine.timeless_alerts_turns`).
-/

namespace VolumeWatch.Engine

variable {α : Type} [Scalar α]

/-- A flat bar of a contract, some seconds into a session. -/
def flatBar (c : UInt32) (seconds : Int) (volume : Float) : Bar Float where
  contract := ⟨c⟩
  timestamp := .ofMillis (1710252000000 + seconds * 1000)
  opening := 10
  high := 10
  low := 10
  close := 10
  volume := volume

/-- A bar of the underlying and ten bars of an option, the last with a large volume. -/
def burst : List (Bar Float) :=
  flatBar 0 0 1 :: (List.range 10).map fun i => flatBar 4500 (5 * i) (if i = 9 then 100 else 1)

/-- An engine has been fed with bars, and one of them has raised each of its alerts. -/
structure Fed (e : Engine α) (fed : List (Bar α)) : Prop where
  market : e.desk.market = (∅ : Market α).ingestAll e.desk.classifier.underlying fed
  flagged : ∀ a ∈ e.desk.alerts, ∃ before b after, fed = before ++ b :: after ∧
    Market.Flagged b.contract (before ++ [b]) a

namespace Fed

variable {e : Engine α} {fed : List (Bar α)}

theorem initial {s : Settings α} {audience : Audience α} (he : ofSettings? s audience = some e) :
    Fed e [] := by
  rw [eq_initial he]
  exact ⟨rfl, by simp [Engine.initial, Desk.empty, Desk.alerts]⟩

theorem turn (h : Fed e fed) (t : Turn α) : Fed (e.turn t) (fed ++ t.bar?.toList) := by
  obtain ⟨hmarket, halerts⟩ := e.turn_bar t
  constructor
  · rw [hmarket, (SameTerms.turn e t).classifier, h.market, Market.ingestAll_append]
  · intro a ha
    rw [halerts] at ha
    rcases List.mem_append.mp ha with ha | ha
    · obtain ⟨before, b, after, rfl, hflagged⟩ := h.flagged a ha
      exact ⟨before, b, after ++ t.bar?.toList, by simp, hflagged⟩
    · obtain ⟨b, hb, ha⟩ := List.mem_flatMap.mp ha
      have ht : t.bar? = some b := Option.mem_toList.mp hb
      rw [h.market] at ha
      exact ⟨fed, b, [], by rw [ht]; rfl, .of_mem_raised ha⟩

theorem turns (h : Fed e fed) (ts : List (Turn α)) : Fed (e.turns ts) (fed ++ feed ts) := by
  induction ts generalizing e fed with
  | nil =>
    show Fed e (fed ++ [])
    rw [List.append_nil]
    exact h
  | cons t ts ih =>
    rw [feed_cons, ← List.append_assoc]
    exact ih (h.turn t)

theorem known (h : Fed e fed) {a : Alert α} (ha : a ∈ e.desk.alerts) :
    ∃ b ∈ fed, b.contract = a.contract := by
  obtain ⟨before, b, after, rfl, hflagged⟩ := h.flagged a ha
  exact ⟨b, by simp, hflagged.contract.symm⟩

/-- Where the bars of its contract come in time order, an alert is scored on those between the start
of its bar and its horizon. -/
theorem score?_eq (h : Fed e fed) {a : Alert α} (ha : a ∈ e.desk.alerts)
    (hown : InTime (own a.contract fed)) {r : OutcomeRule α} {horizon : Calendar.Instant}
    (hh : r.horizon? a.reference = some horizon) :
    e.desk.score? r a =
      r.evaluate? a.price a.reference (within a.barTime horizon (own a.contract fed)) := by
  rw [Desk.score?, hh, Option.bind_some, h.market, Market.window_ofOwn _ (h.known ha) hown]

end Fed

/-- Apart from their moments, the alerts of a run come from its bars alone. -/
theorem timeless_alerts_turns (e : Engine α) (ts : List (Turn α)) :
    (e.turns ts).desk.alerts.map Alert.timeless = e.desk.alerts.map Alert.timeless ++
      e.desk.market.raisedAll e.desk.classifier (feed ts) := by
  induction ts generalizing e with
  | nil => exact (List.append_nil _).symm
  | cons t ts ih =>
    have hclassifier := (SameTerms.turn e t).classifier
    obtain ⟨hmarket, halerts⟩ := e.turn_bar t
    refine (ih (e.turn t)).trans ?_
    rw [hclassifier, hmarket, halerts, List.map_append, List.append_assoc]
    congr 1
    rw [feed_cons]
    cases t.bar? with
    | none => rfl
    | some b =>
      simp only [Option.toList_some, List.flatMap_singleton, Market.map_timeless_raised]
      rfl

end VolumeWatch.Engine
