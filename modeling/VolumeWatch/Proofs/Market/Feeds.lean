import VolumeWatch.Market
import VolumeWatch.Proofs.Series.Covering
import VolumeWatch.Proofs.Series.Windows

/-!
Markets after a feed of bars: the series of a contract is made of its own bars alone
(`Market.get?_ofFeed`), the clock has reached an instant as soon as a bar has
(`Market.clock_ingestAll`), and an alert belongs to the last bars of the contract whose bar has
raised it (`Market.Flagged.of_mem_raised`).
-/

namespace VolumeWatch

open Calendar (Instant)

variable {α : Type}

def own (c : ContractId) (feed : List (Bar α)) : List (Bar α) := feed.filter (·.contract = c)

theorem own_append (c : ContractId) (feed rest : List (Bar α)) :
    own c (feed ++ rest) = own c feed ++ own c rest := List.filter_append ..

theorem own_singleton (b : Bar α) : own b.contract [b] = [b] := by simp [own]

theorem own_eq_nil_iff {c : ContractId} {feed : List (Bar α)} :
    own c feed = [] ↔ ¬ ∃ b ∈ feed, b.contract = c := by
  simp [own]

/-- What holds of no bars, and of the bars of each contract of a feed, holds of any contract. -/
theorem forall_own {P : List (Bar α) → Prop} {feed : List (Bar α)} (hnil : P [])
    (h : ∀ c ∈ feed.map (·.contract), P (own c feed)) (c : ContractId) : P (own c feed) := by
  by_cases hc : ∃ b ∈ feed, b.contract = c
  · exact h c (List.mem_map.mpr hc)
  · rw [own_eq_nil_iff.mpr hc]
    exact hnil

theorem Calendar.Instant.le_latest {a b t : Instant} : t ≤ a.latest b ↔ t ≤ a ∨ t ≤ b := by
  unfold Instant.latest
  simp only [Instant.le_iff, Instant.lt_iff]
  split <;> omega

namespace Market

variable [Scalar α]

omit [Scalar α] in
@[simp] theorem series_empty : (∅ : Market α).series = ∅ := rfl

omit [Scalar α] in
@[simp] theorem clock_empty : (∅ : Market α).clock = none := rfl

theorem get?_ingest (m : Market α) (underlying : ContractId) (b : Bar α) (c : ContractId) :
    (m.ingest underlying b).1.series.get? c =
      if c = b.contract then some ((m.seriesOf underlying c).ingest b).1
      else m.series.get? c := by
  simp only [ingest, SortedMap.get?_insert]
  by_cases hc : c = b.contract
  · simp [hc]
  · have hr : Ranked.rank c ≠ Ranked.rank b.contract := fun h => hc (Ranked.rank_inj h)
    simp [hc, hr]

theorem seriesOf_ingest (m : Market α) (underlying : ContractId) (b : Bar α) (c : ContractId) :
    (m.ingest underlying b).1.seriesOf underlying c =
      (m.seriesOf underlying c).ingestAll (own c [b]) := by
  unfold seriesOf
  rw [get?_ingest]
  by_cases hc : c = b.contract
  · subst hc
    simp [own, Series.ingestAll, seriesOf]
  · simp [own, Ne.symm hc, hc, Series.ingestAll]

theorem seriesOf_ingest_self (m : Market α) (underlying : ContractId) (b : Bar α) :
    (m.ingest underlying b).1.seriesOf underlying b.contract =
      ((m.seriesOf underlying b.contract).ingest b).1 := by
  rw [seriesOf_ingest, own_singleton]
  rfl

theorem ingestAll_append (m : Market α) (underlying : ContractId) (feed rest : List (Bar α)) :
    m.ingestAll underlying (feed ++ rest) =
      (m.ingestAll underlying feed).ingestAll underlying rest := List.foldl_append ..

/-- The series of a contract takes the bars of the contract and no others. -/
theorem seriesOf_ingestAll (m : Market α) (underlying : ContractId) (feed : List (Bar α))
    (c : ContractId) : (m.ingestAll underlying feed).seriesOf underlying c =
      (m.seriesOf underlying c).ingestAll (own c feed) := by
  induction feed generalizing m with
  | nil => rfl
  | cons b feed ih =>
    have hstep : m.ingestAll underlying (b :: feed) =
        (m.ingest underlying b).1.ingestAll underlying feed := rfl
    rw [hstep, ih, seriesOf_ingest, show b :: feed = [b] ++ feed from rfl, own_append]
    simp [Series.ingestAll]

theorem seriesOf_ofFeed (underlying : ContractId) (feed : List (Bar α)) (c : ContractId) :
    ((∅ : Market α).ingestAll underlying feed).seriesOf underlying c =
      (Series.empty c (c = underlying)).ingestAll (own c feed) :=
  seriesOf_ingestAll ∅ underlying feed c

theorem isSome_get?_ingestAll (m : Market α) (underlying : ContractId) (feed : List (Bar α))
    (c : ContractId) : ((m.ingestAll underlying feed).series.get? c).isSome ↔
      (m.series.get? c).isSome ∨ ∃ b ∈ feed, b.contract = c := by
  induction feed generalizing m with
  | nil => simp [ingestAll]
  | cons b feed ih =>
    have hstep : m.ingestAll underlying (b :: feed) =
        (m.ingest underlying b).1.ingestAll underlying feed := rfl
    rw [hstep, ih, get?_ingest]
    by_cases hc : c = b.contract
    · simp [hc]
    · simp [hc, Ne.symm hc]

theorem get?_ofFeed (underlying : ContractId) {feed : List (Bar α)} {c : ContractId}
    (h : ∃ b ∈ feed, b.contract = c) :
    ((∅ : Market α).ingestAll underlying feed).series.get? c =
      some ((Series.empty c (c = underlying)).ingestAll (own c feed)) := by
  have hs := ((∅ : Market α).isSome_get?_ingestAll underlying feed c).mpr (Or.inr h)
  obtain ⟨s, hs⟩ := Option.isSome_iff_exists.mp hs
  have hown := seriesOf_ofFeed underlying feed c
  rw [seriesOf, hs] at hown
  rw [hs, ← hown]
  rfl

/-- The clock has reached an instant once a bar has started there or later. -/
theorem clock_ingestAll (m : Market α) (underlying : ContractId) (feed : List (Bar α))
    (t : Instant) : (m.ingestAll underlying feed).clock.any (t ≤ ·) ↔
      m.clock.any (t ≤ ·) ∨ ∃ b ∈ feed, t ≤ b.timestamp := by
  induction feed generalizing m with
  | nil => simp [ingestAll]
  | cons b feed ih =>
    have hstep : m.ingestAll underlying (b :: feed) =
        (m.ingest underlying b).1.ingestAll underlying feed := rfl
    have hclock : (m.ingest underlying b).1.clock.any (t ≤ ·) ↔
        m.clock.any (t ≤ ·) ∨ t ≤ b.timestamp := by
      cases hm : m.clock <;> simp [ingest, advance, hm, Instant.le_latest]
    rw [hstep, ih, hclock]
    simp [or_assoc]

theorem clock_ofFeed (underlying : ContractId) (feed : List (Bar α)) (t : Instant) :
    ((∅ : Market α).ingestAll underlying feed).clock.any (t ≤ ·) ↔ ∃ b ∈ feed, t ≤ b.timestamp := by
  rw [clock_ingestAll]
  simp

/-- The clock stands at the latest of the bars. -/
theorem clock_ofFeed_eq_some_iff (underlying : ContractId) (feed : List (Bar α)) (t : Instant) :
    ((∅ : Market α).ingestAll underlying feed).clock = some t ↔
      (∃ b ∈ feed, b.timestamp = t) ∧ ∀ b ∈ feed, b.timestamp ≤ t := by
  have hreached := clock_ofFeed underlying feed
  cases hc : ((∅ : Market α).ingestAll underlying feed).clock with
  | none =>
    refine iff_of_false (by simp) ?_
    rintro ⟨⟨b, hb, -⟩, -⟩
    have := (hreached b.timestamp).mpr ⟨b, hb, Instant.le_refl _⟩
    simp [hc] at this
  | some u =>
    have hlatest : ∀ b ∈ feed, b.timestamp ≤ u := fun b hb => by
      simpa [hc] using (hreached b.timestamp).mpr ⟨b, hb, Instant.le_refl _⟩
    obtain ⟨b, hb, hle⟩ := (hreached u).mp (by simp [hc, Instant.le_refl])
    have hsome : b.timestamp = u := Instant.le_antisymm (hlatest b hb) hle
    constructor
    · intro h
      obtain rfl : u = t := Option.some.inj h
      exact ⟨⟨b, hb, hsome⟩, hlatest⟩
    · rintro ⟨⟨w, hw, rfl⟩, hall⟩
      rw [Instant.le_antisymm (hlatest w hw) (hsome ▸ hall b hb)]

/-- Where the bars of a contract come in time order, its window holds those between the two
instants. -/
theorem window_ofOwn (underlying : ContractId) {feed : List (Bar α)} {c : ContractId}
    (h : ∃ b ∈ feed, b.contract = c) (hown : InTime (own c feed)) (start stop : Instant) :
    ((∅ : Market α).ingestAll underlying feed).window c start stop =
      .ok (within start stop (own c feed)) := by
  have hbars := Series.toList_bars_ofFeed c (c = underlying) (own c feed)
  have hbetween := Tier.between_eq_within (hbars ▸ hown) start stop
  unfold window
  rw [get?_ofFeed underlying h]
  exact congrArg Except.ok (hbetween.trans (congrArg _ hbars))

/-- After a feed in time order, the window of a contract holds its bars between the two instants. -/
theorem window_ofFeed (underlying : ContractId) {feed : List (Bar α)} {c : ContractId}
    (h : ∃ b ∈ feed, b.contract = c) (hfeed : InTime feed) (start stop : Instant) :
    ((∅ : Market α).ingestAll underlying feed).window c start stop =
      .ok (within start stop (own c feed)) :=
  window_ofOwn underlying h (hfeed.filter _) start stop

/-- An alert of a contract after a feed: its bar is folded from the last bars of the contract, as
many as make up a bar of its timeframe. -/
structure Flagged (c : ContractId) (feed : List (Bar α)) (a : Alert α) : Prop where
  contract : a.contract = c
  whole : a.timeframe.parts ∣ (own c feed).length
  made : ∃ bar strike tags,
    bar.MadeOf ((own c feed).drop ((own c feed).length - a.timeframe.parts)) ∧
      a = .ofBar a.timeframe bar strike tags a.createdAt

/-- The alerts that a bar raises at a moment of the run. -/
def raised (m : Market α) (classifier : Classifier α) (now : Nat) (b : Bar α) : List (Alert α) :=
  (m.ingest classifier.underlying b).1.alerts classifier b.contract now
    (m.ingest classifier.underlying b).2

section Alerts

variable {m : Market α} {classifier : Classifier α} {now : Nat}

theorem alertOf?_eq_some_iff {strike : α} {e : Emitted α} {a : Alert α} :
    m.alertOf? classifier strike now e = some a ↔
      ∃ underlying tags, m.series.get? classifier.underlying = some underlying ∧
        classifier.classify e.timeframe e.bar (m.seriesOf classifier.underlying e.bar.contract)
          underlying = .ok tags ∧
        .ofBar e.timeframe e.bar strike tags now = a := by
  have hok (r : Except (Fault α) Tags) (tags : Tags) : r.toOption = some tags ↔ r = .ok tags := by
    cases r <;> simp [Except.toOption]
  simp only [alertOf?, Option.bind_eq_bind, Option.bind_eq_some_iff, hok, Option.pure_def,
    Option.some.injEq]
  constructor
  · rintro ⟨underlying, hunderlying, tags, htags, ha⟩
    exact ⟨underlying, tags, hunderlying, htags, ha⟩
  · rintro ⟨underlying, tags, hunderlying, htags, ha⟩
    exact ⟨underlying, hunderlying, tags, htags, ha⟩

/-- Only the unusual bars of an option raise alerts. -/
theorem mem_alerts_iff {c : ContractId} {emitted : List (Emitted α)} {a : Alert α} :
    a ∈ m.alerts classifier c now emitted ↔
      ∃ optionType strike, c.kind classifier.underlying = .option optionType strike ∧
        ∃ e ∈ emitted, e.anomalous ∧ m.alertOf? classifier strike now e = some a := by
  unfold alerts
  cases hkind : (c.kind classifier.underlying : ContractKind α) with
  | underlying => simp
  | option optionType strike =>
    simp only [List.mem_filterMap, List.mem_filter, and_assoc, ContractKind.option.injEq]
    constructor
    · intro h
      exact ⟨optionType, strike, rfl, rfl, h⟩
    · rintro ⟨_, _, rfl, rfl, h⟩
      exact h

end Alerts

/-- A bar that is emitted after a feed is folded from the last bars of its contract. -/
theorem emitted_ofFeed (underlying : ContractId) (feed : List (Bar α)) (b : Bar α) {e : Emitted α}
    (h : e ∈ (((∅ : Market α).ingestAll underlying feed).ingest underlying b).2) :
    e.timeframe.parts ∣ (own b.contract (feed ++ [b])).length ∧
      e.bar.MadeOf ((own b.contract (feed ++ [b])).drop
        ((own b.contract (feed ++ [b])).length - e.timeframe.parts)) ∧
      e.bar.contract = b.contract := by
  have hs := seriesOf_ofFeed underlying feed b.contract
  have hown : own b.contract (feed ++ [b]) = own b.contract feed ++ [b] := by
    rw [own_append, own_singleton]
  have hemitted : e ∈ (((Series.empty b.contract (b.contract = underlying)).ingestAll
      (own b.contract feed)).ingest b).2 := by
    rw [← hs]
    exact h
  have hbars := Series.toList_bars_ofFeed b.contract (b.contract = underlying) (own b.contract feed)
  rw [← hbars] at hown
  obtain ⟨hdvd, hmade⟩ := (Series.aligned_ofFeed _ _ _).emitted hown.symm hemitted
  obtain ⟨f, hf, hcontract, -⟩ := hmade.spans.first
  have hmem : f ∈ own b.contract (feed ++ [b]) :=
    List.mem_of_mem_drop (List.mem_of_mem_head? hf)
  exact ⟨hdvd, hmade, hcontract.trans (of_decide_eq_true (List.mem_filter.mp hmem).2)⟩

theorem Flagged.of_mem_raised {classifier : Classifier α} {feed : List (Bar α)} {b : Bar α}
    {now : Nat} {a : Alert α}
    (h : a ∈ ((∅ : Market α).ingestAll classifier.underlying feed).raised classifier now b) :
    Flagged b.contract (feed ++ [b]) a := by
  obtain ⟨_, strike, -, e, he, -, hof⟩ := mem_alerts_iff.mp h
  obtain ⟨_, tags, -, -, rfl⟩ := alertOf?_eq_some_iff.mp hof
  obtain ⟨hdvd, hmade, hcontract⟩ := emitted_ofFeed _ feed b he
  exact ⟨hcontract, hdvd, ⟨e.bar, strike, tags, hmade, rfl⟩⟩

/-- The moment of the run is noted in the alerts and does not matter otherwise. -/
theorem raised_eq_map (m : Market α) (classifier : Classifier α) (now : Nat) (b : Bar α) :
    m.raised classifier now b =
      (m.raised classifier 0 b).map fun a => { a with createdAt := now } := by
  unfold raised alerts
  split
  · rfl
  · rw [List.map_filterMap]
    congr 1
    funext e
    simp only [alertOf?, Option.bind_eq_bind, Option.map_bind, Function.comp_def, Option.pure_def,
      Option.map_some]
    rfl

theorem createdAt_of_mem_raised {m : Market α} {classifier : Classifier α} {now : Nat} {b : Bar α}
    {a : Alert α} (h : a ∈ m.raised classifier now b) : a.createdAt = now := by
  rw [raised_eq_map] at h
  obtain ⟨a, -, rfl⟩ := List.mem_map.mp h
  rfl

/-- The alerts that bars raise one after the other, whatever the moment. -/
def raisedAll (m : Market α) (classifier : Classifier α) : List (Bar α) → List (Alert α)
  | [] => []
  | b :: rest =>
    m.raised classifier 0 b ++ raisedAll (m.ingest classifier.underlying b).1 classifier rest

theorem raisedAll_append (m : Market α) (classifier : Classifier α) (feed rest : List (Bar α)) :
    m.raisedAll classifier (feed ++ rest) = m.raisedAll classifier feed ++
      (m.ingestAll classifier.underlying feed).raisedAll classifier rest := by
  induction feed generalizing m with
  | nil => rfl
  | cons b feed ih =>
    show m.raised classifier 0 b ++ raisedAll _ classifier (feed ++ rest) = _
    rw [ih, ← List.append_assoc]
    rfl

end Market

/-- An alert apart from the moment at which it was raised. -/
def Alert.timeless (a : Alert α) : Alert α := { a with createdAt := 0 }

theorem Market.map_timeless_raised [Scalar α] (m : Market α) (classifier : Classifier α) (now : Nat)
    (b : Bar α) : (m.raised classifier now b).map Alert.timeless = m.raised classifier 0 b := by
  rw [m.raised_eq_map classifier now, List.map_map]
  exact (m.raised_eq_map classifier 0 b).symm

end VolumeWatch
