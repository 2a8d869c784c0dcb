import Mathlib.Data.List.Basic
import Mathlib.Data.List.Induction
import VolumeWatch.Proofs.Market.Feeds
import VolumeWatch.Proofs.Series.Prices

/-!
Isolation: what the bars of one contract can change for another.

Feeds in which each contract has the same bars leave the same market (`Market.ofFeed_congr`),
however the contracts are mixed. The alerts of an option are those of its own bars among the bars of
the underlying, of which the openings and volumes do not matter (`Market.raisedAll_view`).
-/

namespace VolumeWatch

open Calendar (Instant)

variable {α : Type}

theorem mem_iff_mem_own {b : Bar α} {feed : List (Bar α)} : b ∈ feed ↔ b ∈ own b.contract feed := by
  simp [own]

theorem own_cons_of_eq {c : ContractId} {b : Bar α} (h : b.contract = c) (feed : List (Bar α)) :
    own c (b :: feed) = b :: own c feed := List.filter_cons_of_pos (by simp [h])

theorem own_cons_of_ne {c : ContractId} {b : Bar α} (h : b.contract ≠ c) (feed : List (Bar α)) :
    own c (b :: feed) = own c feed := List.filter_cons_of_neg (by simp [h])

/-- Clocks that have reached the same instants show the same time. -/
theorem Calendar.Instant.clock_ext {x y : Option Instant}
    (h : ∀ t, x.any (t ≤ ·) ↔ y.any (t ≤ ·)) : x = y := by
  cases x with
  | none =>
    cases y with
    | none => rfl
    | some t => simpa [Instant.le_refl] using h t
  | some t =>
    cases y with
    | none => simpa [Instant.le_refl] using h t
    | some u =>
      have htu : t ≤ u := by simpa [Instant.le_refl] using h t
      have hut : u ≤ t := by simpa [Instant.le_refl] using h u
      rw [Instant.le_antisymm htu hut]

/-- What the alerts of a contract may depend on: its own bars, and the bars of the underlying
without their openings and volumes. -/
def view [Scalar α] (underlying c : ContractId) (feed : List (Bar α)) : List (Bar α) :=
  feed.filterMap fun b =>
    if b.contract = c then some b else if b.contract = underlying then some b.masked else none

section View

variable [Scalar α] {underlying c : ContractId}

theorem view_append (feed rest : List (Bar α)) :
    view underlying c (feed ++ rest) = view underlying c feed ++ view underlying c rest :=
  List.filterMap_append ..

theorem view_cons_of_eq {b : Bar α} (h : b.contract = c) (feed : List (Bar α)) :
    view underlying c (b :: feed) = b :: view underlying c feed := by
  simp [view, h]

theorem view_cons_of_underlying {b : Bar α} (hc : b.contract ≠ c) (hu : b.contract = underlying)
    (feed : List (Bar α)) :
    view underlying c (b :: feed) = b.masked :: view underlying c feed := by
  unfold view
  rw [List.filterMap_cons, if_neg hc, if_pos hu]

theorem view_cons_of_ne {b : Bar α} (hc : b.contract ≠ c) (hu : b.contract ≠ underlying)
    (feed : List (Bar α)) : view underlying c (b :: feed) = view underlying c feed := by
  unfold view
  rw [List.filterMap_cons, if_neg hc, if_neg hu]

theorem own_view (feed : List (Bar α)) : own c (view underlying c feed) = own c feed := by
  induction feed with
  | nil => rfl
  | cons b feed ih =>
    by_cases hc : b.contract = c
    · rw [view_cons_of_eq hc, own_cons_of_eq hc, own_cons_of_eq hc, ih]
    · by_cases hu : b.contract = underlying
      · rw [view_cons_of_underlying hc hu, own_cons_of_ne (b := b.masked) hc, own_cons_of_ne hc, ih]
      · rw [view_cons_of_ne hc hu, own_cons_of_ne hc, ih]

theorem map_masked_own_view (hc : c ≠ underlying) (feed : List (Bar α)) :
    (own underlying (view underlying c feed)).map Bar.masked =
      (own underlying feed).map Bar.masked := by
  induction feed with
  | nil => rfl
  | cons b feed ih =>
    by_cases hb : b.contract = c
    · have hu : b.contract ≠ underlying := hb ▸ hc
      rw [view_cons_of_eq hb, own_cons_of_ne hu, own_cons_of_ne hu, ih]
    · by_cases hu : b.contract = underlying
      · rw [view_cons_of_underlying hb hu, own_cons_of_eq (b := b.masked) hu, own_cons_of_eq hu,
          List.map_cons, List.map_cons, ih, Bar.masked_masked]
      · rw [view_cons_of_ne hb hu, own_cons_of_ne hu, ih]

end View

namespace Market

variable [Scalar α]

/-- A contract has a series as soon as it has a bar, made from its bars alone. -/
theorem get?_ofFeed_eq_ite (underlying : ContractId) (feed : List (Bar α)) (c : ContractId) :
    ((∅ : Market α).ingestAll underlying feed).series.get? c =
      if own c feed = [] then none
      else some ((Series.empty c (c = underlying)).ingestAll (own c feed)) := by
  by_cases h : ∃ b ∈ feed, b.contract = c
  · rw [get?_ofFeed underlying h, if_neg (mt own_eq_nil_iff.mp (not_not.mpr h))]
  · rw [if_pos (own_eq_nil_iff.mpr h)]
    have hsome := (∅ : Market α).isSome_get?_ingestAll underlying feed c
    rw [← Option.not_isSome_iff_eq_none, hsome]
    rintro (hempty | hbar)
    · simp at hempty
    · exact h hbar

/-- Feeds in which each contract has the same bars leave the same market. -/
theorem ofFeed_congr (underlying : ContractId) {feed feed' : List (Bar α)}
    (h : ∀ c, own c feed = own c feed') :
    (∅ : Market α).ingestAll underlying feed = (∅ : Market α).ingestAll underlying feed' := by
  have hmem (b : Bar α) : b ∈ feed ↔ b ∈ feed' := by
    rw [mem_iff_mem_own, h, ← mem_iff_mem_own]
  have hseries : ((∅ : Market α).ingestAll underlying feed).series =
      ((∅ : Market α).ingestAll underlying feed').series := by
    apply SortedMap.ext_get?
    intro c
    rw [get?_ofFeed_eq_ite, get?_ofFeed_eq_ite, h]
  have hclock : ((∅ : Market α).ingestAll underlying feed).clock =
      ((∅ : Market α).ingestAll underlying feed').clock := by
    apply Instant.clock_ext
    intro t
    rw [clock_ofFeed, clock_ofFeed]
    simp only [hmem]
  generalize (∅ : Market α).ingestAll underlying feed = m at hseries hclock
  generalize (∅ : Market α).ingestAll underlying feed' = m' at hseries hclock
  cases m
  cases m'
  cases hseries
  cases hclock
  rfl

section Raised

variable {classifier : Classifier α} {feed feed' : List (Bar α)} {b : Bar α}

/-- An emitted bar raises the same alert in two markets that agree in the series of its contract
and in the prices of the underlying. -/
theorem alertOf?_congr {m m' : Market α} {strike : α} {now : Nat} {e : Emitted α}
    (hown : m.seriesOf classifier.underlying e.bar.contract =
      m'.seriesOf classifier.underlying e.bar.contract)
    (hunderlying : Option.Rel Series.SamePrices (m.series.get? classifier.underlying)
      (m'.series.get? classifier.underlying)) :
    m.alertOf? classifier strike now e = m'.alertOf? classifier strike now e := by
  unfold alertOf?
  rw [hown]
  generalize m.series.get? classifier.underlying = s at hunderlying
  generalize m'.series.get? classifier.underlying = s' at hunderlying
  cases hunderlying with
  | none => rfl
  | some h => simp only [Option.bind_eq_bind, Option.bind_some, h.classify]

/-- The alerts of a bar depend on the bars of its contract and on the prices of the underlying. -/
theorem raised_congr (hb : b.contract ≠ classifier.underlying)
    (hown : own b.contract feed = own b.contract feed')
    (hunderlying : (own classifier.underlying feed).map Bar.masked =
      (own classifier.underlying feed').map Bar.masked) (now : Nat) :
    ((∅ : Market α).ingestAll classifier.underlying feed).raised classifier now b =
      ((∅ : Market α).ingestAll classifier.underlying feed').raised classifier now b := by
  have hseries : ((∅ : Market α).ingestAll classifier.underlying feed).seriesOf
      classifier.underlying b.contract = ((∅ : Market α).ingestAll classifier.underlying
        feed').seriesOf classifier.underlying b.contract := by
    rw [seriesOf_ofFeed, seriesOf_ofFeed, hown]
  have hemitted : (((∅ : Market α).ingestAll classifier.underlying feed).ingest
      classifier.underlying b).2 = (((∅ : Market α).ingestAll classifier.underlying feed').ingest
        classifier.underlying b).2 := by
    show (((∅ : Market α).ingestAll classifier.underlying feed).seriesOf classifier.underlying
      b.contract |>.ingest b).2 = _
    rw [hseries]
    rfl
  -- the bar is not one of the underlying, whose series stays as it is
  have hrel : Option.Rel Series.SamePrices
      ((((∅ : Market α).ingestAll classifier.underlying feed).ingest
        classifier.underlying b).1.series.get? classifier.underlying)
      ((((∅ : Market α).ingestAll classifier.underlying feed').ingest
        classifier.underlying b).1.series.get? classifier.underlying) := by
    rw [get?_ingest, get?_ingest, if_neg (Ne.symm hb), if_neg (Ne.symm hb), get?_ofFeed_eq_ite,
      get?_ofFeed_eq_ite]
    have hnil : own classifier.underlying feed = [] ↔ own classifier.underlying feed' = [] := by
      rw [← List.map_eq_nil_iff (f := Bar.masked), hunderlying, List.map_eq_nil_iff]
    by_cases h : own classifier.underlying feed = []
    · rw [if_pos h, if_pos (hnil.mp h)]
      exact Option.Rel.none
    · rw [if_neg h, if_neg (mt hnil.mpr h)]
      exact Option.Rel.some ((Series.SamePrices.refl _).ingestAll hunderlying)
  unfold raised alerts
  cases (b.contract.kind classifier.underlying : ContractKind α) with
  | underlying => rfl
  | option optionType strike =>
    rw [← hemitted]
    apply List.filterMap_congr
    intro e he
    obtain ⟨-, -, hcontract⟩ := emitted_ofFeed _ feed b (List.mem_filter.mp he).1
    refine alertOf?_congr ?_ hrel
    rw [hcontract, seriesOf_ingest, seriesOf_ingest, hseries]

theorem filter_raised_of_ne {c : ContractId} (hb : b.contract ≠ c) :
    (((∅ : Market α).ingestAll classifier.underlying feed).raised classifier 0 b).filter
      (·.contract = c) = [] := by
  rw [List.filter_eq_nil_iff]
  intro a ha
  have := (Flagged.of_mem_raised ha).contract
  simpa [this] using hb

theorem raised_underlying (m : Market α) (hb : b.contract = classifier.underlying) (now : Nat) :
    m.raised classifier now b = [] := by
  unfold raised alerts
  rw [ContractId.kind, if_pos hb]

/-- The alerts of a contract are those of its own bars among the prices of the underlying. -/
theorem raisedAll_view (classifier : Classifier α) (c : ContractId) (feed : List (Bar α)) :
    ((∅ : Market α).raisedAll classifier feed).filter (·.contract = c) =
      ((∅ : Market α).raisedAll classifier (view classifier.underlying c feed)).filter
        (·.contract = c) := by
  induction feed using List.reverseRecOn with
  | nil => rfl
  | append_singleton feed b ih =>
    have hlast (feed : List (Bar α)) (b : Bar α) : (∅ : Market α).raisedAll classifier (feed ++ [b]) =
        (∅ : Market α).raisedAll classifier feed ++
          ((∅ : Market α).ingestAll classifier.underlying feed).raised classifier 0 b := by
      rw [raisedAll_append]
      exact congrArg _ (List.append_nil _)
    rw [hlast, List.filter_append, ih, view_append]
    by_cases hc : b.contract = c
    · have hb : view classifier.underlying c [b] = [b] := view_cons_of_eq hc []
      rw [hb, hlast, List.filter_append]
      by_cases hu : b.contract = classifier.underlying
      · rw [raised_underlying _ hu, raised_underlying _ hu]
      · have hraised : ((∅ : Market α).ingestAll classifier.underlying feed).raised classifier 0 b =
            ((∅ : Market α).ingestAll classifier.underlying
              (view classifier.underlying c feed)).raised classifier 0 b :=
          raised_congr hu (by rw [hc, own_view]) (map_masked_own_view (hc ▸ hu) feed).symm 0
        rw [hraised]
    · rw [filter_raised_of_ne hc, List.append_nil]
      by_cases hu : b.contract = classifier.underlying
      · have hb : view classifier.underlying c [b] = [b.masked] := view_cons_of_underlying hc hu []
        rw [hb, hlast, List.filter_append, filter_raised_of_ne (b := b.masked) hc, List.append_nil]
      · have hb : view classifier.underlying c [b] = [] := view_cons_of_ne hc hu []
        rw [hb, List.append_nil]

end Raised

end Market

end VolumeWatch
