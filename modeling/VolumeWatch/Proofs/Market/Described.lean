import VolumeWatch.Proofs.Classification
import VolumeWatch.Proofs.Market.Feeds

/-!
What alerts say of the bars that raised them: the contract as its id tells it, the timeframe, slot
and time of the flagged bar, and the close of the bar that came in (`Market.Describes.of_mem_raised`).

An alert tells the start of its bar from the end of it, which goes through except for bars that
start in a leap second (`Calendar.Instant.addSeconds_neg_eq_iff`).
-/

namespace VolumeWatch

open Calendar (ClockTime Instant)

variable {α : Type}

namespace Calendar.Instant

theorem nanos_addSeconds_of_ge {t : Instant} (h : 1000000000 ≤ t.nanos) {d : Int} (hd : d ≠ 0) :
    (t.addSeconds d).nanos = t.nanos - 1000000000 := by
  rw [addSeconds, dif_pos ⟨h, hd⟩]

/-- Going forward and back by seconds returns to an instant unless it is in a leap second. -/
theorem addSeconds_neg_eq_iff (t : Instant) {d : Int} (hd : d ≠ 0) :
    (t.addSeconds d).addSeconds (-d) = t ↔ t.nanos < 1000000000 := by
  constructor
  · intro h
    apply Classical.byContradiction
    intro hge
    have hleap := nanos_addSeconds_of_ge (Nat.le_of_not_lt hge) hd
    have hlt : (t.addSeconds d).nanos < 1000000000 := by
      have := t.nanos_lt
      omega
    have hnanos := congrArg nanos (addSeconds_of_lt hlt (-d))
    rw [h, hleap] at hnanos
    omega
  · intro h
    rw [addSeconds_of_lt h, addSeconds_of_lt (by exact h)]
    exact key_inj (by simp only [key]; omega)

end Calendar.Instant

/-- An instant that has a slot lies within the hours of the session, and the slot counts the hours
since the opening. -/
theorem Session.contains_of_slot {s : Session} {t : Instant} {slot : SessionSlot}
    (h : (s.slot t : Except (Fault α) SessionSlot) = .ok slot) :
    s.contains t ∧ Category.ordinal slot =
      (s.zone.clockTime t).secondsSince s.opening / slotSeconds := by
  unfold Session.slot at h
  cases hs : s.slotAt? (s.zone.clockTime t) with
  | none =>
    rw [hs] at h
    cases h
  | some u =>
    rw [hs] at h
    obtain rfl : u = slot := Except.ok.inj h
    unfold Session.slotAt? at hs
    split at hs
    · cases hs
    · rename_i hhours
      refine ⟨?_, Category.ordinal_of_ofOrdinal? hs⟩
      simp only [ClockTime.lt_iff, ClockTime.le_iff, not_or, Nat.not_lt, Nat.not_le] at hhours
      simp only [contains, containsClock, Bool.and_eq_true, decide_eq_true_eq]
      exact hhours

theorem filter_eq_singleton {β γ : Type} [DecidableEq γ] {f : β → γ} {l : List β}
    (hl : (l.map f).Nodup) {b : β} (hb : b ∈ l) : l.filter (f · = f b) = [b] := by
  induction l with
  | nil => cases hb
  | cons c l ih =>
    obtain ⟨hc, hl⟩ := List.nodup_cons.mp hl
    rcases List.mem_cons.mp hb with rfl | hb
    · have hrest : l.filter (f · = f b) = [] := by
        rw [List.filter_eq_nil_iff]
        intro d hd hfd
        exact hc (of_decide_eq_true hfd ▸ List.mem_map_of_mem hd)
      simp [hrest]
    · have hne : f c ≠ f b := fun h => hc (h ▸ List.mem_map_of_mem hb)
      simpa [hne] using ih hl hb

/-- What is made of some members of a list, one by one, is in the order of the list. -/
theorem sublist_map_filterMap {β γ δ : Type} {f : β → Option γ} {g : γ → δ} {k : β → δ}
    (h : ∀ b c, f b = some c → g c = k b) (l : List β) :
    ((l.filterMap f).map g).Sublist (l.map k) := by
  induction l with
  | nil => exact .slnil
  | cons b l ih =>
    cases hb : f b with
    | none =>
      rw [List.filterMap_cons_none hb, List.map_cons]
      exact ih.cons _
    | some c =>
      rw [List.filterMap_cons_some hb, List.map_cons, List.map_cons, h b c hb]
      exact ih.cons_cons _

variable [Scalar α]

/-- Tags say of a bar what its contract, its timeframe and its start determine. -/
theorem Classifier.classify_eq_ok {c : Classifier α} {t : Timeframe} {b : Bar α}
    {option underlying : Series α} {tags : Tags} (h : c.classify t b option underlying = .ok tags) :
    (∃ strike, b.contract.kind c.underlying = .option tags.optionType (strike : α)) ∧
      tags.timeframe = t ∧
      (c.session.slot b.timestamp : Except (Fault α) SessionSlot) = .ok tags.timeOfDay := by
  obtain ⟨strike, _, h⟩ := classified_of_eq_ok h
  exact ⟨⟨strike, h.kind⟩, h.timeframe, h.slot⟩

namespace Market

variable {m : Market α} {classifier : Classifier α} {now : Nat}

/-- Alerts come in the order of the bars that raise them. -/
theorem timeframes_alerts (c : ContractId) (emitted : List (Emitted α)) :
    ((m.alerts classifier c now emitted).map (·.timeframe)).Sublist
      (emitted.map (·.timeframe)) := by
  unfold alerts
  split
  · exact List.nil_sublist _
  · rename_i strike _
    have hof : ∀ e a, m.alertOf? classifier strike now e = some a → a.timeframe = e.timeframe := by
      intro e a ha
      obtain ⟨_, _, -, -, rfl⟩ := alertOf?_eq_some_iff.mp ha
      rfl
    exact (sublist_map_filterMap hof _).trans (List.filter_sublist.map _)

/-- Where the bar that an alert flags goes: its contract, its timeframe and the number of bars that
the timeframe has by then. -/
def place (m : Market α) (underlying : ContractId) (a : Alert α) : ContractId × Timeframe × Nat :=
  (a.contract, a.timeframe, ((m.seriesOf underlying a.contract).bars a.timeframe).size)

/-- The alert `a` was raised at `now` when the market `m` took the bar `b`, by the emitted bar `e`
that it flags. -/
structure Describes (m : Market α) (classifier : Classifier α) (now : Nat) (b : Bar α)
    (a : Alert α) (e : Emitted α) : Prop where
  emitted : e ∈ (m.ingest classifier.underlying b).2
  anomalous : e.anomalous
  contract : a.contract = b.contract
  option : b.contract ≠ classifier.underlying
  kind : b.contract.kind classifier.underlying = .option a.optionType a.strike
  optionType : a.tags.optionType = a.optionType
  timeframe : a.timeframe = e.timeframe
  tagged : a.tags.timeframe = a.timeframe
  price : a.price = b.close
  reference : a.reference = e.bar.timestamp.addSeconds a.timeframe.seconds
  barTime : a.barTime = e.bar.timestamp ↔ e.bar.timestamp.nanos < 1000000000
  within : classifier.session.contains e.bar.timestamp
  slot : (classifier.session.slot e.bar.timestamp : Except (Fault α) SessionSlot) =
    .ok a.tags.timeOfDay
  createdAt : a.createdAt = now
  /-- The flagged bar is the bar that stands at the place of the alert from now on. -/
  stored : (((m.ingest classifier.underlying b).1.seriesOf classifier.underlying
    a.contract).bars a.timeframe)[(m.place classifier.underlying a).2.2]? = some e.bar

theorem aligned_seriesOf_ofFeed (underlying : ContractId) (feed : List (Bar α)) (c : ContractId) :
    (((∅ : Market α).ingestAll underlying feed).seriesOf underlying c).Aligned := by
  rw [seriesOf_ofFeed]
  exact Series.aligned_ofFeed c (c = underlying) (own c feed)

/-- A market extends the series of the contract whose bar it takes. -/
theorem extended_ingest {underlying : ContractId} {b : Bar α}
    (hm : (m.seriesOf underlying b.contract).Aligned) :
    Extended (m.seriesOf underlying b.contract)
      ((m.ingest underlying b).1.seriesOf underlying b.contract) (.s5 :: Timeframe.s5.above)
      (m.ingest underlying b).2 := by
  rw [seriesOf_ingest_self]
  exact (hm.ingest b).2

/-- An emitted bar is the only one on its timeframe, and goes behind those that stood there. -/
theorem bars_of_emitted {underlying : ContractId} {b : Bar α} {e : Emitted α}
    (hm : (m.seriesOf underlying b.contract).Aligned) (he : e ∈ (m.ingest underlying b).2) :
    ((m.ingest underlying b).1.seriesOf underlying b.contract).bars e.timeframe =
      ((m.seriesOf underlying b.contract).bars e.timeframe).push e.bar := by
  have hext := extended_ingest hm
  have hnodup : ((m.ingest underlying b).2.map (·.timeframe)).Nodup :=
    List.Nodup.sublist hext.timeframes.sublist (by decide)
  apply Array.ext'
  rw [hext.grown, filter_eq_singleton hnodup he, Array.toList_push]
  rfl

/-- No timeframe of any contract loses bars. -/
theorem size_bars_le_ingest {underlying c : ContractId} (hm : (m.seriesOf underlying c).Aligned)
    (b : Bar α) (t : Timeframe) : ((m.seriesOf underlying c).bars t).size ≤
      (((m.ingest underlying b).1.seriesOf underlying c).bars t).size := by
  by_cases hc : c = b.contract
  · subst hc
    have hgrown := congrArg List.length ((extended_ingest hm).grown t)
    simp only [Array.length_toList, List.length_append] at hgrown
    omega
  · have hnone : own c [b] = [] := by simp [own, Ne.symm hc]
    rw [seriesOf_ingest, hnone]
    exact Nat.le_refl _

theorem Describes.of_mem_raised {feed : List (Bar α)} {b : Bar α} {a : Alert α}
    (h : a ∈ ((∅ : Market α).ingestAll classifier.underlying feed).raised classifier now b) :
    ∃ e, Describes ((∅ : Market α).ingestAll classifier.underlying feed) classifier now b a e := by
  obtain ⟨optionType, strike, hkind, e, he, hunusual, ha⟩ := mem_alerts_iff.mp h
  obtain ⟨_, tags, -, htags, rfl⟩ := alertOf?_eq_some_iff.mp ha
  obtain ⟨-, hmade, hcontract⟩ := emitted_ofFeed _ feed b he
  obtain ⟨⟨strike', hkind'⟩, htimeframe, hslot⟩ := Classifier.classify_eq_ok htags
  have hseconds : (e.timeframe.seconds : Int) ≠ 0 := by
    have := e.timeframe.seconds_pos
    omega
  rw [hcontract, hkind] at hkind'
  obtain ⟨htype, -⟩ := ContractKind.option.inj hkind'
  refine ⟨e, ?_⟩
  constructor
  case emitted => exact he
  case anomalous => exact hunusual
  case contract => exact hcontract
  case option =>
    intro heq
    simp [ContractId.kind, heq] at hkind
  case kind =>
    rw [htype] at hkind
    exact hkind
  case optionType => rfl
  case timeframe => rfl
  case tagged => exact htimeframe
  case price =>
    -- the flagged bar is folded from the last bars of its contract, of which `b` is the last one
    obtain ⟨l, hl, hclose⟩ := hmade.spans.last
    have hpos := e.timeframe.parts_pos
    have hlast : (own b.contract (feed ++ [b])).getLast? = some b := by
      rw [own_append, own_singleton, List.getLast?_concat]
    rw [List.getLast?_drop, hlast] at hl
    split at hl
    · cases hl
    · obtain rfl := Option.some.inj hl
      exact hclose
  case reference => rfl
  case barTime => exact e.bar.timestamp.addSeconds_neg_eq_iff hseconds
  case within => exact (Session.contains_of_slot hslot).1
  case slot => exact hslot
  case createdAt => rfl
  case stored =>
    show ((Market.seriesOf _ _ e.bar.contract).bars e.timeframe)[
      ((Market.seriesOf _ _ e.bar.contract).bars e.timeframe).size]? = some e.bar
    rw [hcontract, bars_of_emitted (aligned_seriesOf_ofFeed _ feed _) he]
    exact Array.getElem?_push_size

end Market

end VolumeWatch
