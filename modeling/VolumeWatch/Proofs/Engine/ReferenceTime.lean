import VolumeWatch.Proofs.Engine.Feeding

/-!
Reference times: an alert is scored on the bars that start at its reference time or later, the start
of its bar and the length of the timeframe after that. The bars that its bar was folded from all
start before, exactly if the last of them does; where bars are missing it may start later, and the
alert is scored on it.
-/

namespace VolumeWatch

open Calendar (Instant)

variable {α : Type}

/-- Bars in time order, no two at the same time. -/
def StrictTime (bars : List (Bar α)) : Prop := bars.Pairwise fun a b => a.timestamp < b.timestamp

instance (bars : List (Bar α)) : Decidable (StrictTime bars) :=
  inferInstanceAs (Decidable (List.Pairwise _ _))

theorem StrictTime.inTime {bars : List (Bar α)} (h : StrictTime bars) : InTime bars :=
  h.imp fun hab => Int.le_of_lt hab

/-- The bars of a window that an alert is scored on. -/
def scored (reference stop : Instant) (window : List (Bar α)) : List (Bar α) :=
  (window.dropWhile (·.timestamp < reference)).takeWhile (·.timestamp < stop)

theorem scored_eq_within {reference stop : Instant} {window : List (Bar α)} (h : InTime window) :
    scored reference stop window = within reference stop window := by
  have hlater : InTime (window.filter fun b => !decide (b.timestamp < reference)) := h.filter _
  unfold scored within
  rw [(h.cut reference).dropWhile_eq_filter, (hlater.cut stop).takeWhile_eq_filter,
    List.filter_filter]
  apply List.filter_congr
  intro b _
  simp [← Instant.not_lt, Bool.and_comm]

theorem mem_scored {reference stop : Instant} {window : List (Bar α)} (h : InTime window)
    {w : Bar α} :
    w ∈ scored reference stop window ↔
      w ∈ window ∧ reference ≤ w.timestamp ∧ w.timestamp < stop := by
  rw [scored_eq_within h, mem_within]

/-- Going back by seconds gives an earlier instant. -/
theorem Calendar.Instant.addSeconds_lt (t : Instant) {d : Int} (h : d < 0) :
    t.addSeconds d < t := by
  have := t.nanos_lt
  rw [lt_iff, addSeconds]
  split <;> simp only [key] at * <;> omega

theorem Alert.barTime_lt_reference (a : Alert α) : a.barTime < a.reference := by
  have := a.timeframe.seconds_pos
  exact Instant.addSeconds_lt _ (by omega)

variable [Scalar α]

/-- An outcome is the score of these bars. -/
theorem OutcomeRule.evaluate?_eq_score {r : OutcomeRule α} {price : α} {reference : Instant}
    {window : List (Bar α)} {o : Outcome α}
    (h : r.evaluate? price reference window = some (.ok o)) :
    ∃ stop, r.horizon? reference = some stop ∧ o = r.score price (scored reference stop window) := by
  unfold evaluate? at h
  split at h
  · simp at h
  · split at h
    · simp at h
    · simp at h
    · obtain ⟨stop, hstop, ho⟩ := Option.map_eq_some_iff.mp h
      refine ⟨stop, hstop, ?_⟩
      exact (Except.ok.inj ho).symm

/-- Where an alert stands among the bars of its contract: its bar is folded from the flagged ones. -/
structure Origin (bars : List (Bar α)) (a : Alert α) (earlier flagged later : List (Bar α)) :
    Prop where
  bars : bars = earlier ++ flagged ++ later
  length : flagged.length = a.timeframe.parts
  made : ∃ bar strike tags, bar.MadeOf flagged ∧ a = .ofBar a.timeframe bar strike tags a.createdAt

namespace Origin

variable {bars earlier flagged later : List (Bar α)} {a : Alert α}

/-- The reference time is told from the first of the flagged bars. -/
theorem ends (h : Origin bars a earlier flagged later) :
    ∃ first last, flagged.head? = some first ∧ flagged.getLast? = some last ∧
      a.reference = first.timestamp.addSeconds a.timeframe.seconds := by
  obtain ⟨bar, strike, tags, hmade, ha⟩ := h.made
  obtain ⟨first, hfirst, -, htime, -⟩ := hmade.spans.first
  obtain ⟨last, hlast, -⟩ := hmade.spans.last
  refine ⟨first, last, hfirst, hlast, ?_⟩
  rw [ha, ← htime]
  rfl

theorem strictTime (h : Origin bars a earlier flagged later) (hbars : StrictTime bars) :
    StrictTime flagged := by
  rw [h.bars] at hbars
  exact (List.pairwise_append.mp (List.pairwise_append.mp hbars).1).2.1

theorem le_last (h : Origin bars a earlier flagged later) (hbars : StrictTime bars)
    {last w : Bar α} (hlast : flagged.getLast? = some last) (hw : w ∈ flagged) :
    w.timestamp ≤ last.timestamp := by
  obtain ⟨front, rfl⟩ := List.getLast?_eq_some_iff.mp hlast
  rcases List.mem_append.mp hw with hw | hw
  · exact Int.le_of_lt ((List.pairwise_append.mp (h.strictTime hbars)).2.2 w hw last
      (List.mem_singleton_self last))
  · rw [List.mem_singleton.mp hw]
    exact Instant.le_refl _

theorem before_iff (h : Origin bars a earlier flagged later) (hbars : StrictTime bars)
    {last : Bar α} (hlast : flagged.getLast? = some last) :
    (∀ w ∈ flagged, w.timestamp < a.reference) ↔ last.timestamp < a.reference := by
  refine ⟨fun hall => hall last (List.mem_of_getLast? hlast), fun hlt w hw => ?_⟩
  exact Int.lt_of_le_of_lt (h.le_last hbars hlast hw) hlt

/-- A flagged bar is scored, with some horizon, exactly if it does not start before the reference
time. -/
theorem unscored_iff (h : Origin bars a earlier flagged later) (hbars : StrictTime bars) :
    (∀ w ∈ flagged, ∀ stop, w ∉ scored a.reference stop (within a.barTime stop bars)) ↔
      ∀ w ∈ flagged, w.timestamp < a.reference := by
  have hwindow (stop : Instant) : InTime (within a.barTime stop bars) := hbars.inTime.filter _
  constructor
  · intro hnot w hw
    by_contra hlate
    rw [Instant.not_lt] at hlate
    have hstart : a.barTime ≤ w.timestamp :=
      Instant.le_trans (Int.le_of_lt a.barTime_lt_reference) hlate
    -- a horizon one second after the bar is enough
    have hstop : w.timestamp < w.timestamp.addSeconds 1 := Instant.lt_addSeconds _ (by decide)
    refine hnot w hw (w.timestamp.addSeconds 1) ((mem_scored (hwindow _)).mpr ⟨?_, hlate, hstop⟩)
    refine List.mem_filter.mpr ⟨?_, by simp [hstart, hstop]⟩
    rw [h.bars]
    exact List.mem_append_left _ (List.mem_append_right _ hw)
  · intro hall w hw stop hmem
    obtain ⟨-, hlate, -⟩ := (mem_scored (hwindow stop)).mp hmem
    exact Instant.not_lt.mpr hlate (hall w hw)

end Origin

namespace Engine

theorem Fed.origin {e : Engine α} {fed : List (Bar α)} (h : Fed e fed) {a : Alert α}
    (ha : a ∈ e.desk.alerts) :
    ∃ earlier flagged later, Origin (own a.contract fed) a earlier flagged later := by
  obtain ⟨before, b, after, rfl, hflagged⟩ := h.flagged a ha
  have hown : own a.contract (before ++ b :: after) =
      own a.contract (before ++ [b]) ++ own a.contract after := by
    rw [← own_append]
    simp
  obtain ⟨hcontract, hwhole, hmade⟩ := hflagged
  rw [← hcontract] at hwhole hmade
  refine ⟨(own a.contract (before ++ [b])).take
    ((own a.contract (before ++ [b])).length - a.timeframe.parts), _, own a.contract after, ?_, ?_,
    hmade⟩
  · rw [List.take_append_drop, hown]
  · have hpos : 0 < (own a.contract (before ++ [b])).length := by
      rw [own_append, hcontract, own_singleton]
      simp
    rw [List.length_drop, Nat.sub_sub_self (Nat.le_of_dvd hpos hwhole)]

/-- The bars that an alert was made of start before its reference time, and are never scored, exactly
if the last of them starts within the length of the timeframe from the first. -/
theorem flagged_before_reference_iff {s : Settings α} {audience : Audience α} {e : Engine α}
    (he : ofSettings? s audience = some e) {ts : List (Turn α)} {a : Alert α}
    (ha : a ∈ (e.turns ts).desk.alerts) (hfeed : StrictTime (own a.contract (feed ts))) :
    ∃ earlier flagged later first last,
      Origin (own a.contract (feed ts)) a earlier flagged later ∧
      flagged.head? = some first ∧ flagged.getLast? = some last ∧
      ((∀ w ∈ flagged, w.timestamp < a.reference) ↔
        last.timestamp < first.timestamp.addSeconds a.timeframe.seconds) ∧
      ((∀ w ∈ flagged, ∀ stop,
          w ∉ scored a.reference stop (within a.barTime stop (own a.contract (feed ts)))) ↔
        last.timestamp < first.timestamp.addSeconds a.timeframe.seconds) ∧
      (a.timeframe = .s5 → last.timestamp < first.timestamp.addSeconds a.timeframe.seconds) ∧
      ∀ (r : OutcomeRule α) stop o,
        r.evaluate? a.price a.reference (within a.barTime stop (own a.contract (feed ts))) =
            some (.ok o) →
          ∃ horizon, r.horizon? a.reference = some horizon ∧
            o = r.score a.price (scored a.reference horizon
              (within a.barTime stop (own a.contract (feed ts)))) := by
  obtain ⟨earlier, flagged, later, ho⟩ := ((Fed.initial he).turns ts).origin ha
  rw [List.nil_append] at ho
  obtain ⟨first, last, hfirst, hlast, href⟩ := ho.ends
  have hiff : (∀ w ∈ flagged, w.timestamp < a.reference) ↔
      last.timestamp < first.timestamp.addSeconds a.timeframe.seconds := by
    rw [ho.before_iff hfeed hlast, href]
  refine ⟨earlier, flagged, later, first, last, ho, hfirst, hlast, hiff,
    (ho.unscored_iff hfeed).trans hiff, fun h5 => ?_, fun r stop o h => r.evaluate?_eq_score h⟩
  -- a bar of five seconds is the only one of its stretch
  have hlength := ho.length
  rw [h5] at hlength
  obtain ⟨b, rfl⟩ := List.length_eq_one_iff.mp hlength
  obtain rfl : b = first := Option.some.inj hfirst
  obtain rfl : b = last := Option.some.inj hlast
  rw [h5]
  exact Instant.lt_addSeconds _ (by decide)

/-- A bar of the underlying and sixty bars of an option. The last six have a large volume, and
minutes are missing before the very last. -/
def gapFeed : List (Bar Float) :=
  flatBar 0 0 1 :: (List.range 60).map fun i =>
    flatBar 4500 (if i = 59 then 900 else 5 * i)
      (if 54 ≤ i then 100 else if i % 2 = 0 then 1 else 2)

/-- The run of the standard settings on these bars. -/
def gapRun : Engine Float :=
  (initial Settings.standard (.content false)).turns (gapFeed.map .submit)

theorem ofSettings?_standard :
    ofSettings? (Settings.standard : Settings Float) (.content false) =
      some (initial .standard (.content false)) := rfl

/-- The option has an alert of thirty seconds with the nominal end of the last stretch. -/
theorem exists_alert_gapRun : ∃ a ∈ gapRun.desk.alerts, a.contract = ⟨4500⟩ ∧
    a.timeframe = .s30 ∧ a.reference = (flatBar 4500 300 0).timestamp := by
  decide +kernel

theorem strictTime_gapFeed : StrictTime (own ⟨4500⟩ gapFeed) := by
  decide +kernel

theorem feed_gapFeed : feed (gapFeed.map .submit) = gapFeed := by
  unfold feed
  rw [List.filterMap_map]
  exact List.filterMap_some

theorem flagged_before_reference_iff_gapRun :
    ∃ a ∈ gapRun.desk.alerts, StrictTime (own a.contract gapFeed) ∧
      ∃ earlier flagged later first last,
        Origin (own a.contract gapFeed) a earlier flagged later ∧
        flagged.head? = some first ∧ flagged.getLast? = some last ∧
        ((∀ w ∈ flagged, w.timestamp < a.reference) ↔
          last.timestamp < first.timestamp.addSeconds a.timeframe.seconds) := by
  obtain ⟨a, ha, hcontract, -⟩ := exists_alert_gapRun
  have hfeed : StrictTime (own a.contract (feed (gapFeed.map .submit))) := by
    rw [feed_gapFeed, hcontract]
    exact strictTime_gapFeed
  obtain ⟨earlier, flagged, later, first, last, ho, hfirst, hlast, hiff, -⟩ :=
    flagged_before_reference_iff ofSettings?_standard ha hfeed
  rw [feed_gapFeed] at hfeed ho
  exact ⟨a, ha, hfeed, earlier, flagged, later, first, last, ho, hfirst, hlast, hiff⟩

/-- Thirty seconds before the nominal end of the last stretch starts none but its first bar, and the
last bar comes later than that end. -/
theorem gapFeed_late (i : Nat) (hi : i < 60) :
    ((own ⟨4500⟩ gapFeed)[i]?.any fun b =>
        b.timestamp.addSeconds 30 = (flatBar 4500 300 0).timestamp) →
      (own ⟨4500⟩ gapFeed)[i + 5]?.any fun b => (flatBar 4500 300 0).timestamp ≤ b.timestamp := by
  revert i
  decide +kernel

/-- The reference time of an alert of thirty seconds comes ten minutes before the last bar that it
was made of. -/
theorem flagged_not_before_reference_gapRun :
    ¬ ∀ a ∈ gapRun.desk.alerts, StrictTime (own a.contract gapFeed) →
      ∀ earlier flagged later, Origin (own a.contract gapFeed) a earlier flagged later →
        ∀ w ∈ flagged, w.timestamp < a.reference := by
  intro hall
  obtain ⟨a, ha, hcontract, h30, href⟩ := exists_alert_gapRun
  have hfed := (Fed.initial ofSettings?_standard).turns (gapFeed.map .submit)
  obtain ⟨earlier, flagged, later, ho⟩ := hfed.origin ha
  rw [List.nil_append, feed_gapFeed] at ho
  have hbefore := hall a ha (hcontract ▸ strictTime_gapFeed) earlier flagged later ho
  obtain ⟨first, -, hfirst, -, hreference⟩ := ho.ends
  have hlength : flagged.length = 6 := by
    rw [ho.length, h30]
    rfl
  have hbars := ho.bars
  rw [hcontract] at hbars
  have hnominal : first.timestamp.addSeconds 30 = (flatBar 4500 300 0).timestamp := by
    rw [← href, hreference, h30]
    rfl
  have hat (j : Nat) (hj : j < flagged.length) :
      (own ⟨4500⟩ gapFeed)[earlier.length + j]? = flagged[j]? := by
    rw [hbars, List.append_assoc, List.getElem?_append_right (by omega), Nat.add_sub_cancel_left,
      List.getElem?_append_left hj]
  have htotal : (own ⟨4500⟩ gapFeed).length = 60 := by decide
  rw [hbars, List.length_append, List.length_append, hlength] at htotal
  have hfirst' : (own ⟨4500⟩ gapFeed)[earlier.length]? = some first := by
    rw [← hfirst, List.head?_eq_getElem?]
    exact hat 0 (by omega)
  have hlate := gapFeed_late earlier.length (by omega) (by simp [hfirst', hnominal])
  rw [hat 5 (by omega)] at hlate
  obtain ⟨last, hlast, hle⟩ := (Option.any_eq_true _ _).mp hlate
  have hlt := hbefore last (List.mem_of_getElem? hlast)
  rw [href] at hlt
  exact Instant.not_lt.mpr (of_decide_eq_true hle) hlt

end Engine

end VolumeWatch
