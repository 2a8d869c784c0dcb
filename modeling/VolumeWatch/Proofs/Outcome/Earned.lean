import VolumeWatch.Proofs.Outcome.Stretch
import VolumeWatch.Proofs.Scalar.Exact
import VolumeWatch.Proofs.Settings.Lookahead

/-!
Scores without rounding: what an alert earns is told from the lows of the single bars and from the
highest price up to the stop (`OutcomeRule.earned_iff_score`), although the scan compares the stop
with the lowest price so far. Scoring answers with it wherever the end of the lookahead can be
written (`OutcomeRule.evaluation_earned`).
-/

namespace VolumeWatch

open Calendar (Instant)

namespace OutcomeRule

/-- The bars before the first one whose own low has fallen to the stop. -/
noncomputable def untilStop (r : OutcomeRule ℝ) (price : ℝ) (bars : List (Bar ℝ)) :
    List (Bar ℝ) :=
  bars.takeWhile fun b => -r.stopLoss < percentMove price b.low

/-- The prices that are reached before the stop. -/
def reached (r : OutcomeRule ℝ) (price : ℝ) (bars : List (Bar ℝ)) : Set ℝ :=
  {x | x = price ∨ ∃ b ∈ r.untilStop price bars, b.high = x}

/-- What a best move of so many percent earns. -/
inductive Earns (win : ℝ) : ℝ → Outcome ℝ → Prop where
  | loss : Earns win 0 ⟨.loss, 0⟩
  | partialWin {p : ℝ} : 0 < p → p < win → Earns win p ⟨.partialWin, p⟩
  | win {p : ℝ} : win ≤ p → Earns win p ⟨.win, p⟩

def Earned (r : OutcomeRule ℝ) (price : ℝ) (bars : List (Bar ℝ)) (o : Outcome ℝ) : Prop :=
  ∃ peak, IsGreatest (r.reached price bars) peak ∧ Earns r.win (percentMove price peak) o

variable {r : OutcomeRule ℝ} {price : ℝ} {bars : List (Bar ℝ)}

theorem priced_iff : Priced price ↔ 0 < price := by
  show ¬ (false = true ∨ price ≤ 0) ↔ 0 < price
  simp

theorem percentMove_self (price : ℝ) : percentMove price price = 0 := by
  show (price - price) * ((100 : ℕ) : ℝ) / price = 0
  simp

theorem percentMove_mono (hp : 0 < price) : Monotone (percentMove price) := by
  intro x y hxy
  show (x - price) * ((100 : ℕ) : ℝ) / price ≤ (y - price) * ((100 : ℕ) : ℝ) / price
  gcongr

section Scan

variable {lowest highest : ℝ}

theorem peak_cons (r : OutcomeRule ℝ) (price lowest highest : ℝ) (b : Bar ℝ)
    (bars : List (Bar ℝ)) :
    r.peak price lowest highest (b :: bars) =
      if percentMove price (lowest ⊓ b.low) ≤ -r.stopLoss then highest
      else r.peak price (lowest ⊓ b.low) (highest ⊔ b.high) bars := by
  rw [peak, Scalar.min_eq_inf, Scalar.max_eq_sup]
  rfl

/-- As long as no bar has fallen to the stop, the lowest price falls to it with the next low. -/
theorem percentMove_inf_le_iff (hp : 0 < price) (hlow : -r.stopLoss < percentMove price lowest)
    (low : ℝ) : percentMove price (lowest ⊓ low) ≤ -r.stopLoss ↔
      ¬ -r.stopLoss < percentMove price low := by
  rw [(percentMove_mono hp).map_inf, inf_le_iff, or_iff_right (not_le.mpr hlow), not_lt]

theorem isGreatest_of_sup {s : Set ℝ} {x y m : ℝ} (h : IsGreatest {z | z = x ⊔ y ∨ z ∈ s} m) :
    IsGreatest {z | z = x ∨ z = y ∨ z ∈ s} m := by
  have hsup : x ⊔ y ≤ m := h.2 (Or.inl rfl)
  constructor
  · rcases h.1 with hm | hm
    · rcases max_choice x y with hx | hy
      · exact Or.inl (hm.trans hx)
      · exact Or.inr (Or.inl (hm.trans hy))
    · exact Or.inr (Or.inr hm)
  · rintro z (rfl | rfl | hz)
    · exact le_sup_left.trans hsup
    · exact le_sup_right.trans hsup
    · exact h.2 (Or.inr hz)

/-- The scan ends with the greatest of the highest price so far and the highs up to the stop. -/
theorem isGreatest_peak (hp : 0 < price) (hlow : -r.stopLoss < percentMove price lowest) :
    IsGreatest {x | x = highest ∨ ∃ b ∈ r.untilStop price bars, b.high = x}
      (r.peak price lowest highest bars) := by
  induction bars generalizing lowest highest with
  | nil => simp [peak, untilStop]
  | cons b bars ih =>
    have hstop := percentMove_inf_le_iff hp hlow b.low
    rw [peak_cons]
    by_cases hfalls : percentMove price (lowest ⊓ b.low) ≤ -r.stopLoss
    · rw [if_pos hfalls]
      have hnone : r.untilStop price (b :: bars) = [] :=
        List.takeWhile_cons_of_neg (by simpa using hstop.mp hfalls)
      simp [hnone]
    · rw [if_neg hfalls]
      have hgoes : r.untilStop price (b :: bars) = b :: r.untilStop price bars :=
        List.takeWhile_cons_of_pos (by simpa using mt hstop.mpr hfalls)
      have hset : {x | x = highest ∨ ∃ a ∈ r.untilStop price (b :: bars), a.high = x} =
          {x | x = highest ∨ x = b.high ∨ x ∈ {x | ∃ a ∈ r.untilStop price bars, a.high = x}} := by
        ext x
        simp [hgoes, eq_comm]
      rw [hset]
      exact isGreatest_of_sup (ih (not_le.mp hfalls))

end Scan

theorem judge_eq (r : OutcomeRule ℝ) (p : ℝ) :
    r.judge p = if p ≤ 0 then ⟨.loss, 0⟩ else if p < r.win then ⟨.partialWin, p⟩ else ⟨.win, p⟩ :=
  rfl

/-- A move that is not below zero earns what it is judged to be. -/
theorem earns_iff_judge (hwin : 0 < r.win) {p : ℝ} (hp : 0 ≤ p) {o : Outcome ℝ} :
    Earns r.win p o ↔ r.judge p = o := by
  constructor
  · rintro (_ | ⟨hpos, hlt⟩ | hle)
    · exact if_pos le_rfl
    · rw [judge_eq, if_neg (not_le.mpr hpos), if_pos hlt]
    · rw [judge_eq, if_neg (not_le.mpr (hwin.trans_le hle)), if_neg (not_lt.mpr hle)]
  · rintro rfl
    rw [judge_eq]
    rcases hp.eq_or_lt with rfl | hpos
    · rw [if_pos le_rfl]
      exact .loss
    · rw [if_neg (not_le.mpr hpos)]
      by_cases hlt : p < r.win
      · rw [if_pos hlt]
        exact .partialWin hpos hlt
      · rw [if_neg hlt]
        exact .win (not_lt.mp hlt)

/-- The score of bars is what they earn, and they earn nothing else. -/
theorem earned_iff_score (hp : 0 < price) (hstop : 0 < r.stopLoss) (hwin : 0 < r.win)
    {o : Outcome ℝ} : r.Earned price bars o ↔ r.score price bars = o := by
  have hgreatest : IsGreatest (r.reached price bars) (r.peak price price price bars) :=
    isGreatest_peak hp (by rw [percentMove_self]; linarith)
  have hmove : 0 ≤ percentMove price (r.peak price price price bars) := by
    rw [← percentMove_self price]
    exact percentMove_mono hp (hgreatest.2 (Or.inl rfl))
  rw [score, ← earns_iff_judge hwin hmove]
  constructor
  · rintro ⟨peak, hpeak, hearns⟩
    rwa [hgreatest.unique hpeak]
  · exact fun hearns => ⟨_, hgreatest, hearns⟩

section Answers

variable {reference horizon : Instant} {window : List (Bar ℝ)}

/-- Where bars follow the reference time, a lookahead that can be held and ends at a time that can
be written is the stretch that is scored. -/
theorem evaluate?_of_held (hp : 0 < price) (hw : InTime window)
    (hlater : ∃ b ∈ window, reference ≤ b.timestamp)
    (hheld : (r.lookahead.seconds : Int) ≤ lookaheadBound)
    (hends : reference.addSeconds? r.lookahead.seconds = some horizon) :
    r.evaluate? price reference window =
      some (.ok (r.score price (within reference horizon window))) := by
  obtain ⟨b, hb, hle⟩ := hlater
  rw [evaluate?_of_mem (priced_iff.mpr hp) hb hle, horizon?_of_le hheld hends, Option.map_some,
    scored_eq_within hw]

/-- Any other lookahead has no horizon, or one before the reference time. -/
theorem horizon?_lt_of_not_held (hword : r.lookahead.seconds < wordBound)
    (hnot : ¬ ((r.lookahead.seconds : Int) ≤ lookaheadBound ∧
      (reference.addSeconds? r.lookahead.seconds).isSome))
    (hh : r.horizon? reference = some horizon) : horizon < reference := by
  obtain ⟨d, hd, hadd⟩ := Option.bind_eq_some_iff.mp hh
  have hneg : d < 0 := by
    obtain ⟨rfl | rfl, -, hbound⟩ := lookahead?_eq_some_iff.mp hd
    · exact absurd ⟨hbound, by simp [hadd]⟩ hnot
    · omega
  exact horizon?_lt hd hneg hh

/-- Nothing is to be scored before such a horizon. -/
theorem evaluate?_of_not_held (hp : 0 < price) (hw : InTime window)
    (hlater : ∃ b ∈ window, reference ≤ b.timestamp) (hword : r.lookahead.seconds < wordBound)
    (hnot : ¬ ((r.lookahead.seconds : Int) ≤ lookaheadBound ∧
      (reference.addSeconds? r.lookahead.seconds).isSome)) :
    r.evaluate? price reference window = (r.horizon? reference).map fun _ => .ok ⟨.loss, 0⟩ := by
  obtain ⟨b, hb, hle⟩ := hlater
  rw [evaluate?_of_mem (priced_iff.mpr hp) hb hle]
  cases hh : r.horizon? reference with
  | none => rfl
  | some stop =>
    have hstop : stop < reference := horizon?_lt_of_not_held hword hnot hh
    have hnil : within reference stop window = [] := within_eq_nil_iff.mpr fun w _ hw =>
      Instant.le_trans (Int.le_of_lt hstop) hw
    rw [Option.map_some, Option.map_some, scored_eq_within hw, hnil, score, peak, percentMove_self,
      judge_eq, if_pos le_rfl]

/-- The answers of an evaluation. A price, a window or bars are refused for what they lack, in this
order, and otherwise the answer is what the bars from the reference time to the end of the whole
seconds of the lookahead earn, where that end can be written. -/
theorem evaluation_earned (hstop : 0 < r.stopLoss) (hwin : 0 < r.win) (hw : InTime window) :
    (r.evaluate? price reference window = some (.error (.invalidReferencePrice price)) ↔
      ¬ 0 < price) ∧
    (0 < price → (r.evaluate? price reference window = some (.error .emptyWindow) ↔
      window = [])) ∧
    (0 < price → window ≠ [] →
      (r.evaluate? price reference window = some (.error (.noBarsAfterReference reference)) ↔
        ¬ ∃ b ∈ window, reference ≤ b.timestamp)) ∧
    (0 < price → (∃ b ∈ window, reference ≤ b.timestamp) →
      (∀ horizon, (r.lookahead.seconds : Int) ≤ lookaheadBound →
        reference.addSeconds? r.lookahead.seconds = some horizon →
        (∃ o, r.evaluate? price reference window = some (.ok o) ∧
          ∀ o', r.Earned price (within reference horizon window) o' ↔ o = o') ∧
        (horizon = reference.add r.lookahead ↔ r.lookahead.IsWhole)) ∧
      (r.lookahead.seconds < wordBound →
        ¬ ((r.lookahead.seconds : Int) ≤ lookaheadBound ∧
          (reference.addSeconds? r.lookahead.seconds).isSome) →
        r.evaluate? price reference window =
          (r.horizon? reference).map fun _ => .ok ⟨.loss, 0⟩)) := by
  refine ⟨?price, fun hp => ?empty, fun hp hne => ?before, fun hp hlater => ⟨?held, ?notHeld⟩⟩
  case price =>
    by_cases hp : 0 < price
    · rcases r.evaluate?_cases (priced_iff.mpr hp) reference window with
        ⟨-, heq⟩ | ⟨-, -, heq⟩ | ⟨-, heq⟩ <;> simp [heq, hp]
    · simp [evaluate?_of_not_priced (mt priced_iff.mp hp), hp]
  case empty =>
    rcases r.evaluate?_cases (priced_iff.mpr hp) reference window with
      ⟨hnil, heq⟩ | ⟨hne, -, heq⟩ | ⟨⟨b, hb, -⟩, heq⟩
    · exact iff_of_true heq hnil
    · simp [heq, hne]
    · simp [heq, List.ne_nil_of_mem hb]
  case before =>
    rcases r.evaluate?_cases (priced_iff.mpr hp) reference window with
      ⟨hnil, -⟩ | ⟨-, hex, heq⟩ | ⟨hex, heq⟩
    · exact absurd hnil hne
    · simp [heq, hex]
    · simp [heq, hex]
  case held =>
    intro horizon hheld hends
    refine ⟨⟨_, evaluate?_of_held hp hw hlater hheld hends, fun o => ?_⟩, ?_⟩
    · exact earned_iff_score hp hstop hwin
    · rw [← Instant.addSeconds?_eq_some hends, Instant.addSeconds_eq_add_iff]
  case notHeld => exact evaluate?_of_not_held hp hw hlater

end Answers

/-- A bar of an option, some seconds into the session. -/
def swingBar (seconds : Int) (high low : ℝ) : Bar ℝ where
  contract := ⟨4500⟩
  timestamp := .ofMillis (1710252000000 + seconds * 1000)
  opening := 10
  high := high
  low := low
  close := 10
  volume := 1

/-- The price climbs by a fifth, falls by two fifths and doubles after that. -/
def swing : List (Bar ℝ) :=
  [swingBar (-5) 30 10, swingBar 0 12 9, swingBar 5 20 6, swingBar 10 20 10]

theorem inTime_swing : InTime swing := by
  unfold InTime swing
  decide

theorem exists_later_swing : ∃ b ∈ swing, sessionStart ≤ b.timestamp :=
  ⟨swingBar 0 12 9, by simp [swing], by decide⟩

def halfHour : OutcomeRule ℝ := ⟨.ofSeconds 1800, 30, 60⟩

theorem thresholds_halfHour : 0 < halfHour.stopLoss ∧ 0 < halfHour.win := by
  norm_num [halfHour]

/-- Only the bar before the fall counts. -/
theorem earned_swing :
    halfHour.Earned 10 (within sessionStart (.ofMillis (1710252000000 + 1800 * 1000)) swing)
      ⟨.partialWin, 20⟩ := by
  have hstretch : within sessionStart (.ofMillis (1710252000000 + 1800 * 1000)) swing =
      [swingBar 0 12 9, swingBar 5 20 6, swingBar 10 20 10] := rfl
  have huntil : halfHour.untilStop 10 [swingBar 0 12 9, swingBar 5 20 6, swingBar 10 20 10] =
      [swingBar 0 12 9] := by
    have hholds : percentMove 10 (swingBar 0 12 9).low = -10 := by
      show ((9 : ℝ) - 10) * ((100 : ℕ) : ℝ) / 10 = -10
      norm_num
    have hfalls : percentMove 10 (swingBar 5 20 6).low = -40 := by
      show ((6 : ℝ) - 10) * ((100 : ℕ) : ℝ) / 10 = -40
      norm_num
    unfold untilStop
    rw [List.takeWhile_cons_of_pos (by norm_num [halfHour, hholds]),
      List.takeWhile_cons_of_neg (by norm_num [halfHour, hfalls])]
  refine ⟨12, ⟨?_, ?_⟩, ?_⟩
  · refine Or.inr ⟨swingBar 0 12 9, ?_, rfl⟩
    rw [hstretch, huntil]
    exact List.mem_singleton_self _
  · rw [hstretch]
    rintro x (rfl | ⟨b, hb, rfl⟩)
    · norm_num
    · rw [huntil] at hb
      rw [List.mem_singleton.mp hb]
      exact le_rfl
  · have hmove : percentMove (10 : ℝ) 12 = 20 := by
      show ((12 : ℝ) - 10) * ((100 : ℕ) : ℝ) / 10 = 20
      norm_num
    rw [hmove]
    exact .partialWin (by norm_num) (by norm_num [halfHour])

theorem evaluation_earned_swing :
    halfHour.evaluate? 10 sessionStart swing = some (.ok ⟨.partialWin, 20⟩) := by
  have hp : (0 : ℝ) < 10 := by norm_num
  obtain ⟨-, -, -, hlater⟩ :=
    evaluation_earned thresholds_halfHour.1 thresholds_halfHour.2 inTime_swing
  obtain ⟨⟨o, ho, hearned⟩, -⟩ := (hlater hp exists_later_swing).1 _ (by decide) rfl
  rw [ho, (hearned _).mp earned_swing]

/-- The first lookahead that cannot be held. -/
def unheld : OutcomeRule ℝ := { halfHour with lookahead := .ofSeconds 9223372036854776 }

theorem lookahead?_unheld : unheld.lookahead? = none :=
  (lookahead?_eq_none_iff (by decide)).mpr (by decide)

/-- Bars that earn something go without an answer where the lookahead cannot be held. -/
theorem not_evaluation_earned_unheld :
    ¬ ∀ (r : OutcomeRule ℝ) (price : ℝ) (reference : Instant) (window : List (Bar ℝ)),
      0 < r.lookahead.inNanos → r.lookahead.seconds < wordBound → 0 < r.stopLoss → 0 < r.win →
      0 < price → InTime window → (∃ b ∈ window, reference ≤ b.timestamp) →
      ∃ o, r.evaluate? price reference window = some (.ok o) ∧
        r.Earned price (within reference (reference.add r.lookahead) window) o := by
  intro hall
  have hp : (0 : ℝ) < 10 := by norm_num
  obtain ⟨o, ho, -⟩ := hall unheld 10 sessionStart swing (by decide) (by decide)
    thresholds_halfHour.1 thresholds_halfHour.2 hp inTime_swing exists_later_swing
  rw [evaluate?_of_not_held hp inTime_swing exists_later_swing (by decide) (by decide), horizon?,
    lookahead?_unheld] at ho
  simp at ho

end OutcomeRule

end VolumeWatch
