import VolumeWatch.Proofs.Outcome.Earned

/-!
Foresight: a rule that looks further ahead, bears a deeper fall or is given later bars scores at
least as high, as its scan goes on where the other one has ended (`OutcomeRule.peak_le_peak`). This
is so wherever the end of the longer lookahead can be written.

Main statement: `OutcomeRule.foresight_mono`.
-/

namespace VolumeWatch

open Calendar (Instant)

/-- A weaker test goes on for longer, and so does a longer list. -/
theorem takeWhile_prefix_takeWhile {β : Type} {p q : β → Bool} (h : ∀ b, p b → q b)
    (l more : List β) : l.takeWhile p <+: (l ++ more).takeWhile q := by
  induction l with
  | nil => exact List.nil_prefix
  | cons b l ih =>
    cases hp : p b with
    | false =>
      rw [List.takeWhile_cons_of_neg (by simp [hp])]
      exact List.nil_prefix
    | true =>
      rw [List.takeWhile_cons_of_pos hp, List.cons_append, List.takeWhile_cons_of_pos (h b hp)]
      exact List.prefix_cons_inj b |>.mpr ih

section Scored

variable {α : Type} {reference stop later : Instant} {window : List (Bar α)}

/-- With a later horizon and more bars behind, the bars that are scored go on. -/
theorem scored_prefix_scored (hle : stop ≤ later) (hafter : ∃ b ∈ window, reference ≤ b.timestamp)
    (more : List (Bar α)) :
    scored reference stop window <+: scored reference later (window ++ more) := by
  obtain ⟨b, hb, hb'⟩ := hafter
  have hdrop : (window.dropWhile (·.timestamp < reference)).isEmpty = false := by
    rw [List.isEmpty_eq_false_iff]
    intro hnil
    have := List.dropWhile_eq_nil_iff.mp hnil b hb
    exact Instant.not_lt.mpr hb' (of_decide_eq_true this)
  unfold scored
  rw [List.dropWhile_append, if_neg (by simp [hdrop])]
  apply takeWhile_prefix_takeWhile
  intro c hc
  exact decide_eq_true (Int.lt_of_lt_of_le (of_decide_eq_true hc) hle)

/-- Nothing is scored up to a horizon that is not after the reference time. -/
theorem scored_eq_nil (hle : stop ≤ reference) (window : List (Bar α)) :
    scored reference stop window = [] := by
  unfold scored
  cases hdrop : window.dropWhile (·.timestamp < reference) with
  | nil => rfl
  | cons b rest =>
    have hb : ¬ b.timestamp < reference := by
      have := List.head?_dropWhile_not (fun c : Bar α => decide (c.timestamp < reference)) window
      simpa [hdrop] using this
    rw [List.takeWhile_cons_of_neg]
    simpa [Instant.not_lt] using Instant.le_trans hle (Instant.not_lt.mp hb)

end Scored

/-- One outcome is not better than another, in its move or in its class. -/
structure Outcome.AtMost (o o' : Outcome ℝ) : Prop where
  move : o.move ≤ o'.move
  winClass : Category.ordinal o.winClass ≤ Category.ordinal o'.winClass

namespace OutcomeRule

/-- The second rule sees at least as much of what comes as the first. -/
structure Farther (r r' : OutcomeRule ℝ) : Prop where
  lookahead : r.lookahead ≤ r'.lookahead
  stopLoss : r.stopLoss ≤ r'.stopLoss
  win : r'.win = r.win

/-- The seconds of the lookahead can be held as they are set, and the time at the end of them can be
written. -/
def Ends (r : OutcomeRule ℝ) (reference : Instant) : Prop :=
  (r.lookahead.seconds : Int) ≤ lookaheadBound ∧
    (reference.addSeconds? r.lookahead.seconds).isSome

variable {r r' : OutcomeRule ℝ} {price lowest highest : ℝ} {bars more : List (Bar ℝ)}

theorem le_peak (r : OutcomeRule ℝ) (price lowest highest : ℝ) (bars : List (Bar ℝ)) :
    highest ≤ r.peak price lowest highest bars := by
  induction bars generalizing lowest highest with
  | nil => exact le_rfl
  | cons b bars ih =>
    rw [peak_cons]
    split
    · exact le_rfl
    · exact le_sup_left.trans (ih _ _)

/-- The scan with the deeper stop, over more bars, reaches at least the same price. -/
theorem peak_le_peak (hstop : r.stopLoss ≤ r'.stopLoss) (hmore : bars <+: more) :
    r.peak price lowest highest bars ≤ r'.peak price lowest highest more := by
  induction bars generalizing lowest highest more with
  | nil => exact r'.le_peak price lowest highest more
  | cons b bars ih =>
    obtain ⟨rest, rfl⟩ := hmore
    rw [List.cons_append, peak_cons, peak_cons]
    by_cases hfalls : percentMove price (lowest ⊓ b.low) ≤ -r.stopLoss
    · rw [if_pos hfalls, ← peak_cons]
      exact r'.le_peak price lowest highest _
    · have hholds : ¬ percentMove price (lowest ⊓ b.low) ≤ -r'.stopLoss := fun hle =>
        hfalls (hle.trans (neg_le_neg hstop))
      rw [if_neg hfalls, if_neg hholds]
      exact ih (List.prefix_append bars rest)

/-- The scan does not look at the mark for wins. -/
theorem peak_win (r : OutcomeRule ℝ) (win price lowest highest : ℝ) (bars : List (Bar ℝ)) :
    ({ r with win } : OutcomeRule ℝ).peak price lowest highest bars =
      r.peak price lowest highest bars := by
  induction bars generalizing lowest highest with
  | nil => rfl
  | cons b bars ih => rw [peak_cons, peak_cons, ih]

/-- A greater move is judged to be at least as good. -/
theorem judge_atMost (hwin : r'.win = r.win) {p p' : ℝ} (h : p ≤ p') :
    (r.judge p).AtMost (r'.judge p') := by
  rw [judge_eq, judge_eq, hwin]
  constructor
  case move => split_ifs <;> dsimp only <;> linarith
  case winClass => split_ifs <;> dsimp only <;> first | decide | (exfalso; linarith)

/-- A higher mark for wins changes no move, and makes no class better. -/
theorem judge_of_win_le (h : r.win ≤ r'.win) (p : ℝ) :
    (r'.judge p).move = (r.judge p).move ∧
      Category.ordinal (r'.judge p).winClass ≤ Category.ordinal (r.judge p).winClass := by
  rw [judge_eq, judge_eq]
  constructor
  · split_ifs <;> rfl
  · split_ifs <;> dsimp only <;> first | decide | (exfalso; linarith)

theorem judge_of_nonpos (r : OutcomeRule ℝ) {p : ℝ} (h : p ≤ 0) : r.judge p = ⟨.loss, 0⟩ :=
  if_pos h

/-- Nothing else is as bad as a loss. -/
theorem judge_atMost_loss_iff (r : OutcomeRule ℝ) (p : ℝ) :
    (r.judge p).AtMost ⟨.loss, 0⟩ ↔ r.judge p = ⟨.loss, 0⟩ := by
  constructor
  · intro hle
    by_contra hne
    have hpos : ¬ p ≤ 0 := mt r.judge_of_nonpos hne
    have hmove : (r.judge p).move = p := by
      rw [judge_eq, if_neg hpos]
      split_ifs <;> rfl
    exact hpos (hmove ▸ hle.move)
  · intro heq
    rw [heq]
    exact ⟨le_rfl, le_rfl⟩

section Answers

variable {reference : Instant} {window : List (Bar ℝ)} {o : Outcome ℝ}

/-- What is scored has a price, a horizon and bars behind the reference time. -/
theorem score_of_evaluate?_eq_ok (h : r.evaluate? price reference window = some (.ok o)) :
    0 < price ∧ (∃ b ∈ window, reference ≤ b.timestamp) ∧
      ∃ stop, r.horizon? reference = some stop ∧
        o = r.score price (scored reference stop window) := by
  refine ⟨?_, exists_le_of_evaluate?_eq_ok h, evaluate?_eq_score h⟩
  by_contra hp
  rw [evaluate?_of_not_priced (mt priced_iff.mp hp)] at h
  simp at h

theorem horizon?_of_ends (h : r.Ends reference) :
    r.horizon? reference = some (reference.addSeconds r.lookahead.seconds) := by
  obtain ⟨hle, hsome⟩ := h
  obtain ⟨stop, hstop⟩ := Option.isSome_iff_exists.mp hsome
  rw [horizon?_of_le hle hstop, Instant.addSeconds?_eq_some hstop]

/-- Up to the bound of lookaheads, no shorter one has a later horizon. -/
theorem le_addSeconds_of_farther (hfar : r.Farther r') (hends : r'.Ends reference) {stop : Instant}
    (hstop : r.horizon? reference = some stop) :
    stop ≤ reference.addSeconds r'.lookahead.seconds := by
  have hbound := lookaheadBound_eq
  have hword := wordBound_eq
  have hle := Calendar.Duration.seconds_le hfar.lookahead
  have hle' := hends.1
  obtain ⟨d, hd, hadd⟩ := Option.bind_eq_some_iff.mp hstop
  have hself : d = r.lookahead.seconds := by
    have := lookahead?_eq_some_iff.mp hd
    omega
  rw [← Instant.addSeconds?_eq_some hadd]
  exact reference.addSeconds_mono (by omega) (by omega)

/-- A rule that sees farther, with more bars behind, scores at least as high if its lookahead ends
at a time that can be written. Any other lookahead scores a loss or nothing. Apart from that, a
higher mark for wins changes no move and makes no class better. -/
theorem foresight_mono (hfar : r.Farther r') (hword : r'.lookahead.seconds < wordBound)
    (h : r.evaluate? price reference window = some (.ok o)) :
    (∀ more, (∃ o', r'.evaluate? price reference (window ++ more) = some (.ok o') ∧
        o.AtMost o') ↔
      r'.Ends reference ∨ o = ⟨.loss, 0⟩ ∧ (r'.horizon? reference).isSome) ∧
    ∀ win, r.win ≤ win → ∃ o',
      ({ r with win } : OutcomeRule ℝ).evaluate? price reference window = some (.ok o') ∧
        o'.move = o.move ∧ Category.ordinal o'.winClass ≤ Category.ordinal o.winClass := by
  obtain ⟨hp, ⟨b, hb, hle⟩, stop, hstop, rfl⟩ := score_of_evaluate?_eq_ok h
  constructor
  · intro more
    have hlater : b ∈ window ++ more := List.mem_append_left more hb
    rw [evaluate?_of_mem (priced_iff.mpr hp) hlater hle]
    by_cases hends : r'.Ends reference
    · refine iff_of_true ⟨_, by rw [horizon?_of_ends hends]; rfl, ?_⟩ (Or.inl hends)
      have hlonger := le_addSeconds_of_farther hfar hends hstop
      have hscored := scored_prefix_scored hlonger ⟨b, hb, hle⟩ more
      apply judge_atMost hfar.win
      apply percentMove_mono hp
      exact peak_le_peak hfar.stopLoss hscored
    · cases hh : r'.horizon? reference with
      | none => simp [hends]
      | some stop' =>
        have hbefore : stop' < reference := horizon?_lt_of_not_held hword hends hh
        have hnothing : r'.score price (scored reference stop' (window ++ more)) = ⟨.loss, 0⟩ := by
          rw [scored_eq_nil (Int.le_of_lt hbefore), score, peak, percentMove_self,
            r'.judge_of_nonpos le_rfl]
        rw [Option.map_some, hnothing]
        simp [hends, ← judge_atMost_loss_iff, score]
  · intro win hwin
    have hstop' : ({ r with win } : OutcomeRule ℝ).horizon? reference = some stop := hstop
    refine ⟨_, by rw [evaluate?_of_mem (priced_iff.mpr hp) hb hle, hstop', Option.map_some], ?_⟩
    have hpeak := peak_win r win price price price (scored reference stop window)
    rw [score, hpeak]
    exact judge_of_win_le hwin _

end Answers

theorem evaluate?_swing :
    halfHour.evaluate? 10 sessionStart swing = some (.ok ⟨.partialWin, 20⟩) := by
  have hp : (0 : ℝ) < 10 := by norm_num
  have hends : sessionStart.addSeconds? halfHour.lookahead.seconds =
      some (.ofMillis (1710252000000 + 1800 * 1000)) := rfl
  rw [evaluate?_of_held hp inTime_swing exists_later_swing (by decide) hends]
  rw [(earned_iff_score hp thresholds_halfHour.1 thresholds_halfHour.2).mp earned_swing]

/-- Twice the lookahead, and a stop that `swing` does not fall to. -/
def patient : OutcomeRule ℝ := { halfHour with lookahead := .ofSeconds 3600, stopLoss := 50 }

theorem farther_patient : halfHour.Farther patient := by
  refine ⟨by decide, ?_, rfl⟩
  norm_num [halfHour, patient]

theorem foresight_mono_swing :
    ∃ o, patient.evaluate? 10 sessionStart (swing ++ [swingBar 1800 40 10]) = some (.ok o) ∧
      (⟨.partialWin, 20⟩ : Outcome ℝ).AtMost o := by
  have hends : patient.Ends sessionStart := ⟨by decide, by decide⟩
  apply ((foresight_mono farther_patient (by decide) evaluate?_swing).1 _).mpr
  exact Or.inl hends

/-- The greatest word of seconds scores a loss where half an hour scores a partial win. -/
theorem not_foresight_mono_word :
    ¬ ∀ (r r' : OutcomeRule ℝ) (price : ℝ) (reference : Instant) (window more : List (Bar ℝ))
      (o : Outcome ℝ), 0 < r.lookahead.inNanos → r.Farther r' →
      r'.lookahead.seconds < wordBound →
      InTime (window ++ more) → r.evaluate? price reference window = some (.ok o) →
      ∃ o', r'.evaluate? price reference (window ++ more) = some (.ok o') ∧ o.AtMost o' := by
  intro hall
  obtain ⟨o, ho, hle⟩ := hall halfHour { halfHour with lookahead := .ofSeconds 18446744073709551615 } 10
    sessionStart swing [] _ (by decide) ⟨by decide, le_rfl, rfl⟩ (by decide)
    (by rw [List.append_nil]; exact inTime_swing) evaluate?_swing
  rw [List.append_nil, evaluate?_of_not_held (by norm_num) inTime_swing exists_later_swing
    (by decide) (by decide)] at ho
  obtain ⟨stop, -, hloss⟩ := Option.map_eq_some_iff.mp ho
  obtain rfl := Except.ok.inj hloss
  have : (20 : ℝ) ≤ 0 := hle.move
  norm_num at this

end OutcomeRule

end VolumeWatch
