import VolumeWatch.Command.Zones
import VolumeWatch.Proofs.Engine.ReferenceTime
import VolumeWatch.Settings.Variables

/-!
Lookaheads of valid settings: which of them can be used (`Settings.usable_lookahead_iff`).

Validation refuses a lookahead of zero only. Its seconds are then read as a signed word, without the
part of a second behind them, so that whole seconds up to `OutcomeRule.lookaheadBound` stay as they
are, those that close to the end of the words become negative, and no other can be held.
-/

namespace VolumeWatch

open Calendar (Duration Instant Zones)

theorem Calendar.Instant.addSeconds?_eq_some {t u : Instant} {d : Int}
    (h : t.addSeconds? d = some u) : t.addSeconds d = u := by
  simp only [addSeconds?] at h
  split at h
  · exact Option.some.inj h
  · cases h

theorem Reading.nat?_lt {bound n : Nat} {cs : List Char} (h : nat? bound cs = some n) :
    n < bound := by
  obtain ⟨m, -, hm⟩ := Option.bind_eq_some_iff.mp h
  split at hm
  · rename_i hlt
    obtain rfl := Option.some.inj hm
    exact hlt
  · cases hm

namespace OutcomeRule

section Words

variable {α : Type} {r : OutcomeRule α}

theorem wordBound_eq : (wordBound : Int) = 18446744073709551616 := rfl

theorem lookaheadBound_eq : lookaheadBound = 9223372036854775 := rfl

/-- A lookahead stands for its whole seconds or for those less the number of words, whichever can be
held. -/
theorem lookahead?_eq_some_iff {d : Int} :
    r.lookahead? = some d ↔
      (d = r.lookahead.seconds ∨ d = r.lookahead.seconds - wordBound) ∧ -lookaheadBound ≤ d ∧
        d ≤ lookaheadBound := by
  have hhalf : Nat.pow 2 63 = 9223372036854775808 := rfl
  have hword : ((Nat.pow 2 64 : Nat) : Int) = 18446744073709551616 := rfl
  simp only [lookahead?, lookaheadBound, Option.ite_none_right_eq_some, Option.some.injEq,
    wordBound_eq]
  by_cases hlow : r.lookahead.seconds < Nat.pow 2 63
  · rw [if_pos hlow]
    omega
  · rw [if_neg hlow]
    omega

theorem lookahead?_eq_none_iff (h : r.lookahead.seconds < wordBound) :
    r.lookahead? = none ↔
      lookaheadBound < r.lookahead.seconds ∧
        r.lookahead.seconds < wordBound - lookaheadBound := by
  rw [Option.eq_none_iff_forall_ne_some]
  have hword := wordBound_eq
  have hbound := lookaheadBound_eq
  constructor
  · intro hnone
    have hself := hnone r.lookahead.seconds
    have hless := hnone (r.lookahead.seconds - wordBound)
    rw [ne_eq, lookahead?_eq_some_iff] at hself hless
    omega
  · intro hrange d hd
    have := lookahead?_eq_some_iff.mp hd
    omega

theorem lookahead?_eq_neg_iff (h : r.lookahead.seconds < wordBound) :
    (∃ d, r.lookahead? = some d ∧ d < 0) ↔
      wordBound - lookaheadBound ≤ (r.lookahead.seconds : Int) := by
  have hword := wordBound_eq
  have hbound := lookaheadBound_eq
  constructor
  · rintro ⟨d, hd, hneg⟩
    have := lookahead?_eq_some_iff.mp hd
    omega
  · intro hle
    refine ⟨r.lookahead.seconds - wordBound, lookahead?_eq_some_iff.mpr ?_, ?_⟩ <;> omega

/-- A part of a second alone is dropped. -/
theorem lookahead?_eq_zero_iff (h : r.lookahead.seconds < wordBound) :
    r.lookahead? = some 0 ↔ r.lookahead.seconds = 0 := by
  have hword := wordBound_eq
  have hbound := lookaheadBound_eq
  rw [lookahead?_eq_some_iff]
  omega

/-- Up to the bound of lookaheads, the seconds of one are held as they are set. -/
theorem lookahead?_of_le (hle : (r.lookahead.seconds : Int) ≤ lookaheadBound) :
    r.lookahead? = some (r.lookahead.seconds : Int) := by
  have hbound := lookaheadBound_eq
  exact lookahead?_eq_some_iff.mpr ⟨.inl rfl, by omega, hle⟩

theorem horizon?_of_le (hle : (r.lookahead.seconds : Int) ≤ lookaheadBound) {t h : Instant}
    (hadd : t.addSeconds? r.lookahead.seconds = some h) : r.horizon? t = some h := by
  rw [horizon?, lookahead?_of_le hle, Option.bind_some, hadd]

/-- A negative lookahead puts the horizon before the reference time. -/
theorem horizon?_lt {d : Int} (hd : r.lookahead? = some d) (hneg : d < 0) {t h : Instant}
    (hh : r.horizon? t = some h) : h < t := by
  rw [horizon?, hd, Option.bind_some] at hh
  rw [← Instant.addSeconds?_eq_some hh]
  exact t.addSeconds_lt hneg

/-- A horizon is reached by the whole seconds that are set, or lies before the reference time. -/
theorem horizon?_cases (hword : r.lookahead.seconds < wordBound) {t h : Instant}
    (hh : r.horizon? t = some h) :
    ((r.lookahead.seconds : Int) ≤ lookaheadBound ∧ h = t.addSeconds r.lookahead.seconds) ∨
      (lookaheadBound < r.lookahead.seconds ∧ h < t) := by
  obtain ⟨d, hd, hadd⟩ := Option.bind_eq_some_iff.mp hh
  have hwords := wordBound_eq
  have hbound := lookaheadBound_eq
  obtain ⟨rfl | hless, hlow, hle⟩ := lookahead?_eq_some_iff.mp hd
  · exact Or.inl ⟨hle, (Instant.addSeconds?_eq_some hadd).symm⟩
  · exact Or.inr ⟨by omega, horizon?_lt hd (by omega) hh⟩

theorem seconds_lt_of_le (hle : (r.lookahead.seconds : Int) ≤ lookaheadBound) :
    r.lookahead.seconds < wordBound := by
  have hwords := wordBound_eq
  have hbound := lookaheadBound_eq
  omega

/-- Up to the bound of lookaheads, no horizon lies before the reference time. -/
theorem le_horizon? (hle : (r.lookahead.seconds : Int) ≤ lookaheadBound) {t h : Instant}
    (hh : r.horizon? t = some h) : t ≤ h := by
  rcases horizon?_cases (seconds_lt_of_le hle) hh with ⟨-, rfl⟩ | ⟨hlong, -⟩
  · exact Instant.le_addSeconds _ (Int.natCast_nonneg _)
  · exact absurd hle (Int.not_le.mpr hlong)

/-- No horizon lies behind the end of the lookahead that is set, and only whole seconds that can be
held reach that end. -/
theorem horizon?_le_add (hword : r.lookahead.seconds < wordBound) {t h : Instant}
    (hh : r.horizon? t = some h) :
    h ≤ t.add r.lookahead ∧
      (h = t.add r.lookahead ↔
        r.lookahead.IsWhole ∧ (r.lookahead.seconds : Int) ≤ lookaheadBound) := by
  rcases horizon?_cases hword hh with ⟨hle, rfl⟩ | ⟨hlong, hlt⟩
  · exact ⟨t.addSeconds_le_add _, by rw [Instant.addSeconds_eq_add_iff, and_iff_left hle]⟩
  · have hbefore : h < t.add r.lookahead := Int.lt_of_lt_of_le hlt (t.le_add _)
    refine ⟨Int.le_of_lt hbefore, iff_of_false (fun heq => ?_) fun h => ?_⟩
    · exact Int.ne_of_lt hbefore (congrArg Instant.key heq)
    · exact Int.not_le.mpr hlong h.2

end Words

variable {α : Type} [Scalar α] {r : OutcomeRule α}

/-- The lookahead is held as it is set. Wherever the time that much after a reference time can be
written, it is later, and it is the horizon that alerts are looked at and scored with. -/
structure Usable (r : OutcomeRule α) : Prop where
  whole : r.lookahead.IsWhole
  held : r.lookahead? = some (r.lookahead.seconds : Int)
  positive : 0 < r.lookahead.seconds
  later : ∀ {t h : Instant}, t.addSeconds? r.lookahead.seconds = some h →
    r.horizon? t = some h ∧ h = t.add r.lookahead ∧ t < h
  ripe : ∀ {e : Engine α} {a : Alert α} {h : Instant}, e.rule = r → e.maturity = .marketTime →
    a.reference.addSeconds? r.lookahead.seconds = some h →
    e.isRipe? a = some (e.desk.market.clock.any (h ≤ ·))
  score : ∀ {d : Desk α} {a : Alert α} {h : Instant},
    a.reference.addSeconds? r.lookahead.seconds = some h →
    (d.score? r a).isSome ∧ ∀ o, d.score? r a = some (.ok o) →
      ∃ window, d.market.window a.contract a.barTime h = .ok window ∧
        o = r.score a.price (scored a.reference h window)

theorem usable_iff (hpos : 0 < r.lookahead.inNanos) :
    r.Usable ↔ r.lookahead.IsWhole ∧ (r.lookahead.seconds : Int) ≤ lookaheadBound := by
  constructor
  · intro hu
    exact ⟨hu.whole, (lookahead?_eq_some_iff.mp hu.held).2.2⟩
  · rintro ⟨hwhole, hle⟩
    have hseconds : 0 < r.lookahead.seconds := by
      unfold Duration.IsWhole at hwhole
      unfold Duration.inNanos at hpos
      omega
    refine ⟨hwhole, lookahead?_of_le hle, hseconds,
      fun hadd => ⟨horizon?_of_le hle hadd, ?reached, ?later⟩, ?ripe, ?score⟩
    case reached => rw [Instant.add_of_whole hwhole, Instant.addSeconds?_eq_some hadd]
    case later =>
      rw [← Instant.addSeconds?_eq_some hadd]
      exact Instant.lt_addSeconds _ (by omega)
    case ripe =>
      intro e a h he hm hadd
      simp only [Engine.isRipe?, hm, he, horizon?_of_le hle hadd, Option.map_some]
    case score =>
      intro d a h hadd
      refine ⟨Option.isSome_iff_ne_none.mpr fun hnone => ?_, fun o ho => ?_⟩
      · have := d.horizon?_of_score?_eq_none hnone
        rw [horizon?_of_le hle hadd] at this
        cases this
      · simp only [Desk.score?, horizon?_of_le hle hadd, Option.bind_some] at ho
        split at ho
        · simp at ho
        · rename_i window hwindow
          obtain ⟨stop, hstop, rfl⟩ := evaluate?_eq_score ho
          obtain rfl : h = stop := Option.some.inj ((horizon?_of_le hle hadd).symm.trans hstop)
          exact ⟨window, hwindow, rfl⟩

end OutcomeRule

namespace Settings

section

variable {α : Type} [Scalar α]

/-- Settings that validation accepts, with a lookahead whose seconds are one word. -/
structure Accepted (s : Settings α) : Prop where
  valid : s.validate = .ok s
  word : s.rule.lookahead.seconds < wordBound

theorem validate_eq_ok_iff {s u : Settings α} : s.validate = .ok u ↔ s.fault? = none ∧ s = u := by
  unfold validate
  cases s.fault? with
  | none => simp
  | some fault => simp

theorem Accepted.lookahead_pos {s : Settings α} (h : s.Accepted) :
    0 < s.rule.lookahead.inNanos := by
  have hc := Engine.conditions_of_fault?_eq_none (validate_eq_ok_iff.mp h.valid).1
  have hne : s.rule.lookahead ≠ .ofSeconds 0 := by
    simpa using hc (s.rule.lookahead != .ofSeconds 0, .zeroLookahead) (by simp [conditions])
  exact Duration.ne_zero_iff.mp hne

end

/-- Numbers of variables are below the bound that they are read with. -/
theorem readOr_lt {vars : Variables} {name : String} {bound default : Nat} (h : default < bound) :
    readOr (Reading.nat? bound) vars name default < bound := by
  unfold readOr
  cases hread : (vars name).bind fun text => Reading.nat? bound (Text.trim text.toList) with
  | none => exact h
  | some n =>
    obtain ⟨text, -, hn⟩ := Option.bind_eq_some_iff.mp hread
    exact Reading.nat?_lt hn

/-- Settings from variables are overlaid ones that validation has accepted. -/
theorem exists_overlay {zones : Zones} {vars : Variables} {s : Settings Float}
    (h : ofVariables zones vars = .ok s) :
    ∃ session maturity, (overlay vars session maturity).validate = .ok s := by
  unfold ofVariables at h
  cases hsession : sessionOf zones vars with
  | error fault => simp [hsession, Except.mapError, bind, Except.bind] at h
  | ok session =>
    cases hmaturity : (maturityOf vars : Except (SettingsFault Float) Maturity) with
    | error fault => simp [hsession, hmaturity, Except.mapError, bind, Except.bind] at h
    | ok maturity =>
      exact ⟨session, maturity, by
        simpa [hsession, hmaturity, Except.mapError, bind, Except.bind] using h⟩

theorem lookahead_of_ofVariables {zones : Zones} {vars : Variables} {s : Settings Float}
    (h : ofVariables zones vars = .ok s) :
    s.Accepted ∧ s.rule.lookahead = .ofSeconds (wordOr vars "FLOW_LOOKAHEAD_SECS" 1800) := by
  obtain ⟨session, maturity, hs⟩ := exists_overlay h
  obtain ⟨hfault, rfl⟩ := validate_eq_ok_iff.mp hs
  exact ⟨⟨hs, readOr_lt (by decide)⟩, rfl⟩

/-- Variables give accepted settings with the lookahead that they name. The lookahead of accepted
settings can be used exactly if it is of whole seconds, up to the bound of lookaheads. Above it, it
cannot be held or, among the last words, is negative, with every horizon before its reference time.
A part of a second is dropped, so that every horizon lies before the end of the lookahead. -/
theorem usable_lookahead_iff {α : Type} [Scalar α] :
    (∀ (zones : Zones) (vars : Variables) (s : Settings Float), ofVariables zones vars = .ok s →
      s.Accepted ∧ s.rule.lookahead = .ofSeconds (wordOr vars "FLOW_LOOKAHEAD_SECS" 1800)) ∧
    ∀ s : Settings α, s.Accepted →
      (s.rule.Usable ↔ s.rule.lookahead.IsWhole ∧
        (s.rule.lookahead.seconds : Int) ≤ OutcomeRule.lookaheadBound) ∧
      (s.rule.lookahead? = none ↔ OutcomeRule.lookaheadBound < s.rule.lookahead.seconds ∧
        s.rule.lookahead.seconds < wordBound - OutcomeRule.lookaheadBound) ∧
      ((∃ d, s.rule.lookahead? = some d ∧ d < 0) ↔
        wordBound - OutcomeRule.lookaheadBound ≤ (s.rule.lookahead.seconds : Int)) ∧
      (∀ d, s.rule.lookahead? = some d → d < 0 →
        ∀ t h, s.rule.horizon? t = some h → h < t) ∧
      (s.rule.lookahead? = some 0 ↔ s.rule.lookahead.seconds = 0) ∧
      ∀ t h, s.rule.horizon? t = some h → h ≤ t.add s.rule.lookahead ∧
        (h = t.add s.rule.lookahead ↔ s.rule.Usable) := by
  refine ⟨fun zones vars s => lookahead_of_ofVariables,
    fun s hs => ⟨?usable, ?none, ?negative, ?before, ?zero, fun t h hh => ?reach⟩⟩
  case usable => exact OutcomeRule.usable_iff hs.lookahead_pos
  case none => exact OutcomeRule.lookahead?_eq_none_iff hs.word
  case negative => exact OutcomeRule.lookahead?_eq_neg_iff hs.word
  case before => exact fun d hd hneg t h hh => OutcomeRule.horizon?_lt hd hneg hh
  case zero => exact OutcomeRule.lookahead?_eq_zero_iff hs.word
  case reach =>
    rw [OutcomeRule.usable_iff hs.lookahead_pos]
    exact OutcomeRule.horizon?_le_add hs.word hh

/-- Only the lookahead is given. -/
def lookaheadOnly (text : String) : Variables :=
  fun name => if name = "FLOW_LOOKAHEAD_SECS" then some text else none

theorem usable_lookahead_iff_greatest :
    ∃ s, ofVariables Command.zones (lookaheadOnly "9223372036854775") = .ok s ∧ s.rule.Usable := by
  have hok : (ofVariables Command.zones (lookaheadOnly "9223372036854775")).isOk := by
    decide +kernel
  cases hs : ofVariables Command.zones (lookaheadOnly "9223372036854775") with
  | error fault => simp [hs, Except.isOk, Except.toBool] at hok
  | ok s =>
    obtain ⟨haccepted, hword⟩ := (usable_lookahead_iff (α := Float)).1 _ _ s hs
    have hread : wordOr (lookaheadOnly "9223372036854775") "FLOW_LOOKAHEAD_SECS" 1800 =
        9223372036854775 := by decide +kernel
    refine ⟨s, rfl, ((usable_lookahead_iff.2 s haccepted).1).mpr ?_⟩
    rw [hword, hread]
    exact ⟨Duration.isWhole_ofSeconds _, by decide⟩

/-- The greatest word is accepted, and stands for one second before the reference time. -/
theorem not_usable_lookahead_word :
    ¬ ∀ (zones : Zones) (vars : Variables) (s : Settings Float),
      ofVariables zones vars = .ok s → s.rule.Usable := by
  intro hall
  have hok : (ofVariables Command.zones (lookaheadOnly "18446744073709551615")).isOk := by
    decide +kernel
  cases hs : ofVariables Command.zones (lookaheadOnly "18446744073709551615") with
  | error fault => simp [hs, Except.isOk, Except.toBool] at hok
  | ok s =>
    have hheld := OutcomeRule.lookahead?_eq_some_iff.mp (hall _ _ s hs).held
    have hread : wordOr (lookaheadOnly "18446744073709551615") "FLOW_LOOKAHEAD_SECS" 1800 =
        18446744073709551615 := by decide +kernel
    rw [(lookahead_of_ofVariables hs).2, hread] at hheld
    exact absurd hheld.2.2 (by decide)

end Settings

end VolumeWatch
