import Mathlib.Data.Nat.Find
import VolumeWatch.Settings.Basic

/-!
Validation of settings. What makes settings unusable is listed once, with its place in the order in
which it is looked for (`Settings.Violation`), and validation tells the first of it
(`Settings.validate_eq_error_iff`).
-/

namespace VolumeWatch

/-- What holds at some place, with nothing that holds at a place before it. -/
def First {β : Type} (holds : ℕ → β → Prop) (b : β) : Prop :=
  ∃ n, holds n b ∧ ∀ m < n, ∀ c, ¬ holds m c

section First

variable {β : Type} {holds : ℕ → β → Prop} {b c : β}

theorem exists_first_iff : (∃ b, First holds b) ↔ ∃ n b, holds n b := by
  constructor
  · rintro ⟨b, n, hn, -⟩
    exact ⟨n, b, hn⟩
  · intro h
    classical
    obtain ⟨b, hb⟩ := Nat.find_spec h
    exact ⟨b, Nat.find h, hb, fun m hm => not_exists.mp (Nat.find_min h hm)⟩

/-- What alone holds at the first place is the first. -/
theorem first_iff_of_zero (h : holds 0 b) (hunique : ∀ c, holds 0 c → c = b) :
    First holds c ↔ c = b := by
  constructor
  · rintro ⟨n, hn, hbefore⟩
    rcases Nat.eq_zero_or_pos n with rfl | hpos
    · exact hunique c hn
    · exact absurd h (hbefore 0 hpos b)
  · rintro rfl
    exact ⟨0, h, fun m hm => absurd hm m.not_lt_zero⟩

/-- If nothing holds at the first place, the first is that of the other places. -/
theorem first_succ_iff (h : ∀ b, ¬ holds 0 b) :
    First holds b ↔ First (fun n => holds (n + 1)) b := by
  constructor
  · rintro ⟨n, hn, hbefore⟩
    cases n with
    | zero => exact absurd hn (h b)
    | succ n => exact ⟨n, hn, fun m hm => hbefore (m + 1) (Nat.succ_lt_succ hm)⟩
  · rintro ⟨n, hn, hbefore⟩
    refine ⟨n + 1, hn, fun m hm => ?_⟩
    cases m with
    | zero => exact h
    | succ m => exact hbefore m (Nat.lt_of_succ_lt_succ hm)

/-- A search for the first condition that is not met finds the first one. -/
theorem find?_not_met_iff {conditions : List (Bool × β)} :
    (conditions.find? fun c => !c.1).map (·.2) = some b ↔
      First (fun n c => conditions[n]? = some (false, c)) b := by
  rw [Option.map_eq_some_iff]
  constructor
  · rintro ⟨⟨met, told⟩, hfind, rfl⟩
    obtain ⟨hmet, n, hn, hget, hbefore⟩ := List.find?_eq_some_iff_getElem.mp hfind
    obtain rfl : met = false := by simpa using hmet
    refine ⟨n, List.getElem?_eq_some_iff.mpr ⟨hn, hget⟩, fun m hm c hc => ?_⟩
    obtain ⟨hlt, heq⟩ := List.getElem?_eq_some_iff.mp hc
    have hmet := hbefore m hm
    rw [heq] at hmet
    cases hmet
  · rintro ⟨n, hn, hbefore⟩
    obtain ⟨hlt, hget⟩ := List.getElem?_eq_some_iff.mp hn
    refine ⟨(false, b), List.find?_eq_some_iff_getElem.mpr ⟨rfl, n, hlt, hget, fun m hm => ?_⟩, rfl⟩
    have hin : m < conditions.length := Nat.lt_trans hm hlt
    cases hmet : conditions[m].1 with
    | true => rfl
    | false =>
      refine absurd ?_ (hbefore m hm conditions[m].2)
      exact List.getElem?_eq_some_iff.mpr ⟨hin, Prod.ext hmet rfl⟩

end First

namespace Settings

variable {α : Type} [Scalar α] {s : Settings α} {n : ℕ} {fault : SettingsFault α}

/-- What makes settings unusable, in the order in which it is looked for. -/
inductive Violation (s : Settings α) : ℕ → SettingsFault α → Prop where
  | poll : s.pollMillis = 0 → Violation s 0 .zeroPoll
  | report : s.reportSeconds = 0 → Violation s 1 .zeroReport
  | lookahead : s.rule.lookahead = .ofSeconds 0 → Violation s 2 .zeroLookahead
  | strikeIncrement : ¬ (Scalar.isFinite s.strikeIncrement = true ∧ 0 < s.strikeIncrement) →
    Violation s 3 (.strikeIncrement s.strikeIncrement)
  | proximity : ¬ (Scalar.isFinite s.proximity = true ∧ 0 ≤ s.proximity) →
    Violation s 4 (.proximity s.proximity)
  | stopLoss : ¬ (Scalar.isFinite s.rule.stopLoss = true ∧ 0 < s.rule.stopLoss) →
    Violation s 5 (.stopLoss s.rule.stopLoss)
  | win : ¬ (Scalar.isFinite s.rule.win = true ∧ 0 < s.rule.win) → Violation s 6 (.win s.rule.win)

theorem isPositive_eq_false_iff {x : α} :
    isPositive x = false ↔ ¬ (Scalar.isFinite x = true ∧ 0 < x) := by
  rw [isPositive, ← Bool.not_eq_true, Bool.and_eq_true, decide_eq_true_iff]

theorem isNonNegative_eq_false_iff {x : α} :
    isNonNegative x = false ↔ ¬ (Scalar.isFinite x = true ∧ 0 ≤ x) := by
  rw [isNonNegative, ← Bool.not_eq_true, Bool.and_eq_true, decide_eq_true_iff]

/-- The violations are the conditions that are not met, with their places. -/
theorem violation_iff : Violation s n fault ↔ s.conditions[n]? = some (false, fault) := by
  have place {met : Bool} {told : SettingsFault α} (h : some (met, told) = some (false, fault)) :
      met = false ∧ told = fault := Prod.mk.inj (Option.some.inj h)
  constructor
  · intro h
    cases h <;> rename_i h <;> simpa [conditions, isPositive, isNonNegative] using h
  · intro h
    match n, h with
    | 0, h =>
      obtain ⟨hmet, rfl⟩ := place h
      exact .poll (bne_eq_false_iff_eq.mp hmet)
    | 1, h =>
      obtain ⟨hmet, rfl⟩ := place h
      exact .report (bne_eq_false_iff_eq.mp hmet)
    | 2, h =>
      obtain ⟨hmet, rfl⟩ := place h
      exact .lookahead (bne_eq_false_iff_eq.mp hmet)
    | 3, h =>
      obtain ⟨hmet, rfl⟩ := place h
      exact .strikeIncrement (isPositive_eq_false_iff.mp hmet)
    | 4, h =>
      obtain ⟨hmet, rfl⟩ := place h
      exact .proximity (isNonNegative_eq_false_iff.mp hmet)
    | 5, h =>
      obtain ⟨hmet, rfl⟩ := place h
      exact .stopLoss (isPositive_eq_false_iff.mp hmet)
    | 6, h =>
      obtain ⟨hmet, rfl⟩ := place h
      exact .win (isPositive_eq_false_iff.mp hmet)

/-- Validation tells the first violation. -/
theorem validate_eq_error_iff : s.validate = .error fault ↔ First s.Violation fault := by
  have hfault : s.validate = .error fault ↔ s.fault? = some fault := by
    unfold validate
    cases s.fault? with
    | none => simp
    | some other => simp
  have hplaces : s.Violation = fun n other => s.conditions[n]? = some (false, other) := by
    funext n other
    exact propext violation_iff
  rw [hfault, fault?, find?_not_met_iff, hplaces]

end Settings

end VolumeWatch
