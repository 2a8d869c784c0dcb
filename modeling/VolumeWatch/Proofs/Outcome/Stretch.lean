import Mathlib.Data.List.TakeWhile
import VolumeWatch.Proofs.Engine.ReferenceTime

/-!
Stretches: an alert is scored on the bars from its reference time up to its horizon. Bars before the
stretch are left out, and so are bars after it wherever the stretch has a bar of its own; a window
with later bars alone is scored as well, as if nothing had moved.

Main statement: `OutcomeRule.outside_ignored_iff`.
-/

namespace VolumeWatch

open Calendar (Instant)

variable {α : Type}

namespace OutcomeRule

variable [Scalar α]

/-- A price that others can be compared with. -/
def Priced (price : α) : Prop := ¬ (Scalar.isNaN price ∨ price ≤ 0)

instance (price : α) : Decidable (Priced price) := inferInstanceAs (Decidable (¬ _))

variable {r : OutcomeRule α} {price : α} {reference horizon : Instant} {window : List (Bar α)}

theorem evaluate?_of_not_priced (h : ¬ Priced price) :
    r.evaluate? price reference window = some (.error (.invalidReferencePrice price)) :=
  if_pos (Decidable.not_not.mp h)

theorem evaluate?_nil (h : Priced price) :
    r.evaluate? price reference [] = some (.error .emptyWindow) :=
  if_neg h

theorem evaluate?_of_before (h : Priced price) (hne : window ≠ [])
    (hbefore : ∀ b ∈ window, b.timestamp < reference) :
    r.evaluate? price reference window = some (.error (.noBarsAfterReference reference)) := by
  have hdrop : window.dropWhile (·.timestamp < reference) = [] :=
    List.dropWhile_eq_nil_iff.mpr fun b hb => decide_eq_true (hbefore b hb)
  obtain ⟨first, rest, rfl⟩ := List.exists_cons_of_ne_nil hne
  unfold evaluate?
  rw [if_neg h, hdrop]

theorem evaluate?_of_mem (h : Priced price) {b : Bar α} (hb : b ∈ window)
    (hle : reference ≤ b.timestamp) :
    r.evaluate? price reference window =
      (r.horizon? reference).map fun stop =>
        .ok (r.score price (scored reference stop window)) := by
  have hdrop : window.dropWhile (·.timestamp < reference) ≠ [] := by
    intro hnil
    have := List.dropWhile_eq_nil_iff.mp hnil b hb
    exact Instant.not_lt.mpr hle (of_decide_eq_true this)
  obtain ⟨first, rest, rfl⟩ := List.exists_cons_of_ne_nil (List.ne_nil_of_mem hb)
  obtain ⟨later, others, hlater⟩ := List.exists_cons_of_ne_nil hdrop
  unfold evaluate? scored
  rw [if_neg h, hlater]

/-- A price that others can be compared with leaves three cases. -/
theorem evaluate?_cases (r : OutcomeRule α) (h : Priced price) (reference : Instant)
    (window : List (Bar α)) :
    (window = [] ∧ r.evaluate? price reference window = some (.error .emptyWindow)) ∨
    (window ≠ [] ∧ (¬ ∃ b ∈ window, reference ≤ b.timestamp) ∧
      r.evaluate? price reference window = some (.error (.noBarsAfterReference reference))) ∨
    ((∃ b ∈ window, reference ≤ b.timestamp) ∧ r.evaluate? price reference window =
      (r.horizon? reference).map fun stop =>
        .ok (r.score price (scored reference stop window))) := by
  by_cases hex : ∃ b ∈ window, reference ≤ b.timestamp
  · obtain ⟨b, hb, hle⟩ := hex
    exact Or.inr (Or.inr ⟨⟨b, hb, hle⟩, evaluate?_of_mem h hb hle⟩)
  · by_cases hnil : window = []
    · subst hnil
      exact Or.inl ⟨rfl, evaluate?_nil h⟩
    · refine Or.inr (Or.inl ⟨hnil, hex, evaluate?_of_before h hnil fun b hb => ?_⟩)
      exact Instant.not_le.mp fun hle => hex ⟨b, hb, hle⟩

/-- A window is scored exactly if some of its bars do not start before the reference time. -/
theorem evaluate?_eq_ok_iff (h : Priced price) (hh : r.horizon? reference = some horizon)
    {o : Outcome α} : r.evaluate? price reference window = some (.ok o) ↔
      (∃ b ∈ window, reference ≤ b.timestamp) ∧
        r.score price (scored reference horizon window) = o := by
  rcases r.evaluate?_cases h reference window with ⟨rfl, heq⟩ | ⟨-, hex, heq⟩ | ⟨hex, heq⟩
  · simp [heq]
  · simp [heq, hex]
  · simp [heq, hex, hh]

/-- What is scored has a bar that does not start before the reference time. -/
theorem exists_le_of_evaluate?_eq_ok {o : Outcome α}
    (h : r.evaluate? price reference window = some (.ok o)) :
    ∃ b ∈ window, reference ≤ b.timestamp := by
  by_cases hp : Priced price
  · rcases r.evaluate?_cases hp reference window with ⟨-, heq⟩ | ⟨-, -, heq⟩ | ⟨hex, -⟩
    · simp [heq] at h
    · simp [heq] at h
    · exact hex
  · simp [evaluate?_of_not_priced hp] at h

/-- What a window is scored on lies in the stretch, so that the rest of it can be left out. -/
theorem evaluate?_eq_within (h : Priced price) (hh : r.horizon? reference = some horizon)
    (hw : InTime window) (hne : within reference horizon window ≠ []) :
    r.evaluate? price reference window =
      r.evaluate? price reference (within reference horizon window) := by
  obtain ⟨b, hb⟩ := List.exists_mem_of_ne_nil _ hne
  obtain ⟨hmem, hle, -⟩ := mem_within.mp hb
  rw [evaluate?_of_mem h hmem hle, evaluate?_of_mem h hb hle, hh, Option.map_some, Option.map_some,
    scored_eq_within hw, scored_eq_within (hw.within _ _),
    within_within (Instant.le_refl _) (Instant.le_refl _)]

/-- Bars outside of the stretch change whether a window is scored, or how, exactly if the stretch is
empty and bars follow it. Such a window is scored on no bars at all, where the stretch by itself has
nothing to be scored. -/
theorem outside_ignored_iff (h : Priced price) (hh : r.horizon? reference = some horizon)
    (hw : InTime window) :
    ((∀ o, r.evaluate? price reference window = some (.ok o) ↔
        r.evaluate? price reference (within reference horizon window) = some (.ok o)) ↔
      within reference horizon window ≠ [] ∨ ∀ b ∈ window, b.timestamp < reference) ∧
    (∀ o, r.evaluate? price reference (within reference horizon window) = some (.ok o) →
      r.evaluate? price reference window = some (.ok o)) ∧
    (within reference horizon window = [] → (∃ b ∈ window, reference ≤ b.timestamp) →
      r.evaluate? price reference window = some (.ok (r.score price [])) ∧
        r.evaluate? price reference (within reference horizon window) =
          some (.error .emptyWindow)) := by
  have hlate : within reference horizon window = [] → (∃ b ∈ window, reference ≤ b.timestamp) →
      r.evaluate? price reference window = some (.ok (r.score price [])) ∧
        r.evaluate? price reference (within reference horizon window) =
          some (.error .emptyWindow) := by
    rintro hnil ⟨b, hb, hle⟩
    rw [evaluate?_of_mem h hb hle, hh, Option.map_some, scored_eq_within hw, hnil]
    exact ⟨rfl, evaluate?_nil h⟩
  refine ⟨⟨fun hsame => ?_, ?_⟩, ?_, hlate⟩
  · by_contra hno
    rw [not_or, not_not] at hno
    obtain ⟨hnil, hlater⟩ := hno
    have hex : ∃ b ∈ window, reference ≤ b.timestamp := by
      by_contra hnone
      exact hlater fun b hb => Instant.not_le.mp fun hle => hnone ⟨b, hb, hle⟩
    obtain ⟨hwindow, hstretch⟩ := hlate hnil hex
    rw [(hsame _).mp hwindow] at hstretch
    simp at hstretch
  · rintro (hne | hbefore) o
    · rw [evaluate?_eq_within h hh hw hne]
    · rw [evaluate?_eq_ok_iff h hh, evaluate?_eq_ok_iff h hh]
      refine iff_of_false ?_ ?_
      · rintro ⟨⟨b, hb, hle⟩, -⟩
        exact Instant.not_lt.mpr hle (hbefore b hb)
      · rintro ⟨⟨b, hb, hle⟩, -⟩
        exact Instant.not_lt.mpr hle (hbefore b (mem_within.mp hb).1)
  · intro o ho
    obtain ⟨⟨b, hb, -⟩, -⟩ := (evaluate?_eq_ok_iff h hh).mp ho
    rw [evaluate?_eq_within h hh hw (List.ne_nil_of_mem hb), ho]

/-- The start of the session of `Engine.flatBar`. -/
def sessionStart : Instant := .ofMillis 1710252000000

theorem horizon?_sessionStart : (standard : OutcomeRule Float).horizon? sessionStart =
    some (.ofMillis (1710252000000 + 1800 * 1000)) := by
  decide +kernel

/-- A bar before the stretch, one in it and one where it ends. -/
def aroundStretch : List (Bar Float) :=
  [Engine.flatBar 4500 (-5) 1, Engine.flatBar 4500 5 1, Engine.flatBar 4500 1800 1]

theorem outside_ignored_iff_aroundStretch :
    (within sessionStart (.ofMillis (1710252000000 + 1800 * 1000)) aroundStretch).length = 1 ∧
      ∀ o, standard.evaluate? 10 sessionStart aroundStretch = some (.ok o) ↔
        standard.evaluate? 10 sessionStart
          (within sessionStart (.ofMillis (1710252000000 + 1800 * 1000)) aroundStretch) =
            some (.ok o) := by
  have hone : (within sessionStart (.ofMillis (1710252000000 + 1800 * 1000)) aroundStretch).length =
      1 := by decide
  refine ⟨hone, (outside_ignored_iff (by decide +kernel) horizon?_sessionStart (by decide)).1.mpr
    (Or.inl ?_)⟩
  intro hnil
  rw [hnil] at hone
  simp at hone

/-- One bar where the stretch ends is scored, and by itself the stretch is not. -/
theorem not_outside_ignored_late :
    ¬ ∀ (r : OutcomeRule Float) (price : Float) (reference horizon : Instant)
      (window : List (Bar Float)), Priced price → r.horizon? reference = some horizon →
      InTime window → ∀ o, r.evaluate? price reference window = some (.ok o) ↔
        r.evaluate? price reference (within reference horizon window) = some (.ok o) := by
  intro hall
  have hp : Priced (10 : Float) := by decide +kernel
  have hmem : Engine.flatBar 4500 1800 1 ∈ [Engine.flatBar 4500 1800 1] := by simp
  have hok := evaluate?_of_mem (r := standard) hp hmem
    (show sessionStart ≤ (Engine.flatBar 4500 1800 1).timestamp by decide)
  rw [horizon?_sessionStart, Option.map_some] at hok
  have hstretch := (hall standard 10 sessionStart _ _ hp horizon?_sessionStart (by simp [InTime])
    _).mp hok
  have hnil : within sessionStart (.ofMillis (1710252000000 + 1800 * 1000))
      [Engine.flatBar 4500 1800 1] = [] := by decide
  rw [hnil, evaluate?_nil hp] at hstretch
  simp at hstretch

end OutcomeRule

end VolumeWatch
