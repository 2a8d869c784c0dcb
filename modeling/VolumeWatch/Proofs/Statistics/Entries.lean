import Mathlib.Algebra.Order.BigOperators.Group.List
import VolumeWatch.Proofs.RunningStat.Moments
import VolumeWatch.Proofs.Statistics.Keys

/-!
Entries of exact numbers. An entry that is updated outcome by outcome holds what all its outcomes
together have: how many there are and how many are not losses, their units, and the mean move of
those that are not losses (`Entry.ofList_eq_batch`).
-/

namespace VolumeWatch

namespace WinClass

theorem isWin_iff {c : WinClass} : c.isWin = true ↔ c ≠ .loss := by cases c <;> decide

@[simp]
theorem units_loss : (units .loss : ℝ) = 0 := rfl

@[simp]
theorem units_partialWin : (units .partialWin : ℝ) = 1 / 2 := by simp [units, Scalar.half]

@[simp]
theorem units_win : (units .win : ℝ) = 1 := by simp [units]

end WinClass

namespace Entry

/-- The moves of the outcomes that are not losses. -/
def winningMoves {α : Type} (os : List (Outcome α)) : List α :=
  (os.filter fun o => o.winClass ≠ .loss).map (·.move)

section Running

variable {α : Type} [Scalar α]

omit [Scalar α] in
theorem winningMoves_concat (os : List (Outcome α)) (o : Outcome α) :
    winningMoves (os ++ [o]) =
      if o.winClass.isWin then winningMoves os ++ [o.move] else winningMoves os := by
  unfold winningMoves
  split <;> simp_all [WinClass.isWin_iff]

/-- A quantity to which every outcome adds its weight is the sum of the weights. -/
theorem Additive.ofList {M : Type} [AddCommMonoid M] {g : Entry α → M} {w : Outcome α → M}
    (h : Additive g w) (os : List (Outcome α)) : g (ofList os) = (os.map w).sum := by
  induction os using List.reverseRecOn with
  | nil => exact h.empty
  | append_singleton os o ih => simp [ofList_append_singleton, h.record, ih]

/-- Wins and their average are counted as a running statistic of the winning moves does. -/
theorem wins_average_ofList (os : List (Outcome α)) :
    (ofList os).wins = (RunningStat.ofList (winningMoves os)).count ∧
      (ofList os).average = (RunningStat.ofList (winningMoves os)).mean := by
  induction os using List.reverseRecOn with
  | nil => exact ⟨rfl, rfl⟩
  | append_singleton os o ih =>
    obtain ⟨hwins, haverage⟩ := ih
    rw [ofList_append_singleton, winningMoves_concat]
    unfold record averageWith
    split
    · rw [RunningStat.ofList_append_singleton]
      simp [RunningStat.add, hwins, haverage]
    · exact ⟨hwins, haverage⟩

theorem wins_ofList (os : List (Outcome α)) : (ofList os).wins = (winningMoves os).length :=
  (wins_average_ofList os).1.trans (RunningStat.count_ofList _)

/-- A loss leaves the average as it is. -/
theorem average_record_loss (e : Entry α) (move : α) : (e.record ⟨.loss, move⟩).average = e.average :=
  rfl

end Running

section Exact

/-- The mean of numbers, zero where there are none. -/
noncomputable def mean (xs : List ℝ) : ℝ := if xs.length = 0 then 0 else xs.sum / xs.length

variable (os : List (Outcome ℝ))

/-- One for each win and a half for each partial win. -/
noncomputable def unitsOf : ℝ :=
  os.countP (·.winClass = .win) + (os.countP (·.winClass = .partialWin) : ℝ) / 2

/-- An entry in one go. -/
noncomputable def batch : Entry ℝ where
  alerts := os.length
  units := unitsOf os
  wins := os.countP (·.winClass ≠ .loss)
  average := mean (winningMoves os)
  rate := if os.length = 0 then 0 else unitsOf os / os.length

theorem units_ofList : (ofList os).units = unitsOf os := by
  rw [additive_units.ofList]
  unfold unitsOf
  induction os with
  | nil => simp
  | cons o os ih =>
    obtain ⟨c, move⟩ := o
    cases c <;> simp [ih] <;> ring

theorem average_ofList : (ofList os).average = mean (winningMoves os) := by
  rw [(wins_average_ofList os).2, RunningStat.mean_ofList, mean]
  split <;> simp [*]

theorem rate_ofList :
    (ofList os).rate = if os.length = 0 then 0 else (ofList os).units / os.length := by
  cases os using List.reverseRecOn with
  | nil => simp [ofList, EmptyCollection.emptyCollection, empty]
  | append_singleton os o => simp [ofList_append_singleton, record, alerts_ofList]

/-- Updated outcome by outcome, an entry holds what all outcomes together have. -/
theorem ofList_eq_batch : ofList os = batch os := by
  have hwins : (ofList os).wins = os.countP (·.winClass ≠ .loss) := by
    rw [wins_ofList, winningMoves, List.length_map, List.countP_eq_length_filter]
  rw [batch, ← hwins, ← average_ofList, ← units_ofList, ← rate_ofList, ← alerts_ofList]

theorem ofList_perm {os os' : List (Outcome ℝ)} (h : os.Perm os') : ofList os = ofList os' := by
  have hmoves : (winningMoves os).Perm (winningMoves os') := (h.filter _).map _
  simp only [ofList_eq_batch, batch, mean, unitsOf, h.length_eq, h.countP_eq, hmoves.sum_eq,
    hmoves.length_eq]

/-- A win counts for one unit and a partial win for a half, and a loss for none. -/
theorem wins_bounds : ((batch os).wins : ℝ) / 2 ≤ (batch os).units ∧
    (batch os).units ≤ (batch os).wins ∧ (batch os).wins ≤ (batch os).alerts := by
  have hsplit : os.countP (·.winClass ≠ .loss) =
      os.countP (·.winClass = .win) + os.countP (·.winClass = .partialWin) := by
    induction os with
    | nil => rfl
    | cons o os ih =>
      obtain ⟨c, move⟩ := o
      cases c <;> simp_all <;> omega
  have hwin : (0 : ℝ) ≤ os.countP (·.winClass = .win) := Nat.cast_nonneg _
  have hpartial : (0 : ℝ) ≤ os.countP (·.winClass = .partialWin) := Nat.cast_nonneg _
  refine ⟨?_, ?_, List.countP_le_length⟩ <;>
    simp only [batch, unitsOf, hsplit, Nat.cast_add] <;> linarith

theorem rate_bounds : 0 ≤ (batch os).rate ∧ (batch os).rate ≤ 1 := by
  obtain ⟨hhalf, hunits, hwins⟩ := wins_bounds os
  have hnonneg : 0 ≤ unitsOf os := le_trans (by positivity) hhalf
  have hle : unitsOf os ≤ os.length := hunits.trans (Nat.cast_le.mpr hwins)
  unfold batch
  dsimp only
  split
  · exact ⟨le_refl _, zero_le_one⟩
  · exact ⟨div_nonneg hnonneg (Nat.cast_nonneg _), div_le_one_of_le₀ hle (Nat.cast_nonneg _)⟩

theorem mean_between {xs : List ℝ} (h : xs ≠ []) : ∃ lo ∈ xs, ∃ hi ∈ xs,
    (∀ x ∈ xs, lo ≤ x ∧ x ≤ hi) ∧ lo ≤ mean xs ∧ mean xs ≤ hi := by
  obtain ⟨x, hx⟩ := List.exists_mem_of_ne_nil xs h
  obtain ⟨lo, hlo, hmin⟩ := xs.toFinset.exists_min_image id ⟨x, List.mem_toFinset.mpr hx⟩
  obtain ⟨hi, hhi, hmax⟩ := xs.toFinset.exists_max_image id ⟨x, List.mem_toFinset.mpr hx⟩
  simp only [List.mem_toFinset, id] at hlo hmin hhi hmax
  have hn : (0 : ℝ) < xs.length := by exact_mod_cast List.length_pos_of_mem hx
  refine ⟨lo, hlo, hi, hhi, fun y hy => ⟨hmin y hy, hmax y hy⟩, ?_⟩
  rw [mean, if_neg (by simpa using h), le_div_iff₀ hn, div_le_iff₀ hn, mul_comm lo, mul_comm hi,
    ← nsmul_eq_mul, ← nsmul_eq_mul]
  exact ⟨List.card_nsmul_le_sum _ _ hmin, List.sum_le_card_nsmul _ _ hmax⟩

end Exact

end Entry

namespace Statistics

/-- After any outcomes, the entry of every key is the one that the outcomes recorded under it make in
one go. A loss never changes an average. Rates lie between zero and one, units between half the wins
and the wins, and an average between the smallest and the largest move that it is made of. -/
theorem entry_eq_batch (os : List (Tags × Outcome ℝ)) (k : Key) :
    let s := (∅ : Statistics ℝ).recordAll os
    let e := s.entry k
    let moves := Entry.winningMoves (recorded os k)
    e = Entry.batch (recorded os k) ∧
    (∀ t move, ((s.record t ⟨.loss, move⟩).entry k).average = e.average) ∧
    (0 ≤ e.rate ∧ e.rate ≤ 1) ∧
    ((e.wins : ℝ) / 2 ≤ e.units ∧ e.units ≤ e.wins ∧ e.wins ≤ e.alerts) ∧
    (moves = [] ∨ ∃ lo ∈ moves, ∃ hi ∈ moves,
      (∀ x ∈ moves, lo ≤ x ∧ x ≤ hi) ∧ lo ≤ e.average ∧ e.average ≤ hi) := by
  intro s e moves
  have he : e = Entry.batch (recorded os k) := by
    rw [← Entry.ofList_eq_batch]
    exact entry_recordAll os k
  refine ⟨he, fun t move => ?loss, ?rate, ?wins, ?average⟩
  case loss =>
    rw [entry_record]
    split
    · exact Entry.average_record_loss _ move
    · rfl
  case rate => exact he ▸ Entry.rate_bounds _
  case wins => exact he ▸ Entry.wins_bounds _
  case average =>
    rw [he]
    rcases eq_or_ne moves [] with hnone | hsome
    · exact Or.inl hnone
    · exact Or.inr (Entry.mean_between hsome)

end Statistics

end VolumeWatch
