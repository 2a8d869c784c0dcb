import Mathlib.Algebra.BigOperators.Group.List.Basic
import Mathlib.Data.List.Count
import VolumeWatch.Proofs.Scalar.Exact
import VolumeWatch.Proofs.Statistics.Totals

/-!
Marginals: the entry of a single tag value holds what the entries of the combinations with that
value hold together, after any number of recorded outcomes (`Statistics.marginals_recordAll`).

An outcome changes one entry of each map (`lookup_record`, `lookupValue_record`), and adds the same
to both sides of every sum.
-/

namespace VolumeWatch

theorem Category.nodup_values {τ : Type} [Category τ] : (values : List τ).Nodup := by
  apply List.Nodup.of_map ordinal
  rw [map_ordinal_values]
  exact List.nodup_range

theorem Category.mem_values {τ : Type} [Category τ] (v : τ) : v ∈ (values : List τ) :=
  List.mem_of_getElem? (values_getElem?_ordinal v)

namespace Tags

theorem values_getElem?_ordinal (t : Tags) (d : Dimension) :
    t.values[Category.ordinal d]? = some (t.value d) := by
  rw [values, List.getElem?_map, Dimension.all, Category.values_getElem?_ordinal]
  rfl

theorem mem_values_iff {t : Tags} {v : TagValue} : v ∈ t.values ↔ t.value v.dimension = v := by
  constructor
  · intro h
    obtain ⟨d, -, rfl⟩ := List.mem_map.mp h
    rfl
  · intro h
    exact List.mem_map.mpr ⟨v.dimension, Dimension.mem_all _, h⟩

theorem value_eq_iff {t : Tags} {d : Dimension} {v : d.Value} :
    t.value d = ⟨d, v⟩ ↔ t.project d = v := by
  constructor
  · intro h
    cases h
    rfl
  · rintro rfl
    rfl

end Tags

/-- A quantity of entries that an outcome adds a weight of its own to, whatever came before. -/
structure Entry.Additive {α M : Type} [Scalar α] [AddCommMonoid M] (g : Entry α → M)
    (w : Outcome α → M) : Prop where
  empty : g ∅ = 0
  record : ∀ e o, g (e.record o) = g e + w o

theorem Entry.additive_alerts {α : Type} [Scalar α] :
    Additive (alerts : Entry α → Nat) fun _ => 1 :=
  ⟨rfl, fun _ _ => rfl⟩

theorem Entry.additive_wins {α : Type} [Scalar α] :
    Additive (wins : Entry α → Nat) fun o => if o.winClass.isWin then 1 else 0 := by
  constructor
  · rfl
  · intro e o
    unfold Entry.record
    split <;> rfl

theorem Entry.additive_units : Additive (units : Entry ℝ → ℝ) fun o => o.winClass.units :=
  ⟨rfl, fun _ _ => rfl⟩

theorem WinClass.two_mul_units (c : WinClass) : ∃ n : ℕ, 2 * (c.units : ℝ) = n := by
  cases c with
  | loss =>
    refine ⟨0, ?_⟩
    show 2 * (0 : ℝ) = (0 : ℕ)
    simp
  | partialWin =>
    refine ⟨1, ?_⟩
    show 2 * (((1 : ℕ) : ℝ) / ((2 : ℕ) : ℝ)) = (1 : ℕ)
    norm_num
  | win =>
    refine ⟨2, ?_⟩
    show 2 * ((1 : ℕ) : ℝ) = (2 : ℕ)
    norm_num

namespace Statistics

section Record

variable {α : Type} [Scalar α]

theorem recordAll_append_singleton (s : Statistics α) (os : List (Tags × Outcome α)) (t : Tags)
    (o : Outcome α) : s.recordAll (os ++ [(t, o)]) = (s.recordAll os).record t o := by
  simp [recordAll]

/-- The map of each dimension records the outcome for the value of that dimension. -/
theorem ofDimension_record (s : Statistics α) (t : Tags) (o : Outcome α) (d : Dimension) :
    (s.record t o).ofDimension d = (recordAt (s.ofDimension d) (t.value d) o).1 := by
  have hv := t.values_getElem?_ordinal d
  obtain ⟨hlt, hv⟩ := List.getElem?_eq_some_iff.mp hv
  unfold ofDimension
  simp only [record, recordOutcome, List.getElem_zipWith, hv]

omit [Scalar α] in
theorem ofDimension_empty (d : Dimension) : (∅ : Statistics α).ofDimension d = ∅ := by
  simp [ofDimension, EmptyCollection.emptyCollection, empty]

theorem lookupValue_empty (v : TagValue) : (∅ : Statistics α).lookupValue v = ∅ := by
  rw [lookupValue, ofDimension_empty]
  rfl

/-- Recording changes the entries of the values of its own combination alone. -/
theorem lookupValue_record (s : Statistics α) (t : Tags) (o : Outcome α) (v : TagValue) :
    (s.record t o).lookupValue v =
      if t.value v.dimension = v then (s.lookupValue v).record o else s.lookupValue v := by
  have h := entryAt_recordAt (s.ofDimension v.dimension) (t.value v.dimension) o v
  rw [lookupValue, ofDimension_record, h]
  by_cases hv : t.value v.dimension = v
  · rw [if_pos (by rw [hv]), if_pos hv, hv]
    rfl
  · rw [if_neg fun hr => hv (Ranked.rank_inj hr).symm, if_neg hv]
    rfl

end Record

section Sums

variable {α M : Type} [AddCommMonoid M]

/-- The sum of a quantity over the entries of the combinations with a tag value. -/
def marginal (s : Statistics α) (g : Entry α → M) (v : TagValue) : M :=
  ((s.combinations.toList.filter fun x => x.1.value v.dimension = v).map fun x => g x.2).sum

theorem marginal_eq_total (s : Statistics α) (g : Entry α → M) (v : TagValue) :
    s.marginal g v = s.combinations.total fun t e => if t.value v.dimension = v then g e else 0 := by
  unfold marginal SortedMap.total
  induction s.combinations.toList with
  | nil => rfl
  | cons x rest ih =>
    rw [List.filter_cons, List.map_cons, List.sum_cons, ← ih]
    by_cases h : x.1.value v.dimension = v
    · simp [h]
    · simp [h]

variable [Scalar α] [IsRightCancelAdd M] {g : Entry α → M} {w : Outcome α → M}

/-- An outcome adds its weight to the sums for the values of its combination. -/
theorem marginal_record (h : Entry.Additive g w) (s : Statistics α) (t : Tags) (o : Outcome α)
    (v : TagValue) : (s.record t o).marginal g v =
      s.marginal g v + if t.value v.dimension = v then w o else 0 := by
  rw [marginal_eq_total, marginal_eq_total]
  refine total_recordAt (g := fun t e => if t.value v.dimension = v then g e else 0)
    (w := fun t o => if t.value v.dimension = v then w o else 0) ?_ ?_ s.combinations t o
  · intro u
    simp [h.empty]
  · intro u e o
    by_cases hu : u.value v.dimension = v
    · simp [hu, h.record]
    · simp [hu]

omit [IsRightCancelAdd M] in
/-- It adds the same to the entries of these values. -/
theorem additive_lookupValue_record (h : Entry.Additive g w) (s : Statistics α) (t : Tags)
    (o : Outcome α) (v : TagValue) : g ((s.record t o).lookupValue v) =
      g (s.lookupValue v) + if t.value v.dimension = v then w o else 0 := by
  rw [lookupValue_record]
  split
  · exact h.record _ _
  · exact (add_zero _).symm

theorem lookupValue_recordAll (h : Entry.Additive g w) (os : List (Tags × Outcome α))
    (v : TagValue) : g (((∅ : Statistics α).recordAll os).lookupValue v) =
      ((∅ : Statistics α).recordAll os).marginal g v := by
  induction os using List.reverseRecOn with
  | nil =>
    show g ((∅ : Statistics α).lookupValue v) = 0
    rw [lookupValue_empty, h.empty]
  | append_singleton os x ih =>
    rw [recordAll_append_singleton, additive_lookupValue_record h, marginal_record h, ih]

/-- The sum of a quantity over the entries of all values of a dimension. -/
def dimensionTotal (s : Statistics α) (g : Entry α → M) (d : Dimension) : M :=
  ((Category.values : List d.Value).map fun v => g (s.lookupValue ⟨d, v⟩)).sum

omit [IsRightCancelAdd M] in
/-- An outcome adds its weight to the entry of one value of each dimension. -/
theorem dimensionTotal_record (h : Entry.Additive g w) (s : Statistics α) (t : Tags)
    (o : Outcome α) (d : Dimension) :
    (s.record t o).dimensionTotal g d = s.dimensionTotal g d + w o := by
  classical
  have hone : ((Category.values : List d.Value).map fun v =>
      if t.value d = ⟨d, v⟩ then w o else 0).sum = w o := by
    rw [List.sum_map_eq_nsmul_single (t.project d)]
    · rw [List.count_eq_one_of_mem Category.nodup_values (Category.mem_values _), one_nsmul,
        if_pos (Tags.value_eq_iff.mpr rfl)]
    · intro v hv _
      exact if_neg fun hd => hv (Tags.value_eq_iff.mp hd).symm
  simp only [dimensionTotal, additive_lookupValue_record h]
  rw [List.sum_map_add, hone]

omit [IsRightCancelAdd M] in
theorem dimensionTotal_recordAll (h : Entry.Additive g w) (os : List (Tags × Outcome α))
    (d : Dimension) : ((∅ : Statistics α).recordAll os).dimensionTotal g d =
      (os.map fun x => w x.2).sum := by
  induction os using List.reverseRecOn with
  | nil =>
    have hzero (v : d.Value) : g ((∅ : Statistics α).lookupValue ⟨d, v⟩) = 0 := by
      rw [lookupValue_empty, h.empty]
    show ((Category.values : List d.Value).map
      fun v => g ((∅ : Statistics α).lookupValue ⟨d, v⟩)).sum = 0
    simp [hzero]
  | append_singleton os x ih =>
    rw [recordAll_append_singleton, dimensionTotal_record h, ih, List.map_append, List.sum_append]
    simp

end Sums

theorem two_mul_units_lookupValue (os : List (Tags × Outcome ℝ)) (v : TagValue) :
    ∃ n : ℕ, 2 * (((∅ : Statistics ℝ).recordAll os).lookupValue v).units = n := by
  induction os using List.reverseRecOn with
  | nil =>
    refine ⟨0, ?_⟩
    show 2 * ((∅ : Statistics ℝ).lookupValue v).units = (0 : ℕ)
    rw [lookupValue_empty, Entry.additive_units.empty]
    simp
  | append_singleton os x ih =>
    obtain ⟨n, hn⟩ := ih
    obtain ⟨m, hm⟩ := x.2.winClass.two_mul_units
    rw [recordAll_append_singleton, additive_lookupValue_record Entry.additive_units, mul_add, hn]
    split
    · exact ⟨n + m, by rw [hm]; push_cast; rfl⟩
    · exact ⟨n, by simp⟩

/-- After any recorded outcomes the maps of the dimensions agree with the map of the combinations,
and the next outcome changes the entries of its own combination and its own values alone. -/
theorem marginals_recordAll :
    (∀ (α : Type) [Scalar α] (os : List (Tags × Outcome α)),
      let s := (∅ : Statistics α).recordAll os
      (∀ v, (s.lookupValue v).alerts = s.marginal Entry.alerts v ∧
        (s.lookupValue v).wins = s.marginal Entry.wins v) ∧
      (∀ d, s.dimensionTotal Entry.alerts d = s.snapshot.alerts) ∧
      s.snapshot.alerts = os.length ∧
      ∀ t o, (s.recordOutcome t o).2 = (s.recordOutcome t o).1.lookup t ∧
        (∀ u, u ≠ t → (s.recordOutcome t o).1.lookup u = s.lookup u) ∧
        ∀ v, v ∉ t.values → (s.recordOutcome t o).1.lookupValue v = s.lookupValue v) ∧
    ∀ (os : List (Tags × Outcome ℝ)) (v : TagValue),
      let s := (∅ : Statistics ℝ).recordAll os
      (s.lookupValue v).units = s.marginal Entry.units v ∧
        ∃ n : ℕ, 2 * (s.lookupValue v).units = n := by
  constructor
  · intro α _ os s
    have hcount : s.snapshot.alerts = os.length :=
      (alerts_recordAll ∅ os).trans (Nat.zero_add _)
    refine ⟨fun v => ⟨?_, ?_⟩, fun d => ?_, hcount, fun t o => ⟨?_, ?_, ?_⟩⟩
    · exact lookupValue_recordAll Entry.additive_alerts os v
    · exact lookupValue_recordAll Entry.additive_wins os v
    · rw [hcount]
      exact (dimensionTotal_recordAll Entry.additive_alerts os d).trans (by simp)
    · have h := lookup_record s t o t
      rw [if_pos rfl] at h
      exact h.symm
    · intro u hu
      exact (lookup_record s t o u).trans (if_neg hu)
    · intro v hv
      exact (lookupValue_record s t o v).trans (if_neg fun h => hv (Tags.mem_values_iff.mpr h))
  · intro os v s
    exact ⟨lookupValue_recordAll Entry.additive_units os v, two_mul_units_lookupValue os v⟩

end Statistics

end VolumeWatch
