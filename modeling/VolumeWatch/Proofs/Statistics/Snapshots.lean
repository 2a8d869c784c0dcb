import Mathlib.Data.List.Dedup
import Mathlib.Data.List.Perm.Basic
import VolumeWatch.Proofs.Statistics.Entries
import VolumeWatch.Proofs.Tag.Order

/-!
Snapshots of statistics: all entries, each once, in the order of their keys
(`Statistics.snapshot_complete`). Outcomes of exact numbers leave the same statistics in whatever
order they come (`Statistics.recordAll_perm`).

Each tag value is kept in the map of its own dimension (`Statistics.Filed`), so that the maps one
after the other list all tag values in order. A snapshot is therefore the same in whatever order a
map lists its entries before they are sorted (`Statistics.Filed.snapshot_listing`).
-/

namespace VolumeWatch

theorem Category.pairwise_values {τ : Type} [Category τ] :
    (values : List τ).Pairwise fun v w => ordinal v < ordinal w := by
  have h : ((values : List τ).map ordinal).Pairwise (· < ·) := by
    rw [map_ordinal_values]
    exact List.pairwise_lt_range
  exact List.pairwise_map.mp h

theorem Scalar.sum_eq_sum (xs : List ℝ) : Scalar.sum xs = xs.sum := by
  cases xs with
  | nil => rfl
  | cons x xs =>
    rw [List.sum_eq_foldl, List.foldl_cons, zero_add]
    rfl

namespace SortedMap

variable {κ β : Type} [Ranked κ]

/-- Entries in the order of their keys. -/
def sortByKey (l : List (κ × β)) : List (κ × β) :=
  l.mergeSort fun a b => Ranked.rank a.1 ≤ Ranked.rank b.1

/-- Entries with different keys are sorted in one way only, in whatever order they come. -/
theorem sortByKey_eq {l m : List (κ × β)} (h : l.Perm m)
    (hm : m.Pairwise fun a b => Ranked.rank a.1 < Ranked.rank b.1) : sortByKey l = m := by
  have hsorted : (sortByKey l).Pairwise fun a b => Ranked.rank a.1 ≤ Ranked.rank b.1 := by
    have hp : (sortByKey l).Pairwise fun a b => decide (Ranked.rank a.1 ≤ Ranked.rank b.1) := by
      apply List.pairwise_mergeSort
      · simpa using fun _ _ _ _ _ _ => le_trans
      · simpa using fun _ _ _ _ => le_total _ _
    simpa using hp
  have hkeys : (m.map fun a => Ranked.rank a.1).Nodup := (List.pairwise_map.mpr hm).imp ne_of_lt
  have hperm : (sortByKey l).Perm m := (List.mergeSort_perm l _).trans h
  refine hperm.eq_of_pairwise ?_ hsorted (hm.imp le_of_lt)
  intro a b ha hb hab hba
  exact List.inj_on_of_nodup_map hkeys (hperm.subset ha) hb (le_antisymm hab hba)

theorem nodup_keys (m : SortedMap κ β) : m.keys.Nodup := by
  apply List.pairwise_map.mpr
  refine m.sorted.imp fun hlt heq => ?_
  simp [heq] at hlt

end SortedMap

namespace Statistics

section Filing

variable {α : Type} {s s' : Statistics α}

/-- The entries of all tag values, one dimension after the other. -/
def ofDimensions (s : Statistics α) : List (TagValue × Entry α) :=
  Dimension.all.flatMap fun d => (s.ofDimension d).toList

theorem dimensions_eq (s : Statistics α) : s.dimensions = Dimension.all.map s.ofDimension := by
  apply List.ext_getElem
  · simp [s.length_dimensions]
  · intro i hi hi'
    simp only [List.length_map] at hi'
    have hordinal : Category.ordinal Dimension.all[i] = i :=
      Category.ordinal_of_ofOrdinal? (List.getElem?_eq_getElem hi')
    simp [ofDimension, hordinal]

theorem flatMap_dimensions (s : Statistics α) : s.dimensions.flatMap (·.toList) = s.ofDimensions := by
  rw [dimensions_eq, List.flatMap_map, ofDimensions]

/-- Every tag value is kept in the map of its own dimension. -/
def Filed (s : Statistics α) : Prop := ∀ d v, ((s.ofDimension d).get? v).isSome → v.dimension = d

theorem filed_empty : (∅ : Statistics α).Filed := by
  intro d v h
  simp [ofDimension_empty] at h

namespace Filed

theorem mem_iff (h : s.Filed) {d : Dimension} {v : TagValue} {e : Entry α} :
    (v, e) ∈ (s.ofDimension d).toList ↔ v.dimension = d ∧ s.find? (.value v) = some e := by
  rw [SortedMap.mem_toList_iff]
  constructor
  · intro hv
    obtain rfl := h d v (by simp [hv])
    exact ⟨rfl, hv⟩
  · rintro ⟨rfl, hv⟩
    exact hv

theorem get?_eq_none (h : s.Filed) {d : Dimension} {v : TagValue} (hv : v.dimension ≠ d) :
    (s.ofDimension d).get? v = none :=
  Option.not_isSome_iff_eq_none.mp fun hsome => hv (h d v hsome)

/-- Statistics with the same entries are the same. -/
theorem ext (h : s.Filed) (h' : s'.Filed) (hfind : ∀ k, s.find? k = s'.find? k) : s = s' := by
  have hcombinations : s.combinations = s'.combinations :=
    SortedMap.ext_get? fun t => hfind (.combination t)
  have hdimension (d : Dimension) : s.ofDimension d = s'.ofDimension d := by
    apply SortedMap.ext_get?
    intro v
    by_cases hv : v.dimension = d
    · subst hv
      exact hfind (.value v)
    · rw [h.get?_eq_none hv, h'.get?_eq_none hv]
  have hdimensions : s.dimensions = s'.dimensions := by
    rw [dimensions_eq, dimensions_eq, funext hdimension]
  cases s
  cases s'
  cases hcombinations
  cases hdimensions
  rfl

theorem pairwise (h : s.Filed) : s.ofDimensions.Pairwise fun a b => a.1.Before b.1 := by
  rw [ofDimensions, List.pairwise_flatMap]
  constructor
  · intro d _
    exact (s.ofDimension d).sorted.imp fun hlt => TagValue.id_lt_iff.mp hlt
  · refine Category.pairwise_values.imp fun {d d'} hlt x hx y hy => Or.inl ?_
    rw [(h.mem_iff.mp hx).1, (h.mem_iff.mp hy).1]
    exact hlt

/-- The dimensions one after the other are in order already. -/
theorem values_snapshot (h : s.Filed) : s.snapshot.values = s.ofDimensions := by
  rw [← flatMap_dimensions]
  refine List.mergeSort_of_pairwise ?_
  rw [flatMap_dimensions]
  exact h.pairwise.imp fun hlt => decide_eq_true (TagValue.id_lt_iff.mpr hlt).le

theorem mem_values_iff (h : s.Filed) {v : TagValue} {e : Entry α} :
    (v, e) ∈ s.snapshot.values ↔ s.find? (.value v) = some e := by
  simp [h.values_snapshot, ofDimensions, h.mem_iff, Dimension.mem_all]

/-- The entries of a dimension stand together. -/
theorem dimension_snapshot (h : s.Filed) (d : Dimension) :
    s.snapshot.dimension d = (s.ofDimension d).toList ∧
      s.snapshot.dimension d <:+: s.snapshot.values := by
  obtain ⟨before, after, hall⟩ := List.append_of_mem (Dimension.mem_all d)
  have hnodup : (before ++ d :: after).Nodup := hall ▸ Category.nodup_values
  have hvalues : s.snapshot.values = (before.flatMap fun d => (s.ofDimension d).toList) ++
      (s.ofDimension d).toList ++ after.flatMap fun d => (s.ofDimension d).toList := by
    simp [h.values_snapshot, ofDimensions, hall]
  have hown : (s.ofDimension d).toList.filter (·.1.dimension = d) = (s.ofDimension d).toList := by
    simp only [List.filter_eq_self, decide_eq_true_eq]
    exact fun x hx => (h.mem_iff.mp hx).1
  have hother {ds : List Dimension} (hd : d ∉ ds) :
      (ds.flatMap fun d => (s.ofDimension d).toList).filter (·.1.dimension = d) = [] := by
    simp only [List.filter_eq_nil_iff, List.mem_flatMap, decide_eq_true_eq]
    rintro x ⟨d', hd', hx⟩ rfl
    exact hd ((h.mem_iff.mp hx).1 ▸ hd')
  have hdimension : s.snapshot.dimension d = (s.ofDimension d).toList := by
    obtain ⟨-, hafter, hbefore⟩ := List.nodup_append.mp hnodup
    rw [Snapshot.dimension, hvalues]
    simp only [List.filter_append, hown]
    rw [hother, hother]
    · simp
    · exact (List.nodup_cons.mp hafter).1
    · exact fun hd => hbefore d hd d List.mem_cons_self rfl
  exact ⟨hdimension, hdimension ▸ hvalues ▸ ⟨_, _, rfl⟩⟩

end Filed

/-- The entries of all maps, where those of one map come in any order. -/
structure Listing (s : Statistics α) where
  combinations : List (Tags × Entry α)
  values : Dimension → List (TagValue × Entry α)
  combinations_perm : combinations.Perm s.combinations.toList
  values_perm : ∀ d, (values d).Perm (s.ofDimension d).toList

/-- What is listed, sorted by combination of tags and by tag value. -/
def Listing.snapshot (l : s.Listing) : Snapshot α :=
  ⟨SortedMap.sortByKey l.combinations, SortedMap.sortByKey (Dimension.all.flatMap l.values)⟩

/-- The maps listed from their ends. -/
def Listing.reversed (s : Statistics α) : s.Listing :=
  ⟨s.combinations.toList.reverse, fun d => (s.ofDimension d).toList.reverse,
    List.reverse_perm _, fun _ => List.reverse_perm _⟩

/-- A snapshot does not depend on the order in which the maps list their entries. -/
theorem Filed.snapshot_listing (h : s.Filed) (l : s.Listing) : l.snapshot = s.snapshot := by
  have hcombinations : SortedMap.sortByKey l.combinations = s.combinations.toList :=
    SortedMap.sortByKey_eq l.combinations_perm s.combinations.sorted
  have hvalues : SortedMap.sortByKey (Dimension.all.flatMap l.values) = s.snapshot.values := by
    rw [h.values_snapshot]
    apply SortedMap.sortByKey_eq
    · exact List.Perm.flatMap_left _ fun d _ => l.values_perm d
    · exact h.pairwise.imp fun hlt => TagValue.id_lt_iff.mpr hlt
  rw [Listing.snapshot, hcombinations, hvalues]
  rfl

variable [Scalar α]

theorem Filed.record (h : s.Filed) (t : Tags) (o : Outcome α) : (s.record t o).Filed := by
  intro d v hv
  rw [ofDimension_record, get?_recordAt] at hv
  split at hv
  case isTrue heq => rw [← heq, Tags.value]
  case isFalse => exact h d v hv

theorem filed_recordAll (os : List (Tags × Outcome α)) : ((∅ : Statistics α).recordAll os).Filed := by
  induction os using List.reverseRecOn with
  | nil => exact filed_empty
  | append_singleton os x ih =>
    rw [recordAll_append_singleton]
    exact ih.record x.1 x.2

end Filing

section Totals

variable {α : Type} [Scalar α]

theorem find?_eq_some_iff {os : List (Tags × Outcome α)} {k : Key} {e : Entry α} :
    ((∅ : Statistics α).recordAll os).find? k = some e ↔
      (∃ x ∈ os, k.Covers x.1) ∧ ((∅ : Statistics α).recordAll os).entry k = e := by
  rw [find?_recordAll, entry_recordAll, ← recorded_ne_nil_iff]
  split <;> simp [*]

theorem mem_combinations_iff {os : List (Tags × Outcome α)} {t : Tags} {e : Entry α} :
    (t, e) ∈ ((∅ : Statistics α).recordAll os).snapshot.combinations ↔
      t ∈ os.map (·.1) ∧ ((∅ : Statistics α).recordAll os).lookup t = e := by
  have hfind : ((∅ : Statistics α).recordAll os).find? (.combination t) = some e ↔ _ :=
    find?_eq_some_iff
  simp only [Key.Covers] at hfind
  rw [List.mem_map]
  exact (SortedMap.mem_toList_iff _).trans hfind

theorem mem_values_iff {os : List (Tags × Outcome α)} {v : TagValue} {e : Entry α} :
    (v, e) ∈ ((∅ : Statistics α).recordAll os).snapshot.values ↔
      (∃ t ∈ os.map (·.1), v ∈ t.values) ∧ ((∅ : Statistics α).recordAll os).lookupValue v = e := by
  have hfind : ((∅ : Statistics α).recordAll os).find? (.value v) = some e ↔ _ :=
    find?_eq_some_iff
  simp only [Key.Covers] at hfind
  refine (filed_recordAll os).mem_values_iff.trans (hfind.trans (and_congr_left' ?_))
  simp

/-- There are as many entries as different combinations that something was recorded for. -/
theorem size_recordAll (os : List (Tags × Outcome α)) :
    ((∅ : Statistics α).recordAll os).size = (os.map (·.1)).dedup.length := by
  have hperm : ((∅ : Statistics α).recordAll os).combinations.keys.Perm (os.map (·.1)).dedup := by
    rw [List.perm_ext_iff_of_nodup (SortedMap.nodup_keys _) (List.nodup_dedup _)]
    intro t
    rw [List.mem_dedup, SortedMap.keys, List.mem_map]
    constructor
    · rintro ⟨⟨u, e⟩, hu, rfl⟩
      exact (mem_combinations_iff.mp hu).1
    · exact fun ht => ⟨(t, _), mem_combinations_iff.mpr ⟨ht, rfl⟩, rfl⟩
  simpa [SortedMap.keys, size, SortedMap.size] using hperm.length_eq

theorem total_recordAll {M : Type} [AddCommMonoid M] [IsRightCancelAdd M] {g : Entry α → M}
    {w : Outcome α → M} (h : Entry.Additive g w) (os : List (Tags × Outcome α)) :
    ((∅ : Statistics α).recordAll os).combinations.total (fun _ => g) =
      (os.map fun x => w x.2).sum := by
  induction os using List.reverseRecOn with
  | nil => rfl
  | append_singleton os x ih =>
    rw [recordAll_append_singleton]
    have hstep := total_recordAt (g := fun _ : Tags => g) (w := fun _ => w) (fun _ => h.empty)
      (fun _ => h.record) ((∅ : Statistics α).recordAll os).combinations x.1 x.2
    simp only [List.map_append, List.map_singleton, List.sum_append, List.sum_singleton, ← ih]
    exact hstep

end Totals

/-- Units by outcome, whatever combinations the outcomes were recorded for. -/
theorem overallRate_recordAll (os : List (Tags × Outcome ℝ)) :
    ((∅ : Statistics ℝ).recordAll os).snapshot.overallRate =
      (os.map fun x => (x.2.winClass.units : ℝ)).sum / os.length := by
  have halerts : ((∅ : Statistics ℝ).recordAll os).snapshot.alerts = os.length :=
    (alerts_recordAll ∅ os).trans (Nat.zero_add _)
  have htotal := total_recordAll Entry.additive_units os
  rw [SortedMap.total] at htotal
  rw [Snapshot.overallRate, halerts, Scalar.sum_eq_sum, ← htotal]
  split <;> simp [*, snapshot]

theorem overallRate_bounds (os : List (Tags × Outcome ℝ)) :
    0 ≤ ((∅ : Statistics ℝ).recordAll os).snapshot.overallRate ∧
      ((∅ : Statistics ℝ).recordAll os).snapshot.overallRate ≤ 1 := by
  have hunits : ∀ u ∈ os.map fun x => (x.2.winClass.units : ℝ), 0 ≤ u ∧ u ≤ 1 := by
    simp only [List.mem_map]
    rintro u ⟨⟨t, c, move⟩, -, rfl⟩
    cases c <;> norm_num
  have hnonneg := List.sum_nonneg fun u hu => (hunits u hu).1
  have hle := List.sum_le_card_nsmul _ 1 fun u hu => (hunits u hu).2
  rw [List.length_map, nsmul_one] at hle
  rw [overallRate_recordAll]
  exact ⟨div_nonneg hnonneg (Nat.cast_nonneg _), div_le_one_of_le₀ hle (Nat.cast_nonneg _)⟩

/-- Outcomes of exact numbers leave the same statistics in whatever order they come. -/
theorem recordAll_perm {os os' : List (Tags × Outcome ℝ)} (h : os.Perm os') :
    (∅ : Statistics ℝ).recordAll os = (∅ : Statistics ℝ).recordAll os' := by
  apply (filed_recordAll os).ext (filed_recordAll os')
  intro k
  have hperm := recorded_perm h k
  rw [find?_recordAll, find?_recordAll, Entry.ofList_perm hperm]
  simp only [← List.length_eq_zero_iff, hperm.length_eq]

/-- After any outcomes a snapshot has each combination and each tag value once that something was
recorded for, in order and with its entry, in whatever order the maps list them. The entries of a
dimension stand together in it. All outcomes are counted in it, and its overall rate is the share of
all of them that the units make up, zero where there are none. -/
theorem snapshot_complete :
    (∀ (α : Type) [Scalar α] (os : List (Tags × Outcome α)),
      let s := (∅ : Statistics α).recordAll os
      let shot := s.snapshot
      (∀ l : s.Listing, l.snapshot = shot) ∧
      shot.combinations.Pairwise (fun a b => a.1.ordinals < b.1.ordinals) ∧
      (∀ t e, (t, e) ∈ shot.combinations ↔ t ∈ os.map (·.1) ∧ s.lookup t = e) ∧
      shot.combinations.length = s.size ∧
      s.size = (os.map (·.1)).dedup.length ∧
      shot.values.Pairwise (fun a b => a.1.Before b.1) ∧
      (∀ v e, (v, e) ∈ shot.values ↔ (∃ t ∈ os.map (·.1), v ∈ t.values) ∧ s.lookupValue v = e) ∧
      (∀ d, shot.dimension d <:+: shot.values ∧
        (∀ x, x ∈ shot.dimension d ↔ x ∈ shot.values ∧ x.1.dimension = d) ∧
        (shot.dimension d).Pairwise fun a b => a.1.ordinal < b.1.ordinal) ∧
      shot.alerts = os.length ∧
      shot.totalAlerts? = (if os.length < 2 ^ 64 then some os.length else none) ∧
      (∅ : Statistics α).snapshot.overallRate = 0) ∧
    ∀ os : List (Tags × Outcome ℝ),
      let rate := ((∅ : Statistics ℝ).recordAll os).snapshot.overallRate
      rate = (os.map fun x => (x.2.winClass.units : ℝ)).sum / os.length ∧ 0 ≤ rate ∧ rate ≤ 1 := by
  constructor
  · intro α _ os s shot
    have hfiled : s.Filed := filed_recordAll os
    have halerts : shot.alerts = os.length := (alerts_recordAll ∅ os).trans (Nat.zero_add _)
    have hordered : shot.values.Pairwise fun a b => a.1.Before b.1 :=
      hfiled.values_snapshot ▸ hfiled.pairwise
    refine ⟨hfiled.snapshot_listing, ?combinations, fun t e => mem_combinations_iff, rfl,
      size_recordAll os, hordered, fun v e => mem_values_iff, fun d => ?dimension, halerts, ?total,
      rfl⟩
    case combinations => exact s.combinations.sorted.imp fun hlt => Tags.rank_lt_iff.mp hlt
    case dimension =>
      have hmem (x : TagValue × Entry α) :
          x ∈ shot.dimension d ↔ x ∈ shot.values ∧ x.1.dimension = d := by
        simp [Snapshot.dimension]
      refine ⟨(hfiled.dimension_snapshot d).2, hmem, ?_⟩
      -- of two tag values of one dimension the earlier one has the lower position
      refine (hordered.filter _).imp_of_mem fun {a b} ha hb hbefore => ?_
      have hd : a.1.dimension = b.1.dimension :=
        ((hmem a).mp ha).2.trans ((hmem b).mp hb).2.symm
      rcases hbefore with hlt | ⟨-, hlt⟩
      · simp [hd] at hlt
      · exact hlt
    case total =>
      rw [Snapshot.totalAlerts?, halerts]
      rfl
  · intro os rate
    exact ⟨overallRate_recordAll os, overallRate_bounds os⟩

/-- Outcomes of exact numbers leave the same look-ups and the same snapshot in whatever order they
come, and in whatever order the maps list their entries. -/
theorem order_irrelevant {os os' : List (Tags × Outcome ℝ)} (h : os.Perm os') :
    let s := (∅ : Statistics ℝ).recordAll os
    let s' := (∅ : Statistics ℝ).recordAll os'
    (∀ t, s.lookup t = s'.lookup t) ∧
    (∀ v, s.lookupValue v = s'.lookupValue v) ∧
    s.size = s'.size ∧
    s.snapshot = s'.snapshot ∧
    ∀ (l : s.Listing) (l' : s'.Listing), l.snapshot = l'.snapshot := by
  intro s s'
  have heq : s = s' := recordAll_perm h
  refine ⟨fun t => by rw [heq], fun v => by rw [heq], by rw [heq], by rw [heq], fun l l' => ?_⟩
  rw [(filed_recordAll os).snapshot_listing, (filed_recordAll os').snapshot_listing]
  exact congrArg snapshot heq

/-- A win and a loss of a call, and a partial win of a put. -/
def mixedOutcomes : List (Tags × Outcome ℝ) :=
  [(default, ⟨.win, (80 : ℕ)⟩), (default, ⟨.loss, 0⟩),
    ({ (default : Tags) with optionType := .put }, ⟨.partialWin, (20 : ℕ)⟩)]

theorem order_irrelevant_reversed :
    mixedOutcomes.Perm mixedOutcomes.reverse ∧
    ((∅ : Statistics ℝ).recordAll mixedOutcomes).lookupValue ⟨.timeframe, .s5⟩ =
      ((∅ : Statistics ℝ).recordAll mixedOutcomes.reverse).lookupValue ⟨.timeframe, .s5⟩ ∧
    (Listing.reversed ((∅ : Statistics ℝ).recordAll mixedOutcomes)).snapshot =
      (Listing.reversed ((∅ : Statistics ℝ).recordAll mixedOutcomes.reverse)).snapshot := by
  have hperm := (List.reverse_perm mixedOutcomes).symm
  obtain ⟨-, hvalue, -, -, hlisting⟩ := order_irrelevant hperm
  exact ⟨hperm, hvalue _, hlisting _ _⟩

end Statistics

end VolumeWatch
