import VolumeWatch.Proofs.Statistics.Marginals

/-!
The keys of statistics, and the history of each. An outcome is recorded under its combination of tags
and under its tag value in each dimension (`Statistics.Key.Covers`), and each of these entries is
updated by it alone (`Statistics.find?_record`). After any outcomes the entry of a key is therefore
the one that the outcomes recorded under the key make by themselves, in their order
(`Statistics.find?_recordAll`).
-/

namespace VolumeWatch.Statistics

/-- What outcomes are recorded under. -/
inductive Key where
  | combination (t : Tags)
  | value (v : TagValue)

/-- Outcomes of tags are recorded under their combination and under each of their tag values. -/
def Key.Covers : Key → Tags → Prop
  | .combination u, t => t = u
  | .value v, t => v ∈ t.values

instance (k : Key) (t : Tags) : Decidable (k.Covers t) := by
  cases k <;> unfold Key.Covers <;> infer_instance

variable {α : Type}

/-- The outcomes recorded under a key, in order. -/
def recorded (os : List (Tags × Outcome α)) (k : Key) : List (Outcome α) :=
  (os.filter fun x => k.Covers x.1).map (·.2)

theorem recorded_concat (os : List (Tags × Outcome α)) (t : Tags) (o : Outcome α) (k : Key) :
    recorded (os ++ [(t, o)]) k = if k.Covers t then recorded os k ++ [o] else recorded os k := by
  unfold recorded
  split <;> simp [*]

theorem recorded_perm {os os' : List (Tags × Outcome α)} (h : os.Perm os') (k : Key) :
    (recorded os k).Perm (recorded os' k) :=
  (h.filter _).map _

theorem recorded_ne_nil_iff {os : List (Tags × Outcome α)} {k : Key} :
    recorded os k ≠ [] ↔ ∃ x ∈ os, k.Covers x.1 := by
  simp [recorded]

/-- The entry of a key, if something was recorded under it. -/
def find? (s : Statistics α) : Key → Option (Entry α)
  | .combination t => s.combinations.get? t
  | .value v => (s.ofDimension v.dimension).get? v

theorem find?_empty (k : Key) : (∅ : Statistics α).find? k = none := by
  cases k with
  | combination t => rfl
  | value v => simp [find?, ofDimension_empty]

variable [Scalar α]

/-- The entry of a key, empty where nothing was recorded. -/
def entry (s : Statistics α) : Key → Entry α
  | .combination t => s.lookup t
  | .value v => s.lookupValue v

theorem entry_eq_getD (s : Statistics α) (k : Key) : s.entry k = (s.find? k).getD ∅ := by
  cases k <;> rfl

theorem get?_recordAt {κ : Type} [Ranked κ] [DecidableEq κ] (m : SortedMap κ (Entry α)) (k : κ)
    (o : Outcome α) (j : κ) : (recordAt m k o).1.get? j =
      if k = j then some ((entryAt m j).record o) else m.get? j := by
  by_cases h : k = j
  · subst h
    simp [recordAt, SortedMap.get?_insert]
  · have hrank : Ranked.rank j ≠ Ranked.rank k := fun hr => h (Ranked.rank_inj hr).symm
    simp [recordAt, SortedMap.get?_insert, h, hrank]

/-- An outcome is added to the entries of the keys that it is recorded under, and to no other. -/
theorem find?_record (s : Statistics α) (t : Tags) (o : Outcome α) (k : Key) :
    (s.record t o).find? k = if k.Covers t then some ((s.entry k).record o) else s.find? k := by
  cases k with
  | combination u =>
    have hget : (s.record t o).combinations.get? u = _ := get?_recordAt s.combinations t o u
    simp [find?, hget, Key.Covers, entry, lookup]
  | value v =>
    have hget := get?_recordAt (s.ofDimension v.dimension) (t.value v.dimension) o v
    rw [← ofDimension_record] at hget
    simp [find?, hget, Key.Covers, Tags.mem_values_iff, entry, lookupValue]

theorem entry_record (s : Statistics α) (t : Tags) (o : Outcome α) (k : Key) :
    (s.record t o).entry k = if k.Covers t then (s.entry k).record o else s.entry k := by
  simp only [entry_eq_getD, find?_record]
  split <;> rfl

/-- The entry of a key is made by the outcomes recorded under it. -/
theorem entry_recordAll (os : List (Tags × Outcome α)) (k : Key) :
    ((∅ : Statistics α).recordAll os).entry k = Entry.ofList (recorded os k) := by
  induction os using List.reverseRecOn with
  | nil => simp [recordAll, entry_eq_getD, find?_empty, recorded, Entry.ofList]
  | append_singleton os x ih =>
    rw [recordAll_append_singleton, entry_record, recorded_concat, ih]
    split
    · exact (Entry.ofList_append_singleton _ _).symm
    · rfl

/-- There is an entry for the keys that something was recorded under, and for no other. -/
theorem find?_recordAll (os : List (Tags × Outcome α)) (k : Key) :
    ((∅ : Statistics α).recordAll os).find? k =
      if recorded os k = [] then none else some (Entry.ofList (recorded os k)) := by
  induction os using List.reverseRecOn with
  | nil => exact find?_empty k
  | append_singleton os x ih =>
    rw [recordAll_append_singleton, find?_record, recorded_concat, entry_recordAll]
    split
    · simp [Entry.ofList_append_singleton]
    · exact ih

end VolumeWatch.Statistics
