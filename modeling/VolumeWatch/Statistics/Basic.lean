import VolumeWatch.Statistics.Snapshot

/-!
Statistics: an entry for every combination of tags and for every single tag value that an outcome
was recorded for. The entries of single tag values are kept in a map of their own for each
dimension.
-/

namespace VolumeWatch

structure Statistics (α : Type) where
  combinations : SortedMap Tags (Entry α)
  /-- One map for each dimension, in the order of the dimensions. -/
  dimensions : List (SortedMap TagValue (Entry α))
  length_dimensions : dimensions.length = Dimension.all.length

namespace Statistics

variable {α : Type} [Scalar α]

omit [Scalar α] in
theorem ordinal_lt_length (s : Statistics α) (d : Dimension) :
    Category.ordinal d < s.dimensions.length :=
  Nat.lt_of_lt_of_eq (Category.ordinal_lt d) s.length_dimensions.symm

def empty : Statistics α := ⟨∅, Dimension.all.map fun _ => ∅, List.length_map ..⟩

instance : EmptyCollection (Statistics α) := ⟨empty⟩

instance : Inhabited (Statistics α) := ⟨∅⟩

/-- The map of a dimension. -/
def ofDimension (s : Statistics α) (d : Dimension) : SortedMap TagValue (Entry α) :=
  have := s.ordinal_lt_length d
  s.dimensions[Category.ordinal d]

/-- The entry of a key, empty where nothing was recorded. -/
def entryAt {κ : Type} [Ranked κ] (m : SortedMap κ (Entry α)) (k : κ) : Entry α :=
  (m.get? k).getD ∅

/-- Record an outcome in the entry of a key, and give the entry as it is then. -/
def recordAt {κ : Type} [Ranked κ] (m : SortedMap κ (Entry α)) (k : κ) (o : Outcome α) :
    SortedMap κ (Entry α) × Entry α :=
  let e := (entryAt m k).record o
  (m.insert k e, e)

/-- The entry of a combination, empty where nothing was recorded. -/
def lookup (s : Statistics α) (t : Tags) : Entry α := entryAt s.combinations t

/-- The entry of a single tag value, empty where nothing was recorded. -/
def lookupValue (s : Statistics α) (v : TagValue) : Entry α := entryAt (s.ofDimension v.dimension) v

/-- Record an outcome for a combination and for its tag value in each dimension, and give the entry
of the combination as it is then. -/
def recordOutcome (s : Statistics α) (t : Tags) (o : Outcome α) : Statistics α × Entry α :=
  let (combinations, e) := recordAt s.combinations t o
  ({ combinations
     dimensions := List.zipWith (fun m v => (recordAt m v o).1) s.dimensions t.values
     length_dimensions := by simp [s.length_dimensions, Tags.values] }, e)

def record (s : Statistics α) (t : Tags) (o : Outcome α) : Statistics α := (s.recordOutcome t o).1

def recordAll (s : Statistics α) (os : List (Tags × Outcome α)) : Statistics α :=
  os.foldl (fun s o => s.record o.1 o.2) s

def size (s : Statistics α) : Nat := s.combinations.size

/-- The entries of all maps, by combination of tags and by tag value in the order of the ids. -/
def snapshot (s : Statistics α) : Snapshot α :=
  ⟨s.combinations.toList, (s.dimensions.flatMap (·.toList)).mergeSort fun a b => a.1.id ≤ b.1.id⟩

theorem entryAt_recordAt {κ : Type} [Ranked κ] (m : SortedMap κ (Entry α)) (k : κ) (o : Outcome α)
    (j : κ) : entryAt (recordAt m k o).1 j =
      if Ranked.rank j = Ranked.rank k then (entryAt m k).record o else entryAt m j := by
  rw [entryAt, recordAt, SortedMap.get?_insert]
  split <;> rfl

/-- Recording changes the entry of its own combination alone. -/
theorem lookup_record (s : Statistics α) (t : Tags) (o : Outcome α) (u : Tags) :
    (s.record t o).lookup u = if u = t then (s.lookup t).record o else s.lookup u := by
  have h := entryAt_recordAt s.combinations t o u
  by_cases hu : u = t
  · subst hu
    rwa [if_pos rfl] at h ⊢
  · rw [if_neg fun hr => hu (Ranked.rank_inj hr)] at h
    rw [if_neg hu]
    exact h

end Statistics

end VolumeWatch
