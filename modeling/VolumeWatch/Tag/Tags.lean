import VolumeWatch.SortedMap
import VolumeWatch.Tag.Dimension
import VolumeWatch.Tag.Nibbles

/-!
Tags: one category for each of the twelve dimensions.

Tags can be written as one number, four bits for each dimension. Main statements: writing and
reading are inverse to each other (`unpack?_pack`, `pack_of_unpack?`), and reading fails exactly
where some four bits name no category or bits remain (`unpack?_eq_none_iff`).
-/

namespace VolumeWatch

structure Tags where
  optionType : OptionType
  timeframe : Timeframe
  moneyness : Moneyness
  timeOfDay : SessionSlot
  volumeDeviation : VolumeDeviation
  volumeLevel : VolumeLevel
  underlyingRange : RangeDeviation
  optionRange : RangeDeviation
  underlyingDaily : DailyExtreme
  underlyingLocal : LocalExtreme
  optionDaily : DailyExtreme
  optionLocal : LocalExtreme
  deriving DecidableEq, Inhabited

namespace Tags

def project (t : Tags) : (d : Dimension) → d.Value
  | .optionType => t.optionType
  | .timeframe => t.timeframe
  | .moneyness => t.moneyness
  | .timeOfDay => t.timeOfDay
  | .volumeDeviation => t.volumeDeviation
  | .volumeLevel => t.volumeLevel
  | .underlyingRange => t.underlyingRange
  | .optionRange => t.optionRange
  | .underlyingDaily => t.underlyingDaily
  | .underlyingLocal => t.underlyingLocal
  | .optionDaily => t.optionDaily
  | .optionLocal => t.optionLocal

def value (t : Tags) (d : Dimension) : TagValue := ⟨d, t.project d⟩

def values (t : Tags) : List TagValue := Dimension.all.map t.value

/-- Tags from a category for each dimension, if none is missing. -/
def ofProjections? (f : (d : Dimension) → Option d.Value) : Option Tags := do
  return {
    optionType := ← f .optionType
    timeframe := ← f .timeframe
    moneyness := ← f .moneyness
    timeOfDay := ← f .timeOfDay
    volumeDeviation := ← f .volumeDeviation
    volumeLevel := ← f .volumeLevel
    underlyingRange := ← f .underlyingRange
    optionRange := ← f .optionRange
    underlyingDaily := ← f .underlyingDaily
    underlyingLocal := ← f .underlyingLocal
    optionDaily := ← f .optionDaily
    optionLocal := ← f .optionLocal }

theorem ext_project {t u : Tags} (h : ∀ d, t.project d = u.project d) : t = u := by
  obtain ⟨_, _, _, _, _, _, _, _, _, _, _, _⟩ := t
  obtain ⟨_, _, _, _, _, _, _, _, _, _, _, _⟩ := u
  have h1 := h .optionType
  have h2 := h .timeframe
  have h3 := h .moneyness
  have h4 := h .timeOfDay
  have h5 := h .volumeDeviation
  have h6 := h .volumeLevel
  have h7 := h .underlyingRange
  have h8 := h .optionRange
  have h9 := h .underlyingDaily
  have h10 := h .underlyingLocal
  have h11 := h .optionDaily
  have h12 := h .optionLocal
  simp_all [project]

theorem ofProjections?_eq_some_iff {f : (d : Dimension) → Option d.Value} {t : Tags} :
    ofProjections? f = some t ↔ ∀ d, f d = some (t.project d) := by
  constructor
  · intro h d
    simp only [ofProjections?, bind, Option.bind_eq_some_iff] at h
    obtain ⟨_, h1, _, h2, _, h3, _, h4, _, h5, _, h6, _, h7, _, h8, _, h9, _, h10, _, h11, _, h12,
      h⟩ := h
    obtain rfl := Option.some.inj h
    cases d <;> assumption
  · intro h
    simp only [ofProjections?, h]
    rfl

def ordinal (t : Tags) (d : Dimension) : Nat := Category.ordinal (t.project d)

theorem ordinal_lt (t : Tags) (d : Dimension) : t.ordinal d < 16 :=
  Nat.lt_of_lt_of_le (Category.ordinal_lt (t.project d))
    (Nat.le_trans (Dimension.cardinality_le d) (by decide))

def ordinals (t : Tags) : List Nat := Dimension.all.map t.ordinal

theorem lt_of_mem_ordinals (t : Tags) : ∀ n ∈ t.ordinals, n < 16 := by
  intro n hn
  obtain ⟨d, _, rfl⟩ := List.mem_map.mp hn
  exact t.ordinal_lt d

theorem ordinals_getElem? (t : Tags) (d : Dimension) :
    t.ordinals[Category.ordinal d]? = some (t.ordinal d) := by
  rw [ordinals, List.getElem?_map, Dimension.all, Category.values_getElem?_ordinal]
  rfl

/-- Tags are determined by their ordinals. -/
theorem ordinals_inj {t u : Tags} (h : t.ordinals = u.ordinals) : t = u := by
  refine ext_project fun d => Category.ordinal_inj ?_
  have := t.ordinals_getElem? d
  rw [h, u.ordinals_getElem? d] at this
  exact (Option.some.inj this).symm

/-- Position in the order that compares the first dimension first. -/
def rank (t : Tags) : Nat := Nibbles.value t.ordinals.reverse

theorem rank_inj {t u : Tags} (h : t.rank = u.rank) : t = u := by
  refine ordinals_inj (List.reverse_inj.mp ?_)
  exact Nibbles.value_inj (fun n hn => t.lt_of_mem_ordinals n (List.mem_reverse.mp hn))
    (fun n hn => u.lt_of_mem_ordinals n (List.mem_reverse.mp hn)) (by simp [ordinals]) h

/-- One number for all tags: dimension `n` takes the four bits from bit `4 * n` on. -/
def pack (t : Tags) : Nat := Nibbles.value t.ordinals

def nibble (packed : Nat) (d : Dimension) : Nat := Nibbles.nibble packed (Category.ordinal d)

def unpack? (packed : Nat) : Option Tags :=
  if packed < Nat.pow 16 Dimension.all.length then
    ofProjections? fun d => Category.ofOrdinal? (nibble packed d)
  else none

theorem nibble_pack (t : Tags) (d : Dimension) : nibble t.pack d = t.ordinal d :=
  Nibbles.nibble_value t.lt_of_mem_ordinals (t.ordinals_getElem? d)

theorem pack_lt (t : Tags) : t.pack < Nat.pow 16 Dimension.all.length := by
  have := Nibbles.value_lt t.lt_of_mem_ordinals
  rwa [ordinals, List.length_map] at this

theorem unpack?_eq_some_iff {packed : Nat} {t : Tags} :
    unpack? packed = some t ↔
      packed < Nat.pow 16 Dimension.all.length ∧ ∀ d, t.ordinal d = nibble packed d := by
  unfold unpack?
  split
  · rename_i h
    simp only [h, true_and, ofProjections?_eq_some_iff, Category.ofOrdinal?_eq_some_iff, ordinal]
  · rename_i h
    simp only [h, false_and, reduceCtorEq]

/-- Tags are read back from their number. -/
theorem unpack?_pack (t : Tags) : unpack? t.pack = some t :=
  unpack?_eq_some_iff.mpr ⟨t.pack_lt, fun d => (t.nibble_pack d).symm⟩

/-- Tags have no other number than the one they are written as. -/
theorem pack_of_unpack? {packed : Nat} {t : Tags} (h : unpack? packed = some t) :
    t.pack = packed := by
  obtain ⟨hlt, h⟩ := unpack?_eq_some_iff.mp h
  have : t.ordinals = Nibbles.nibbles packed Dimension.all.length := by
    rw [ordinals, List.map_congr_left fun d _ => h d]
    rfl
  rw [pack, this, Nibbles.value_nibbles hlt]

/-- Reading fails exactly where bits remain or a dimension's four bits name no category. -/
theorem unpack?_eq_none_iff {packed : Nat} :
    unpack? packed = none ↔
      Nat.pow 16 Dimension.all.length ≤ packed ∨ ∃ d : Dimension, d.cardinality ≤ nibble packed d := by
  constructor
  · intro h
    rw [← Nat.not_lt]
    refine Classical.or_iff_not_imp_left.mpr fun hlt => ?_
    rw [Classical.not_not] at hlt
    refine Classical.byContradiction fun hn => ?_
    have hsome (d : Dimension) : ∃ v : d.Value, Category.ofOrdinal? (nibble packed d) = some v :=
      Option.ne_none_iff_exists'.mp fun hv =>
        hn ⟨d, Category.ofOrdinal?_eq_none_iff.mp hv⟩
    have hf (d : Dimension) := (hsome d).choose_spec
    have : unpack? packed = some ⟨_, _, _, _, _, _, _, _, _, _, _, _⟩ :=
      unpack?_eq_some_iff.mpr ⟨hlt, fun d => by
        cases d <;> exact Category.ordinal_of_ofOrdinal? (hf _)⟩
    cases h.symm.trans this
  · rintro h
    refine Option.eq_none_iff_forall_ne_some.mpr fun t ht => ?_
    obtain ⟨hlt, ht⟩ := unpack?_eq_some_iff.mp ht
    rcases h with h | ⟨d, h⟩
    · omega
    · have := Category.ordinal_lt (t.project d)
      have hd : Category.ordinal (t.project d) = nibble packed d := ht d
      simp only [Dimension.cardinality] at h
      omega

end Tags

instance : Ranked Tags := ⟨Tags.rank, Tags.rank_inj⟩

instance : Ranked TagValue := ⟨TagValue.id, TagValue.id_inj⟩

end VolumeWatch
