import Mathlib.Data.List.Induction
import VolumeWatch.Record

/-!
Words of tags: tags and the words they are packed into determine each other, and every other word
is refused (`Tags.unpack_word`).

Words are read with shifts and masks and written as the `or` of shifted ordinals. Both agree with
the digits in base sixteen (`nibble_eq_and`, `value_eq_or`), because no ordinal reaches the bits of
the next one.
-/

namespace VolumeWatch

namespace Nibbles

theorem pow_eq_two_pow (n : Nat) : Nat.pow 16 n = Nat.pow 2 (4 * n) := (Nat.pow_mul 2 4 n).symm

theorem nibble_eq_and (w i : Nat) : nibble w i = (w >>> (4 * i)) &&& 15 := by
  rw [nibble, pow_eq_two_pow, Nat.shiftRight_eq_div_pow, show 15 = 2 ^ 4 - 1 from rfl,
    Nat.and_two_pow_sub_one_eq_mod]
  rfl

theorem value_append (ds es : List Nat) :
    value (ds ++ es) = value ds + Nat.pow 16 ds.length * value es := by
  induction ds with
  | nil => simp [value]
  | cons d ds ih =>
    rw [List.cons_append, value, value, ih, List.length_cons, pow_succ, Nat.mul_add, Nat.add_assoc,
      Nat.mul_comm (Nat.pow 16 ds.length) 16, Nat.mul_assoc]

/-- A further digit shares no bits with the digits before it. -/
theorem value_concat {ds : List Nat} (h : ∀ d ∈ ds, d < 16) (d : Nat) :
    value (ds ++ [d]) = value ds ||| d <<< (4 * ds.length) := by
  have hlt : value ds < Nat.pow 2 (4 * ds.length) := by
    rw [← pow_eq_two_pow]
    exact value_lt h
  have hd : value [d] = d := rfl
  rw [Nat.or_comm, ← Nat.shiftLeft_add_eq_or_of_lt hlt, Nat.shiftLeft_eq, value_append, hd,
    pow_eq_two_pow, Nat.add_comm, Nat.mul_comm]
  rfl

/-- Digits can be set one after the other, each at its own bits. -/
theorem value_eq_or {ds : List Nat} (h : ∀ d ∈ ds, d < 16) :
    value ds = ds.zipIdx.foldl (fun w d => w ||| d.1 <<< (4 * d.2)) 0 := by
  induction ds using List.reverseRecOn with
  | nil => rfl
  | append_singleton ds d ih =>
    have hds : ∀ e ∈ ds, e < 16 := fun e he => h e (List.mem_append_left _ he)
    rw [value_concat hds, ih hds, List.zipIdx_append, List.foldl_append]
    simp

end Nibbles

namespace Tags

theorem ordinals_eq_map_values (t : Tags) : t.ordinals = t.values.map TagValue.ordinal := by
  rw [values, List.map_map]
  rfl

/-- Packed tags are the `or` of the ordinals, each shifted to the bits of its dimension. -/
theorem pack_eq_or (t : Tags) :
    t.pack = t.values.zipIdx.foldl (fun w v => w ||| v.1.ordinal <<< (4 * v.2)) 0 := by
  rw [pack, Nibbles.value_eq_or t.lt_of_mem_ordinals, ordinals_eq_map_values, List.zipIdx_map,
    List.foldl_map]
  rfl

theorem map_ofId?_ids (t : Tags) : t.ids.map TagValue.ofId? = t.values.map some := by
  rw [ids, List.map_map]
  exact List.map_congr_left fun v _ => TagValue.ofId?_id v

theorem map_dimension_values (t : Tags) : t.values.map TagValue.dimension = Dimension.all := by
  rw [values, List.map_map]
  exact List.map_id _

variable {α : Type}

theorem unpack_eq_ok_iff {packed : Nat} {t : Tags} :
    unpack (α := α) packed = .ok t ↔ t.pack = packed := by
  constructor
  · intro h
    apply pack_of_unpack?
    unfold unpack at h
    cases hu : unpack? packed with
    | none => simp [hu] at h
    | some u => simpa [hu] using h
  · rintro rfl
    simp [unpack, unpack?_pack]

theorem unpack_eq_error_iff {packed : Nat} :
    unpack (α := α) packed = .error (.ofPacked packed) ↔ unpack? packed = none := by
  unfold unpack
  cases unpack? packed with
  | none => simp
  | some t => simp

/-- A number is unpacked or refused as naming no tags. -/
theorem unpack_cases (packed : Nat) :
    (∃ t, unpack (α := α) packed = .ok t) ∨
      unpack (α := α) packed = .error (.ofPacked packed) := by
  unfold unpack
  cases unpack? packed with
  | none => exact .inr rfl
  | some t => exact .inl ⟨t, rfl⟩

/-- Tags have one word below bit 48, the `or` of their shifted ordinals, and are unpacked from it
and no other word. A word is refused exactly if a bit from 48 on is set or the four bits of a
dimension are no ordinal of it. The ids of the tags denote the values that are unpacked, dimension
after dimension. -/
theorem unpack_word (α : Type) :
    (∀ t : Tags, t.pack < Nat.pow 2 48 ∧
      t.pack = t.values.zipIdx.foldl (fun w v => w ||| v.1.ordinal <<< (4 * v.2)) 0 ∧
      unpack (α := α) t.pack = .ok t) ∧
    (∀ w : UInt64,
      (∀ t, unpack (α := α) w.toNat = .ok t ↔ t.pack = w.toNat) ∧
      ((∃ t, unpack (α := α) w.toNat = .ok t) ∨
        unpack (α := α) w.toNat = .error (.ofPacked w.toNat)) ∧
      (unpack (α := α) w.toNat = .error (.ofPacked w.toNat) ↔
        (∃ i, 48 ≤ i ∧ w.toNat.testBit i) ∨
          ∃ d : Dimension, d.cardinality ≤ (w.toNat >>> (4 * Category.ordinal d)) &&& 15)) ∧
    ∀ t : Tags, ∃ u, unpack (α := α) t.pack = .ok u ∧
      t.ids.map TagValue.ofId? = u.values.map some ∧
      u.values.map TagValue.dimension = Dimension.all := by
  refine ⟨?packed, ?words, ?ids⟩
  case packed =>
    intro t
    exact ⟨t.pack_lt, t.pack_eq_or, unpack_eq_ok_iff.mpr rfl⟩
  case words =>
    intro w
    refine ⟨fun t => unpack_eq_ok_iff, unpack_cases w.toNat, ?_⟩
    have hhigh : Nat.pow 16 Dimension.all.length ≤ w.toNat ↔ ∃ i, 48 ≤ i ∧ w.toNat.testBit i := by
      constructor
      · intro h
        exact Nat.exists_ge_and_testBit_of_ge_two_pow (n := 48) h
      · rintro ⟨i, hi, hbit⟩
        have hle : 2 ^ 48 ≤ 2 ^ i := Nat.pow_le_pow_right Nat.two_pos hi
        exact Nat.le_trans hle (Nat.ge_two_pow_of_testBit hbit)
    rw [unpack_eq_error_iff, unpack?_eq_none_iff, hhigh]
    simp only [nibble, Nibbles.nibble_eq_and]
  case ids =>
    intro t
    exact ⟨t, unpack_eq_ok_iff.mpr rfl, t.map_ofId?_ids, t.map_dimension_values⟩

end Tags

end VolumeWatch
