/-!
Categories: finite types whose values have an order, a label to show and a name to store.

Main statement: the position of a value and the list of values determine each other
(`ofOrdinal?_eq_some_iff`).
-/

namespace VolumeWatch

/-- A finite type with its values listed in order. -/
class Category (τ : Type) where
  values : List τ
  ordinal : τ → Nat
  /-- The text shown for a value. -/
  label : τ → String
  /-- The name a value is stored under. -/
  name : τ → String
  values_getElem?_ordinal : ∀ v, values[ordinal v]? = some v
  map_ordinal_values : values.map ordinal = List.range values.length

namespace Category

variable {τ : Type} [Category τ]

def cardinality (τ : Type) [Category τ] : Nat := (values : List τ).length

def ofOrdinal? (n : Nat) : Option τ := (values : List τ)[n]?

def ofName? (s : String) : Option τ := (values : List τ).find? (name · == s)

theorem ordinal_lt (v : τ) : ordinal v < cardinality τ :=
  (List.getElem?_eq_some_iff.mp (values_getElem?_ordinal v)).1

theorem ordinal_of_ofOrdinal? {n : Nat} {v : τ} (h : ofOrdinal? n = some v) : ordinal v = n := by
  obtain ⟨hn, hv⟩ := List.getElem?_eq_some_iff.mp h
  have hm := congrArg (fun l => l[n]?) (map_ordinal_values (τ := τ))
  simpa [hn, hv] using hm

/-- A value is read from a position exactly if that is its own position. -/
theorem ofOrdinal?_eq_some_iff {n : Nat} {v : τ} : ofOrdinal? n = some v ↔ ordinal v = n :=
  ⟨ordinal_of_ofOrdinal?, fun h => h ▸ values_getElem?_ordinal v⟩

theorem ofOrdinal?_eq_none_iff {n : Nat} : (ofOrdinal? n : Option τ) = none ↔ cardinality τ ≤ n :=
  List.getElem?_eq_none_iff

theorem ordinal_inj {v w : τ} (h : ordinal v = ordinal w) : v = w :=
  Option.some.inj <| by rw [← values_getElem?_ordinal v, ← values_getElem?_ordinal w, h]

end Category

end VolumeWatch
