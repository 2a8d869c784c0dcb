import VolumeWatch.Tag.Bucket
import VolumeWatch.Timeframe

/-!
Dimensions and tag values. A tag value is a dimension together with one of its categories, so
that two dimensions that share a category type never share a value.
-/

namespace VolumeWatch

/-- One of the twelve aspects that an alert is tagged with. -/
inductive Dimension where
  | optionType
  | timeframe
  | moneyness
  | timeOfDay
  | volumeDeviation
  | volumeLevel
  | underlyingRange
  | optionRange
  | underlyingDaily
  | underlyingLocal
  | optionDaily
  | optionLocal
  deriving DecidableEq, Inhabited

namespace Dimension

instance : Category Dimension where
  values := [.optionType, .timeframe, .moneyness, .timeOfDay, .volumeDeviation, .volumeLevel,
    .underlyingRange, .optionRange, .underlyingDaily, .underlyingLocal, .optionDaily, .optionLocal]
  ordinal := Dimension.ctorIdx
  label
    | .optionType => "option_type"
    | .timeframe => "timeframe"
    | .moneyness => "moneyness"
    | .timeOfDay => "time_of_day"
    | .volumeDeviation => "volume_stdev"
    | .volumeLevel => "volume_threshold"
    | .underlyingRange => "underlying_price_delta"
    | .optionRange => "option_price_delta"
    | .underlyingDaily => "underlying_daily_hl"
    | .underlyingLocal => "underlying_local_hl"
    | .optionDaily => "option_daily_hl"
    | .optionLocal => "option_local_hl"
  name
    | .optionType => "OptionType"
    | .timeframe => "Timeframe"
    | .moneyness => "Moneyness"
    | .timeOfDay => "TimeOfDay"
    | .volumeDeviation => "VolumeStdev"
    | .volumeLevel => "VolumeThreshold"
    | .underlyingRange => "UnderlyingPriceDelta"
    | .optionRange => "OptionPriceDelta"
    | .underlyingDaily => "UnderlyingDailyHighLow"
    | .underlyingLocal => "UnderlyingLocalHighLow"
    | .optionDaily => "OptionDailyHighLow"
    | .optionLocal => "OptionLocalHighLow"
  values_getElem?_ordinal v := by cases v <;> rfl
  map_ordinal_values := rfl

def all : List Dimension := Category.values

theorem mem_all (d : Dimension) : d ∈ all := by cases d <;> decide

def ofLabel? (s : String) : Option Dimension := all.find? (Category.label · == s)

/-- The categories of a dimension. -/
@[reducible] def Value : Dimension → Type
  | .optionType => OptionType
  | .timeframe => Timeframe
  | .moneyness => Moneyness
  | .timeOfDay => SessionSlot
  | .volumeDeviation => VolumeDeviation
  | .volumeLevel => VolumeLevel
  | .underlyingRange => RangeDeviation
  | .optionRange => RangeDeviation
  | .underlyingDaily => DailyExtreme
  | .underlyingLocal => LocalExtreme
  | .optionDaily => DailyExtreme
  | .optionLocal => LocalExtreme

instance category : (d : Dimension) → Category d.Value
  | .optionType => inferInstanceAs (Category OptionType)
  | .timeframe => inferInstanceAs (Category Timeframe)
  | .moneyness => inferInstanceAs (Category Moneyness)
  | .timeOfDay => inferInstanceAs (Category SessionSlot)
  | .volumeDeviation => inferInstanceAs (Category VolumeDeviation)
  | .volumeLevel => inferInstanceAs (Category VolumeLevel)
  | .underlyingRange => inferInstanceAs (Category RangeDeviation)
  | .optionRange => inferInstanceAs (Category RangeDeviation)
  | .underlyingDaily => inferInstanceAs (Category DailyExtreme)
  | .underlyingLocal => inferInstanceAs (Category LocalExtreme)
  | .optionDaily => inferInstanceAs (Category DailyExtreme)
  | .optionLocal => inferInstanceAs (Category LocalExtreme)

def cardinality (d : Dimension) : Nat := Category.cardinality d.Value

/-- Number of tag values of the dimensions before this one. -/
def offset (d : Dimension) : Nat := ((all.take (Category.ordinal d)).map cardinality).foldr (· + ·) 0

theorem cardinality_le (d : Dimension) : d.cardinality ≤ 11 := by cases d <;> decide

end Dimension

/-- A category of one dimension. -/
structure TagValue where
  dimension : Dimension
  value : dimension.Value

namespace TagValue

/-- Position of a tag value within its dimension. -/
def ordinal (v : TagValue) : Nat := Category.ordinal v.value

/-- Position of a tag value among all tag values, dimension after dimension. -/
def id (v : TagValue) : Nat := v.dimension.offset + v.ordinal

/-- The tag value of a dimension at a position. -/
def ofParts? (d : Dimension) (ordinal : Nat) : Option TagValue :=
  (Category.ofOrdinal? ordinal : Option d.Value).map (⟨d, ·⟩)

/-- All tag values in the order of their ids. -/
def all : List TagValue := Dimension.all.flatMap fun d => (Category.values : List d.Value).map (⟨d, ·⟩)

def ofId? (n : Nat) : Option TagValue := all[n]?

def label (v : TagValue) : String := Category.label v.value

/-- The text shown for a tag value: its dimension and its category. -/
def display (v : TagValue) : String := Category.label v.dimension ++ "=" ++ v.label

theorem id_lt_offset_add (v : TagValue) :
    v.id < v.dimension.offset + v.dimension.cardinality :=
  Nat.add_lt_add_left (Category.ordinal_lt v.value) _

theorem length_all : all.length = 52 := by decide

theorem map_id_all : all.map id = List.range 52 := by decide

theorem mem_all (v : TagValue) : v ∈ all := by
  obtain ⟨d, v⟩ := v
  refine List.mem_flatMap.mpr ⟨d, Dimension.mem_all d, List.mem_map.mpr ⟨v, ?_, rfl⟩⟩
  exact List.mem_of_getElem? (Category.values_getElem?_ordinal v)

/-- Ids and tag values determine each other. -/
theorem ofId?_id (v : TagValue) : ofId? v.id = some v := by
  obtain ⟨i, hi, h⟩ := List.getElem_of_mem (mem_all v)
  have hm : (all.map id)[i]? = (List.range 52)[i]? := by rw [map_id_all]
  have hr : i < 52 := by simpa [length_all] using hi
  have hid : v.id = i := by simpa [hi, hr, h] using hm
  rw [ofId?, hid, List.getElem?_eq_getElem hi, h]

theorem id_inj {v w : TagValue} (h : v.id = w.id) : v = w :=
  Option.some.inj <| by rw [← ofId?_id v, ← ofId?_id w, h]

instance : DecidableEq TagValue := fun v w =>
  decidable_of_iff (v.id = w.id) ⟨id_inj, congrArg id⟩

end TagValue

end VolumeWatch
