import VolumeWatch.Category
import VolumeWatch.Scalar

/-!
The categories that an alert is sorted into, and the rules that choose a category from a
measurement. Each rule is a ladder of bounds read from below, so that a measurement that is not
a number ends in the last category.
-/

namespace VolumeWatch

inductive OptionType where
  | call
  | put
  deriving DecidableEq, Inhabited

/-- Distance of a strike from the money, counted in strikes on either side. -/
inductive Moneyness where
  | deepItm | itm4 | itm3 | itm2 | itm1 | atm | otm1 | otm2 | otm3 | otm4 | deepOtm
  deriving DecidableEq, Inhabited

/-- Hour of the trading session, counted from its open. -/
inductive SessionSlot where
  | slot1 | slot2 | slot3 | slot4 | slot5 | slot6 | slot7
  deriving DecidableEq, Inhabited

/-- Deviation of a volume from the mean of its timeframe, in standard deviations. -/
inductive VolumeDeviation where
  | lowVol | over1 | over2 | over3 | over4
  deriving DecidableEq, Inhabited

inductive VolumeLevel where
  | lowVol | vol100 | vol250 | vol500 | vol1000
  deriving DecidableEq, Inhabited

/-- Deviation of a price range from the mean of its timeframe, in standard deviations. -/
inductive RangeDeviation where
  | under1 | under2 | over2
  deriving DecidableEq, Inhabited

/-- Nearness of a price to the extremes of the day. -/
inductive DailyExtreme where
  | nearLow | nearHigh | inside
  deriving DecidableEq, Inhabited

/-- Nearness of a price to the extremes of the last completed local window. -/
inductive LocalExtreme where
  | nearLow | nearHigh | inside
  deriving DecidableEq, Inhabited

instance : Category OptionType where
  values := [.call, .put]
  ordinal := OptionType.ctorIdx
  label
    | .call => "call"
    | .put => "put"
  name
    | .call => "Call"
    | .put => "Put"
  values_getElem?_ordinal v := by cases v <;> rfl
  map_ordinal_values := rfl

instance : Category Moneyness where
  values := [.deepItm, .itm4, .itm3, .itm2, .itm1, .atm, .otm1, .otm2, .otm3, .otm4, .deepOtm]
  ordinal := Moneyness.ctorIdx
  label
    | .deepItm => "deep_itm"
    | .itm4 => "itm4"
    | .itm3 => "itm3"
    | .itm2 => "itm2"
    | .itm1 => "itm1"
    | .atm => "atm"
    | .otm1 => "otm1"
    | .otm2 => "otm2"
    | .otm3 => "otm3"
    | .otm4 => "otm4"
    | .deepOtm => "deep_otm"
  name
    | .deepItm => "DeepItm"
    | .itm4 => "Itm4"
    | .itm3 => "Itm3"
    | .itm2 => "Itm2"
    | .itm1 => "Itm1"
    | .atm => "Atm"
    | .otm1 => "Otm1"
    | .otm2 => "Otm2"
    | .otm3 => "Otm3"
    | .otm4 => "Otm4"
    | .deepOtm => "DeepOtm"
  values_getElem?_ordinal v := by cases v <;> rfl
  map_ordinal_values := rfl

instance : Category SessionSlot where
  values := [.slot1, .slot2, .slot3, .slot4, .slot5, .slot6, .slot7]
  ordinal := SessionSlot.ctorIdx
  label
    | .slot1 => "slot1"
    | .slot2 => "slot2"
    | .slot3 => "slot3"
    | .slot4 => "slot4"
    | .slot5 => "slot5"
    | .slot6 => "slot6"
    | .slot7 => "slot7"
  name
    | .slot1 => "Slot1"
    | .slot2 => "Slot2"
    | .slot3 => "Slot3"
    | .slot4 => "Slot4"
    | .slot5 => "Slot5"
    | .slot6 => "Slot6"
    | .slot7 => "Slot7"
  values_getElem?_ordinal v := by cases v <;> rfl
  map_ordinal_values := rfl

instance : Category VolumeDeviation where
  values := [.lowVol, .over1, .over2, .over3, .over4]
  ordinal := VolumeDeviation.ctorIdx
  label
    | .lowVol => "low_vol"
    | .over1 => "over1"
    | .over2 => "over2"
    | .over3 => "over3"
    | .over4 => "over4"
  name
    | .lowVol => "LowVol"
    | .over1 => "Over1"
    | .over2 => "Over2"
    | .over3 => "Over3"
    | .over4 => "Over4"
  values_getElem?_ordinal v := by cases v <;> rfl
  map_ordinal_values := rfl

instance : Category VolumeLevel where
  values := [.lowVol, .vol100, .vol250, .vol500, .vol1000]
  ordinal := VolumeLevel.ctorIdx
  label
    | .lowVol => "low_vol"
    | .vol100 => "vol100"
    | .vol250 => "vol250"
    | .vol500 => "vol500"
    | .vol1000 => "vol1000"
  name
    | .lowVol => "LowVol"
    | .vol100 => "Vol100"
    | .vol250 => "Vol250"
    | .vol500 => "Vol500"
    | .vol1000 => "Vol1000"
  values_getElem?_ordinal v := by cases v <;> rfl
  map_ordinal_values := rfl

instance : Category RangeDeviation where
  values := [.under1, .under2, .over2]
  ordinal := RangeDeviation.ctorIdx
  label
    | .under1 => "under1"
    | .under2 => "under2"
    | .over2 => "over2"
  name
    | .under1 => "Under1"
    | .under2 => "Under2"
    | .over2 => "Over2"
  values_getElem?_ordinal v := by cases v <;> rfl
  map_ordinal_values := rfl

instance : Category DailyExtreme where
  values := [.nearLow, .nearHigh, .inside]
  ordinal := DailyExtreme.ctorIdx
  label
    | .nearLow => "ndl"
    | .nearHigh => "ndh"
    | .inside => "inside"
  name
    | .nearLow => "NearDailyLow"
    | .nearHigh => "NearDailyHigh"
    | .inside => "Inside"
  values_getElem?_ordinal v := by cases v <;> rfl
  map_ordinal_values := rfl

instance : Category LocalExtreme where
  values := [.nearLow, .nearHigh, .inside]
  ordinal := LocalExtreme.ctorIdx
  label
    | .nearLow => "nll"
    | .nearHigh => "nlh"
    | .inside => "inside"
  name
    | .nearLow => "NearLocalLow"
    | .nearHigh => "NearLocalHigh"
    | .inside => "Inside"
  values_getElem?_ordinal v := by cases v <;> rfl
  map_ordinal_values := rfl

namespace Moneyness

/-- The category of a strike that lies `strikes` strikes from the money. -/
def ofStrikes (inTheMoney : Bool) (strikes : Nat) : Moneyness :=
  match strikes, inTheMoney with
  | 0, _ => .atm
  | 1, true => .itm1
  | 2, true => .itm2
  | 3, true => .itm3
  | 4, true => .itm4
  | _, true => .deepItm
  | 1, false => .otm1
  | 2, false => .otm2
  | 3, false => .otm3
  | 4, false => .otm4
  | _, false => .deepOtm

/-- The same distance on the other side of the money. -/
def opposite : Moneyness → Moneyness
  | .deepItm => .deepOtm
  | .itm4 => .otm4
  | .itm3 => .otm3
  | .itm2 => .otm2
  | .itm1 => .otm1
  | .atm => .atm
  | .otm1 => .itm1
  | .otm2 => .itm2
  | .otm3 => .itm3
  | .otm4 => .itm4
  | .deepOtm => .deepItm

@[simp] theorem opposite_opposite (m : Moneyness) : m.opposite.opposite = m := by cases m <;> rfl

theorem opposite_ofStrikes (inTheMoney : Bool) (strikes : Nat) :
    (ofStrikes inTheMoney strikes).opposite = ofStrikes (!inTheMoney) strikes := by
  match strikes with
  | 0 => rfl
  | 1 | 2 | 3 | 4 | _ + 5 => cases inTheMoney <;> rfl

end Moneyness

section Ladders

variable {α : Type} [Scalar α]

def VolumeDeviation.ofDeviations (x : α) : VolumeDeviation :=
  if x ≤ ((1 : Nat) : α) then .lowVol
  else if x ≤ ((2 : Nat) : α) then .over1
  else if x ≤ ((3 : Nat) : α) then .over2
  else if x ≤ ((4 : Nat) : α) then .over3
  else .over4

def VolumeLevel.ofVolume (x : α) : VolumeLevel :=
  if x ≤ ((100 : Nat) : α) then .lowVol
  else if x ≤ ((250 : Nat) : α) then .vol100
  else if x ≤ ((500 : Nat) : α) then .vol250
  else if x ≤ ((1000 : Nat) : α) then .vol500
  else .vol1000

def RangeDeviation.ofDeviations (x : α) : RangeDeviation :=
  if x < ((1 : Nat) : α) then .under1
  else if x < ((2 : Nat) : α) then .under2
  else .over2

end Ladders

/-- A price near both extremes counts as near the low. -/
def DailyExtreme.ofNear (low high : Bool) : DailyExtreme :=
  if low then .nearLow else if high then .nearHigh else .inside

/-- A price near both extremes counts as near the low. -/
def LocalExtreme.ofNear (low high : Bool) : LocalExtreme :=
  if low then .nearLow else if high then .nearHigh else .inside

end VolumeWatch
