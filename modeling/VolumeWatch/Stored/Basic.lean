import VolumeWatch.Category
import VolumeWatch.Json.Basic
import VolumeWatch.Decimal.Reading

/-!
Stored forms: how values are written as JSON and read back.

A record is written as an object with its fields in order. It is read from an object that has each
field once, where other members are skipped, or from an array of its fields in order. A variant
is written as its name, or as an object with its name and its content.
-/

namespace VolumeWatch

class Stored (τ : Type) where
  toJson : τ → Json
  ofJson? : Json → Option τ

export Stored (toJson ofJson?)

namespace Json

/-- The values of a record's fields, in order. -/
def fields? (names : List String) : Json → Option (List Json)
  | .array items => if items.length = names.length then some items else none
  | .object members =>
    if members.all (·.1.isSome) then
      names.mapM fun name =>
        match members.filter (·.1 == some name) with
        | [(_, value)] => some value
        | _ => none
    else none
  | _ => none

/-- The name of a variant, and its content if it has one. -/
def variant? : Json → Option (String × Option Json)
  | .text (some name) => some (name, none)
  | .object [(some name, content)] => some (name, some content)
  | _ => none

/-- A variant without content may have null in its place. -/
def isUnit : Option Json → Bool
  | none | some .null => true
  | _ => false

def ofVariant (name : String) (content : Json) : Json := ofMembers [(name, content)]

def nat? (bound : Nat) : Json → Option Nat
  | .number n => n.toNat?.bind fun n => if n < bound then some n else none
  | _ => none

end Json

instance : Stored Float where
  toJson := .ofFloat
  ofJson?
    | .number n => n.toFloat?
    | _ => none

instance : Stored Bool where
  toJson := .bool
  ofJson?
    | .bool b => some b
    | _ => none

instance : Stored String where
  toJson := .ofText
  ofJson?
    | .text s => s
    | _ => none

/-- Whole numbers are 64-bit words. -/
instance : Stored Nat where
  toJson := .ofNat
  ofJson? := Json.nat? wordBound

instance {τ : Type} [Category τ] : Stored τ where
  toJson v := .ofText (Category.name v)
  ofJson? j := do
    let (name, content) ← j.variant?
    if Json.isUnit content then Category.ofName? name else none

instance {σ τ : Type} [Stored σ] [Stored τ] : Stored (σ × τ) where
  toJson p := .array [toJson p.1, toJson p.2]
  ofJson?
    | .array [a, b] => do return (← ofJson? a, ← ofJson? b)
    | _ => none

instance {τ : Type} [Stored τ] : Stored (List τ) where
  toJson xs := .array (xs.map toJson)
  ofJson?
    | .array items => items.mapM ofJson?
    | _ => none

end VolumeWatch
