import VolumeWatch.Decimal.Numeral

/-!
JSON values.

Objects keep their members in order and may repeat a key. Texts are `none` where an escape leaves
half of a surrogate pair: such a text may stand in a part that nobody reads.
-/

namespace VolumeWatch

inductive Json where
  | null
  | bool (b : Bool)
  | number (n : Numeral)
  | text (s : Option String)
  | array (items : List Json)
  | object (members : List (Option String × Json))
  deriving Inhabited

namespace Json

def ofText (s : String) : Json := .text (some s)

def ofNat (n : Nat) : Json := .number (.ofNat n)

/-- A number, or null where there is no number to write. -/
def ofFloat (x : Float) : Json := ((Numeral.ofFloat? .record x).map .number).getD .null

def ofMembers (members : List (String × Json)) : Json :=
  .object (members.map fun (key, value) => (some key, value))

end Json

end VolumeWatch
