/-!
Decimal digits of whole numbers.
-/

namespace VolumeWatch.Text

def digit? (c : Char) : Option Nat :=
  if '0' ≤ c ∧ c ≤ '9' then some (c.toNat - '0'.toNat) else none

def isDigit (c : Char) : Bool := (digit? c).isSome

/-- The number that digits spell, the first digit being the highest. -/
def ofDigits (ds : List Nat) : Nat := ds.foldl (10 * · + ·) 0

/-- The number that characters spell, if there is one and all are digits. -/
def natOfDigits? (cs : List Char) : Option Nat :=
  if cs.isEmpty then none else (cs.mapM digit?).map ofDigits

/-- The digits of a number, without leading zeros. -/
def digitChars (n : Nat) : List Char := Nat.toDigits 10 n

/-- The digits of a number, with leading zeros up to a width. -/
def padded (width n : Nat) : String :=
  let ds := digitChars n
  String.ofList (List.replicate (width - ds.length) '0' ++ ds)

end VolumeWatch.Text
