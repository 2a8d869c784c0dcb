import VolumeWatch.Decimal.Shortest
import VolumeWatch.Text.Digits

/-!
Numerals: numbers as they are written, digit by digit, with an optional power of ten.

Numbers are written in one of two styles. In messages a number has no exponent and no decimals
that it does not need. In stored records it has at least one decimal, and an exponent where its
size is below `1e-5` or from `1e16` on.
-/

namespace VolumeWatch

structure Numeral where
  negative : Bool
  whole : List Nat
  fraction : List Nat
  exponent : Option Int
  deriving DecidableEq, Inhabited

/-- Where a number gets an exponent, how many decimals it has at least, and which of two shortest
decimals at the same distance it is written as. -/
structure NumeralStyle where
  tie : Tie
  leastDecimals : Nat
  /-- The number whose highest digit stands for this power of ten is written without exponent. -/
  positional : Int → Bool

namespace NumeralStyle

/-- Messages write every digit and nothing else. -/
def message : NumeralStyle := ⟨.up, 0, fun _ => true⟩

/-- Stored records mark numbers with a decimal and shorten the very large and the very small. -/
def record : NumeralStyle := ⟨.even, 1, fun magnitude => -5 ≤ magnitude && magnitude < 16⟩

end NumeralStyle

namespace Numeral

def digitsOf (n : Nat) : List Nat := (Text.digitChars n).filterMap Text.digit?

def ofNat (n : Nat) : Numeral := ⟨false, digitsOf n, [], none⟩

/-- The digits of a number around the point. -/
def positional (d : Decimal) (leastDecimals : Nat) : Numeral :=
  let digits := digitsOf d.coefficient ++ List.replicate d.exponent.toNat 0
  let decimals := (-d.exponent).toNat
  let digits := List.replicate (decimals + 1 - digits.length) 0 ++ digits
  let fraction := digits.drop (digits.length - decimals)
  { negative := d.negative
    whole := digits.take (digits.length - decimals)
    fraction := fraction ++ List.replicate (leastDecimals - fraction.length) 0
    exponent := none }

/-- One digit before the point, the others after it, and the power of ten. -/
def scientific (d : Decimal) (magnitude : Int) : Numeral :=
  let digits := digitsOf d.coefficient
  ⟨d.negative, digits.take 1, digits.drop 1, some magnitude⟩

def ofDecimal (style : NumeralStyle) (d : Decimal) : Numeral :=
  let magnitude := (digitsOf d.coefficient).length - 1 + d.exponent
  if d.coefficient = 0 ∨ style.positional magnitude then positional d style.leastDecimals
  else scientific d magnitude

def ofFloat? (style : NumeralStyle) (x : Float) : Option Numeral :=
  (Decimal.shortest? style.tie x).map (ofDecimal style)

def digitText (ds : List Nat) : String := String.ofList (ds.map Nat.digitChar)

def text (n : Numeral) : String :=
  (if n.negative then "-" else "") ++ digitText n.whole ++
    (if n.fraction.isEmpty then "" else "." ++ digitText n.fraction) ++
    match n.exponent with
    | none => ""
    | some e => "e" ++ (if e < 0 then "-" else "+") ++ toString e.natAbs

end Numeral

def Float.messageText (x : Float) : String :=
  match Numeral.ofFloat? .message x with
  | some n => n.text
  | none => if x.isNaN then "NaN" else if x < 0 then "-inf" else "inf"

end VolumeWatch
