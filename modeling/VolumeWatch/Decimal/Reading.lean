import VolumeWatch.Decimal.Numeral
import VolumeWatch.Text.Blank

/-!
Reading of numbers.

Settings are read to the nearest `Float`. The numbers of stored records are read from as many
digits as fit a 64-bit word, scaled by a power of ten in steps that are rounded one by one.
-/

namespace VolumeWatch

abbrev wordBound : Nat := Nat.pow 2 64

namespace Numeral

/-- The whole number of a numeral without sign, point and exponent. -/
def toNat? (n : Numeral) : Option Nat :=
  if !n.negative && n.fraction.isEmpty && n.exponent.isNone then some (Text.ofDigits n.whole)
  else none

/-- Digits of a number that go into one word. -/
structure Significand where
  word : Nat
  exponent : Int

/-- Digits before the point: from the first that does not fit on, each is a power of ten. -/
def Significand.takeWhole (s : Significand) : List Nat → Significand
  | [] => s
  | d :: ds =>
    if 10 * s.word + d < wordBound then takeWhole ⟨10 * s.word + d, s.exponent⟩ ds
    else ⟨s.word, s.exponent + (d :: ds).length⟩

/-- Digits after the point: from the first that does not fit on, they are dropped. -/
def Significand.takeFraction (s : Significand) : List Nat → Significand
  | [] => s
  | d :: ds =>
    if 10 * s.word + d < wordBound then takeFraction ⟨10 * s.word + d, s.exponent - 1⟩ ds
    else s

def significand (n : Numeral) : Significand :=
  ((⟨0, 0⟩ : Significand).takeWhole n.whole).takeFraction n.fraction

/-- A power of ten that a `Float` can hold. -/
def powerOfTen (n : Nat) : Float := Float.ofScientific 1 false n

/-- Scale down by `10 ^ n`, in steps of at most `10 ^ 308`. -/
def scaleDown (x : Float) (n : Nat) : Float :=
  if n ≤ 308 then x / powerOfTen n
  else if x == 0 then x
  else scaleDown (x / powerOfTen 308) (n - 308)
termination_by n

/-- Scale up by `10 ^ n`, unless that leaves the finite numbers. -/
def scaleUp? (x : Float) (n : Nat) : Option Float :=
  if n ≤ 308 then
    let y := x * powerOfTen n
    if y.isInf then none else some y
  else if x == 0 then some x
  else none

/-- The largest exponent that is read digit by digit. -/
abbrev exponentBound : Int := 2147483647

/-- The number of a numeral, unless it is too large for a finite `Float`. -/
def toFloat? (n : Numeral) : Option Float :=
  let s := n.significand
  let size :=
    match n.exponent with
    | some e =>
      if exponentBound < e then if s.word = 0 then some 0.0 else none
      else if e < -exponentBound then some 0.0
      else scale s.word (s.exponent + e)
    | none => scale s.word s.exponent
  size.map fun x => if n.negative then -x else x
where
  scale (word : Nat) (exponent : Int) : Option Float :=
    if 0 ≤ exponent then scaleUp? (Float.ofNat word) exponent.toNat
    else some (scaleDown (Float.ofNat word) (-exponent).toNat)

end Numeral

namespace Reading

/-- A whole number below a bound, with an optional plus sign. -/
def nat? (bound : Nat) (cs : List Char) : Option Nat := do
  let digits := match cs with
    | '+' :: rest => rest
    | _ => cs
  let n ← Text.natOfDigits? digits
  if n < bound then some n else none

/-- The digits at the start of a text, and the rest. -/
def digits (cs : List Char) : List Nat × List Char :=
  ((cs.takeWhile Text.isDigit).filterMap Text.digit?, cs.dropWhile Text.isDigit)

/-- The power of ten at the end of a number. -/
def exponent? : List Char → Option Int
  | [] => some 0
  | c :: rest =>
    if c = 'e' ∨ c = 'E' then
      match rest with
      | '-' :: ds => (Text.natOfDigits? ds).map fun n => -(n : Int)
      | '+' :: ds => (Text.natOfDigits? ds).map fun n => (n : Int)
      | ds => (Text.natOfDigits? ds).map fun n => (n : Int)
    else none

/-- The `Float` nearest to `coefficient * 10 ^ exponent`. -/
def nearest (coefficient : Nat) (exponent : Int) : Float :=
  let magnitude := (Text.digitChars coefficient).length + exponent
  if coefficient = 0 ∨ magnitude < -400 then 0.0
  else if 400 < magnitude then 1.0 / 0.0
  else Float.ofScientific coefficient (exponent < 0) exponent.natAbs

/-- A number without sign. -/
def unsigned? (cs : List Char) : Option Float :=
  let lower := cs.map Char.toLower
  if lower = "inf".toList ∨ lower = "infinity".toList then some (1.0 / 0.0)
  else if lower = "nan".toList then some (0.0 / 0.0)
  else
    let (whole, rest) := digits cs
    let (fraction, rest) := match rest with
      | '.' :: rest => digits rest
      | _ => ([], rest)
    if whole.isEmpty && fraction.isEmpty then none
    else (exponent? rest).map fun e =>
      nearest (Text.ofDigits (whole ++ fraction)) (e - fraction.length)

def float? : List Char → Option Float
  | '-' :: rest => (unsigned? rest).map fun x => -x
  | '+' :: rest => unsigned? rest
  | cs => unsigned? cs

end Reading

end VolumeWatch
