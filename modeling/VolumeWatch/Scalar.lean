/-!
The numbers that prices, volumes and statistics are made of.

Every rule of the library is written once, over a `Scalar`. Programs use it at `Float`, where
each operation rounds; the same definitions can be read over an exact field, where `isNaN` never
holds, `isFinite` always does and `bounded` is the identity.
-/

namespace VolumeWatch

/-- The operations and comparisons that the rules of the library apply to their numbers. -/
class Scalar (α : Type) extends Zero α, NatCast α, Add α, Sub α, Mul α, Div α, LT α, LE α where
  decidableLT : DecidableLT α
  decidableLE : DecidableLE α
  abs : α → α
  sqrt : α → α
  neg : α → α
  /-- Not a number: a value that no comparison holds for. -/
  isNaN : α → Bool
  isFinite : α → Bool
  /-- The least upper bound for a running minimum that a single value gives: the value itself,
  or the top of the number line when the value is not a number. -/
  bounded : α → α
  /-- The least whole number that is not below the argument, within the range of 32-bit words:
  zero for what lies below zero or is not a number, the largest word for what lies above it. -/
  ceiling : α → Nat
  /-- A total order of all values, in which minus zero is below zero. -/
  compareTotal : α → α → Ordering

attribute [reducible, instance] Scalar.decidableLT Scalar.decidableLE

namespace Scalar

variable {α : Type} [Scalar α]

/-- The larger of two values. A value that is not a number loses to the other one, and of two
equal values the first is taken. -/
def max (x y : α) : α := if isNaN x then y else if x < y then y else x

/-- The smaller of two values. A value that is not a number loses to the other one, and of two
equal values the first is taken. -/
def min (x y : α) : α := if isNaN x then y else if y < x then y else x

/-- The smallest standard deviation that counts as spread, `2 ^ -52`. -/
def epsilon : α := ((1 : Nat) : α) / ((Nat.pow 2 52 : Nat) : α)

def half : α := ((1 : Nat) : α) / ((2 : Nat) : α)

/-- The sum in list order, starting from the first value. -/
def sum : List α → α
  | [] => 0
  | x :: xs => xs.foldl (· + ·) x

/-- The bits of a value as a signed rank: sign and magnitude become one ordered integer. -/
def floatRank (x : Float) : Int :=
  let bits := x.toBits.toNat
  if bits < Nat.pow 2 63 then bits else Nat.pow 2 63 - 1 - (bits : Int)

instance : Scalar Float where
  zero := 0.0
  natCast := Float.ofNat
  decidableLT := inferInstance
  decidableLE := inferInstance
  abs := Float.abs
  sqrt := Float.sqrt
  neg := Float.neg
  isNaN := Float.isNaN
  isFinite := Float.isFinite
  bounded x := if x.isNaN then 1.0 / 0.0 else x
  ceiling x := x.ceil.toUInt32.toNat
  compareTotal x y := compare (floatRank x) (floatRank y)

end Scalar

end VolumeWatch
