/-!
The shortest decimal of a binary number.

A finite `Float` is `mantissa * 2 ^ exponent`. The decimals nearer to it than to every other
`Float` form an interval around it, whose ends belong to it if the mantissa is even. On each grid
of decimals with one, two, three and more digits the two neighbours of the value are tested
against that interval: the first grid with a neighbour inside wins, and of two such neighbours the
nearer. If any point of a grid lies inside the interval, so does one of the two neighbours, so that
no shorter decimal reads back. Two neighbours at the same distance are told apart by a rule that
belongs to the form the number is written in.
-/

namespace VolumeWatch

/-- The number `± coefficient * 10 ^ exponent`. -/
structure Decimal where
  negative : Bool
  coefficient : Nat
  exponent : Int
  deriving DecidableEq, Inhabited

/-- Which of two neighbours at the same distance is taken. -/
inductive Tie where
  | even
  | up
  deriving DecidableEq

/-- The number `mantissa * 2 ^ exponent`, and whether the next number below it is half as far away
as the next one above. -/
structure Binary where
  mantissa : Nat
  exponent : Int
  narrowBelow : Bool

namespace Binary

/-- The size of a finite `Float`, read off its bits. -/
def ofBits (bits : Nat) : Binary :=
  let fraction : Nat := bits % Nat.pow 2 52
  let scale : Nat := bits / Nat.pow 2 52 % Nat.pow 2 11
  if scale = 0 then ⟨fraction, -1074, false⟩
  else ⟨Nat.pow 2 52 + fraction, (scale : Int) - 1075, fraction == 0 && 1 < scale⟩

/-- The two factors that bring quarters of `2 ^ exponent` and multiples of `10 ^ grid` to one
common unit. -/
def factors (b : Binary) (grid : Int) : Nat × Nat :=
  let power := b.exponent - 2
  (Nat.pow 2 power.toNat * Nat.pow 10 (-grid).toNat,
    Nat.pow 2 (-power).toNat * Nat.pow 10 grid.toNat)

/-- The multiple of `10 ^ grid` lies in the interval of the decimals that read as this number. -/
def admits (b : Binary) (grid : Int) (n : Nat) : Bool :=
  let (two, ten) := b.factors grid
  let low := (4 * b.mantissa - (if b.narrowBelow then 1 else 2)) * two
  let high := (4 * b.mantissa + 2) * two
  if b.mantissa % 2 = 0 then low ≤ n * ten && n * ten ≤ high
  else low < n * ten && n * ten < high

/-- The multiple of `10 ^ grid` that is not above the number. -/
def below (b : Binary) (grid : Int) : Nat :=
  let (two, ten) := b.factors grid
  4 * b.mantissa * two / ten

/-- The nearer of the two multiples of `10 ^ grid` around the number that reads as it. -/
def onGrid? (b : Binary) (tie : Tie) (grid : Int) : Option Nat :=
  let (two, ten) := b.factors grid
  let n := b.below grid
  match b.admits grid n, b.admits grid (n + 1) with
  | true, true =>
    match compare (4 * b.mantissa * two - n * ten) ((n + 1) * ten - 4 * b.mantissa * two) with
    | .lt => some n
    | .gt => some (n + 1)
    | .eq => if tie = .even ∧ n % 2 = 0 then some n else some (n + 1)
  | true, false => some n
  | false, true => some (n + 1)
  | false, false => none

/-- The exponent of the largest power of ten that is not above the number. -/
def magnitude (b : Binary) : Int :=
  let guess := ((Nat.log2 b.mantissa : Int) + b.exponent) * 30103 / 100000
  if 0 < b.below (guess + 1) then guess + 1
  else if 0 < b.below guess then guess
  else guess - 1

/-- Try grids from a first one on, each ten times as fine as the one before. -/
def search (b : Binary) (tie : Tie) : Nat → Int → Nat × Int
  | 0, grid => (b.below grid, grid)
  | more + 1, grid =>
    match b.onGrid? tie grid with
    | some n => (n, grid)
    | none => search b tie more (grid - 1)

/-- Take zeros off the end of a coefficient. -/
def stripZeros : Nat → Nat → Int → Nat × Int
  | 0, n, e => (n, e)
  | fuel + 1, n, e => if n % 10 = 0 ∧ n ≠ 0 then stripZeros fuel (n / 10) (e + 1) else (n, e)

/-- The shortest decimal that reads as this number, as a coefficient and an exponent of ten. -/
def shortest (b : Binary) (tie : Tie) : Nat × Int :=
  if b.mantissa = 0 then (0, 0)
  else
    let (n, grid) := b.search tie 17 b.magnitude
    stripZeros 18 n grid

end Binary

/-- The shortest decimal that reads as the given value; none for infinities and for what is not a
number. -/
def Decimal.shortest? (tie : Tie) (x : Float) : Option Decimal :=
  if x.isFinite then
    let bits := x.toBits.toNat
    let (coefficient, exponent) := (Binary.ofBits bits).shortest tie
    some ⟨Nat.pow 2 63 ≤ bits, coefficient, exponent⟩
  else none

end VolumeWatch
