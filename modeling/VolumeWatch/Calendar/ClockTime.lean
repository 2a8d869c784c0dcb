import VolumeWatch.Text.Digits

/-!
Times of day.

A time of day is a second of the day and nanoseconds past it. A leap second is a second with more
than a thousand million nanoseconds: it comes after every other instant of its second and before
the next second.
-/

namespace VolumeWatch.Calendar

/-- The decimals of a second: none, three, six or nine of them, the fewest that are exact. -/
def fractionText (nanos : Nat) : String :=
  if nanos = 0 then ""
  else if nanos % 1000000 = 0 then "." ++ Text.padded 3 (nanos / 1000000)
  else if nanos % 1000 = 0 then "." ++ Text.padded 6 (nanos / 1000)
  else "." ++ Text.padded 9 nanos

structure ClockTime where
  second : Nat
  nanos : Nat := 0
  deriving DecidableEq, Inhabited

namespace ClockTime

/-- Times of day in order, with room for a leap second after each second. -/
def key (t : ClockTime) : Nat := t.second * 2000000000 + t.nanos

instance : LE ClockTime := ⟨fun a b => a.key ≤ b.key⟩
instance : LT ClockTime := ⟨fun a b => a.key < b.key⟩
instance : DecidableLE ClockTime := fun a b => inferInstanceAs (Decidable (a.key ≤ b.key))
instance : DecidableLT ClockTime := fun a b => inferInstanceAs (Decidable (a.key < b.key))

theorem le_iff {a b : ClockTime} : a ≤ b ↔ a.key ≤ b.key := Iff.rfl

theorem lt_iff {a b : ClockTime} : a < b ↔ a.key < b.key := Iff.rfl

def ofParts (hour minute second : Nat) : ClockTime := ⟨hour * 3600 + minute * 60 + second, 0⟩

/-- Whole seconds from an earlier time of day that is not in a leap second. -/
def secondsSince (t start : ClockTime) : Nat :=
  (t.second * 1000000000 + t.nanos - (start.second * 1000000000 + start.nanos)) /
    1000000000

/-- Hours, minutes, seconds and decimals, the leap second being the sixtieth or later. -/
def text (t : ClockTime) : String :=
  let leap := t.nanos / 1000000000
  Text.padded 2 (t.second / 3600) ++ ":" ++ Text.padded 2 (t.second / 60 % 60) ++ ":" ++
    Text.padded 2 (t.second % 60 + leap) ++ fractionText (t.nanos % 1000000000)

end ClockTime

end VolumeWatch.Calendar
