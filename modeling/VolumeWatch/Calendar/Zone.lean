import VolumeWatch.Calendar.Instant
import VolumeWatch.Calendar.ZoneTable

/-!
Time zones.

A zone is a list of changes of local time and, for zones that still change their clocks, a rule
that repeats every year. The rules are applied to the end of 2099; later instants keep the last
offset.
-/

namespace VolumeWatch.Calendar

/-- A change of local time on a Sunday of a month. -/
structure SundayChange where
  month : Nat
  /-- The number of the Sunday within its month, or `none` for the last. -/
  week : Option Nat
  /-- Seconds from the start of that day in universal time. -/
  seconds : Int
  /-- Seconds that local time is ahead from then on. -/
  offset : Int

/-- The changes of every year from a first one on, in the order in which they come. -/
structure YearlyChanges where
  firstYear : Int
  changes : List SundayChange

structure Zone where
  name : String
  /-- Seconds that local time was ahead before the first change. -/
  initial : Int
  changes : List OffsetChange
  yearly : Option YearlyChanges
  deriving Inhabited

namespace SundayChange

/-- The day of the change, counted from 1 January 1970. -/
def day (c : SundayChange) (year : Int) : Int :=
  match c.week with
  | some n =>
    let first := Date.toDays ⟨year, c.month, 1⟩
    first + ((7 - weekday first) % 7 : Nat) + 7 * (n - 1)
  | none =>
    let last := Date.toDays ⟨year, c.month, daysInMonth year c.month⟩
    last - weekday last

def inYear (c : SundayChange) (year : Int) : OffsetChange :=
  ⟨c.day year * 86400 + c.seconds, c.offset⟩

end SundayChange

namespace Zone

/-- The last year that yearly changes are applied to. -/
def lastYear : Int := 2099

/-- The yearly changes that can be the last before the end of a year. -/
def yearlyChanges (z : Zone) (year : Int) : List OffsetChange :=
  match z.yearly with
  | none => []
  | some rule =>
    let year := min year lastYear
    [year - 1, year].flatMap fun y =>
      if rule.firstYear ≤ y then rule.changes.map (·.inYear y) else []

/-- Seconds that local time is ahead of universal time. -/
def offsetAt (z : Zone) (t : Instant) : Int :=
  (z.changes ++ z.yearlyChanges t.date.year).foldl
    (fun offset c => if c.start ≤ t.seconds then c.offset else offset) z.initial

def clockTime (z : Zone) (t : Instant) : ClockTime :=
  ⟨((t.seconds + z.offsetAt t) % 86400).toNat, t.nanos⟩

def fixed (name : String) (offset : Int) : Zone := ⟨name, offset, [], none⟩

/-- Summer time from the second Sunday in March to the first in November, at two o'clock. -/
def northAmerican (standard : Int) : YearlyChanges where
  firstYear := 2007
  changes := [⟨3, some 2, 7200 - standard, standard + 3600⟩, ⟨11, some 1, 3600 - standard, standard⟩]

/-- Summer time from the last Sunday in March to the last in October, at one o'clock universal
time. -/
def european (standard : Int) : YearlyChanges where
  firstYear := 1996
  changes := [⟨3, none, 3600, standard + 3600⟩, ⟨10, none, 3600, standard⟩]

/-- Summer time from the first Sunday in October to the first in April, at two o'clock standard
time. -/
def southAustralian (standard : Int) : YearlyChanges where
  firstYear := 2008
  changes := [⟨4, some 1, 7200 - standard, standard⟩, ⟨10, some 1, 7200 - standard, standard + 3600⟩]

def newYork : Zone :=
  ⟨"America/New_York", -17762, ZoneTable.newYork, some (northAmerican (-18000))⟩

end Zone

/-- Zones by name. -/
abbrev Zones := String → Option Zone

end VolumeWatch.Calendar
