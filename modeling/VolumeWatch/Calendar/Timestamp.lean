import VolumeWatch.Calendar.Instant
import VolumeWatch.Calendar.Scan

/-!
Dates with times as text.

Instants are written in universal time, with the fewest of none, three, six or nine decimals that
are exact. They are read from a date, a letter `T` or one space, a time with seconds, and an
offset: blanks may stand before a number and around its separators, decimals past nanoseconds are
dropped, and the sixtieth second is a leap second.
-/

namespace VolumeWatch.Calendar

/-- A time of day read from hours and minutes, such as `09:30`. -/
def ClockTime.ofHourMinute (text : String) : Except ScanFault ClockTime := do
  let (hour, rest) ← Scan.number 2 0 23 text.toList
  let rest ← Scan.literal ':' rest
  let (minute, rest) ← Scan.number 2 0 59 rest
  Scan.finish (.ofParts hour minute 0) rest

namespace Instant

/-- The form used in stored records. -/
def timestamp (t : Instant) : String := t.date.text ++ "T" ++ t.clockTime.text ++ "Z"

/-- The form used in messages. -/
def display (t : Instant) : String := t.date.text ++ " " ++ t.clockTime.text ++ " UTC"

/-- A year: up to four digits, or any number of them after a sign. -/
def scanYear (cs : List Char) : Except ScanFault (Int × List Char) :=
  match Text.skipBlanks cs with
  | '-' :: rest => do
    let (n, rest) ← Scan.digits rest.length rest
    return (-(n : Int), rest)
  | '+' :: rest => do
    let (n, rest) ← Scan.digits rest.length rest
    return ((n : Int), rest)
  | cs => do
    let (n, rest) ← Scan.digits 4 cs
    return ((n : Int), rest)

def scanDate (cs : List Char) : Except ScanFault (Date × List Char) := do
  let (year, rest) ← scanYear cs
  let rest ← Scan.literal '-' (Text.skipBlanks rest)
  let (month, rest) ← Scan.number 2 1 12 rest
  let rest ← Scan.literal '-' (Text.skipBlanks rest)
  let (day, rest) ← Scan.number 2 1 31 rest
  return (⟨year, month, day⟩, rest)

/-- Decimals of a second, as nanoseconds. -/
def scanFraction (cs : List Char) : Except ScanFault (Nat × List Char) :=
  match cs with
  | '.' :: rest => do
    let (n, after) ← Scan.digits 9 rest
    let taken := rest.length - after.length
    return (n * Nat.pow 10 (9 - taken), after.dropWhile Text.isDigit)
  | _ => return (0, cs)

def scanTime (cs : List Char) : Except ScanFault (ClockTime × List Char) := do
  let (hour, rest) ← Scan.number 2 0 23 cs
  let rest ← Scan.literal ':' (Text.skipBlanks rest)
  let (minute, rest) ← Scan.number 2 0 59 rest
  let rest ← Scan.literal ':' (Text.skipBlanks rest)
  let (second, rest) ← Scan.number 2 0 60 rest
  let (nanos, rest) ← scanFraction rest
  if second = 60 then
    return (⟨hour * 3600 + minute * 60 + 59, 1000000000 + nanos⟩, rest)
  else
    return (⟨hour * 3600 + minute * 60 + second, nanos⟩, rest)

def isOffsetSeparator (c : Char) : Bool := c = ':' || Text.isBlank c

/-- Two digits, the first of which is at most `most`. -/
def scanPair (most : Nat) : List Char → Except ScanFault (Nat × List Char)
  | c :: d :: rest =>
    match Text.digit? c, Text.digit? d with
    | some a, some b => if a ≤ most then .ok (10 * a + b, rest) else .error .outOfRange
    | _, _ => .error .invalid
  | _ => .error .premature

/-- Seconds by which a zone is ahead of universal time. -/
def scanOffset (cs : List Char) : Except ScanFault (Int × List Char) :=
  let after (sign : Int) (rest : List Char) : Except ScanFault (Int × List Char) := do
    let (hours, rest) ← scanPair 9 rest
    let (minutes, rest) ← scanPair 5 (rest.dropWhile isOffsetSeparator)
    return (sign * (hours * 3600 + minutes * 60 : Nat), rest)
  match cs with
  | [] => .error .premature
  | c :: rest =>
    if c = 'Z' ∨ c = 'z' then .ok (0, rest)
    else if c = '+' then after 1 rest
    else if c = '-' ∨ c = '\u2212' then after (-1) rest
    else .error .invalid

/-- The universal zone may also be given by its name. -/
def scanZone (cs : List Char) : Except ScanFault (Int × List Char) :=
  if (cs.take 3).map Char.toUpper = ['U', 'T', 'C'] then .ok (0, cs.drop 3) else scanOffset cs

/-- The instant that a local date and time name, if there is one. -/
def ofLocal? (date : Date) (time : ClockTime) (offset : Int) : Option Instant :=
  if h : time.nanos < 2000000000 then
    let t : Instant := ⟨date.toDays * 86400 + time.second - offset, time.nanos, h⟩
    let atZero : Instant := { t with seconds := t.seconds + offset }
    if date.isValid && -86400 < offset && offset < 86400 && atZero.inRange && t.inRange then some t
    else none
  else none

def ofTimestamp? (text : String) : Option Instant := Except.toOption <| do
  let (date, rest) ← scanDate text.toList
  let rest ← match rest with
    | [] => throw .premature
    | c :: rest => if c = 'T' ∨ c = 't' ∨ c = ' ' then pure rest else throw .invalid
  let (time, rest) ← scanTime rest
  let (offset, rest) ← scanZone (Text.skipBlanks rest)
  let t ← (ofLocal? date time offset).elim (throw ScanFault.outOfRange) pure
  Scan.finish t (Text.skipBlanks rest)

end Instant

/-- A time of day read from hours, minutes and seconds, such as `09:30:00`, with decimals
or without. -/
def ClockTime.ofHourMinuteSecond (text : String) : Except ScanFault ClockTime := do
  let (hour, rest) ← Scan.number 2 0 23 text.toList
  let rest ← Scan.literal ':' rest
  let (minute, rest) ← Scan.number 2 0 59 rest
  let rest ← Scan.literal ':' rest
  let (second, rest) ← Scan.number 2 0 59 rest
  let (nanos, rest) ← Instant.scanFraction rest
  Scan.finish { ofParts hour minute second with nanos } rest

end VolumeWatch.Calendar
