import VolumeWatch.Calendar.Timestamp
import VolumeWatch.Calendar.Zone
import VolumeWatch.Fault.Basic
import VolumeWatch.Tag.Bucket

/-!
Sessions: the hours in which a contract is traded, by the clock of a time zone, and the hour of
the session that an instant falls into.
-/

namespace VolumeWatch

open Calendar (ClockTime Instant ScanFault Zone Zones)

inductive SessionFault where
  | unknownZone (name : String)
  | unreadableTime (text : String) (fault : ScanFault)
  | closesTooSoon (opening closing : ClockTime)
  | tooManySlots (opening closing : ClockTime) (slots : Nat)
  deriving DecidableEq

/-- Trading hours from the opening on up to the closing, which is not part of them. -/
structure Session where
  zone : Zone
  opening : ClockTime
  closing : ClockTime

namespace Session

def slotSeconds : Nat := 3600

/-- Number of slots that are touched between two times of day. -/
def slots (opening closing : ClockTime) : Nat :=
  (closing.secondsSince opening + (slotSeconds - 1)) / slotSeconds

/-- The session with the given hours, which must end after they begin and touch no more slots
than there are. -/
def ofHours (zone : Zone) (opening closing : ClockTime) : Except SessionFault Session :=
  if closing ≤ opening then .error (.closesTooSoon opening closing)
  else if Category.cardinality SessionSlot < slots opening closing then
    .error (.tooManySlots opening closing (slots opening closing))
  else .ok ⟨zone, opening, closing⟩

def readTime (text : String) : Except SessionFault ClockTime :=
  (ClockTime.ofHourMinute text).mapError (.unreadableTime text)

/-- The session with hours given as text: the name of a zone and two times such as `09:30`. -/
def ofText (zones : Zones) (zone opening closing : String) : Except SessionFault Session := do
  let zone ← (zones zone).elim (throw (.unknownZone zone)) pure
  ofHours zone (← readTime opening) (← readTime closing)

/-- The regular hours of the exchange, by the clock of New York. -/
def regular : Session := ⟨Zone.newYork, .ofParts 9 30 0, .ofParts 16 0 0⟩

def containsClock (s : Session) (c : ClockTime) : Bool := s.opening ≤ c && c < s.closing

/-- The slot at a time of day within the hours. -/
def slotAt? (s : Session) (c : ClockTime) : Option SessionSlot :=
  if c < s.opening ∨ s.closing ≤ c then none
  else Category.ofOrdinal? (c.secondsSince s.opening / slotSeconds)

def contains (s : Session) (t : Instant) : Bool := s.containsClock (s.zone.clockTime t)

def slot {α : Type} (s : Session) (t : Instant) : Except (Fault α) SessionSlot :=
  (s.slotAt? (s.zone.clockTime t)).elim (.error (.outsideSession t)) .ok

end Session

def SessionFault.message : SessionFault → String
  | .unknownZone name => "time zone " ++ name ++ ": failed to parse timezone"
  | .unreadableTime text fault => "session time " ++ text ++ ": " ++ fault.message
  | .closesTooSoon opening closing =>
    "session close " ++ closing.text ++ " must be after open " ++ opening.text
  | .tooManySlots opening closing slots =>
    "session " ++ opening.text ++ "-" ++ closing.text ++ " spans " ++ toString slots ++
      " hourly slots, at most " ++ toString (Category.cardinality SessionSlot) ++ " are supported"

end VolumeWatch
