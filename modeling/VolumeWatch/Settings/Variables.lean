import VolumeWatch.Decimal.Reading
import VolumeWatch.Settings.Basic

/-!
Settings from named variables.

A number that cannot be read leaves the standard setting as it is. A session or a kind of maturity
that cannot be read is a fault.
-/

namespace VolumeWatch

open Calendar (Zones)

/-- Texts by name. -/
abbrev Variables := String → Option String

/-- The maturity that a text names, in letters of either case. -/
def Maturity.ofText {α : Type} (text : String) : Except (SettingsFault α) Maturity :=
  let lower := text.map Char.toLower
  if lower = "wall" ∨ lower = "wall_clock" then .ok .wallClock
  else if lower = "market" ∨ lower = "market_time" then .ok .marketTime
  else .error (.unknownMaturity lower)

namespace Settings

/-- The session of the variables: the regular one if none of its parts is given, else the parts
with those of the regular one in place of missing ones. -/
def sessionOf (zones : Zones) (vars : Variables) : Except SessionFault Session :=
  match vars "FLOW_SESSION_TZ", vars "FLOW_SESSION_OPEN", vars "FLOW_SESSION_CLOSE" with
  | none, none, none => .ok .regular
  | zone, opening, closing =>
    Session.ofText zones (zone.getD "America/New_York") (opening.getD "09:30")
      (closing.getD "16:00")

def maturityOf {α : Type} (vars : Variables) : Except (SettingsFault α) Maturity :=
  match vars "FLOW_MATURITY" with
  | none => .ok .wallClock
  | some text => Maturity.ofText text

/-- The value that a variable is read as, without the blanks around it, or a default where it
cannot be read or is missing. -/
def readOr {β : Type} (read : List Char → Option β) (vars : Variables) (name : String)
    (default : β) : β :=
  ((vars name).bind fun text => read (Text.trim text.toList)).getD default

def wordOr : Variables → String → Nat → Nat := readOr (Reading.nat? wordBound)

def floatOr : Variables → String → Float → Float := readOr Reading.float?

/-- The standard settings overlaid with those of the variables, not yet validated. -/
def overlay (vars : Variables) (session : Session) (maturity : Maturity) : Settings Float :=
  let base : Settings Float := .standard
  { queueCapacity := wordOr vars "FLOW_QUEUE_CAPACITY" base.queueCapacity
    pollMillis := wordOr vars "FLOW_POLL_INTERVAL_MS" base.pollMillis
    reportSeconds := wordOr vars "FLOW_REPORT_INTERVAL_SECS" base.reportSeconds
    proximity := floatOr vars "FLOW_PROXIMITY" base.proximity
    underlying :=
      ⟨(readOr (Reading.nat? (Nat.pow 2 32)) vars "FLOW_UNDERLYING_ID" base.underlying.id.toNat).toUInt32⟩
    strikeIncrement := floatOr vars "FLOW_STRIKE_INCREMENT" base.strikeIncrement
    session
    rule :=
      { lookahead := .ofSeconds (wordOr vars "FLOW_LOOKAHEAD_SECS" base.rule.lookahead.seconds)
        stopLoss := floatOr vars "FLOW_STOP_LOSS_PCT" base.rule.stopLoss
        win := floatOr vars "FLOW_WIN_PCT" base.rule.win }
    maturity }

/-- The settings that variables give: first the session is looked at, then the maturity, then the
overlaid numbers. -/
def ofVariables (zones : Zones) (vars : Variables) :
    Except (SettingsFault Float) (Settings Float) := do
  let session ← (sessionOf zones vars).mapError .session
  let maturity ← maturityOf vars
  (overlay vars session maturity).validate

end Settings

end VolumeWatch
