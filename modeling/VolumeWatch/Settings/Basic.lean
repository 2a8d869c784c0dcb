import VolumeWatch.Classifier
import VolumeWatch.Outcome

/-!
Settings: everything that a run can be adjusted by, and the conditions that usable settings meet.
-/

namespace VolumeWatch

/-- The clock by which an alert becomes ripe to be scored. -/
inductive Maturity where
  /-- The lookahead has passed on the clock of the run since the alert was raised. -/
  | wallClock
  /-- A bar of any contract has come that starts at or after the horizon of the alert. -/
  | marketTime
  deriving DecidableEq, Inhabited

instance : Category Maturity where
  values := [.wallClock, .marketTime]
  ordinal := Maturity.ctorIdx
  label
    | .wallClock => "wall_clock"
    | .marketTime => "market_time"
  name
    | .wallClock => "WallClock"
    | .marketTime => "MarketTime"
  values_getElem?_ordinal v := by cases v <;> rfl
  map_ordinal_values := rfl

structure Settings (α : Type) where
  queueCapacity : Nat
  /-- Milliseconds between two looks at an alert that is not ripe. -/
  pollMillis : Nat
  /-- Seconds between two reports of the statistics. -/
  reportSeconds : Nat
  proximity : α
  underlying : ContractId
  strikeIncrement : α
  session : Session
  rule : OutcomeRule α
  maturity : Maturity

inductive SettingsFault (α : Type) where
  | session (fault : SessionFault)
  | unknownMaturity (text : String)
  | zeroPoll
  | zeroReport
  | zeroLookahead
  | strikeIncrement (x : α)
  | proximity (x : α)
  | stopLoss (x : α)
  | win (x : α)

namespace Settings

variable {α : Type} [Scalar α]

def standard : Settings α where
  queueCapacity := 10000
  pollMillis := 1000
  reportSeconds := 1800
  proximity := ((1 : Nat) : α) / ((1000 : Nat) : α)
  underlying := ⟨0⟩
  strikeIncrement := ((5 : Nat) : α)
  session := .regular
  rule := .standard
  maturity := .wallClock

def isPositive (x : α) : Bool := Scalar.isFinite x && 0 < x

def isNonNegative (x : α) : Bool := Scalar.isFinite x && 0 ≤ x

/-- What usable settings meet, in the order in which it is looked for, with the fault where it is
not met. -/
def conditions (s : Settings α) : List (Bool × SettingsFault α) :=
  [(s.pollMillis != 0, .zeroPoll),
    (s.reportSeconds != 0, .zeroReport),
    (s.rule.lookahead != .ofSeconds 0, .zeroLookahead),
    (isPositive s.strikeIncrement, .strikeIncrement s.strikeIncrement),
    (isNonNegative s.proximity, .proximity s.proximity),
    (isPositive s.rule.stopLoss, .stopLoss s.rule.stopLoss),
    (isPositive s.rule.win, .win s.rule.win)]

/-- The first condition that is not met. -/
def fault? (s : Settings α) : Option (SettingsFault α) :=
  (s.conditions.find? fun c => !c.1).map (·.2)

def validate (s : Settings α) : Except (SettingsFault α) (Settings α) :=
  s.fault?.elim (.ok s) .error

def classifier (s : Settings α) : Classifier α where
  session := s.session
  underlying := s.underlying
  strikeIncrement := s.strikeIncrement
  proximity := s.proximity

end Settings

end VolumeWatch
