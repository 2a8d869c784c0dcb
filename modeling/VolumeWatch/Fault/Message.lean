import VolumeWatch.Calendar.Timestamp
import VolumeWatch.Decimal.Numeral
import VolumeWatch.Fault.Basic

/-!
Names and messages of faults.
-/

namespace VolumeWatch.Fault

def name {α : Type} : Fault α → String
  | .outsideSession _ => "OutsideSession"
  | .emptyWindow => "EmptyWindow"
  | .noBarsAfterReference _ => "NoBarsAfterReference"
  | .invalidReferencePrice _ => "InvalidReferencePrice"
  | .incompleteWindow .. => "IncompleteWindow"
  | .underlyingUnavailable _ => "UnderlyingUnavailable"
  | .notAnOption _ => "NotAnOption"
  | .unknownContract _ => "UnknownContract"
  | .queueFull _ => "QueueFull"
  | .queueClosed => "QueueClosed"
  | .invalidTagKey _ => "InvalidTagKey"
  | .config _ => "Config"
  | .sink _ => "Sink"

def message : Fault Float → String
  | .outsideSession time => "event time " ++ time.display ++ " is outside the trading session"
  | .emptyWindow => "outcome window is empty"
  | .noBarsAfterReference reference =>
    "outcome window has no bar at or after reference time " ++ reference.display
  | .invalidReferencePrice price =>
    "reference price must be positive, got " ++ Float.messageText price
  | .incompleteWindow timeframe expected actual =>
    "cannot derive " ++ Category.label timeframe ++ " bar: expected " ++ toString expected ++
      " lower timeframe bars, found " ++ toString actual
  | .underlyingUnavailable contract =>
    "underlying contract " ++ contract.text ++ " has no bars yet"
  | .notAnOption contract => "contract " ++ contract.text ++ " is not an option contract"
  | .unknownContract contract => "contract " ++ contract.text ++ " has never been ingested"
  | .queueFull capacity =>
    "pending alert queue is full (capacity " ++ toString capacity ++ ")"
  | .queueClosed => "pending alert queue is closed"
  | .invalidTagKey key => "tag key not present in id table: " ++ key
  | .config reason => "invalid configuration: " ++ reason
  | .sink reason => "persistence sink failed: " ++ reason

end VolumeWatch.Fault
