import VolumeWatch.Fault.Message
import VolumeWatch.Stored.Series

/-!
Stored forms of faults.
-/

namespace VolumeWatch.Fault

/-- What a fault holds apart from its name. -/
def content? : Fault Float → Option Json
  | .emptyWindow | .queueClosed => none
  | .outsideSession time => some (.ofMembers [("time", toJson time)])
  | .noBarsAfterReference reference => some (.ofMembers [("reference_time", toJson reference)])
  | .invalidReferencePrice price => some (toJson price)
  | .incompleteWindow timeframe expected actual => some (.ofMembers
    [("timeframe", toJson timeframe), ("expected", toJson expected), ("actual", toJson actual)])
  | .underlyingUnavailable contract | .notAnOption contract | .unknownContract contract =>
    some (toJson contract)
  | .queueFull capacity => some (.ofMembers [("capacity", toJson capacity)])
  | .invalidTagKey text | .config text | .sink text => some (toJson text)

def ofContent? (name : String) (content : Json) : Option (Fault Float) :=
  match name with
  | "OutsideSession" => do
    let [time] ← content.fields? ["time"] | none
    return .outsideSession (← ofJson? time)
  | "NoBarsAfterReference" => do
    let [reference] ← content.fields? ["reference_time"] | none
    return .noBarsAfterReference (← ofJson? reference)
  | "InvalidReferencePrice" => (ofJson? content).map .invalidReferencePrice
  | "IncompleteWindow" => do
    let [timeframe, expected, actual] ← content.fields? ["timeframe", "expected", "actual"] | none
    return .incompleteWindow (← ofJson? timeframe) (← ofJson? expected) (← ofJson? actual)
  | "UnderlyingUnavailable" => (ofJson? content).map .underlyingUnavailable
  | "NotAnOption" => (ofJson? content).map .notAnOption
  | "UnknownContract" => (ofJson? content).map .unknownContract
  | "QueueFull" => do
    let [capacity] ← content.fields? ["capacity"] | none
    return .queueFull (← ofJson? capacity)
  | "InvalidTagKey" => (ofJson? content).map .invalidTagKey
  | "Config" => (ofJson? content).map .config
  | "Sink" => (ofJson? content).map .sink
  | _ => none

/-- The fault that consists of a name alone. -/
def ofUnit? (name : String) : Option (Fault Float) :=
  match name with
  | "EmptyWindow" => some .emptyWindow
  | "QueueClosed" => some .queueClosed
  | _ => none

instance : Stored (Fault Float) where
  toJson f := (f.content?.map (.ofVariant f.name)).getD (.ofText f.name)
  ofJson? j := do
    let (name, content) ← j.variant?
    match ofUnit? name with
    | some fault => if Json.isUnit content then some fault else none
    | none => ofContent? name (← content)

end VolumeWatch.Fault
