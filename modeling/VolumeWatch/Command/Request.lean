import VolumeWatch.Json.Reader
import VolumeWatch.Replay
import VolumeWatch.Settings.Message
import VolumeWatch.Settings.Variables
import VolumeWatch.Stored.Record
import VolumeWatch.Text.Quoted

/-!
What the command line asks for: a replay of a file of bars, with its records in another file.
-/

namespace VolumeWatch

open Calendar (Zones)

/-- Why a file cannot be opened: the number, the name and the text of the cause. -/
structure FileFault where
  code : Nat
  kind : String
  message : String
  deriving DecidableEq

namespace FileFault

def notFound : FileFault := ⟨2, "NotFound", "No such file or directory"⟩

def permissionDenied : FileFault := ⟨13, "PermissionDenied", "Permission denied"⟩

def notADirectory : FileFault := ⟨20, "NotADirectory", "Not a directory"⟩

def isADirectory : FileFault := ⟨21, "IsADirectory", "Is a directory"⟩

def nameTooLong : FileFault := ⟨36, "InvalidFilename", "File name too long"⟩

def all : List FileFault :=
  [notFound, permissionDenied, notADirectory, isADirectory, nameTooLong]

def ofCode? (code : Nat) : Option FileFault := all.find? (·.code == code)

end FileFault

inductive CommandFault where
  | usage
  | settings (fault : SettingsFault Float)
  | output (fault : FileFault)
  /-- There is not as much room for a queue as is asked. -/
  | capacity
  | input (fault : FileFault)

namespace CommandFault

def message : CommandFault → String
  | .usage => Text.quoted "usage: options-flow-replay <bars.jsonl> (or set FLOW_REPLAY_PATH)"
  | .settings fault => "Config(" ++ Text.quoted fault.message ++ ")"
  | .output fault =>
    "Sink(" ++ Text.quoted (fault.message ++ " (os error " ++ toString fault.code ++ ")") ++ ")"
  | .capacity => "Capacity(" ++ toString (BoundedQueue.capacityBound) ++ ")"
  | .input fault =>
    "Os \x7b code: " ++ toString fault.code ++ ", kind: " ++ fault.kind ++ ", message: " ++
      Text.quoted fault.message ++ " \x7d"

end CommandFault

structure Request where
  input : String
  output : String
  withBars : Bool
  settings : Settings Float

namespace Request

/-- The path of the bars: the first argument, else the one that is set. -/
def inputOf? (args : List String) (vars : Variables) : Option String :=
  args.head?.or (vars "FLOW_REPLAY_PATH")

/-- The settings of the variables. Alerts become ripe by the time of the bars where nothing else
is set. -/
def settingsOf (zones : Zones) (vars : Variables) :
    Except (SettingsFault Float) (Settings Float) :=
  (Settings.ofVariables zones vars).map fun s =>
    if (vars "FLOW_MATURITY").isSome then s else { s with maturity := .marketTime }

def ofArgs (zones : Zones) (args : List String) (vars : Variables) :
    Except CommandFault Request := do
  let some input := inputOf? args vars | throw .usage
  let settings ← (settingsOf zones vars).mapError .settings
  return {
    input
    output := (vars "FLOW_REPLAY_OUTPUT").getD "options-flow-records.jsonl"
    withBars := vars "FLOW_REPLAY_WRITE_BARS" == some "true"
    settings }

end Request

/-- A line of text as a line of a replay. -/
def Line.ofText (text : String) : Line Float :=
  if Text.allBlank text.toList then .blank
  else
    match (Json.ofString? text).bind ofJson? with
    | some b => .bar b
    | none => .junk

/-- The replay of a text, if there is room for the queue. -/
def Settings.replay? (s : Settings Float) (withBars : Bool) (text : String) :
    Option (Replayed Float) :=
  (Engine.ofSettings? s (.content false)).map fun e =>
    (Replay.ofLines e ((text.splitOn "\n").map Line.ofText)).finish withBars

end VolumeWatch
