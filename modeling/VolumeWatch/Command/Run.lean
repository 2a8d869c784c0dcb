import VolumeWatch.Command.Request

/-!
The command: it checks what it is asked for, creates the file of the records, reads the file of
the bars and writes the records of their replay.

It works in any monad that can create, read and write files.
-/

namespace VolumeWatch

open Calendar (Zones)

/-- What the command needs of the world. -/
structure Files (m : Type → Type) where
  /-- Make a file empty, or a new one. -/
  create : String → m (Except FileFault Unit)
  read : String → m (Except FileFault String)
  write : String → String → m Unit

namespace Command

variable {m : Type → Type} [Monad m]

def text (records : List (Record Float)) : String :=
  String.join (records.map fun r => r.line ++ "\n")

/-- Replay a request whose file of records is there. The records begin before the bars are read. -/
def replay (files : Files m) (r : Request) : m (Except CommandFault Unit) := do
  match ← files.read r.input with
  | .error fault =>
    files.write r.output (text [.tagTable])
    return .error (.input fault)
  | .ok bars =>
    match r.settings.replay? r.withBars bars with
    | none =>
      files.write r.output (text [.tagTable])
      return .error .capacity
    | some replayed =>
      files.write r.output (text replayed.records)
      return .ok ()

def run (files : Files m) (zones : Zones) (args : List String) (vars : Variables) :
    m (Except CommandFault Unit) := do
  match Request.ofArgs zones args vars with
  | .error fault => return .error fault
  | .ok r =>
    match ← files.create r.output with
    | .error fault => return .error (.output fault)
    | .ok () => replay files r

/-- The exit code and what is written to standard error. -/
def report : Except CommandFault Unit → Nat × String
  | .ok () => (0, "")
  | .error fault => (1, "Error: " ++ fault.message ++ "\n")

/-- The variables that the command looks at. -/
def variableNames : List String :=
  ["FLOW_REPLAY_PATH", "FLOW_REPLAY_OUTPUT", "FLOW_REPLAY_WRITE_BARS", "FLOW_SESSION_TZ",
    "FLOW_SESSION_OPEN", "FLOW_SESSION_CLOSE", "FLOW_MATURITY", "FLOW_QUEUE_CAPACITY",
    "FLOW_POLL_INTERVAL_MS", "FLOW_REPORT_INTERVAL_SECS", "FLOW_PROXIMITY",
    "FLOW_UNDERLYING_ID", "FLOW_STRIKE_INCREMENT", "FLOW_LOOKAHEAD_SECS", "FLOW_STOP_LOSS_PCT",
    "FLOW_WIN_PCT"]

end Command

end VolumeWatch
