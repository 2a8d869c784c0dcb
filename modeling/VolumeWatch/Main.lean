import VolumeWatch.Command.Run
import VolumeWatch.Command.Zones

/-!
The command line.
-/

namespace VolumeWatch.Command

/-- The number of a cause, which may come with its sign changed. -/
def causeOf (code : UInt32) : Nat := min code.toNat (Nat.pow 2 32 - code.toNat)

def faultOf (error : IO.Error) : FileFault :=
  let code :=
    match error with
    | .noFileOrDirectory _ code _ | .permissionDenied _ code _ | .inappropriateType _ code _
    | .invalidArgument _ code _ => causeOf code
    | _ => 0
  (FileFault.ofCode? code).getD ⟨code, "Other", toString error⟩

def systemFiles : Files IO where
  create path := do
    try
      IO.FS.writeFile path ""
      return .ok ()
    catch error => return .error (faultOf error)
  read path := do
    try return .ok (← IO.FS.readFile path)
    catch error => return .error (faultOf error)
  write path text := IO.FS.writeFile path text

end VolumeWatch.Command

open VolumeWatch in
def main (args : List String) : IO UInt32 := do
  let values ← Command.variableNames.filterMapM fun name => do
    return (← IO.getEnv name).map (name, ·)
  let vars : Variables := fun name => (values.find? (·.1 == name)).map (·.2)
  let (code, message) := Command.report (← Command.run Command.systemFiles Command.zones args vars)
  IO.eprint message
  return code.toUInt32
