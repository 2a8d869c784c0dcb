import VolumeWatch.Fault.Message
import VolumeWatch.Settings.Basic

/-!
Messages of settings that cannot be used.
-/

namespace VolumeWatch.SettingsFault

def message : SettingsFault Float → String
  | .session fault => fault.message
  | .unknownMaturity text => "unknown maturity mode: " ++ text
  | .zeroPoll => "poll interval must be non-zero"
  | .zeroReport => "report interval must be non-zero"
  | .zeroLookahead => "outcome lookahead must be non-zero"
  | .strikeIncrement x => "strike increment must be positive, got " ++ Float.messageText x
  | .proximity x => "proximity must be non-negative, got " ++ Float.messageText x
  | .stopLoss x => "stop loss percent must be positive, got " ++ Float.messageText x
  | .win x => "win percent must be positive, got " ++ Float.messageText x

/-- Settings that cannot be used as the fault of a run. -/
def toFault (f : SettingsFault Float) : Fault Float := .config f.message

end VolumeWatch.SettingsFault
