import VolumeWatch.Calendar.Instant
import VolumeWatch.Contract
import VolumeWatch.Timeframe

/-!
Faults: the reasons for which an event is discarded or a run refused.
-/

namespace VolumeWatch

open Calendar (Instant)

inductive Fault (α : Type) where
  | outsideSession (time : Instant)
  | emptyWindow
  | noBarsAfterReference (reference : Instant)
  | invalidReferencePrice (price : α)
  | incompleteWindow (timeframe : Timeframe) (expected actual : Nat)
  | underlyingUnavailable (contract : ContractId)
  | notAnOption (contract : ContractId)
  | unknownContract (contract : ContractId)
  | queueFull (capacity : Nat)
  | queueClosed
  | invalidTagKey (key : String)
  | config (reason : String)
  | sink (reason : String)
  deriving Inhabited

namespace Fault

variable {α : Type}

/-- The fault concerns one event alone. The others leave nothing to go on with. -/
def isEventScoped : Fault α → Bool
  | .queueClosed | .config _ => false
  | _ => true

/-- The number written with tags does not name any. -/
def ofPacked (packed : Nat) : Fault α :=
  .invalidTagKey ("0x" ++ String.ofList (Nat.toDigits 16 packed))

end Fault

end VolumeWatch
