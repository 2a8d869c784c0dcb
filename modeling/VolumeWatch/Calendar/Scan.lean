import VolumeWatch.Text.Blank
import VolumeWatch.Text.Digits

/-!
Reading of the fields that dates and times are written in.

A scanner takes the text that is left and gives a value and the rest, or the reason why the text
cannot be read. Numbers may have blanks before them.
-/

namespace VolumeWatch.Calendar

/-- Why a text is not a date or a time. -/
inductive ScanFault where
  | premature
  | invalid
  | outOfRange
  | trailing
  deriving DecidableEq

namespace ScanFault

def message : ScanFault → String
  | .premature => "premature end of input"
  | .invalid => "input contains invalid characters"
  | .outOfRange => "input is out of range"
  | .trailing => "trailing input"

end ScanFault

namespace Scan

def literal (c : Char) : List Char → Except ScanFault (List Char)
  | [] => .error .premature
  | d :: rest => if c = d then .ok rest else .error .invalid

/-- Take the digits at the start of the text, at least one and at most `width` of them. -/
def digits (width : Nat) (cs : List Char) : Except ScanFault (Nat × List Char) :=
  match cs with
  | [] => .error .premature
  | c :: _ =>
    if Text.isDigit c then
      let taken := (cs.take width).takeWhile Text.isDigit
      .ok (Text.ofDigits (taken.filterMap Text.digit?), cs.drop taken.length)
    else .error .invalid

/-- Take a number within bounds, with blanks before it. -/
def number (width least most : Nat) (cs : List Char) : Except ScanFault (Nat × List Char) := do
  let (n, rest) ← digits width (Text.skipBlanks cs)
  if least ≤ n ∧ n ≤ most then return (n, rest) else throw .outOfRange

end Scan

/-- The text must be used up. -/
def Scan.finish {α : Type} (a : α) : List Char → Except ScanFault α
  | [] => .ok a
  | _ :: _ => .error .trailing

end VolumeWatch.Calendar
