import VolumeWatch.Text.Hidden

/-!
Texts in double quotes, where quotes, backslashes and characters that do not show are written as
escapes.
-/

namespace VolumeWatch.Text

def hexText (n : Nat) : String := String.ofList (Nat.toDigits 16 n)

def escape (c : Char) : String :=
  match c with
  | '"' => "\\\""
  | '\\' => "\\\\"
  | '\n' => "\\n"
  | '\r' => "\\r"
  | '\t' => "\\t"
  | '\x00' => "\\0"
  | _ => if isHidden c then "\\u\x7b" ++ hexText c.toNat ++ "\x7d" else c.toString

def quoted (s : String) : String := "\"" ++ String.join (s.toList.map escape) ++ "\""

end VolumeWatch.Text
