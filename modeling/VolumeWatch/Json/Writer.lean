import VolumeWatch.Json.Basic

/-!
Writing of JSON texts: without blanks, members in their order, and with as few escapes as the
format allows.
-/

namespace VolumeWatch.Json

namespace Writer

def hexDigits (n : Nat) : List Char := [Nat.digitChar (n / 16), Nat.digitChar (n % 16)]

def escape (c : Char) : List Char :=
  match c with
  | '"' => ['\\', '"']
  | '\\' => ['\\', '\\']
  | '\n' => ['\\', 'n']
  | '\r' => ['\\', 'r']
  | '\t' => ['\\', 't']
  | '\x08' => ['\\', 'b']
  | '\x0c' => ['\\', 'f']
  | _ => if c.toNat < 0x20 then ['\\', 'u', '0', '0'] ++ hexDigits c.toNat else [c]

def quoted (s : String) : String := "\"" ++ String.ofList (s.toList.flatMap escape) ++ "\""

def quotedText : Option String → String
  | some s => quoted s
  | none => "\"\""

end Writer

open Writer in
def render : Json → String
  | .null => "null"
  | .bool b => if b then "true" else "false"
  | .number n => n.text
  | .text s => quotedText s
  | .array items => "[" ++ renderItems items ++ "]"
  | .object members => "\x7b" ++ renderMembers members ++ "\x7d"
where
  renderItems : List Json → String
    | [] => ""
    | [item] => item.render
    | item :: rest => item.render ++ "," ++ renderItems rest
  renderMembers : List (Option String × Json) → String
    | [] => ""
    | [(key, value)] => quotedText key ++ ":" ++ value.render
    | (key, value) :: rest => quotedText key ++ ":" ++ value.render ++ "," ++ renderMembers rest

end VolumeWatch.Json
