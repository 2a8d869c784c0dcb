import VolumeWatch.Decimal.Numeral

/-!
Tokens of JSON texts.

A text is cut into tokens in one pass over its characters. What has been read of an unfinished
token is kept aside, the last character first.
-/

namespace VolumeWatch.Json

inductive Token where
  | openArray
  | closeArray
  | openObject
  | closeObject
  | comma
  | colon
  | null
  | bool (b : Bool)
  | number (n : Numeral)
  | text (s : Option String)

namespace Token

/-- One piece of a text: a character, or a UTF-16 unit given by an escape. -/
inductive Piece where
  | char (c : Char)
  | unit (n : Nat)

/-- What the characters before the present one began. -/
inductive Pending where
  | nothing
  | number (read : List Char)
  | word (read : List Char)
  | text (read : List Piece)
  | escape (read : List Piece)
  | hex (read : List Piece) (digits : Nat) (value : Nat)

def isNumberChar (c : Char) : Bool :=
  Text.isDigit c || c = '-' || c = '+' || c = '.' || c = 'e' || c = 'E'

def isWordChar (c : Char) : Bool := 'a' ≤ c && c ≤ 'z'

def isSpace (c : Char) : Bool := c = ' ' || c = '\n' || c = '\t' || c = '\r'

def hexDigit? (c : Char) : Option Nat :=
  if '0' ≤ c ∧ c ≤ '9' then some (c.toNat - '0'.toNat)
  else if 'a' ≤ c ∧ c ≤ 'f' then some (c.toNat - 'a'.toNat + 10)
  else if 'A' ≤ c ∧ c ≤ 'F' then some (c.toNat - 'A'.toNat + 10)
  else none

/-- The character that a letter stands for after a backslash. -/
def escaped? (c : Char) : Option Char :=
  match c with
  | '"' | '\\' | '/' => some c
  | 'b' => some '\x08'
  | 'f' => some '\x0c'
  | 'n' => some '\n'
  | 'r' => some '\r'
  | 't' => some '\t'
  | _ => none

def isHighSurrogate (n : Nat) : Bool := 0xD800 ≤ n && n ≤ 0xDBFF

def isLowSurrogate (n : Nat) : Bool := 0xDC00 ≤ n && n ≤ 0xDFFF

/-- The characters of a text, where every surrogate has its other half behind it. -/
def joinPieces? : List Piece → Option (List Char)
  | [] => some []
  | .char c :: rest => (joinPieces? rest).map (c :: ·)
  | .unit high :: .unit low :: rest =>
    if isHighSurrogate high then
      if isLowSurrogate low then
        (joinPieces? rest).map
          (Char.ofNat (0x10000 + (high - 0xD800) * 0x400 + (low - 0xDC00)) :: ·)
      else none
    else if isLowSurrogate high then none
    else (joinPieces? (.unit low :: rest)).map (Char.ofNat high :: ·)
  | .unit n :: rest =>
    if isHighSurrogate n || isLowSurrogate n then none
    else (joinPieces? rest).map (Char.ofNat n :: ·)

def ofPieces (read : List Piece) : Token := .text ((joinPieces? read.reverse).map String.ofList)

/-- The digits at the start of a text, at least one. -/
def someDigits? (cs : List Char) : Option (List Nat × List Char) :=
  match (cs.takeWhile Text.isDigit).filterMap Text.digit? with
  | [] => none
  | ds => some (ds, cs.dropWhile Text.isDigit)

/-- The whole part of a number: no zero before other digits. -/
def wholePart? (cs : List Char) : Option (List Nat × List Char) :=
  match someDigits? cs with
  | some (0 :: _ :: _, _) => none
  | r => r

def fractionPart? : List Char → Option (List Nat × List Char)
  | '.' :: rest => someDigits? rest
  | cs => some ([], cs)

def exponentPart? : List Char → Option (Option Int)
  | [] => some none
  | c :: rest =>
    if c = 'e' ∨ c = 'E' then
      match rest with
      | '-' :: ds => (Text.natOfDigits? ds).map fun n => some (-(n : Int))
      | '+' :: ds => (Text.natOfDigits? ds).map fun n => some (n : Int)
      | ds => (Text.natOfDigits? ds).map fun n => some (n : Int)
    else none

def numeral? (cs : List Char) : Option Numeral := do
  let (negative, cs) := match cs with
    | '-' :: rest => (true, rest)
    | _ => (false, cs)
  let (whole, cs) ← wholePart? cs
  let (fraction, cs) ← fractionPart? cs
  let exponent ← exponentPart? cs
  return ⟨negative, whole, fraction, exponent⟩

def ofWord? (read : List Char) : Option Token :=
  let word := read.reverse
  if word = ['n', 'u', 'l', 'l'] then some .null
  else if word = ['t', 'r', 'u', 'e'] then some (.bool true)
  else if word = ['f', 'a', 'l', 's', 'e'] then some (.bool false)
  else none

/-- A character that begins a token or is one, or is a space between tokens. -/
def start? (c : Char) : Option (Option Token × Pending) :=
  match c with
  | '[' => some (some .openArray, .nothing)
  | ']' => some (some .closeArray, .nothing)
  | '{' => some (some .openObject, .nothing)
  | '}' => some (some .closeObject, .nothing)
  | ',' => some (some .comma, .nothing)
  | ':' => some (some .colon, .nothing)
  | '"' => some (none, .text [])
  | _ =>
    if isSpace c then some (none, .nothing)
    else if Text.isDigit c || c = '-' then some (none, .number [c])
    else if isWordChar c then some (none, .word [c])
    else none

/-- The token that ends where its characters end, if one is pending. -/
def finish? : Pending → Option (Option Token)
  | .nothing => some none
  | .number read => (numeral? read.reverse).map fun n => some (.number n)
  | .word read => (ofWord? read).map some
  | .text _ | .escape _ | .hex _ _ _ => none

/-- Read one character: the tokens that it completes, and what is pending behind it. -/
def step? (pending : Pending) (c : Char) : Option (List Token × Pending) :=
  let startNew (before : Option (Option Token)) : Option (List Token × Pending) := do
    let before ← before
    let (token, pending) ← start? c
    return (before.toList ++ token.toList, pending)
  match pending with
  | .number read =>
    if isNumberChar c then some ([], .number (c :: read)) else startNew (finish? pending)
  | .word read =>
    if isWordChar c then some ([], .word (c :: read)) else startNew (finish? pending)
  | .nothing => startNew (finish? pending)
  | .text read =>
    if c = '"' then some ([ofPieces read], .nothing)
    else if c = '\\' then some ([], .escape read)
    else if c.toNat < 0x20 then none
    else some ([], .text (.char c :: read))
  | .escape read =>
    if c = 'u' then some ([], .hex read 0 0)
    else (escaped? c).map fun d => ([], .text (.char d :: read))
  | .hex read digits value => do
    let d ← hexDigit? c
    let value := 16 * value + d
    return ([], if digits = 3 then .text (.unit value :: read) else .hex read (digits + 1) value)

/-- The tokens of a text, those before it given with the last one first. -/
def scan? (done : List Token) (pending : Pending) : List Char → Option (List Token)
  | [] => do
    let last ← finish? pending
    return done.reverse ++ last.toList
  | c :: cs =>
    match step? pending c with
    | none => none
    | some (tokens, pending) => scan? (tokens.reverse ++ done) pending cs

def ofText? (s : String) : Option (List Token) := scan? [] .nothing s.toList

end Token

end VolumeWatch.Json
