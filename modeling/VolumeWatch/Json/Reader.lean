import VolumeWatch.Json.Basic
import VolumeWatch.Json.Token

/-!
Reading of JSON texts.

The tokens of a text are read one by one. Arrays and objects that are still open stand on a stack,
so that no depth of nesting is out of reach.
-/

namespace VolumeWatch.Json

namespace Reader

/-- An array or object that is still open, with its items so far, the last one first. -/
inductive Frame where
  | array (items : List Json)
  | object (members : List (Option String × Json)) (key : Option String)

end Reader

/-- Where reading stands: the open arrays and objects, the innermost first, and what may come. -/
inductive Reader where
  /-- A value must come; if `empty`, the innermost array may also end. -/
  | value (frames : List Reader.Frame) (empty : Bool)
  /-- A key of an object with the given members must come; if `empty`, it may also end. -/
  | key (frames : List Reader.Frame) (members : List (Option String × Json)) (empty : Bool)
  /-- A colon must come behind the key. -/
  | colon (frames : List Reader.Frame) (members : List (Option String × Json))
    (key : Option String)
  /-- A value has been read; a comma or an end must come, or nothing if nothing is open. -/
  | behind (frames : List Reader.Frame) (value : Json)

namespace Reader

def start : Reader := .value [] false

/-- The value that a token is by itself. -/
def scalar? : Token → Option Json
  | .null => some .null
  | .bool b => some (.bool b)
  | .number n => some (.number n)
  | .text s => some (.text s)
  | _ => none

def step? : Reader → Token → Option Reader
  | .value frames _, .openArray => some (.value (.array [] :: frames) true)
  | .value frames _, .openObject => some (.key frames [] true)
  | .value (.array _ :: frames) true, .closeArray => some (.behind frames (.array []))
  | .value frames _, token => (scalar? token).map (.behind frames)
  | .key frames members _, .text s => some (.colon frames members s)
  | .key frames _ true, .closeObject => some (.behind frames (.object []))
  | .key _ _ _, _ => none
  | .colon frames members k, .colon => some (.value (.object members k :: frames) false)
  | .colon _ _ _, _ => none
  | .behind (.array items :: frames) v, .comma => some (.value (.array (v :: items) :: frames) false)
  | .behind (.array items :: frames) v, .closeArray =>
    some (.behind frames (.array (v :: items).reverse))
  | .behind (.object members k :: frames) v, .comma =>
    some (.key frames ((k, v) :: members) false)
  | .behind (.object members k :: frames) v, .closeObject =>
    some (.behind frames (.object ((k, v) :: members).reverse))
  | .behind _ _, _ => none

/-- Read tokens, to the end of the one value that they must be. -/
def run? : Reader → List Token → Option Json
  | .behind [] v, [] => some v
  | _, [] => none
  | r, token :: rest =>
    match r.step? token with
    | none => none
    | some r => run? r rest

end Reader

def ofString? (s : String) : Option Json := do
  let tokens ← Token.ofText? s
  Reader.start.run? tokens

end VolumeWatch.Json
