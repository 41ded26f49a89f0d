import StagedEdits.Json
import StagedEdits.Json.Token
import StagedEdits.Number.Reading

set_option autoImplicit false

/-! # Reading JSON

A JSON text as a value, read word by word with the lists and objects that are still open on a
stack. The words `NaN` and `Infinity` are read as well, a whole number may have as many digits as
`maxDigits` allows, and of two fields of one name the later value counts, at the place of the first.

Main definitions: `JsonFault`, `JsonReading.step`, `Json.read`. -/

namespace StagedEdits

/-- Why a text is not read as JSON. -/
inductive JsonFault where
  | notJson
  /-- One of its numbers cannot be read. -/
  | number (f : NumberFault)
  /-- Too many lists and objects lie in each other. -/
  | tooDeep
  deriving DecidableEq

/-- A list or an object around the value that is being read, with what it has so far. -/
inductive JsonFrame where
  /-- A list with the items before the value, the last one first. -/
  | list (items : List Json)
  /-- An object with the fields before the value, the last one first, and the name of the value. -/
  | object (fields : List (String × Json)) (name : String)

/-- What has to come next. -/
inductive JsonNext where
  | value
  /-- The first item of a list, or its end. -/
  | firstItem
  /-- The name of a field of an object that has these fields, the last one first; or the end of the
      object, if it is the first one. -/
  | name (fields : List (String × Json)) (first : Bool)
  /-- The colon behind the name of a field. -/
  | colon
  /-- What follows on a value: a comma, or the end of what it is in. -/
  | after (v : Json)

/-- A reading as far as it has come. -/
structure JsonReading where
  /-- What is around the value that is being read, the innermost first. -/
  frames : List JsonFrame
  /-- How many lists and objects are open. -/
  depth : Nat
  next : JsonNext

namespace JsonReading

/-- A reading before the first word. -/
def start : JsonReading := ⟨[], 0, .value⟩

/-- The value of a number as it is written. -/
def numberOf (written : List Char) : Except JsonFault Json :=
  let (negative, cs) := takeSign written
  if cs.all isAsciiDigit then
    match readDigits cs with
    | .ok n => .ok (.int (if negative then -Int.ofNat n else Int.ofNat n))
    | .error f => .error (.number f)
  else
    match readDecimal? negative cs with
    | some x => .ok (.real x)
    | none => .error .notJson

/-- An object of fields that were read the last one first. -/
def objectOf (fields : List (String × Json)) : Json := .obj (Json.mergeFields [] fields.reverse)

/-- Goes on behind the value `v`. -/
def past (r : JsonReading) (v : Json) : Except JsonFault JsonReading :=
  .ok { r with next := .after v }

/-- Goes on inside a list or an object that opens, unless `limit` are open. -/
def enter (limit : Nat) (r : JsonReading) (frames : List JsonFrame) (next : JsonNext) :
    Except JsonFault JsonReading :=
  if limit ≤ r.depth then .error .tooDeep
  else .ok ⟨frames ++ r.frames, r.depth + 1, next⟩

/-- Goes on behind a list or an object that ends and is `v`; `frames` are around it. -/
def leave (r : JsonReading) (frames : List JsonFrame) (v : Json) : Except JsonFault JsonReading :=
  .ok ⟨frames, r.depth - 1, .after v⟩

/-- The first word of a value, of which at most `limit` may lie in each other. -/
def beginValue (limit : Nat) (r : JsonReading) : JsonToken → Except JsonFault JsonReading
  | .openList => r.enter limit [.list []] .firstItem
  | .openObject => r.enter limit [] (.name [] true)
  | .text s => r.past (.str s)
  | .number written => do r.past (← numberOf written)
  | .null => r.past .null
  | .truth b => r.past (.bool b)
  | .notANumber => r.past (.real .nan)
  | .infinity negative => r.past (.real (.infinite negative))
  | _ => .error .notJson

/-- The word behind the value `v`. -/
def endValue (r : JsonReading) (v : Json) : JsonToken → Except JsonFault JsonReading
  | .comma =>
    match r.frames with
    | .list items :: rest => .ok { r with frames := .list (v :: items) :: rest, next := .value }
    | .object fields name :: rest =>
      .ok { r with frames := rest, next := .name ((name, v) :: fields) false }
    | [] => .error .notJson
  | .closeList =>
    match r.frames with
    | .list items :: rest => r.leave rest (.arr (v :: items).reverse)
    | _ => .error .notJson
  | .closeObject =>
    match r.frames with
    | .object fields name :: rest => r.leave rest (objectOf ((name, v) :: fields))
    | _ => .error .notJson
  | _ => .error .notJson

/-- The reading after another word. At most `limit` lists and objects may lie in each other. -/
def step (limit : Nat) (r : JsonReading) (t : JsonToken) : Except JsonFault JsonReading :=
  match r.next, t with
  | .value, t => r.beginValue limit t
  | .firstItem, .closeList => r.leave r.frames.tail (.arr [])
  | .firstItem, t => r.beginValue limit t
  | .name _ true, .closeObject => r.leave r.frames (.obj [])
  | .name fields _, .text s =>
    .ok { r with frames := .object fields s :: r.frames, next := .colon }
  | .colon, .colon => .ok { r with next := .value }
  | .after v, t => r.endValue v t
  | _, _ => .error .notJson

/-- The value of a reading that has come to its end. -/
def value (r : JsonReading) : Except JsonFault Json :=
  match r.frames, r.next with
  | [], .after v => .ok v
  | _, _ => .error .notJson

end JsonReading

/-- Reads a JSON text in which at most `limit` lists and objects lie in each other. -/
def Json.read (limit : Nat) (cs : List Char) : Except JsonFault Json := do
  let r ← (JsonToken.scan cs).foldlM (JsonReading.step limit) JsonReading.start
  r.value

end StagedEdits
