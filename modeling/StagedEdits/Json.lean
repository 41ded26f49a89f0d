import StagedEdits.Number.Binary64
import StagedEdits.Text.Quoted

set_option autoImplicit false

/-! # JSON values

The values that events and error details are made of, with the fields of an object in a fixed
order, and two writings of them: the compact one of the wire and the one of the log.

Main definitions: `Json`, `Json.compact`, `Json.display`, `Json.depth`. -/

namespace StagedEdits

/-- A JSON value. The fields of an object keep their order. -/
inductive Json where
  | null
  | bool (b : Bool)
  | int (n : Int)
  | real (x : Binary64)
  | str (s : String)
  | arr (items : List Json)
  | obj (fields : List (String × Json))
  deriving Inhabited

namespace Json

mutual

/-- Whether two values are the same. -/
def same : Json → Json → Bool
  | .null, .null => true
  | .bool a, .bool b => a == b
  | .int n, .int m => n == m
  | .real x, .real y => x == y
  | .str s, .str t => s == t
  | .arr items, .arr others => sameItems items others
  | .obj fields, .obj others => sameFields fields others
  | _, _ => false

/-- Whether the items of two lists are the same. -/
def sameItems : List Json → List Json → Bool
  | [], [] => true
  | v :: rest, w :: others => same v w && sameItems rest others
  | _, _ => false

/-- Whether the fields of two objects are the same, in the same order. -/
def sameFields : List (String × Json) → List (String × Json) → Bool
  | [], [] => true
  | (name, v) :: rest, (other, w) :: others => name == other && same v w && sameFields rest others
  | _, _ => false

end

instance : BEq Json := ⟨same⟩

/-- A natural number as a value. -/
def nat (n : Nat) : Json := .int n

/-- A text, or null. -/
def ofText? : Option String → Json
  | none => .null
  | some s => .str s

/-- A list of texts. -/
def texts (l : List String) : Json := .arr (l.map .str)

/-! ## The compact writing -/

/-- One character inside a JSON text: the quote, the backslash and the controls are escaped. -/
def escapeChar (c : Char) : List Char :=
  if c == '"' then ['\\', '"']
  else if c == '\\' then ['\\', '\\']
  else if c == '\u0008' then ['\\', 'b']
  else if c == '\t' then ['\\', 't']
  else if c == '\n' then ['\\', 'n']
  else if c == '\u000C' then ['\\', 'f']
  else if c == '\r' then ['\\', 'r']
  else if c.toNat < 0x20 then '\\' :: 'u' :: hexDigits 4 c.toNat
  else [c]

/-- A JSON text with its quotes. -/
def quote (s : String) : String :=
  String.ofList ('"' :: s.toList.flatMap escapeChar ++ ['"'])

mutual

/-- A value without any blanks. -/
def compact : Json → String
  | .null => "null"
  | .bool b => if b then "true" else "false"
  | .int n => toString n
  | .real x => x.wireText
  | .str s => quote s
  | .arr items => "[" ++ compactItems items ++ "]"
  | .obj fields => "\x7b" ++ compactFields fields ++ "\x7d"

/-- The items of a list, with commas between them. -/
def compactItems : List Json → String
  | [] => ""
  | [v] => compact v
  | v :: w :: rest => compact v ++ "," ++ compactItems (w :: rest)

/-- The fields of an object, with commas between them. -/
def compactFields : List (String × Json) → String
  | [] => ""
  | [(k, v)] => quote k ++ ":" ++ compact v
  | (k, v) :: w :: rest => quote k ++ ":" ++ compact v ++ "," ++ compactFields (w :: rest)

end

/-! ## Limits of the wire -/

mutual

/-- How many values lie in each other: one for a value on its own. -/
def depth : Json → Nat
  | .arr items => depthItems items + 1
  | .obj fields => depthFields fields + 1
  | _ => 1

/-- The depth of the deepest item. -/
def depthItems : List Json → Nat
  | [] => 0
  | v :: rest => max (depth v) (depthItems rest)

/-- The depth of the deepest field. -/
def depthFields : List (String × Json) → Nat
  | [] => 0
  | (_, v) :: rest => max (depth v) (depthFields rest)

end

mutual

/-- Whether all numbers of a value are finite. -/
def isFinite : Json → Bool
  | .real x => x.isFinite
  | .arr items => areFinite items
  | .obj fields => areFiniteFields fields
  | _ => true

/-- Whether all numbers of some items are finite. -/
def areFinite : List Json → Bool
  | [] => true
  | v :: rest => isFinite v && areFinite rest

/-- Whether all numbers of some fields are finite. -/
def areFiniteFields : List (String × Json) → Bool
  | [] => true
  | (_, v) :: rest => isFinite v && areFiniteFields rest

end

/-! ## The writing of the log -/

mutual

/-- A value inside another one, as the log shows it. -/
def display : Json → String
  | .null => "None"
  | .bool b => if b then "True" else "False"
  | .int n => toString n
  | .real x => x.text
  | .str s => quoted s
  | .arr items => "[" ++ displayItems items ++ "]"
  | .obj fields => "\x7b" ++ displayFields fields ++ "\x7d"

/-- The items of a list, as the log shows them. -/
def displayItems : List Json → String
  | [] => ""
  | [v] => display v
  | v :: w :: rest => display v ++ ", " ++ displayItems (w :: rest)

/-- The fields of an object, as the log shows them. -/
def displayFields : List (String × Json) → String
  | [] => ""
  | [(k, v)] => quoted k ++ ": " ++ display v
  | (k, v) :: w :: rest => quoted k ++ ": " ++ display v ++ ", " ++ displayFields (w :: rest)

end

/-- A value on its own, as the log shows it: a text stands without quotes. -/
def shown : Json → String
  | .str s => s
  | v => v.display

/-- Whether a value says anything: not null, false, zero or empty. -/
def saysSomething : Json → Bool
  | .null => false
  | .bool b => b
  | .int n => n != 0
  | .real x => !x.isZero
  | .str s => s != ""
  | .arr items => !items.isEmpty
  | .obj fields => !fields.isEmpty

/-! ## Fields -/

/-- The value of the first field of a name. -/
def field? (name : String) : Json → Option Json
  | .obj fields => (fields.find? (fun f => f.1 == name)).map (·.2)
  | _ => none

/-- The `fields` with `v` under `name`: in its place if the name is there, else at the end. -/
def setField (fields : List (String × Json)) (name : String) (v : Json) : List (String × Json) :=
  if fields.any (fun f => f.1 == name) then
    fields.map (fun f => if f.1 == name then (name, v) else f)
  else fields ++ [(name, v)]

/-- The `fields` with `more` set over them, in order. -/
def mergeFields (fields more : List (String × Json)) : List (String × Json) :=
  more.foldl (fun acc f => setField acc f.1 f.2) fields

end Json

end StagedEdits
