import StagedEdits.Json
import StagedEdits.Store.Names

set_option autoImplicit false

/-! # Directives

What an agent can ask for: write a file, rename one, delete one, or add packages to the project.
Directives travel as JSON objects; `ofJson?` reads back what `toJson` writes.

Main definitions: `Directive`, `Directive.toJson`, `Directive.ofJson?`. Main statement:
`Directive.ofJson?_toJson`. -/

namespace StagedEdits

/-- An edit that an agent asks for. -/
inductive Directive where
  /-- Create a file or replace its content. -/
  | write (path content : String) (description : Option String)
  | rename (source target : String)
  | delete (path : String)
  /-- Add packages to what the project depends on. -/
  | addDependency (packages : Names)
  deriving DecidableEq, Inhabited

/-- A directive and the span of its tag in the text it was read from. -/
structure Parsed where
  directive : Directive
  start : Nat
  stop : Nat
  deriving DecidableEq

namespace Directive

/-- The word for a directive's kind. -/
def kind : Directive → String
  | .write .. => "write"
  | .rename .. => "rename"
  | .delete .. => "delete"
  | .addDependency .. => "add-dependency"

/-- A directive as a JSON object. -/
def toJson : Directive → Json
  | .write path content description =>
    .obj [("kind", .str "write"), ("path", .str path), ("content", .str content),
      ("description", .ofText? description)]
  | .rename source target =>
    .obj [("kind", .str "rename"), ("from", .str source), ("to", .str target)]
  | .delete path => .obj [("kind", .str "delete"), ("path", .str path)]
  | .addDependency packages =>
    .obj [("kind", .str "add-dependency"), ("packages", .texts packages.toList)]

/-- The text that `v` has under `name`. -/
def textField? (v : Json) (name : String) : Option String :=
  match v.field? name with
  | some (.str s) => some s
  | _ => none

/-- The text that `v` has under `name` or under `other`; the first one counts if it is there. -/
def textFieldOr? (v : Json) (name other : String) : Option String :=
  match v.field? name with
  | some (.str s) => some s
  | some _ => none
  | none => textField? v other

/-- The texts of a list. -/
def textItems? : List Json → Option (List String)
  | [] => some []
  | .str s :: rest => (textItems? rest).map (s :: ·)
  | _ :: _ => none

/-- The description of a write: a text, or none at all. -/
def descriptionField? (v : Json) : Option (Option String) :=
  match v.field? "description" with
  | none => some none
  | some .null => some none
  | some (.str s) => some (some s)
  | some _ => none

/-- Reads a directive from JSON. Fields that the kind does not have are overlooked. -/
def ofJson? (v : Json) : Option Directive :=
  match textField? v "kind" with
  | some "write" => do
    let path ← textField? v "path"
    let content ← textField? v "content"
    let description ← descriptionField? v
    return .write path content description
  | some "rename" => do
    let source ← textFieldOr? v "from" "from_path"
    let target ← textFieldOr? v "to" "to_path"
    return .rename source target
  | some "delete" => do
    let path ← textField? v "path"
    return .delete path
  | some "add-dependency" =>
    match v.field? "packages" with
    | some (.arr items) => (textItems? items).map (fun ps => .addDependency (Names.ofList ps))
    | _ => none
  | _ => none

theorem textItems?_map_str (l : List String) : textItems? (l.map Json.str) = some l := by
  induction l with
  | nil => rfl
  | cons s l ih => simp [textItems?, ih]

/-- A set is the set of its listing. -/
theorem ofList_toList (s : Names) : Names.ofList s.toList = s :=
  Names.ext_mem fun x => by simp

/-- **A directive that was written as JSON is read back as it was.** -/
theorem ofJson?_toJson (d : Directive) : ofJson? d.toJson = some d := by
  cases d with
  | write path content description => cases description <;> rfl
  | rename source target => rfl
  | delete path => rfl
  | addDependency packages =>
    show ((textItems? (packages.toList.map Json.str)).map
      (fun ps => Directive.addDependency (Names.ofList ps))) = _
    rw [textItems?_map_str, Option.map_some, ofList_toList]

end Directive

end StagedEdits
