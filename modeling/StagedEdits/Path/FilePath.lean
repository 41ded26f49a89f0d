import StagedEdits.Text.Blank

set_option autoImplicit false

/-! # File paths

A path as a list of names under the root or under no root. Empty names and the name `.` are not
part of a path; the name `..` is, because what it means depends on links.

Main definitions: `FilePath.ofText`, `FilePath.text`, `FilePath.join`. -/

namespace StagedEdits

/-- A path: how many slashes it starts with (two are kept apart from one, more count as one), and
    its names. -/
structure FilePath where
  /-- The slashes at the start: none for a relative path. -/
  slashes : Nat
  /-- The names, from the top down. -/
  names : List String
  deriving DecidableEq, Inhabited

namespace FilePath

/-- The names that a text between slashes consists of. -/
def namesOf (s : String) : List String :=
  ((splitOnChar '/' s.toList).map String.ofList).filter (fun n => n != "" && n != ".")

/-- The slashes that count at the start of a text. -/
def leadingSlashes (cs : List Char) : Nat :=
  match (cs.takeWhile (· == '/')).length with
  | 0 => 0
  | 2 => 2
  | _ => 1

/-- The path that a text writes. -/
def ofText (s : String) : FilePath :=
  ⟨leadingSlashes s.toList, namesOf s⟩

/-- Whether a path starts at the root. -/
def isAbsolute (p : FilePath) : Bool := p.slashes != 0

/-- The text of a path; a relative path without names is written `.`. -/
def text (p : FilePath) : String :=
  if p.slashes == 0 && p.names.isEmpty then "."
  else String.ofList (List.replicate p.slashes '/') ++ "/".intercalate p.names

/-- The path `q` seen from `p`: an absolute one stands alone. -/
def join (p q : FilePath) : FilePath :=
  if q.isAbsolute then q else ⟨p.slashes, p.names ++ q.names⟩

/-- The path that a text writes, seen from `p`. -/
def joinText (p : FilePath) (s : String) : FilePath := p.join (ofText s)

/-- The path without its last name. -/
def parent (p : FilePath) : FilePath := ⟨p.slashes, p.names.dropLast⟩

/-- The last name, or the empty text. -/
def name (p : FilePath) : String := p.names.getLast?.getD ""

/-- The path `p` with `ending` added to its last name. -/
def addSuffix (p : FilePath) (ending : String) : FilePath :=
  ⟨p.slashes, p.names.dropLast ++ [p.name ++ ending]⟩

theorem join_names {p q : FilePath} (h : q.isAbsolute = false) :
    (p.join q).names = p.names ++ q.names := by
  simp [join, h]

end FilePath

end StagedEdits
