import StagedEdits.Text.Ascii
import StagedEdits.Text.Blank

set_option autoImplicit false

/-! # The path guard

Every path that an agent writes passes through `normalize` before it can reach a file. The guard
reads a backslash as a slash, drops blanks around the path, anchors it at the project root, drops
the segments that are empty or `.`, and lets `..` take back the segment before it. It refuses a
path that leaves the root at any point, that names nothing, that holds a NUL or that names a drive.

Main definitions: `resolveSegments`, `normalize`. -/

namespace StagedEdits

/-! ## Refusals -/

/-- Why a path is refused. -/
inductive PathFlaw where
  /-- There is no path at all. -/
  | missing
  | nul
  /-- It starts with a drive letter and a colon. -/
  | drive
  /-- A `..` has no segment to take back. -/
  | climbsOut
  | namesNothing
  deriving DecidableEq, Repr

/-- The wording of a refusal. -/
def PathFlaw.reason : PathFlaw → String
  | .missing => "missing path"
  | .nul => "contains NUL byte"
  | .drive => "drive-qualified paths are not project-relative"
  | .climbsOut => "resolves outside the project root"
  | .namesNothing => "does not name a file inside the project"

/-- A refused path: the path as the guard saw it, and why. -/
structure PathRefusal where
  /-- The path after backslashes and blanks were dealt with. -/
  path : String
  flaw : PathFlaw
  deriving DecidableEq

/-! ## Segments -/

/-- A segment that names the directory it stands in. -/
def isIdleSegment (s : List Char) : Bool := s == [] || s == ['.']

/-- The segment that takes back the one before it. -/
def isUpSegment (s : List Char) : Bool := s == ['.', '.']

/-- Whether a segment names something. -/
def isOrdinarySegment (s : List Char) : Bool := !isIdleSegment s && !isUpSegment s

/-- Walks along segments with the names in `kept`, the last one first; nothing if a `..` finds
    none to take back. -/
def resolveSegments : (kept : List (List Char)) → List (List Char) → Option (List (List Char))
  | kept, [] => some kept.reverse
  | kept, s :: rest =>
    if isIdleSegment s then resolveSegments kept rest
    else if isUpSegment s then
      match kept with
      | [] => none
      | _ :: kept => resolveSegments kept rest
    else resolveSegments (s :: kept) rest

/-! ## The guard -/

/-- A path with its backslashes read as slashes and without blanks at its ends. -/
def cleanPath (raw : List Char) : List Char :=
  trim (raw.map (fun c => if c = '\\' then '/' else c))

/-- Whether a path starts with a drive letter and a colon. -/
def hasDrive : List Char → Bool
  | c :: ':' :: _ => isAsciiLetter c
  | _ => false

/-- The guard on a path that is cleaned already. -/
def guardCleaned (c : List Char) : Except PathFlaw (List Char) :=
  if c.contains '\x00' then .error .nul
  else if hasDrive c then .error .drive
  else
    match resolveSegments [] (splitOnChar '/' c) with
    | none => .error .climbsOut
    | some [] => .error .namesNothing
    | some segments => .ok (joinWith '/' segments)

/-- The project-relative form of a path, or the refusal of it. -/
def normalize (raw : String) : Except PathRefusal String :=
  let c := cleanPath raw.toList
  match guardCleaned c with
  | .ok p => .ok (String.ofList p)
  | .error flaw => .error ⟨String.ofList c, flaw⟩

/-- The guard on a path that may be missing. -/
def normalizeGiven : Option String → Except PathRefusal String
  | none => .error ⟨"", .missing⟩
  | some raw => normalize raw

end StagedEdits
