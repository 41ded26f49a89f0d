import StagedEdits.Path.FilePath
import StagedEdits.Text.Ascii

set_option autoImplicit false

/-! # Session ids

The names of sessions. A session id is one to a hundred ASCII letters, digits, underscores and
hyphens; one line feed after them is overlooked. The directory that a session edits is named by the
id with every other character replaced.

Main definitions: `isSessionId`, `sanitizeId`, `projectPath`. -/

namespace StagedEdits

/-- Whether a character may stand in a session id. -/
def isIdChar (c : Char) : Bool :=
  isAsciiLetter c || isAsciiDigit c || c == '_' || c == '-'

/-- The most characters of a session id. -/
def maxIdLength : Nat := 100

/-- Whether a text is one to a hundred characters of a session id. -/
def isIdBody (cs : List Char) : Bool :=
  !cs.isEmpty && cs.length ≤ maxIdLength && cs.all isIdChar

/-- The text without one line feed at its end. -/
def dropFinalNewline (cs : List Char) : List Char :=
  if cs.getLast? == some '\n' then cs.dropLast else cs

/-- Whether a text is accepted as a session id. -/
def isSessionId (id : String) : Bool :=
  isIdBody (dropFinalNewline id.toList)

/-- Whether a character may stand in a directory name. -/
def isDirectoryChar (c : Char) : Bool := isIdChar c || c == '.'

/-- A session id as a directory name. -/
def sanitizeId (id : String) : String :=
  String.ofList (id.toList.map (fun c => if isDirectoryChar c then c else '_'))

/-- The directory below `workspaces` that the session `id` edits. -/
def projectPath (workspaces : FilePath) (id : String) : FilePath :=
  workspaces.joinText (sanitizeId id)

end StagedEdits
