import StagedEdits.Text.Blank

set_option autoImplicit false

/-! # The body of a write

What a write puts into its file. The line break right after the open tag is dropped, and so are the
blank lines at the end. If the first and the last line that remain both start with three backticks,
the two are a fence around the content and are dropped as well. A content that was fenced, or that
ended its last line, ends with one line feed.

Main definition: `bodyContent`. -/

namespace StagedEdits

/-- The three backticks of a fence. -/
def fenceMark : List Char := ['\x60', '\x60', '\x60']

/-- The body without the line break right after the open tag. -/
def dropOpeningBreak : List Char → List Char
  | '\r' :: '\n' :: cs => cs
  | '\n' :: cs => cs
  | cs => cs

/-- Whether lines are at least two, the first and the last of them fence marks. -/
def isFenced : List (List Char) → Bool
  | [] => false
  | [_] => false
  | first :: second :: more =>
    fenceMark.isPrefixOf (trimStart first) &&
      fenceMark.isPrefixOf (trim ((second :: more).getLast (by simp)))

/-- Whether a content ends its last line, blanks aside. -/
def endsItsLine (content : List Char) : Bool :=
  (dropEndWhile (fun c => c == ' ' || c == '\t' || c == '\r') content).getLast? == some '\n'

/-- The content of a write with that body. -/
def bodyContent (body : List Char) : List Char :=
  let content := dropOpeningBreak body
  let lines := dropEndWhile allBlank (splitOnChar '\n' content)
  let fenced := isFenced lines
  let result := joinWith '\n' (if fenced then lines.tail.dropLast else lines)
  if (fenced || endsItsLine content) && !result.isEmpty then result ++ ['\n'] else result

end StagedEdits
