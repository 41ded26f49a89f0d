import StagedEdits.Number.Reading
import StagedEdits.Problem
import StagedEdits.Store.Table
import StagedEdits.Text.Digit
import StagedEdits.Text.Lines

set_option autoImplicit false

/-! # The compiler's report

Reads problems out of what the compiler prints. A finding is one line: the file, the place in
parentheses, the word error with a code, and the message. Indented lines right after it belong to
its message; all other lines are passed over.

Main definitions: `readFinding?`, `readReport`. -/

namespace StagedEdits

/-- A finding as it is written. -/
structure Finding where
  file : List Char
  line : List Char
  column : List Char
  code : List Char
  message : List Char
  deriving DecidableEq

/-- A run of at least one digit, and the rest. -/
def takeDigits? (cs : List Char) : Option (List Char × List Char) :=
  match cs.takeWhile isDecimalDigit with
  | [] => none
  | ds => some (ds, cs.dropWhile isDecimalDigit)

/-- The rest of `cs` behind `lead`, if it begins with that. -/
def dropLead? (lead cs : List Char) : Option (List Char) :=
  if lead.isPrefixOf cs then some (cs.drop lead.length) else none

/-- A finding from the parenthesis on, behind its file, which `before` holds in reverse. -/
def readPlace? (before cs : List Char) : Option Finding := do
  let cs ← dropLead? ['('] cs
  let (line, cs) ← takeDigits? cs
  let cs ← dropLead? [','] cs
  let (column, cs) ← takeDigits? cs
  let cs ← dropLead? "): error TS".toList cs
  let (code, cs) ← takeDigits? cs
  let message ← dropLead? ": ".toList cs
  return { file := before.reverse, line, column, code, message }

/-- A finding behind a part of its file name, which is kept in reverse. The file is as short as it
    can be, but not empty. -/
def readFindingBehind? : (before : List Char) → List Char → Option Finding
  | _, [] => none
  | before, c :: cs =>
    match if before.isEmpty then none else readPlace? before (c :: cs) with
    | some f => some f
    | none => readFindingBehind? (c :: before) cs

/-- The finding that a line is, blanks at its ends aside. -/
def readFinding? (line : List Char) : Option Finding := readFindingBehind? [] (trim line)

/-- A file name with forward slashes only and without one `./` at its start. -/
def reportedFile (file : List Char) : List Char :=
  match file.map (fun c => if c = '\\' then '/' else c) with
  | '.' :: '/' :: rest => rest
  | f => f

/-- The source line `line` of `file`, if the file is known and long enough. -/
def snippetOf (files : Table String) (file : String) (line : Int) : Option String :=
  match files.get? file with
  | none => none
  | some content =>
    if 1 ≤ line then ((splitLines content.toList)[(line - 1).toNat]?).map String.ofList else none

/-- A finding as a problem, still without its source line. -/
def Finding.toProblem (f : Finding) : Except NumberFault Problem := do
  let line ← readDigits f.line
  let column ← readDigits f.column
  let code ← readDigits f.code
  return { file := String.ofList (reportedFile f.file), line, column,
           message := String.ofList (trim f.message), code, snippet := none }

/-- The problem `p` with its source line, as far as `files` has it. -/
def withSnippet (files : Table String) (p : Problem) : Problem :=
  { p with snippet := snippetOf files p.file p.line }

/-- Whether a line goes on with the message before it: it is indented and not blank. -/
def isContinuation (line : List Char) : Bool :=
  (match line with
    | c :: _ => c == ' ' || c == '\t'
    | [] => false) && !allBlank line

/-- Reads on behind `current`, a problem that further lines may still belong to. -/
def readLines (files : Table String) : (current : Option Problem) → List (List Char) →
    Except NumberFault (List Problem)
  | current, [] => .ok (current.toList.map (withSnippet files))
  | current, line :: rest =>
    match readFinding? line with
    | some f => do
      let p ← f.toProblem
      let ps ← readLines files (some p) rest
      return current.toList.map (withSnippet files) ++ ps
    | none =>
      match current with
      | some p =>
        if isContinuation line then
          readLines files
            (some { p with message := p.message ++ "\n" ++ String.ofList (trim line) }) rest
        else do
          let ps ← readLines files none rest
          return withSnippet files p :: ps
      | none => readLines files none rest

/-- The problems of `report`, in order of their places. -/
def readReport (files : Table String) (report : List Char) :
    Except NumberFault (List Problem) := do
  let ps ← readLines files none (splitLines report)
  return sortProblems ps

end StagedEdits
