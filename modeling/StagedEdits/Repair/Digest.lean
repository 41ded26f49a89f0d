import StagedEdits.Problem
import StagedEdits.Text.Blank

set_option autoImplicit false

/-! # The repair digest

What the agent is asked to repair: the number of problems, the first of them in order of their
places, each with its source line if there is one, and how many were left out. If a number of a
problem that is shown cannot be written, there is no digest.

Main definitions: `shownProblems`, `repairDigest`. -/

namespace StagedEdits

/-- The source line between fences, without the line breaks at its end. -/
def snippetLines : Option String → List String
  | none => []
  | some "" => []
  | some s => ["\x60\x60\x60", String.ofList (dropEndWhile (· == '\n') s.toList), "\x60\x60\x60"]

/-- The problem `p` with `number` before it and its source line below it. -/
def renderNumbered (number : Nat) (p : Problem) : Except NumberFault String := do
  let line ← p.render
  return "\n".intercalate ((toString number ++ ". " ++ line) :: snippetLines p.snippet)

/-- The problems that a digest shows: the first `limit` in order, or all if that is not positive. -/
def shownProblems (limit : Int) (ps : List Problem) : List Problem :=
  if 0 < limit then (sortProblems ps).take limit.toNat else sortProblems ps

/-- The number of problems of `ps` that `shownProblems limit ps` leaves out. -/
def hiddenCount (limit : Int) (ps : List Problem) : Nat :=
  ps.length - (shownProblems limit ps).length

/-- The problems with their numbers, from `number` on, each with an empty line after it. -/
def numberedParts (number : Nat) : List Problem → Except NumberFault (List String)
  | [] => .ok []
  | p :: ps => do
    let part ← renderNumbered number p
    return part :: "" :: (← numberedParts (number + 1) ps)

/-- The first line of a digest. -/
def digestHeading (count : Nat) : String :=
  "Fix these " ++ toString count ++ " TypeScript compile-time " ++
    (if count == 1 then "error" else "errors") ++ ":"

/-- The last line of a digest. -/
def digestRequest : String :=
  "Fix every error above with the smallest change that works. Do not touch unrelated files."

/-- The line about the problems that were left out. -/
def hiddenParts (hidden : Nat) : List String :=
  if hidden == 0 then [] else ["...and " ++ toString hidden ++ " more not shown.", ""]

/-- The digest of some problems, showing at most `limit` of them if it is positive. -/
def repairDigest (limit : Int) (ps : List Problem) : Except NumberFault String := do
  let parts ← numberedParts 1 (shownProblems limit ps)
  return "\n".intercalate (digestHeading ps.length :: "" :: parts ++
    hiddenParts (hiddenCount limit ps) ++ [digestRequest])

end StagedEdits
