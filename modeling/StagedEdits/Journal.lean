import StagedEdits.Json

set_option autoImplicit false

/-! # The journal

What a run says while it works. An entry belongs to a scope; the scopes of `shownScopes` are always
printed, all others only while debugging. An entry of a session carries the first characters of the
session's id.

Main definitions: `Entry`, `Entry.print`. -/

namespace StagedEdits

/-- One entry of the journal. -/
inductive Entry where
  /-- A message, of one line or more, with data that may say something. -/
  | line (scope message session : String) (data : Json)
  | heading (scope title session : String)
  deriving Inhabited

/-- The scopes that are always printed. -/
def shownScopes : List String :=
  ["TURN", "APPLY", "TYPECHECK", "REPAIR", "COMMIT", "SESSION"]

namespace Entry

/-- A `message` of no session, under `scope`. -/
def note (scope message : String) : Entry := .line scope message "" .null

/-- A `message` of `session`, under `scope`. -/
def noteFor (session scope message : String) : Entry := .line scope message session .null

/-- The mark of a session: its first eight characters. -/
def sessionMark (session : String) : String :=
  if session == "" then ""
  else " [" ++ String.ofList (session.toList.take 8) ++ "]"

/-- The rule above and below a heading. -/
def rule : String := String.ofList (List.replicate 60 '=')

/-- What an entry prints, `clock` being the time of day; some print nothing unless `debug`. -/
def print (debug : Bool) (clock : String) : Entry → String
  | .line scope message session data =>
    if !debug && !shownScopes.contains scope then ""
    else
      "[" ++ clock ++ "] [" ++ scope ++ "]" ++ sessionMark session ++ " " ++ message ++ "\n" ++
        (if data.saysSomething then "  Data: " ++ data.shown ++ "\n" else "")
  | .heading scope title session =>
    "\n" ++ rule ++ "\n[" ++ clock ++ "] [" ++ scope ++ "]" ++ sessionMark session ++ " " ++
      title ++ "\n" ++ rule ++ "\n"

end Entry

end StagedEdits
