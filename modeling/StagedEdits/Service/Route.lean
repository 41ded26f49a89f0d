import StagedEdits.Path.SessionId
import StagedEdits.Text.Blank

set_option autoImplicit false

/-! # Routes

What a request asks for, by its method and its path. A path is matched segment by segment; one line
feed after its last word is overlooked. A path that matches once its final slashes are dropped is
answered by sending the client there.

Main definitions: `Route`, `Route.ofPath?`, `Dispatch`, `dispatch`, `listenerOf?`. -/

namespace StagedEdits

/-- What the service has, by the id that a path names. -/
inductive Route where
  | alive
  /-- A page about the service, for people to read. -/
  | page
  | health
  /-- The ids of the active sessions. -/
  | sessions
  | turns (id : String)
  /-- The pending files of a session. -/
  | files (id : String)
  | commit (id : String)
  | session (id : String)
  deriving DecidableEq

namespace Route

/-- The methods that a route answers to. -/
def methods : Route → List String
  | .page => ["GET", "HEAD"]
  | .alive | .health | .sessions | .files _ => ["GET"]
  | .turns _ | .commit _ => ["POST"]
  | .session _ => ["DELETE"]

/-- The segments of a path. -/
def segments (path : String) : List String :=
  (splitOnChar '/' path.toList).map String.ofList

/-- A last segment as a word. -/
def lastWord (s : String) : String := String.ofList (dropFinalNewline s.toList)

/-- The route to `part` of the session `id`. -/
def ofPart? (id part : String) : Option Route :=
  match lastWord part with
  | "turns" => some (.turns id)
  | "files" => some (.files id)
  | "commit" => some (.commit id)
  | _ => none

/-- The route of the segments of a path. -/
def ofSegments? : List String → Option Route
  | ["", word] =>
    match lastWord word with
    | "healthz" => some .alive
    | "docs" | "redoc" | "openapi.json" => some .page
    | _ => none
  | ["", "docs", word] => if lastWord word == "oauth2-redirect" then some .page else none
  | ["", "api", word] =>
    match lastWord word with
    | "health" => some .health
    | "sessions" => some .sessions
    | _ => none
  | ["", "api", "sessions", id] => if id == "" then none else some (.session id)
  | ["", "api", "sessions", id, part] => if id == "" then none else ofPart? id part
  | _ => none

/-- The route of a path. -/
def ofPath? (path : String) : Option Route := ofSegments? (segments path)

end Route

/-- Where a request goes: to a `Route`, or nowhere. -/
inductive Dispatch where
  | to (r : Route)
  /-- To a route that does not answer to the method. -/
  | wrongMethod
  /-- To the path without its final slashes. -/
  | moved
  | nowhere
  deriving DecidableEq

/-- A path without its final slashes. -/
def dropFinalSlashes (path : String) : String :=
  String.ofList (dropEndWhile (· == '/') path.toList)

/-- Where a request with `method` and `path` goes. -/
def dispatch (method path : String) : Dispatch :=
  match Route.ofPath? path with
  | some r => if r.methods.contains method then .to r else .wrongMethod
  | none =>
    if path != dropFinalSlashes path && (Route.ofPath? (dropFinalSlashes path)).isSome then .moved
    else .nowhere

/-- The session that a listener at a path wants to hear. -/
def listenerOf? (path : String) : Option String :=
  match Route.segments path with
  | ["", "ws", id] => if id == "" then none else some id
  | _ => none

end StagedEdits
