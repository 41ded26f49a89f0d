import StagedEdits.Json
import StagedEdits.Path.Guard

set_option autoImplicit false

/-! # Faults

What can go wrong, by cause. The faults of single directives are collected on the turn; the others
end what was asked for. Each cause has a name, one wording and its details; the three together are
what a report shows.

Main definitions: `Fault`, `Fault.message`, `Fault.details`, `Fault.toJson`, `Failure`. -/

namespace StagedEdits

/-- Something that went wrong. -/
inductive Fault where
  /-- Any fault that has no cause of its own. -/
  | general (message : String) (details : List (String × Json))
  /-- The path of a directive was refused. -/
  | pathEscape (path reason : String)
  /-- A tag could not be read or never closed. -/
  | malformed (tag reason : String) (start stop : Int)
  /-- The file to rename is neither pending nor in the base. -/
  | sourceNotFound (source target : String)
  | checkerUnavailable (reason : String) (attempts : Int)
  /-- A turn was asked to make a move that its status does not allow. -/
  | invalidTransition (current requested : String)
  /-- A commit was asked for that the turn does not allow. -/
  | commitRefused (status reason : String)
  /-- A session of that id is active already. -/
  | sessionConflict (id : String)
  /-- No session of that id is active. -/
  | sessionNotFound (id : String)
  /-- A file could not be written. -/
  | persistence (path message : String)
  deriving Inhabited, BEq

namespace Fault

/-- The name of the cause. -/
def name : Fault → String
  | .general .. => "PatchLoopError"
  | .pathEscape .. => "PathEscape"
  | .malformed .. => "MalformedDirective"
  | .sourceNotFound .. => "SourceNotFound"
  | .checkerUnavailable .. => "TypecheckCollaboratorUnavailable"
  | .invalidTransition .. => "InvalidTransition"
  | .commitRefused .. => "CommitRefused"
  | .sessionConflict .. => "SessionConflict"
  | .sessionNotFound .. => "SessionNotFound"
  | .persistence .. => "PersistenceError"

/-- The wording of a fault. -/
def message : Fault → String
  | .general m _ => m
  | .pathEscape path reason => "Rejected path '" ++ path ++ "': " ++ reason
  | .malformed tag reason start _ =>
    "Malformed <" ++ tag ++ "> at " ++ toString start ++ ": " ++ reason
  | .sourceNotFound source target =>
    "Cannot rename '" ++ source ++ "' -> '" ++ target ++ "': source not found"
  | .checkerUnavailable reason _ => "Typecheck collaborator unavailable: " ++ reason
  | .invalidTransition current requested =>
    "Illegal turn transition " ++ current ++ " -> " ++ requested
  | .commitRefused status reason => "Commit refused in state '" ++ status ++ "': " ++ reason
  | .sessionConflict id => "Session " ++ id ++ " already has an active turn"
  | .sessionNotFound id => "No active session " ++ id
  | .persistence path m => "Cannot write to " ++ path ++ ": " ++ m

/-- The details of a fault. -/
def details : Fault → List (String × Json)
  | .general _ ds => ds
  | .pathEscape path _ => [("path", .str path)]
  | .malformed tag _ start stop => [("tag", .str tag), ("start", .int start), ("end", .int stop)]
  | .sourceNotFound source target => [("from", .str source), ("to", .str target)]
  | .checkerUnavailable reason attempts => [("reason", .str reason), ("attempts", .int attempts)]
  | .invalidTransition current requested =>
    [("current", .str current), ("requested", .str requested)]
  | .commitRefused status _ => [("status", .str status)]
  | .sessionConflict id => [("session_id", .str id)]
  | .sessionNotFound id => [("session_id", .str id)]
  | .persistence path _ => [("path", .str path)]

/-- A fault as a JSON object: its name and wording, with the details set over them. -/
def toJson (f : Fault) : Json :=
  .obj (Json.mergeFields [("error", .str f.name), ("message", .str f.message)] f.details)

/-- The fault of a refused path. -/
def ofRefusal (r : PathRefusal) : Fault := .pathEscape r.path r.flaw.reason

end Fault

/-! ## Failures -/

/-- What can end a step early: a fault, a cancellation, a time limit, or anything else that a
    collaborator may throw, by the name of its kind and its text. -/
inductive Failure where
  | fault (f : Fault)
  | cancelled
  | timedOut
  /-- Any other failure that a handler of failures catches, by its kind and its text. What ends the
      whole process passes such handlers and is none of these. -/
  | other (kind text : String)
  deriving Inhabited, BEq

namespace Failure

/-- The name of a failure's kind. -/
def kind : Failure → String
  | .fault f => f.name
  | .cancelled => "CancelledError"
  | .timedOut => "TimeoutError"
  | .other kind _ => kind

/-- The text of a failure. -/
def text : Failure → String
  | .fault f => f.message
  | .cancelled => ""
  | .timedOut => ""
  | .other _ text => text

/-- The failure of setting a clock to a whole number of seconds that is too large for it. -/
def clockOverflow : Failure := .other "OverflowError" "int too large to convert to float"

end Failure

end StagedEdits
