import StagedEdits.Json.Lenient
import StagedEdits.Json.Reader
import StagedEdits.Text.Wide

set_option autoImplicit false

/-! # Request bodies

The bodies of the requests that have one. Numbers and truth values are read leniently. Fields that a
body does not have are overlooked. A body that does not fit is refused together with the values that
are wrong in it.

Main definitions: `RequestBody`, `RequestBody.ofText`, `TurnRequest.ofBody`, `CommitRequest.ofBody`. -/

namespace StagedEdits

/-- The body of a request. -/
inductive RequestBody where
  | missing
  | notJson
  /-- It is no text, or JSON that is more than can be read. -/
  | unreadable
  | value (v : Json)

/-- How many lists and objects may lie in each other in a body. -/
def maxBodyDepth : Nat := 960

/-- Reads the characters of a body. -/
def RequestBody.ofChars (cs : List Char) : RequestBody :=
  match Json.read maxBodyDepth cs with
  | .ok v => .value v
  | .error .notJson => .notJson
  | .error _ => .unreadable

/-- A body as it is sent. One byte order mark at its start is dropped. -/
def RequestBody.ofText (raw : String) : RequestBody :=
  if raw == "" then .missing
  else
    match decodeBytes? raw.toUTF8 with
    | none => .unreadable
    | some cs =>
      match raw.toList with
      | '\uFEFF' :: rest => .ofChars rest
      | _ => .ofChars cs

/-- Why a `RequestBody` is refused. -/
inductive BodyFault where
  | unreadable
  /-- It does not fit; with the values that do not. -/
  | unfit (values : List Json)

/-! ## Bodies -/

/-- What the body of a request for a turn says. -/
structure TurnRequest where
  prompt : String
  /-- How often the turn may be repaired, if the request says so. -/
  maxAttempts : Option Nat
  deriving DecidableEq

/-- Reads the prompt among the fields of a body; one that is missing is missed in the body as a
    whole. -/
def readPrompt (fields : List (String × Json)) : Except Json String :=
  match (Json.obj fields).field? "prompt" with
  | some (.str prompt) => .ok prompt
  | some v => .error v
  | none => .error (.obj fields)

/-- Reads the number of repairs among the fields of a body: none, or a number that is not
    negative. -/
def readMaxAttempts (fields : List (String × Json)) : Except Json (Option Nat) :=
  match (Json.obj fields).field? "max_attempts" with
  | none | some .null => .ok none
  | some v =>
    match lenientWhole? v with
    | some (.ofNat n) => .ok (some n)
    | _ => .error v

/-- Reads the body of a request for a turn. -/
def TurnRequest.ofBody : RequestBody → Except BodyFault TurnRequest
  | .missing | .notJson => .error (.unfit [])
  | .unreadable => .error .unreadable
  | .value (.obj fields) =>
    match readPrompt fields, readMaxAttempts fields with
    | .ok prompt, .ok maxAttempts => .ok ⟨prompt, maxAttempts⟩
    | .error v, .ok _ | .ok _, .error v => .error (.unfit [v])
    | .error v, .error w => .error (.unfit [v, w])
  | .value v => .error (.unfit [v])

/-- What the body of a request for a commit says. -/
structure CommitRequest where
  /-- Whether a failed turn is committed too. -/
  force : Bool
  deriving DecidableEq

/-- Reads the body of a request for a commit; there need not be one. -/
def CommitRequest.ofBody : RequestBody → Except BodyFault CommitRequest
  | .missing | .value .null => .ok ⟨false⟩
  | .notJson => .error (.unfit [])
  | .unreadable => .error .unreadable
  | .value (.obj fields) =>
    match (Json.obj fields).field? "force" with
    | none => .ok ⟨false⟩
    | some v =>
      match lenientTruth? v with
      | some force => .ok ⟨force⟩
      | none => .error (.unfit [v])
  | .value v => .error (.unfit [v])

end StagedEdits
