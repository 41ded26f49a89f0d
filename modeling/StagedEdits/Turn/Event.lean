import StagedEdits.Turn.Status

set_option autoImplicit false

/-! # Turn events

What a turn tells its listeners: the text of the agent, the directives it applied, the problems of
each check, and at the very end its result. The events of a turn carry numbers without gaps. An
event is written as one line of JSON, unless what it carries is too deep.

Main definitions: `Event`, `Event.toJson`, `Event.message`, `Event.line`. -/

namespace StagedEdits

/-- The kind of an event. -/
inductive EventKind where
  | chunk
  | patch
  | diagnostics
  | done
  deriving DecidableEq, Inhabited

namespace EventKind

/-- The word for a kind. -/
def text : EventKind → String
  | .chunk => "chunk"
  | .patch => "patch"
  | .diagnostics => "diagnostics"
  | .done => "done"

/-- All kinds. -/
def all : List EventKind := [.chunk, .patch, .diagnostics, .done]

/-- The kind of a word. -/
def ofText? (s : String) : Option EventKind := all.find? (fun k => k.text == s)

end EventKind

/-- What an event carries. -/
inductive Payload where
  | chunk (text : String)
  /-- The directives that changed something and the faults of the others. -/
  | patch (directives : List Directive) (errors : List Fault)
  /-- The problems of a check after so many repairs. -/
  | diagnostics (attempt : Nat) (problems : List Problem)
  | done (result : TurnResult)
  /-- Anything else, under one of the kinds. -/
  | fields (kind : EventKind) (fields : List (String × Json))
  deriving Inhabited

namespace Payload

/-- The kind of an event with that payload. -/
def kind : Payload → EventKind
  | .chunk _ => .chunk
  | .patch .. => .patch
  | .diagnostics .. => .diagnostics
  | .done _ => .done
  | .fields k _ => k

/-- A payload as a JSON object. -/
def toJson : Payload → Json
  | .chunk text => .obj [("text", .str text)]
  | .patch ds es =>
    .obj [("directives", .arr (ds.map Directive.toJson)), ("errors", .arr (es.map Fault.toJson))]
  | .diagnostics attempt ps =>
    .obj [("attempt", .nat attempt), ("problems", .arr (ps.map Problem.toJson))]
  | .done result => result.toJson
  | .fields _ fs => .obj fs

end Payload

/-- An event of a turn. -/
structure Event where
  turnId : String
  seq : Int
  payload : Payload
  deriving Inhabited

namespace Event

/-- The kind of an event. -/
def kind (e : Event) : EventKind := e.payload.kind

/-- Whether an event ends its turn. -/
def isDone (e : Event) : Bool := e.kind == .done

/-- An event as a JSON object. -/
def toJson (e : Event) : Json :=
  .obj [("type", .str e.kind.text), ("turn_id", .str e.turnId), ("seq", .int e.seq),
    ("payload", e.payload.toJson)]

/-- The most values that may lie in each other in what an event carries. -/
def maxDepth : Nat := 255

/-- Whether too many values lie in each other in what an event carries. -/
def isTooDeep (e : Event) : Bool :=
  match e.payload.toJson with
  | .obj fields => maxDepth < Json.depthFields fields
  | _ => false

/-- Why an event is not written that carries values too deep in each other. -/
def depthReason : String := "Maximum serialization depth exceeded"

/-- An event as the message that sockets are sent. -/
def message (e : Event) : Except Failure Json :=
  if e.isTooDeep then .error (.other "ValueError" depthReason) else .ok e.toJson

/-- An event as a line of JSON. -/
def line (e : Event) : Except Failure String :=
  if e.isTooDeep then
    .error (.other "PydanticSerializationError"
      ("Error serializing to JSON: ValueError: " ++ depthReason))
  else .ok (e.toJson.compact ++ "\n")

/-- Reads an event from JSON. -/
def ofJson? (v : Json) : Option Event := do
  let kind ←
    match v.field? "type" with
    | some (.str s) => EventKind.ofText? s
    | _ => none
  let turnId ← Problem.textOf? v "turn_id"
  let seq ← Problem.wholeOf? v "seq"
  let fields ←
    match v.field? "payload" with
    | none => some []
    | some (.obj fs) => some fs
    | some _ => none
  return ⟨turnId, seq, .fields kind fields⟩

end Event

end StagedEdits
