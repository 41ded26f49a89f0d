import StagedEdits.Service.Request
import StagedEdits.Service.Route
import StagedEdits.Service.Server

set_option autoImplicit false

/-! # Exchanges

The answers of the service to requests. A body that does not fit is refused before the id is
looked at, an id that cannot be one before the sessions are. All answers are given at once but that
to a removal, which waits for the turn to stop. Where something goes wrong that the client is not
told of, the response keeps what it was.

Main definitions: `Response`, `Server.respond`, `Server.finishRemoval`. -/

namespace StagedEdits

/-- What a response carries. -/
inductive Content where
  | nothing
  | json (v : Json)
  | text (s : String)
  /-- The events of a turn, as they come. -/
  | events (turnId : String)

/-- A response. -/
structure Response where
  status : Nat
  content : Content
  /-- What went wrong that the client is not told of. -/
  crash : Option Failure := none

/-- What a request comes to: a `Response`, or a turn that has to stop first. -/
inductive Exchange where
  | answered (r : Response)
  /-- A response once the turn of a session has stopped. -/
  | removing (x : Session)

namespace Response

/-- A response that went well. -/
def ok (fields : List (String × Json)) : Response := { status := 200, content := .json (.obj fields) }

/-- A response of `status` that carries `detail`. -/
def refusal (status : Nat) (detail : String) : Response :=
  { status, content := .json (.obj [("detail", .str detail)]) }

/-- A response that carries nothing. -/
def bare (status : Nat) : Response := { status, content := .nothing }

/-- The response to something that must not happen. -/
def broken (f : Failure) : Response :=
  { status := 500, content := .text "Internal Server Error", crash := some f }

/-- The failure of showing a number that is not finite. -/
def notFinite : Failure := .other "ValueError" "Out of range float values are not JSON compliant"

/-- The response to a body that is refused. The values that do not fit are shown, which cannot be if
    one of their numbers is not finite. -/
def ofBodyFault : BodyFault → Response
  | .unreadable => refusal 400 "There was an error parsing the body"
  | .unfit values => if Json.areFinite values then bare 422 else broken notFinite

/-- The response to a failure: a conflict for what the sessions do not allow, an error for files that
    cannot be written, and no word on all else. -/
def ofFailure : Failure → Response
  | .fault (.sessionNotFound id) => refusal 404 (Fault.sessionNotFound id).message
  | .fault (.sessionConflict id) => refusal 409 (Fault.sessionConflict id).message
  | .fault (.commitRefused status reason) => refusal 409 (Fault.commitRefused status reason).message
  | .fault (.persistence path m) => refusal 500 (Fault.persistence path m).message
  | f => broken f

end Response

namespace Server

/-- The preview of a session. -/
def filesOf (x : Session) : List (String × Json) :=
  let texts (t : Table String) : Json := .obj (t.rows.map (fun r => (r.1, .str r.2)))
  let o := x.turn.overlay
  [("session_id", .str x.id), ("status", .str x.turn.status.text),
    ("attempt", .nat x.turn.record.attempt), ("virtual_files", texts o.writes),
    ("deleted_files", .texts o.deletes.toList), ("renames", texts o.renames)]

/-- What is told of a commit of `x` that went through with `report`. -/
def committedFields (x : Session) (report : CommitReport) : List (String × Json) :=
  [("committed", .bool true), ("status", .str x.turn.status.text),
    ("written", .texts report.written), ("deleted", .texts report.deleted),
    ("dependencies", .texts x.turn.record.dependencies)]

/-- Answers a request with `body` for a turn under `id`. -/
def answerTurn (s : Server) (id : String) (body : RequestBody) : Server × Response :=
  match TurnRequest.ofBody body with
  | .error f => (s, .ofBodyFault f)
  | .ok r =>
    if !isSessionId id then (s, .refusal 400 "Invalid session ID format")
    else if !s.hasAgent then (s, .refusal 503 "No generating agent configured")
    else
      match s.startTurn id r.prompt r.maxAttempts with
      | (s, .error f) => (s, .ofFailure f)
      | (s, .ok turnId) => (s, { status := 200, content := .events turnId })

/-- Goes on with `next` from the session that is active under `id`, or answers that there is
    none. -/
def withSession (s : Server) (id : String) (next : Session → Server × Exchange) :
    Server × Exchange :=
  if !isSessionId id then (s, .answered (.refusal 400 "Invalid session ID format"))
  else
    match s.find id with
    | .error f => (s, .answered (.ofFailure (.fault f)))
    | .ok x => next x

/-- Commits the session of `id` in one go, the disk failing where `sabotage` says. -/
def commitNow (s : Server) (sabotage : Sabotage) (id : String) (force : Bool) :
    Server × Response :=
  match s.beginCommit id force with
  | .error f => (s, .ofFailure (.fault f))
  | .ok p =>
    match s.endCommit sabotage p with
    | (s, .error f) => (s, .ofFailure f)
    | (s, .ok report) => (s, .ok (committedFields p.session report))

/-- The response to the removal of `x`, the turn of which has stopped. -/
def finishRemoval (s : Server) (x : Session) : Server × Response :=
  let s := s.endRemoval x
  let x := (s.sessions.get? x.turn.config.turnId).getD x
  (s, .ok [("session_id", .str x.id), ("status", .str x.turn.status.text),
    ("discarded", .bool true)])

/-- Answers a request with `body` at a `Route`. What the pages show is left open. -/
def respondAt (s : Server) (sabotage : Sabotage) (body : RequestBody) : Route → Server × Exchange
  | .alive => (s, .answered (.ok [("ok", .bool true)]))
  | .page => (s, .answered (.bare 200))
  | .health =>
    (s, .answered (.ok [("status", .str "healthy"), ("version", .str serviceVersion),
      ("active_sessions", .nat s.registry.size), ("generator_configured", .bool s.hasAgent)]))
  | .sessions => (s, .answered (.ok [("sessions", .texts s.registry.ids)]))
  | .turns id =>
    let (s, r) := s.answerTurn id body
    (s, .answered r)
  | .files id => s.withSession id (fun x => (s, .answered (.ok (filesOf x))))
  | .commit id =>
    match CommitRequest.ofBody body with
    | .error f => (s, .answered (.ofBodyFault f))
    | .ok c =>
      s.withSession id (fun _ =>
        let (s, r) := s.commitNow sabotage id c.force
        (s, .answered r))
  | .session id =>
    s.withSession id (fun _ =>
      match s.beginRemoval id with
      | .error f => (s, .answered (.ofFailure (.fault f)))
      | .ok (s, x) => (s, .removing x))

/-- Answers a request with `method`, `path` and `body`: `respondAt` where `dispatch` sends it. -/
def respond (s : Server) (sabotage : Sabotage) (method path : String) (body : RequestBody) :
    Server × Exchange :=
  match dispatch method path with
  | .to r => s.respondAt sabotage body r
  | .wrongMethod => (s, .answered (.refusal 405 "Method Not Allowed"))
  | .moved => (s, .answered (.bare 307))
  | .nowhere => (s, .answered (.refusal 404 "Not Found"))

end Server

end StagedEdits
