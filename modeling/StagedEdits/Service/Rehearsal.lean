import StagedEdits.Service.Server
import StagedEdits.Turn.Script

set_option autoImplicit false

/-! # Rehearsals of the service

The service played with scripted collaborators that all sessions share. Turns that can go on wait in
a queue and are woken in order. A turn goes on until it holds, stops or asks the type checker: a
check runs as a task of its own, so the turn goes to the end of the queue for it, and once more each
time the task passes its outcome on.

Main definitions: `ServerRehearsal`, `ServerRehearsal.step?`, `ServerRehearsal.release`,
`ServerRehearsal.interrupt`. -/

namespace StagedEdits

/-- What a turn is woken for. -/
inductive Wake where
  /-- To go on, after a reply if there is one. -/
  | goOn (r : Option Reply)
  /-- To have the type checker called. -/
  | check

/-- A turn in the queue, with what it is woken for. -/
structure Woken where
  turnId : String
  /-- How often it is passed over before it is woken. -/
  passes : Nat
  wake : Wake

/-- A turn that waits at a hold. -/
structure Held where
  turnId : String
  /-- The reply that follows on the hold, if one does. -/
  next : Option Reply
  checks : Bool

/-- The `server` with its scripted world. -/
structure ServerRehearsal where
  server : Server
  /-- The agent and the type checker. -/
  cast : Cast
  /-- The rest of the agent's stream for each turn. -/
  cues : Table (List Cue)
  /-- The turns that can go on, in order. -/
  ready : List Woken
  /-- The turns that wait at a hold, in order. -/
  held : List Held
  prompts : List String
  sent : List (String × Json)

namespace ServerRehearsal

/-- The service before anything was asked of it, with the collaborators of `cast`. -/
def new (server : Server) (cast : Cast) : ServerRehearsal :=
  ⟨server, cast, Table.empty, [], [], [], []⟩

/-- The prompt that a turn asks the agent with, if it waits for a stream. -/
def promptOf (t : Turn) : List String :=
  match t.point with
  | .opening => t.prompts.getLast?.toList
  | _ => []

/-- Sends the last event of the turn `turnId` to its listeners. -/
def tell (x : ServerRehearsal) (turnId : String) : ServerRehearsal :=
  let (server, told) := x.server.tell (fun _ => none) turnId
  { x with
    server
    sent := x.sent ++ told.toList.flatMap (fun (e, sockets) => sockets.map (·, e.toJson)) }

/-- Lets the turn `t` go on with what its point gets of the cast. If `checks`, a reply is not taken
    at once but behind the turns that are ready. -/
def go (x : ServerRehearsal) (turnId : String) (t : Turn) (checks : Bool) : ServerRehearsal :=
  let (cast, cues, p) := x.cast.prompt ((x.cues.get? turnId).getD []) t.point
  let x := { x with cast, cues := x.cues.set turnId cues, prompts := x.prompts ++ promptOf t }
  let again : Woken := ⟨turnId, 0, .goOn none⟩
  match p with
  | .stop => x
  | .reply r =>
    if checks then { x with ready := x.ready ++ [⟨turnId, 1, .goOn (some r)⟩] }
    else { x with server := x.server.advance turnId r, ready := again :: x.ready }
  | .hold next => { x with held := x.held ++ [⟨turnId, next, checks⟩] }
  | .tell => { x.tell turnId with ready := again :: x.ready }

/-- Wakes the turn `turnId`. -/
def wake (x : ServerRehearsal) (turnId : String) : Wake → ServerRehearsal
  | .goOn (some r) =>
    { x with
      server := x.server.advance turnId r
      ready := ⟨turnId, 0, .goOn none⟩ :: x.ready }
  | w =>
    match x.server.sessions.get? turnId with
    | none => x
    | some s =>
      match s.turn.point, w with
      | .checking .., .goOn _ => { x with ready := x.ready ++ [⟨turnId, 0, .check⟩] }
      | .checking .., .check => x.go turnId s.turn true
      | _, _ => x.go turnId s.turn false

/-- The next step; none once no turn can go on. -/
def step? (x : ServerRehearsal) : Option ServerRehearsal :=
  match x.ready with
  | [] => none
  | ⟨turnId, passes + 1, w⟩ :: rest => some { x with ready := rest ++ [⟨turnId, passes, w⟩] }
  | ⟨turnId, 0, w⟩ :: rest => some ({ x with ready := rest }.wake turnId w)

/-- Lets the turn `turnId`, which was just started, go on. -/
def begin (x : ServerRehearsal) (turnId : String) : ServerRehearsal :=
  { x with ready := x.ready ++ [⟨turnId, 0, .goOn none⟩] }

/-- Releases all holds. -/
def release (x : ServerRehearsal) : ServerRehearsal :=
  { x with
    held := []
    ready := x.ready ++
      x.held.map (fun h => ⟨h.turnId, if h.checks then 2 else 0, .goOn h.next⟩) }

/-- Cancels the tasks of those of `turnIds` that wait at a hold. -/
def interrupt (x : ServerRehearsal) (turnIds : List String) : ServerRehearsal :=
  let stopped := turnIds.flatMap (fun k => x.held.filter (fun h => h.turnId == k))
  { x with
    held := x.held.filter (fun h => !turnIds.contains h.turnId)
    ready := x.ready ++ stopped.map (fun h =>
      ⟨h.turnId, if h.checks then 3 else 0, .goOn (some (.failed .cancelled))⟩) }

/-- Whether the turn `turnId` waits at a hold. -/
def holds (x : ServerRehearsal) (turnId : String) : Bool := x.held.any (·.turnId == turnId)

/-- The events that the client of the turn `turnId` gets, and whether it gets more. -/
def read (x : ServerRehearsal) (turnId : String) : ServerRehearsal × List Event × Bool :=
  let (server, events) := x.server.drain turnId
  let ended := ((server.sessions.get? turnId).map (·.channel.ended)).getD true
  ({ x with server }, events, !ended)

end ServerRehearsal

end StagedEdits
