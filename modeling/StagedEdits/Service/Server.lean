import StagedEdits.Disk.Listing
import StagedEdits.Path.SessionId
import StagedEdits.Service.Hub
import StagedEdits.Service.Registry
import StagedEdits.Settings
import StagedEdits.Turn.Channel
import StagedEdits.Turn.Commit

set_option autoImplicit false

/-! # The server

The sessions that the service runs, each with its one turn, the channel to the client that started
it and the sockets that listen to it. Every move here is done in one go; a request that has to wait
looks a session up in one move and ends it in a later one, by the session's id, and other moves may
come in between.

Main definitions: `Session`, `Server`, `Server.startTurn`, `Server.advance`, `Server.tell`,
`Server.beginCommit`, `Server.endCommit`, `Server.beginRemoval`, `Server.endRemoval`,
`Server.hear`. -/

namespace StagedEdits

/-- A session: one `turn` and the `channel` to the client that started it. -/
structure Session where
  /-- The id that clients know it by. -/
  id : String
  turn : Turn
  channel : Channel
  /-- Whether its turn has stopped running. -/
  ended : Bool
  deriving Inhabited

/-- The service. -/
structure Server where
  settings : Settings
  hasAgent : Bool
  /-- The active sessions: by the id that clients know, the id of the turn. -/
  registry : Registry String
  /-- All sessions there were, by the ids of their turns. -/
  sessions : Table Session
  hub : Hub String
  disk : Disk
  made : Nat
  journal : List Entry

/-- The version of the service. -/
def serviceVersion : String := "0.1.0"

/-- How checks are tried again by the settings. -/
def Settings.policy (c : Settings) : RetryPolicy :=
  { maxRetries := c.checkRetries, timeout := .real c.checkTimeout }

/-- The id of a turn: the number of turns made so far, in 32 hexadecimal digits or as many more as
    the number has. -/
def turnIdOf (n : Nat) : String := String.ofList (hexDigits (max 32 (n.log2 / 4 + 1)) n)

namespace Server

/-- Puts `entries` into the journal of the service. -/
def say (s : Server) (entries : List Entry) : Server := { s with journal := s.journal ++ entries }

/-- The service when it starts on the disk `d`: the directory of the workspaces is made. There is an
    agent to ask if `hasAgent` says so. -/
def start (settings : Settings) (hasAgent : Bool) (d : Disk) : Server :=
  { settings, hasAgent, registry := Registry.empty, sessions := Table.empty, hub := Hub.empty,
    disk := (d.makeDirs settings.workspaces).1, made := 0,
    journal := [.note "SESSION" ("🚀 patchloop " ++ serviceVersion ++ " starting (workspaces: " ++
      settings.workspaces.text ++ ")")] }

/-- The directory that the session `x` edits, below the workspaces of `s`. -/
def projectDir (s : Server) (x : Session) : FilePath := projectPath s.settings.workspaces x.id

/-- The files under the overlay of the session `x`. No request lists them, so the kind of walk that
    would do so is of no account. -/
def base (s : Server) (x : Session) : BaseTree :=
  s.disk.project (s.projectDir x) s.settings.ignoredDirs .passesLinks

/-- The session that is active under `id`: the registry names its turn, `s.sessions` keeps it. -/
def find (s : Server) (id : String) : Except Fault Session :=
  match s.registry.find id with
  | .error f => .error f
  | .ok turnId =>
    match s.sessions.get? turnId with
    | none => .error (.sessionNotFound id)
    | some x => .ok x

/-- Keeps the session `x` under its turn; what its turn said goes into the journal of `s`. -/
def keep (s : Server) (x : Session) : Server :=
  { s.say x.turn.journal with
    sessions := s.sessions.set x.turn.config.turnId { x with turn := { x.turn with journal := [] } } }

/-- Takes whichever session is active under `id` out of the registry. -/
def release (s : Server) (id : String) : Server :=
  let (registry, old) := s.registry.finish id
  { s with registry }.say (if old.isSome then [Registry.finishEntry id] else [])

/-! ## Turns -/

/-- What is fixed for the next turn of `id`: the settings of `s` and the number that the turn
    gets. -/
def turnConfig (s : Server) (id : String) : TurnConfig :=
  { session := id, turnId := turnIdOf (s.made + 1), fallbackMark := s.settings.mark,
    askedMark := none, policy := s.settings.policy, digestLimit := s.settings.digestLimit }

/-- Starts a turn under `id` with `prompt` and with `maxAttempts` repairs, or as many as the
    settings give, unless a session is active there. The number of the turn is used up in any
    case. -/
def startTurn (s : Server) (id prompt : String) (maxAttempts : Option Nat) :
    Server × Except Failure String :=
  let config := s.turnConfig id
  let limit : Int := (maxAttempts.map Int.ofNat).getD s.settings.maxAttempts
  let s := { s with made := s.made + 1 }
  match Turn.new? config limit with
  | none => (s, .error (.other "ValueError" Budget.negativeMessage))
  | some turn =>
    match s.registry.start id config.turnId, turn.start prompt with
    | .error f, _ => (s, .error (.fault f))
    | .ok _, .error f => (s, .error f)
    | .ok registry, .ok turn =>
      (({ s with registry }.say [Registry.startEntry id]).keep ⟨id, turn, Channel.new, false⟩,
        .ok config.turnId)

/-- What a turn says that ended with a failure other than a cancellation. -/
def crashEntries (x : Session) : List Entry :=
  match x.turn.point with
  | .over (.raised .cancelled) => []
  | .over (.raised f) =>
    [.noteFor x.id "TURN" ("❌ Turn crashed: " ++ f.kind ++ ": " ++ f.text)]
  | _ => []

/-- Whether a session is dropped when its turn stops: it was cancelled or has not ended. -/
def isDropped (status : TurnStatus) : Bool := status == .cancelled || !status.isTerminal

/-- Ends the task of the session `x`: its channel is closed, and if `x.isDropped` its id is
    released. -/
def stop (s : Server) (x : Session) : Server :=
  let s := (s.say (crashEntries x)).keep { x with channel := x.channel.close, ended := true }
  if isDropped x.turn.status then s.release x.id else s

/-- The service after the reply `r` to the turn `turnId`. -/
def advance (s : Server) (turnId : String) (r : Reply) : Server :=
  match s.sessions.get? turnId with
  | none => s
  | some x =>
    if x.ended then s
    else
      let x := { x with turn := x.turn.advance (s.base x) r }
      let s := s.keep x
      if x.turn.isOver then s.stop { x with turn := { x.turn with journal := [] } } else s

/-- Tells the last event of the turn `turnId`: to its channel first, then to the sockets of its
    session, of which those for which `fails` gives a reason miss it. Also gives the event and the
    sockets that got it. -/
def tell (s : Server) (fails : String → Option String) (turnId : String) :
    Server × Option (Event × List String) :=
  match s.sessions.get? turnId with
  | none => (s, none)
  | some x =>
    match x.turn.events.getLast? with
    | none => (s, none)
    | some e =>
      let s := s.say (s.hub.missedEntries fails x.id)
      let told := s.hub.receivers fails x.id
      let s := { s with hub := s.hub.send fails x.id }.keep
        { x with channel := x.channel.publish e }
      (s.advance turnId .told, some (e, told))

/-- Takes what waits in the channel of the turn `turnId`. -/
def drain (s : Server) (turnId : String) : Server × List Event :=
  match s.sessions.get? turnId with
  | none => (s, [])
  | some x =>
    let (channel, events) := x.channel.drain
    (s.keep { x with channel }, events)

/-- Requests the cancellation of the turn of `x`. -/
def cancel (s : Server) (x : Session) : Server := s.keep { x with turn := x.turn.cancel }

/-- The client of the turn `turnId` goes away; a turn that runs is asked to cancel. -/
def loseClient (s : Server) (turnId : String) : Server :=
  match s.sessions.get? turnId with
  | none => s
  | some x =>
    if x.ended then s
    else (s.say [.noteFor x.id "TRANSPORT" "🔌 Stream closed before turn end - cancelling"]).cancel x

/-! ## Commits -/

/-- A commit that waits for the files to be written: the session it looked up and what that handed
    over. -/
structure PendingCommit where
  /-- The session that was looked up. -/
  session : Session
  handover : Turn.Handover

/-- Looks the session of `id` up and has its turn hand its overlay over, also a failed one if
    `force`. -/
def beginCommit (s : Server) (id : String) (force : Bool) : Except Fault PendingCommit := do
  let x ← s.find id
  let h ← x.turn.beginCommit force
  return ⟨x, h⟩

/-- Writes what `p` hands over. A commit that goes through clears the overlay of the turn it came
    from and releases the id. -/
def endCommit (s : Server) (sabotage : Sabotage) (p : PendingCommit) :
    Server × Except Failure CommitReport :=
  let step := commitSnapshot sabotage s.disk (s.projectDir p.session) p.handover.snapshot
  let s := { s with disk := step.drive.disk }.say step.entries
  let x := (s.sessions.get? p.session.turn.config.turnId).getD p.session
  let s := s.keep { x with turn := x.turn.endCommit p.handover step.outcome }
  match step.outcome with
  | .ok report => (s.release p.session.id, .ok report)
  | .error f => (s, .error f)

/-! ## Removals -/

/-- Looks the session of `id` up and requests the cancellation of its turn. -/
def beginRemoval (s : Server) (id : String) : Except Fault (Server × Session) := do
  let x ← s.find id
  return (s.cancel x, x)

/-- Drops the pending changes of `x`, the session that was looked up, and releases its id. -/
def endRemoval (s : Server) (x : Session) : Server :=
  let x := (s.sessions.get? x.turn.config.turnId).getD x
  (s.keep { x with turn := x.turn.discard }).release x.id

/-! ## The end -/

/-- Whether the turn of the session that is active under `id` still runs. -/
def runs (s : Server) (id : String) : Bool :=
  match s.find id with
  | .ok x => !x.ended
  | .error _ => false

/-- The service stops; gives the turns that have to be cancelled. -/
def shutDown (s : Server) : Server × List String :=
  let running := s.registry.ids.filter s.runs
  let turns := running.filterMap (fun id => s.registry.sessions.get? id)
  (s.say (if running.isEmpty then []
    else [.note "SESSION" ("🔌 Shutting down - cancelling " ++ toString running.length ++
      " running turns")]), turns)

/-! ## Listeners -/

/-- What a client sends over its socket. -/
inductive Frame where
  | value (v : Json)
  /-- A text that is no JSON. -/
  | unreadable
  | gone

/-- What follows on a `Frame`. -/
inductive Listening where
  /-- The service listens on, maybe after a reply. -/
  | on (reply : Option Json)
  | off

/-- The socket `socket` comes to listen to the session `id`. -/
def connect (s : Server) (socket id : String) : Server :=
  { s with hub := s.hub.connect socket id }.say [Hub.connectEntry id]

/-- The reply to a client that wants to cancel where nothing is active. -/
def noSessionReply (id : String) : Json :=
  .obj [("type", .str "error"), ("detail", .str ("No active session " ++ id))]

/-- Takes a frame of `socket`, which listens to the session `id`. A client that goes away is taken
    off the hub; a frame that is no JSON object ends the listening and leaves the hub as it is. -/
def takeFrame (s : Server) (socket id : String) : Frame → Server × Listening
  | .gone => ({ s with hub := s.hub.disconnect socket id }, .off)
  | .unreadable => (s, .off)
  | .value (.obj fields) =>
    if (Json.obj fields).field? "type" == some (.str "CANCEL") then
      match s.find id with
      | .ok x => (s.cancel x, .on none)
      | .error _ => (s, .on (some (noSessionReply id)))
    else (s, .on none)
  | .value _ => (s, .off)

/-- What becomes of a reply to a client. -/
inductive Receipt where
  | taken
  /-- The client turns out to be gone. -/
  | gone
  /-- Anything else goes wrong. -/
  | failed

/-- How listening to a client ends. -/
inductive Departure where
  | gone
  | failed
  deriving DecidableEq

/-- Takes the frame `f` and sends the reply to it, if there is one, of which `receipt` says what
    becomes. A client that turns out to be gone when it is replied to is taken off the hub; a reply
    that fails otherwise ends the listening and leaves the hub as it is. -/
def hear (s : Server) (socket id : String) (f : Frame) (receipt : Receipt) :
    Server × Option Departure :=
  match s.takeFrame socket id f with
  | (s, .on none) => (s, none)
  | (s, .on (some _)) =>
    match receipt with
    | .taken => (s, none)
    | .gone => ({ s with hub := s.hub.disconnect socket id }, some .gone)
    | .failed => (s, some .failed)
  | (s, .off) =>
    match f with
    | .gone => (s, some .gone)
    | _ => (s, some .failed)

end Server

end StagedEdits
