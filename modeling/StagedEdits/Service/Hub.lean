import StagedEdits.Journal
import StagedEdits.Store.Table

set_option autoImplicit false

/-! # The hub

The sockets that listen to each session, in the order they came. A socket may listen more than once
and to more than one session. A message goes to every socket of its session; a socket that fails is
taken off the session.

Main definitions: `Hub`, `Hub.connect`, `Hub.disconnect`, `Hub.send`. -/

namespace StagedEdits

variable {σ : Type} [DecidableEq σ]

/-- The listening sockets. -/
structure Hub (σ : Type) where
  sessions : Table (List σ)
  deriving Inhabited

namespace Hub

/-- No sockets. -/
def empty : Hub σ := ⟨Table.empty⟩

/-- The sockets of `session` in the order in which they came; none if `h` does not list it. -/
def sockets (h : Hub σ) (session : String) : List σ := (h.sessions.get? session).getD []

/-- The number of `h.sockets session`; a socket that came twice counts twice. -/
def count (h : Hub σ) (session : String) : Nat := (h.sockets session).length

/-- The hub `h` with `l` as the sockets of `session`; with `l` empty, `session` is forgotten. -/
def setSockets (h : Hub σ) (session : String) (l : List σ) : Hub σ :=
  match l with
  | [] => ⟨h.sessions.erase session⟩
  | l => ⟨h.sessions.set session l⟩

/-- Adds `socket` behind the sockets of `session`. -/
def connect (h : Hub σ) (socket : σ) (session : String) : Hub σ :=
  h.setSockets session (h.sockets session ++ [socket])

/-- Takes the first `socket` off `session`, if there is one. -/
def disconnect (h : Hub σ) (socket : σ) (session : String) : Hub σ :=
  h.setSockets session ((h.sockets session).erase socket)

/-- The sockets that a message of `session` reaches, in order: those for which `fails` gives no
    reason. -/
def receivers (h : Hub σ) (fails : σ → Option String) (session : String) : List σ :=
  (h.sockets session).filter (fun s => (fails s).isNone)

/-- The sockets that a message of `session` does not reach, in order: those for which `fails` gives
    a reason. -/
def missed (h : Hub σ) (fails : σ → Option String) (session : String) : List σ :=
  (h.sockets session).filter (fun s => (fails s).isSome)

/-- The hub `h` after a message to `session`: each of `h.missed fails session` is taken off, once
    for each time it stands there. -/
def send (h : Hub σ) (fails : σ → Option String) (session : String) : Hub σ :=
  (h.missed fails session).foldl (fun h s => h.disconnect s session) h

/-- What a new socket says. -/
def connectEntry (session : String) : Entry :=
  .noteFor session "TRANSPORT" "🔌 WebSocket connected"

/-- What is said of `h.missed fails session`, each with the reason that `fails` gives. -/
def missedEntries (h : Hub σ) (fails : σ → Option String) (session : String) : List Entry :=
  ((h.sockets session).filterMap fails).map (fun reason =>
    .noteFor session "TRANSPORT" ("⚠️ Dropping dead socket: " ++ reason))

end Hub

end StagedEdits
