import StagedEdits.Fault
import StagedEdits.Journal
import StagedEdits.Store.Names
import StagedEdits.Store.Table

set_option autoImplicit false

/-! # The registry

The active sessions by their ids. A session is registered when its turn starts and until it ends;
in between no other session can take its id.

Main definitions: `Registry`, `Registry.start`, `Registry.find`, `Registry.finish`. -/

namespace StagedEdits

variable {α : Type}

/-- The active sessions. -/
structure Registry (α : Type) where
  sessions : Table α
  deriving Inhabited

namespace Registry

/-- No session. -/
def empty : Registry α := ⟨Table.empty⟩

/-- Registers `session` under `id`, unless `id` is taken. -/
def start (r : Registry α) (id : String) (session : α) : Except Fault (Registry α) :=
  if r.sessions.has id then .error (.sessionConflict id)
  else .ok ⟨r.sessions.set id session⟩

/-- The session under `id`; a fault if there is none. -/
def find (r : Registry α) (id : String) : Except Fault α :=
  match r.sessions.get? id with
  | none => .error (.sessionNotFound id)
  | some s => .ok s

/-- Removes the session under `id`, whichever it is, and gives it back. -/
def finish (r : Registry α) (id : String) : Registry α × Option α :=
  (⟨r.sessions.erase id⟩, r.sessions.get? id)

/-- Whether a session is under `id`. -/
def contains (r : Registry α) (id : String) : Bool := r.sessions.has id

/-- The ids that are taken, sorted. -/
def ids (r : Registry α) : List String := (Names.ofList r.sessions.keys).toList

/-- The number of sessions. -/
def size (r : Registry α) : Nat := r.sessions.size

/-- What the start of a session says. -/
def startEntry (id : String) : Entry := .noteFor id "SESSION" "🟢 Session started"

/-- What the end of a session says. -/
def finishEntry (id : String) : Entry := .noteFor id "SESSION" "⚪ Session ended"

end Registry

end StagedEdits
