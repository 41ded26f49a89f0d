import StagedEdits.Turn.Script

set_option autoImplicit false

/-! # Rehearsals of a turn

A turn played with scripted collaborators and one scripted listener. Whenever everything waits at a
hold, the next of the planned actions is taken. A rehearsal moves in single steps, so that it can be
stopped, looked at and gone on with.

Main definitions: `HoldAction`, `Listener`, `Rehearsal`, `Rehearsal.step?`. -/

namespace StagedEdits

/-- What is done while everything waits at a hold. -/
inductive HoldAction where
  | release
  /-- A cancellation is requested, then the hold is released. -/
  | cancel
  /-- The task that waits is cancelled. -/
  | interrupt
  deriving DecidableEq, Inhabited

/-- A scripted listener: what it does at which numbers of events. -/
structure Listener where
  /-- The events that make it request a cancellation. -/
  cancelAt : List Int
  /-- The event that makes it fail. -/
  failAt : Option Int
  /-- The events that make it hold. -/
  holdAt : List Int

/-- A turn with its scripted world. -/
structure Rehearsal where
  turn : Turn
  /-- The agent and the type checker. -/
  cast : Cast
  /-- The rest of the agent's stream. -/
  cues : List Cue
  listener : Listener
  /-- What is done at the holds to come; after that they are released. -/
  plan : List HoldAction

namespace Rehearsal

/-- The rehearsal after the reply `r` to its turn. -/
def reply (base : BaseTree) (x : Rehearsal) (r : Reply) : Rehearsal :=
  { x with turn := x.turn.advance base r }

/-- Requests a cancellation. -/
def cancel (x : Rehearsal) : Rehearsal := { x with turn := x.turn.cancel }

/-- Takes the next planned action at a hold; the reply `next` may follow on it. -/
def hold (base : BaseTree) (x : Rehearsal) (next : Option Reply) : Rehearsal :=
  let action := x.plan.headD .release
  let x := { x with plan := x.plan.tail }
  match action with
  | .interrupt => x.reply base (.failed .cancelled)
  | .cancel => (next.map (x.cancel.reply base)).getD x.cancel
  | .release => (next.map (x.reply base)).getD x

/-- The number of the last event. -/
def lastSeq (x : Rehearsal) : Int := (x.turn.events.length : Int) - 1

/-- The failure of a scripted listener. -/
def listenerFailure : Failure := .other "RuntimeError" "sink failed"

/-- Tells the listener of `x` the last event. -/
def tell (base : BaseTree) (x : Rehearsal) : Rehearsal :=
  let seq := x.lastSeq
  let x := if x.listener.cancelAt.contains seq then x.cancel else x
  if x.listener.failAt == some seq then x.reply base (.failed listenerFailure)
  else if x.listener.holdAt.contains seq then x.hold base (some .told)
  else x.reply base .told

/-- The next step of `x`; none once its turn waits for nothing. -/
def step? (base : BaseTree) (x : Rehearsal) : Option Rehearsal :=
  let (cast, cues, p) := x.cast.prompt x.cues x.turn.point
  let x := { x with cast, cues }
  match p with
  | .stop => none
  | .reply r => some (x.reply base r)
  | .hold next => some (x.hold base next)
  | .tell => some (x.tell base)

end Rehearsal

end StagedEdits
