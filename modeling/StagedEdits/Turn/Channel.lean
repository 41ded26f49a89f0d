import StagedEdits.Turn.Event

set_option autoImplicit false

/-! # The event channel

A queue from the turn to its one reader. The reader gets the events in the order they were
published and ends after the event that ends the turn, or where the channel was closed. What is
published later is dropped.

Main definitions: `Channel`, `Channel.publish`, `Channel.close`, `Channel.next`. -/

namespace StagedEdits

/-- A queue of events. -/
structure Channel where
  /-- What waits for the reader; a closed channel ends with a mark. -/
  queue : List (Option Event)
  /-- Whether nothing is taken any more. -/
  closed : Bool
  ended : Bool
  deriving Inhabited

/-- What the reader of a `Channel` gets. -/
inductive Delivery where
  | event (e : Event)
  | stop
  | wait

namespace Channel

/-- A channel that nothing was published on. -/
def new : Channel := ⟨[], false, false⟩

/-- Publishes `e`, unless the channel is closed; the last event of a turn closes it. -/
def publish (c : Channel) (e : Event) : Channel :=
  if c.closed then c
  else { c with queue := c.queue ++ [some e], closed := e.isDone }

/-- Closes a channel. -/
def close (c : Channel) : Channel :=
  if c.closed then c else { c with queue := c.queue ++ [none], closed := true }

/-- The next step of the reader. -/
def next (c : Channel) : Channel × Delivery :=
  if c.ended then (c, .stop)
  else
    match c.queue with
    | [] => (c, .wait)
    | none :: rest => ({ c with queue := rest, ended := true }, .stop)
    | some e :: rest => ({ c with queue := rest, ended := e.isDone }, .event e)

/-- What the reader gets of a queue until it ends or would wait. -/
def drainQueue : List (Option Event) → List Event × List (Option Event) × Bool
  | [] => ([], [], false)
  | none :: rest => ([], rest, true)
  | some e :: rest =>
    if e.isDone then ([e], rest, true)
    else
      let (es, rest, ended) := drainQueue rest
      (e :: es, rest, ended)

/-- All that the reader gets until it ends or would wait. -/
def drain (c : Channel) : Channel × List Event :=
  if c.ended then (c, [])
  else
    let (es, queue, ended) := drainQueue c.queue
    ({ c with queue, ended }, es)

end Channel

end StagedEdits
