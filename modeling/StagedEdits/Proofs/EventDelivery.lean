import StagedEdits.Turn.Channel

set_option autoImplicit false

/-! # What the reader of a channel gets

Publishing, closing and the steps of the one reader come in any order. Which events the reader is
owed can be told from the moves alone: those published up to the first that ends the turn, or up to
where the channel is closed. The reader gets exactly these, one at each step; behind them it ends if
the channel is over, and waits if it is not.

Main definitions: `ChannelMove`, `ChannelMove.owed`, `ChannelReader`, `ChannelReader.InStep`. Main
statements: `Channel.next_eq` (one step of the reader), `ChannelReader.InStep.step` (one move),
`ChannelReader.delivers_owed`. -/

namespace StagedEdits

/-- What is done with a `Channel`. -/
inductive ChannelMove where
  | publish (e : Event)
  | close
  /-- The reader takes a step. -/
  | read

namespace ChannelMove

/-! ## What the reader is owed -/

/-- Whether a channel is over behind a move. -/
def ends : ChannelMove → Bool
  | .publish e => e.isDone
  | .close => true
  | .read => false

/-- Whether a channel is over behind `ms`, as one of them `ends` it. -/
def isOver (ms : List ChannelMove) : Bool := ms.any ends

/-- The event of a move that publishes one. -/
def event? : ChannelMove → Option Event
  | .publish e => some e
  | _ => none

/-- The events that the reader is owed: those published up to the first that ends the turn, or up to
    where the channel is closed. -/
def owed : List ChannelMove → List Event
  | [] => []
  | .publish e :: ms => if e.isDone then [e] else e :: owed ms
  | .close :: _ => []
  | .read :: ms => owed ms

@[simp] theorem isOver_nil : isOver [] = false := rfl

@[simp] theorem isOver_cons (m : ChannelMove) (ms : List ChannelMove) :
    isOver (m :: ms) = (m.ends || isOver ms) := rfl

@[simp] theorem isOver_append (ms more : List ChannelMove) :
    isOver (ms ++ more) = (isOver ms || isOver more) := List.any_append

/-- What comes later adds nothing once the channel is over. -/
theorem owed_append (ms more : List ChannelMove) :
    owed (ms ++ more) = if isOver ms then owed ms else owed ms ++ owed more := by
  induction ms with
  | nil => rfl
  | cons m ms ih =>
    cases m with
    | publish e =>
      cases he : e.isDone with
      | true => simp [owed, ends, he]
      | false =>
        simp only [List.cons_append, owed, isOver_cons, ends, he, Bool.false_eq_true, if_false,
          Bool.false_or, ih]
        split <;> rfl
    | close => simp [owed, ends]
    | read => exact ih

/-- A step of the reader changes nothing about what it is owed. -/
@[simp] theorem owed_read (ms : List ChannelMove) : owed (ms ++ [.read]) = owed ms := by
  rw [owed_append]
  simp [owed]

@[simp] theorem isOver_read (ms : List ChannelMove) : isOver (ms ++ [.read]) = isOver ms := by
  simp [ends]

/-- Until the channel is over nothing that was published is held back. -/
theorem owed_of_not_isOver {ms : List ChannelMove} (h : isOver ms = false) :
    owed ms = ms.filterMap event? := by
  induction ms with
  | nil => rfl
  | cons m ms ih =>
    rw [isOver_cons, Bool.or_eq_false_iff] at h
    obtain ⟨hm, hms⟩ := h
    cases m with
    | publish e =>
      have he : e.isDone = false := hm
      rw [owed, if_neg (by simp [he]), ih hms]
      rfl
    | close => cases hm
    | read => exact ih hms

end ChannelMove

/-! ## What a step gives -/

namespace Delivery

/-- The events of what a reader gets at one step: one at most. -/
def events : Delivery → List Event
  | .event e => [e]
  | _ => []

/-- What a reader gets next that took `taken` of the events it is `owed`; past these the stream is
    at its end if `isOver`. -/
def next (owed : List Event) (isOver : Bool) (taken : Nat) : Delivery :=
  match owed[taken]? with
  | some e => .event e
  | none => if isOver then .stop else .wait

theorem next_append (got waiting : List Event) (isOver : Bool) :
    next (got ++ waiting) isOver got.length = next waiting isOver 0 := by
  rw [next, next, List.getElem?_append_right (Nat.le_refl _), Nat.sub_self]

theorem events_next (waiting : List Event) (isOver : Bool) :
    (next waiting isOver 0).events = waiting.take 1 := by
  cases waiting with
  | nil => cases isOver <;> rfl
  | cons e waiting => rfl

end Delivery

/-! ## The queue -/

namespace Channel

/-- What comes behind a queue that does not end. -/
theorem drainQueue_append {queue more : List (Option Event)} (h : (drainQueue queue).2.2 = false) :
    drainQueue (queue ++ more) =
      ((drainQueue queue).1 ++ (drainQueue more).1, (drainQueue more).2) := by
  induction queue with
  | nil => rfl
  | cons x queue ih =>
    cases x with
    | none => cases h
    | some e =>
      rw [List.cons_append, drainQueue, drainQueue]
      cases he : e.isDone with
      | true => simp [drainQueue, he] at h
      | false =>
        simp only [drainQueue, he, Bool.false_eq_true, if_false] at h
        simp [ih h]

/-- The events that wait in `c` for the reader. -/
def waiting (c : Channel) : List Event := if c.ended then [] else (drainQueue c.queue).1

/-- Whether the reader of `c` ends behind the events that are `waiting`. -/
def stops (c : Channel) : Bool := c.ended || (drainQueue c.queue).2.2

/-- **A step of the reader** takes the first event of `c.waiting`. If there is none it ends or
    waits, and does the same at the next step. -/
theorem next_eq (c : Channel) :
    c.next.2 = Delivery.next c.waiting c.stops 0 ∧ c.next.1.waiting = c.waiting.drop 1 ∧
      c.next.1.closed = c.closed ∧ c.next.1.stops = c.stops := by
  unfold next
  cases hended : c.ended with
  | true => simp [waiting, stops, hended, Delivery.next]
  | false =>
    cases hqueue : c.queue with
    | nil => simp [waiting, stops, hended, hqueue, drainQueue, Delivery.next]
    | cons x rest =>
      cases x with
      | none => simp [waiting, stops, hended, hqueue, drainQueue, Delivery.next]
      | some e =>
        cases he : e.isDone <;>
          simp [waiting, stops, hended, hqueue, drainQueue, he, Delivery.next]

/-- What is published on a channel that is not over waits behind the rest. -/
theorem publish_eq {c : Channel} (hc : c.closed = false) (hs : c.stops = false) (e : Event) :
    (c.publish e).closed = e.isDone ∧ (c.publish e).stops = e.isDone ∧
      (c.publish e).waiting = c.waiting ++ [e] := by
  obtain ⟨hended, hqueue⟩ := Bool.or_eq_false_iff.1 hs
  rw [publish, if_neg (by simp [hc])]
  refine ⟨rfl, ?_, ?_⟩
  · rw [stops, hended, drainQueue_append hqueue]
    cases he : e.isDone <;> simp [drainQueue, he]
  · simp only [waiting, hended, drainQueue_append hqueue, Bool.false_eq_true, if_false]
    cases he : e.isDone <;> simp [drainQueue, he]

theorem publish_of_closed {c : Channel} (hc : c.closed = true) (e : Event) : c.publish e = c :=
  if_pos hc

/-- A channel that is closed keeps what waits. -/
theorem close_eq {c : Channel} (hc : c.closed = false) (hs : c.stops = false) :
    c.close.closed = true ∧ c.close.stops = true ∧ c.close.waiting = c.waiting := by
  obtain ⟨hended, hqueue⟩ := Bool.or_eq_false_iff.1 hs
  rw [close, if_neg (by simp [hc])]
  refine ⟨rfl, ?_, ?_⟩
  · rw [stops, hended, drainQueue_append hqueue]
    rfl
  · simp [waiting, hended, drainQueue_append hqueue, drainQueue]

theorem close_of_closed {c : Channel} (hc : c.closed = true) : c.close = c :=
  if_pos hc

/-- To take all there is takes what waits, and finds out whether the reader ends. -/
theorem drain_eq (c : Channel) : c.drain.2 = c.waiting ∧ c.drain.1.ended = c.stops := by
  unfold drain waiting stops
  cases hended : c.ended <;> simp [hended]

end Channel

/-! ## The reader -/

/-- A `channel` and the events that its reader got of it so far. -/
structure ChannelReader where
  channel : Channel
  got : List Event

namespace ChannelReader

open ChannelMove (isOver ends event? isOver_append isOver_read owed_append owed_read
  owed_of_not_isOver)

/-- The reader `r` and its channel after one more move. -/
def step (r : ChannelReader) : ChannelMove → ChannelReader
  | .publish e => { r with channel := r.channel.publish e }
  | .close => { r with channel := r.channel.close }
  | .read => ⟨r.channel.next.1, r.got ++ r.channel.next.2.events⟩

/-- The reader `r` and its channel after the moves `ms`. -/
def after (r : ChannelReader) (ms : List ChannelMove) : ChannelReader := ms.foldl step r

/-- A new channel. -/
def new : ChannelReader := ⟨Channel.new, []⟩

theorem after_append (r : ChannelReader) (ms more : List ChannelMove) :
    r.after (ms ++ more) = (r.after ms).after more := List.foldl_append

/-- How the channel of `r` stands to the moves `ms` so far: it takes nothing more, and will end,
    just if one of them ends it, and what the reader got and what waits for it is together what it
    is owed. -/
structure InStep (r : ChannelReader) (ms : List ChannelMove) : Prop where
  closed : r.channel.closed = isOver ms
  stops : r.channel.stops = isOver ms
  owed : r.got ++ r.channel.waiting = ChannelMove.owed ms

variable {r : ChannelReader} {ms : List ChannelMove}

theorem new_inStep : new.InStep [] := ⟨rfl, rfl, rfl⟩

/-- A step of the reader gives it the first event that waits, if one does. -/
theorem InStep.read (h : r.InStep ms) :
    (r.step .read).InStep (ms ++ [.read]) ∧
      (r.step .read).got = (ChannelMove.owed ms).take (r.got.length + 1) := by
  obtain ⟨hgets, hrest, hclosed, hstops⟩ := r.channel.next_eq
  have hgot : (r.step .read).got = r.got ++ r.channel.waiting.take 1 := by
    rw [ChannelReader.step, hgets, Delivery.events_next]
  refine ⟨⟨?_, ?_, ?_⟩, ?_⟩
  · rw [isOver_read]
    exact hclosed.trans h.closed
  · rw [isOver_read]
    exact hstops.trans h.stops
  · rw [owed_read, hgot, ChannelReader.step, hrest, List.append_assoc, List.take_append_drop,
      h.owed]
  · rw [hgot, ← h.owed, List.take_length_add_append]

/-- **Every move `m` keeps a channel in step** with the moves made of it. -/
theorem InStep.step (h : r.InStep ms) (m : ChannelMove) : (r.step m).InStep (ms ++ [m]) := by
  cases hover : isOver ms with
  | true =>
    have hclosed : r.channel.closed = true := h.closed.trans hover
    have hsame : r.InStep (ms ++ [m]) := by
      refine ⟨?_, ?_, ?_⟩
      · rw [h.closed, isOver_append, hover, Bool.true_or]
      · rw [h.stops, isOver_append, hover, Bool.true_or]
      · rw [h.owed, owed_append, if_pos hover]
    cases m with
    | publish e => rwa [ChannelReader.step, Channel.publish_of_closed hclosed]
    | close => rwa [ChannelReader.step, Channel.close_of_closed hclosed]
    | read => exact h.read.1
  | false =>
    have hclosed : r.channel.closed = false := h.closed.trans hover
    have hstops : r.channel.stops = false := h.stops.trans hover
    have howed : ChannelMove.owed (ms ++ [m]) =
        r.got ++ r.channel.waiting ++ ChannelMove.owed [m] := by
      rw [owed_append, if_neg (by simp [hover]), h.owed]
    have hends : isOver (ms ++ [m]) = m.ends := by simp [hover]
    cases m with
    | publish e =>
      obtain ⟨hc, hs, hw⟩ := Channel.publish_eq hclosed hstops e
      refine ⟨hc.trans hends.symm, hs.trans hends.symm, ?_⟩
      rw [howed, List.append_assoc]
      simp [ChannelReader.step, hw, ChannelMove.owed]
    | close =>
      obtain ⟨hc, hs, hw⟩ := Channel.close_eq hclosed hstops
      refine ⟨hc.trans hends.symm, hs.trans hends.symm, ?_⟩
      rw [howed]
      simp [ChannelReader.step, hw, ChannelMove.owed]
    | read => exact h.read.1

/-- **Moves in any order keep a channel in step** with those made of it, `ms` and then `more`. -/
theorem InStep.after (h : r.InStep ms) (more : List ChannelMove) :
    (r.after more).InStep (ms ++ more) := by
  induction more generalizing r ms with
  | nil => rwa [List.append_nil]
  | cons m more ih =>
    rw [List.append_cons]
    exact ih (h.step m)

/-- A reader that reads on gets one more of the events it is owed at each step, as long as there are
    any. -/
theorem InStep.got_after_reads (h : r.InStep ms) (n : Nat) :
    (r.after (List.replicate n .read)).got = (ChannelMove.owed ms).take (r.got.length + n) := by
  induction n generalizing r ms with
  | zero =>
    rw [← h.owed, Nat.add_zero, List.take_left]
    rfl
  | succ n ih =>
    obtain ⟨hstep, hgot⟩ := h.read
    have hrest : ((r.step .read).after (List.replicate n .read)).got = _ := ih hstep
    rw [hgot, owed_read, List.length_take] at hrest
    refine hrest.trans (List.take_eq_take_iff.2 ?_)
    omega

/-- **The reader of a channel gets exactly the events it is `owed`, in their order and each once,
    and then ends.** Let `ms` publish events, close the channel and have the reader take steps in
    any order. The next step gives the next event that is owed; behind the last one the reader ends
    if the channel is over, and waits if it is not. A reader that reads on gets one more event at
    each step until it has all, and to drain the channel gives it all that are left. Once the
    channel `isOver`, as an event that ends the turn was published or the channel was closed,
    publishing and closing change nothing, and nothing that comes later is owed. Until then the
    reader has not ended, and all that was published is owed. -/
theorem delivers_owed (ms : List ChannelMove) :
    let r := new.after ms
    let owed := ChannelMove.owed ms
    r.channel.next.2 = Delivery.next owed (isOver ms) r.got.length ∧
    (∀ n, (new.after (ms ++ List.replicate n .read)).got = owed.take (r.got.length + n)) ∧
    (r.channel.drain.2 = owed.drop r.got.length ∧ r.channel.drain.1.ended = isOver ms) ∧
    (isOver ms = true → ∀ e more, r.channel.publish e = r.channel ∧ r.channel.close = r.channel ∧
      ChannelMove.owed (ms ++ more) = owed) ∧
    (isOver ms = false → r.channel.ended = false ∧ owed = ms.filterMap event?) := by
  intro r owed
  have h : r.InStep ms := new_inStep.after ms
  have howed : owed = r.got ++ r.channel.waiting := h.owed.symm
  refine ⟨?_, fun n => ?_, ⟨?_, ?_⟩, fun hover e more => ⟨?_, ?_, ?_⟩, fun hover => ⟨?_, ?_⟩⟩
  · rw [r.channel.next_eq.1, howed, Delivery.next_append, h.stops]
  · rw [after_append]
    exact h.got_after_reads n
  · rw [r.channel.drain_eq.1, howed, List.drop_left]
  · rw [r.channel.drain_eq.2, h.stops]
  · exact Channel.publish_of_closed (h.closed.trans hover) e
  · exact Channel.close_of_closed (h.closed.trans hover)
  · rw [owed_append, if_pos hover]
  · exact (Bool.or_eq_false_iff.1 (h.stops.trans hover)).1
  · exact owed_of_not_isOver hover

end ChannelReader

end StagedEdits
