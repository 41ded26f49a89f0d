import StagedEdits.Turn.Machine

set_option autoImplicit false

/-! # What a turn makes of a reply

A turn waits at a point, and at each point for some replies only. `Turn.Takes` lists what becomes of
a turn at each of them; any other reply leaves it as it is. What a reply does to some part of a turn
is proved over this list.

Main definitions: `Point.awaits`, `Turn.Takes`. Main statements: `Turn.takes_advance`,
`Turn.advance_of_not_awaited`. -/

namespace StagedEdits

/-- Whether a turn waits for a reply at a point. -/
def Point.awaits : Point → Reply → Bool
  | .opening, .opened | .opening, .failed _ => true
  | .reading _, .chunk _ | .reading _, .ended | .reading _, .failed _ => true
  | .tellingChunk .., .told | .tellingChunk .., .failed _ => true
  | .tellingPatch _, .told | .tellingPatch _, .failed _ => true
  | .closing _, .closed | .closing _, .failed _ => true
  | .checking .., .checked _ | .checking .., .failed _ => true
  | .pausing .., .rested | .pausing .., .failed _ => true
  | .dismissing .., .rested | .dismissing .., .failed _ => true
  | .tellingDiagnostics _, .told | .tellingDiagnostics _, .failed _ => true
  | .tellingDone _, .told | .tellingDone _, .failed _ => true
  | _, _ => false

namespace Frame

/-- Where a turn with `result` goes on when the listeners were told its end. -/
def told (result : Option TurnResult) : Frame → Point
  | .stream => .closing .settled
  | .loop => .over (.returned result)
  | .handler => .over (.raised .cancelled)

/-- Where a turn goes on when telling its end failed with `f`. -/
def untold (f : Failure) : Frame → Point
  | .stream => .closing (.raising f)
  | .loop | .handler => .over (.raised f)

end Frame

namespace Turn

theorem cancelled_of_beq {f : Failure} (h : (f == .cancelled) = true) : f = .cancelled := by
  cases f with
  | cancelled => rfl
  | _ => cases h

theorem ne_cancelled_of_beq {f : Failure} (h : ¬(f == .cancelled) = true) : f ≠ .cancelled := by
  rintro rfl
  exact h rfl

/-- A text that can be read is taken by applying what it closes, if it closes anything. -/
theorem takeText_of_read {t : Turn} {p q : Parser} {text : String} {os : List Outcome}
    (hfed : p.feed text.toList = ⟨q, os, none⟩) (base : BaseTree) :
    t.takeText base p text =
      let u := (t.say (os.map p.outcomeEntry)).addErrors (q.refusals.map Fault.ofRefusal)
      match os.filterMap Outcome.directive? with
      | [] => u.readOn q.drain.1
      | ds => u.applyParsed base q.drain.1 ds := by
  simp only [takeText, hfed]
  rfl

/-- That a turn is what a reply makes of `t` over `base`. -/
inductive Takes (base : BaseTree) (t : Turn) : Reply → Turn → Prop
  | unawaited {r : Reply} (h : t.point.awaits r = false) : Takes base t r t
  | opened (hp : t.point = .opening) :
    Takes base t .opened (t.readOn (Parser.new t.config.fallbackMark t.config.askedMark))
  | unopened (hp : t.point = .opening) (f : Failure) : Takes base t (.failed f) (t.abort f)
  | heard {p : Parser} (hp : t.point = .reading p) (text : String) :
    Takes base t (.chunk text) ((t.emit (.chunk text)).waitAt (.tellingChunk p text))
  | ended {p : Parser} (hp : t.point = .reading p) : Takes base t .ended (t.leave (.ended p))
  /-- The task is cancelled while the agent writes. -/
  | interrupted {p : Parser} (hp : t.point = .reading p) :
    Takes base t (.failed .cancelled) (t.leave (.raising .cancelled))
  | broken {p : Parser} (hp : t.point = .reading p) {f : Failure} (hf : f ≠ .cancelled) :
    Takes base t (.failed f) (t.breakStream p f)
  | textTold {p : Parser} {text : String} (hp : t.point = .tellingChunk p text) :
    Takes base t .told (t.takeText base p text)
  | textUntold {p : Parser} {text : String} (hp : t.point = .tellingChunk p text) (f : Failure) :
    Takes base t (.failed f) (t.leave (.raising f))
  | patchTold {p : Parser} (hp : t.point = .tellingPatch p) : Takes base t .told (t.readOn p)
  | patchUntold {p : Parser} (hp : t.point = .tellingPatch p) (f : Failure) :
    Takes base t (.failed f) (t.leave (.raising f))
  | closed {p : Parser} (hp : t.point = .closing (.ended p)) :
    Takes base t .closed (t.endStream p)
  | settled (hp : t.point = .closing .settled) : Takes base t .closed t.giveBack
  | raised {f : Failure} (hp : t.point = .closing (.raising f)) : Takes base t .closed (t.abort f)
  | unclosed {why : Leave} (hp : t.point = .closing why) (f : Failure) :
    Takes base t (.failed f) (t.abort f)
  | checked {request : Snapshot} {failed : Nat} (hp : t.point = .checking request failed)
    (ps : List Problem) : Takes base t (.checked ps) (t.takeProblems ps)
  | unchecked {request : Snapshot} {failed : Nat} (hp : t.point = .checking request failed)
    (f : Failure) : Takes base t (.failed f) (t.takeReply request failed (.failed f))
  | rested {request : Snapshot} {failed : Nat} (hp : t.point = .pausing request failed) :
    Takes base t .rested (t.callCheck request failed)
  | unrested {request : Snapshot} {failed : Nat} (hp : t.point = .pausing request failed)
    (f : Failure) : Takes base t (.failed f) (t.abort f)
  | dismissed {request : Snapshot} {failed : Nat} {f : Failure}
    (hp : t.point = .dismissing request failed f) :
    Takes base t .rested (t.takeReply request failed (.failed f))
  | undismissed {request : Snapshot} {failed : Nat} {g : Failure}
    (hp : t.point = .dismissing request failed g) (f : Failure) :
    Takes base t (.failed f) (t.takeReply request failed (.failed f))
  | problemsTold {ps : List Problem} (hp : t.point = .tellingDiagnostics ps) :
    Takes base t .told (t.judged ps)
  | problemsUntold {ps : List Problem} (hp : t.point = .tellingDiagnostics ps) (f : Failure) :
    Takes base t (.failed f) (t.abort f)
  | endTold {frame : Frame} (hp : t.point = .tellingDone frame) :
    Takes base t .told (t.waitAt (frame.told t.result))
  | endUntold {frame : Frame} (hp : t.point = .tellingDone frame) (f : Failure) :
    Takes base t (.failed f) (t.waitAt (frame.untold f))

/-- A reply that a turn does not wait for changes nothing. -/
theorem advance_of_not_awaited {t : Turn} {r : Reply} (h : t.point.awaits r = false)
    (base : BaseTree) : t.advance base r = t := by
  unfold advance
  split <;> try rfl
  all_goals
    rw [‹t.point = _›] at h
    cases h

section Told

variable {t : Turn} (base : BaseTree)

theorem advance_text {p : Parser} {text : String} (hp : t.point = .tellingChunk p text) :
    t.advance base .told = t.takeText base p text := by
  unfold advance
  rw [hp]

theorem advance_checked {request : Snapshot} {failed : Nat}
    (hp : t.point = .checking request failed) (ps : List Problem) :
    t.advance base (.checked ps) = t.takeProblems ps := by
  unfold advance
  rw [hp]
  rfl

theorem advance_problems {ps : List Problem} (hp : t.point = .tellingDiagnostics ps) :
    t.advance base .told = t.judged ps := by
  unfold advance
  rw [hp]

end Told

/-- **All that a turn makes of a reply**: `Takes` lists it. -/
theorem takes_advance (base : BaseTree) (t : Turn) (r : Reply) :
    t.Takes base r (t.advance base r) := by
  unfold advance
  cases hp : t.point with
  | idle | «over» => exact .unawaited (by rw [hp]; rfl)
  | opening =>
    cases r with
    | opened => exact .opened hp
    | failed f => exact .unopened hp f
    | _ => exact .unawaited (by rw [hp]; rfl)
  | reading p =>
    cases r with
    | chunk text => exact .heard hp text
    | ended => exact .ended hp
    | failed f =>
      dsimp only
      split
      · rename_i hf
        rw [cancelled_of_beq hf]
        exact .interrupted hp
      · rename_i hf
        exact .broken hp (ne_cancelled_of_beq hf)
    | _ => exact .unawaited (by rw [hp]; rfl)
  | tellingChunk p text =>
    cases r with
    | told => exact .textTold hp
    | failed f => exact .textUntold hp f
    | _ => exact .unawaited (by rw [hp]; rfl)
  | tellingPatch p =>
    cases r with
    | told => exact .patchTold hp
    | failed f => exact .patchUntold hp f
    | _ => exact .unawaited (by rw [hp]; rfl)
  | closing why =>
    cases r with
    | closed =>
      cases why with
      | ended p => exact .closed hp
      | settled => exact .settled hp
      | raising f => exact .raised hp
    | failed f => cases why <;> exact .unclosed hp f
    | _ => cases why <;> exact .unawaited (by rw [hp]; rfl)
  | checking request failed =>
    cases r with
    | checked ps => exact .checked hp ps
    | failed f => exact .unchecked hp f
    | _ => exact .unawaited (by rw [hp]; rfl)
  | pausing request failed =>
    cases r with
    | rested => exact .rested hp
    | failed f => exact .unrested hp f
    | _ => exact .unawaited (by rw [hp]; rfl)
  | dismissing request failed f =>
    cases r with
    | rested => exact .dismissed hp
    | failed g => exact .undismissed hp g
    | _ => exact .unawaited (by rw [hp]; rfl)
  | tellingDiagnostics ps =>
    cases r with
    | told => exact .problemsTold hp
    | failed f => exact .problemsUntold hp f
    | _ => exact .unawaited (by rw [hp]; rfl)
  | tellingDone frame =>
    cases r with
    | told => cases frame <;> exact .endTold hp
    | failed f => cases frame <;> exact .endUntold hp f
    | _ => cases frame <;> exact .unawaited (by rw [hp]; rfl)

end Turn

end StagedEdits
