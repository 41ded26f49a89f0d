import StagedEdits.Proofs.TurnReply

set_option autoImplicit false

/-! # The course of a turn

What counts of a turn for its listeners, its type checker and its caller is its course: the applied
directives and their overlay, the status, the events, the questions to the type checker and the
result. `Turn.Next` lists everything that one reply of the world can make of the course and of the
point where the turn waits. What holds along a turn is proved over this list, and no proof about
runs opens the machine itself.

Main definitions: `Course`, `Turn.Placed` (which status goes with which point), `Turn.Next`. Main
statements: `Turn.advance_next`, `Turn.Next.admits`. -/

namespace StagedEdits

/-! ## Courses -/

/-- What counts of a `Turn` for its listeners, its type checker and its caller. -/
structure Course where
  turnId : String
  applier : Applier
  status : TurnStatus
  /-- The number of repairs. -/
  attempt : Nat
  applied : List Directive
  /-- The problems of the last check. -/
  diagnostics : List Problem
  checkCalls : Nat
  result : Option TurnResult
  committed : Bool
  requests : List Snapshot
  events : List Event

namespace Course

/-- Adds an event with `payload`, numbered on from the ones before. -/
def emit (c : Course) (payload : Payload) : Course :=
  { c with events := c.events ++ [⟨c.turnId, c.events.length, payload⟩] }

/-- That the result `r` tells of the course `c`. -/
structure Reports (c : Course) (r : TurnResult) : Prop where
  status : r.status = c.status
  applied : r.applied = c.applied
  diagnostics : r.diagnostics = c.diagnostics
  attempts : r.attempts = c.attempt
  checkCalls : r.checkCalls = c.checkCalls

/-- Ends with the result `r`, which the listeners are told. -/
def finish (c : Course) (r : TurnResult) : Course := { c with result := some r }.emit (.done r)

end Course

/-- The question that a point stands for. -/
def Point.request? : Point → Option Snapshot
  | .checking request _ => some request
  | .pausing request _ => some request
  | .dismissing request _ _ => some request
  | _ => none

/-- The failure that goes through at a point. -/
def Point.raised? : Point → Option Failure
  | .closing (.raising f) => some f
  | .over (.raised f) => some f
  | _ => none

/-- Whether a failure of the world at a point is caught by nothing in the turn: that of opening or
    closing the stream, of a pause and of the listeners. -/
def Point.isBare : Point → Bool
  | .opening | .tellingChunk .. | .tellingPatch _ | .closing _ | .pausing .. => true
  | .tellingDiagnostics _ | .tellingDone _ => true
  | _ => false

/-- Whether a failure is that of a move between statuses which is not allowed. -/
def Failure.isInvalidTransition : Failure → Bool
  | .fault (.invalidTransition ..) => true
  | _ => false

/-- The failures that a turn raises by itself and does not take for the end. -/
inductive Failure.Escapes : Failure → Prop
  /-- The task is cancelled. -/
  | cancelled : Escapes .cancelled
  /-- A text of the agent cannot be read. -/
  | text (g : FeedFault) : Escapes (.other "ValueError" g.message)
  /-- A digest cannot be written. -/
  | digest (g : NumberFault) : Escapes (Turn.numberFailure g)
  /-- No clock takes the pause between two tries of a check. -/
  | pause : Escapes .clockOverflow

theorem Failure.Escapes.isInvalidTransition {f : Failure} (h : f.Escapes) :
    f.isInvalidTransition = false := by
  cases h <;> rfl

/-- A question to the type checker, with what came of asking it. -/
abbrev Answer := Snapshot × CheckReply

/-! ## Where failures of a batch come from -/

namespace Applier

/-- Only a rename fails, and it fails with what looking at the base for its source fails with. -/
theorem apply_failed {base : BaseTree} {a : Applier} {d : Directive} {f : Failure}
    (h : (a.apply base d).2 = .failed f) :
    ∃ source target, d = .rename source target ∧ source ≠ target ∧
      base.trouble source = some f := by
  cases d with
  | delete path =>
    simp only [apply, delete] at h
    split at h <;> cases h
  | rename source target =>
    simp only [apply, rename] at h
    split at h
    · cases h
    · rename_i hne
      split at h
      · rename_i g hg
        split at hg
        · cases h
          exact ⟨source, target, rfl, hne, hg⟩
        · cases hg
      · split at h <;> cases h
  | write path content description =>
    simp only [apply, write] at h
    split at h <;> cases h
  | addDependency packages =>
    simp only [apply, addPackages] at h
    split at h <;> cases h

/-- A rename fails if its source is neither pending nor deleted and cannot be looked at. -/
theorem apply_rename_of_trouble {base : BaseTree} {a : Applier} {source target : String}
    {f : Failure} (hreaches : a.overlay.reachesBase source = true)
    (hf : base.trouble source = some f) (hne : source ≠ target) :
    a.apply base (.rename source target) = (a, .failed f) := by
  simp only [apply, rename, if_neg hne, hreaches, if_true, hf]

/-- A batch goes on behind every effect but a failure. -/
theorem applyInto_stopped {base : BaseTree} {session : String} {a : Applier} {b : Batch}
    {d : Directive} (hb : b.stopped = none) :
    (a.applyInto base session b d).2.stopped = none ∨
      ∃ f, (a.applyInto base session b d).2.stopped = some f ∧
        ∃ path, base.trouble path = some f := by
  cases he : (a.apply base d).2 with
  | failed f =>
    obtain ⟨path, -, -, -, hpath⟩ := apply_failed he
    refine .inr ⟨f, ?_, path, hpath⟩
    revert he
    unfold applyInto
    obtain ⟨a', e⟩ := a.apply base d
    rintro rfl
    rfl
  | _ =>
    left
    revert he
    unfold applyInto
    obtain ⟨a', e⟩ := a.apply base d
    rintro rfl
    exact hb

theorem applyAll_stopped {base : BaseTree} {session : String} {a : Applier} {b : Batch}
    {ds : List Directive} {f : Failure} (hb : b.stopped = none)
    (h : (a.applyAll base session b ds).2.stopped = some f) :
    ∃ path, base.trouble path = some f := by
  induction ds generalizing a b with
  | nil =>
    rw [applyAll, hb] at h
    cases h
  | cons d ds ih =>
    rw [applyAll] at h
    rcases @applyInto_stopped base session a b d hb with
      hnone | ⟨g, hstop, hpath⟩
    · simp only [hnone, Option.isSome_none, Bool.false_eq_true, if_false] at h
      exact ih hnone h
    · simp only [hstop, Option.isSome_some, if_true] at h
      cases h
      exact hpath

/-- A batch of directives is stopped by the base only. -/
theorem applyBatch_stopped {base : BaseTree} {session : String} {a : Applier} {items : List Item}
    {f : Failure} (h : (a.applyBatch base session items).2.stopped = some f) :
    ∃ path, base.trouble path = some f := by
  have hall : (a.applyAll base session Batch.empty
      (batchOrder (items.filterMap Item.directive?))).2.stopped = some f := by
    rw [← h]
    unfold applyBatch conclude
    dsimp only
    split <;> rfl
  exact applyAll_stopped rfl hall

end Applier

namespace Turn

/-- The `Course` of `t`. -/
def course (t : Turn) : Course :=
  { turnId := t.config.turnId, applier := t.applier, status := t.record.status,
    attempt := t.record.attempt, applied := t.record.applied, diagnostics := t.record.diagnostics,
    checkCalls := t.checkCalls, result := t.result, committed := t.committed,
    requests := t.requests, events := t.events }

/-- What `r` answers to the question that `t` has asked the type checker, if one is open. -/
def answer? (t : Turn) (r : Reply) : Option Answer :=
  match t.point, r with
  | .checking request _, .checked ps => some (request, .problems ps)
  | .checking request _, .failed f => some (request, .failed f)
  | _, _ => none

/-- The failure that `r` brings into `t` where nothing catches it. -/
def uncaught? (t : Turn) (r : Reply) : Option Failure :=
  match r with
  | .failed f => if t.point.isBare then some f else none
  | _ => none

/-- That the failure `f` may go through `t` at the reply `r`: the turn raises it by itself, or it
    goes through already, or comes in by the reply, or by the base. -/
def Lets (t : Turn) (base : BaseTree) (r : Reply) (f : Failure) : Prop :=
  f.Escapes ∨ t.point.raised? = some f ∨ t.uncaught? r = some f ∨
    ∃ path, base.trouble path = some f

/-! ## Status and point -/

/-- That a turn can have the status `s` while it waits at a point. -/
def Admits (s : TurnStatus) : Point → Prop
  | .idle | .opening | .reading _ | .tellingChunk .. | .tellingPatch _ | .closing (.ended _) =>
    s = .streaming
  | .checking .. | .pausing .. | .dismissing .. | .tellingDiagnostics _ => s = .checking
  | .closing .settled | .tellingDone _ | .over (.returned _) => s.isTerminal = true
  | .closing (.raising _) => s = .streaming ∨ s.isTerminal = true
  | .over (.raised f) => f = .cancelled → s.isTerminal = true

/-- That the status of `t` goes with the point where it waits. -/
def Placed (t : Turn) : Prop := Admits t.status t.point

theorem Placed.admits {t : Turn} (h : t.Placed) {p : Point} (hp : t.point = p) :
    Admits t.status p := hp ▸ h

/-- That `request` is a question that `t` has still to ask, or to ask again. -/
def Asks (t : Turn) (request : Snapshot) : Prop :=
  t.status = .streaming ∧ request = t.overlay.snapshot ∨
    t.status = .checking ∧ t.point.request? = some request

/-- That `t` has not ended, nor is about to be repaired. -/
def Active (t : Turn) : Prop := t.status = .streaming ∨ t.status = .checking

/-- What one reply can make of the course of `t` and of the point where it waits, if only failures
    that pass `ok` may go through. -/
inductive Next (t : Turn) (ok : Failure → Prop) : Option Answer → Course → Point → Prop
  /-- The turn does not wait for such a reply. -/
  | same : Next t ok none t.course t.point
  /-- The next text is awaited. -/
  | reads (hs : t.status = .streaming) (a : Applier) (p : Parser) :
    Next t ok none { t.course with applier := a } (.reading p)
  /-- A text is told. -/
  | hears {p : Parser} (hp : t.point = .reading p) (text : String) :
    Next t ok none (t.course.emit (.chunk text)) (.tellingChunk p text)
  /-- What was applied of a text is told. -/
  | patches {p : Parser} {text : String} (hp : t.point = .tellingChunk p text) (a : Applier)
    (ds : List Directive) (es : List Fault) (q : Parser) :
    Next t ok none
      ({ t.course with applier := a, applied := t.course.applied ++ ds }.emit (.patch ds es))
      (.tellingPatch q)
  /-- The stream is left before the end of the turn. -/
  | leaves (hs : t.status = .streaming) (a : Applier) {why : Leave} (hw : why ≠ .settled)
    (hf : ∀ f, why = .raising f → ok f) :
    Next t ok none { t.course with applier := a } (.closing why)
  /-- A turn that has ended goes on. -/
  | settles (hs : t.status.isTerminal = true) {p : Point}
    (hp : p = .closing .settled ∨ (∃ f, p = .closing (.raising f)) ∨
      p = .over (.returned t.course.result) ∨ ∃ f, p = .over (.raised f))
    (hf : ∀ f, p.raised? = some f → ok f) :
    Next t ok none t.course p
  /-- Running ends with a failure that is no cancellation. -/
  | raises {ans : Option Answer} (hs : t.Active) {s : TurnStatus}
    (hs' : s = t.status ∨ s = .checking) {f : Failure} (hf : f ≠ .cancelled) (hok : ok f) :
    Next t ok ans { t.course with status := s } (.over (.raised f))
  /-- The turn is cancelled or fails. -/
  | ends {ans : Option Answer} (hs : t.Active) {s : TurnStatus} (hs' : s = .cancelled ∨ s = .failed)
    (a : Applier) {r : TurnResult}
    (hr : { t.course with applier := a, status := s }.Reports r) (frame : Frame) :
    Next t ok ans ({ t.course with applier := a, status := s }.finish r) (.tellingDone frame)
  /-- The type checker is called. -/
  | calls {ans : Option Answer} {request : Snapshot} (hq : t.Asks request) (failed : Nat) :
    Next t ok ans
      { t.course with
        status := .checking
        checkCalls := t.course.checkCalls + 1
        requests := t.course.requests ++ [request] }
      (.checking request failed)
  /-- Calling the type checker is put off or dismissed. -/
  | delays {ans : Option Answer} {request : Snapshot} (hq : t.Asks request) {p : Point}
    (hp : (∃ failed, p = .pausing request failed) ∨ ∃ failed f, p = .dismissing request failed f) :
    Next t ok ans { t.course with status := .checking } p
  /-- The problems of a check are told. -/
  | diagnoses {request : Snapshot} {failed : Nat} (hp : t.point = .checking request failed)
    (ps : List Problem) :
    Next t ok (some (request, .problems ps))
      ({ t.course with diagnostics := sortProblems ps }.emit
        (.diagnostics t.course.attempt (sortProblems ps)))
      (.tellingDiagnostics (sortProblems ps))
  /-- The agent is asked to repair the problems. -/
  | repairs {ps : List Problem} (hp : t.point = .tellingDiagnostics ps) :
    Next t ok none { t.course with status := .streaming, attempt := t.course.attempt + 1 } .opening
  /-- There is no digest of the problems, and running ends. -/
  | undigested {ps : List Problem} (hp : t.point = .tellingDiagnostics ps) {f : NumberFault}
    (hf : repairDigest t.config.digestLimit ps = .error f) (hok : ok (numberFailure f)) :
    Next t ok none { t.course with status := .repairing, attempt := t.course.attempt + 1 }
      (.over (.raised (numberFailure f)))
  /-- The turn ends clean. -/
  | cleans (hp : t.point = .tellingDiagnostics []) {r : TurnResult}
    (hr : { t.course with status := .clean }.Reports r) :
    Next t ok none ({ t.course with status := .clean }.finish r) (.tellingDone .loop)

/-- Status and point go together after a reply. -/
theorem Next.admits {t : Turn} {ok : Failure → Prop} {ans : Option Answer} {c : Course} {p : Point}
    (h : t.Next ok ans c p) (ht : t.Placed) : Admits c.status p := by
  cases h with
  | same => exact ht
  | reads hs => exact hs
  | hears hp | patches hp =>
    have hs : t.status = .streaming := ht.admits hp
    exact hs
  | @leaves hs a why hw _ =>
    cases why with
    | ended => exact hs
    | settled => exact absurd rfl hw
    | raising => exact .inl hs
  | settles hs hp =>
    rcases hp with rfl | ⟨f, rfl⟩ | rfl | ⟨f, rfl⟩
    · exact hs
    · exact .inr hs
    · exact hs
    · exact fun _ => hs
  | raises _ _ hf => exact fun h => absurd h hf
  | ends _ hs' => rcases hs' with rfl | rfl <;> rfl
  | calls => rfl
  | delays _ hp => rcases hp with ⟨_, rfl⟩ | ⟨_, _, rfl⟩ <;> rfl
  | diagnoses hp =>
    have hs : t.status = .checking := ht.admits hp
    exact hs
  | repairs => rfl
  | undigested => exact nofun
  | cleans => rfl

/-- No reply commits. -/
theorem Next.committed {t : Turn} {ok : Failure → Prop} {ans : Option Answer} {c : Course}
    {p : Point} (h : t.Next ok ans c p) : c.committed = t.committed := by
  cases h <;> rfl

/-- Only such failures go through as may. -/
theorem Next.raised {t : Turn} {ok : Failure → Prop} {ans : Option Answer} {c : Course}
    {p : Point} (h : t.Next ok ans c p) {f : Failure} (hf : p.raised? = some f) :
    t.point.raised? = some f ∨ ok f := by
  cases h with
  | same => exact .inl hf
  | @leaves _ _ why _ hok =>
    cases why with
    | raising g => exact .inr (hok f (congrArg Leave.raising (Option.some.inj hf)))
    | _ => cases hf
  | settles _ _ hok => exact .inr (hok f hf)
  | raises _ _ _ hok | undigested _ _ hok => exact .inr (Option.some.inj hf ▸ hok)
  | delays _ hp => rcases hp with ⟨_, rfl⟩ | ⟨_, _, rfl⟩ <;> cases hf
  | _ => cases hf

/-! ## The end -/

/-- A turn moves on to a status that the one it has allows. -/
theorem moveTo_of_status {t : Turn} {s s' : TurnStatus} (hs : t.status = s)
    (h : s.allows s' = true) (next : Turn → Turn) :
    t.moveTo s' next = next { t with record := { t.record with status := s' } } := by
  have hstatus : t.record.status = s := hs
  rw [moveTo, TurnRecord.moveTo, hstatus, if_pos h]

/-- An active turn ends as cancelled. -/
theorem Active.finishCancelled_eq {t : Turn} (h : t.Active) (frame : Frame) :
    t.finishCancelled frame =
      ({ t with record := { t.record with status := .cancelled } } : Turn).clearOverlay.finish
        frame := by
  rcases h with h | h <;> exact moveTo_of_status h rfl _

/-- An active turn ends as failed. -/
theorem Active.fail_eq {t : Turn} (h : t.Active) (reason : FailureReason) (frame : Frame) :
    t.fail reason frame = ({ t with
      record := { t.record with reason := some reason, status := .failed } } : Turn).finish
        frame := by
  rcases h with h | h <;> exact moveTo_of_status (by exact h) rfl _

/-- A repair passes through a status of its own, and waits in it nowhere; without a digest running
    ends in it. -/
theorem repair_eq {t : Turn} (hs : t.status = .checking) (problems : List Problem) :
    t.repair problems =
      match repairDigest t.config.digestLimit problems with
      | .error f => ({ t.countRepair problems with
          record := { (t.countRepair problems).record with status := .repairing } } : Turn).raise
            (numberFailure f)
      | .ok digest => ({ t.countRepair problems with
          record := { (t.countRepair problems).record with status := .streaming } } : Turn).ask
            digest := by
  rw [repair, moveTo_of_status hs rfl]
  show (match repairDigest t.config.digestLimit problems with
    | .error f => _
    | .ok digest => _) = _
  cases repairDigest t.config.digestLimit problems with
  | error f => rfl
  | ok digest => exact moveTo_of_status rfl rfl _

/-- While its stream is closed a turn is active or has ended. -/
theorem Placed.of_closing {t : Turn} (h : t.Placed) {why : Leave} (hp : t.point = .closing why) :
    t.Active ∨ t.status.isTerminal = true := by
  have hadmits := h.admits hp
  cases why with
  | ended => exact .inl (.inl hadmits)
  | settled => exact .inr hadmits
  | raising => exact hadmits.imp_left .inl

theorem Active.not_terminal {t : Turn} (h : t.Active) : t.status.isTerminal = false := by
  rcases h with h | h <;> rw [h] <;> rfl

/-- A cancellation of the task ends an active turn. -/
theorem abort_cancelled {t : Turn} (h : t.Active) :
    t.abort .cancelled = t.finishCancelled .handler := by
  have hb : ((Failure.cancelled == .cancelled) && !t.status.isTerminal) = true := by
    rw [h.not_terminal]
    rfl
  rw [abort, if_pos hb]

/-- All else goes through. -/
theorem abort_of_ne {t : Turn} {f : Failure} (hf : f ≠ .cancelled) : t.abort f = t.raise f := by
  have hb : ¬((f == .cancelled) && !t.status.isTerminal) = true := fun hb =>
    hf (cancelled_of_beq (Bool.and_eq_true_iff.1 hb).1)
  rw [abort, if_neg hb]

section Ending

variable {t u : Turn} {ok : Failure → Prop} {ans : Option Answer} {a : Applier} {s : TurnStatus}

theorem active_of_course (hs : s = .streaming ∨ s = .checking)
    (hc : u.course = { t.course with applier := a, status := s }) : u.Active := by
  have hu : u.status = s := congrArg Course.status hc
  exact hs.imp hu.trans hu.trans

theorem finish_next (hs : t.Active) (hs' : s = .cancelled ∨ s = .failed)
    (hc : u.course = { t.course with applier := a, status := s }) (frame : Frame) :
    t.Next ok ans (u.finish frame).course (u.finish frame).point := by
  have hr : u.course.Reports (u.record.toResult u.checkCalls) := ⟨rfl, rfl, rfl, rfl, rfl⟩
  have hf : (u.finish frame).course = u.course.finish (u.record.toResult u.checkCalls) := rfl
  rw [hc] at hr hf
  rw [hf]
  exact .ends hs hs' a hr frame

theorem finishCancelled_next (hs : t.Active) (hs' : s = .streaming ∨ s = .checking)
    (hc : u.course = { t.course with applier := a, status := s }) (frame : Frame) :
    t.Next ok ans (u.finishCancelled frame).course (u.finishCancelled frame).point := by
  have hu : u.Active := active_of_course hs' hc
  rw [hu.finishCancelled_eq]
  refine finish_next (a := u.applier.clear) hs (.inl rfl) ?_ frame
  show { u.course with applier := u.applier.clear, status := .cancelled } = _
  rw [hc]

theorem fail_next (hs : t.Active) (hs' : s = .streaming ∨ s = .checking)
    (hc : u.course = { t.course with applier := a, status := s }) (reason : FailureReason)
    (frame : Frame) : t.Next ok ans (u.fail reason frame).course (u.fail reason frame).point := by
  have hu : u.Active := active_of_course hs' hc
  rw [hu.fail_eq]
  refine finish_next (a := a) hs (.inr rfl) ?_ frame
  show { u.course with status := .failed } = _
  rw [hc]

/-- A failure that nothing has caught ends an active turn if it is a cancellation, and running in
    any case. -/
theorem abort_next (hs : t.Active) (hs' : s = t.status ∨ s = .checking)
    (hc : u.course = { t.course with status := s }) {f : Failure} (hok : ok f) :
    t.Next ok ans (u.abort f).course (u.abort f).point := by
  have hst : s = .streaming ∨ s = .checking := by
    rcases hs' with rfl | h
    · exact hs
    · exact .inr h
  have hu : u.Active := active_of_course hst hc
  unfold abort
  rw [hu.not_terminal]
  by_cases hf : (f == .cancelled) = true
  · rw [hf]
    exact finishCancelled_next hs hst hc .handler
  · rw [if_neg (by simpa using hf)]
    show t.Next ok ans u.course _
    rw [hc]
    exact .raises hs hs' (ne_cancelled_of_beq hf) hok

/-- After the end a failure goes through. -/
theorem abort_next_of_terminal (ht : t.status.isTerminal = true) {f : Failure} (hok : ok f) :
    t.Next ok none (t.abort f).course (t.abort f).point := by
  unfold abort
  rw [ht, if_neg (by simp)]
  exact .settles ht (.inr (.inr (.inr ⟨f, rfl⟩))) fun g hg => Option.some.inj hg ▸ hok

theorem abort_next_of_closing (h : t.Active ∨ t.status.isTerminal = true) {f : Failure}
    (hok : ok f) : t.Next ok none (t.abort f).course (t.abort f).point :=
  h.elim (fun ha => abort_next ha (.inl rfl) rfl hok) fun ht => abort_next_of_terminal ht hok

/-- The listeners were told the end, or telling it fails. -/
theorem told_next (ht : t.status.isTerminal = true) (hok : ok .cancelled) (frame : Frame) :
    t.Next ok none (t.waitAt (frame.told t.result)).course
      (t.waitAt (frame.told t.result)).point := by
  cases frame with
  | stream => exact .settles ht (.inl rfl) nofun
  | loop => exact .settles ht (.inr (.inr (.inl rfl))) nofun
  | handler =>
    exact .settles ht (.inr (.inr (.inr ⟨_, rfl⟩))) fun f hf => Option.some.inj hf ▸ hok

theorem untold_next (ht : t.status.isTerminal = true) {f : Failure} (hok : ok f) (frame : Frame) :
    t.Next ok none (t.waitAt (frame.untold f)).course (t.waitAt (frame.untold f)).point := by
  cases frame with
  | stream => exact .settles ht (.inr (.inl ⟨f, rfl⟩)) fun g hg => Option.some.inj hg ▸ hok
  | loop | handler =>
    exact .settles ht (.inr (.inr (.inr ⟨f, rfl⟩))) fun g hg => Option.some.inj hg ▸ hok

end Ending

/-! ## Streaming -/

section Streaming

variable {t u : Turn} {ok : Failure → Prop} {a : Applier}

theorem readOn_next (hs : t.status = .streaming) (hc : u.course = { t.course with applier := a })
    (p : Parser) : t.Next ok none (u.readOn p).course (u.readOn p).point := by
  unfold readOn
  split
  · refine finishCancelled_next (a := a) (.inl hs) (.inl rfl) ?_ .stream
    rw [hc, ← hs]
    rfl
  · show t.Next ok none u.course _
    rw [hc]
    exact .reads hs a p

theorem leave_next (hs : t.status = .streaming) (hc : u.course = { t.course with applier := a })
    {why : Leave} (hw : why ≠ .settled) (hf : ∀ f, why = .raising f → ok f) :
    t.Next ok none (u.leave why).course (u.leave why).point := by
  show t.Next ok none u.course _
  rw [hc]
  exact .leaves hs a hw hf

theorem breakStream_next (hs : t.status = .streaming) (p : Parser) (f : Failure) :
    t.Next ok none (t.breakStream p f).course (t.breakStream p f).point := by
  refine fail_next (a := t.applier) (.inl hs) (.inl hs) ?_ .generationFailed .stream
  rfl

theorem applyParsed_next {p : Parser} {text : String} (hp : t.point = .tellingChunk p text)
    (hs : t.status = .streaming) (hc : u.course = t.course) {base : BaseTree}
    (hbase : ∀ f path, base.trouble path = some f → ok f) (q : Parser) (ds : List Parsed) :
    t.Next ok none (u.applyParsed base q ds).course (u.applyParsed base q ds).point := by
  have hstop : ∀ f,
      (u.applier.applyBatch base u.config.session (ds.map .parsed)).2.stopped = some f → ok f := by
    intro f hf
    obtain ⟨path, hpath⟩ := Applier.applyBatch_stopped hf
    exact hbase f path hpath
  unfold applyParsed
  generalize u.applier.applyBatch base u.config.session (ds.map .parsed) = r at hstop ⊢
  obtain ⟨a, b⟩ := r
  dsimp only at hstop ⊢
  cases hb : b.stopped with
  | some f =>
    refine leave_next (a := a) hs ?_ nofun fun g hg => Leave.raising.inj hg ▸ hstop f hb
    show { u.course with applier := a } = _
    rw [hc]
  | none =>
    dsimp only
    split
    · show t.Next ok none
        ({ u.course with applier := a, applied := u.course.applied ++ b.applied }.emit
          (.patch b.applied b.errors)) _
      rw [hc]
      exact .patches hp a b.applied b.errors q
    · rename_i hn
      -- a batch that is no news has applied nothing
      have hnil : b.applied = [] := by
        simpa using (Bool.or_eq_false_iff.1 (Bool.eq_false_iff.2 hn)).1
      refine readOn_next (a := a) hs ?_ q
      show { u.course with applier := a, applied := u.course.applied ++ b.applied } = _
      rw [hc, hnil, List.append_nil]

theorem takeText_next {p : Parser} {text : String} (hp : t.point = .tellingChunk p text)
    (hs : t.status = .streaming) {base : BaseTree}
    (hok : ∀ f : Failure, f.Escapes → ok f)
    (hbase : ∀ f path, base.trouble path = some f → ok f) :
    t.Next ok none (t.takeText base p text).course (t.takeText base p text).point := by
  unfold takeText
  dsimp only
  split
  · refine leave_next (a := t.applier) hs ?_ nofun fun g hg => hok g (Leave.raising.inj hg ▸ .text _)
    rfl
  · split
    · refine readOn_next (a := t.applier) hs ?_ _
      rfl
    · refine applyParsed_next hp hs ?_ hbase _ _
      rfl

end Streaming

/-! ## Checking -/

section Checking

variable {t u : Turn} {ok : Failure → Prop} {ans : Option Answer} {request : Snapshot}
  (hok : ∀ f : Failure, f.Escapes → ok f)

theorem Asks.active (h : t.Asks request) : t.Active :=
  h.imp And.left And.left

theorem callCheck_next (hq : t.Asks request) (hc : u.course = { t.course with status := .checking })
    (failed : Nat) :
    t.Next ok ans (u.callCheck request failed).course (u.callCheck request failed).point := by
  unfold callCheck
  split
  · rename_i f _
    show t.Next ok ans u.course _
    rw [hc]
    exact .delays hq (.inr ⟨failed, f, rfl⟩)
  · show t.Next ok ans { u.course with
      checkCalls := u.course.checkCalls + 1, requests := u.course.requests ++ [request] } _
    rw [hc]
    exact .calls hq failed

include hok in
theorem tryCheck_next (hq : t.Asks request) (hc : u.course = { t.course with status := .checking })
    (failed : Nat) (reason : String) :
    t.Next ok ans (u.tryCheck request failed reason).course
      (u.tryCheck request failed reason).point := by
  unfold tryCheck
  dsimp only
  split
  · split
    · refine callCheck_next hq ?_ failed
      exact hc
    · split
      · refine abort_next hq.active (.inr rfl) ?_ (hok _ .pause)
        exact hc
      · show t.Next ok ans u.course _
        rw [hc]
        exact .delays hq (.inl ⟨failed, rfl⟩)
  · refine fail_next (a := t.applier) hq.active (.inr rfl) ?_ .checkerUnavailable .loop
    exact hc

include hok in
theorem beginCheck_next (hs : t.status = .streaming)
    (hc : u.course = { t.course with status := .checking }) :
    t.Next ok ans u.beginCheck.course u.beginCheck.point := by
  have hq : t.Asks u.overlay.snapshot := by
    have ha : u.applier = t.applier := congrArg Course.applier hc
    exact .inl ⟨hs, by rw [overlay, overlay, ha]⟩
  unfold beginCheck
  dsimp only
  split
  · refine fail_next (a := t.applier) (.inl hs) (.inr rfl) ?_ .budgetExhausted .loop
    exact hc
  · refine tryCheck_next hok hq ?_ 0 ""
    exact hc

include hok in
theorem endStream_next (hs : t.status = .streaming) (p : Parser) :
    t.Next ok none (t.endStream p).course (t.endStream p).point := by
  unfold endStream
  dsimp only
  split
  · refine finishCancelled_next (a := t.applier) (.inl hs) (.inl hs) ?_ .loop
    rfl
  · -- what the parser says at its end goes on record, which leaves the status alone
    rw [moveTo_of_status (by exact hs) rfl]
    refine beginCheck_next hok hs ?_
    rfl

include hok in
theorem takeFailure_next (hs : t.status = .checking) (hp : t.point.request? = some request)
    (failed : Nat) (f : Failure) :
    t.Next ok ans (t.takeReply request failed (.failed f)).course
      (t.takeReply request failed (.failed f)).point := by
  have hc : t.course = { t.course with status := .checking } := by rw [← hs]; rfl
  unfold takeReply
  split
  · rename_i ps ha
    cases f <;> cases ha
  · exact abort_next (.inr hs) (.inr rfl) hc (hok _ .cancelled)
  · refine tryCheck_next hok (.inr ⟨hs, hp⟩) ?_ (failed + 1) _
    exact hc

theorem takeProblems_next {failed : Nat} (hp : t.point = .checking request failed)
    (hs : t.status = .checking) (ps : List Problem) :
    t.Next ok (some (request, .problems ps)) (t.takeReply request failed (.problems ps)).course
      (t.takeReply request failed (.problems ps)).point := by
  show t.Next ok _ (t.takeProblems ps).course (t.takeProblems ps).point
  unfold takeProblems
  dsimp only
  split
  · exact finishCancelled_next (.inr hs) (.inr hs) rfl .loop
  · exact .diagnoses hp ps

end Checking

/-! ## Judging -/

section Judging

variable {t : Turn} {ok : Failure → Prop} {ps : List Problem}
  (hok : ∀ f : Failure, f.Escapes → ok f)

include hok in
theorem repair_next (hp : t.point = .tellingDiagnostics ps) (hs : t.status = .checking) :
    t.Next ok none (t.repair ps).course (t.repair ps).point := by
  rw [repair_eq hs]
  cases hdigest : repairDigest t.config.digestLimit ps with
  | ok digest => exact .repairs hp
  | error f => exact .undigested hp hdigest (hok _ (.digest f))

include hok in
theorem judged_next (hp : t.point = .tellingDiagnostics ps) (hs : t.status = .checking) :
    t.Next ok none (t.judged ps).course (t.judged ps).point := by
  unfold judged
  split
  · rename_i hn
    rw [List.isEmpty_iff.1 hn] at hp
    rw [moveTo_of_status hs rfl]
    exact .cleans hp ⟨rfl, rfl, rfl, rfl, rfl⟩
  · split
    · exact repair_next hok hp hs
    · refine fail_next (a := t.applier) (.inr hs) (.inr hs) ?_ .budgetExhausted .loop
      rfl

/-- A turn that has told that there is no problem ends clean. -/
theorem advance_problems_nil (hp : t.point = .tellingDiagnostics []) (hs : t.status = .checking)
    (base : BaseTree) :
    t.advance base .told =
      ({ t with record := { t.record with status := .clean } } : Turn).finish .loop := by
  rw [advance_problems base hp]
  show t.moveTo .clean (·.finish .loop) = _
  rw [moveTo_of_status hs rfl]

/-- A turn that is not cancelled tells that the type checker has found no problem, and ends
    clean. -/
theorem advance_checked_nil {request : Snapshot} {failed : Nat}
    (hp : t.point = .checking request failed) (hs : t.status = .checking)
    (hc : t.cancelRequested = false) (base base' : BaseTree) :
    let found := t.record.recordDiagnostics []
    let told := ({ t with record := found }.emit (.diagnostics found.attempt [])).waitAt
      (.tellingDiagnostics [])
    (t.advance base (.checked [])).advance base' .told =
      ({ told with record := { found with status := .clean } } : Turn).finish .loop := by
  intro found told
  have hchecked : t.advance base (.checked []) = told := by
    rw [advance_checked base hp, takeProblems, (sortProblems_perm []).eq_nil]
    exact if_neg (by rw [hc]; decide)
  rw [hchecked]
  exact advance_problems_nil (t := told) rfl hs base'

end Judging

/-! ## One reply -/

section Reply

variable {t : Turn} {base : BaseTree} {r : Reply}

theorem lets_of_escapes (f : Failure) (h : f.Escapes) : t.Lets base r f := .inl h

theorem lets_of_raised {f : Failure} (h : t.point.raised? = some f) : t.Lets base r f :=
  .inr (.inl h)

theorem lets_of_bare {f : Failure} (h : t.point.isBare = true) : t.Lets base (.failed f) f :=
  .inr (.inr (.inl (if_pos h)))

theorem lets_of_trouble (f : Failure) (path : String) (h : base.trouble path = some f) :
    t.Lets base r f := .inr (.inr (.inr ⟨path, h⟩))

/-- That the reply `r` does to `t` one of the things that it can do. -/
def Steps (base : BaseTree) (t : Turn) (r : Reply) : Prop :=
  t.Next (t.Lets base r) (t.answer? r) (t.advance base r).course (t.advance base r).point

theorem answer?_of_not_awaited (h : t.point.awaits r = false) : t.answer? r = none := by
  unfold answer?
  split <;> try rfl
  all_goals
    rw [‹t.point = _›] at h
    cases h

theorem uncaught?_of_not_awaited (h : t.point.awaits r = false) : t.uncaught? r = none := by
  unfold uncaught?
  cases r with
  | failed f => cases hp : t.point <;> first | rfl | (rw [hp] at h; cases h)
  | _ => rfl

theorem Placed.steps (h : t.Placed) (base : BaseTree) (r : Reply) : Steps base t r := by
  have hidle (hr : t.point.awaits r = false) : t.answer? r = none := answer?_of_not_awaited hr
  have hu := takes_advance base t r
  unfold Steps
  generalize t.advance base r = u at hu ⊢
  unfold answer? at hidle ⊢
  cases hu with
  | unawaited hr =>
    rw [hidle hr]
    exact .same
  | opened hp | patchTold hp =>
    rw [hp]
    exact readOn_next (a := t.applier) (h.admits hp) rfl _
  | heard hp text =>
    rw [hp]
    exact .hears hp text
  | ended hp =>
    rw [hp]
    exact leave_next (a := t.applier) (h.admits hp) rfl nofun nofun
  | interrupted hp =>
    rw [hp]
    refine leave_next (a := t.applier) (h.admits hp) rfl nofun fun g hg => ?_
    exact Leave.raising.inj hg ▸ lets_of_escapes _ .cancelled
  | textUntold hp | patchUntold hp =>
    rw [hp]
    refine leave_next (a := t.applier) (h.admits hp) rfl nofun fun g hg => ?_
    exact Leave.raising.inj hg ▸ lets_of_bare (by rw [hp]; rfl)
  | broken hp =>
    rw [hp]
    exact breakStream_next (h.admits hp) _ _
  | textTold hp =>
    rw [hp]
    exact takeText_next hp (h.admits hp) lets_of_escapes lets_of_trouble
  | closed hp =>
    rw [hp]
    exact endStream_next lets_of_escapes (h.admits hp) _
  | checked hp ps =>
    rw [hp]
    exact takeProblems_next hp (h.admits hp) ps
  | unchecked hp | dismissed hp | undismissed hp =>
    rw [hp]
    exact takeFailure_next lets_of_escapes (h.admits hp) (by rw [hp]; rfl) _ _
  | rested hp =>
    rw [hp]
    have hs : t.status = .checking := h.admits hp
    have hc : t.course = { t.course with status := .checking } := by
      rw [← hs]
      rfl
    exact callCheck_next (.inr ⟨hs, by rw [hp]; rfl⟩) hc _
  | problemsTold hp =>
    rw [hp]
    exact judged_next lets_of_escapes hp (h.admits hp)
  -- a failure goes through
  | unopened hp =>
    rw [hp]
    exact abort_next (.inl (h.admits hp)) (.inl rfl) rfl (lets_of_bare (by rw [hp]; rfl))
  | unrested hp | problemsUntold hp =>
    rw [hp]
    exact abort_next (.inr (h.admits hp)) (.inl rfl) rfl (lets_of_bare (by rw [hp]; rfl))
  | raised hp =>
    rw [hp]
    exact abort_next_of_closing (h.of_closing hp) (lets_of_raised (by rw [hp]; rfl))
  | unclosed hp =>
    rw [hp]
    exact abort_next_of_closing (h.of_closing hp) (lets_of_bare (by rw [hp]; rfl))
  -- a turn that has ended goes on
  | settled hp =>
    rw [hp]
    exact .settles (h.admits hp) (.inr (.inr (.inl rfl))) nofun
  | endTold hp =>
    rw [hp]
    exact told_next (h.admits hp) (lets_of_escapes _ .cancelled) _
  | endUntold hp f =>
    rw [hp]
    exact untold_next (h.admits hp) (lets_of_bare (by rw [hp]; rfl)) _

end Reply

/-- **All that a reply can do to a turn**: `Next` lists it. -/
theorem advance_next {t : Turn} (h : t.Placed) (base : BaseTree) (r : Reply) :
    t.Next (t.Lets base r) (t.answer? r) (t.advance base r).course (t.advance base r).point :=
  h.steps base r

end Turn

end StagedEdits
