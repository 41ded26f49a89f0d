import StagedEdits.Proofs.AppliedLog
import StagedEdits.Proofs.CancelRequest

set_option autoImplicit false

/-! # What a turn keeps of what it applied

A turn applies directives in batches and replays, and puts on record what they applied. One reply
or one replay makes at most one of them; all else that happens to a turn leaves applier and record
alone, but that a cancellation drops what is pending. A batch or a replay that is stopped by a
failure stays applied, and is not put on record: what it applied before it was stopped is lost to
the record, and to the result that the listeners are told.

Main definitions: `Books`, `Turn.batch?`, `Run.lost`. Main statements: `Turn.advance_keeps` (one
reply), `Run.step_keeps` (one move), `Run.lost_eq_nil` (over a base that can be looked at). -/

namespace StagedEdits

/-! ## The books -/

/-- What is kept of what was applied: the `applier`, the two lists of the record and what was
    told. -/
structure Books where
  applier : Applier
  applied : List Directive
  listed : List String
  events : List Event

/-- The books `k` after the batch or replay that came to `r`: one that is stopped is not put on
    record. -/
def Books.take (k : Books) (r : Applier × Batch) : Books :=
  match r.2.stopped with
  | some _ => { k with applier := r.1 }
  | none =>
    { k with
      applier := r.1
      applied := k.applied ++ r.2.applied
      listed := r.1.dependencies.toList }

namespace Turn

/-- The `Books` of `t`. -/
def books (t : Turn) : Books := ⟨t.applier, t.record.applied, t.record.dependencies, t.events⟩

/-- What a reply makes a turn apply. -/
def batch? (t : Turn) (base : BaseTree) (r : Reply) : Option (Applier × Batch) :=
  match t.point, r with
  | .tellingChunk p text, .told =>
    let fed := p.feed text.toList
    match fed.stopped with
    | some _ => none
    | none =>
      match fed.outcomes.filterMap Outcome.directive? with
      | [] => none
      | ds => some (t.applier.applyBatch base t.config.session (ds.map .parsed))
  | _, _ => none

/-- That `t` stands by the books `k`: it told one more thing at most, which is its record if it is
    the end, and if it was cancelled what was pending may be dropped. -/
structure Keeps (k : Books) (t : Turn) : Prop where
  applied : t.record.applied = k.applied
  listed : t.record.dependencies = k.listed
  applier : t.applier = k.applier ∨ t.applier = k.applier.clear ∧ t.status = .cancelled
  events : t.events = k.events ∨ ∃ e, t.events = k.events ++ [e] ∧
    ∀ r, e.payload = .done r → r = t.record.toResult t.checkCalls ∧ t.status.isTerminal = true

/-! ## What leaves the books alone -/

section Untouched

variable {t : Turn} {k : Books} (hk : t.books = k)

include hk

theorem same_keeps : Keeps k t := by
  subst hk
  exact ⟨rfl, rfl, .inl rfl, .inl rfl⟩

theorem emit_keeps {payload : Payload} (h : payload.kind ≠ .done) (p : Point) :
    Keeps k ((t.emit payload).waitAt p) := by
  subst hk
  refine ⟨rfl, rfl, .inl rfl, .inr ⟨_, rfl, fun r he => absurd ?_ h⟩⟩
  rw [show payload = .done r from he]
  rfl

theorem finish_keeps (ht : t.status.isTerminal = true) (frame : Frame) :
    Keeps k (t.finish frame) := by
  subst hk
  refine ⟨rfl, rfl, .inl rfl, .inr ⟨_, rfl, fun r he => ?_⟩⟩
  cases he
  exact ⟨rfl, ht⟩

theorem moveTo_keeps {s : TurnStatus} {next : Turn → Turn}
    (hnext : Keeps k (next { t with record := { t.record with status := s } })) :
    Keeps k (t.moveTo s next) := by
  unfold moveTo TurnRecord.moveTo
  by_cases h : t.record.status.allows s = true
  · rw [if_pos h]
    exact hnext
  · rw [if_neg h]
    exact same_keeps (by exact hk)

theorem finishCancelled_keeps (frame : Frame) : Keeps k (t.finishCancelled frame) := by
  subst hk
  refine moveTo_keeps rfl ⟨rfl, rfl, .inr ⟨rfl, rfl⟩, .inr ⟨_, rfl, fun r he => ?_⟩⟩
  cases he
  exact ⟨rfl, rfl⟩

theorem fail_keeps (reason : FailureReason) (frame : Frame) : Keeps k (t.fail reason frame) :=
  moveTo_keeps (by exact hk) (finish_keeps (by exact hk) rfl frame)

theorem abort_keeps (f : Failure) : Keeps k (t.abort f) := by
  unfold abort
  split
  · exact finishCancelled_keeps (by exact hk) .handler
  · exact same_keeps (by exact hk)

theorem readOn_keeps (p : Parser) : Keeps k (t.readOn p) := by
  unfold readOn
  split
  · exact finishCancelled_keeps (by exact hk) .stream
  · exact same_keeps (by exact hk)

theorem callCheck_keeps (request : Snapshot) (failed : Nat) :
    Keeps k (t.callCheck request failed) := by
  unfold callCheck
  split <;> exact same_keeps (by exact hk)

theorem tryCheck_keeps (request : Snapshot) (failed : Nat) (reason : String) :
    Keeps k (t.tryCheck request failed reason) := by
  unfold tryCheck
  dsimp only
  split
  · split
    · exact callCheck_keeps (by exact hk) request failed
    · split
      · exact abort_keeps (by exact hk) _
      · exact same_keeps (by exact hk)
  · exact fail_keeps (by exact hk) .checkerUnavailable .loop

theorem beginCheck_keeps : Keeps k t.beginCheck := by
  unfold beginCheck
  dsimp only
  split
  · exact fail_keeps (by exact hk) .budgetExhausted .loop
  · exact tryCheck_keeps (by exact hk) _ 0 ""

theorem takeProblems_keeps (ps : List Problem) : Keeps k (t.takeProblems ps) := by
  unfold takeProblems
  dsimp only
  split
  · exact finishCancelled_keeps (by exact hk) .loop
  · exact emit_keeps (by exact hk) (by nofun) _

theorem takeReply_keeps (request : Snapshot) (failed : Nat) (reply : CheckReply) :
    Keeps k (t.takeReply request failed reply) := by
  unfold takeReply
  split
  · exact takeProblems_keeps (by exact hk) _
  · exact abort_keeps (by exact hk) .cancelled
  · exact tryCheck_keeps (by exact hk) request (failed + 1) _

theorem endStream_keeps (p : Parser) : Keeps k (t.endStream p) := by
  unfold endStream
  dsimp only
  split
  · exact finishCancelled_keeps (by exact hk) .loop
  · exact moveTo_keeps (by exact hk) (beginCheck_keeps (by exact hk))

theorem breakStream_keeps (p : Parser) (f : Failure) : Keeps k (t.breakStream p f) :=
  fail_keeps (by exact hk) .generationFailed .stream

theorem repair_keeps (problems : List Problem) : Keeps k (t.repair problems) := by
  refine moveTo_keeps (by exact hk) ?_
  dsimp only
  split
  · exact same_keeps (by exact hk)
  · exact moveTo_keeps (by exact hk) (same_keeps (by exact hk))

theorem judged_keeps (problems : List Problem) : Keeps k (t.judged problems) := by
  unfold judged
  split
  · exact moveTo_keeps (by exact hk) (finish_keeps (by exact hk) rfl .loop)
  · split
    · exact repair_keeps (by exact hk) problems
    · exact fail_keeps (by exact hk) .budgetExhausted .loop

end Untouched

/-! ## What is applied -/

theorem applyParsed_keeps (base : BaseTree) (t : Turn) (p : Parser) (ds : List Parsed) :
    Keeps (t.books.take (t.applier.applyBatch base t.config.session (ds.map .parsed)))
      (t.applyParsed base p ds) := by
  unfold applyParsed
  generalize t.applier.applyBatch base t.config.session (ds.map .parsed) = r
  obtain ⟨a, b⟩ := r
  dsimp only [Books.take]
  cases b.stopped with
  | some f => exact same_keeps rfl
  | none =>
    dsimp only
    split
    · exact emit_keeps (by rfl) (by nofun) _
    · exact readOn_keeps (by rfl) p

theorem batch?_leads {t : Turn} {base : BaseTree} {r : Reply} {x : Applier × Batch}
    (h : t.batch? base r = some x) : Applier.Leads base t.applier x.2.applied x.1 := by
  unfold batch? at h
  split at h
  · dsimp only at h
    split at h
    · cases h
    · split at h <;> cases h
      exact Applier.applyBatch_leads base _ _ _
  · cases h

/-- What a reply makes a turn apply is stopped by the base only. -/
theorem batch?_stopped {t : Turn} {base : BaseTree} {r : Reply} {x : Applier × Batch}
    (h : t.batch? base r = some x) {f : Failure} (hf : x.2.stopped = some f) :
    ∃ path, base.trouble path = some f := by
  unfold batch? at h
  split at h
  · dsimp only at h
    split at h
    · cases h
    · split at h <;> cases h
      exact Applier.applyBatch_stopped hf
  · cases h

theorem takeText_keeps {t : Turn} {p : Parser} {text : String} (hp : t.point = .tellingChunk p text)
    (base : BaseTree) :
    Keeps (((t.batch? base .told).map t.books.take).getD t.books) (t.takeText base p text) := by
  unfold batch? takeText
  rw [hp]
  dsimp only
  cases (p.feed text.toList).stopped with
  | some f => exact same_keeps rfl
  | none =>
    dsimp only
    cases (p.feed text.toList).outcomes.filterMap Outcome.directive? with
    | nil => exact readOn_keeps (by rfl) _
    | cons d ds => exact applyParsed_keeps base ((t.say _).addErrors _) _ (d :: ds)

/-- No reply but that a text was told makes a turn apply anything. -/
theorem batch?_eq_none {t : Turn} {r : Reply}
    (h : ∀ p text, t.point = .tellingChunk p text → r ≠ .told) (base : BaseTree) :
    t.batch? base r = none := by
  unfold batch?
  split
  · rename_i p text hp
    exact absurd rfl (h p text hp)
  · rfl

/-- A reply that makes a turn apply nothing leaves its books alone. -/
theorem Takes.keeps {t u : Turn} {base : BaseTree} {r : Reply} (hu : t.Takes base r u)
    (h : ∀ p text, t.point = .tellingChunk p text → r ≠ .told) : Keeps t.books u := by
  cases hu with
  | textTold hp => exact absurd rfl (h _ _ hp)
  | opened | patchTold => exact readOn_keeps rfl _
  | heard => exact emit_keeps rfl (by nofun) _
  | broken => exact breakStream_keeps rfl _ _
  | closed => exact endStream_keeps rfl _
  | checked => exact takeProblems_keeps rfl _
  | unchecked | dismissed | undismissed => exact takeReply_keeps rfl _ _ _
  | rested => exact callCheck_keeps rfl _ _
  | problemsTold => exact judged_keeps rfl _
  | unopened | raised | unclosed | unrested | problemsUntold => exact abort_keeps rfl _
  | _ => exact same_keeps rfl

/-- **All that a reply does to the books of a turn**: they take in the batch that it comes to, if it
    comes to one. -/
theorem advance_keeps (t : Turn) (base : BaseTree) (r : Reply) :
    Keeps (((t.batch? base r).map t.books.take).getD t.books) (t.advance base r) := by
  by_cases htext : ∃ p text, t.point = .tellingChunk p text ∧ r = .told
  · obtain ⟨p, text, hp, rfl⟩ := htext
    rw [advance_text base hp]
    exact takeText_keeps hp base
  · have hother (p : Parser) (text : String) (hp : t.point = .tellingChunk p text) : r ≠ .told :=
      fun hr => htext ⟨p, text, hp, hr⟩
    rw [batch?_eq_none hother base]
    exact (takes_advance base t r).keeps hother

end Turn

/-! ## Logs that stop -/

namespace Applier

/-- Items are stopped by the base, or by one that is no directive. -/
theorem applyItems_stopped {base : BaseTree} {session : String} {a : Applier} {b : Batch}
    {is : List Item} {f : Failure} (hb : b.stopped = none)
    (h : (a.applyItems base session b is).2.stopped = some f) :
    (∃ path, base.trouble path = some f) ∨ ∃ i ∈ is, i.directive? = none := by
  induction is generalizing a b with
  | nil =>
    rw [applyItems, hb] at h
    cases h
  | cons i is ih =>
    rw [applyItems_cons] at h
    cases hi : i.directive? with
    | none => exact .inr ⟨i, List.mem_cons_self, hi⟩
    | some d =>
      have hwork : i.work = .ok d := by
        cases i <;> cases hi <;> rfl
      simp only [hwork] at h
      rcases @applyInto_stopped base session a b d hb with hnone | ⟨g, hstop, hpath⟩
      · simp only [hnone, Option.isSome_none, Bool.false_eq_true, if_false] at h
        exact (ih hnone h).imp_right fun ⟨j, hj, hn⟩ => ⟨j, List.mem_cons_of_mem i hj, hn⟩
      · simp only [hstop, Option.isSome_some, if_true] at h
        cases h
        exact .inl hpath

theorem replay_stops {base : BaseTree} {session : String} {a : Applier} {log : List Item}
    {f : Failure} (h : (a.replay base session log).2.stopped = some f) :
    (∃ path, base.trouble path = some f) ∨ ∃ i ∈ log, i.directive? = none := by
  rw [replay] at h
  dsimp only at h
  rw [conclude_stopped] at h
  rcases applyItems_stopped rfl h with htrouble | ⟨i, hi, hn⟩
  · exact .inl htrouble
  · exact .inr ⟨i, List.mem_of_mem_drop hi, hn⟩

end Applier

/-! ## Moves -/

/-- The base that a move looks at. -/
def Move.base? : Move → Option BaseTree
  | .reply base _ | .replay base _ => some base
  | _ => none

/-- Whether all that a move replays are directives. -/
def Move.isReadable : Move → Bool
  | .replay _ log => log.all (·.directive?.isSome)
  | _ => true

/-- Whether a move drops what is pending: the owner discards it, or it was committed. -/
def Move.clears : Move → Bool
  | .discard | .committed .. => true
  | _ => false

namespace Run

/-- What a move makes the turn of a run apply. -/
def batch? (w : Run) : Move → Option (Applier × Batch)
  | .reply base r => w.turn.batch? base r
  | .replay base log =>
    if w.turn.status.isTerminal then none
    else some (w.turn.applier.replay base w.turn.config.session log)
  | _ => none

/-- What `m` applies and does not put on record. -/
def lost (w : Run) (m : Move) : List Directive :=
  match w.batch? m with
  | some r => if r.2.stopped.isSome then r.2.applied else []
  | none => []

variable {w : Run} {m : Move}

/-- What a move applies leads from the applier before to the one after it. -/
theorem batch?_leads {r : Applier × Batch} (h : w.batch? m = some r) :
    ∃ base ∈ m.base?, Applier.Leads base w.turn.applier r.2.applied r.1 := by
  cases m with
  | reply base r' => exact ⟨base, rfl, Turn.batch?_leads h⟩
  | replay base log =>
    refine ⟨base, rfl, ?_⟩
    simp only [batch?] at h
    split at h <;> cases h
    exact Applier.replay_leads base _ _ _
  | _ => cases h

/-- **Nothing is lost over a base that can be looked at everywhere**, one whose `trouble` is always
    `none`, if what is replayed are directives. -/
theorem lost_eq_nil (hbase : ∀ base ∈ m.base?, ∀ path, base.trouble path = none)
    (hm : m.isReadable = true) : w.lost m = [] := by
  have hgoes : ∀ r, w.batch? m = some r → r.2.stopped = none := by
    intro r hr
    cases hs : r.2.stopped with
    | none => rfl
    | some f =>
      exfalso
      cases m with
      | reply base reply =>
        obtain ⟨path, hpath⟩ := Turn.batch?_stopped hr hs
        rw [hbase base rfl path] at hpath
        cases hpath
      | replay base log =>
        simp only [batch?] at hr
        split at hr <;> cases hr
        rcases Applier.replay_stops hs with ⟨path, hpath⟩ | ⟨i, hi, hnone⟩
        · rw [hbase base rfl path] at hpath
          cases hpath
        · have hsome := List.all_eq_true.1 hm i hi
          rw [hnone] at hsome
          cases hsome
      | _ => cases hr
  unfold lost
  cases hr : w.batch? m with
  | none => rfl
  | some r => exact if_neg (by rw [hgoes r hr]; nofun)

/-- **All that a move does to the books**, unless it drops what is pending: they take in the batch
    of `m`, if it has one. -/
theorem step_keeps (hm : m.clears = false) :
    Turn.Keeps (((w.batch? m).map w.turn.books.take).getD w.turn.books) (w.step m).turn := by
  cases m with
  | start prompt =>
    simp only [step, Turn.start]
    cases w.turn.point with
    | idle => exact Turn.same_keeps rfl
    | _ => exact Turn.same_keeps rfl
  | reply base r => exact Turn.advance_keeps w.turn base r
  | cancel =>
    simp only [step, Turn.cancel]
    split <;> exact Turn.same_keeps rfl
  | replay base log =>
    simp only [step, batch?, Turn.replay]
    split
    · exact Turn.same_keeps rfl
    · generalize w.turn.applier.replay base w.turn.config.session log = r
      obtain ⟨a, b⟩ := r
      simp only [Option.map_some, Option.getD_some, Books.take]
      cases b.stopped with
      | some f => exact Turn.same_keeps rfl
      | none => exact Turn.same_keeps rfl
  | handOver force =>
    simp only [step]
    split <;> exact Turn.same_keeps rfl
  | _ => cases hm

/-- What is pending is dropped, and all else is kept. -/
theorem step_clears (hm : m.clears = true) : w.batch? m = none ∧
    ((w.step m).turn.books = w.turn.books ∨
      (w.step m).turn.books = { w.turn.books with applier := w.turn.applier.clear }) := by
  cases m with
  | discard => exact ⟨rfl, .inr rfl⟩
  | committed index outcome =>
    refine ⟨rfl, ?_⟩
    simp only [step]
    split
    · cases outcome with
      | error f => exact .inl rfl
      | ok report => exact .inr rfl
    · exact .inl rfl
  | _ => cases hm

end Run

end StagedEdits
