import StagedEdits.Proofs.TurnCourse

set_option autoImplicit false

/-! # What a turn counts

The bounds of a turn rest on what it counts: its repairs, the uses of its budget, the streams it
asked for, the calls of the type checker and the tries of the check that is on. `Turn.Tick` lists
everything that an awaited reply can make of these numbers and of the point where the turn waits.
Along with each of them it tells how far the turn is then from its end: `Point.rest` bounds the
replies that a turn can take before it is over or repaired, were it told no more texts.

Main definitions: `Gauge`, `Point.rest`, `Turn.Tick`. Main statement: `Turn.advance_ticks`. -/

namespace StagedEdits

/-! ## Points -/

namespace Point

/-- How many replies a turn can take from a point on before it is over or repaired, if each check is
    tried so often as `tries` says and no text comes any more. -/
def rest (tries : Nat) : Point → Nat
  | .over _ => 0
  | .closing .settled | .tellingDone .loop | .tellingDone .handler => 1
  | .closing (.raising _) | .tellingDiagnostics _ => 2
  | .tellingDone .stream => 3
  | .checking _ failed | .dismissing _ failed _ => 2 * (tries - 1 - failed) + 3
  | .pausing _ failed => 2 * (tries - 1 - failed) + 4
  | .closing (.ended _) => 2 * tries + 3
  | .reading _ => 2 * tries + 4
  | .tellingPatch _ | .opening => 2 * tries + 5
  | .tellingChunk .. | .idle => 2 * tries + 6

/-- Whether a turn neither asks for anything at a point nor was told the problems of a check. -/
def isQuiet : Point → Bool
  | .reading _ | .tellingChunk .. | .tellingPatch _ | .closing _ | .over _ => true
  | _ => false

end Point

/-! ## Gauges -/

/-- What a `Turn` counts, and what its loop goes by. -/
structure Gauge where
  policy : RetryPolicy
  status : TurnStatus
  attempt : Nat
  reason : Option FailureReason
  diagnostics : List Problem
  history : List (List Problem)
  budget : Budget
  checkCalls : Nat
  result : Option TurnResult
  prompts : List String
  requests : List Snapshot

namespace Gauge

/-- How often a check is tried. -/
def tries (k : Gauge) : Nat := (k.policy.maxRetries + 1).toNat

/-- That the result `r` tells of the gauge `k`. -/
structure Reports (k : Gauge) (r : TurnResult) : Prop where
  status : r.status = k.status
  reason : r.reason = k.reason
  diagnostics : r.diagnostics = k.diagnostics
  attempts : r.attempts = k.attempt
  checkCalls : r.checkCalls = k.checkCalls

variable (k : Gauge)

/-- The gauge of a turn that went into the repair of so many `problems` and has the status `s`
    now. -/
def countRepair (problems : Int) (s : TurnStatus) : Gauge :=
  { k with status := s, attempt := k.attempt + 1, budget := (k.budget.useRepair problems).1 }

/-- The gauge of a turn that has ended with the status `s`, and with a result that tells of it. -/
inductive Ends (s : TurnStatus) (reason : Option FailureReason) : Gauge → Prop
  | mk {r : TurnResult} (hr : { k with status := s, reason }.Reports r) :
    Ends s reason { k with status := s, reason, result := some r }

/-- What calling the type checker on `request` makes, after `failed` tries. -/
inductive Calls (request : Snapshot) (failed : Nat) : Gauge → Point → Prop
  | asks (h : k.policy.earlyFailure? = none) :
    Calls request failed
      { k with checkCalls := k.checkCalls + 1, requests := k.requests ++ [request] }
      (.checking request failed)
  | dismisses {f : Failure} (h : k.policy.earlyFailure? = some f) :
    Calls request failed k (.dismissing request failed f)

/-- What trying the check of `request` makes, after `failed` tries. -/
inductive Tries (request : Snapshot) (failed : Nat) : Gauge → Point → Prop
  | calls (ha : k.policy.allows failed = true) {k' : Gauge} {p : Point}
    (h : k.Calls request failed k' p) (hnow : failed = 0 ∨ k.policy.cannotPause = false) :
    Tries request failed k' p
  | pauses (ha : k.policy.allows failed = true) (hcan : k.policy.cannotPause = false) :
    Tries request failed k (.pausing request failed)
  | overflows (ha : k.policy.allows failed = true) (hlater : failed ≠ 0)
    (hcannot : k.policy.cannotPause = true) :
    Tries request failed k (.over (.raised .clockOverflow))
  | givesUp (ha : k.policy.allows failed = false) {k' : Gauge}
    (h : k.Ends .failed (some .checkerUnavailable) k') :
    Tries request failed k' (.tellingDone .loop)

end Gauge

/-- That at `p` a try of the check of `request`, after `failed` ones, fails at the reply `r`: the
    type checker fails, or was not called. -/
def Point.TryFails (p : Point) (request : Snapshot) (failed : Nat) (r : Reply) : Prop :=
  p = .checking request failed ∧ (∃ f, r = .failed f) ∨ ∃ f, p = .dismissing request failed f

namespace Turn

/-- A turn is checked while a try of a check fails. -/
theorem Placed.of_tryFails {t : Turn} (h : t.Placed) {request : Snapshot} {failed : Nat} {r : Reply}
    (hp : t.point.TryFails request failed r) : t.status = .checking := by
  rcases hp with ⟨hp, -⟩ | ⟨f, hp⟩
  · exact h.admits hp
  · exact h.admits hp

/-- The `Gauge` of `t`. -/
def gauge (t : Turn) : Gauge :=
  { policy := t.config.policy, status := t.record.status, attempt := t.record.attempt,
    reason := t.record.reason, diagnostics := t.record.diagnostics, history := t.record.history,
    budget := t.budget, checkCalls := t.checkCalls, result := t.result, prompts := t.prompts,
    requests := t.requests }

/-- What `r`, a reply that is awaited, can make of the gauge of `t` and of the point where it
    waits. -/
inductive Tick (t : Turn) (r : Reply) : Gauge → Point → Prop
  /-- A text is told. -/
  | hears {p : Parser} (hp : t.point = .reading p) {text : String} (hr : r = .chunk text) :
    Tick t r t.gauge (.tellingChunk p text)
  /-- The turn comes nearer to its end. -/
  | glides {p : Point} (hq : p.isQuiet = true)
    (hrest : p.rest t.gauge.tries < t.point.rest t.gauge.tries) : Tick t r t.gauge p
  /-- The turn is cancelled. -/
  | cancels (hs : t.Active) {k : Gauge} (he : t.gauge.Ends .cancelled t.gauge.reason k)
    {frame : Frame}
    (hrest : (Point.tellingDone frame).rest t.gauge.tries < t.point.rest t.gauge.tries) :
    Tick t r k (.tellingDone frame)
  /-- The agent broke off. -/
  | breaks {p : Parser} (hp : t.point = .reading p) {k : Gauge}
    (he : t.gauge.Ends .failed (some .generationFailed) k) : Tick t r k (.tellingDone .stream)
  /-- A check begins. -/
  | begins {p : Parser} (hp : t.point = .closing (.ended p)) (hu : t.budget.useCheck.2 = true)
    (request : Snapshot) {k : Gauge} {q : Point}
    (h : { t.gauge with status := .checking, budget := t.budget.useCheck.1 }.Tries request 0 k q) :
    Tick t r k q
  /-- There is no check left. -/
  | denied {p : Parser} (hp : t.point = .closing (.ended p)) (hu : t.budget.useCheck.2 = false)
    {k : Gauge}
    (he : { t.gauge with status := .checking }.Ends .failed (some .budgetExhausted) k) :
    Tick t r k (.tellingDone .loop)
  /-- A try of a check has failed. -/
  | retries {request : Snapshot} {failed : Nat} (hp : t.point.TryFails request failed r)
    {k : Gauge} {q : Point} (h : t.gauge.Tries request (failed + 1) k q) : Tick t r k q
  /-- A try of a check was put off and is made. -/
  | resumes {request : Snapshot} {failed : Nat} (hp : t.point = .pausing request failed)
    {k : Gauge} {q : Point} (h : t.gauge.Calls request failed k q) : Tick t r k q
  /-- The problems of a check are told. -/
  | diagnoses {request : Snapshot} {failed : Nat} (hp : t.point = .checking request failed)
    {ps : List Problem} (hr : r = .checked ps) :
    Tick t r
      { t.gauge with
        diagnostics := sortProblems ps
        history := t.gauge.history ++ [sortProblems ps] }
      (.tellingDiagnostics (sortProblems ps))
  /-- The agent is asked to repair the problems. -/
  | repairs {ps : List Problem} (hp : t.point = .tellingDiagnostics ps)
    (hc : t.budget.canRepair = true) (prompt : String) :
    Tick t r
      { t.gauge.countRepair ps.length .streaming with prompts := t.gauge.prompts ++ [prompt] }
      .opening
  /-- There is no digest of the problems, and running ends in the repair. -/
  | undigested {ps : List Problem} (hp : t.point = .tellingDiagnostics ps)
    (hc : t.budget.canRepair = true) (f : NumberFault) :
    Tick t r (t.gauge.countRepair ps.length .repairing) (.over (.raised (numberFailure f)))
  /-- Problems are left and no repair. -/
  | exhausts {ps : List Problem} (hp : t.point = .tellingDiagnostics ps) (hne : ps ≠ [])
    (hc : t.budget.canRepair = false) {k : Gauge}
    (he : t.gauge.Ends .failed (some .budgetExhausted) k) : Tick t r k (.tellingDone .loop)
  /-- The turn ends clean. -/
  | cleans (hp : t.point = .tellingDiagnostics []) {k : Gauge}
    (he : t.gauge.Ends .clean t.gauge.reason k) : Tick t r k (.tellingDone .loop)

/-! ## The end -/

theorem finish_ends {t : Turn} {s s' : TurnStatus} (hs : t.status = s) (h : s.allows s' = true)
    (frame : Frame) :
    t.gauge.Ends s' t.gauge.reason (t.moveTo s' (·.finish frame)).gauge ∧
      (t.moveTo s' (·.finish frame)).point = .tellingDone frame := by
  rw [moveTo_of_status hs h]
  exact ⟨.mk ⟨rfl, rfl, rfl, rfl, rfl⟩, rfl⟩

theorem finishCancelled_ends {t : Turn} (h : t.Active) (frame : Frame) :
    t.gauge.Ends .cancelled t.gauge.reason (t.finishCancelled frame).gauge ∧
      (t.finishCancelled frame).point = .tellingDone frame := by
  rw [h.finishCancelled_eq]
  exact ⟨.mk ⟨rfl, rfl, rfl, rfl, rfl⟩, rfl⟩

theorem fail_ends {t : Turn} (h : t.Active) (reason : FailureReason) (frame : Frame) :
    t.gauge.Ends .failed (some reason) (t.fail reason frame).gauge ∧
      (t.fail reason frame).point = .tellingDone frame := by
  rw [h.fail_eq]
  exact ⟨.mk ⟨rfl, rfl, rfl, rfl, rfl⟩, rfl⟩

section Ticks

variable {t u : Turn} {r : Reply}

theorem Active.of_gauge (h : t.Active) (hu : u.gauge = t.gauge) : u.Active := by
  have hs : u.status = t.status := congrArg Gauge.status hu
  exact h.imp hs.trans hs.trans

theorem cancelled_ticks (h : t.Active) (hu : u.gauge = t.gauge) {frame : Frame}
    (hrest : (Point.tellingDone frame).rest t.gauge.tries < t.point.rest t.gauge.tries) :
    t.Tick r (u.finishCancelled frame).gauge (u.finishCancelled frame).point := by
  obtain ⟨he, hp⟩ := finishCancelled_ends (h.of_gauge hu) frame
  rw [hp]
  rw [hu] at he
  exact .cancels h he hrest

theorem glide_ticks (hu : u.gauge = t.gauge) {q : Point} (hq : q.isQuiet = true)
    (hrest : q.rest t.gauge.tries < t.point.rest t.gauge.tries) :
    t.Tick r (u.waitAt q).gauge (u.waitAt q).point := by
  show t.Tick r u.gauge q
  rw [hu]
  exact .glides hq hrest

/-- A failure that nothing has caught cancels an active turn or goes through. -/
theorem abort_ticks (h : t.Active ∨ t.status.isTerminal = true)
    (hrest : 1 < t.point.rest t.gauge.tries ∨
      t.status.isTerminal = true ∧ 0 < t.point.rest t.gauge.tries)
    (f : Failure) : t.Tick r (t.abort f).gauge (t.abort f).point := by
  have hpos : 0 < t.point.rest t.gauge.tries := hrest.elim (by omega) And.right
  unfold abort
  split
  · rename_i hf
    have hopen : t.status.isTerminal = false := by
      simpa using (Bool.and_eq_true_iff.1 hf).2
    have hne : ¬t.status.isTerminal = true := by simp [hopen]
    exact cancelled_ticks (h.resolve_right hne) rfl (hrest.resolve_right fun ht => hne ht.1)
  · exact glide_ticks rfl rfl hpos

/-! ## Streaming -/

theorem readOn_ticks (h : t.Active) (hu : u.gauge = t.gauge)
    (hrest : 2 * t.gauge.tries + 5 ≤ t.point.rest t.gauge.tries) (p : Parser) :
    t.Tick r (u.readOn p).gauge (u.readOn p).point := by
  unfold readOn
  split
  · refine cancelled_ticks h hu ?_
    show 3 < _
    omega
  · refine glide_ticks hu rfl ?_
    show 2 * t.gauge.tries + 4 < _
    omega

theorem breakStream_ticks (h : t.Active) {p : Parser} (hp : t.point = .reading p) (q : Parser)
    (f : Failure) : t.Tick r (t.breakStream q f).gauge (t.breakStream q f).point := by
  unfold breakStream
  obtain ⟨he, hq⟩ := fail_ends (t := ((t.closeParser q).addErrors [generationFault f]).sayLine
    "TURN" ("❌ " ++ (generationFault f).message)) h .generationFailed .stream
  rw [hq]
  exact .breaks hp he

theorem applyParsed_ticks (h : t.Active) {p : Parser} {text : String}
    (hp : t.point = .tellingChunk p text) (hu : u.gauge = t.gauge) (base : BaseTree) (q : Parser)
    (ds : List Parsed) :
    t.Tick r (u.applyParsed base q ds).gauge (u.applyParsed base q ds).point := by
  unfold applyParsed
  generalize u.applier.applyBatch base u.config.session (ds.map .parsed) = x
  obtain ⟨a, b⟩ := x
  dsimp only
  split
  · exact glide_ticks hu rfl (by simp [hp, Point.rest])
  · split
    · exact glide_ticks (u := ((u.say b.entries).recordBatch a b).emit (.patch b.applied b.errors))
        hu rfl (by simp [hp, Point.rest])
    · exact readOn_ticks (u := (u.say b.entries).recordBatch a b) h hu (by simp [hp, Point.rest]) q

theorem takeText_ticks (h : t.Active) {p : Parser} {text : String}
    (hp : t.point = .tellingChunk p text) (base : BaseTree) :
    t.Tick r (t.takeText base p text).gauge (t.takeText base p text).point := by
  unfold takeText
  dsimp only
  split
  · exact glide_ticks (by rfl) rfl (by simp [hp, Point.rest])
  · split
    · exact readOn_ticks h (by rfl) (by simp [hp, Point.rest]) _
    · exact applyParsed_ticks h hp (by rfl) base _ _

/-! ## Checking -/

/-- A pause of no length can always be made. -/
theorem cannotPause_of_isZero {p : RetryPolicy} (h : p.delay.isZero = true) :
    p.cannotPause = false := by
  unfold RetryPolicy.cannotPause
  cases hd : p.delay with
  | real x => rfl
  | whole k =>
    have hk : k = 0 := by simpa [hd, Seconds.isZero] using h
    rw [hk]
    rfl

theorem callCheck_calls (t : Turn) (request : Snapshot) (failed : Nat) :
    t.gauge.Calls request failed (t.callCheck request failed).gauge
      (t.callCheck request failed).point := by
  unfold callCheck
  split
  · rename_i f hf
    exact .dismisses hf
  · rename_i hf
    exact .asks hf

theorem tryCheck_tries (h : t.Active) (request : Snapshot) (failed : Nat) (reason : String) :
    t.gauge.Tries request failed (t.tryCheck request failed reason).gauge
      (t.tryCheck request failed reason).point := by
  unfold tryCheck
  dsimp only
  split
  · rename_i ha
    split
    · rename_i hnow
      refine .calls ha (callCheck_calls (t.say _) request failed) ?_
      rw [Bool.or_eq_true, beq_iff_eq] at hnow
      exact hnow.imp_right cannotPause_of_isZero
    · rename_i hlater
      rw [Bool.or_eq_true, beq_iff_eq, not_or] at hlater
      split
      · rename_i hcannot
        rw [abort_of_ne (f := .clockOverflow) nofun]
        exact .overflows ha hlater.1 hcannot
      · rename_i hcan
        exact .pauses ha (Bool.eq_false_iff.2 hcan)
  · rename_i ha
    unfold giveUpCheck
    obtain ⟨he, hq⟩ := fail_ends
      (t := (t.say [RetryPolicy.givenUpEntry t.checkLabel]).addErrors
        [t.config.policy.givenUp reason]) h .checkerUnavailable .loop
    rw [hq]
    exact .givesUp (Bool.eq_false_iff.2 ha) he

theorem beginCheck_ticks {p : Parser} (hp : t.point = .closing (.ended p))
    (hu : u.gauge = { t.gauge with status := .checking }) :
    t.Tick r u.beginCheck.gauge u.beginCheck.point := by
  have hactive : u.Active := .inr (congrArg Gauge.status hu)
  have hbudget : u.budget = t.budget := congrArg Gauge.budget hu
  unfold beginCheck
  dsimp only
  split
  · rename_i b hb
    obtain ⟨he, hq⟩ := fail_ends (t := u.say u.budget.checkEntries) hactive .budgetExhausted
      .loop
    rw [hq]
    refine .denied hp (by rw [← hbudget, hb]) ?_
    rw [← hu]
    exact he
  · rename_i b hb
    have htries := tryCheck_tries (t := ({ u with budget := b }.say u.budget.checkEntries).sayLine
      "TYPECHECK" ("🔍 Check " ++ Budget.ratio b.checksUsed b.maxChecks)) hactive
      u.overlay.snapshot 0 ""
    have hgauge : { u.gauge with budget := b } =
        { t.gauge with status := .checking, budget := t.budget.useCheck.1 } := by
      rw [hu, ← hbudget, hb]
    refine .begins hp (by rw [← hbudget, hb]) u.overlay.snapshot ?_
    rw [← hgauge]
    exact htries

theorem endStream_ticks (hs : t.status = .streaming) {p : Parser}
    (hp : t.point = .closing (.ended p)) :
    t.Tick r (t.endStream p).gauge (t.endStream p).point := by
  unfold endStream
  dsimp only
  split
  · exact cancelled_ticks (.inl hs) (by rfl) (by simp [hp, Point.rest])
  · rw [moveTo_of_status (by exact hs) rfl]
    exact beginCheck_ticks hp rfl

theorem takeProblems_ticks (h : t.Active) {request : Snapshot} {failed : Nat}
    (hp : t.point = .checking request failed) (ps : List Problem) :
    t.Tick (.checked ps) (t.takeReply request failed (.problems ps)).gauge
      (t.takeReply request failed (.problems ps)).point := by
  show t.Tick _ (t.takeProblems ps).gauge (t.takeProblems ps).point
  unfold takeProblems
  dsimp only
  split
  · exact cancelled_ticks h rfl (by simp [hp, Point.rest])
  · exact .diagnoses hp rfl

theorem takeFailure_ticks (h : t.Active) {request : Snapshot} {failed : Nat}
    (hp : t.point.TryFails request failed r) (f : Failure) :
    t.Tick r (t.takeReply request failed (.failed f)).gauge
      (t.takeReply request failed (.failed f)).point := by
  have hrest : 1 < t.point.rest t.gauge.tries := by
    rcases hp with ⟨hp, -⟩ | ⟨g, hp⟩ <;> simp [hp, Point.rest]
  unfold takeReply
  split
  · rename_i ps ha
    cases f <;> cases ha
  · exact abort_ticks (.inl h) (.inl hrest) .cancelled
  · exact .retries hp (tryCheck_tries (t := t.say _) h request (failed + 1) _)

/-! ## Judging -/

theorem judged_ticks (hs : t.status = .checking) {ps : List Problem}
    (hp : t.point = .tellingDiagnostics ps) : t.Tick r (t.judged ps).gauge (t.judged ps).point := by
  unfold judged
  split
  · rename_i hn
    rw [List.isEmpty_iff.1 hn] at hp
    obtain ⟨he, hq⟩ := @finish_ends t _ .clean hs rfl .loop
    rw [hq]
    exact .cleans hp he
  · rename_i hn
    split
    · rename_i hc
      rw [repair_eq hs]
      cases repairDigest t.config.digestLimit ps with
      | ok digest => exact .repairs hp hc digest
      | error f => exact .undigested hp hc f
    · rename_i hc
      obtain ⟨he, hq⟩ := fail_ends
        (t := t.sayLine "REPAIR" (t.budget.exhaustionReport ps.length)) (.inr hs)
        .budgetExhausted .loop
      rw [hq]
      exact .exhausts hp (fun he => hn (List.isEmpty_iff.2 he)) (by simpa using hc) he

end Ticks

/-! ## One reply -/

/-- What an awaited reply makes of a turn is one of all that it can do to what the turn counts. -/
theorem Takes.ticks {t u : Turn} {base : BaseTree} {r : Reply} (hu : t.Takes base r u)
    (h : t.Placed) (hr : t.point.awaits r = true) : t.Tick r u.gauge u.point := by
  cases hu with
  | unawaited hno =>
    rw [hr] at hno
    cases hno
  | opened hp | patchTold hp =>
    have hs : t.status = .streaming := h.admits hp
    exact readOn_ticks (.inl hs) rfl (by simp [hp, Point.rest]) _
  | heard hp text => exact .hears hp rfl
  | broken hp =>
    have hs : t.status = .streaming := h.admits hp
    exact breakStream_ticks (.inl hs) hp _ _
  | textTold hp =>
    have hs : t.status = .streaming := h.admits hp
    exact takeText_ticks (.inl hs) hp base
  | closed hp =>
    have hs : t.status = .streaming := h.admits hp
    exact endStream_ticks hs hp
  | checked hp ps =>
    have hs : t.status = .checking := h.admits hp
    exact takeProblems_ticks (.inr hs) hp ps
  | unchecked hp f =>
    have hs : t.status = .checking := h.admits hp
    exact takeFailure_ticks (.inr hs) (.inl ⟨hp, f, rfl⟩) f
  | dismissed hp | undismissed hp =>
    have hs : t.status = .checking := h.admits hp
    exact takeFailure_ticks (.inr hs) (.inr ⟨_, hp⟩) _
  | rested hp => exact .resumes hp (callCheck_calls t _ _)
  | problemsTold hp =>
    have hs : t.status = .checking := h.admits hp
    exact judged_ticks hs hp
  -- the turn comes nearer to its end
  | ended hp | interrupted hp | textUntold hp | patchUntold hp | settled hp =>
    exact glide_ticks rfl rfl (by simp [hp, Point.rest])
  | @endTold frame hp =>
    cases frame <;> exact glide_ticks rfl rfl (by simp [hp, Point.rest, Frame.told])
  | @endUntold frame hp f =>
    cases frame <;> exact glide_ticks rfl rfl (by simp [hp, Point.rest, Frame.untold])
  -- a failure goes through
  | unopened hp f =>
    have hs : t.status = .streaming := h.admits hp
    exact abort_ticks (.inl (.inl hs)) (.inl (by simp [hp, Point.rest])) f
  | raised hp => exact abort_ticks (h.of_closing hp) (.inl (by simp [hp, Point.rest])) _
  | @unclosed why hp f =>
    refine abort_ticks (h.of_closing hp) ?_ f
    cases why with
    | settled => exact .inr ⟨h.admits hp, by simp [hp, Point.rest]⟩
    | ended | raising => exact .inl (by simp [hp, Point.rest])
  | unrested hp f | problemsUntold hp f =>
    have hs : t.status = .checking := h.admits hp
    exact abort_ticks (.inl (.inr hs)) (.inl (by simp [hp, Point.rest])) f

/-- **All that an awaited reply can do to what a turn counts**: `Tick` lists it. -/
theorem advance_ticks {t : Turn} (h : t.Placed) {r : Reply} (hr : t.point.awaits r = true)
    (base : BaseTree) : t.Tick r (t.advance base r).gauge (t.advance base r).point :=
  (takes_advance base t r).ticks h hr

end Turn

end StagedEdits
