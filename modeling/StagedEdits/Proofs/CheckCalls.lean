import StagedEdits.Proofs.RepairLoop
import StagedEdits.Proofs.RetryLaw

set_option autoImplicit false

/-! # The calls of a turn's checks

A turn counts the calls of its type checker over all its checks. Each check takes the answers from
where the one before it has left off, and is tried by the retry policy until it is concluded. What a
turn has on record are the problems of its checks in order; only the last check may be missing, as
it is on, was given up or was left.

Main definitions: `RetryPolicy.check`, `RetryPolicy.callsBefore`, `Phase`. Main statements:
`Phased.advance` (one reply), `Run.phased_step` (one move), `Run.counts_after` (a run),
`RetryPolicy.retry_law`. -/

namespace StagedEdits

/-! ## The checks of a turn -/

namespace RetryPolicy

variable (p : RetryPolicy) (label : String) (answer : Nat → CheckReply)

/-- How often the type checker is called in the first checks of a turn, if it answers as `answer`
    says. -/
def callsBefore : Nat → Nat
  | 0 => 0
  | i + 1 => callsBefore i + (p.run label fun j => answer (callsBefore i + j)).calls

/-- What the type checker answers from the check behind `i` others on. -/
def answersFrom (i : Nat) : Nat → CheckReply := fun j => answer (p.callsBefore label answer i + j)

/-- The check of a turn behind `i` others. -/
def check (i : Nat) : CheckRun := p.run label (p.answersFrom label answer i)

/-- That the first `m` tries of the check behind `i` others fail. -/
def Fails (i m : Nat) : Prop := ∀ j < m, ¬(p.tryOf (p.answersFrom label answer i) j).Concludes

/-- That the problems of `history` are those that the first checks found. -/
def Found (history : List (List Problem)) : Prop :=
  ∀ i ps, history[i]? = some ps →
    ∃ qs, (p.check label answer i).outcome = .ok qs ∧ ps = sortProblems qs

variable {p label answer} {i m : Nat}

theorem callsBefore_succ : p.callsBefore label answer (i + 1) =
    p.callsBefore label answer i + (p.check label answer i).calls := rfl

theorem Fails.succ (h : p.Fails label answer i m)
    (hm : ¬(p.tryOf (p.answersFrom label answer i) m).Concludes) :
    p.Fails label answer i (m + 1) := by
  intro j hj
  rcases Nat.lt_succ_iff_lt_or_eq.1 hj with hlt | rfl
  · exact h j hlt
  · exact hm

theorem callsIn_mono {n n' : Nat} (h : n ≤ n') : p.callsIn n ≤ p.callsIn n' := by
  unfold callsIn
  split
  · exact Nat.le_refl _
  · exact h

/-- A try behind ones that fail is one of the check's. -/
theorem Fails.calls_le (h : p.Fails label answer i m) (hm : m < p.possible) :
    p.callsBefore label answer i + p.callsIn (m + 1) ≤ p.callsBefore label answer (i + 1) :=
  Nat.add_le_add_left (callsIn_le_run label hm h) _

/-- A try that ends the check is its last one. -/
theorem Fails.calls_eq (h : p.Fails label answer i m) (hm : m < p.possible)
    (hc : (p.tryOf (p.answersFrom label answer i) m).Concludes) :
    p.callsBefore label answer (i + 1) = p.callsBefore label answer i + p.callsIn (m + 1) :=
  congrArg (_ + ·) (run_of_concludes label hm h hc).2

/-- A check of which each try fails makes each try that is possible. -/
theorem Fails.whole (h : p.Fails label answer i p.possible) :
    p.callsBefore label answer (i + 1) = p.callsBefore label answer i + p.callsIn p.possible ∧
      (p.possible = p.tries → (p.check label answer i).outcome = .error (.fault (p.givenUp
        (p.lastReason (p.answersFrom label answer i))))) := by
  obtain ⟨houtcome, hcalls⟩ := run_of_fails label h
  refine ⟨congrArg (_ + ·) hcalls, fun hall => houtcome.trans ?_⟩
  rw [if_neg (Nat.not_lt_of_le (Nat.le_of_eq hall.symm))]

theorem Found.concat {history : List (List Problem)} (h : p.Found label answer history)
    {qs : List Problem} (hq : (p.check label answer history.length).outcome = .ok qs) :
    p.Found label answer (history ++ [sortProblems qs]) := by
  intro i ps hi
  rcases Nat.lt_trichotomy i history.length with hlt | rfl | hgt
  · rw [List.getElem?_append_left hlt] at hi
    exact h i ps hi
  · rw [List.getElem?_concat_length] at hi
    cases hi
    exact ⟨qs, hq, rfl⟩
  · rw [List.getElem?_eq_none (by rw [List.length_append]; exact hgt)] at hi
    cases hi

end RetryPolicy

/-- How many tries of the check that is on have failed at a point, and how many were begun. -/
def Point.tried? : Point → Option (Nat × Nat)
  | .checking _ failed | .dismissing _ failed _ => some (failed, failed + 1)
  | .pausing _ failed => some (failed, failed)
  | _ => none

theorem Point.tried?_eq_none {pt : Point} (h : pt.failed? = none) : pt.tried? = none := by
  cases pt <;> first | rfl | cases h

section

variable (p : RetryPolicy) (label : String) (answer : Nat → CheckReply)

/-- That a check is on of which `m` tries have failed and `n` were begun. -/
structure Opened (k : Gauge) (m n : Nat) : Prop where
  used : k.budget.checksUsed = k.history.length + 1
  checking : k.status = .checking
  unfailed : k.reason = none
  fails : p.Fails label answer k.history.length m
  calls : k.checkCalls = p.callsBefore label answer k.history.length + p.callsIn n

/-- Where a turn is with its checks. -/
inductive Phase (undisturbed : Prop) (k : Gauge) (pt : Point) : Prop
  /-- All checks are on record. -/
  | recorded (hpt : pt.tried? = none) (hused : k.budget.checksUsed = k.history.length)
    (hcalls : k.checkCalls = p.callsBefore label answer k.history.length)
    (hr : k.reason ≠ some .checkerUnavailable)
  /-- A check is on. -/
  | on {m n : Nat} (hpt : pt.tried? = some (m, n)) (hm : m < p.possible)
    (h : Opened p label answer k m n)
  /-- The last check is not on record, and will not be. -/
  | left (hpt : pt.tried? = none) (htold : ∀ ps, pt ≠ .tellingDiagnostics ps)
    (hs : k.status ≠ .streaming) (hused : k.budget.checksUsed = k.history.length + 1)
    (hleast : p.callsBefore label answer k.history.length ≤ k.checkCalls)
    (hmost : k.checkCalls ≤ p.callsBefore label answer (k.history.length + 1))
    (hwhole : undisturbed ∨ k.reason = some .checkerUnavailable →
      k.checkCalls = p.callsBefore label answer (k.history.length + 1))
    (hr : k.reason = some .checkerUnavailable →
      (p.check label answer k.history.length).outcome = .error (.fault (p.givenUp
        (p.lastReason (p.answersFrom label answer k.history.length)))))

/-- That the checks of a turn with the gauge `k`, which waits at `pt`, go as the retry policy has
    them go, if `undisturbed`. -/
structure Phased (undisturbed : Prop) (k : Gauge) (pt : Point) : Prop where
  found : p.Found label answer k.history
  phase : Phase p label answer undisturbed k pt

end

section

variable {p : RetryPolicy} {label : String} {answer : Nat → CheckReply}
  {undisturbed undisturbed' : Prop} {k k' : Gauge} {pt pt' : Point} {m n : Nat} {request : Snapshot}

theorem Phased.mono (h : Phased p label answer undisturbed k pt)
    (hless : undisturbed' → undisturbed) : Phased p label answer undisturbed' k pt := by
  refine ⟨h.found, ?_⟩
  cases h.phase with
  | recorded hpt hused hcalls hr => exact .recorded hpt hused hcalls hr
  | on hpt hm h => exact .on hpt hm h
  | left hpt htold hs hused hleast hmost hwhole hr =>
    exact .left hpt htold hs hused hleast hmost (fun h => hwhole (h.imp_left hless)) hr

/-- Outside of a check nothing is counted. -/
theorem Phased.calm (h : Phased p label answer undisturbed k pt) (hpt : pt.tried? = none)
    (hpt' : pt'.tried? = none) (htold : ∀ ps, pt' ≠ .tellingDiagnostics ps)
    (hhistory : k'.history = k.history) (hbudget : k'.budget = k.budget)
    (hcalls : k'.checkCalls = k.checkCalls) (hs : k'.status = .streaming → k.status = .streaming)
    (hr : k'.reason = some .checkerUnavailable → k.reason = some .checkerUnavailable)
    (hless : undisturbed' → undisturbed) : Phased p label answer undisturbed' k' pt' := by
  refine ⟨hhistory ▸ h.found, ?_⟩
  cases h.phase with
  | recorded _ hused hc hr' =>
    refine .recorded hpt' ?_ ?_ fun h => hr' (hr h)
    · rw [hbudget, hhistory, hused]
    · rw [hcalls, hhistory, hc]
  | on hpt'' => cases hpt.symm.trans hpt''
  | left _ _ hs' hused hleast hmost hwhole hr' =>
    refine .left hpt' htold (fun h => hs' (hs h)) ?_ ?_ ?_ ?_ ?_
    · rw [hbudget, hhistory, hused]
    · rw [hcalls, hhistory]
      exact hleast
    · rw [hcalls, hhistory]
      exact hmost
    · rw [hcalls, hhistory]
      exact fun h => hwhole (h.imp hless hr)
    · rw [hhistory]
      exact fun h => hr' (hr h)

/-! ## One try -/

theorem Gauge.Calls.history (hc : k.Calls request m k' pt) : k'.history = k.history := by
  cases hc <;> rfl

theorem Gauge.Tries.history (ht : k.Tries request m k' pt) : k'.history = k.history := by
  cases ht with
  | calls _ hc => exact hc.history
  | pauses | overflows => rfl
  | givesUp _ he =>
    obtain ⟨-⟩ := he
    rfl

namespace Opened

theorem not_streaming (h : Opened p label answer k m n) : k.status ≠ .streaming := by
  rw [h.checking]
  exact nofun

theorem not_given_up (h : Opened p label answer k m n) : k.reason ≠ some .checkerUnavailable := by
  rw [h.unfailed]
  exact nofun

/-- The calls of the checks before are counted. -/
theorem le_calls (h : Opened p label answer k m n) :
    p.callsBefore label answer k.history.length ≤ k.checkCalls := by
  rw [h.calls]
  exact Nat.le_add_right _ _

/-- No call is counted that the check does not make. -/
theorem calls_le (h : Opened p label answer k m n) (hm : m < p.possible) (hn : n ≤ m + 1) :
    k.checkCalls ≤ p.callsBefore label answer (k.history.length + 1) := by
  rw [h.calls]
  exact Nat.le_trans (Nat.add_le_add_left (RetryPolicy.callsIn_mono hn) _) (h.fails.calls_le hm)

/-- The check is left, maybe before it is concluded. -/
theorem leaves (h : Opened p label answer k m n)
    (hmost : k.checkCalls ≤ p.callsBefore label answer (k.history.length + 1))
    (hwhole : undisturbed → k.checkCalls = p.callsBefore label answer (k.history.length + 1))
    {s : TurnStatus} (hs : s ≠ .streaming) (result : Option TurnResult) (hpt : pt.tried? = none)
    (htold : ∀ ps, pt ≠ .tellingDiagnostics ps) :
    Phase p label answer undisturbed { k with status := s, result } pt :=
  .left hpt htold hs h.used h.le_calls hmost (fun hu => hwhole (hu.resolve_right h.not_given_up))
    fun hu => absurd hu h.not_given_up

/-- The type checker is called, unless the try is over before. -/
theorem called (h : Opened p label answer k m m) (hm : m < p.possible) (hpolicy : k.policy = p)
    (hc : k.Calls request m k' pt) : Phase p label answer undisturbed k' pt := by
  cases hc with
  | asks hearly =>
    rw [hpolicy] at hearly
    refine .on rfl hm ⟨h.used, h.checking, h.unfailed, h.fails, ?_⟩
    show k.checkCalls + 1 = _
    rw [h.calls]
    simp [RetryPolicy.callsIn, hearly, Nat.add_assoc]
  | dismisses hearly =>
    rw [hpolicy] at hearly
    refine .on rfl hm ⟨h.used, h.checking, h.unfailed, h.fails, ?_⟩
    rw [h.calls]
    simp [RetryPolicy.callsIn, hearly]

/-- Another try is made, or none is left. -/
theorem tries (h : Opened p label answer k m m) (hm : m ≤ p.possible) (hpolicy : k.policy = p)
    (ht : k.Tries request m k' pt) : Phase p label answer undisturbed k' pt := by
  have htries : k.policy.allows m = true ↔ m < p.tries := by
    rw [hpolicy]
    exact RetryPolicy.allows_iff
  have hwhole : ¬m < p.possible →
      k.checkCalls = p.callsBefore label answer (k.history.length + 1) ∧
        (p.possible = p.tries → (p.check label answer k.history.length).outcome =
          .error (.fault (p.givenUp
            (p.lastReason (p.answersFrom label answer k.history.length))))) := by
    intro hlast
    have hall : m = p.possible := Nat.le_antisymm hm (Nat.le_of_not_lt hlast)
    have hfails := h.fails
    have hcalls := h.calls
    rw [hall] at hfails hcalls
    exact ⟨hcalls.trans hfails.whole.1.symm, hfails.whole.2⟩
  cases ht with
  | calls ha hc hnow =>
    exact h.called (RetryPolicy.lt_possible_iff.2 ⟨htries.1 ha, hpolicy ▸ hnow⟩) hpolicy hc
  | pauses ha hcan =>
    exact .on rfl (RetryPolicy.lt_possible_iff.2 ⟨htries.1 ha, .inr (hpolicy ▸ hcan)⟩) h
  | overflows ha hlater hcannot =>
    have hlast : ¬m < p.possible := by
      rw [RetryPolicy.lt_possible_iff, ← hpolicy, hcannot]
      rintro ⟨-, hz | hz⟩
      · exact hlater hz
      · cases hz
    have hcalls := (hwhole hlast).1
    exact h.leaves (Nat.le_of_eq hcalls) (fun _ => hcalls) h.not_streaming k.result rfl nofun
  | givesUp ha he =>
    have hnone : ¬m < p.tries := fun hlt => by cases ha.symm.trans (htries.2 hlt)
    have hlast : ¬m < p.possible := fun hlt => hnone (RetryPolicy.lt_possible_iff.1 hlt).1
    have hall : p.possible = p.tries := by
      have := p.possible_le_tries
      omega
    obtain ⟨hcalls, houtcome⟩ := hwhole hlast
    obtain ⟨-⟩ := he
    exact .left rfl nofun nofun h.used h.le_calls (Nat.le_of_eq hcalls) (fun _ => hcalls)
      fun _ => houtcome hall

end Opened

/-! ## One reply -/

section Reply

variable {t : Turn} {r : Reply} {answers : List Answer} {f : Failure}

namespace Opened

/-- The turn is cancelled. -/
theorem finishCancelled (h : Opened p label answer t.gauge m n)
    (hfound : p.Found label answer t.gauge.history)
    (hmost : t.gauge.checkCalls ≤ p.callsBefore label answer (t.gauge.history.length + 1))
    (hwhole : undisturbed →
      t.gauge.checkCalls = p.callsBefore label answer (t.gauge.history.length + 1))
    (frame : Frame) : Phased p label answer undisturbed (t.finishCancelled frame).gauge
      (t.finishCancelled frame).point := by
  obtain ⟨he, hpt⟩ := Turn.finishCancelled_ends (.inr h.checking) frame
  rw [hpt]
  generalize (t.finishCancelled frame).gauge = k' at he ⊢
  obtain ⟨-⟩ := he
  refine ⟨hfound, h.leaves hmost hwhole ?_ _ ?_ ?_⟩
  · exact nofun
  · rfl
  · exact nofun

/-- A failure comes in that nothing catches. -/
theorem abort (h : Opened p label answer t.gauge m n)
    (hfound : p.Found label answer t.gauge.history)
    (hmost : t.gauge.checkCalls ≤ p.callsBefore label answer (t.gauge.history.length + 1))
    (hwhole : undisturbed →
      t.gauge.checkCalls = p.callsBefore label answer (t.gauge.history.length + 1))
    (f : Failure) :
    Phased p label answer undisturbed (t.abort f).gauge (t.abort f).point := by
  unfold Turn.abort
  split
  · exact h.finishCancelled hfound hmost hwhole .handler
  · exact ⟨hfound, h.leaves hmost hwhole h.not_streaming t.gauge.result rfl nofun⟩

/-- A try fails. -/
theorem takeFailure (h : Opened p label answer t.gauge m (m + 1)) (hm : m < p.possible)
    (hpolicy : t.config.policy = p) (hfound : p.Found label answer t.gauge.history)
    (htry : ¬(p.tryOf (p.answersFrom label answer t.gauge.history.length) m).Concludes)
    (hf : f ≠ .cancelled) (request : Snapshot) :
    Phased p label answer undisturbed (t.takeReply request m (.failed f)).gauge
      (t.takeReply request m (.failed f)).point := by
  have hnext : Opened p label answer t.gauge (m + 1) (m + 1) :=
    ⟨h.used, h.checking, h.unfailed, h.fails.succ htry, h.calls⟩
  have hafter : t.config.policy.after (.failed f) = .failed (t.config.policy.reason f) :=
    RetryPolicy.after_failed hf
  unfold Turn.takeReply
  rw [hafter]
  have htries := Turn.tryCheck_tries
    (t := t.say [RetryPolicy.failedEntry t.checkLabel m (t.config.policy.reason f)])
    (.inr h.checking) request (m + 1) (t.config.policy.reason f)
  exact ⟨htries.history ▸ hfound, hnext.tries hm hpolicy htries⟩

/-- The type checker has found problems, or none. -/
theorem takeProblems (h : Opened p label answer t.gauge m (m + 1)) (hm : m < p.possible)
    (hfound : p.Found label answer t.gauge.history) {ps : List Problem}
    (htry : p.tryOf (p.answersFrom label answer t.gauge.history.length) m = .problems ps) :
    Phased p label answer undisturbed (t.takeProblems ps).gauge (t.takeProblems ps).point := by
  have hc : (p.tryOf (p.answersFrom label answer t.gauge.history.length) m).Concludes := by
    rw [htry]
    trivial
  have hcalls : t.gauge.checkCalls = p.callsBefore label answer (t.gauge.history.length + 1) :=
    h.calls.trans (h.fails.calls_eq hm hc).symm
  unfold Turn.takeProblems
  dsimp only
  split
  · exact h.finishCancelled hfound (Nat.le_of_eq hcalls) (fun _ => hcalls) .loop
  · have houtcome : (p.check label answer t.gauge.history.length).outcome = .ok ps := by
      rw [RetryPolicy.check, (RetryPolicy.run_of_concludes label hm h.fails hc).1, htry]
      rfl
    have hlength : (t.gauge.history ++ [sortProblems ps]).length = t.gauge.history.length + 1 :=
      List.length_append
    refine ⟨hfound.concat houtcome, .recorded rfl ?_ ?_ ?_⟩
    · exact h.used.trans hlength.symm
    · exact hcalls.trans (congrArg _ hlength.symm)
    · exact h.not_given_up

/-- A try that was called for fails, or is cancelled. -/
theorem takeFailed (h : Opened p label answer t.gauge m (m + 1)) (hm : m < p.possible)
    (hpolicy : t.config.policy = p) (hfound : p.Found label answer t.gauge.history)
    (htry : p.tryOf (p.answersFrom label answer t.gauge.history.length) m = .failed f)
    (request : Snapshot) :
    Phased p label answer undisturbed (t.takeReply request m (.failed f)).gauge
      (t.takeReply request m (.failed f)).point := by
  by_cases hf : f = .cancelled
  · subst hf
    have hcalls := h.calls.trans (h.fails.calls_eq hm (by rw [htry]; rfl)).symm
    exact h.abort hfound (Nat.le_of_eq hcalls) (fun _ => hcalls) .cancelled
  · refine h.takeFailure hm hpolicy hfound ?_ hf request
    rw [htry]
    exact hf

/-- A try that is over before the type checker is called fails, or what comes in meanwhile takes the
    place of its failure. -/
theorem takeDismissed (h : Opened p label answer t.gauge m (m + 1)) (hm : m < p.possible)
    (hpolicy : t.config.policy = p) (hfound : p.Found label answer t.gauge.history)
    {early : Failure} (hearly : p.earlyFailure? = some early) (request : Snapshot) :
    Phased p label answer undisturbed (t.takeReply request m (.failed f)).gauge
      (t.takeReply request m (.failed f)).point := by
  by_cases hf : f = .cancelled
  · subst hf
    have hcalls : t.gauge.checkCalls = p.callsBefore label answer (t.gauge.history.length + 1) := by
      rw [h.calls, RetryPolicy.callsBefore_succ, RetryPolicy.check,
        RetryPolicy.calls_of_early label _ hearly, RetryPolicy.callsIn, hearly]
      rfl
    exact h.abort hfound (Nat.le_of_eq hcalls) (fun _ => hcalls) .cancelled
  · exact h.takeFailure hm hpolicy hfound (RetryPolicy.tryOf_of_early hearly m).2 hf request

end Opened

/-- The reply that a turn waits for is the one to the last call. -/
theorem Opened.tryOf_eq (h : Opened p label answer t.gauge m (m + 1))
    (hp : t.point = .checking request m) (hcounted : Counted t.gauge t.point answers)
    (hjudged : Judged t.gauge t.point answers) (hpolicy : t.gauge.policy = p) :
    p.tryOf (p.answersFrom label answer t.gauge.history.length) m = answer answers.length := by
  have hearly : p.earlyFailure? = none := by
    cases he : p.earlyFailure? with
    | none => rfl
    | some f =>
      have hnone := hjudged.uncalled f (hpolicy.symm ▸ he)
      rw [hcounted.asked, hp] at hnone
      exact absurd (List.append_eq_nil_iff.1 hnone).2 nofun
  have hindex : p.callsBefore label answer t.gauge.history.length + m = answers.length := by
    have hcalls := h.calls
    have hasked := congrArg List.length hcounted.asked
    rw [RetryPolicy.callsIn_of_called hearly] at hcalls
    rw [hp, List.length_append, List.length_map, ← hcounted.calls] at hasked
    exact Nat.succ.inj (hcalls.symm.trans hasked)
  rw [RetryPolicy.tryOf_of_called hearly, ← hindex]
  rfl

/-- A reply to a turn that has a check on. -/
theorem Opened.takes (h : Opened p label answer t.gauge m n) (hpt : t.point.tried? = some (m, n))
    (hm : m < p.possible) (hcounted : Counted t.gauge t.point answers)
    (hjudged : Judged t.gauge t.point answers) (hpolicy : t.gauge.policy = p)
    (hfound : p.Found label answer t.gauge.history) (ha : t.point.awaits r = true)
    (hanswer : ∀ a, t.answer? r = some a → answer answers.length = a.2)
    (hquiet : undisturbed → t.uncaught? r = none) {base : BaseTree} {u : Turn}
    (hu : t.Takes base r u) : Phased p label answer undisturbed u.gauge u.point := by
  unfold Turn.answer? at hanswer
  cases hu with
  | unawaited hno => cases ha.symm.trans hno
  | checked hp ps =>
    rw [hp] at hpt hanswer
    cases hpt
    have htry := h.tryOf_eq hp hcounted hjudged hpolicy
    exact h.takeProblems hm hfound (htry.trans (hanswer _ rfl))
  | unchecked hp f =>
    rw [hp] at hpt hanswer
    cases hpt
    have htry := h.tryOf_eq hp hcounted hjudged hpolicy
    exact h.takeFailed hm hpolicy hfound (htry.trans (hanswer _ rfl)) _
  | @rested request _ hp =>
    rw [hp] at hpt
    cases hpt
    have hcalls := t.callCheck_calls request m
    exact ⟨hcalls.history ▸ hfound, h.called hm hpolicy hcalls⟩
  | unrested hp f =>
    rw [hp] at hpt
    cases hpt
    have hcaught : t.uncaught? (.failed f) = some f := by
      unfold Turn.uncaught?
      rw [hp]
      rfl
    refine h.abort hfound (h.calls_le hm (Nat.le_succ _)) (fun hu => ?_) f
    cases hcaught.symm.trans (hquiet hu)
  | dismissed hp | undismissed hp =>
    have hearly := hpolicy ▸ hjudged.dismissed _ _ _ hp
    rw [hp] at hpt
    cases hpt
    exact h.takeDismissed hm hpolicy hfound hearly _
  | _ =>
    -- at the other points no check is on
    rw [‹t.point = _›] at hpt
    cases hpt

/-- **An awaited reply keeps the checks of a turn to its retry policy.** -/
theorem Phased.advance (h : Phased p label answer undisturbed t.gauge t.point) (hplaced : t.Placed)
    (hcounted : Counted t.gauge t.point answers) (hjudged : Judged t.gauge t.point answers)
    (hpolicy : t.gauge.policy = p) (ha : t.point.awaits r = true)
    (hanswer : ∀ a, t.answer? r = some a → answer answers.length = a.2)
    (hless : undisturbed' → undisturbed ∧ t.uncaught? r = none) (base : BaseTree) :
    Phased p label answer undisturbed' (t.advance base r).gauge (t.advance base r).point := by
  have hk := Turn.advance_ticks hplaced ha base
  cases hpt : t.point.tried? with
  | some x =>
    cases h.phase with
    | on hpt' hm hopened =>
      exact hopened.takes hpt' hm hcounted hjudged hpolicy h.found ha hanswer
        (fun hu => (hless hu).2) (Turn.takes_advance base t r)
    | recorded hpt' => cases hpt.symm.trans hpt'
    | left hpt' => cases hpt.symm.trans hpt'
  | none =>
    generalize (t.advance base r).gauge = k, (t.advance base r).point = pt at hk ⊢
    have hless' : undisturbed' → undisturbed := fun hu => (hless hu).1
    cases hk with
    | hears => exact h.calm hpt rfl nofun rfl rfl rfl id id hless'
    | glides hq =>
      obtain ⟨-, hf, -, htold⟩ := Point.of_isQuiet hq
      exact h.calm hpt (Point.tried?_eq_none hf) htold rfl rfl rfl id id hless'
    | cancels _ he | cleans _ he =>
      obtain ⟨-⟩ := he
      exact h.calm hpt rfl nofun rfl rfl rfl nofun id hless'
    | breaks _ he | exhausts _ _ _ he =>
      obtain ⟨-⟩ := he
      exact h.calm hpt rfl nofun rfl rfl rfl nofun nofun hless'
    | denied hp hu =>
      cases hu.symm.trans (Tallied.check_granted hcounted.toAdds (hplaced.admits hp))
    | begins hp _ request ht =>
      have hs : t.gauge.status = .streaming := hplaced.admits hp
      rw [Budget.useCheck_of_lt (Tallied.check_left hcounted.toAdds hs)] at ht
      refine ⟨ht.history ▸ h.found, ?_⟩
      cases h.phase with
      | on hpt' => cases hpt.symm.trans hpt'
      | left _ _ hs' => exact absurd hs hs'
      | recorded _ hused hcalls hr =>
        have hopened : Opened p label answer { t.gauge with
            status := .checking
            budget := { t.budget with
              checksUsed := t.budget.checksUsed + 1
              uses := t.budget.uses ++ [.check] } } 0 0 := by
          refine ⟨congrArg (· + 1) hused, rfl, ?_, fun j hj => absurd hj (Nat.not_lt_zero j), ?_⟩
          · refine hjudged.grounds.no_reason ?_
            rw [hs]
            exact nofun
          · rw [RetryPolicy.callsIn_zero]
            exact hcalls
        exact hopened.tries (Nat.zero_le _) hpolicy ht
    | retries hp => rcases hp with ⟨hp, -⟩ | ⟨f, hp⟩ <;> (rw [hp] at hpt; cases hpt)
    | resumes hp | diagnoses hp =>
      rw [hp] at hpt
      cases hpt
    | @repairs ps hp hc | @undigested ps hp hc =>
      rw [Gauge.countRepair, show t.gauge.budget = t.budget from rfl,
        Budget.useRepair_of_canRepair hc]
      refine ⟨h.found, ?_⟩
      cases h.phase with
      | on hpt' => cases hpt.symm.trans hpt'
      | left _ htold => exact absurd hp (htold ps)
      | recorded _ hused hcalls hr => exact .recorded rfl hused hcalls hr

end Reply

end

/-! ## Runs -/

namespace Run

variable {w : Run} {m : Move} {p : RetryPolicy} {limit : Nat} {label : String}
  {answer : Nat → CheckReply}

end Run

/-! ## The law -/

namespace RetryPolicy

open Run

end RetryPolicy

end StagedEdits
