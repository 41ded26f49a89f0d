import StagedEdits.Proofs.CancelRequest

set_option autoImplicit false

/-! # Commits one after the other

A caller may commit a turn, wait for the committer, and try again if it failed. As long as each
call is waited for before the next one is made, nothing is lost on the way: a call that is refused
or that fails leaves the turn as it was, so that every committer is handed the same overlay, and
behind the one that went through no committer is reached any more.

Main definitions: `CommitAttempt`, `Turn.attempt`, `Turn.attempts`. Main statements:
`Turn.refusal?_eq_none_iff`, `Turn.attempt_cases` (one call), `Turn.afterAttempts_kept` (calls in a
row), `Turn.commits_can_be_retried`. -/

namespace StagedEdits

/-! ## Calls that are waited for -/

/-- What takes a `Snapshot` over to commit it: what it says, and what it comes to. -/
abbrev Committer := Snapshot → List Entry × Except Failure CommitReport

/-- A call to commit a turn that is waited for. -/
structure CommitAttempt where
  /-- Whether the caller insists. -/
  force : Bool
  committer : Committer

/-- What a `CommitAttempt` came to. -/
structure Attempted where
  /-- The turn behind the call. -/
  turn : Turn
  /-- What the committer was handed, if it was reached. -/
  handedOver : Option Snapshot
  outcome : Except Failure CommitReport

/-- That the call which came to `r` went through. -/
def Attempted.Succeeded (r : Attempted) : Prop := ∃ report, r.outcome = .ok report

namespace Turn

/-- Makes the call `a` to commit `t` and waits for the committer, if it is reached. -/
def attempt (t : Turn) (a : CommitAttempt) : Attempted :=
  match t.beginCommit a.force with
  | .error f => ⟨t, none, .error (.fault f)⟩
  | .ok h =>
    let (said, outcome) := a.committer h.snapshot
    ⟨(t.say said).endCommit h outcome, some h.snapshot, outcome⟩

/-- The turn `t` behind the calls `as`, each made when the one before was over. -/
def afterAttempts (t : Turn) (as : List CommitAttempt) : Turn :=
  as.foldl (fun t a => (t.attempt a).turn) t

/-- What some calls came to, each made from what the one before left of `t`. -/
def attempts (t : Turn) : List CommitAttempt → List Attempted
  | [] => []
  | a :: as => t.attempt a :: (t.attempt a).turn.attempts as

/-- To commit a turn into a project directory is one such call. -/
theorem commit_eq_attempt (t : Turn) (sabotage : Sabotage) (d : Disk) (root : FilePath)
    (force : Bool) :
    let r := t.attempt ⟨force, fun s =>
      ((commitSnapshot sabotage d root s).entries, (commitSnapshot sabotage d root s).outcome)⟩
    (t.commit sabotage d root force).1 = r.turn ∧
      (t.commit sabotage d root force).2.2 = r.outcome := by
  unfold commit attempt
  cases t.beginCommit force with
  | error f => exact ⟨rfl, rfl⟩
  | ok h => exact ⟨rfl, rfl⟩

/-! ## One call -/

/-- **A turn may be committed** just if it was not, and ended clean, or failed and the caller
    insists by `force`. -/
theorem refusal?_eq_none_iff {t : Turn} {force : Bool} :
    t.refusal? force = none ↔
      t.committed = false ∧ (t.status = .clean ∨ t.status = .failed ∧ force = true) := by
  unfold refusal?
  cases t.committed with
  | true => exact ⟨nofun, fun h => absurd h.1 nofun⟩
  | false => cases t.status <;> cases force <;> decide

/-- All that a call can come to: it is refused, or the committer is handed the overlay and fails, or
    the commit goes through. Only the last changes the turn, apart from what is said. -/
theorem attempt_cases (t : Turn) (a : CommitAttempt) :
    (∃ r, t.refusal? a.force = some r ∧
      t.attempt a = ⟨t, none, .error (.fault (.commitRefused t.status.text r.reason))⟩) ∨
    t.refusal? a.force = none ∧ ∃ u outcome, (a.committer t.overlay.snapshot).2 = outcome ∧
      t.attempt a = ⟨u, some t.overlay.snapshot, outcome⟩ ∧ u.status = t.status ∧
      ((∃ f, outcome = .error f ∧ u.overlay = t.overlay ∧ u.committed = t.committed) ∨
        ∃ report, outcome = .ok report ∧ u.overlay = Overlay.empty ∧ u.committed = true) := by
  unfold attempt beginCommit
  cases hr : t.refusal? a.force with
  | some r => exact .inl ⟨r, rfl, rfl⟩
  | none =>
    refine .inr ⟨rfl, ?_⟩
    dsimp only
    cases ho : (a.committer t.overlay.snapshot).2 with
    | error f => exact ⟨_, _, rfl, rfl, rfl, .inl ⟨f, rfl, rfl, rfl⟩⟩
    | ok report => exact ⟨_, _, rfl, rfl, rfl, .inr ⟨report, rfl, rfl, rfl⟩⟩

/-- A turn that is committed refuses. -/
theorem attempt_of_committed {t : Turn} (h : t.committed = true) (a : CommitAttempt) :
    t.attempt a = ⟨t, none,
      .error (.fault (.commitRefused t.status.text CommitRefusal.alreadyCommitted.reason))⟩ := by
  have hr : t.refusal? a.force = some .alreadyCommitted := if_pos h
  unfold attempt beginCommit
  rw [hr]

/-! ## Calls in a row -/

/-- What calls in a row that came to `rs` leave of `t`: its status, and as long as none went through
    its overlay and that it is not committed. -/
structure KeptBy (t u : Turn) (rs : List Attempted) : Prop where
  status : u.status = t.status
  overlay : (∀ r ∈ rs, ¬r.Succeeded) → u.overlay = t.overlay
  uncommitted : u.committed = false ↔ t.committed = false ∧ ∀ r ∈ rs, ¬r.Succeeded

theorem attempt_kept (t : Turn) (a : CommitAttempt) :
    t.KeptBy (t.attempt a).turn [t.attempt a] := by
  -- a call that did not go through
  have hfails {r : Attempted} {f : Failure} (hs : r.turn.status = t.status)
      (ho : r.turn.overlay = t.overlay) (hc : r.turn.committed = t.committed)
      (hr : r.outcome = .error f) : t.KeptBy r.turn [r] := by
    have hnot : ¬r.Succeeded := by
      rintro ⟨report, hok⟩
      cases hr.symm.trans hok
    refine ⟨hs, fun _ => ho, ?_⟩
    rw [hc, List.forall_mem_singleton, and_iff_left hnot]
  rcases t.attempt_cases a with ⟨r, -, he⟩ | ⟨-, u, outcome, -, he, hs, h⟩
  · rw [he]
    exact hfails rfl rfl rfl rfl
  · rw [he]
    rcases h with ⟨f, hf, ho, hc⟩ | ⟨report, hok, -, hc⟩
    · exact hfails hs ho hc hf
    · have hgood : Attempted.Succeeded ⟨u, some t.overlay.snapshot, outcome⟩ := ⟨report, hok⟩
      refine ⟨hs, fun h => absurd hgood (h _ List.mem_cons_self), ?_⟩
      rw [hc, List.forall_mem_singleton]
      exact ⟨nofun, fun h => absurd hgood h.2⟩

/-- **Calls in a row leave a turn as it was until one goes through**: the turn behind `as` is
    `KeptBy` what they came to. -/
theorem afterAttempts_kept (t : Turn) (as : List CommitAttempt) :
    t.KeptBy (t.afterAttempts as) (t.attempts as) := by
  induction as generalizing t with
  | nil => exact ⟨rfl, fun _ => rfl, ⟨fun h => ⟨h, List.forall_mem_nil _⟩, And.left⟩⟩
  | cons a as ih =>
    have hfirst := t.attempt_kept a
    have hrest := ih (t.attempt a).turn
    refine ⟨hrest.status.trans hfirst.status, fun h => ?_, ?_⟩
    · obtain ⟨ha, has⟩ := List.forall_mem_cons.1 h
      exact (hrest.overlay has).trans (hfirst.overlay (List.forall_mem_singleton.2 ha))
    · rw [attempts, List.forall_mem_cons, ← and_assoc]
      refine hrest.uncommitted.trans (and_congr_left fun _ => ?_)
      rw [hfirst.uncommitted, List.forall_mem_singleton]

theorem afterAttempts_of_committed {t : Turn} (h : t.committed = true) (as : List CommitAttempt) :
    t.afterAttempts as = t := by
  induction as with
  | nil => rfl
  | cons a as ih =>
    show (t.attempt a).turn.afterAttempts as = t
    rw [t.attempt_of_committed h a]
    exact ih

end Turn

/-! ## Runs -/

/-- Whether a move is the end of a commit. -/
def Move.endsCommit : Move → Bool
  | .committed .. => true
  | _ => false

namespace Run

/-- No move but the end of a commit marks a turn as committed. -/
theorem uncommitted_step {w : Run} {m : Move} (hm : m.endsCommit = false)
    (hplaced : w.turn.Placed) : (w.step m).turn.committed = w.turn.committed := by
  cases m with
  | start prompt =>
    rcases w.step_start prompt with ⟨u, hu, -, hc, -⟩ | hu
    · rw [hu]
      exact congrArg Course.committed hc
    · rw [hu]
  | reply base r => exact (Turn.advance_next hplaced base r).committed
  | cancel => exact congrArg Course.committed w.turn.cancel_course
  | replay base log =>
    obtain ⟨a, ds, hc, -⟩ := w.turn.replay_course base log
    exact congrArg Course.committed hc
  | discard => rfl
  | handOver force => rcases w.step_handOver force with ⟨o, -, hw⟩ | hw <;> rw [hw]
  | committed index outcome => cases hm

/-- A turn is not committed until a commit has come to its end. -/
theorem uncommitted_after {config : TurnConfig} {maxAttempts : Int} {t : Turn}
    (ht : Turn.new? config maxAttempts = some t) {moves : List Move}
    (hmoves : ∀ m ∈ moves, m.endsCommit = false) :
    ((new t).after moves).turn.committed = false := by
  have hinit : (new t).turn.Placed ∧ (new t).turn.committed = false :=
    ⟨(new_waits ht).placed, (new_waits ht).uncommitted⟩
  refine (after_invariant (P := fun w => w.turn.Placed ∧ w.turn.committed = false)
    (fun w m hm h => ⟨placed_step h.1 m, ?_⟩) hinit).2
  rw [uncommitted_step (hmoves m hm) h.1, h.2]

end Run

/-! ## Trying again -/

namespace Turn

/-- **A commit that failed can be tried again.** Let `t` be called to be committed any number of
    times `earlier`, each call waited for. The committer is reached by `a` exactly if no call before
    `Succeeded` and the turn ended clean, or failed and the caller insists; so never from a turn
    that streams, is checked or repaired, or was cancelled. Whenever it is reached it is handed the
    overlay that `t` had at first. A call that is refused, and one whose committer fails, leaves the
    overlay, the status and the mark `committed` as they were. The first one that goes through
    empties the overlay, and every call from then on is refused. Before the first call the mark is
    not set, whatever else was done with the turn so far. -/
theorem commits_can_be_retried (t : Turn) (earlier : List CommitAttempt) (a : CommitAttempt) :
    let u := t.afterAttempts earlier
    let r := u.attempt a
    (r.handedOver.isSome ↔ t.committed = false ∧ (∀ e ∈ t.attempts earlier, ¬e.Succeeded) ∧
      (t.status = .clean ∨ t.status = .failed ∧ a.force = true)) ∧
    (r.handedOver = none →
      ∃ reason, r.outcome = .error (.fault (.commitRefused t.status.text reason))) ∧
    (∀ s, r.handedOver = some s → s = t.overlay.snapshot ∧ r.outcome = (a.committer s).2) ∧
    (¬r.Succeeded → r.turn.overlay = u.overlay ∧ r.turn.status = u.status ∧
      r.turn.committed = u.committed) ∧
    (r.Succeeded → r.turn.overlay = Overlay.empty ∧ ∀ later b,
      r.turn.afterAttempts later = r.turn ∧ r.turn.attempt b = ⟨r.turn, none, .error (.fault
        (.commitRefused r.turn.status.text CommitRefusal.alreadyCommitted.reason))⟩) ∧
    ∀ config maxAttempts t₀ moves, Turn.new? config maxAttempts = some t₀ →
      (∀ m ∈ moves, m.endsCommit = false) → t = ((Run.new t₀).after moves).turn →
      t.committed = false := by
  intro u r
  have hkept := t.afterAttempts_kept earlier
  have hreached : u.refusal? a.force = none ↔
      t.committed = false ∧ (∀ e ∈ t.attempts earlier, ¬e.Succeeded) ∧
        (t.status = .clean ∨ t.status = .failed ∧ a.force = true) := by
    rw [refusal?_eq_none_iff, hkept.uncommitted, hkept.status, and_assoc]
  have hruns (config maxAttempts t₀ moves) (ht : Turn.new? config maxAttempts = some t₀)
      (hmoves : ∀ m ∈ moves, m.endsCommit = false) (he : t = ((Run.new t₀).after moves).turn) :
      t.committed = false := he ▸ Run.uncommitted_after ht hmoves
  rcases u.attempt_cases a with ⟨reason, hr, he⟩ | ⟨hr, v, outcome, hout, he, hs, h⟩
  · have hno := mt hreached.2 (hr ▸ nofun)
    have hcall : r = _ := he
    rw [hcall]
    refine ⟨⟨nofun, fun h => absurd h hno⟩, fun _ => ⟨reason.reason, ?_⟩, nofun,
      fun _ => ⟨rfl, rfl, rfl⟩, ?_, hruns⟩
    · rw [hkept.status]
    · rintro ⟨report, hok⟩
      cases hok
  · have hreach := hreached.1 hr
    have hsnapshot : u.overlay.snapshot = t.overlay.snapshot := by rw [hkept.overlay hreach.2.1]
    have hcall : r = _ := he
    rw [hcall]
    refine ⟨⟨fun _ => hreach, fun _ => rfl⟩, nofun, ?_, ?_, ?_, hruns⟩
    · rintro s ⟨⟩
      exact ⟨hsnapshot, hout.symm⟩
    · intro hnot
      rcases h with ⟨f, -, ho, hc⟩ | ⟨report, hok, -⟩
      · exact ⟨ho, hs, hc⟩
      · exact absurd ⟨report, hok⟩ hnot
    · rintro ⟨report, hok⟩
      rcases h with ⟨f, hf, -⟩ | ⟨report, -, ho, hc⟩
      · cases hf.symm.trans hok
      · exact ⟨ho, fun later b =>
          ⟨afterAttempts_of_committed hc later, v.attempt_of_committed hc b⟩⟩

end Turn

end StagedEdits
