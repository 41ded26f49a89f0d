import StagedEdits.Proofs.TurnRun

set_option autoImplicit false

/-! # Overlapping commits

A call to commit a turn looks whether the turn may be committed, hands the overlay over, and waits;
only when the committer has come to its end does the call mark the turn as committed. Calls that
come in between find the turn uncommitted. So of calls that overlap every one can be let through,
each with the same overlay, and every one can report; calls are exclusive exactly where none is let
through while the committer is still at an earlier one.

Main definitions: `CommitCall`, `Commits`, `Commits.Exclusive`, `Commits.Overlaps`. Main statements:
`Commits.exclusive_iff_not_overlaps`, `Commits.both_report`. -/

namespace StagedEdits

/-! ## Calls -/

/-- Where one call to commit a turn stands. -/
inductive CommitCall where
  | refused (f : Fault)
  /-- The overlay was handed over, and the committer is at it. -/
  | pending (h : Turn.Handover)
  | raised (f : Failure)
  | reported (report : CommitReport)

namespace CommitCall

/-- Whether the committer is at the overlay that a call has handed over. -/
def isPending : CommitCall → Bool
  | .pending _ => true
  | _ => false

/-- Whether a call has handed the overlay over and not failed. -/
def isGood : CommitCall → Bool
  | .pending _ | .reported _ => true
  | _ => false

theorem isGood_of_isPending (call : CommitCall) (h : call.isPending = true) :
    call.isGood = true := by
  cases call with
  | pending => rfl
  | _ => cases h

end CommitCall

/-- What can happen among the calls to commit a turn. -/
inductive CommitMove where
  /-- One more call is made, and runs until it waits for the committer or is refused. -/
  | call (force : Bool)
  /-- The committer has come to its end for a call, which then runs to its own end. -/
  | settle (index : Nat) (outcome : Except Failure CommitReport)

/-- A turn and all calls to commit it that were made, in their order. -/
structure Commits where
  turn : Turn
  calls : List CommitCall

namespace Commits

/-- No call to commit `t` was made. -/
def new (t : Turn) : Commits := ⟨t, []⟩

/-- The calls `c` after one more move. A committer that is not at a call does not settle it. -/
def step (c : Commits) : CommitMove → Commits
  | .call force =>
    match c.turn.beginCommit force with
    | .error f => { c with calls := c.calls ++ [.refused f] }
    | .ok h => { c with calls := c.calls ++ [.pending h] }
  | .settle index outcome =>
    match c.calls[index]? with
    | some (.pending h) =>
      { turn := c.turn.endCommit h outcome
        calls := c.calls.set index
          (match outcome with
          | .ok report => .reported report
          | .error f => .raised f) }
    | _ => c

/-- The calls `c` after `moves`. -/
def after (c : Commits) (moves : List CommitMove) : Commits := moves.foldl step c

/-- That a move of `c` hands the overlay over. -/
def HandsOver (c : Commits) : CommitMove → Prop
  | .call force => ∃ h, c.turn.beginCommit force = .ok h
  | .settle .. => False

/-- That from `c` on the overlay is handed over only after all earlier hand-overs have failed. -/
def Exclusive (c : Commits) : List CommitMove → Prop
  | [] => True
  | m :: moves => (c.HandsOver m → ∀ call ∈ c.calls, call.isGood = false) ∧
    (c.step m).Exclusive moves

/-- That from `c` on the overlay is handed over at some time while the committer is still at an
    earlier hand-over. -/
def Overlaps (c : Commits) : List CommitMove → Prop
  | [] => False
  | m :: moves => (c.HandsOver m ∧ ∃ call ∈ c.calls, call.isPending = true) ∨
    (c.step m).Overlaps moves

/-- What holds among calls to commit a turn whose overlay came to `snapshot` at first. -/
structure Told (c : Commits) (snapshot : Snapshot) : Prop where
  /-- As long as no commit went through, the overlay is as it was. -/
  uncommitted : c.turn.committed = false → c.turn.overlay.snapshot = snapshot
  /-- A report tells of a commit that went through. -/
  committed : ∀ report, .reported report ∈ c.calls → c.turn.committed = true
  handedOver : ∀ h, .pending h ∈ c.calls → h.snapshot = snapshot

section Step

variable {c : Commits} {snapshot : Snapshot}

/-- A call is added, which is pending if the overlay is handed over. -/
theorem step_call (c : Commits) (force : Bool) :
    (∃ f, c.turn.beginCommit force = .error f ∧
      c.step (.call force) = { c with calls := c.calls ++ [.refused f] }) ∨
    ∃ h, c.turn.beginCommit force = .ok h ∧
      c.step (.call force) = { c with calls := c.calls ++ [.pending h] } := by
  simp only [step]
  cases c.turn.beginCommit force with
  | error f => exact .inl ⟨f, rfl, rfl⟩
  | ok h => exact .inr ⟨h, rfl, rfl⟩

/-- A call that is settled was pending, and reports or raises. -/
theorem step_settle (c : Commits) (index : Nat) (outcome : Except Failure CommitReport) :
    c.step (.settle index outcome) = c ∨ ∃ h, c.calls[index]? = some (.pending h) ∧
      ((∃ f, c.step (.settle index outcome) = { c with calls := c.calls.set index (.raised f) }) ∨
        ∃ report, (c.step (.settle index outcome)).turn.committed = true ∧
          (c.step (.settle index outcome)).calls = c.calls.set index (.reported report)) := by
  simp only [step]
  split
  · rename_i h hcall
    refine .inr ⟨h, hcall, ?_⟩
    cases outcome with
    | error f => exact .inl ⟨f, rfl⟩
    | ok report => exact .inr ⟨report, rfl, rfl⟩
  · exact .inl rfl

/-- **Every move `m` keeps what holds among the calls.** -/
theorem Told.step (h : c.Told snapshot) (m : CommitMove) : (c.step m).Told snapshot := by
  cases m with
  | call force =>
    rcases c.step_call force with ⟨f, -, hstep⟩ | ⟨o, hbegin, hstep⟩
    · rw [hstep]
      refine ⟨h.uncommitted, fun report hr => ?_, fun o ho => ?_⟩
      · exact h.committed report (by simpa using hr)
      · exact h.handedOver o (by simpa using ho)
    · obtain ⟨hsnapshot, hopen, -⟩ := Turn.beginCommit_ok hbegin
      rw [hstep]
      refine ⟨h.uncommitted, fun report hr => ?_, fun o' ho => ?_⟩
      · exact h.committed report (by simpa using hr)
      · rcases List.mem_append.1 ho with ho | ho
        · exact h.handedOver o' ho
        · cases List.mem_singleton.1 ho
          exact hsnapshot.trans (h.uncommitted hopen)
  | settle index outcome =>
    rcases c.step_settle index outcome with hstep | ⟨o, -, ⟨f, hstep⟩ | ⟨report, hdone, hcalls⟩⟩
    · rw [hstep]
      exact h
    · rw [hstep]
      refine ⟨h.uncommitted, fun report hr => ?_, fun o' ho => ?_⟩
      · rcases List.mem_or_eq_of_mem_set hr with hr | hr
        · exact h.committed report hr
        · cases hr
      · rcases List.mem_or_eq_of_mem_set ho with ho | ho
        · exact h.handedOver o' ho
        · cases ho
    · refine ⟨fun hopen => absurd (hdone.symm.trans hopen) nofun, fun _ _ => hdone, fun o' ho => ?_⟩
      rw [hcalls] at ho
      rcases List.mem_or_eq_of_mem_set ho with ho | ho
      · exact h.handedOver o' ho
      · cases ho

/-- Where the overlay is handed over no call has reported. -/
theorem HandsOver.not_reported {m : CommitMove} (hm : c.HandsOver m) (h : c.Told snapshot)
    (report : CommitReport) : .reported report ∉ c.calls := by
  intro hr
  cases m with
  | call force =>
    obtain ⟨o, hbegin⟩ := hm
    obtain ⟨-, hopen, -⟩ := Turn.beginCommit_ok hbegin
    exact absurd ((h.committed report hr).symm.trans hopen) nofun
  | settle => exact hm

/-- Where the overlay is handed over, all earlier calls have failed unless one is pending. -/
theorem HandsOver.failed_iff {m : CommitMove} (hm : c.HandsOver m) (h : c.Told snapshot) :
    (∀ call ∈ c.calls, call.isGood = false) ↔ ¬∃ call ∈ c.calls, call.isPending = true := by
  constructor
  · rintro hall ⟨call, hmem, hpending⟩
    exact absurd ((hall call hmem).symm.trans (call.isGood_of_isPending hpending)) nofun
  · intro hnone call hmem
    cases call with
    | pending o => exact absurd ⟨_, hmem, rfl⟩ hnone
    | reported report => exact absurd hmem (hm.not_reported h report)
    | _ => rfl

/-- A call that was settled stays good or becomes bad, and no other changes. -/
theorem countP_step_settle (c : Commits) (index : Nat) (outcome : Except Failure CommitReport) :
    (c.step (.settle index outcome)).calls.countP CommitCall.isGood ≤
      c.calls.countP CommitCall.isGood := by
  have hset : ∀ {h : Turn.Handover} {call : CommitCall}, c.calls[index]? = some (.pending h) →
      (c.calls.set index call).countP CommitCall.isGood ≤ c.calls.countP CommitCall.isGood := by
    intro h call hcall
    obtain ⟨hlt, hget⟩ := List.getElem?_eq_some_iff.1 hcall
    have hgood : CommitCall.isGood c.calls[index] = true := congrArg CommitCall.isGood hget
    have hpos : 0 < c.calls.countP CommitCall.isGood :=
      List.countP_pos_iff.2 ⟨_, List.getElem_mem hlt, hgood⟩
    rw [List.countP_set hlt, if_pos hgood]
    split <;> omega
  rcases c.step_settle index outcome with hstep | ⟨h, hcall, ⟨f, hstep⟩ | ⟨report, -, hcalls⟩⟩
  · exact Nat.le_of_eq (congrArg (fun c => c.calls.countP CommitCall.isGood) hstep)
  · rw [hstep]
    exact hset hcall
  · rw [hcalls]
    exact hset hcall

end Step

/-! ## Runs -/

theorem Told.after {c : Commits} {snapshot : Snapshot} (h : c.Told snapshot)
    (moves : List CommitMove) : (c.after moves).Told snapshot := by
  induction moves generalizing c with
  | nil => exact h
  | cons m moves ih => exact ih (h.step m)

theorem exclusive_iff {c : Commits} {snapshot : Snapshot} (h : c.Told snapshot)
    (moves : List CommitMove) : c.Exclusive moves ↔ ¬c.Overlaps moves := by
  induction moves generalizing c with
  | nil => exact ⟨fun _ => id, fun _ => trivial⟩
  | cons m moves ih =>
    have hnow : (c.HandsOver m → ∀ call ∈ c.calls, call.isGood = false) ↔
        ¬(c.HandsOver m ∧ ∃ call ∈ c.calls, call.isPending = true) :=
      ⟨fun hall ⟨hm, hpending⟩ => (hm.failed_iff h).1 (hall hm) hpending,
        fun hno hm => (hm.failed_iff h).2 fun hpending => hno ⟨hm, hpending⟩⟩
    rw [Exclusive, Overlaps, hnow, ih (h.step m), not_or]

/-- Of calls that are exclusive one is good at most. -/
theorem Exclusive.countP_le {c : Commits} {moves : List CommitMove} (h : c.Exclusive moves)
    (hone : c.calls.countP CommitCall.isGood ≤ 1) :
    (c.after moves).calls.countP CommitCall.isGood ≤ 1 := by
  induction moves generalizing c with
  | nil => exact hone
  | cons m moves ih =>
    obtain ⟨hnow, hrest⟩ := h
    refine ih hrest ?_
    cases m with
    | call force =>
      rcases c.step_call force with ⟨f, -, hstep⟩ | ⟨o, hbegin, hstep⟩
      · rw [hstep]
        simpa [List.countP_append, CommitCall.isGood] using hone
      · have hnone : c.calls.countP CommitCall.isGood = 0 :=
          List.countP_eq_zero.2 fun call hmem =>
            Bool.eq_false_iff.1 (hnow ⟨o, hbegin⟩ call hmem)
        rw [hstep, List.countP_append, hnone]
        exact Nat.le_refl 1
    | settle index outcome => exact Nat.le_trans (c.countP_step_settle index outcome) hone

/-- **Calls are `Exclusive` exactly where none is let through while the committer is at an earlier
    one.** Then one of them reports or is pending at most, and all others were refused or raised.
    However calls overlap, each hands over the same overlay, and none is let through any more once
    one has reported. -/
theorem exclusive_iff_not_overlaps (t : Turn) (moves : List CommitMove) :
    let c := (new t).after moves
    ((new t).Exclusive moves ↔ ¬(new t).Overlaps moves) ∧
      ((new t).Exclusive moves → c.calls.countP CommitCall.isGood ≤ 1) ∧
      (∀ h, .pending h ∈ c.calls → h.snapshot = t.overlay.snapshot) ∧
      ∀ report, .reported report ∈ c.calls →
        ∀ force, c.turn.refusal? force = some .alreadyCommitted := by
  intro c
  have hnew : (new t).Told t.overlay.snapshot := ⟨fun _ => rfl, nofun, nofun⟩
  have hc : c.Told t.overlay.snapshot := hnew.after moves
  refine ⟨exclusive_iff hnew moves, fun h => h.countP_le (Nat.zero_le 1), hc.handedOver,
    fun report hr force => ?_⟩
  rw [Turn.refusal?, if_pos (hc.committed report hr)]

/-- Of any turn that may be committed, two calls that overlap both report. -/
theorem overlapping_calls_report {t : Turn} {force : Bool} (ht : t.refusal? force = none)
    (report report' : CommitReport) :
    ((new t).after [.call force, .call force, .settle 0 (.ok report),
        .settle 1 (.ok report')]).calls = [.reported report, .reported report'] ∧
      ¬(new t).Exclusive [.call force, .call force] := by
  have hbegin : t.beginCommit force = .ok ⟨t.overlay.snapshot, t.status⟩ := by
    rw [Turn.beginCommit, ht]
  have hcall : ∀ calls : List CommitCall, (Commits.mk t calls).step (.call force) =
      ⟨t, calls ++ [.pending ⟨t.overlay.snapshot, t.status⟩]⟩ := by
    intro calls
    simp only [step, hbegin]
  constructor
  · simp only [after, new, List.foldl_cons, List.foldl_nil, hcall]
    rfl
  · rintro ⟨-, hsecond, -⟩
    simp only [new, hcall, HandsOver] at hsecond
    exact absurd (hsecond ⟨_, hbegin⟩ _ List.mem_cons_self) nofun

/-- Two calls to commit a failed turn by force, the second made while the committer is at the
    first, hand over the same overlay and both report. -/
theorem both_report :
    let policy : RetryPolicy := ⟨1, .real (.finite false 120 0), .whole 0⟩
    let config : TurnConfig := ⟨"session", "turn", "pl", none, policy, 50⟩
    let moves : List Move := [.start "go", .reply default .opened,
      .reply default (.failed (.other "RuntimeError" "lost")), .reply default .told,
      .reply default .closed]
    ∃ t, Turn.new? config 2 = some t ∧
      let u := ((Run.new t).after moves).turn
      (∃ r, u.point = .over (.returned (some r))) ∧ u.status = .failed ∧
        ((new u).after [.call true, .call true, .settle 0 (.ok ⟨[], []⟩),
          .settle 1 (.ok ⟨[], []⟩)]).calls = [.reported ⟨[], []⟩, .reported ⟨[], []⟩] ∧
        ¬(new u).Exclusive [.call true, .call true] := by
  intro policy config moves
  exact ⟨_, rfl, ⟨_, rfl⟩, rfl, overlapping_calls_report rfl ⟨[], []⟩ ⟨[], []⟩⟩

end Commits

end StagedEdits
