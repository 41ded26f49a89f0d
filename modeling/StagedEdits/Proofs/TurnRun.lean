import StagedEdits.Proofs.TurnCourse
import StagedEdits.Turn.Commit

set_option autoImplicit false

/-! # Runs of a turn

A turn is moved by the world, which replies, and by its owner, who starts and cancels it, replays
into it, discards its overlay and has it committed. A run is any moves in any order: a move that the
turn is not ready for changes nothing. Beside the turn a run keeps what the type checker answered,
which failures came in where nothing catches them, and what was handed over to be committed.

Main definitions: `Move`, `Run`, `Run.step`, `Run.after`, `Run.Waits` (before the start). Main
statements: `Run.after_invariant`, `Turn.beginCommit_ok`, `Run.Waits.step`. -/

namespace StagedEdits

/-- What can be done with a `Turn`. -/
inductive Move where
  /-- It is started. -/
  | start (prompt : String)
  /-- The world replies; the base reads as it does just then. -/
  | reply (base : BaseTree) (r : Reply)
  /-- A cancellation is requested. -/
  | cancel
  /-- A log is replayed into it. -/
  | replay (base : BaseTree) (log : List Item)
  /-- Its pending changes are dropped. -/
  | discard
  /-- Its overlay is handed over to be committed, if it is not refused. -/
  | handOver (force : Bool)
  /-- A commit that was handed over has come to its end. -/
  | committed (index : Nat) (outcome : Except Failure CommitReport)

/-- A `turn` with what its type checker answered, which failures of the world nothing caught, and
    what was handed over to be committed. -/
structure Run where
  turn : Turn
  answers : List Answer
  /-- The failures of the stream's opening and closing, of pauses and of the listeners. -/
  uncaught : List Failure
  handovers : List Turn.Handover

namespace Run

/-- The run of `t` before any move. -/
def new (t : Turn) : Run := ⟨t, [], [], []⟩

/-- The run `w` after one more move. -/
def step (w : Run) : Move → Run
  | .start prompt =>
    match w.turn.start prompt with
    | .ok t => { w with turn := t }
    | .error _ => w
  | .reply base r =>
    { w with
      turn := w.turn.advance base r
      answers := w.answers ++ (w.turn.answer? r).toList
      uncaught := w.uncaught ++ (w.turn.uncaught? r).toList }
  | .cancel => { w with turn := w.turn.cancel }
  | .replay base log => { w with turn := (w.turn.replay base log).1 }
  | .discard => { w with turn := w.turn.discard }
  | .handOver force =>
    match w.turn.beginCommit force with
    | .ok h => { w with handovers := w.handovers ++ [h] }
    | .error _ => w
  | .committed index outcome =>
    match w.handovers[index]? with
    | some h => { w with turn := w.turn.endCommit h outcome }
    | none => w

/-- The run `w` after `moves`. -/
def after (w : Run) (moves : List Move) : Run := moves.foldl step w

/-- What every move of a kind preserves is preserved by a run of such moves. -/
theorem after_invariant {P : Run → Prop} {moves : List Move}
    (hstep : ∀ w, ∀ m ∈ moves, P w → P (w.step m)) {w : Run} (hw : P w) :
    P (w.after moves) := by
  induction moves generalizing w with
  | nil => exact hw
  | cons m moves ih =>
    have hm := hstep w m List.mem_cons_self hw
    exact ih (fun w m hmem => hstep w m (List.mem_cons_of_mem _ hmem)) hm

end Run

/-! ## Moves of the owner -/

namespace Turn

/-- What is handed over is the overlay of a turn that has ended and was not committed. -/
theorem beginCommit_ok {t : Turn} {force : Bool} {h : Handover} (hb : t.beginCommit force = .ok h) :
    h.snapshot = t.overlay.snapshot ∧ t.committed = false ∧ t.status.isTerminal = true ∧
      (force = false → t.status = .clean) := by
  unfold beginCommit at hb
  cases hr : t.refusal? force with
  | some r =>
    rw [hr] at hb
    cases hb
  | none =>
    rw [hr] at hb
    cases hb
    unfold refusal? at hr
    split at hr
    · cases hr
    · rename_i hcommitted
      split at hr
      · cases hr
      · rename_i hcancelled
        split at hr
        · cases hr
        · rename_i hterminal
          split at hr
          · cases hr
          · rename_i hforced
            refine ⟨rfl, by simpa using hcommitted, by simpa using hterminal, fun hf => ?_⟩
            subst hf
            revert hcancelled hterminal hforced
            cases t.status <;> decide

theorem cancel_course (t : Turn) : t.cancel.course = t.course := by
  unfold cancel
  split <;> rfl

theorem cancel_point (t : Turn) : t.cancel.point = t.point := by
  unfold cancel
  split <;> rfl

/-- A replay applies, and tells nobody. -/
theorem replay_course (t : Turn) (base : BaseTree) (log : List Item) :
    ∃ a ds, (t.replay base log).1.course =
      { t.course with applier := a, applied := t.course.applied ++ ds } ∧
      (t.replay base log).1.point = t.point := by
  have hsame : t.course = { t.course with
      applier := t.applier, applied := t.course.applied ++ [] } := by
    rw [List.append_nil]
    rfl
  unfold replay
  split
  · exact ⟨t.applier, [], hsame, rfl⟩
  · generalize t.applier.replay base t.config.session log = r
    obtain ⟨a, b⟩ := r
    dsimp only
    split
    · refine ⟨a, [], ?_, rfl⟩
      rw [List.append_nil]
      rfl
    · exact ⟨a, b.applied, rfl, rfl⟩

end Turn

namespace Run

/-- Starting a turn that waits to be started makes it ask the agent. -/
theorem step_start (w : Run) (prompt : String) :
    (∃ u, w.step (.start prompt) = { w with turn := u } ∧ w.turn.point = .idle ∧
      u.course = w.turn.course ∧ u.point = .opening) ∨ w.step (.start prompt) = w := by
  simp only [step, Turn.start]
  cases hp : w.turn.point with
  | idle => exact .inl ⟨_, rfl, rfl, rfl, rfl⟩
  | _ => exact .inr rfl

/-- Handing over changes nothing of the turn. -/
theorem step_handOver (w : Run) (force : Bool) :
    (∃ h, w.turn.beginCommit force = .ok h ∧
      w.step (.handOver force) = { w with handovers := w.handovers ++ [h] }) ∨
      w.step (.handOver force) = w := by
  simp only [step]
  cases w.turn.beginCommit force with
  | error f => exact .inr rfl
  | ok h => exact .inl ⟨h, rfl, rfl⟩

/-- A commit that went through clears the overlay, and there is none unless something was handed
    over. -/
theorem step_committed (w : Run) (index : Nat) (outcome : Except Failure CommitReport) :
    (∃ u, w.step (.committed index outcome) = { w with turn := u } ∧ w.handovers ≠ [] ∧
      u.course = { w.turn.course with applier := w.turn.applier.clear, committed := true } ∧
      u.point = w.turn.point) ∨ w.step (.committed index outcome) = w := by
  simp only [step]
  cases hh : w.handovers[index]? with
  | none => exact .inr rfl
  | some h =>
    have hne : w.handovers ≠ [] := fun he => by
      rw [he] at hh
      cases hh
    cases outcome with
    | error f => exact .inr rfl
    | ok report => exact .inl ⟨_, rfl, hne, rfl, rfl⟩

end Run

/-! ## Before the start -/

/-- What holds of a turn that has not been started. -/
structure Unstarted (c : Course) (p : Point) (handovers : List Turn.Handover) : Prop where
  idle : p = .idle
  status : c.status = .streaming
  attempt : c.attempt = 0
  events : c.events = []
  uncommitted : c.committed = false
  kept : handovers = []

namespace Run

/-- That the turn of `w` has not been started. -/
def Waits (w : Run) : Prop := Unstarted w.turn.course w.turn.point w.handovers

theorem new_waits {config : TurnConfig} {maxAttempts : Int} {t : Turn}
    (ht : Turn.new? config maxAttempts = some t) : (new t).Waits := by
  obtain ⟨budget, -, rfl⟩ := Option.map_eq_some_iff.1 ht
  exact ⟨rfl, rfl, rfl, rfl, rfl, rfl⟩

/-- Until it is started, nothing happens to a turn but to its overlay. -/
theorem Waits.step {w : Run} (h : w.Waits) {m : Move} (hm : ∀ prompt, m ≠ .start prompt) :
    (w.step m).Waits := by
  cases m with
  | start prompt => exact absurd rfl (hm prompt)
  | reply base r =>
    have hstay : w.turn.advance base r = w.turn :=
      Turn.advance_of_not_awaited (by rw [h.idle]; rfl) base
    show Unstarted (w.turn.advance base r).course (w.turn.advance base r).point w.handovers
    rw [hstay]
    exact h
  | cancel =>
    show Unstarted w.turn.cancel.course w.turn.cancel.point w.handovers
    rw [w.turn.cancel_course, w.turn.cancel_point]
    exact h
  | replay base log =>
    obtain ⟨a, ds, hc, hp⟩ := w.turn.replay_course base log
    show Unstarted (w.turn.replay base log).1.course (w.turn.replay base log).1.point w.handovers
    rw [hc, hp]
    exact ⟨h.idle, h.status, h.attempt, h.events, h.uncommitted, h.kept⟩
  | discard => exact ⟨h.idle, h.status, h.attempt, h.events, h.uncommitted, h.kept⟩
  | handOver force =>
    rcases w.step_handOver force with ⟨o, hb, -⟩ | hw
    · -- only a turn that has ended is handed over
      have hterminal := (Turn.beginCommit_ok hb).2.2.1
      rw [show w.turn.status = .streaming from h.status] at hterminal
      cases hterminal
    · rw [hw]
      exact h
  | committed index outcome =>
    rcases w.step_committed index outcome with ⟨u, -, hne, -⟩ | hw
    · exact absurd h.kept hne
    · rw [hw]
      exact h

/-- A turn waits until one of the moves starts it. -/
theorem Waits.after {w : Run} (h : w.Waits) {moves : List Move}
    (hmoves : ∀ prompt, .start prompt ∉ moves) : (w.after moves).Waits :=
  after_invariant (fun _ _ hm h => h.step fun prompt he => hmoves prompt (he ▸ hm)) h

end Run

end StagedEdits
